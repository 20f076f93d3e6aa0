import CompositeKeys.Shell.Utility.Aligning
import CompositeKeys.Shell.Utility.Viewing

/-! Utilities that compare two files, byte by byte or line by line. -/

namespace CompositeKeys.Shell.Utility
open Files Procedure

/-- A letter in octal, set to the right in three columns. -/
def octalColumn (letter : Char) : String :=
  toRight 3 (.ofList (Nat.toDigits 8 letter.toNat))

/-- Refuses operands with a message, after which help can be found. -/
def refuseOperands (name message : String) : Procedure Unit := do
  complain name message
  complain name s!"Try '{name} --help' for more information."
  setStatus 2

/-- The positions at which two texts are different, counted from one. -/
def differences : Nat → List Char → List Char → List (Nat × Char × Char)
  | place, first :: rest, second :: others =>
    let more := differences (place + 1) rest others
    if first = second then more else (place, first, second) :: more
  | _, _, _ => []

def compareBytes (name : String) (words : List String) : Procedure Unit := do
  setStatus 0
  let known : Options :=
    { plain := "lsb", valued := "in"
      long := [("verbose", 'l'), ("silent", 's'), ("quiet", 's'), ("print-bytes", 'b'),
        ("ignore-initial", 'i'), ("bytes", 'n')] }
  match known.parse words with
  | .error message => refuseOperands name message
  | .ok given =>
    match given.operands with
    | [] => refuseOperands name s!"missing operand after {quotedWord name}"
    | first :: rest =>
      let second := rest.headD "-"
      let skips := (given.values 'i').flatMap (·.splitOn ":") ++ rest.drop 1
      let skipped := fun index : Nat =>
        (((rest[index]?).or (skips[index - 1]?)).or skips.getLast?).bind sized? |>.getD 0
      let wrongSkip := skips.find? fun word => (sized? word).isNone
      let wrongCount := (given.values 'n').find? fun word => (sized? word).isNone
      if let some wrong := wrongCount then refuseOperands name s!"invalid --bytes value '{wrong}'"
      else if let some wrong := wrongSkip then
        refuseOperands name s!"invalid --ignore-initial value '{wrong}'"
      else if given.has 'l' && given.has 's' then
        refuseOperands name "options -l and -s are incompatible"
      else if let some extra := rest[3]? then
        refuseOperands name s!"extra operand {quotedWord extra}"
      else if first = "-" && second = "-" then pure ()
      else
        match ← contents first, ← contents second with
        | .error error, _ => refuse given first error
        | _, .error error => refuse given second error
        | .ok left, .ok right =>
          let left := left.toList.drop (skipped 1)
          let right := right.toList.drop (skipped 2)
          let limit := (given.value? 'n').bind sized?
          let left := (limit.map left.take).getD left
          let right := (limit.map right.take).getD right
          report given first second left right
where
  refuse (given : Given) (operand : String) (error : FileError) : Procedure Unit := do
    unless given.has 's' && error ≠ .isDirectory do
      complain name s!"{operand}: {error.reason}"
    setStatus 2
  report (given : Given) (first second : String) (left right : List Char) : Procedure Unit := do
    let found := differences 1 left right
    if !found.isEmpty || left.length ≠ right.length then setStatus 1
    unless given.has 's' do
      if given.has 'l' then
        let width := (toString (min left.length right.length)).length
        for (place, one, other) in found do
          let shown := fun letter : Char => if given.has 'b' then " " ++ visible letter else ""
          let gap := if given.has 'b' then
              String.ofList (List.replicate (4 - (visible one).length) ' ') else ""
          emit <| s!"{column width place} {octalColumn one}{shown one}{gap} " ++
            s!"{octalColumn other}{shown other}\n"
      match found.head? with
      | some (place, one, other) =>
        unless given.has 'l' do
          let line := (left.take (place - 1)).count '\n' + 1
          if given.has 'b' then
            emit <| s!"{first} {second} differ: byte {place}, line {line} is " ++
              s!"{octalColumn one} {visible one} {octalColumn other} {visible other}\n"
          else emit s!"{first} {second} differ: char {place}, line {line}\n"
      | none => pure ()
      if (found.isEmpty || given.has 'l') && left.length ≠ right.length then
        let (shorter, letters) := if left.length < right.length then (first, left)
          else (second, right)
        let complain := complain "cmp"
        if letters = [] then complain s!"EOF on {shorter} which is empty"
        else if given.has 'l' then complain s!"EOF on {shorter} after byte {letters.length}"
        else
          let line := letters.count '\n'
          let place := if letters.getLast? = some '\n' then s!"line {line}" else s!"in line {line + 1}"
          complain s!"EOF on {shorter} after byte {letters.length}, {place}"

/-- The numbers of lines from one to another. -/
def rangeText (start finish : Nat) : String :=
  if start + 1 < finish then s!"{start + 1},{finish}"
  else if start = finish then toString start else toString (start + 1)

/-- A line with a mark in front of it. A last line that is not ended is told. -/
def marked (mark line : String) : String :=
  mark ++ line ++ (if line.endsWith "\n" then "" else "\n\\ No newline at end of file\n")

def linesBetween (lines : Array String) (start finish : Nat) : List String :=
  (lines.extract start finish).toList

/-- A change as it is usually shown. -/
def Change.text (change : Change) (first second : Array String) : String :=
  let kind := if change.oldStart = change.oldFinish then "a"
    else if change.newStart = change.newFinish then "d" else "c"
  let old := (linesBetween first change.oldStart change.oldFinish).map (marked "< ")
  let new := (linesBetween second change.newStart change.newFinish).map (marked "> ")
  let middle := if kind = "c" then ["---\n"] else []
  rangeText change.oldStart change.oldFinish ++ kind ++
    rangeText change.newStart change.newFinish ++ "\n" ++ "".intercalate (old ++ middle ++ new)

/-- Changes that are so near to one another that they are shown together. -/
def neighbours (context : Nat) : List Change → List (List Change)
  | [] => []
  | change :: rest =>
    match neighbours context rest with
    | (next :: others) :: groups =>
      if next.oldStart ≤ change.oldFinish + 2 * context then (change :: next :: others) :: groups
      else [change] :: (next :: others) :: groups
    | groups => [change] :: groups

/-- The numbers of lines in a heading: the first one and how many there are. -/
def unifiedRange (start finish : Nat) : String :=
  let count := finish - start
  if count = 1 then toString (start + 1)
  else if count = 0 then s!"{start},0" else s!"{start + 1},{count}"

/-- Changes shown together with lines around them. -/
def unifiedText (context : Nat) (first second : Array String) (group : List Change) : String :=
  let head := group.headD default
  let last := group.getLast?.getD default
  let start := head.oldStart - context
  let newStart := head.newStart - (head.oldStart - start)
  let finish := min first.size (last.oldFinish + context)
  let newFinish := last.newFinish + (finish - last.oldFinish)
  let (pieces, reached) := group.foldl (fun (pieces, reached) change =>
    let same := (linesBetween first reached change.oldStart).map (marked " ")
    let old := (linesBetween first change.oldStart change.oldFinish).map (marked "-")
    let new := (linesBetween second change.newStart change.newFinish).map (marked "+")
    (pieces ++ same ++ old ++ new, change.oldFinish)) (([] : List String), start)
  let rest := (linesBetween first reached finish).map (marked " ")
  s!"@@ -{unifiedRange start finish} +{unifiedRange newStart newFinish} @@\n" ++
    "".intercalate (pieces ++ rest)

/-- One side of changes shown with lines around them. -/
def contextSide (lines : Array String) (mark : String) (start finish : Nat)
    (parts : List (Nat × Nat × Bool)) : List String :=
  let (pieces, reached) := parts.foldl (fun (pieces, reached) (first, last, isBoth) =>
    let same := (linesBetween lines reached first).map (marked "  ")
    let own := (linesBetween lines first last).map (marked (if isBoth then "! " else mark))
    (pieces ++ same ++ own, last)) (([] : List String), start)
  if parts.all fun (first, last, _) => first = last then []
  else pieces ++ (linesBetween lines reached finish).map (marked "  ")

/-- Changes shown with lines around them, first in one file and then in the other. -/
def contextText (context : Nat) (first second : Array String) (group : List Change) : String :=
  let head := group.headD default
  let last := group.getLast?.getD default
  let start := head.oldStart - context
  let newStart := head.newStart - (head.oldStart - start)
  let finish := min first.size (last.oldFinish + context)
  let newFinish := last.newFinish + (finish - last.oldFinish)
  let isBoth := fun change : Change =>
    change.oldStart ≠ change.oldFinish && change.newStart ≠ change.newFinish
  let old := group.map fun change => (change.oldStart, change.oldFinish, isBoth change)
  let new := group.map fun change => (change.newStart, change.newFinish, isBoth change)
  let range := fun start finish : Nat =>
    if finish ≤ start + 1 then toString finish else s!"{start + 1},{finish}"
  s!"***************\n*** {range start finish} ****\n" ++
    "".intercalate (contextSide first "- " start finish old) ++
    s!"--- {range newStart newFinish} ----\n" ++
    "".intercalate (contextSide second "+ " newStart newFinish new)

def comparingOptions : Options :=
  { plain := "uqsrNiwbBacpd", valued := "UCLłWx"
    long := [("unified", 'ú'), ("context", 'ć'), ("brief", 'q'), ("report-identical-files", 's'),
      ("recursive", 'r'), ("new-file", 'N'), ("ignore-case", 'i'), ("ignore-all-space", 'w'),
      ("ignore-space-change", 'b'), ("ignore-blank-lines", 'B'), ("label", 'ł'), ("text", 'a'),
      ("normal", 'ń'), ("color", 'ó'), ("strip-trailing-cr", 'ŕ'), ("exclude", 'x'),
      ("minimal", 'd'), ("left-column", 'ń'), ("suppress-common-lines", 'ń')]
    optional := "úćó" }

/-- A line as far as it counts for whether lines are the same. -/
def comparedLine (given : Given) (line : String) : String :=
  let letters := line.toList
  let isSpace := fun letter : Char => letter = ' ' || ('\t' ≤ letter && letter ≤ '\r')
  let letters := if given.has 'w' then letters.filter (!isSpace ·)
    else if given.has 'b' then
      ((letters.reverse.dropWhile isSpace).reverse.foldl (fun done letter =>
        if isSpace letter && done.head?.any (· = ' ') then done
        else (if isSpace letter then ' ' else letter) :: done) []).reverse
    else if given.has 'ŕ' then
      if line.endsWith "\r\n" then letters.take (letters.length - 2) ++ ['\n'] else letters
    else letters
  .ofList (if given.has 'i' then letters.map Char.toLower else letters)

/-- Whether all that a change takes away and brings is blank. -/
def Change.isBlank (change : Change) (first second : Array String) : Bool :=
  (linesBetween first change.oldStart change.oldFinish).all (· = "\n") &&
    (linesBetween second change.newStart change.newFinish).all (· = "\n")

/-- Compares two texts and shows what is different. -/
def compareTexts (given : Given) (heading first second left right : String) : Procedure Unit := do
  let old := endedLines left
  let new := endedLines right
  let number := fun letter : Char => ((given.value? letter).bind number?)
  let context := if given.hasAny "uUú" then ((number 'U').or (number 'ú')).getD 3
    else if given.hasAny "cCćp" then ((number 'C').or (number 'ć')).getD 3
    else 0
  let before := old.toArray
  let after := new.toArray
  let changes := (changesBetween context (comparedLine given) old new).filter fun change =>
    !(given.has 'B' && change.isBlank before after)
  if changes.isEmpty then
    if given.has 's' then emit s!"Files {first} and {second} are identical\n"
  else
    setStatus 1
    if given.has 'q' then emit s!"Files {first} and {second} differ\n"
    else if (left ++ right).toList.contains '\x00' && !given.has 'a' then
      emit s!"Binary files {first} and {second} differ\n"
    else
      let labels := given.values 'L' ++ given.values 'ł'
      let titles := fun mark other : String =>
        let stamp := "\t1970-01-01 00:00:00.000000000 +0000"
        let title := fun (index : Nat) (path : String) =>
          (labels[index]?).getD (path ++ stamp)
        s!"{mark} {title 0 first}\n{other} {title 1 second}\n"
      emit heading
      if given.hasAny "uUú" then
        emit (titles "---" "+++")
        for group in neighbours context changes do emit (unifiedText context before after group)
      else if given.hasAny "cCćp" then
        emit (titles "***" "---")
        for group in neighbours context changes do emit (contextText context before after group)
      else
        for change in changes do emit (change.text before after)

/-- Compares files, and directories by the files in them. -/
def comparePaths (given : Given) (name : String) (words : List String) :
    Nat → Bool → String → String → Procedure Unit
  | 0, _, _, _ => pure ()
  | fuel + 1, isTop, first, second => do
    let tree := (← get).files
    let isDirectory := fun path : String => path ≠ "-" && tree.hasDirectory (pathOf path)
    let join := fun directory name : String =>
      if directory.endsWith "/" then directory ++ name else directory ++ "/" ++ name
    if isDirectory first && isDirectory second then
      let names := fun path : String => (tree.namesIn (pathOf path)).map Text.bytesOf
      let all := (names first ++ names second).eraseDups.mergeSort fun first second => first ≤ second
      for name' in all do
        let left := join first name'
        let right := join second name'
        let hasLeft := (names first).contains name'
        let hasRight := (names second).contains name'
        if hasLeft && hasRight || given.has 'N' then
          if isDirectory left && isDirectory right then
            if given.has 'r' then comparePaths given name words fuel false left right
            else emit s!"Common subdirectories: {left} and {right}\n"
          else comparePaths given name words fuel false left right
        else
          let place := if hasLeft then first else second
          emit ("Only in " ++ place ++ ": " ++ name' ++ "\n")
          setStatus 1
    else if isTop && isDirectory first && tree.has (pathOf second) then
      comparePaths given name words fuel false (join first ((second.splitOn "/").getLast?.getD "")) second
    else if isTop && isDirectory second && tree.has (pathOf first) then
      comparePaths given name words fuel false first (join second ((first.splitOn "/").getLast?.getD ""))
    else
      let read := fun path : String => do
        match ← contents path with
        | .ok text => return some text
        | .error error =>
          if error = .notFound && given.has 'N' then return some ""
          complain name s!"{path}: {error.reason}"
          setStatus 2
          return none
      let left ← read first
      let right ← read second
      if let (some left, some right) := (left, right) then
        let before := (← get).status
        let options := words.filter fun word => word.startsWith "-" && word ≠ "-"
        let heading := if isTop then ""
          else " ".intercalate (name :: options ++ [first, second]) ++ "\n"
        compareTexts given heading first second left right
        let after := (← get).status
        setStatus (max before after)

def compareLines (name : String) (words : List String) : Procedure Unit := do
  setStatus 0
  match comparingOptions.parse words with
  | .error message => refuseOperands name message
  | .ok given =>
    match given.operands with
    | [first, second] =>
      let isDirectory := fun path : String =>
        return path ≠ "-" && (← get).files.hasDirectory (pathOf path)
      if first = "-" && second = "-" then
        if given.has 's' then emit s!"Files {first} and {second} are identical\n"
      else if (first = "-" && (← isDirectory second)) || (second = "-" && (← isDirectory first)) then
        complain name "cannot compare '-' to a directory"
        setStatus 2
      else comparePaths given name words (words.length + 40) true first second
    | [] => refuseOperands name s!"missing operand after {quotedWord name}"
    | [only] => refuseOperands name s!"missing operand after {quotedWord only}"
    | _ :: _ :: extra :: _ => refuseOperands name s!"extra operand {quotedWord extra}"

end CompositeKeys.Shell.Utility
