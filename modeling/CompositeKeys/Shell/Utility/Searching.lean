import CompositeKeys.Shell.Utility.Viewing

/-! A utility that selects the lines in which there is a match, and shows them or what is to be known
of them. -/

namespace CompositeKeys.Shell.Utility
open Files Procedure

/-- What is searched for in lines. -/
structure Search where
  matcher : Option Matcher
  isInverted : Bool

def Search.selects (search : Search) (line : String) : Bool :=
  (search.matcher.any fun matcher => matcher.isFound line.toList.toArray) != search.isInverted

/-- Whether letters, of which some may be inside of brackets, contain a set that has been meant for a
class of letters. -/
def hasBareClass : Bool → List Char → Bool
  | _, [] => false
  | true, ']' :: rest => hasBareClass false rest
  | true, _ :: rest => hasBareClass true rest
  | false, '\\' :: _ :: rest => hasBareClass false rest
  | false, '[' :: ':' :: rest =>
    let name := rest.takeWhile (· ≠ ']')
    (1 < name.length && name.getLast? = some ':') || hasBareClass true rest
  | false, letter :: rest => hasBareClass (letter = '[') rest

/-- Where operators are looked for: where an expression begins, further on in it, right after a
bracket that opens a set, or in that set. -/
inductive OperatorSpot where
  | start
  | middle
  | opening
  | inside
  deriving DecidableEq

/-- The operators that have nothing in front of them. -/
def lonelyOperators : OperatorSpot → List Char → List String
  | _, [] => []
  | .opening, _ :: rest => lonelyOperators .inside rest
  | .inside, letter :: rest => lonelyOperators (if letter = ']' then .middle else .inside) rest
  | _, '\\' :: _ :: rest => lonelyOperators .middle rest
  | spot, letter :: rest =>
    let isBrace := letter = '\x7b' && rest.head?.any Char.isDigit
    if spot = .start && ("*+?".contains letter || isBrace) then
      (if isBrace then "\x7b...\x7d" else .singleton letter) :: lonelyOperators .middle rest
    else
      let next := if letter = '[' then .opening
        else if letter = '(' || letter = '|' || letter = '^' then .start else .middle
      lonelyOperators next rest

/-- What letters after a backslash stand for in the spelling that has more of these. -/
def withDigitClasses : List Char → List Char
  | [] => []
  | '\\' :: 'd' :: rest => "[0-9]".toList ++ withDigitClasses rest
  | '\\' :: 'D' :: rest => "[^0-9]".toList ++ withDigitClasses rest
  | '(' :: '?' :: ':' :: rest => '(' :: withDigitClasses rest
  | '\\' :: 't' :: rest => '\t' :: withDigitClasses rest
  | '\\' :: letter :: rest => '\\' :: letter :: withDigitClasses rest
  | letter :: rest => letter :: withDigitClasses rest

/-- Reads what is to be searched for. Each line is an expression of its own. -/
def searchOf (kind : Char) (given : Given) (texts : List String) : Except String Search := do
  let read := fun text : String => do
    if kind = 'F' then return Regex.literal text
    else
      if hasBareClass false text.toList then
        throw "character class syntax is [[:space:]], not [:space:]"
      match kind with
      | 'E' => Regex.parse .extendedSearch text
      | 'P' => Regex.parse .extendedSearch (.ofList (withDigitClasses text.toList))
      | _ => Regex.parse .basicSearch text
  let regexes ← (texts.flatMap fun text => text.splitOn "\n").mapM read
  let guarded := fun regex : Regex =>
    if given.has 'x' then
      .sequence (.assertion .lineStart) (.sequence regex (.assertion .lineFinish))
    else if given.has 'w' then
      .sequence (.assertion .notAfterWord) (.sequence regex (.assertion .notBeforeWord))
    else regex
  let manner : Manner := { ignoresCase := given.hasAny "iy", endsAtLines := given.has 'z' }
  let matcher := match regexes.map guarded with
    | [] => none
    | first :: rest => some ((rest.foldl Regex.either first).matcher manner)
  return { matcher, isInverted := given.has 'v' }

/-- What is shown of a line besides itself. -/
structure LineLabel where
  title : Option String
  showsNumber : Bool
  showsOffset : Bool
  titleEnding : String

def LineLabel.text (label : LineLabel) (mark : String) (number offset : Nat) : String :=
  let title := (label.title.map fun title =>
    title ++ (if label.titleEnding = "" then mark else label.titleEnding)).getD ""
  let number := if label.showsNumber then toString number ++ mark else ""
  let offset := if label.showsOffset then toString offset ++ mark else ""
  title ++ number ++ offset

/-- What becomes of a line that is shown: it has been selected, or stands near one that has. -/
inductive LinePart where
  | hidden
  | near
  | selected
  deriving DecidableEq, Repr, Inhabited

/-- How many lines are shown before and after those that are selected. -/
structure Surroundings where
  before : Nat
  after : Nat
  separator : Option String

/-- The parts of the lines of a text, by the numbers of those that are selected. -/
def partsOf (surroundings : Surroundings) (count : Nat) (selected : List Nat) :
    Array LinePart :=
  let near := selected.foldl (fun (parts : Array LinePart) index =>
    (List.range (surroundings.before + surroundings.after + 1)).foldl (fun parts offset =>
      if surroundings.before ≤ index + offset then
        parts.setIfInBounds (index + offset - surroundings.before) .near
      else parts) parts) (Array.replicate count LinePart.hidden)
  selected.foldl (fun parts index => parts.setIfInBounds index .selected) near

/-- How a text is searched and what is shown of it. -/
structure Report where
  given : Given
  search : Search
  limit : Option Nat
  surroundings : Surroundings
  ending : Char

/-- Shows the lines of a text that have been selected, and those near them. It is told whether lines
have been shown before. -/
def Report.show (report : Report) (label : LineLabel) (lines : List String) (selected : List Nat)
    (isFollowing : Bool) : Procedure Bool := do
  let given := report.given
  let parts := partsOf report.surroundings lines.length selected
  let mut hasShown := isFollowing
  let mut last : Option Nat := none
  let mut offset := 0
  for (line, index) in lines.zipIdx do
    let part := parts.getD index .hidden
    if part ≠ .hidden then
      if let some separator := report.surroundings.separator then
        if hasShown && last ≠ some index then emit (separator ++ "\n")
      hasShown := true
      last := some (index + 1)
      if given.has 'o' then
        if part = .selected && !given.has 'v' then
          let letters := line.toList.toArray
          for found in (report.search.matcher.map (·.all letters)).getD [] do
            if found.start < found.finish then
              let text := String.ofList (found.group letters 0)
              emit ((label.text ":" (index + 1) (offset + found.start) ++ text).push report.ending)
      else
        let mark := if part = .selected then ":" else "-"
        emit ((label.text mark (index + 1) offset ++ line).push report.ending)
    offset := offset + line.length + 1
  return hasShown

/-- Searches one text. It tells how many lines have been selected, and whether lines have been
shown. -/
def Report.perform (report : Report) (name : String) (label : LineLabel) (title text : String)
    (isFollowing : Bool) : Procedure (Nat × Bool) := do
  let given := report.given
  let lines := recordsIn report.ending text
  let selected := (lines.zipIdx.filter fun (line, _) => report.search.selects line).map Prod.snd
  let selected := (report.limit.map selected.take).getD selected
  let isBinary := text.toList.contains '\x00' && !given.hasAny "az"
  if isBinary && given.has 'I' then return (0, isFollowing)
  if given.hasAny "qlL" then return (selected.length, isFollowing)
  if given.has 'c' then
    let front := (label.title.map fun title =>
      title ++ (if label.titleEnding = "" then ":" else label.titleEnding)).getD ""
    emit s!"{front}{selected.length}\n"
    return (selected.length, isFollowing)
  if isBinary then
    let isSeen := !((← channel? 1).any fun found => found.2 matches .nowhere)
    if isSeen && !selected.isEmpty then complain name s!"{title}: binary file matches"
    return (selected.length, isFollowing)
  return (selected.length, ← report.show label lines selected isFollowing)

def grepOptions : Options :=
  { plain := "EFGPivcqnlLowxshHrRaZyzbITUu", valued := "emfABCdDçþłøß"
    long := [("extended-regexp", 'E'), ("fixed-strings", 'F'), ("basic-regexp", 'G'),
      ("perl-regexp", 'P'), ("regexp", 'e'), ("file", 'f'), ("ignore-case", 'i'),
      ("no-ignore-case", 'ı'), ("invert-match", 'v'), ("word-regexp", 'w'), ("line-regexp", 'x'),
      ("count", 'c'), ("files-without-match", 'L'), ("files-with-matches", 'l'),
      ("max-count", 'm'), ("only-matching", 'o'), ("quiet", 'q'), ("silent", 'q'),
      ("no-messages", 's'), ("byte-offset", 'b'), ("with-filename", 'H'), ("no-filename", 'h'),
      ("label", 'ł'), ("line-number", 'n'), ("initial-tab", 'T'), ("null", 'Z'),
      ("after-context", 'A'), ("before-context", 'B'), ("context", 'C'), ("text", 'a'),
      ("recursive", 'r'), ("dereference-recursive", 'R'), ("include", 'ç'), ("exclude", 'þ'),
      ("exclude-dir", 'ø'), ("null-data", 'z'), ("color", 'ć'), ("colour", 'ć'),
      ("line-buffered", 'u'), ("group-separator", 'ß'), ("no-group-separator", 'ń'),
      ("binary-files", 'D'), ("directories", 'd')]
    optional := "ć" }

/-- The files to search at and below a path. -/
def filesBelow (given : Given) (path : String) : Procedure (List String) := do
  let tree := (← get).files
  let wanted := fun path : String =>
    let name := (path.splitOn "/").getLast?.getD path
    let isIncluded := given.values 'ç' = [] || isNamedBy (given.values 'ç') name
    isIncluded && !isNamedBy (given.values 'þ') name
  let isAllowed := fun path : String =>
    !(path.splitOn "/").dropLast.any (isNamedBy (given.values 'ø'))
  match tree.filesUnder (pathOf path) with
  | .ok paths =>
    let below := (paths.map fun path => Text.bytesOf path.text).mergeSort (· ≤ ·)
    return below.filter fun path => wanted path && isAllowed path
  | .error _ => return [path]

/-- A first option that is no more than a number stands for a number of lines around. -/
def withContext (words : List String) : List String :=
  words.map fun word =>
    match word.toList with
    | '-' :: digits => if digits ≠ [] && digits.all Char.isDigit then "-C" ++ .ofList digits else word
    | _ => word

/-- What is asked for by options, or what is wrong with them. -/
def reportOf (kind : Char) (given : Given) (texts : List String) : Except String Report := do
  let context := fun letters : String => do
    match (given.options.filter fun option => letters.contains option.1).getLast? with
    | none => return 0
    | some (_, text) =>
      match number? text with
      | some count => return count
      | none => throw s!"{text}: invalid context length argument"
  let own := fun letter : String => given.options.any fun option => letter.contains option.1
  let before ← if own "B" then context "B" else context "C"
  let after ← if own "A" then context "A" else context "C"
  let limit ← match given.value? 'm' with
    | none => pure none
    | some text =>
      match integer? text with
      | some count => pure (if count < 0 then none else some count.toNat)
      | none => throw "invalid max count"
  let separator := if !own "ABC" || given.has 'ń' then none
    else some ((given.value? 'ß').getD "--")
  return {
    given
    search := ← searchOf kind given texts
    limit
    surroundings := { before, after, separator }
    ending := if given.has 'z' then '\x00' else '\n' }
where
  integer? (text : String) : Option Int :=
    match text.toList with
    | '-' :: digits => (number? (.ofList digits)).map fun value => -(value : Int)
    | _ => (number? text).map Int.ofNat

/-- Searches all operands. -/
def searchAll (name : String) (report : Report) (operands : List String) : Procedure Unit := do
  let given := report.given
  let isRecursive := given.hasAny "rR"
  let sources ← if isRecursive then
      if operands = [] then do
        pure ((← filesBelow given ".").map fun path => String.ofList (path.toList.drop 2))
      else operands.flatMapM (filesBelow given)
    else pure (if operands = [] then ["-"] else operands)
  let isLabelled := match given.last? "hH" with
    | some 'h' => false
    | some _ => true
    | none => 1 < operands.length || isRecursive
  let mut isFound := false
  let mut isFaulty := false
  let mut hasShown := false
  for source in sources do
    unless given.has 'q' && isFound do
      match ← contentsSoFar source with
      | .error error =>
        isFaulty := true
        unless given.has 's' do complain name s!"{source}: {error.reason}"
      | .ok text =>
        let title := if source = "-" then (given.value? 'ł').getD "(standard input)" else source
        let label : LineLabel :=
          { title := if isLabelled then some title else none
            showsNumber := given.has 'n', showsOffset := given.has 'b'
            titleEnding := if given.has 'Z' then "\x00" else "" }
        let (count, shown) ← report.perform name label title text hasShown
        hasShown := shown
        if 0 < count then isFound := true
        if (report.limit.any (· ≤ count)) || (0 < count && given.hasAny "qlL") then
          modify ({ · with hasEndlessInput := false })
        let isListed := (given.has 'l' && 0 < count) || (given.has 'L' && count = 0)
        if isListed && !given.has 'q' then emit (title ++ (if given.has 'Z' then "\x00" else "\n"))
  setStatus (if isFound && (given.has 'q' || !isFaulty) then 0 else if isFaulty then 2 else 1)

/-- Searches for expressions of a kind, unless options ask for another one. -/
def grep (usualKind : Char) (name : String) (words : List String) : Procedure Unit := do
  let usage := "Usage: grep [OPTION]... PATTERNS [FILE]...\n" ++
    "Try 'grep --help' for more information.\n"
  setStatus 2
  match grepOptions.parse (withContext words) with
  | .error message =>
    complain name message
    let _ ← write 2 usage
  | .ok given =>
    let mut patterns := []
    let mut isReadable := true
    for (letter, value) in given.options do
      if letter = 'e' then patterns := patterns ++ [value]
      else if letter = 'f' then
        match ← contents value with
        | .ok text => patterns := patterns ++ linesIn text
        | .error error =>
          complain name s!"{value}: {error.reason}"
          isReadable := false
    let isNamed := given.hasAny "ef"
    if isReadable then
      if !isNamed && given.operands = [] then
        let _ ← write 2 usage
      else
        let texts := if isNamed then patterns else given.operands.take 1
        let operands := if isNamed then given.operands else given.operands.drop 1
        let kind := (given.last? "EFGP").getD usualKind
        match reportOf kind given texts with
        | .error message => complain name message
        | .ok report =>
          if kind = 'E' then
            for text in texts do
              for operator in lonelyOperators .start text.toList do
                complain name s!"warning: {operator} at start of expression"
          if report.limit = some 0 then setStatus 1
          else searchAll name report operands

end CompositeKeys.Shell.Utility
