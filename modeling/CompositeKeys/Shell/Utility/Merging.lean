import CompositeKeys.Shell.Utility.Selecting

/-! Utilities that go through two files side by side, whose lines have to be in order. -/

namespace CompositeKeys.Shell.Utility
open Files Procedure

/-- When it is looked at whether lines are in order: never, once a line has been found that the
other file has not, or always. -/
inductive OrderCheck where
  | never
  | afterUnpaired
  | always
  deriving DecidableEq, Repr

/-- One of two files: the lines that are left, the number of the first one, and whether it has been
said that they are not in order. -/
structure Side where
  lines : List String
  number : Nat := 1
  isFaulty : Bool := false

/-- Where two files have come to. -/
structure Merge where
  first : Side
  second : Side
  isUnpaired : Bool := false
  isOver : Bool := false

/-- How two files are gone through. The side is told by whether it is the second one. -/
structure Merging where
  check : OrderCheck
  compare : (isSecond : Bool) → String → (isOtherSecond : Bool) → String → Ordering
  disorder : (isSecond : Bool) → (number : Nat) → String → String

/-- Goes on to the next line of a file, and says so if it is not in order. -/
def Merging.advance (merging : Merging) (name : String) (isSecond : Bool) (merge : Merge) :
    Procedure Merge := do
  let side := if isSecond then merge.second else merge.first
  let moved := { side with lines := side.lines.drop 1, number := side.number + 1 }
  let isChecked := merging.check = .always || (merging.check = .afterUnpaired && merge.isUnpaired)
  let isWrong := match side.lines with
    | before :: after :: _ =>
      isChecked && !side.isFaulty && merging.compare isSecond before isSecond after = .gt
    | _ => false
  if isWrong then
    complain name (merging.disorder isSecond moved.number (moved.lines.headD ""))
    setStatus 1
  let moved := { moved with isFaulty := side.isFaulty || isWrong }
  let isOver := merge.isOver || (isWrong && merging.check = .always)
  return if isSecond then { merge with second := moved, isOver }
    else { merge with first := moved, isOver }

/-- How the lines of two files are shown that are in one of them, or in both. -/
structure Columns where
  given : Given
  delimiter : String

def Columns.line (columns : Columns) (column : Nat) (text : String) : Procedure Unit := do
  let isHidden := fun column : Nat => columns.given.has (Char.ofNat ('0'.toNat + column))
  unless isHidden column do
    let before := (List.range column).filter fun other => 0 < other && !isHidden other
    let ending := if columns.given.has 'z' then "\x00" else "\n"
    emit ("".intercalate (before.map fun _ => columns.delimiter) ++ text ++ ending)

/-- Shows the lines of two files side by side, with the counts of each kind. -/
def showCommon (merging : Merging) (name : String) (columns : Columns) :
    Nat → Merge → Nat × Nat × Nat → Procedure (Merge × Nat × Nat × Nat)
  | 0, merge, counts => return (merge, counts)
  | fuel + 1, merge, (onlyFirst, onlySecond, both) => do
    if merge.isOver then return (merge, onlyFirst, onlySecond, both)
    match merge.first.lines, merge.second.lines with
    | [], [] => return (merge, onlyFirst, onlySecond, both)
    | first, second =>
      let order := match first, second with
        | left :: _, right :: _ => merging.compare false left true right
        | _ :: _, [] => .lt
        | [], _ => .gt
      match order with
      | .eq =>
        columns.line 3 (first.headD "")
        let merge ← merging.advance name false merge
        let merge ← merging.advance name true merge
        showCommon merging name columns fuel merge (onlyFirst, onlySecond, both + 1)
      | .lt =>
        columns.line 1 (first.headD "")
        let merge ← merging.advance name false { merge with isUnpaired := true }
        showCommon merging name columns fuel merge (onlyFirst + 1, onlySecond, both)
      | .gt =>
        columns.line 2 (second.headD "")
        let merge ← merging.advance name true { merge with isUnpaired := true }
        showCommon merging name columns fuel merge (onlyFirst, onlySecond + 1, both)

def orderCheckOf (given : Given) : OrderCheck :=
  match given.last? "čń" with
  | some 'č' => .always
  | some _ => .never
  | none => .afterUnpaired

/-- Says at the end that lines were not in order. -/
def reportDisorder (name : String) (merge : Merge) : Procedure Unit := do
  if !merge.isOver && (merge.first.isFaulty || merge.second.isFaulty) then
    complain name "input is not in sorted order"
    setStatus 1

/-- The lines of two files, both of which have to be there. -/
def bothSides (name : String) (ending : Char) (first second : String)
    (ofDirectory : String → String) : Procedure (Option (List String × List String)) := do
  let left ← contents first
  let right ← contents second
  let refuse := fun message : String => do
    complain name message
    setStatus 1
    return none
  let refuseMissing := fun (operand : String) (error : FileError) =>
    refuse s!"{quotedIfNeeded operand}: {error.reason}"
  match left, right with
  | .ok left, .ok right => return some (recordsIn ending left, recordsIn ending right)
  | .error .isDirectory, .error .isDirectory => refuse (ofDirectory first)
  | .error .isDirectory, .error error => refuseMissing second error
  | .error .isDirectory, .ok _ => refuse (ofDirectory first)
  | .error error, _ => refuseMissing first error
  | .ok _, .error .isDirectory => refuse (ofDirectory second)
  | .ok _, .error error => refuseMissing second error

/-- Does something with two operands. -/
def withTwo (name : String) (operands : List String) (action : String → String → Procedure Unit) :
    Procedure Unit := do
  match operands with
  | [first, second] => action first second
  | [] => missingOperand name
  | [only] => suggestHelp name s!"missing operand after {quotedWord only}"
  | _ :: _ :: extra :: _ => extraOperand name extra

def common (name : String) (words : List String) : Procedure Unit :=
  withGiven name 1
    { plain := "123zčń", valued := "d", long := [("check-order", 'č'), ("nocheck-order", 'ń'),
      ("output-delimiter", 'd'), ("total", 't'), ("zero-terminated", 'z')] } words
    fun given => withTwo name given.operands fun first second => do
      let ending := if given.has 'z' then '\x00' else '\n'
      let ofDirectory := fun operand : String => s!"{quotedIfNeeded operand}: Is a directory"
      if let some (left, right) ← bothSides name ending first second ofDirectory then
        let columns : Columns :=
          { given, delimiter := ((given.value? 'd').map fun text =>
              if text = "" then "\x00" else text).getD "\t" }
        let merging : Merging :=
          { check := orderCheckOf given
            compare := fun _ left _ right => compare left right
            disorder := fun isSecond _ _ =>
              s!"file {if isSecond then 2 else 1} is not in sorted order" }
        let (merge, counts) ← showCommon merging name columns (left.length + right.length + 1)
          { first := { lines := left }, second := { lines := right } } (0, 0, 0)
        if given.has 't' && !merge.isOver then
          let numbers := [toString counts.1, toString counts.2.1, toString counts.2.2, "total"]
          emit ((columns.delimiter.intercalate numbers).push ending)
        reportDisorder name merge

/-- A field that is shown: of which file, or the one that lines are joined by. -/
inductive Shown where
  | joint
  | field (isSecond : Bool) (number : Nat)

/-- How lines are joined: by which fields, and what is shown of them. -/
structure Joining where
  separator : Option Char
  firstField : Nat
  secondField : Nat
  shown : Option (List Shown)
  missing : String
  ignoresCase : Bool

namespace Joining

def fields (joining : Joining) (line : String) : List String :=
  match joining.separator with
  | some letter => line.splitOn (.singleton letter)
  | none =>
    (line.toList.splitBy fun first second => isBlankIn first == isBlankIn second).filterMap
      fun piece => if piece.any isBlankIn then none else some (.ofList piece)
where
  isBlankIn (letter : Char) : Bool := letter = ' ' || letter = '\t'

def key (joining : Joining) (isSecond : Bool) (line : String) : String :=
  let number := if isSecond then joining.secondField else joining.firstField
  let text := ((joining.fields line)[number - 1]?).getD ""
  if joining.ignoresCase then text.toLower else text

/-- The text for lines that are joined, either of which may be missing. -/
def text (joining : Joining) (first second : Option String) : String :=
  let parts := fun line : Option String => (line.map joining.fields).getD []
  let left := parts first
  let right := parts second
  let filled := fun (fields : List String) (number : Nat) =>
    ((fields[number - 1]?).filter (· ≠ "")).getD joining.missing
  let joint := if first.isSome then filled left joining.firstField
    else filled right joining.secondField
  let pieces := match joining.shown with
    | some shown => shown.map fun
      | .joint => joint
      | .field isSecond number => filled (if isSecond then right else left) number
    | none =>
      let others := fun (fields : List String) (number : Nat) =>
        (fields.zipIdx 1).filterMap fun (field, place) =>
          if place = number then none else some (if field = "" then joining.missing else field)
      joint :: others left joining.firstField ++ others right joining.secondField
  (String.singleton (joining.separator.getD ' ')).intercalate pieces

/-- The fields that a list of them asks for. -/
def shownOf (lists : List String) : Except String (List Shown) :=
  let words := lists.flatMap fun list => (list.splitOn ",").flatMap (·.splitOn " ")
  (words.filter (· ≠ "")).mapM fun word =>
    if word = "0" then .ok .joint
    else match word.splitOn "." with
      | [file, number] =>
        if file ≠ "1" && file ≠ "2" then
          .error s!"invalid file number in field spec: {quotedWord word}"
        else match (number? number).filter (0 < ·) with
          | some number => .ok (.field (file = "2") number)
          | none => .error s!"invalid field number: {quotedWord number}"
      | _ => .error s!"invalid field specifier: {quotedWord word}"

end Joining

/-- The lines at the front of a file that have the same key as a line, which are taken one by one. -/
def takeAlike (merging : Merging) (name : String) (isSecond : Bool) (other : String) :
    Nat → Merge → List String → Procedure (List String × Merge)
  | 0, merge, taken => return (taken.reverse, merge)
  | fuel + 1, merge, taken => do
    let side := if isSecond then merge.second else merge.first
    match side.lines with
    | line :: _ =>
      if merge.isOver || merging.compare isSecond line (!isSecond) other ≠ .eq then
        return (taken.reverse, merge)
      let merge ← merging.advance name isSecond merge
      takeAlike merging name isSecond other fuel merge (line :: taken)
    | [] => return (taken.reverse, merge)

/-- Joins the lines of two files that have the same key. -/
def joinLines (merging : Merging) (joining : Joining) (name : String) (ending : Char)
    (showsPairs showsFirst showsSecond : Bool) : Nat → Merge → Procedure Merge
  | 0, merge => return merge
  | fuel + 1, merge => do
    if merge.isOver then return merge
    let show' := fun first second : Option String => emit ((joining.text first second).push ending)
    let again := joinLines merging joining name ending showsPairs showsFirst showsSecond fuel
    match merge.first.lines, merge.second.lines with
    | [], [] => return merge
    | left :: _, [] =>
      if showsFirst then show' (some left) none
      again (← merging.advance name false merge)
    | [], right :: _ =>
      if showsSecond then show' none (some right)
      again (← merging.advance name true merge)
    | left :: _, right :: _ =>
      match merging.compare false left true right with
      | .lt =>
        if showsFirst then show' (some left) none
        let merge ← merging.advance name false merge
        again { merge with isUnpaired := true }
      | .gt =>
        if showsSecond then show' none (some right)
        let merge ← merging.advance name true merge
        again { merge with isUnpaired := true }
      | .eq =>
        let (firsts, merge) ← takeAlike merging name false right
          (merge.first.lines.length + 1) merge []
        let (seconds, merge) ← takeAlike merging name true left
          (merge.second.lines.length + 1) merge []
        if showsPairs then
          for first in firsts do
            for second in seconds do show' (some first) (some second)
        let isUnpaired := merge.isUnpaired || merge.first.lines.isEmpty != merge.second.lines.isEmpty
        again { merge with isUnpaired }

/-- How lines are to be joined. -/
def joiningOf (given : Given) : Except String Joining := do
  let field := fun letters : String => do
    match (given.options.filter fun option => letters.contains option.1).getLast? with
    | none => return 1
    | some (_, text) =>
      match (number? text).filter (0 < ·) with
      | some number => return number
      | none => throw s!"invalid field number: {quotedWord text}"
  for text in given.values 'a' ++ given.values 'v' do
    unless text = "1" || text = "2" do throw s!"invalid field number: {quotedWord text}"
  if 1 < ((given.values 'e').eraseDups).length then
    throw "conflicting empty-field replacement strings"
  let separator ← match given.value? 't' with
    | none => pure none
    | some "" => pure (some '\n')
    | some "\\0" => pure (some '\x00')
    | some text => match text.toList with
      | [letter] => pure (some letter)
      | _ => throw s!"multi-character tab {quotedWord text}"
  let lists := given.values 'o'
  let shown ← Joining.shownOf (lists.filter (· ≠ "auto"))
  return {
    separator
    firstField := ← field "1j"
    secondField := ← field "2j"
    shown := if shown.isEmpty then none else some shown
    missing := (given.value? 'e').getD ""
    ignoresCase := given.has 'i' }

/-- The fields that are shown if their number is that of the first lines. -/
def automatic (joining : Joining) (left right : List String) : List Shown :=
  let fields := fun (isSecond : Bool) (lines : List String) (number : Nat) =>
    let count := (lines.head?.map fun line => (joining.fields line).length).getD 0
    ((List.range count).filter (· + 1 ≠ number)).map fun place => Shown.field isSecond (place + 1)
  .joint :: fields false left joining.firstField ++ fields true right joining.secondField

def join (name : String) (words : List String) : Procedure Unit :=
  withGiven name 1
    { plain := "izhčń", valued := "12ajtveo"
      long := [("check-order", 'č'), ("nocheck-order", 'ń'), ("header", 'h'), ("ignore-case", 'i'),
        ("zero-terminated", 'z')] } words
    fun given => do
      match joiningOf given with
      | .error message =>
        complain name message
        setStatus 1
      | .ok joining => withTwo name given.operands fun first second => do
        if first = "-" && second = "-" then
          complain name "both files cannot be standard input"
          setStatus 1
        else
          let ending := if given.has 'z' then '\x00' else '\n'
          let ofDirectory := fun _ : String => "read error: Is a directory"
          if let some (left, right) ← bothSides name ending first second ofDirectory then
            let joining := if given.value? 'o' = some "auto" then
                { joining with shown := some (automatic joining left right) }
              else joining
            let merging : Merging :=
              { check := orderCheckOf given
                compare := fun isSecond line isOtherSecond other =>
                  compare (joining.key isSecond line) (joining.key isOtherSecond other)
                disorder := fun isSecond number line =>
                  s!"{if isSecond then second else first}:{number}: is not sorted: {line}" }
            let unpaired := given.values 'a' ++ given.values 'v'
            let heads := if given.has 'h' then 1 else 0
            if given.has 'h' && !(left.isEmpty && right.isEmpty) then
              emit ((joining.text left.head? right.head?).push ending)
            let merge ← joinLines merging joining name ending (!given.has 'v')
              (unpaired.contains "1") (unpaired.contains "2") (left.length + right.length + 1)
              { first := { lines := left.drop heads, number := heads + 1 }
                second := { lines := right.drop heads, number := heads + 1 } }
            reportDisorder name merge

end CompositeKeys.Shell.Utility
