import CompositeKeys.Shell.Editing.Script
import CompositeKeys.Shell.Utility.Viewing

/-! How a script edits lines. A round begins with the next line, goes through the instructions, and
ends with the line being shown, unless it is not to be. -/

namespace CompositeKeys.Shell.Editing
open Files Procedure Utility

/-- How lines are edited: whether they are shown at the end of a round, whether files are edited each
for itself, where the result goes, and what executes commands. -/
structure Settings where
  isQuiet : Bool := false
  isSeparate : Bool := false
  replaces : Bool := false
  backup : String := ""
  ending : Char := '\n'
  width : Nat := 70
  execute : String → Procedure String

/-- Whether an instruction is being used on lines: not now, up to a line, up to where its limit is
found, or no more. -/
inductive Use where
  | unused
  | toLine (number : Nat)
  | toLimit
  | over
  deriving DecidableEq, Repr, Inhabited

/-- What is shown at the end of a round besides the line. -/
inductive Addition where
  | text (value : String)
  | file (path : String)
  | lineOf (path : String)

/-- Where an editor has come to. -/
structure Editor where
  operands : List String
  name : String := "-"
  place : Option String := none
  lines : List String := []
  goesOn : Bool := false
  number : Nat := 0
  line : List Char := []
  isEnded : Bool := true
  held : List Char := []
  additions : List Addition := []
  hasChanged : Bool := false
  uses : Array Use := #[]
  lastUsed : Option Matcher := none
  lacksEnding : Bool := false
  output : List String := []
  readers : List (String × List String) := []
  written : List (String × List String) := []
  status : Nat := 0
  isOver : Bool := false

abbrev Work := StateT Editor Procedure

/-- What follows an instruction. -/
inductive Flow where
  | onward
  | to (place : Nat)
  | finished (isShown : Bool)
  | again
  | over (isShown : Bool) (status : Nat)

/-- Writes to where the result goes. What has been written before without an ending gets one. -/
def put (manner : Settings) (text : String) (isEnded : Bool) : Work Unit := do
  let editor ← get
  let front := if editor.lacksEnding then String.singleton manner.ending else ""
  let whole := front ++ text ++ (if isEnded then String.singleton manner.ending else "")
  if manner.replaces && editor.place.isSome then
    set { editor with output := whole :: editor.output, lacksEnding := !isEnded }
  else
    set { editor with lacksEnding := !isEnded }
    emit whole

/-- Writes a text that has its own endings. -/
def putText (manner : Settings) (text : String) : Work Unit := do
  if text ≠ "" then
    let isEnded := text.toList.getLast? = some manner.ending
    put manner (if isEnded then .ofList text.toList.dropLast else text) isEnded

/-- Writes to one of the files that a script writes. -/
def putTo (manner : Settings) (path text : String) (isEnded : Bool) : Work Unit := do
  let whole := text ++ (if isEnded then String.singleton manner.ending else "")
  if path = "/dev/stdout" then put manner text isEnded
  else if path = "/dev/stderr" then
    let _ ← write 2 whole
  else
    modify fun editor =>
      let before := (editor.written.lookup path).getD []
      { editor with
        written := (path, whole :: before) :: editor.written.filter fun entry => entry.1 != path }

/-- Puts the result in the place of the file that has been edited. -/
def replaceFile (manner : Settings) : Work Unit := do
  let editor ← get
  if let some path := editor.place then
    if manner.backup ≠ "" then
      let name := (path.splitOn "/").getLast?.getD path
      let directory := String.ofList (path.toList.take (path.length - name.length))
      let kept := if manner.backup.contains '*' then name.intercalate (manner.backup.splitOn "*")
        else name ++ manner.backup
      let kept := if kept.contains '/' then kept else directory ++ kept
      let before := (← contents path).toOption.getD ""
      let _ ← writeFile kept before
    let _ ← writeFile path ("".intercalate editor.output.reverse)
    set { editor with place := none, output := [], lacksEnding := false }

/-- Begins with the next operand. -/
def openNext (manner : Settings) (name operand : String) : Work Unit := do
  if manner.isSeparate then
    modify fun editor =>
      { editor with number := 0, uses := editor.uses.map fun _ => .unused }
  if manner.replaces && operand ≠ "-" then
    match ← find operand with
    | .ok (_, .file _) => pure ()
    | .ok _ =>
      let _ ← write 2 s!"{name}: couldn't edit {operand}: not a regular file\n"
      modify ({ · with status := 4 })
      return
    | .error _ => pure ()
  match ← available operand with
  | .ok (text, goesOn) =>
    modify fun editor =>
      { editor with
        name := operand
        goesOn
        place := if manner.replaces && operand ≠ "-" then some operand else none
        lines := endedRecords manner.ending text }
  | .error .isDirectory =>
    let _ ← write 2 s!"{name}: read error on {operand}: Is a directory\n"
    modify ({ · with status := 4, operands := [], isOver := true })
  | .error error =>
    let _ ← write 2 s!"{name}: can't read {operand}: {error.reason}\n"
    modify ({ · with status := 2 })

/-- Whether there is another line. Files without lines are passed over. -/
def hasMore (manner : Settings) (name : String) (mayLeave : Bool) : Nat → Work Bool
  | 0 => return false
  | fuel + 1 => do
    let editor ← get
    if !editor.lines.isEmpty then return true
    if editor.goesOn then
      let _ ← release
      throw .timeUp
    if manner.isSeparate && !mayLeave then return false
    match editor.operands with
    | [] => return false
    | operand :: rest =>
      replaceFile manner
      modify ({ · with operands := rest })
      openNext manner name operand
      hasMore manner name mayLeave fuel

/-- Takes the next line, if there is one. -/
def nextLine? (manner : Settings) (name : String) : Work (Option (List Char)) := do
  if !(← hasMore manner name true ((← get).operands.length + 1)) then return none
  let editor ← get
  match editor.lines with
  | [] => return none
  | line :: rest =>
    let letters := line.toList
    let isEnded := letters.getLast? = some manner.ending
    set { editor with lines := rest, number := editor.number + 1, isEnded }
    return some (if isEnded then letters.dropLast else letters)

/-- The expression that is meant, which becomes the one used last. -/
def expressionOf (name : String) (given : Option Matcher) : Work Matcher := do
  match given, (← get).lastUsed with
  | some matcher, _ =>
    modify ({ · with lastUsed := some matcher })
    return matcher
  | none, some matcher => return matcher
  | none, none =>
    let _ ← write 2 s!"{name}: -e expression #1, char 0: no previous regular expression\n"
    setStatus 1
    throw .failure

def isLast (manner : Settings) (name : String) : Work Bool := do
  return !(← hasMore manner name false ((← get).operands.length + 1))

def Address.holds (manner : Settings) (name : String) (address : Address) : Work Bool := do
  let editor ← get
  match address with
  | .line number => return editor.number = number
  | .every first step =>
    return first ≤ editor.number && (editor.number - first) % step = 0
  | .last => isLast manner name
  | .matching given =>
    let matcher ← expressionOf name given
    return matcher.isFound editor.line.toArray

/-- Whether an instruction is for the line. -/
def isFor (manner : Settings) (name : String) (index : Nat) (instruction : Instruction) :
    Work Bool := do
  let setUse := fun use : Use =>
    modify fun editor : Editor => { editor with uses := editor.uses.setIfInBounds index use }
  match instruction.first, instruction.limit with
  | none, _ => return true
  | some first, none => first.holds manner name
  | some first, some limit =>
    let number := (← get).number
    let use := (← get).uses.getD index .unused
    let use := match use, first, limit with
      | .unused, .line 0, .address (.matching _) => Use.toLimit
      | use, _, _ => use
    match use with
    | .toLine last =>
      if last ≤ number then setUse .over
      return number ≤ last
    | .toLimit =>
      match limit with
      | .address address =>
        if ← address.holds manner name then setUse .over else setUse .toLimit
      | _ => pure ()
      return true
    | _ =>
      if !(← first.holds manner name) then return false
      let until? : Option Nat := match limit with
        | .address (.line last) => some last
        | .after count => some (number + count)
        | .multiple 0 => some number
        | .multiple count => some ((number + count - 1) / count * count)
        | .address _ => none
      match until? with
      | some last => setUse (if last ≤ number then .over else .toLine last)
      | none => setUse .toLimit
      return true

/-- Letters with the changes that are asked for. -/
def changed (whole once : Letters) (letters : List Char) : List Char :=
  let body := match whole with
    | .allUpper => letters.map Char.toUpper
    | .allLower => letters.map Char.toLower
    | _ => letters
  match once, body with
  | .firstUpper, letter :: rest => letter.toUpper :: rest
  | .firstLower, letter :: rest => letter.toLower :: rest
  | _, body => body

/-- What takes the place of a match. -/
def replaced (text : Array Char) (found : Match) :
    List Piece → Letters → Letters → List Char
  | [], _, _ => []
  | .letters change :: rest, whole, _ =>
    match change with
    | .firstUpper | .firstLower => replaced text found rest whole change
    | _ => replaced text found rest change .asTheyAre
  | piece :: rest, whole, once =>
    let letters := match piece with
      | .text letters => letters
      | .group number => found.group text number
      | .letters _ => []
    let after := if letters = [] then once else .asTheyAre
    changed whole once letters ++ replaced text found rest whole after

/-- Replaces matches in the line. It tells whether there have been any. -/
def substitute (manner : Settings) (name : String) (how : Substitution) : Work Bool := do
  let matcher ← expressionOf name how.expression
  let editor ← get
  let text := editor.line.toArray
  let found := if how.isGlobal || 1 < how.which then matcher.all text
    else (matcher.search text 0).toList
  let chosen := found.drop (how.which - 1)
  let chosen := if how.isGlobal then chosen else chosen.take 1
  if chosen.isEmpty then return false
  let (pieces, last) := chosen.foldl (fun (pieces, last) (found : Match) =>
    (replaced text found how.replacement .asTheyAre .asTheyAre ::
      lettersBetween text last found.start :: pieces, found.finish)) ([], 0)
  let line := (lettersBetween text last text.size :: pieces).reverse.flatten
  modify ({ · with line, hasChanged := true })
  if how.prints = 2 then put manner (.ofList line) editor.isEnded
  if how.executes then
    let output ← manner.execute (.ofList line)
    let letters := output.toList
    let line := if letters.getLast? = some '\n' then letters.dropLast else letters
    modify ({ · with line })
  let line := String.ofList (← get).line
  if how.prints = 1 then put manner line editor.isEnded
  if let some path := how.path then putTo manner path line editor.isEnded
  return true

/-- A line spelled out so that it cannot be mistaken, in lines of a width. -/
def spelled (width : Nat) (line : List Char) : List Char :=
  let known := [('\\', "\\\\"), ('\x07', "\\a"), ('\x08', "\\b"), ('\x0c', "\\f"), ('\n', "\\n"),
    ('\r', "\\r"), ('\t', "\\t"), ('\x0b', "\\v")]
  let spell := fun letter : Char =>
    match known.lookup letter with
    | some text => text.toList
    | none =>
      if 32 ≤ letter.toNat && letter.toNat < 127 then [letter]
      else
        let digits := Nat.toDigits 8 letter.toNat
        '\\' :: List.replicate (3 - digits.length) '0' ++ digits
  let (done, _) := line.foldl (fun (done, column) letter =>
    let text := spell letter
    if 1 < width && width - 1 < column + text.length then
      (text.reverse ++ '\n' :: '\\' :: done, text.length)
    else (text.reverse ++ done, column + text.length)) ([], 0)
  done.reverse ++ ['$']

/-- Shows what has been added in a round. -/
def flushAdditions (manner : Settings) : Work Unit := do
  let additions := (← get).additions.reverse
  modify ({ · with additions := [] })
  for addition in additions do
    match addition with
    | .text value => putText manner value
    | .file path =>
      let path := if path = "/dev/stdin" then "-" else path
      if let .ok text := ← contents path then putText manner text
    | .lineOf path =>
      let editor ← get
      let lines ← match editor.readers.lookup path with
        | some lines => pure lines
        | none => do
          match ← contents (if path = "/dev/stdin" then "-" else path) with
          | .ok text => pure (recordsIn manner.ending text)
          | .error _ => pure []
      let others := editor.readers.filter fun entry => entry.1 != path
      modify ({ · with readers := (path, lines.drop 1) :: others })
      if let some line := lines.head? then put manner line true

def showLine (manner : Settings) : Work Unit := do
  let editor ← get
  put manner (.ofList editor.line) editor.isEnded

/-- Where a label leads. None leads to the end. -/
def placeOf (script : Script) (label : String) : Flow :=
  if label = "" then .to script.instructions.size
  else .to ((script.labels.lookup label).getD script.instructions.size)

/-- The letters up to the first end of a line, and those after it if there is one. -/
def firstLine (ending : Char) (line : List Char) : List Char × Option (List Char) :=
  let front := line.takeWhile (· ≠ ending)
  (front, if front.length < line.length then some (line.drop (front.length + 1)) else none)

/-- Goes on to the next line, for which the round goes on. -/
def advance (manner : Settings) (name : String) (combine : List Char → List Char → List Char) :
    Work Bool := do
  flushAdditions manner
  let before := (← get).line
  match ← nextLine? manner name with
  | none => return false
  | some line =>
    modify ({ · with line := combine before line })
    return true

/-- Does what an instruction says. -/
def perform (script : Script) (manner : Settings) (name : String) (index : Nat) (edit : Edit) :
    Work Flow := do
  let editor ← get
  let add := fun addition : Addition =>
    modify fun editor : Editor => { editor with additions := addition :: editor.additions }
  match edit with
  | .group _ | .nothing => return .onward
  | .append text => add (.text text); return .onward
  | .insert text => putText manner text; return .onward
  | .change text =>
    let isInside := match editor.uses.getD index .unused with
      | .toLine _ | .toLimit => true
      | _ => false
    let isNegated := (script.instructions[index]?).any (·.isNegated)
    if !isInside || isNegated then putText manner text
    return .finished false
  | .delete => return .finished false
  | .deleteFirst =>
    match (firstLine manner.ending editor.line).2 with
    | some line =>
      modify ({ · with line })
      return .again
    | none => return .finished false
  | .execute command =>
    if command = "" then
      let letters := (← manner.execute (.ofList editor.line)).toList
      let line := if letters.getLast? = some '\n' then letters.dropLast else letters
      modify ({ · with line })
    else putText manner (← manner.execute command)
    return .onward
  | .showName => put manner editor.name true; return .onward
  | .takeHeld => modify ({ · with line := editor.held }); return .onward
  | .addHeld => modify ({ · with line := editor.line ++ manner.ending :: editor.held }); return .onward
  | .hold => modify ({ · with held := editor.line }); return .onward
  | .addToHeld => modify ({ · with held := editor.held ++ manner.ending :: editor.line }); return .onward
  | .exchange => modify ({ · with line := editor.held, held := editor.line }); return .onward
  | .spell width =>
    put manner (.ofList (spelled (width.getD manner.width) editor.line)) true
    return .onward
  | .next =>
    if ← isLast manner name then return .over true 0
    unless manner.isQuiet do showLine manner
    return if ← advance manner name fun _ line => line then .onward else .over false 0
  | .addNext =>
    if ← isLast manner name then return .over true 0
    let combine := fun before line : List Char => before ++ manner.ending :: line
    return if ← advance manner name combine then .onward else .over true 0
  | .print => showLine manner; return .onward
  | .printFirst =>
    let (front, rest) := firstLine manner.ending editor.line
    put manner (.ofList front) (rest.isSome || editor.isEnded)
    return .onward
  | .quit status => return .over true status
  | .leave status => return .over false status
  | .readFile path => add (.file path); return .onward
  | .readLineOf path => add (.lineOf path); return .onward
  | .writeTo path => putTo manner path (.ofList editor.line) editor.isEnded; return .onward
  | .writeFirstTo path =>
    let (front, rest) := firstLine manner.ending editor.line
    putTo manner path (.ofList front) (rest.isSome || editor.isEnded)
    return .onward
  | .substitute how => let _ ← substitute manner name how; return .onward
  | .jump label => return placeOf script label
  | .jumpIfChanged label =>
    modify ({ · with hasChanged := false })
    return if editor.hasChanged then placeOf script label else .onward
  | .jumpUnlessChanged label =>
    modify ({ · with hasChanged := false })
    return if editor.hasChanged then .onward else placeOf script label
  | .translate pairs =>
    modify ({ · with line := editor.line.map fun letter => (pairs.lookup letter).getD letter })
    return .onward
  | .clear => modify ({ · with line := [] }); return .onward
  | .showNumber => put manner (toString editor.number) true; return .onward

/-- Goes through the instructions from a place on. -/
def execute (script : Script) (manner : Settings) (name : String) : Nat → Nat → Work Flow
  | 0, _ => throw .timeUp
  | fuel + 1, index => do
    step
    match script.instructions[index]? with
    | none => return .finished true
    | some instruction =>
      let isChosen := (← isFor manner name index instruction) != instruction.isNegated
      let flow ← match isChosen, instruction.edit with
        | true, edit => perform script manner name index edit
        | false, .group finish => pure (.to finish)
        | false, _ => pure .onward
      match flow with
      | .onward => execute script manner name fuel (index + 1)
      | .to place => execute script manner name fuel place
      | other => return other

/-- Edits the lines one after another. -/
def rounds (script : Script) (manner : Settings) (name : String) (fuel : Nat) :
    Nat → Bool → Work Unit
  | 0, _ => throw .timeUp
  | count + 1, takesLine => do
    if takesLine then
      match ← nextLine? manner name with
      | none => return
      | some line => modify ({ · with line, hasChanged := false })
    let finish := fun isShown : Bool => do
      if isShown && !manner.isQuiet then showLine manner
      flushAdditions manner
    match ← execute script manner name fuel 0 with
    | .finished isShown =>
      finish isShown
      rounds script manner name fuel count true
    | .again =>
      flushAdditions manner
      rounds script manner name fuel count false
    | .over isShown status =>
      if status = 0 || isShown then finish isShown
      modify fun editor => { editor with status := max editor.status status, isOver := true }
    | _ => pure ()

/-- The files that a script writes. -/
def Script.paths (script : Script) : List String :=
  (script.instructions.toList.filterMap fun instruction =>
    match instruction.edit with
    | .writeTo path | .writeFirstTo path => some path
    | .substitute how => how.path
    | _ => none).eraseDups.filter fun path => path ≠ "/dev/stdout" && path ≠ "/dev/stderr"

/-- Edits files, and tells what it has come to. -/
def run (script : Script) (manner : Settings) (name : String) (operands : List String) (fuel : Nat) :
    Procedure Unit := do
  for path in script.paths do
    if let some error := ← writeFile path "" then
      let _ ← write 2 s!"{name}: couldn't open file {path}: {error.reason}\n"
      setStatus 4
      throw .failure
  let start : Editor :=
    { operands, uses := Array.replicate script.instructions.size .unused }
  let work : Work Unit := do
    rounds script manner name fuel fuel true
    replaceFile manner
  let (_, editor) ← work.run start
  for (path, pieces) in editor.written do
    let _ ← writeFile path ("".intercalate pieces.reverse)
  setStatus editor.status

end CompositeKeys.Shell.Editing
