import CompositeKeys.Shell.Awk.Reading
import CompositeKeys.Shell.Awk.Table
import CompositeKeys.Shell.Utility.Launching

/-! What a program for records of text works on: its variables, the record it has come to, and the
files and commands that it reads from and writes to. -/

namespace CompositeKeys.Shell.Awk
open Files Procedure Utility

/-- What a variable is: a value, a table, or neither of them yet. One that has been passed on as
neither may turn out to be a table there. -/
inductive Slot where
  | value (value : Value)
  | table (number : Nat)
  | unset (table : Option Nat)

instance : Inhabited Slot := ⟨.unset none⟩

/-- A text that is read record by record. -/
structure Stream where
  text : Array Char := #[]
  position : Nat := 0
  goesOn : Bool := false
  status : Nat := 0

/-- Where output goes that has been redirected. What is meant for a command is kept until the command
gets it. -/
structure Output where
  name : String
  isCommand : Bool
  channel : Option Nat
  pieces : List String := []

structure Machine where
  shared : Std.HashMap String Slot := {}
  own : Array Slot := #[]
  tables : Array Table := #[]
  whole : Value := .text ""
  fields : Array Value := #[]
  separator : String := " "
  splitsLines : Bool := false
  isSplit : Bool := true
  isStale : Bool := false
  records : Option Stream := none
  operand : Nat := 1
  hasOpened : Bool := false
  isOver : Bool := false
  files : List (String × Stream) := []
  commands : List (String × Stream) := []
  outputs : List Output := []
  begun : List Nat := []
  matchers : Std.HashMap String Matcher := {}
  seed : Value := .number 0.0
  chance : Nat := 1
  status : Nat := 0

/-- Why statements are left. -/
inductive Leave where
  | nextRecord
  | nextFile
  | exit
  | return (value : Value)
  | leave
  | again
  | fault (message : String)

abbrev Running := ExceptT Leave (StateT Machine Procedure)

namespace Running

/-- What a program does to a session. -/
def onSession {α : Type} (action : Procedure α) : Running α := ExceptT.lift (StateT.lift action)

def outcome {α : Type} (action : Running α) : Running (Except Leave α) :=
  ExceptT.mk do return .ok (← action.run)

def slot (name : Variable) : Running Slot := do
  match name with
  | .shared name => return ((← get).shared.get? name).getD (.unset none)
  | .own index => return (← get).own.getD index (.unset none)

def setSlot (name : Variable) (slot : Slot) : Running Unit := do
  match name with
  | .shared name => modify fun machine => { machine with shared := machine.shared.insert name slot }
  | .own index => modify fun machine => { machine with own := machine.own.setIfInBounds index slot }

/-- The number of the table that a variable is, which becomes one if it is nothing else. -/
def tableOf (name : Variable) : Running Nat := do
  match ← slot name with
  | .table number => return number
  | .unset (some number) => setSlot name (.table number); return number
  | _ =>
    let number := (← get).tables.size
    modify fun machine => { machine with tables := machine.tables.push {} }
    setSlot name (.table number)
    return number

def table (number : Nat) : Running Table := return (← get).tables.getD number {}

def setTable (number : Nat) (table : Table) : Running Unit :=
  modify fun machine => { machine with tables := machine.tables.setIfInBounds number table }

/-- A variable of the program whose value is not looked for elsewhere. -/
def plain (name : String) : Running Value := do
  match (← get).shared.get? name with
  | some (.value value) => return value
  | _ => return .nothing

def setPlain (name : String) (value : Value) : Running Unit :=
  modify fun machine => { machine with shared := machine.shared.insert name (.value value) }

/-- The format of numbers in texts. -/
def textFormat : Running String := return (← plain "CONVFMT").toText "%.6g"

def text (value : Value) : Running String := return value.toText (← textFormat)

/-- What a run-time fault is said to be, with the place that has been reached. -/
def refuse {α : Type} (message : String) : Running α := do
  let format ← textFormat
  let shown := fun name : String => return (← plain name).toText format
  let file ← shown "FILENAME"
  let ofFile ← shown "FNR"
  let ofAll ← shown "NR"
  throw (.fault <| s!"run time error: {message}\n\tFILENAME=\"{file}\" " ++
    s!"FNR={ofFile} NR={ofAll}")

/-- The matcher that a text spells. -/
def matcherOf (spelled : String) : Running Matcher := do
  if let some found := (← get).matchers.get? spelled then return found
  match Regex.parse .program spelled with
  | .ok regex =>
    let found := regex.matcher
    modify fun machine => { machine with matchers := machine.matchers.insert spelled found }
    return found
  | .error message => throw (.fault s!"regular expression compile failed ({message})\n{spelled}")

/-- The parts of a text between matches, of which those of nothing do not count. -/
def partsBetween (matcher : Matcher) (letters : List Char) : List String :=
  let text := letters.toArray
  let found := (matcher.all text).filter fun found => found.start < found.finish
  let starts := 0 :: found.map Match.finish
  let finishes := found.map Match.start ++ [text.size]
  (starts.zip finishes).map fun (start, finish) => .ofList (lettersBetween text start finish)

/-- The words of letters, which blanks set apart. -/
def wordsBetween (letters : List Char) : List String :=
  ((letters.splitBy fun first second => isBlank first == isBlank second).filter fun piece =>
    !piece.head?.any isBlank).map String.ofList

/-- The spelling of a separator, one letter of which stands for itself. -/
def protectedLetter (separator : String) : String :=
  match separator.toList with
  | [letter] => if "\\^$.[]|()*+?\x7b\x7d".contains letter then "\\" ++ separator else separator
  | _ => separator

/-- The parts of a text that a separator sets apart. The ends of lines may do so as well. -/
def parts (separator text : String) (alsoLines : Bool) : Running (List String) := do
  let letters := text.toList
  if letters = [] then return []
  match separator.toList with
  | [] => return letters.map String.singleton
  | [' '] => return wordsBetween letters
  | [letter] =>
    if alsoLines then return partsBetween (← matcherOf (protectedLetter separator ++ "|\n")) letters
    else return text.splitOn (.singleton letter)
  | _ =>
    let spelled := if alsoLines then "(" ++ separator ++ ")|\n" else separator
    return partsBetween (← matcherOf spelled) letters

/-- Makes a value the record, whose fields are looked for when they are wanted. -/
def setRecord (whole : Value) : Running Unit := do
  let separator ← text (← plain "FS")
  let splitsLines := (← text (← plain "RS")) = ""
  modify ({ · with whole, separator, splitsLines, isSplit := false, isStale := false })

/-- Looks for the fields of the record. -/
def splitRecord : Running Unit := do
  let machine ← get
  unless machine.isSplit do
    let found ← parts machine.separator (← text machine.whole) machine.splitsLines
    modify ({ · with fields := (found.map Value.read).toArray, isSplit := true })
    setPlain "NF" (.ofNat found.length)

/-- The record, which is put together anew after its fields have changed. -/
def record : Running Value := do
  let machine ← get
  if machine.isStale then
    let format ← textFormat
    let separator ← text (← plain "OFS")
    let whole := Value.read (separator.intercalate (machine.fields.toList.map (·.toText format)))
    modify ({ · with whole, isStale := false })
    return whole
  else return machine.whole

/-- The greatest number of fields. -/
def fieldLimit : Nat := 1000000

/-- Gives the record so many fields. -/
def resize (count : Nat) : Running Unit := do
  splitRecord
  modify fun machine =>
    let fields := machine.fields.take count
    { machine with
      fields := fields ++ Array.replicate (count - fields.size) (.text ""), isStale := true }
  setPlain "NF" (.ofNat count)

/-- The number of a field that a value is. -/
def fieldNumber (value : Value) : Running Nat := do
  let number := truncated value.toNumber (-2147483647) 2147483647
  if number < 0 then refuse s!"negative field index ${number}"
  return min number.toNat fieldLimit

def field (number : Nat) : Running Value := do
  if number = 0 then record
  else
    splitRecord
    return (← get).fields.getD (number - 1) (.text "")

def setField (number : Nat) (value : Value) : Running Unit := do
  if number = 0 then setRecord value
  else
    splitRecord
    if (← get).fields.size < number then resize number
    modify fun machine =>
      { machine with
        fields := machine.fields.setIfInBounds (number - 1) value, isStale := true }

def valueOf (name : Variable) : Running Value := do
  if name = .shared "NF" then splitRecord
  match ← slot name with
  | .value value => return value
  | _ => return .nothing

def setVariable (name : Variable) (value : Value) : Running Unit := do
  if name = .shared "NF" then
    resize (min (truncated value.toNumber 0 (fieldLimit : Int)).toNat fieldLimit)
  setSlot name (.value value)

/-- How a value is looked up in a table. -/
def keyOf (value : Value) : Running Key := do
  match value with
  | .number number =>
    match (integer? number).filter fun whole => -2147483647 ≤ whole && whole ≤ 2147483647 with
    | some whole => return .number whole
    | none => return .text (← text value)
  | _ => return .text (← text value)

def element (number : Nat) (key : Key) : Running Value := do
  let found := (← table number).find true key
  setTable number found
  return found.get key

def setElement (number : Nat) (key : Key) (value : Value) : Running Unit := do
  setTable number (((← table number).find true key).set key value)

/-- A place whose subscripts and whose number are known. -/
inductive Spot where
  | variable (name : Variable)
  | element (table : Nat) (key : Key)
  | field (number : Nat)

def Spot.value : Spot → Running Value
  | .variable name => valueOf name
  | .element number key => Running.element number key
  | .field number => Running.field number

def Spot.set (value : Value) : Spot → Running Unit
  | .variable name => setVariable name value
  | .element number key => setElement number key value
  | .field number => setField number value

/-- The next record of a stream under a separator of records, and what is left of the stream. A record
that is not known to be over makes the program wait for ever. -/
def recordFrom (separator : String) (stream : Stream) : Running (Option (String × Stream)) := do
  let text := stream.text
  let found ← match separator.toList with
    | [] =>
      let start := skipFrom text (· = '\n') stream.position text.size
      let gap ← matcherOf "\n\n+"
      pure (start, (gap.search text start).map fun found => (found.start, found.finish))
    | [letter] =>
      let finish := skipFrom text (· ≠ letter) stream.position text.size
      pure (stream.position, if finish < text.size then some (finish, finish + 1) else none)
    | _ =>
      let matcher ← matcherOf separator
      pure (stream.position,
        (matcher.search text stream.position).bind fun found =>
          if found.start < found.finish then some (found.start, found.finish) else none)
  let (start, ending) := found
  match ending with
  | some (finish, next) =>
    return some (.ofList (lettersBetween text start finish), { stream with position := next })
  | none =>
    if stream.goesOn then
      onSession do
        let _ ← release
        throw .timeUp
    if text.size ≤ start then return none
    let letters := lettersBetween text start text.size
    let letters := if separator = "" && letters.getLast? = some '\n' then letters.dropLast
      else letters
    return some (.ofList letters, { stream with position := text.size })
where
  skipFrom (text : Array Char) (kind : Char → Bool) (position : Nat) : Nat → Nat
    | 0 => position
    | fuel + 1 =>
      if (text[position]?).any kind then skipFrom text kind (position + 1) fuel else position

/-- Writes what has been kept back for the output of the program and for files. -/
def flush : Running Unit := do
  let _ ← onSession release
  for output in (← get).outputs do
    if let some channel := output.channel then
      let text := "".intercalate output.pieces.reverse
      unless text = "" do
        let _ ← onSession (writeTo channel text)
  modify fun machine =>
    { machine with
      outputs := machine.outputs.map fun output =>
        if output.channel.isSome then { output with pieces := [] } else output }

/-- Makes a channel that no descriptor leads to. -/
def addChannel (channel : Channel) : Procedure Nat := do
  let number := (← get).channels.size
  modify fun session => { session with channels := session.channels.push channel }
  return number

/-- Opens a file for output. -/
def openFile (path : String) (appends : Bool) : Procedure (Except FileError Nat) := do
  if path = Condition.sink then return .ok (← addChannel .nowhere)
  if path = "/dev/stderr" then
    match (← get).descriptors.lookup 2 with
    | some number => return .ok number
    | none => return .ok (← addChannel .nowhere)
  let isThere := (← find path) matches .ok _
  let fault? ← if appends && isThere then pure none else writeFile path ""
  match fault?, ← find path with
  | none, .ok (place, .file _) => return .ok (← addChannel (.file place 0 appends))
  | none, .ok _ => return .error .isDirectory
  | some error, _ | none, .error error => return .error error

/-- Executes a command with a text that it reads, if one is given. It tells the status. -/
def executed (launcher : Launcher) (name command : String) (input : Option String) :
    Procedure Nat := do
  let _ ← release
  let descriptors := (← get).descriptors
  let work : Procedure Nat := do
    if let some text := input then attach 0 (.input text.toList false)
    let _ ← launcher [name, "-c", command]
    let status := (← get).status
    return if 128 < status && status ≤ 192 then status + 128 else status
  work.ensuring ({ · with descriptors })

/-- Ends an output. The command it goes to gets what is meant for it. -/
def finish (launcher : Launcher) (output : Output) : Running Nat := do
  let text := "".intercalate output.pieces.reverse
  match output.channel with
  | some channel =>
    let _ ← onSession (writeTo channel text)
    return 0
  | none => onSession (executed launcher "/bin/sh" output.name (some text))

/-- Writes to where output is redirected, which is opened first if it has not been. -/
def redirect (direction : Direction) (name text : String) : Running Unit := do
  let isCommand := direction = .command
  let isSame := fun output : Output => output.name = name && output.isCommand = isCommand
  if !isCommand && (name = "/dev/stdout" || name = "-") then onSession (emit text)
  else
    let output ← match (← get).outputs.find? isSame with
      | some output => pure output
      | none => opened isCommand
    let output := { output with pieces := text :: output.pieces }
    modify fun machine =>
      { machine with outputs := output :: machine.outputs.filter (!isSame ·) }
    if name = "/dev/stderr" then flushErrors
where
  opened (isCommand : Bool) : Running Output := do
    if isCommand then
      flush
      return { name, isCommand, channel := none }
    else
      match ← onSession (openFile name (direction = .append)) with
      | .ok channel => return { name, isCommand, channel := some channel }
      | .error error => throw (.fault s!"cannot open \"{name}\" for output ({error.reason})")
  flushErrors : Running Unit := do
    for output in (← get).outputs do
      if output.name = "/dev/stderr" && !output.isCommand then
        if let some channel := output.channel then
          let _ ← onSession (writeTo channel ("".intercalate output.pieces.reverse))
    modify fun machine =>
      { machine with
        outputs := machine.outputs.map fun output =>
          if output.name = "/dev/stderr" && !output.isCommand then { output with pieces := [] }
          else output }

/-- Ends what has a name, and tells its status. There may be nothing of that name. -/
def close (launcher : Launcher) (name : String) : Running Int := do
  let machine ← get
  let outputs := machine.outputs.filter (·.name = name)
  let mut status : Int := -1
  modify ({ · with outputs := machine.outputs.filter (·.name ≠ name) })
  for output in outputs do
    if output.isCommand then flush
    status := (← finish launcher output : Nat)
  if (machine.files.lookup name).isSome then
    modify ({ · with files := machine.files.filter (·.1 ≠ name) })
    status := 0
  if let some stream := machine.commands.lookup name then
    modify ({ · with commands := machine.commands.filter (·.1 ≠ name) })
    status := (stream.status : Nat)
  return status

/-- Ends everything. Commands get what is meant for them before the rest is written. -/
def closeAll (launcher : Launcher) : Running Unit := do
  let outputs := (← get).outputs
  modify ({ · with outputs := [] })
  for output in outputs do
    if output.channel.isSome then
      let _ ← finish launcher output
  let held := (← onSession get).held
  onSession (modify ({ · with held := [] }))
  for output in outputs do
    if output.channel.isNone then
      let _ ← finish launcher output
  onSession (modify ({ · with held }))

/-- The stream of a file. -/
def openStream (path : String) : Running (Except FileError Stream) := do
  match ← onSession (available path) with
  | .ok (text, goesOn) => return .ok { text := text.toList.toArray, goesOn }
  | .error error => return .error error

/-- The stream of what a command writes. -/
def commandStream (launcher : Launcher) (command : String) : Running Stream := do
  flush
  onSession do
    let text ← written do
      let _ ← executed launcher "/bin/sh" command none
    return { text := text.toList.toArray, status := (← get).status }

/-- Gives a variable the value that words of a command line ask for. -/
def assignWord (word : String) : Running Unit := do
  let name := word.toList.takeWhile (· ≠ '=')
  let value := word.toList.drop (name.length + 1)
  let text := String.ofList (Reading.unescaped value.length value)
  setVariable (.shared (.ofList name)) (.read text)

def isAssignment (word : String) : Bool :=
  let name := word.toList.takeWhile (· ≠ '=')
  name.length < word.length && name.head?.any Reading.beginsName &&
    name.all fun letter => Reading.beginsName letter || letter.isDigit

/-- Opens the next operand. It is false if there is none. -/
def openNext : Nat → Running Bool
  | 0 => return false
  | fuel + 1 => do
    let machine ← get
    let count := truncated (← plain "ARGC").toNumber 0 1000000
    if count ≤ machine.operand then
      if machine.hasOpened then return false
      opening "-" "-"
    else
      modify ({ · with operand := machine.operand + 1 })
      let key := Key.number machine.operand
      let words ← table (← tableOf (.shared "ARGV"))
      let word ← text (words.get key)
      if word = "" then openNext fuel
      else if isAssignment word then
        assignWord word
        openNext fuel
      else opening word word
where
  opening (path name : String) : Running Bool := do
    match ← openStream path with
    | .ok stream =>
      modify ({ · with records := some stream, hasOpened := true })
      setPlain "FILENAME" (.text name)
      setPlain "FNR" (.number 0.0)
      return true
    | .error .isDirectory => throw (.fault "read error (Is a directory)")
    | .error error => throw (.fault s!"cannot open \"{path}\" ({error.reason})")

/-- The next record of the operands, if there is one. -/
def nextRecord : Nat → Running (Option String)
  | 0 => return none
  | fuel + 1 => do
    if (← get).isOver then return none
    match (← get).records with
    | none =>
      if ← openNext ((← get).operand + 1000000) then nextRecord fuel
      else
        modify ({ · with isOver := true })
        return none
    | some stream =>
      match ← recordFrom (← text (← plain "RS")) stream with
      | some (found, stream) =>
        modify ({ · with records := some stream })
        setPlain "NR" (.number ((← plain "NR").toNumber + 1.0))
        setPlain "FNR" (.number ((← plain "FNR").toNumber + 1.0))
        return some found
      | none =>
        modify ({ · with records := none })
        nextRecord fuel

end Running

end CompositeKeys.Shell.Awk
