import CompositeKeys.Files.Tree
import CompositeKeys.Shell.Arithmetic
import CompositeKeys.Shell.Command
import CompositeKeys.Text.Bytes

/-! What commands work on. All texts that commands see are sequences of bytes; only the files keep
characters. A descriptor leads to a channel, and descriptors that have been copied share theirs, so
that what one command has read is gone for the next. -/

namespace CompositeKeys.Shell
open Files Text

/-- What can be read from or written to. An input may go on without an end after what is known of
it. What has been written to a collector is kept by pieces, the last one first. -/
inductive Channel where
  | nowhere
  | input (rest : List Char) (goesOn : Bool)
  | collector (pieces : List String)
  | file (place : Place) (position : Nat) (appends : Bool)
  deriving Inhabited

/-- Why commands are given up. -/
inductive Interruption where
  | exit
  | failure
  | leave (loops : Nat)
  | again (loops : Nat)
  | return
  | signal (process number : Nat)
  | timeUp
  deriving DecidableEq, Repr

/-- A process that a shell has not waited for: its number, its status, and when it ends. -/
structure Job where
  process : Nat
  status : Nat
  ended : Nat

/-- What has been done so far by one process, and what it has left to do it. -/
structure Session where
  files : FileTree
  name : String
  arguments : List String := []
  bindings : Arithmetic.Variables := []
  isReadOnly : List String := []
  isExported : List String := []
  functions : List (String × Nat × Command) := []
  options : List Char := []
  status : Nat := 0
  substituted : Nat := 0
  line : Nat := 1
  firstLine : Option Nat := none
  current : Option String := none
  channels : Array Channel := #[]
  descriptors : List (Nat × Nat) := []
  held : List String := []
  hasEndlessInput : Bool := false
  mask : Nat := 0o022
  aliases : List (String × String) := []
  located : List String := []
  documents : List (Nat × Word) := []
  loops : Nat := 0
  depth : Nat := 0
  saved : List (String × Option String) := []
  traps : List (Nat × String) := []
  pending : List Nat := []
  process : Nat := 0
  jobs : List Job := []
  processes : Nat := 1
  optionOffset : Nat := 0
  milliseconds : Nat := 0
  limit : Nat
  steps : Nat := 400000

abbrev Procedure := ExceptT Interruption (StateM Session)

namespace Procedure

/-- Goes on after an action whatever it comes to. -/
def ensuring {α : Type} (action : Procedure α) (restore : Session → Session) : Procedure α :=
  ExceptT.mk do
    let result ← action.run
    modify restore
    return result

/-- Takes what an action comes to as a value. -/
def outcome {α : Type} (action : Procedure α) : Procedure (Except Interruption α) :=
  ExceptT.mk do return .ok (← action.run)

/-- Lets time go by. -/
def wait (milliseconds : Nat) : Procedure Unit := do
  let now := (← get).milliseconds + milliseconds
  modify ({ · with milliseconds := now })
  if (← get).limit ≤ now then throw .timeUp

/-- Takes a step, of which there are so many as there can be in the time allowed. -/
def step : Procedure Unit := do
  match (← get).steps with
  | 0 => throw .timeUp
  | steps + 1 => modify ({ · with steps })

def channel? (descriptor : Nat) : Procedure (Option (Nat × Channel)) := do
  let session ← get
  return (session.descriptors.lookup descriptor).bind fun number =>
    session.channels[number]?.map (number, ·)

def setChannel (number : Nat) (channel : Channel) : Procedure Unit :=
  modify fun session => { session with channels := session.channels.setIfInBounds number channel }

/-- Makes a channel for a descriptor. -/
def attach (descriptor : Nat) (channel : Channel) : Procedure Unit :=
  modify fun session =>
    { session with
      descriptors := (descriptor, session.channels.size) ::
        session.descriptors.filter (·.1 ≠ descriptor)
      channels := session.channels.push channel }

def detach (descriptor : Nat) : Procedure Unit :=
  modify fun session =>
    { session with descriptors := session.descriptors.filter (·.1 ≠ descriptor) }

/-- The bytes of the file at a place. -/
def bytesAt (place : Place) : Procedure String := do
  match (← get).files.entry? place with
  | some (.file text) => return bytesOf text
  | _ => return ""

/-- A text with another one written over it from a position on. -/
def overwritten (position : Nat) (bytes before : List Char) : List Char :=
  let gap := List.replicate (position - before.length) '\x00'
  before.take position ++ gap ++ bytes ++ before.drop (position + bytes.length)

/-- Writes bytes to a channel, unless there is nothing but something to read. -/
def writeTo (number : Nat) (bytes : String) : Procedure Bool := do
  match (← get).channels[number]? with
  | none | some (.input ..) => return false
  | some .nowhere => return true
  | some (.collector pieces) =>
    setChannel number (.collector (bytes :: pieces))
    return true
  | some (.file place position appends) =>
    let before := (← bytesAt place).toList
    let start := if appends then before.length else position
    let after := overwritten start bytes.toList before
    setChannel number (.file place (start + bytes.length) appends)
    modify fun session =>
      if (session.files.entry? place).isSome then
        { session with files := session.files.put place (.file (keepingBytes (.ofList after))) }
      else session
    return true

/-- Writes bytes to where a descriptor leads, if it leads anywhere. -/
def write (descriptor : Nat) (bytes : String) : Procedure Bool := do
  match (← get).descriptors.lookup descriptor with
  | none => return false
  | some number => writeTo number bytes

/-- What is left to be read, and whether there is more of it without an end. -/
def remaining (descriptor : Nat) : Procedure (Option (List Char × Bool)) := do
  match ← channel? descriptor with
  | none => return none
  | some (_, .input rest goesOn) => return some (rest, goesOn)
  | some (_, .file place position _) =>
    return some ((← bytesAt place).toList.drop position, false)
  | some _ => return some ([], false)

/-- Counts bytes as read. -/
def consume (descriptor count : Nat) : Procedure Unit := do
  match ← channel? descriptor with
  | some (number, .input rest goesOn) => setChannel number (.input (rest.drop count) goesOn)
  | some (number, .file place position appends) =>
    setChannel number (.file place (position + count) appends)
  | _ => pure ()

/-- Everything that is left to be read, which is read. There is no end to wait for if it goes on. -/
def readAll (descriptor : Nat) : Procedure (Option String) := do
  match ← remaining descriptor with
  | none => return none
  | some (_, true) => throw .timeUp
  | some (rest, false) => consume descriptor rest.length; return some (.ofList rest)

/-- What has been written to a channel that collects it. -/
def collected (number : Nat) : Procedure String := do
  match (← get).channels[number]? with
  | some (.collector pieces) => return "".intercalate pieces.reverse
  | _ => return ""

/-- A message of the shell, which begins with the name it runs under and with the line. -/
def warn (message : String) : Procedure Unit := do
  let session ← get
  let command := (session.current.map (· ++ ": ")).getD ""
  let _ ← write 2 s!"{session.name}: {session.line}: {command}{message}\n"

def setStatus (status : Nat) : Procedure Unit := modify ({ · with status })

/-- Gives a command up with a message. -/
def fail {α : Type} (message : String) : Procedure α := do
  warn message
  setStatus 2
  throw .failure

def value? (name : String) : Procedure (Option String) := return (← get).bindings.lookup name

/-- The greatest length of a value. -/
def sizeLimit : Nat := 4000000

def setVariable (name value : String) : Procedure Unit := do
  if sizeLimit < value.length then fail "Out of space"
  if (← get).isReadOnly.contains name then fail s!"{name}: is read only"
  modify fun session =>
    { session with
      bindings := (name, value) :: session.bindings.filter (·.1 ≠ name)
      isExported := if session.options.contains 'a' then name :: session.isExported
        else session.isExported
      located := if name = "PATH" then [] else session.located }

def unset (name : String) : Procedure Unit := do
  if (← get).isReadOnly.contains name then fail s!"{name}: is read only"
  modify fun session =>
    { session with bindings := session.bindings.filter (·.1 ≠ name) }

/-- The path that bytes spell. -/
def pathOf (bytes : String) : FilePath := ⟨keepingBytes bytes⟩

/-- What a path in bytes leads to. -/
def find (path : String) : Procedure (Except FileError (Place × Entry)) :=
  return (← get).files.find (pathOf path)

/-- What a path in bytes leads to, which may be a link. -/
def findHere (path : String) : Procedure (Except FileError (Place × Entry)) :=
  return (← get).files.findHere (pathOf path)

/-- Operates on the files, and tells why it cannot be done. -/
def operate (operation : FileTree → Except FileError FileTree) : Procedure (Option FileError) := do
  match operation (← get).files with
  | .error error => return some error
  | .ok files => modify ({ · with files }); return none

/-- Gives what has been made at a place a mode, but for the permissions that are masked. -/
def giveMode (place : Place) (mode : Nat) : Procedure Unit :=
  modify fun session =>
    let allowed := mode &&& (0o7777 ^^^ session.mask)
    if session.files.mode place = allowed then session
    else { session with files := session.files.setMode place allowed }

/-- Writes a file, and tells why it cannot be done. -/
def writeFile (path bytes : String) : Procedure (Option FileError) := do
  match (← get).files.target (pathOf path) with
  | .error error => return some error
  | .ok place =>
    let isNew := ((← get).files.entry? place).isNone
    modify fun session =>
      { session with files := session.files.put place (.file (keepingBytes bytes)) }
    if isNew then giveMode place 0o666
    return none

/-- Makes a directory, and tells why it cannot be done. -/
def makeDirectory (path : String) : Procedure (Option FileError) := do
  if let some error := ← operate (·.createDirectory (pathOf path)) then return some error
  if let .ok (place, _) := ← find path then giveMode place 0o777
  return none

/-- Keeps back what a program writes to its output. -/
def hold (text : String) : Procedure Unit :=
  modify fun session => { session with held := text :: session.held }

/-- Writes what has been kept back. It is false if it cannot be written. -/
def release : Procedure Bool := do
  let text := "".intercalate (← get).held.reverse
  modify ({ · with held := [] })
  if text = "" then return true else write 1 text

end Procedure

end CompositeKeys.Shell
