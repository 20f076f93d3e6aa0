import CompositeKeys.Shell.Session

/-! What commands are executed in: processes that are apart from the shell that starts them, loops,
and functions. -/

namespace CompositeKeys.Shell
open Files Procedure

/-- The session of a process after another one that was apart: all is as it was before, but for the
files, what has been written and read, and the time. -/
def Session.resumed (before after : Session) : Session :=
  { before with
    files := { after.files with workingDirectory := before.files.workingDirectory }
    channels := after.channels
    milliseconds := after.milliseconds
    steps := after.steps
    processes := after.processes
    status := after.status }

/-- Where all that follows is done apart: what it has changed of a shell is forgotten, but what it
has written stays. -/
def apart (atExit : String → Procedure Unit) (action : Procedure Unit) : Procedure Unit := do
  let before ← get
  modify ({ · with traps := before.traps.filter (·.2 = ""), jobs := [] })
  let ended ← outcome action
  match ended with
  | .error .timeUp => throw .timeUp
  | .error (.signal process number) => throw (.signal process number)
  | _ =>
    if let some text := (← get).traps.lookup 0 then
      let status := (← get).status
      modify ({ · with traps := [] })
      match ← outcome (atExit text) with
      | .error .timeUp => throw .timeUp
      | .error .exit => pure ()
      | _ => setStatus status
  modify before.resumed

/-- Does something with the descriptors that are there, which stay as they are. -/
def keepingDescriptors {α : Type} (action : Procedure α) : Procedure α := do
  let descriptors := (← get).descriptors
  action.ensuring ({ · with descriptors })

/-- What an action writes to the output. -/
def written (action : Procedure Unit) : Procedure String := do
  let descriptors := (← get).descriptors
  attach 1 (.collector [])
  let number := ((← get).descriptors.lookup 1).getD 0
  action.ensuring ({ · with descriptors })
  collected number

/-- How much is written that nobody has read before a process has to wait for it. -/
def pipeSize : Nat := 65536

/-- What others can read of a process. -/
structure Flow where
  text : String
  goesOn : Bool := false
  isStuck : Bool := false

/-- Does what a process does whose output others read. If it has no end, they may still read what it
writes, and it is stopped when they are done, unless it does not write anything more. It may take
half of the steps that are left. -/
def flowing (action : Procedure Unit) : Procedure Flow := do
  let before ← get
  let spare := before.steps / 2
  modify ({ · with steps := before.steps - spare })
  attach 1 (.collector [])
  let number := ((← get).descriptors.lookup 1).getD 0
  let ended ← outcome (action.ensuring ({ · with descriptors := before.descriptors }))
  modify fun after => { after with steps := after.steps + spare }
  let text ← collected number
  match ended with
  | .ok () => return { text }
  | .error .timeUp =>
    let session ← get
    let isStuck := session.limit ≤ session.milliseconds || text.length < pipeSize
    modify before.resumed
    modify ({ · with steps := spare })
    return { text, goesOn := true, isStuck }
  | .error other => throw other

/-- Does something in a loop. -/
def inLoop {α : Type} (action : Procedure α) : Procedure α := do
  let loops := (← get).loops
  modify ({ · with loops := loops + 1 })
  action.ensuring ({ · with loops })

/-- What a round of a loop comes to. -/
inductive Round where
  | completed
  | again
  | left
  deriving DecidableEq, Repr

/-- Does a round of a loop, which may also be one of a loop around it. -/
def round (action : Procedure Unit) : Procedure Round := do
  match ← outcome action with
  | .ok () => return .completed
  | .error (.leave (count + 2)) => throw (.leave (count + 1))
  | .error (.leave _) => return .left
  | .error (.again (count + 2)) => throw (.again (count + 1))
  | .error (.again _) => return .again
  | .error other => throw other

/-- Ends the shell after a failure, if it is to end with the first one. -/
def checkFailure (isTested : Bool) : Procedure Unit := do
  let session ← get
  if !isTested && session.status ≠ 0 && session.options.contains 'e' then throw .exit

/-- Succeeds where there is no command, and does the other thing where there is one. -/
def orSucceed (command : Command) (action : Procedure Unit) : Procedure Unit :=
  if command matches .nothing then setStatus 0 else action

/-- Gives variables back the values they had. -/
def restored (values : List (String × Option String)) (session : Session) : Session :=
  values.foldl (fun session (name, value) =>
    let others := session.bindings.filter (·.1 ≠ name)
    match value with
    | some value => { session with bindings := (name, value) :: others }
    | none => { session with bindings := others }) session

/-- Takes a line for the one that is being executed. Lines of functions count from their own. -/
def setLine (line : Nat) : Procedure Unit :=
  modify fun session =>
    { session with line := (session.firstLine.map fun first => line + 1 - first).getD line }

/-- Does something with variables that have other values for as long. -/
def keepingVariables {α : Type} (names : List String) (action : Procedure α) : Procedure α := do
  let session ← get
  let values := names.map fun name => (name, session.bindings.lookup name)
  action.ensuring fun after =>
    { restored values after with
      isExported := after.isExported.filter fun name =>
        !names.contains name || session.isExported.contains name }

/-- Does something under the name of a command, which messages show. -/
def naming (name : String) (action : Procedure Unit) : Procedure Unit := do
  let before := (← get).current
  modify ({ · with current := some name })
  action.ensuring ({ · with current := before })

/-- Goes on after a failure. -/
def tolerating (action : Procedure Unit) : Procedure Unit := do
  match ← outcome action with
  | .ok () | .error .failure => pure ()
  | .error other => throw other

/-- How many functions may be inside of one another. -/
def depthLimit : Nat := 1000

/-- Does what a function does. -/
def inFunction (line : Nat) (arguments : List String) (action : Procedure Unit) :
    Procedure Unit := do
  let before ← get
  if depthLimit ≤ before.depth then
    fail s!"Maximum function recursion depth ({depthLimit}) reached"
  modify fun session =>
    { session with
      arguments
      firstLine := some line
      loops := 0
      depth := before.depth + 1
      saved := [] }
  let ended ← outcome <| action.ensuring fun after =>
    { restored after.saved after with
      arguments := before.arguments
      firstLine := before.firstLine
      loops := before.loops
      depth := before.depth
      saved := before.saved }
  match ended with
  | .ok () | .error .return => pure ()
  | .error other => throw other

end CompositeKeys.Shell
