import CompositeKeys.Shell.Builtin

/-! How descriptors are made to lead to files and to one another. -/

namespace CompositeKeys.Shell
open Files Procedure

/-- What is said of a file that cannot be opened. -/
def openingFault (isCreated : Bool) (target : String) (error : FileError) : String :=
  let reason := match error with
    | .notFound | .notDirectory => if isCreated then "Directory nonexistent" else "No such file"
    | other => other.reason
  let verb := if isCreated then "create" else "open"
  s!"cannot {verb} {target}: {reason}"

/-- Makes a descriptor lead to where another one leads. -/
def duplicate (descriptor : Nat) (target : String) : Procedure (Option String) := do
  if target = "-" then
    detach descriptor
    return none
  match Builtin.natural? target with
  | none => fail "Syntax error: Bad fd number"
  | some source =>
    match (← get).descriptors.lookup source with
    | none => return some s!"{target}: Bad file descriptor"
    | some number =>
      modify fun session =>
        { session with
          descriptors := (descriptor, number) :: session.descriptors.filter (·.1 ≠ descriptor) }
      return none

/-- Paths that lead to descriptors. -/
def descriptorPaths : List (String × String) :=
  [("/dev/stdin", "0"), ("/dev/stdout", "1"), ("/dev/stderr", "2"), ("/dev/fd/0", "0"),
    ("/dev/fd/1", "1"), ("/dev/fd/2", "2")]

/-- Makes a descriptor lead to a file. -/
def openFile (descriptor : Nat) (access : Access) (target : String) :
    Procedure (Option String) := do
  if target = Condition.sink then
    attach descriptor .nowhere
    return none
  if let some source := descriptorPaths.lookup target then return ← duplicate descriptor source
  let found ← find target
  let isCreated := access ≠ .read
  match found with
  | .ok (place, entry) =>
    if isCreated && entry = .directory then
      return some (openingFault true target .isDirectory)
    if access = .write && (← get).options.contains 'C' then
      return some (openingFault true target .exists)
    if access = .write || access = .overwrite then
      modify fun session => { session with files := session.files.put place (.file "") }
    attach descriptor (.file place 0 (access = .append))
    return none
  | .error error =>
    if !isCreated then return some (openingFault false target error)
    match ← writeFile target "" with
    | some error => return some (openingFault true target error)
    | none =>
      if let .ok (place, _) := ← find target then
        attach descriptor (.file place 0 (access = .append))
      return none

/-- A redirection whose target is known. -/
structure Opening where
  descriptor : Nat
  access : Access
  target : String

/-- Opens files one after another. It is false if one of them cannot be opened. -/
def openAll : List Opening → Procedure Bool
  | [] => return true
  | opening :: rest => do
    let fault? ← match opening.access with
      | .here => do
        attach opening.descriptor (.input opening.target.toList false)
        pure none
      | .duplicate => duplicate opening.descriptor opening.target
      | access => openFile opening.descriptor access opening.target
    match fault? with
    | none => openAll rest
    | some fault =>
      warn fault
      setStatus 2
      return false

end CompositeKeys.Shell
