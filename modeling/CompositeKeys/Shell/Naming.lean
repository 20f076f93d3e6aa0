import CompositeKeys.Shell.Program
import CompositeKeys.Shell.Reader
import CompositeKeys.Shell.Builtin

/-! What the names of commands stand for. -/

namespace CompositeKeys.Shell
open Files Procedure

/-- What a name in bytes leads to that is searched for, with the path where it has been found. -/
def lookUp (files : FileTree) (searchPath name : String) : Executable × String :=
  let (found, path) :=
    Executable.lookUp files (Text.keepingBytes searchPath) (Text.keepingBytes name)
  (found, Text.bytesOf path)

/-- Whether there is a directory where a name is searched for. -/
def hasDirectory (files : FileTree) (searchPath name : String) : Bool :=
  (Executable.candidates searchPath name).any fun path =>
    match files.find (pathOf path) with
    | .ok (_, .directory) => true
    | _ => false

/-- The variables that a shell starts with, which is given some. -/
def startingVariables (workingDirectory : Place) (given : List (String × String)) :
    Arithmetic.Variables :=
  let own := [("PWD", "/" ++ "/".intercalate (workingDirectory.map Text.bytesOf)),
    ("IFS", " \t\n"), ("OPTIND", "1")]
  let usual := [("PS1", "$ "), ("PS2", "> "), ("PS4", "+ "), ("PATH", Executable.usualPath)]
  let isNew := fun (entry : String × String) (others : List (String × String)) =>
    (others.lookup entry.1).isNone
  own ++ given.filter (isNew · own) ++ usual.filter (isNew · given)

/-- Variables in the order in which a shell passes them on. -/
def inTableOrder (bindings : List (String × String)) : List (String × String) :=
  bindings.reverse.mergeSort fun first second =>
    Builtin.placeInTable 39 first.1 ≤ Builtin.placeInTable 39 second.1

/-- The path of a program that is searched for, which the shell keeps in mind from then on. -/
def locate? (name : String) : Procedure (Option String) := do
  let session ← get
  let found := Executable.located? session.files ((← value? "PATH").getD "") name
  if found.isSome && !session.located.contains name then
    modify ({ · with located := name :: session.located })
  return found

/-- What a name is to the shell, as it says it. -/
def description (name : String) : Procedure (Option String) := do
  let session ← get
  if reservedWords.contains name then return some "a shell keyword"
  else if let some value := session.aliases.lookup name then return some s!"an alias for {value}"
  else if Builtin.isSpecial name then return some "a special shell builtin"
  else if (session.functions.lookup name).isSome then return some "a shell function"
  else if Builtin.isBuiltin name then return some "a shell builtin"
  else if name.contains '/' then return (← find name).toOption.map fun _ => name
  else
    let isKnown := session.located.contains name
    return (← locate? name).map fun path =>
      if isKnown then s!"a tracked alias for {path}" else path

/-- Says what names are. -/
def describe (names : List String) : Procedure Unit := do
  setStatus 0
  for name in names do
    match ← description name with
    | some text => let _ ← write 1 s!"{name} is {text}\n"
    | none =>
      let _ ← write 1 s!"{name}: not found\n"
      setStatus 127

/-- Says what would be executed for a name. -/
def locate (name : String) : Procedure Unit := do
  let aliases := (← get).aliases
  match aliases.lookup name, ← description name with
  | some value, _ =>
    let _ ← write 1 ("alias " ++ Builtin.aliasLine (name, value))
    setStatus 0
  | none, some text =>
    let path? ← if text.startsWith "a tracked alias" then locate? name
      else pure (if text.startsWith "/" then some text else none)
    let _ ← write 1 (path?.getD name ++ "\n")
    setStatus 0
  | none, none => setStatus 127

/-- Keeps programs in mind, or shows those that are. -/
def keepInMind (words : List String) : Procedure Unit := do
  setStatus 0
  match words with
  | [] =>
    let names := (← get).located.reverse.mergeSort fun first second =>
      Builtin.placeInTable 31 first ≤ Builtin.placeInTable 31 second
    let mut text := ""
    for name in names do
      if let some path ← locate? name then text := text ++ path ++ "\n"
    Builtin.print text
  | "-r" :: _ => modify ({ · with located := [] })
  | _ =>
    for name in words do
      let isOwn := Builtin.isBuiltin name || ((← get).functions.lookup name).isSome
      let path? ← if isOwn then pure (some name) else locate? name
      if path?.isNone then
        warn s!"{name}: not found"
        setStatus 1

end CompositeKeys.Shell
