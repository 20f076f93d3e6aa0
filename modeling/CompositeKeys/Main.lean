import CompositeKeys.Generation.CommandLine

/-! The program. It takes a picture of the files that a request can reach, carries the request out
on the picture, and then brings the files up to it. -/

namespace CompositeKeys.Main
open Files Generation

def textOf (place : Place) : String := "/" ++ "/".intercalate place

/-- The place that a path leads to, as far as its spelling tells. -/
def follow (start : Place) (path : FilePath) : Place :=
  (FileTree.stepsOf path).foldl (fun place step =>
    if step = "." then place else if step = ".." then place.dropLast else place ++ [step])
    (if path.isAbsolute then [] else start)

/-- Enters what is found at a place, with all below it, into a tree. A file that is not text is
entered as an empty one. -/
partial def capture (place : Place) (tree : FileTree) : IO FileTree := do
  let path := (← IO.currentDir) / textOf place
  if ← path.isDir then
    let mut next := tree.put place .directory
    for entry in ← path.readDir do
      next ← capture (place ++ [entry.fileName]) next
    return next
  else if ← path.pathExists then
    let text ← try IO.FS.readFile path catch _ => pure ""
    return tree.put place (.file text)
  else return tree

/-- Enters a place and the directories above it. -/
def reveal (tree : FileTree) (place : Place) : IO FileTree := do
  let above := (List.range place.length).foldl (fun tree length =>
    let directory := place.take length
    if length = 0 || (tree.entry? directory).isSome then tree
    else tree.put directory .directory) tree
  capture place above

/-- The paths that a request names. -/
def named : Request → List FilePath
  | .generate _ settings => settings.toList
  | .writeSettings path _ => path.toList
  | .version | .help => []

/-- The directories that a request reads and writes, as its settings have them. -/
def directories (request : Request) (userFile : Option FilePath) (tree : FileTree) :
    List FilePath :=
  match request with
  | .generate overrides path =>
    match Settings.loadOrDefault tree path userFile with
    | .ok settings =>
      let settings := settings.override overrides
      [settings.source, settings.output]
    | .error _ => []
  | _ => []

/-- The directory of the user's settings files. -/
def settingsDirectory : IO (Option FilePath) := do
  match ← IO.getEnv "XDG_CONFIG_HOME" with
  | some directory => if (FilePath.mk directory).isAbsolute then return some ⟨directory⟩
  | none => pure ()
  return (← IO.getEnv "HOME").map fun home => FilePath.join ⟨home⟩ ⟨".config"⟩

/-- Brings the files up to a tree. Links are left as they are. -/
def store (earlier later : FileTree) : IO Unit := do
  for (place, entry) in later.changes earlier do
    match entry with
    | .directory => IO.FS.createDirAll (textOf place)
    | .file text =>
      IO.FS.createDirAll (textOf place.dropLast)
      IO.FS.writeFile (textOf place) text
    | .link _ => pure ()

/-- A picture of the files that a request can reach, seen from a working directory. -/
def picture (request : Request) (directory : Option FilePath) (workingDirectory : Place) :
    IO FileTree := do
  let userFile := directory.map userSettings
  let add := fun (tree : FileTree) (paths : List FilePath) =>
    (paths.map (follow workingDirectory)).foldlM reveal tree
  let near ← reveal { workingDirectory } workingDirectory
  let tree ← add near (userFile.toList ++ named request)
  add tree (directories request userFile tree)

/-- Runs the program. -/
def run (arguments : List String) : IO UInt32 := do
  let workingDirectory := FileTree.stepsOf ⟨(← IO.currentDir).toString⟩
  let directory ← settingsDirectory
  let before ← match Request.ofArguments? arguments with
    | some request => picture request directory workingDirectory
    | none => pure {}
  let (after, console) := runProgram arguments directory before
  store before after
  IO.print console.output
  IO.eprint console.errors
  return UInt32.ofNat console.code

end CompositeKeys.Main

def main (arguments : List String) : IO UInt32 := CompositeKeys.Main.run arguments
