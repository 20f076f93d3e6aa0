import CompositeKeys.Files.Path

/-! A tree of files, and the operations of a file system on it. A path leads through the tree step
by step, so that every directory on its way has to be there, also one that it leaves again. Where
it comes to a link it goes on as the link says. -/

namespace CompositeKeys.Files

inductive FileError where
  | notFound
  | denied
  | exists
  | notDirectory
  | isDirectory
  | nameTooLong
  | notEmpty
  | busy
  | manyLinks
  | invalid
  | nulInPath
  | nulInCommand
  deriving DecidableEq, Repr

def FileError.reason : FileError → String
  | .notFound => "No such file or directory"
  | .denied => "Permission denied"
  | .exists => "File exists"
  | .notDirectory => "Not a directory"
  | .isDirectory => "Is a directory"
  | .nameTooLong => "File name too long"
  | .notEmpty => "Directory not empty"
  | .busy => "Device or resource busy"
  | .manyLinks => "Too many levels of symbolic links"
  | .invalid => "Invalid argument"
  | .nulInPath => "file name contained an unexpected NUL byte"
  | .nulInCommand => "nul byte found in provided data"

/-- The number that the system has for an error, unless it never gets to see the request. -/
def FileError.number? : FileError → Option Nat
  | .notFound => some 2
  | .denied => some 13
  | .busy => some 16
  | .exists => some 17
  | .notDirectory => some 20
  | .isDirectory => some 21
  | .invalid => some 22
  | .nameTooLong => some 36
  | .notEmpty => some 39
  | .manyLinks => some 40
  | .nulInPath | .nulInCommand => none

def FileError.message (error : FileError) : String :=
  error.reason ++ ((error.number?.map fun number => s!" (os error {number})").getD "")

inductive Entry where
  | directory
  | file (text : String)
  | link (target : String)
  deriving DecidableEq, Repr

/-- A place in a tree: the names from the root down. -/
abbrev Place := List String

/-- A tree of files, seen from a working directory. The root is always there. Modes are kept where
they are not the usual ones. -/
structure FileTree where
  entries : List (Place × Entry) := []
  modes : List (Place × Nat) := []
  workingDirectory : Place := []
  deriving DecidableEq, Repr, Inhabited

/-- The greatest length of a path, in bytes. -/
def pathLimit : Nat := 4095

/-- The greatest length of a name, in bytes. -/
def nameLimit : Nat := 255

namespace FileTree

def entry? (tree : FileTree) (place : Place) : Option Entry :=
  if place = [] then some .directory else tree.entries.lookup place

def isDirectoryAt (tree : FileTree) (place : Place) : Bool := tree.entry? place = some .directory

/-- Puts an entry at a place. What has been put last comes first. -/
def put (tree : FileTree) (place : Place) (entry : Entry) : FileTree :=
  { tree with entries := (place, entry) :: tree.entries.filter fun other => other.1 ≠ place }

/-- The steps that a path takes, empty ones left out. -/
def stepsOf (path : FilePath) : List String :=
  ((segmentsOf path.text.toList).map String.ofList).filter (· ≠ "")

/-- The place where a path starts. -/
def start (tree : FileTree) (path : FilePath) : Place :=
  if path.isAbsolute then [] else tree.workingDirectory

/-- Where steps come to an end: at an entry, at a place where there is none, or at a link in a
directory, with steps left to take. -/
inductive Stop where
  | entry (place : Place) (entry : Entry)
  | missing (place : Place)
  | link (directory : Place) (target : FilePath) (rest : List String)

/-- Takes steps up to the first link. -/
def stride (tree : FileTree) (place : Place) : List String → Except FileError Stop
  | [] => .ok (.entry place .directory)
  | step :: rest =>
    let next := if step = "." then place else if step = ".." then place.dropLast
      else place ++ [step]
    if nameLimit < step.utf8ByteSize then .error .nameTooLong
    else match tree.entry? next with
      | none => if rest = [] then .ok (.missing next) else .error .notFound
      | some .directory => tree.stride next rest
      | some (.file text) =>
        if rest = [] then .ok (.entry next (.file text)) else .error .notDirectory
      | some (.link target) => .ok (.link place ⟨target⟩ rest)

/-- How many links a path may lead through. -/
def linkLimit : Nat := 40

/-- Takes steps from a directory through at most so many links. There may be nothing at the place
that the last one comes to. -/
def resolve (tree : FileTree) : Nat → Place → List String → Except FileError (Place × Option Entry)
  | 0, _, _ => .error .manyLinks
  | links + 1, place, steps => do
    match ← tree.stride place steps with
    | .entry place entry => return (place, some entry)
    | .missing place => return (place, none)
    | .link directory target rest =>
      let start := if target.isAbsolute then [] else directory
      tree.resolve links start (stepsOf target ++ rest)

/-- Takes steps that have to come to a directory. -/
def enter (tree : FileTree) (place : Place) (steps : List String) : Except FileError Place := do
  match ← tree.resolve (linkLimit + 1) place steps with
  | (place, some .directory) => return place
  | (_, none) => throw .notFound
  | (_, some _) => throw .notDirectory

/-- Makes sure that a path can lead anywhere. -/
@[irreducible]
def checkPath (path : FilePath) : Except FileError Unit :=
  if path.text.toList.contains '\x00' then .error .nulInPath
  else if path.text = "" then .error .notFound
  else if pathLimit < path.text.utf8ByteSize then .error .nameTooLong
  else .ok ()

/-- The directory that a path leads into, and the last step from there. A path that ends at a
directory by itself has no last step. -/
def approach (tree : FileTree) (path : FilePath) : Except FileError (Place × Option String) := do
  checkPath path
  let steps := stepsOf path
  let directory ← tree.enter (tree.start path) steps.dropLast
  match steps.getLast? with
  | none => return (directory, none)
  | some "." => return (directory, none)
  | some ".." => return (directory.dropLast, none)
  | some step =>
    if nameLimit < step.utf8ByteSize then throw .nameTooLong
    return (directory, some step)

def endsInSlash (path : FilePath) : Bool := path.text.toList.getLast? = some '/'

/-- What a path leads to. -/
def find (tree : FileTree) (path : FilePath) : Except FileError (Place × Entry) := do
  checkPath path
  let steps := stepsOf path ++ if endsInSlash path then ["."] else []
  match ← tree.resolve (linkLimit + 1) (tree.start path) steps with
  | (_, none) => throw .notFound
  | (place, some entry) => return (place, entry)

/-- What a path leads to, which may be a link. -/
def findHere (tree : FileTree) (path : FilePath) : Except FileError (Place × Entry) := do
  if endsInSlash path then return ← tree.find path
  match ← tree.approach path with
  | (directory, none) => return (directory, .directory)
  | (directory, some step) =>
    let place := directory ++ [step]
    match tree.entry? place with
    | none => throw .notFound
    | some entry => return (place, entry)

def has (tree : FileTree) (path : FilePath) : Bool := (tree.find path).isOk

def hasDirectory (tree : FileTree) (path : FilePath) : Bool :=
  match tree.find path with
  | .ok (_, .directory) => true
  | _ => false

def read (tree : FileTree) (path : FilePath) : Except FileError String := do
  match ← tree.find path with
  | (_, .file text) => return text
  | _ => throw .isDirectory

/-- The place of the file that is written at a path. -/
def target (tree : FileTree) (path : FilePath) : Except FileError Place := do
  match ← tree.approach path with
  | (_, none) => throw .isDirectory
  | (directory, some step) =>
    if endsInSlash path then throw .isDirectory
    match ← tree.resolve (linkLimit + 1) directory [step] with
    | (_, some .directory) => throw .isDirectory
    | (place, _) => return place

/-- Writes a file, in place of one that is there. -/
def write (tree : FileTree) (path : FilePath) (text : String) : Except FileError FileTree :=
  (tree.target path).map fun place => tree.put place (.file text)

/-- Makes an entry where there is none. -/
def create (tree : FileTree) (path : FilePath) (entry : Entry) : Except FileError FileTree := do
  match ← tree.approach path with
  | (_, none) => throw .exists
  | (directory, some step) =>
    let place := directory ++ [step]
    if (tree.entry? place).isSome then throw .exists
    return tree.put place entry

def createDirectory (tree : FileTree) (path : FilePath) : Except FileError FileTree :=
  tree.create path .directory

/-- Creates a directory that may be there already. -/
def ensureDirectory (tree : FileTree) (path : FilePath) : FileTree × Except FileError Unit :=
  match tree.createDirectory path with
  | .ok next => (next, .ok ())
  | .error error => (tree, if tree.hasDirectory path then .ok () else .error error)

/-- Creates a directory with those on the way to it. What has been created stays, also when it goes
no further. -/
def createDirectories : Nat → FileTree → FilePath → FileTree × Except FileError Unit
  | 0, tree, _ => (tree, .ok ())
  | depth + 1, tree, path =>
    if path.text = "" then (tree, .ok ())
    else match tree.createDirectory path, path.parent? with
      | .error .notFound, some parent =>
        match createDirectories depth tree parent with
        | (next, .ok ()) => next.ensureDirectory path
        | failed => failed
      | _, _ => tree.ensureDirectory path

/-- Creates a directory with as many others as its path names. -/
def createAll (tree : FileTree) (path : FilePath) : FileTree × Except FileError Unit :=
  createDirectories (path.components.length + 1) tree path

/-- The names that lead from a place down to another one. -/
def below? (directory place : Place) : Option Place :=
  if directory.isPrefixOf place then some (place.drop directory.length) else none

/-- The files under a path, each by that path and the way from there. A file is under itself. -/
def filesUnder (tree : FileTree) (path : FilePath) : Except FileError (List FilePath) := do
  match ← tree.find path with
  | (directory, .directory) =>
    return tree.entries.filterMap fun (place, entry) =>
      match entry with
      | .file _ => (below? directory place).map fun names =>
        names.foldl (fun path name => path.join ⟨name⟩) path
      | _ => none
  | _ => return [path]

/-- The names in a directory, in their order. -/
def namesIn (tree : FileTree) (path : FilePath) : List String :=
  match tree.find path with
  | .ok (directory, .directory) =>
    let names := tree.entries.filterMap fun (place, _) =>
      if place.dropLast = directory then place.getLast? else none
    names.mergeSort fun first second => first ≤ second
  | _ => []

/-- Removes what stands at a place, with all below it. -/
def remove (tree : FileTree) (place : Place) : FileTree :=
  { tree with
    entries := tree.entries.filter fun entry => !place.isPrefixOf entry.1
    modes := tree.modes.filter fun mode => !place.isPrefixOf mode.1 }

/-- The mode of what stands at a place. -/
def mode (tree : FileTree) (place : Place) : Nat :=
  (tree.modes.lookup place).getD <|
    match tree.entry? place with
    | some .directory => 0o755
    | some (.link _) => 0o777
    | _ => 0o644

/-- Whether one of two entries has been put after the other. -/
def isNewer (tree : FileTree) (first second : Place) : Bool :=
  let age := fun place : Place => tree.entries.findIdx (·.1 = place)
  age first < age second

def setMode (tree : FileTree) (place : Place) (mode : Nat) : FileTree :=
  { tree with modes := (place, mode) :: tree.modes.filter fun other => other.1 ≠ place }

/-- Whether what stands at a place may be executed by anyone. -/
def isExecutable (tree : FileTree) (place : Place) : Bool := tree.mode place &&& 0o111 ≠ 0

/-- A tree of the given files under a working directory. A path that ends in a slash is a
directory. -/
def ofFiles (workingDirectory : Place) (files : List (String × String)) : FileTree :=
  let rooted := (List.range workingDirectory.length).foldl (fun tree length =>
    tree.put (workingDirectory.take (length + 1)) .directory) { workingDirectory }
  files.foldl (fun tree (name, text) =>
    let path : FilePath := ⟨name⟩
    if endsInSlash path then (tree.createAll path).1
    else
      let parent := match path.parent? with
        | some parent => (tree.createAll parent).1
        | none => tree
      (parent.write path text).toOption.getD parent) rooted

/-- The entries that an earlier tree did not have. -/
def changes (tree earlier : FileTree) : List (Place × Entry) :=
  tree.entries.filter fun (place, entry) => earlier.entry? place ≠ some entry

/-- The changed files under the working directory, by the way from there, with their texts. -/
def changedFiles (tree earlier : FileTree) : List (String × String) :=
  (tree.changes earlier).filterMap fun (place, entry) =>
    match entry, below? tree.workingDirectory place with
    | .file text, some names => some ("/".intercalate names, text)
    | _, _ => none

end FileTree

end CompositeKeys.Files
