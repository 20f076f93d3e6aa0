import CompositeKeys.Files.Tree

/-! The programs that can be found. They stand in one directory, next to which there may be files
that are executed as scripts. -/

namespace CompositeKeys.Shell
open Files

def shellNames : List String := ["sh", "dash"]

/-- The names of the programs. -/
def programNames : List String :=
  shellNames ++
    ["[", "awk", "base32", "base64", "basename", "cat", "chmod", "cksum", "cmp", "comm", "cp", "cut",
      "date", "dd", "diff", "dirname", "echo", "egrep", "env", "expand", "expr", "factor", "false",
      "fgrep", "find", "fold", "grep", "head", "id", "install", "join", "link", "ln", "ls", "mawk",
      "md5sum", "mkdir", "mktemp", "mv", "nice", "nl", "nohup", "nproc", "od", "paste", "pathchk",
      "printenv", "printf", "pwd", "readlink", "realpath", "rev", "rm", "rmdir", "sed", "seq",
      "sha1sum", "sha224sum", "sha256sum", "sha384sum", "sha512sum", "sleep", "sort", "split",
      "stat", "sum", "sync", "tac", "tail", "tee", "test", "timeout", "touch", "tr", "true",
      "truncate", "tsort", "tty", "uname", "unexpand", "uniq", "unlink", "wc", "which", "whoami",
      "xargs", "yes"]

def programDirectory : Place := ["usr", "bin"]

/-- The directories that are there besides those in a tree of files. -/
def systemDirectories : List Place := [["usr"], programDirectory, ["dev"], ["tmp"]]

/-- What is there besides the files in a tree: directories, and programs, which can be found in
either of two directories. -/
def systemEntries : List (Place × Entry) :=
  systemDirectories.map (·, .directory) ++ [(["bin"], .link "usr/bin")] ++
    programNames.map fun name => (programDirectory ++ [name], .file "")

/-- A tree of files with the system's own. -/
def withSystem (files : FileTree) : FileTree :=
  let missing := systemEntries.filter fun entry => (files.entry? entry.1).isNone
  { files with
    entries := files.entries ++ missing
    modes := files.modes ++ programNames.map fun name => (programDirectory ++ [name], 0o755) }

/-- What is to be executed at a path. -/
inductive Executable where
  | program (name : String)
  | script (place : Place)
  | denied
  | missing (error : FileError)
  deriving DecidableEq, Repr

namespace Executable

/-- What a path leads to. -/
def atPath (tree : FileTree) (path : FilePath) : Executable :=
  match tree.find path with
  | .error error => .missing error
  | .ok (place, .file _) =>
    if place.dropLast = programDirectory && place.getLast?.any programNames.contains then
      .program (place.getLast?.getD "")
    else if tree.isExecutable place then .script place
    else .denied
  | .ok _ => .denied

/-- The directories in which programs are searched for, unless it has been said otherwise. -/
def usualPath : String := "/usr/local/sbin:/usr/local/bin:/usr/sbin:/usr/bin:/sbin:/bin"

/-- The paths at which a name is searched for. -/
def candidates (searchPath name : String) : List String :=
  (searchPath.splitOn ":").map fun directory =>
    if directory = "" then name else directory ++ "/" ++ name

/-- The first path at which there is a file of a name that can be executed. -/
def located? (tree : FileTree) (searchPath name : String) : Option String :=
  (candidates searchPath name).find? fun path =>
    match tree.find ⟨path⟩ with
    | .ok (place, .file _) => tree.isExecutable place
    | _ => false

/-- What a name leads to that is searched for, with the path where it has been found. Files that
must not be executed are passed over, but are not forgotten. -/
def named (tree : FileTree) (searchPath name : String) : Executable × String :=
  let found := (candidates searchPath name).filterMap fun path =>
    match tree.find ⟨path⟩ with
    | .ok (_, .file _) => some (atPath tree ⟨path⟩, path)
    | _ => none
  let isUsable := fun entry : Executable × String => entry.1 ≠ .denied
  ((found.find? isUsable).or found.head?).getD (.missing .notFound, name)

/-- What a name or a path leads to. Only a name is searched for. -/
def lookUp (tree : FileTree) (searchPath name : String) : Executable × String :=
  if name.contains '/' then (atPath tree ⟨name⟩, name)
  else if name = "" then (.missing .notFound, name)
  else named tree searchPath name

/-- The program that a path leads to, which is searched for if it has no more than a name. -/
def program? (files : FileTree) (path : FilePath) : Option String :=
  let tree := withSystem files
  let found := if 1 < path.components.length then atPath tree path
    else (named tree usualPath path.text).1
  match found with
  | .program name => some name
  | _ => none

end Executable

/-- How a script asks to be executed: the program that reads it, and a word for that. -/
def interpreter? (text : String) : Option (String × List String) :=
  match text.toList with
  | '#' :: '!' :: rest =>
    let isBlank := fun letter : Char => letter = ' ' || letter = '\t'
    let line := (rest.takeWhile (· ≠ '\n')).dropWhile isBlank
    let program := line.takeWhile (!isBlank ·)
    let word := (line.drop program.length).dropWhile isBlank
    let word := (word.reverse.dropWhile isBlank).reverse
    if program = [] then none
    else some (.ofList program, if word = [] then [] else [.ofList word])
  | _ => none

end CompositeKeys.Shell
