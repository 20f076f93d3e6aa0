import CompositeKeys.Shell.Execution

/-! How a program is launched on files, and what it comes to. -/

namespace CompositeKeys.Shell
open Files Text

/-- How a program ends. -/
inductive Ending where
  | status (code : Nat)
  | signal (number : Nat)
  | timeUp
  deriving DecidableEq, Repr

/-- The names that ends by signals have. -/
def endingNames : List (Nat × String) :=
  ["HUP", "INT", "QUIT", "ILL", "TRAP", "ABRT", "BUS", "FPE", "KILL", "USR1", "SEGV", "USR2", "PIPE",
    "ALRM", "TERM", "STKFLT", "CHLD", "CONT", "STOP", "TSTP", "TTIN", "TTOU", "URG", "XCPU", "XFSZ",
    "VTALRM", "PROF", "WINCH", "IO", "PWR", "SYS"].zipIdx.map fun (name, index) =>
    (index + 1, "SIG" ++ name)

def Ending.text : Ending → String
  | .status code => s!"exit status: {code}"
  | .signal number =>
    let name := ((endingNames.lookup number).map fun name => s!" ({name})").getD ""
    s!"signal: {number}{name}"
  | .timeUp => "timed out"

/-- The end of a program, the files after it, and what it has written. -/
structure Report where
  ending : Ending
  files : FileTree
  output : String
  errors : String
  deriving DecidableEq, Repr

/-- The variables that every program is given. -/
def environment (workingDirectory : Place) : List (String × String) :=
  [("PATH", Executable.usualPath), ("HOME", "/root"),
    ("PWD", "/" ++ "/".intercalate (workingDirectory.map bytesOf))]

/-- How deep commands may be inside of one another, and how often loops may be gone through. -/
def workLimit : Nat := 600000

/-- The session of a program that has nothing to read and whose output is collected. -/
def Session.initial (files : FileTree) (name : String) (limit : Nat) : Session :=
  { files := withSystem files
    name
    bindings := environment files.workingDirectory
    isExported := (environment files.workingDirectory).map Prod.fst
    channels := #[.nowhere, .collector [], .collector []]
    descriptors := [(0, 0), (1, 1), (2, 2)]
    limit }

/-- Launches a program under a name, with so many milliseconds to end. -/
def launch (files : FileTree) (name program : String) (arguments : List String) (limit : Nat) :
    Report :=
  let work : Procedure Report := do
    let ended ← Procedure.outcome
      (Execution.run (bytesOf name) program (arguments.map bytesOf) workLimit)
    let session ← get
    let ending := match ended with
      | .error .timeUp => .timeUp
      | .error (.signal _ number) => .signal number
      | _ => if limit ≤ session.milliseconds then .timeUp else .status (session.status % 256)
    return {
      ending
      files := { session.files with workingDirectory := files.workingDirectory }
      output := ofBytes (← Procedure.collected 1)
      errors := ofBytes (← Procedure.collected 2) }
  match (work.run.run (Session.initial files name limit)).1 with
  | .ok report => report
  | .error _ => { ending := .timeUp, files, output := "", errors := "" }

end CompositeKeys.Shell
