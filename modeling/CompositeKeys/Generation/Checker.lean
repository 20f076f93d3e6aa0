import CompositeKeys.Generation.Failure
import CompositeKeys.Generation.Settings
import CompositeKeys.Shell.Launch

/-! The type checker is a program that is launched once over all modules written with checked
types. -/

namespace CompositeKeys.Generation
open Files Shell

namespace CheckerSettings

/-- The name that a program runs under: a name alone gets the directory where it has been found. -/
def launchName (settings : CheckerSettings) : String :=
  let path : FilePath := ⟨settings.program⟩
  if 1 < path.components.length then path.text else "/usr/bin/" ++ path.text

/-- Launches a program over files in a directory that has to be there. A program that is not done
when its time is up is stopped. -/
def launch (settings : CheckerSettings) (program : String) (tree : FileTree) (directory : FilePath)
    (files : List FilePath) : FileTree × Except GenerationError Unit :=
  let arguments := settings.arguments ++ files.map FilePath.text
  let hasNul := (directory.text :: arguments).any fun text => text.contains '\x00'
  if hasNul then (tree, .error (.file .nulInCommand))
  else match tree.find directory with
    | .error error => (tree, .error (.file error))
    | .ok (place, .directory) =>
      let report := Shell.launch { tree with workingDirectory := place } settings.launchName program
        arguments (1000 * settings.timeout)
      let after := { report.files with workingDirectory := tree.workingDirectory }
      match report.ending with
      | .status 0 => (after, .ok ())
      | .timeUp => (after, .error (.checkerTimeout settings.timeout))
      | ending => (after, .error (.checkFailed ending (report.output ++ report.errors)))
    | .ok _ => (tree, .error (.file .notDirectory))

/-- Runs the checker over files, which may change them. Nothing is run over no files. -/
def check (settings : CheckerSettings) (tree : FileTree) (directory : FilePath)
    (files : List FilePath) : FileTree × Except GenerationError Unit :=
  if files = [] then (tree, .ok ())
  else match Executable.program? tree ⟨settings.program⟩ with
    | none => (tree, .error (.checkerMissing settings.program))
    | some program => settings.launch program tree directory files

end CheckerSettings

end CompositeKeys.Generation
