import CompositeKeys.Emission.Documentation
import CompositeKeys.Files.Tree
import CompositeKeys.Generation.Manifest
import CompositeKeys.Shell.Launch
import CompositeKeys.Tasks.Graph

/-! The reasons why modules are not generated. -/

namespace CompositeKeys.Generation
open Files Emission Tasks

/-- What is wrong with a manifest. -/
inductive ManifestFault where
  | unreadable
  | cycle
  | refused (error : ManifestError)
  deriving DecidableEq, Repr

def ManifestFault.message : ManifestFault → String
  | .unreadable => "not a valid manifest"
  | .cycle => "base manifests form a cycle"
  | .refused error => error.message

inductive GenerationError where
  | notLocked (className : String)
  | outputPath (path : FilePath)
  | checkerMissing (program : String)
  | checkerTimeout (seconds : Nat)
  | checkFailed (ending : Shell.Ending) (output : String)
  | manifest (path : FilePath) (fault : ManifestFault)
  | task (error : TaskError)
  | emission (error : EmissionError)
  | search (path : FilePath) (error : FileError)
  | file (error : FileError)
  deriving DecidableEq, Repr

def GenerationError.message : GenerationError → String
  | .notLocked className => s!"Configuration \"{className}\" must be locked before it is generated"
  | .outputPath path => s!"Invalid output path: {path.text}"
  | .checkerMissing program => s!"Type checker \"{program}\" was not found on PATH"
  | .checkerTimeout seconds => s!"Type checker timed out after {seconds} seconds"
  | .checkFailed ending output => s!"Type check failed ({ending.text}):\n{output}"
  | .manifest path fault => s!"Manifest {path.text}: {fault.message}"
  | .task error => error.message
  | .emission error => error.message
  | .search path error => s!"IO error for operation on {path.text}: {error.message}"
  | .file error => error.message

end CompositeKeys.Generation
