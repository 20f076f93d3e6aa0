import CompositeKeys.Generation.Checker
import CompositeKeys.Generation.HelperFiles
import CompositeKeys.Tasks.Machine

/-! A run writes modules, one target for each output path; then it copies the helper modules that
they import, and then it checks those written with checked types. Generators that ask for the same
path share its target, and all generators of a run come to what the run comes to. -/

namespace CompositeKeys.Generation
open Files Emission Tasks

/-- What the tasks of a run work on: the files, and what has been noted about the modules written so
far. -/
structure Workspace where
  files : FileTree := {}
  helpers : HelperUse := {}
  toCheck : List FilePath := []
  deriving DecidableEq, Repr, Inhabited

/-- A piece of work. What it has done before a failure stays. -/
abbrev Work := Workspace → Workspace × Except GenerationError Unit

/-- The task of a target that does a piece of work. -/
def Work.task (target : String) (work : Work) : Program Workspace :=
  .act (fun workspace => (work workspace).1) fun before =>
    .finish ((work before).2.mapError fun error => .failed target error.message)

/-- A module to write: a configuration, what it is generated with, and where it goes. -/
structure ModuleOrder where
  configuration : Configuration
  options : CompileOptions
  output : FilePath
  helperPrefix : String
  deriving DecidableEq, Repr

/-- Generates a module and writes it, in a directory that is created if need be. -/
def ModuleOrder.work (order : ModuleOrder) : Work := fun workspace =>
  match SourceModule.ofConfiguration order.configuration order.options order.helperPrefix with
  | .error error => (workspace, .error (.emission error))
  | .ok source =>
    let (files, created) := match order.output.directory? with
      | some directory => workspace.files.createAll directory
      | none => (workspace.files, .ok ())
    match created >>= fun _ => files.write order.output source.text with
    | .error error => ({ workspace with files }, .error (.file error))
    | .ok written =>
      let checked := if order.options.checkedTypes then [order.output] else []
      ({ files := written
         helpers := workspace.helpers.union source.helpers
         toCheck := workspace.toCheck ++ checked }, .ok ())

/-- Writes files into a directory, one after another. -/
def writeHelpers (directory : FilePath) (tree : FileTree) :
    List HelperFile → FileTree × Except FileError Unit
  | [] => (tree, .ok ())
  | file :: rest =>
    match tree.write (directory.join ⟨file.name⟩) file.text with
    | .ok next => writeHelpers directory next rest
    | .error error => (tree, .error error)

/-- Copies the helper modules that have been asked for, if any. -/
def copyHelpers (directory : FilePath) : Work := fun workspace =>
  match helperFiles workspace.helpers with
  | [] => (workspace, .ok ())
  | wanted =>
    let (files, copied) := match workspace.files.createAll directory with
      | (files, .ok ()) => writeHelpers directory files wanted
      | failed => failed
    ({ workspace with files }, copied.mapError .file)

/-- Checks the modules that are to be checked. -/
def checkModules (settings : CheckerSettings) (root : FilePath) : Work := fun workspace =>
  let (files, checked) := settings.check workspace.files root workspace.toCheck
  ({ workspace with files, toCheck := [] }, checked)

/-- The class that a claimed path is for, and the target that writes it. -/
structure Claim where
  className : String
  target : String
  deriving DecidableEq, Repr

/-- A run: the root of its outputs, its targets, the claimed paths in order, and what it came to. -/
structure GenerationRun where
  root : FilePath
  machine : Machine Workspace
  known : List (FilePath × Claim) := []
  outcome : Option Outcome := none

/-- Operates on a machine until an operation is refused. -/
def operateAll (machine : Machine Workspace) :
    List (Operation (Program Workspace)) → Machine Workspace × Outcome
  | [] => (machine, .ok ())
  | operation :: rest =>
    match machine.operate operation with
    | (next, .ok ()) => operateAll next rest
    | refused => refused

namespace GenerationRun

/-- The target over those of the single modules. -/
def modulesTarget : String := "generators"

def helpersTarget : String := "copy runtime helpers"

def checkTarget : String := "type check"

/-- The fixed targets, in the order in which they run. -/
def fixedTargets : List String := [modulesTarget, helpersTarget, checkTarget]

def helperDirectoryOf (root : FilePath) : FilePath := root.join ⟨helperDirectoryName⟩

/-- Begins a run over the directory that everything is written into. -/
def create (root : FilePath) (checker : CheckerSettings) : GenerationRun :=
  let operations : List (Operation (Program Workspace)) := [
    .create modulesTarget,
    .describe modulesTarget "Generate every collection module",
    .create helpersTarget,
    .describe helpersTarget "Copy runtime helpers beside the generated modules",
    .addTask helpersTarget ((copyHelpers (helperDirectoryOf root)).task helpersTarget),
    .create checkTarget,
    .describe checkTarget "Type-check the generated modules",
    .addTask checkTarget ((checkModules checker root).task checkTarget)]
  { root, machine := (operateAll { world := {} } operations).1 }

def helperDirectory (run : GenerationRun) : FilePath := helperDirectoryOf run.root

def status (run : GenerationRun) : Status := run.machine.graph.status

def claim? (run : GenerationRun) (path : FilePath) : Option Claim :=
  (run.known.find? fun entry => entry.1.same path).map Prod.snd

def knownPaths (run : GenerationRun) : List FilePath := run.known.map Prod.fst

/-- The operations that make a target for a module. -/
def claimOperations (target className : String) : List (Operation (Program Workspace)) :=
  [.create target, .describe target s!"Generate {className}", .create modulesTarget,
    .depend modulesTarget target]

/-- Claims a path for a class, unless it has been claimed before. The second part tells whether it
is claimed now. What a claim has changed before it is refused stays. -/
def claim (run : GenerationRun) (path : FilePath) (className : String) :
    GenerationRun × Except GenerationError (Claim × Bool) :=
  match run.claim? path with
  | some claim => (run, .ok (claim, false))
  | none =>
    if run.status ≠ .notStarted then (run, .error (.task (.status .notStarted run.status)))
    else
      let claim : Claim := { className, target := path.text }
      match operateAll run.machine (claimOperations path.text className) with
      | (machine, .error error) => ({ run with machine }, .error (.task error))
      | (machine, .ok ()) =>
        ({ run with machine, known := insertPath path claim run.known }, .ok (claim, true))

/-- The number of steps within which a run is over: each target takes some to begin and to end, and
some for each of its dependencies and tasks. -/
def stepLimit (graph : Tasks.Graph (Program Workspace)) : Nat :=
  graph.targets.foldr (fun entry limit =>
    4 * (entry.2.subtargets.length + entry.2.tasks.length + 1) + limit) 4

/-- Executes the targets under the root, which has been given its dependencies. -/
def execute (machine : Machine Workspace) : Machine Workspace × Outcome :=
  match machine.waitFor rootName (stepLimit machine.graph) with
  | (finished, some (.ok ())) => finished.operate .markClosed
  | (finished, some (.error error)) => (finished, .error error)
  | (waiting, none) => (waiting, .error (.status .closed waiting.graph.status))

/-- Starts the targets of a run. -/
def launch (machine : Machine Workspace) : Machine Workspace × Outcome :=
  match operateAll machine (.markReady :: fixedTargets.map (.depend rootName)) with
  | (ready, .ok ()) => execute ready
  | refused => refused

/-- Completes a run over the given files. It is started the first time; later the outcome is
known. -/
def complete (run : GenerationRun) (files : FileTree) : GenerationRun × FileTree × Outcome :=
  match run.outcome with
  | some outcome => (run, files, outcome)
  | none =>
    let world := { run.machine.world with files }
    let (machine, outcome) := launch { run.machine with world }
    ({ run with machine, outcome := some outcome }, machine.world.files, outcome)

end GenerationRun

/-- How far a generator has come. -/
inductive Stage where
  | notStarted
  | completed
  | aborted
  deriving DecidableEq, Repr, Inhabited

def Stage.name : Stage → String
  | .notStarted => "not started"
  | .completed => "completed"
  | .aborted => "aborted"

/-- One collection to be written to one file in a run. -/
structure Generator where
  claim : Claim
  output : FilePath
  ownsTarget : Bool
  stage : Stage := .notStarted
  deriving DecidableEq, Repr

namespace Generator

/-- Enters a locked collection into a run. If its path has been claimed before, the collection that
claimed it is the one to be written. -/
def register (builder : Builder) (output : FilePath) (options : CompileOptions)
    (run : GenerationRun) : GenerationRun × Except GenerationError Generator :=
  if !builder.isLocked then (run, .error (.notLocked builder.className))
  else if output.fileName?.isNone then (run, .error (.outputPath output))
  else match run.claim output builder.className with
    | (run, .error error) => (run, .error error)
    | (run, .ok (claim, false)) => (run, .ok { claim, output, ownsTarget := false })
    | (run, .ok (claim, true)) =>
      let order : ModuleOrder :=
        { configuration := builder.configuration, options, output
          helperPrefix := importPrefix output run.helperDirectory }
      let task := order.work.task claim.target
      match run.machine.operate (.addTask claim.target task) with
      | (machine, .ok ()) => ({ run with machine }, .ok { claim, output, ownsTarget := true })
      | (_, .error error) => (run, .error (.task error))

/-- The root of a run for one output alone. -/
def ownRoot (output : FilePath) : FilePath := output.directory?.getD ⟨"."⟩

/-- Enters a locked collection into a run of its own. -/
def standalone (builder : Builder) (output : FilePath) (options : CompileOptions) :
    GenerationRun × Except GenerationError Generator :=
  register builder output options (.create (ownRoot output) {})

/-- A generator of a run that has come to an outcome. -/
def settled (generator : Generator) (outcome : Outcome) : Generator :=
  { generator with stage := if outcome.isOk then .completed else .aborted }

/-- The class that a generator has written, if its run has succeeded. -/
def result (generator : Generator) (outcome : Outcome) : Except GenerationError String :=
  (outcome.mapError .task).map fun _ => generator.claim.className

end Generator

/-- A run over collections that are written below its root, in the order in which they are added. -/
structure Batch where
  run : GenerationRun
  options : CompileOptions
  generators : List Generator := []

namespace Batch

def create (root : FilePath) (options : CompileOptions) (checker : CheckerSettings) : Batch :=
  { run := .create root checker, options }

/-- Adds a locked collection under a path relative to the root. -/
def add (batch : Batch) (builder : Builder) (relative : FilePath) :
    Batch × Except GenerationError Unit :=
  if relative.isAbsolute then (batch, .error (.outputPath relative))
  else
    match Generator.register builder (batch.run.root.join relative) batch.options batch.run with
    | (run, .error error) => ({ batch with run }, .error error)
    | (run, .ok generator) =>
      ({ batch with run, generators := batch.generators ++ [generator] }, .ok ())

/-- Completes the run, unless there is nothing to write, and gives the classes written. -/
def complete (batch : Batch) (files : FileTree) :
    Batch × FileTree × Except GenerationError (List String) :=
  if batch.generators = [] then (batch, files, .ok [])
  else
    let (run, files, outcome) := batch.run.complete files
    ({ batch with run, generators := batch.generators.map (·.settled outcome) }, files,
      batch.generators.mapM (·.result outcome))

end Batch

end CompositeKeys.Generation
