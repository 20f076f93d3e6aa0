import CompositeKeys.Generation.Run

/-! A project is a directory of manifests. Every manifest below it becomes a module below the output
directory, at the same place and under the same name. -/

namespace CompositeKeys.Generation
open Files Records Emission

/-- The end of the name of a manifest. -/
def manifestEnding : String := ".collection.toml"

/-- The name of a manifest without its ending. -/
def manifestStem? (name : String) : Option String :=
  (Text.before? manifestEnding.toList name.toList).map String.ofList

namespace Manifest

def parse? (text : String) : Option Manifest := (Toml.parse? text).bind (ofValue? .document)

/-- The links to base manifests that can be followed one after another. Where links come back to the
same files, either a path comes back with them or the paths grow, up to their limit. -/
def linkLimit (tree : FileTree) : Nat := (pathLimit + 1) * (tree.entries.length + 1)

/-- Loads a manifest with the bases that it is linked to. The paths being loaded are given by their
components, after the number of these, so that paths of different lengths are told apart at once. -/
def loadLinked (tree : FileTree) :
    Nat → List (Nat × List Component) → FilePath → Except GenerationError Builder
  | 0, _, _ => .error (.file .nameTooLong)
  | links + 1, loading, path =>
    let components := path.components
    let entry := (components.length, components)
    if loading.contains entry then .error (.manifest path .cycle)
    else do
      let text ← (tree.read path).mapError .file
      let some manifest := parse? text | throw (.manifest path .unreadable)
      let base ← match manifest.pairing.bind PairingEntry.baseManifest with
        | none => pure none
        | some relative =>
          let linked := (path.parent?.getD ⟨""⟩).join relative
          (loadLinked tree links (entry :: loading) linked).map some
      (manifest.build base).mapError fun error => .manifest path (.refused error)

/-- Loads a manifest as a locked builder. -/
def load (tree : FileTree) (path : FilePath) : Except GenerationError Builder :=
  loadLinked tree (linkLimit tree) [] path

end Manifest

structure Project where
  source : FilePath
  output : FilePath
  options : CompileOptions := {}
  checker : CheckerSettings := {}
  deriving DecidableEq, Repr

namespace Project

def ofSettings (settings : Settings) : Project :=
  { source := settings.source, output := settings.output, options := settings.compile
    checker := settings.checker }

/-- The manifests of a project, in the order of their paths. -/
def manifests (project : Project) (tree : FileTree) : Except GenerationError (List FilePath) := do
  let files ← (tree.filesUnder project.source).mapError (.search project.source)
  let manifests := files.filter fun path => (path.fileName?.bind manifestStem?).isSome
  return (manifests.foldr (fun path => insertPath path ()) []).map Prod.fst

/-- The place of the module of a manifest, below the output directory. -/
def relativeOutput (project : Project) (manifest : FilePath) : Except GenerationError FilePath :=
  match (do
    let relative ← manifest.after? project.source
    let stem ← manifestStem? (← relative.fileName?)
    return relative.withFileName (stem ++ ".mjs")) with
  | some output => .ok output
  | none => .error (.outputPath manifest)

/-- Adds the modules of manifests to a batch. -/
def addManifests (project : Project) (tree : FileTree) (batch : Batch) :
    List FilePath → Except GenerationError Batch
  | [] => .ok batch
  | manifest :: rest => do
    let builder ← Manifest.load tree manifest
    match batch.add builder (← project.relativeOutput manifest) with
    | (_, .error error) => throw error
    | (next, .ok ()) => addManifests project tree next rest

/-- Generates the modules of a project. -/
def generate (project : Project) (tree : FileTree) :
    FileTree × Except GenerationError (List String) :=
  let prepared := do
    let batch := Batch.create project.output project.options project.checker
    project.addManifests tree batch (← project.manifests tree)
  match prepared with
  | .error error => (tree, .error error)
  | .ok batch => (batch.complete tree).2

end Project

/-- The reasons why a command fails. -/
inductive CommandError where
  | settings (error : SettingsError)
  | generation (error : GenerationError)
  | sourceMissing (source : FilePath)
  | settingsExist (path : FilePath)
  deriving DecidableEq, Repr

def CommandError.message : CommandError → String
  | .settings error => error.message
  | .generation error => error.message
  | .sourceMissing source => s!"Source directory {source.text} does not exist"
  | .settingsExist path => s!"{path.text} already exists; pass --force to overwrite it"

/-- Generates the modules that the settings ask for. -/
def Settings.generate (settings : Settings) (tree : FileTree) :
    FileTree × Except CommandError (List String) :=
  if !tree.hasDirectory settings.source then (tree, .error (.sourceMissing settings.source))
  else
    let (next, result) := (Project.ofSettings settings).generate tree
    (next, result.mapError .generation)

/-- Writes the default settings to a file, which has to be new unless it may be replaced. -/
def writeDefaultSettings (path : FilePath) (force : Bool) (tree : FileTree) :
    FileTree × Except CommandError Unit :=
  if tree.has path && !force then (tree, .error (.settingsExist path))
  else
    let (ready, created) := match path.directory? with
      | some directory => tree.createAll directory
      | none => (tree, .ok ())
    match created.mapError SettingsError.file >>= fun _ => Settings.save {} ready path with
    | .error error => (ready, .error (.settings error))
    | .ok written => (written, .ok ())

end CompositeKeys.Generation
