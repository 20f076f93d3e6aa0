import CompositeKeys.Emission.SourceModule
import CompositeKeys.Files.Tree
import CompositeKeys.Toml.Document
import CompositeKeys.Toml.Printer

/-! The settings of a project: where manifests are read and modules written, what modules are
generated with, and the type checker to run over them. A field that is not there has its default. -/

namespace CompositeKeys.Generation
open Records Files Emission

/-- A type checker, the arguments before the names of the files, and the seconds it may take. -/
structure CheckerSettings where
  program : String := "tsc"
  arguments : List String := ["--noEmit", "--allowJs", "--checkJs"]
  timeout : Nat := 120
  deriving DecidableEq, Repr, Inhabited

structure Settings where
  logLevel : String := "info"
  source : FilePath := ⟨"collections"⟩
  output : FilePath := ⟨"generated"⟩
  compile : CompileOptions := {}
  checker : CheckerSettings := {}
  deriving DecidableEq, Repr, Inhabited

inductive SettingsError where
  | file (error : FileError)
  | unreadable
  deriving DecidableEq, Repr

def SettingsError.message : SettingsError → String
  | .file error => s!"Failed to read config file: {error.message}"
  | .unreadable => "Failed to parse config file: not a valid document"

namespace CheckerSettings

def ofValue? (value : Value) : Option CheckerSettings := do
  let [program, arguments, timeout] ←
    value.fields? .document ["program", "args", "timeout_secs"] | none
  let base : CheckerSettings := {}
  return {
    program := ← defaulted base.program Value.text? program
    arguments := ← defaulted base.arguments (Value.list? Value.text?) arguments
    timeout := ← defaulted base.timeout Value.count? timeout }

def entries (settings : CheckerSettings) : List (String × Value) :=
  [("program", .text settings.program), ("args", .array (settings.arguments.map .text)),
    ("timeout_secs", .integer settings.timeout)]

end CheckerSettings

def compileOptions? (value : Value) : Option CompileOptions := do
  let [licenseText, license, author, copyright, disableSpecialization, checkedTypes] ←
    value.fields? .document ["license_text", "license", "author", "copyright",
      "disable_key_optimization", "generate_type_checked"] | none
  return {
    licenseText := ← defaulted "" Value.text? licenseText
    license := ← defaulted "" Value.text? license
    author := ← defaulted "" Value.text? author
    copyright := ← defaulted "" Value.text? copyright
    disableSpecialization := ← defaulted false Value.boolean? disableSpecialization
    checkedTypes := ← defaulted false Value.boolean? checkedTypes }

def compileEntries (options : CompileOptions) : List (String × Value) :=
  [("license_text", .text options.licenseText), ("license", .text options.license),
    ("author", .text options.author), ("copyright", .text options.copyright),
    ("disable_key_optimization", .boolean options.disableSpecialization),
    ("generate_type_checked", .boolean options.checkedTypes)]

namespace Settings

def ofValue? (value : Value) : Option Settings := do
  let [logging, codegen, compile, checker] ←
    value.fields? .document ["logging", "codegen", "compile", "type_check"] | none
  let [level] ← (logging.getD (.table [])).fields? .document ["level"] | none
  let [source, output] ←
    (codegen.getD (.table [])).fields? .document ["source_dir", "output_dir"] | none
  let base : Settings := {}
  return {
    logLevel := ← defaulted base.logLevel Value.text? level
    source := ⟨← defaulted base.source.text Value.text? source⟩
    output := ⟨← defaulted base.output.text Value.text? output⟩
    compile := ← defaulted base.compile compileOptions? compile
    checker := ← defaulted base.checker CheckerSettings.ofValue? checker }

def sections (settings : Settings) : List (String × List (String × Value)) :=
  [("logging", [("level", .text settings.logLevel)]),
    ("codegen", [("source_dir", .text settings.source.text),
      ("output_dir", .text settings.output.text)]),
    ("compile", compileEntries settings.compile),
    ("type_check", settings.checker.entries)]

/-- The settings as a value. -/
def toValue (settings : Settings) : Value :=
  .table (settings.sections.map fun (name, entries) => (name, .table entries))

/-- Reads settings from the text of a document. -/
def parse (text : String) : Except SettingsError Settings :=
  match (Toml.parse? text).bind ofValue? with
  | some settings => .ok settings
  | none => .error .unreadable

/-- The text of a document with the settings. -/
def print (settings : Settings) : String := Toml.document settings.sections

def load (tree : FileTree) (path : FilePath) : Except SettingsError Settings := do
  parse (← (tree.read path).mapError .file)

/-- Loads the settings from the given file, or else from the user's file if there is one. -/
def loadOrDefault (tree : FileTree) (path userFile : Option FilePath) :
    Except SettingsError Settings :=
  match path, userFile.filter tree.has with
  | some path, _ | none, some path => load tree path
  | none, none => .ok {}

def save (settings : Settings) (tree : FileTree) (path : FilePath) :
    Except SettingsError FileTree :=
  (tree.write path settings.print).mapError .file

end Settings

/-- What the command line may put in place of settings. -/
structure Overrides where
  source : Option FilePath := none
  output : Option FilePath := none
  checkTypes : Bool := false
  disableSpecialization : Bool := false
  deriving DecidableEq, Repr, Inhabited

/-- Applies overrides. A switch can only be turned on by them. -/
def Settings.override (settings : Settings) (overrides : Overrides) : Settings :=
  let compile := settings.compile
  { settings with
    source := overrides.source.getD settings.source
    output := overrides.output.getD settings.output
    compile := { compile with
      checkedTypes := compile.checkedTypes || overrides.checkTypes
      disableSpecialization := compile.disableSpecialization || overrides.disableSpecialization } }

end CompositeKeys.Generation
