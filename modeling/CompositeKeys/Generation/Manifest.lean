import CompositeKeys.Collection.Builder
import CompositeKeys.Files.Path
import CompositeKeys.Records.Value

/-! A manifest declares one collection: what would be said to a builder, written as a record. The
base of a paired collection is a well-known one or another manifest. -/

namespace CompositeKeys.Generation
open Records Files

/-- A key or an element of a collection. -/
structure KeyEntry where
  name : String
  description : String
  holdWeak : Bool := false
  options : DimensionOptions := {}
  deriving DecidableEq, Repr

structure ValueEntry where
  description : String
  options : DimensionOptions := {}
  deriving DecidableEq, Repr

structure PairingEntry where
  base : Option String := none
  baseManifest : Option FilePath := none
  reservedKey : String
  modulePath : Option String := none
  deriving DecidableEq, Repr

structure Manifest where
  className : String
  outer : OuterShape
  inner : Option InnerShape := none
  overview : Option String := none
  importText : Option String := none
  mapKeys : List KeyEntry := []
  setElements : List KeyEntry := []
  value : Option ValueEntry := none
  pairing : Option PairingEntry := none
  deriving DecidableEq, Repr

/-- The reasons not to build what a manifest declares. -/
inductive ManifestError where
  | build (error : BuildError)
  | baseNotLoaded (base : FilePath) (className : String)
  | baseAmbiguous (className : String)
  deriving DecidableEq, Repr

def ManifestError.message : ManifestError → String
  | .build error => error.message
  | .baseNotLoaded base className =>
    s!"base manifest {base.text} of \"{className}\" was not loaded"
  | .baseAmbiguous className =>
    s!"pairing of \"{className}\" needs exactly one of base or base_manifest"

/-- Entries for the fields that are there. -/
def given (name : String) (value : Option String) : List (String × Value) :=
  (value.map fun text => (name, Value.text text)).toList

def optionEntries (options : DimensionOptions) : List (String × Value) :=
  given "jsdoc_type" options.documentType ++ given "ts_type" options.checkedType
    ++ given "validator" options.validator

def options? (documentType checkedType validator : Option Value) : Option DimensionOptions := do
  return {
    documentType := ← optional Value.text? documentType
    checkedType := ← optional Value.text? checkedType
    validator := ← optional Value.text? validator }

namespace KeyEntry

def ofValue? (medium : Medium) (value : Value) : Option KeyEntry := do
  let [name, description, holdWeak, documentType, checkedType, validator] ←
    value.closedFields? medium
      ["name", "description", "hold_weak", "jsdoc_type", "ts_type", "validator"] | none
  return {
    name := ← needed Value.text? name
    description := ← needed Value.text? description
    holdWeak := ← defaulted false Value.boolean? holdWeak
    options := ← options? documentType checkedType validator }

def toValue (entry : KeyEntry) : Value :=
  .table ([("name", .text entry.name), ("description", .text entry.description),
    ("hold_weak", .boolean entry.holdWeak)] ++ optionEntries entry.options)

end KeyEntry

namespace ValueEntry

def ofValue? (medium : Medium) (value : Value) : Option ValueEntry := do
  let [description, documentType, checkedType, validator] ← value.closedFields? medium
    ["description", "jsdoc_type", "ts_type", "validator"] | none
  return {
    description := ← needed Value.text? description
    options := ← options? documentType checkedType validator }

def toValue (entry : ValueEntry) : Value :=
  .table (("description", .text entry.description) :: optionEntries entry.options)

end ValueEntry

namespace PairingEntry

def ofValue? (medium : Medium) (value : Value) : Option PairingEntry := do
  let [base, baseManifest, reservedKey, modulePath] ← value.closedFields? medium
    ["base", "base_manifest", "reserved_key", "path_to_base_module"] | none
  return {
    base := ← optional Value.text? base
    baseManifest := (← optional Value.text? baseManifest).map FilePath.mk
    reservedKey := ← needed Value.text? reservedKey
    modulePath := ← optional Value.text? modulePath }

def toValue (entry : PairingEntry) : Value :=
  .table (given "base" entry.base ++ given "base_manifest" (entry.baseManifest.map FilePath.text)
    ++ [("reserved_key", .text entry.reservedKey)]
    ++ given "path_to_base_module" entry.modulePath)

end PairingEntry

def outerShape? (medium : Medium) (value : Value) : Option OuterShape :=
  (value.alternative? medium).bind fun name => (OuterShape.ofName name).toOption

def innerShape? (medium : Medium) (value : Value) : Option InnerShape :=
  (value.alternative? medium).bind fun name => (InnerShape.ofName name).toOption

namespace Manifest

def ofValue? (medium : Medium) (value : Value) : Option Manifest := do
  let [className, outer, inner, overview, importText, mapKeys, setElements, content, pairing] ←
    value.closedFields? medium ["class_name", "outer", "inner", "overview", "import_lines",
      "map_keys", "set_elements", "value", "pairing"] | none
  return {
    className := ← needed Value.text? className
    outer := ← needed (outerShape? medium) outer
    inner := ← optional (innerShape? medium) inner
    overview := ← optional Value.text? overview
    importText := ← optional Value.text? importText
    mapKeys := ← defaulted [] (Value.list? (KeyEntry.ofValue? medium)) mapKeys
    setElements := ← defaulted [] (Value.list? (KeyEntry.ofValue? medium)) setElements
    value := ← optional (ValueEntry.ofValue? medium) content
    pairing := ← optional (PairingEntry.ofValue? medium) pairing }

def keyList (name : String) (entries : List KeyEntry) : List (String × Value) :=
  if entries = [] then [] else [(name, .array (entries.map KeyEntry.toValue))]

/-- The record of a manifest, without the fields that say nothing. -/
def toValue (manifest : Manifest) : Value :=
  .table ([("class_name", .text manifest.className), ("outer", .text manifest.outer.name)]
    ++ given "inner" (manifest.inner.map InnerShape.name)
    ++ given "overview" manifest.overview ++ given "import_lines" manifest.importText
    ++ keyList "map_keys" manifest.mapKeys ++ keyList "set_elements" manifest.setElements
    ++ (manifest.value.map fun entry => ("value", entry.toValue)).toList
    ++ (manifest.pairing.map fun entry => ("pairing", entry.toValue)).toList)

/-- The calls that a manifest stands for, but for the pairing and the lock. -/
def calls (manifest : Manifest) : List Call :=
  (manifest.overview.map Call.setOverview).toList
    ++ (manifest.importText.map Call.setImportText).toList
    ++ manifest.mapKeys.map (fun key =>
      .addMapKey key.name key.description key.holdWeak key.options)
    ++ manifest.setElements.map (fun element =>
      .addSetElement element.name element.description element.holdWeak element.options)
    ++ (manifest.value.map fun value => .setValue value.description value.options).toList

/-- The base that a pairing asks for, which is the given builder if it names a manifest. -/
def baseChoice (className : String) (pairing : PairingEntry) (base : Option Builder) :
    Except ManifestError BaseChoice :=
  match pairing.base, pairing.baseManifest, base with
  | some name, none, _ => .ok (.wellKnown name)
  | none, some _, some builder => .ok (.builder builder)
  | none, some path, none => .error (.baseNotLoaded path className)
  | _, _, _ => .error (.baseAmbiguous className)

/-- The call that a pairing stands for. -/
def pairingCall (className : String) (base : Option Builder) (pairing : PairingEntry) :
    Except ManifestError Call :=
  (baseChoice className pairing base).map fun choice =>
    .configurePairing choice pairing.reservedKey pairing.modulePath

/-- Makes a call that must not be refused. -/
def make (builder : Builder) (call : Call) : Except ManifestError Builder :=
  match builder.perform call with
  | (next, .ok ()) => .ok next
  | (_, .error error) => .error (.build error)

/-- Builds the declared collection. -/
def build (manifest : Manifest) (base : Option Builder) : Except ManifestError Builder := do
  let created ← (Builder.create manifest.className manifest.outer manifest.inner).mapError .build
  let declared ← manifest.calls.foldlM make created
  let pairing ← manifest.pairing.toList.mapM (pairingCall manifest.className base)
  (pairing ++ [Call.lock]).foldlM make declared

end Manifest

end CompositeKeys.Generation
