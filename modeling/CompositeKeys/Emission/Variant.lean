import CompositeKeys.Emission.KeyedMap
import CompositeKeys.Emission.KeyedSet
import CompositeKeys.Emission.MapOfSets
import CompositeKeys.Emission.PairedMap

/-! The template that a configuration is written with. A map of sets with exactly one mapping key or
exactly one element has a form of its own, which does without hashing or composing there; every
other configuration is written as its family says. -/

namespace CompositeKeys.Emission

/-- How many keys there are on one side of a map of sets, and whether one of them is weak. -/
structure Extent where
  isOne : Bool
  isWeak : Bool
  deriving DecidableEq, Repr

/-- Both sides of a map of sets. -/
structure Extents where
  mapKeys : Extent
  elements : Extent
  deriving DecidableEq, Repr

def Extent.code (extent : Extent) : String :=
  (if extent.isOne then "1" else "n") ++ (if extent.isWeak then "W" else "S")

def Extent.all : List Extent := [⟨true, true⟩, ⟨true, false⟩, ⟨false, true⟩, ⟨false, false⟩]

namespace Extents

def code (extents : Extents) : String := extents.mapKeys.code ++ "/" ++ extents.elements.code

def all : List Extents :=
  Extent.all.flatMap fun mapKeys => Extent.all.map fun elements => { mapKeys, elements }

def ofCode? (text : String) : Option Extents :=
  all.find? fun extents => extents.code = text

/-- The extents of a declaration with both mapping keys and set elements. -/
def of? (declaration : Declaration) : Option Extents :=
  let partition := declaration.partition
  let mapCount := partition.weakMapKeys.length + partition.strongMapKeys.length
  let setCount := partition.weakSetElements.length + partition.strongSetElements.length
  if mapCount = 0 ∨ setCount = 0 then none
  else some {
    mapKeys := { isOne := mapCount = 1, isWeak := partition.weakMapKeys ≠ [] }
    elements := { isOne := setCount = 1, isWeak := partition.weakSetElements ≠ [] } }

end Extents

inductive Variant where
  | nominal (family : Family)
  | oneKey (retention : Retention)
  | oneKeyOneElement (retention : Retention)
  | oneElement (retention : Retention)
  deriving DecidableEq, Repr

namespace Variant

def name : Variant → String
  | .nominal family => family.name
  | .oneKey .weak => "Weak/OneMapOfStrongSets"
  | .oneKey .strong => "Strong/OneMapOfStrongSets"
  | .oneKeyOneElement .weak => "Weak/OneMapOfOneStrongSet"
  | .oneKeyOneElement .strong => "Strong/OneMapOfOneStrongSet"
  | .oneElement .weak => "Weak/MapOfOneStrongSet"
  | .oneElement .strong => "Strong/MapOfOneStrongSet"

def all : List Variant :=
  [.nominal (.map .strong), .nominal (.map .weak), .nominal (.set .strong), .nominal (.set .weak),
    .nominal (.soloMap .strong), .nominal (.soloMap .weak), .nominal (.soloSet .strong),
    .nominal (.soloSet .weak), .nominal (.mapOfSets .strong), .nominal (.mapOfSets .weak),
    .nominal .oneToOne, .oneKey .weak, .oneKeyOneElement .weak, .oneKey .strong,
    .oneKeyOneElement .strong, .oneElement .weak, .oneElement .strong]

def isMapOfSets : Variant → Bool
  | .nominal family => family.isMapOfSets
  | .oneKey _ | .oneKeyOneElement _ | .oneElement _ => true

/-- The form for extents that have one. Elements are strong in all of them. -/
def ofExtents? (extents : Extents) : Option Variant :=
  let retention : Retention := if extents.mapKeys.isWeak then .weak else .strong
  if extents.elements.isWeak then none
  else match extents.mapKeys.isOne, extents.elements.isOne with
    | true, false => some (.oneKey retention)
    | true, true => some (.oneKeyOneElement retention)
    | false, true => some (.oneElement retention)
    | false, false => none

/-- The variant that a declaration is written with. -/
def select (declaration : Declaration) (disableSpecialization : Bool) : Variant :=
  let nominal := Variant.nominal declaration.family
  if disableSpecialization || !declaration.family.isMapOfSets then nominal
  else ((Extents.of? declaration).bind ofExtents?).getD nominal

end Variant

/-- A template with its key plans chosen. -/
inductive Template where
  | map (keying : Keying) (weak : Bool)
  | set (keying : Keying) (weak : Bool)
  | mapOfSets (outer : Keying) (weak : Bool) (inner : Keying)
  | paired
  deriving DecidableEq, Repr

/-- The keying of several keys held in one way. -/
def keyingOf : Retention → Keying
  | .strong => .hashed
  | .weak => .composite

def Variant.template : Variant → Template
  | .nominal (.map retention) => .map (keyingOf retention) (retention = .weak)
  | .nominal (.set retention) => .set (keyingOf retention) (retention = .weak)
  | .nominal (.soloMap retention) => .map .direct (retention = .weak)
  | .nominal (.soloSet retention) => .set .direct (retention = .weak)
  | .nominal (.mapOfSets retention) => .mapOfSets (keyingOf retention) (retention = .weak) .hashed
  | .nominal .oneToOne => .paired
  | .oneKey retention => .mapOfSets .direct (retention = .weak) .hashed
  | .oneKeyOneElement retention => .mapOfSets .direct (retention = .weak) .direct
  | .oneElement retention => .mapOfSets (keyingOf retention) (retention = .weak) .direct

namespace Template

/-- The key plans that a template follows. -/
def plans (template : Template) (bindings : Bindings) : List KeyPlan :=
  match template with
  | .map keying _ => [.ofMap bindings keying]
  | .set keying _ => [.ofSet bindings keying]
  | .mapOfSets outer _ inner => [.ofMappingKeys bindings outer, .ofElements bindings inner]
  | .paired => []

def helpers (template : Template) (bindings : Bindings) : HelperUse :=
  (template.plans bindings).foldl (fun use plan => use.union plan.helpers) {}

/-- Whether the values that the class yields are key sequences. -/
def yieldsKeys : Template → Bool
  | .set .. | .mapOfSets .. => true
  | .map .. | .paired => false

def outline (template : Template) (bindings : Bindings) : Except EmissionError ClassOutline :=
  match template with
  | .map keying weak => .ok (keyedMap bindings keying weak)
  | .set keying weak => .ok (keyedSet bindings keying weak)
  | .mapOfSets outer weak inner => .ok (Emission.mapOfSets bindings outer weak inner)
  | .paired =>
    match bindings.pairing with
    | some pairing => .ok (pairedMap bindings.className pairing)
    | none => .error (.pairingMissing bindings.className)

end Template

end CompositeKeys.Emission
