import CompositeKeys.Collection.Shape
import CompositeKeys.Records.Value

/-! A dimension is one key, set element or value of a collection, with the types and the text that
document it and the expression that validates it. -/

namespace CompositeKeys

/-- What a dimension is for, and how it is held. -/
inductive Role where
  | mapKey (retention : Retention)
  | setElement (retention : Retention)
  | value
  deriving DecidableEq, Repr, Inhabited

namespace Role

/-- The name of the role in stored data. -/
def name : Role → String
  | .mapKey .weak => "weak_map_key"
  | .mapKey .strong => "strong_map_key"
  | .setElement .weak => "weak_set_element"
  | .setElement .strong => "strong_set_element"
  | .value => "value"

/-- The name of the role in messages. -/
def title : Role → String
  | .mapKey .weak => "WeakMapKey"
  | .mapKey .strong => "StrongMapKey"
  | .setElement .weak => "WeakSetElement"
  | .setElement .strong => "StrongSetElement"
  | .value => "Value"

def all : List Role :=
  [.mapKey .weak, .mapKey .strong, .setElement .weak, .setElement .strong, .value]

def ofName? (text : String) : Option Role :=
  all.find? fun role => role.name = text

/-- The role of a key that is held as asked. -/
def ofKey (isMapKey holdWeak : Bool) : Role :=
  let retention := if holdWeak then Retention.weak else .strong
  if isMapKey then .mapKey retention else .setElement retention

def isWeak : Role → Bool
  | .mapKey .weak | .setElement .weak => true
  | _ => false

def isMapKey : Role → Bool
  | .mapKey _ => true
  | _ => false

def isSetElement : Role → Bool
  | .setElement _ => true
  | _ => false

/-- The documented type of a dimension that is declared without one. -/
def documentType (role : Role) : String := if role.isWeak then "object" else "*"

/-- The checked type of a dimension that is declared without one. -/
def checkedType (role : Role) : String := if role.isWeak then "object" else "unknown"

end Role

structure Dimension where
  name : String
  role : Role
  documentType : String := role.documentType
  checkedType : String := role.checkedType
  description : String
  validator : Option String := none
  deriving DecidableEq, Repr, Inhabited

/-- Reads a dimension from a record. A record that is an array has to have all fields. -/
def Dimension.ofValue? (medium : Records.Medium) (value : Records.Value) : Option Dimension := do
  if let .array items := value then
    if items.length < 6 then none
  let [name, role, documentType, checkedType, description, validator] ← value.fields? medium
    ["name", "kind", "jsdoc_type", "ts_type", "description", "validator"] | none
  return {
    name := ← Records.needed (·.text?) name
    role := ← Records.needed (fun role => (role.alternative? medium).bind Role.ofName?) role
    documentType := ← Records.needed (·.text?) documentType
    checkedType := ← Records.needed (·.text?) checkedType
    description := ← Records.needed (·.text?) description
    validator := ← Records.optional (·.text?) validator }

end CompositeKeys
