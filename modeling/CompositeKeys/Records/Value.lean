/-! Values by which records are stored and sent, and how a record is read from one. A record may be
written as a table, or as an array with its fields in their order. -/

namespace CompositeKeys.Records

/-- A value. Numbers with a fraction and points in time are kept as they are written, because
nothing here computes with them. -/
inductive Value where
  | nothing
  | text (value : String)
  | integer (value : Int)
  | fraction (spelling : String)
  | boolean (value : Bool)
  | moment (spelling : String)
  | array (items : List Value)
  | table (entries : List (String × Value))
  deriving Repr, Inhabited

/-- What a value is read from: a document, or a message between programs. Only messages have a value
for nothing, and with it they fill an alternative, which documents leave empty. An array that stands
for a record may run on after its fields in a document. -/
inductive Medium where
  | document
  | message
  deriving DecidableEq, Repr

namespace Value

def text? : Value → Option String
  | .text value => some value
  | _ => none

def boolean? : Value → Option Bool
  | .boolean value => some value
  | _ => none

/-- The value of an integer that fits into 64 bits without a sign. -/
def count? : Value → Option Nat
  | .integer value =>
    if 0 ≤ value ∧ value < 18446744073709551616 then some value.toNat else none
  | _ => none

def list? {α : Type} (item? : Value → Option α) : Value → Option (List α)
  | .array items => items.mapM item?
  | _ => none

/-- The name of an alternative, which may stand alone or before a content that says nothing. -/
def alternative? (medium : Medium) : Value → Option String
  | .text name => some name
  | .table [(name, content)] =>
    match medium, content with
    | .document, .table [] | .document, .array [] | .message, .nothing => some name
    | _, _ => none
  | _ => none

/-- The entries by which a record can be written. A point in time is one reserved entry. -/
def entries? : Value → Option (List (String × Value))
  | .table entries => some entries
  | .moment spelling => some [("$__toml_private_datetime", .text spelling)]
  | _ => none

/-- The given fields of a record, where it has them. -/
def fields? (medium : Medium) (names : List String) (value : Value) :
    Option (List (Option Value)) :=
  match value with
  | .array items =>
    if medium = .message ∧ names.length < items.length then none
    else some ((items.map some ++ names.map fun _ => none).take names.length)
  | _ => value.entries?.map fun entries => names.map fun name => entries.lookup name

/-- The fields of a record that has no other fields. -/
def closedFields? (medium : Medium) (names : List String) (value : Value) :
    Option (List (Option Value)) :=
  if (value.entries?.getD []).all fun entry => names.contains entry.1 then
    value.fields? medium names
  else none

end Value

/-- A field that has to be there. -/
def needed {α : Type} (read? : Value → Option α) (field : Option Value) : Option α :=
  field.bind read?

/-- A field that may be left out, or say nothing. -/
def optional {α : Type} (read? : Value → Option α) : Option Value → Option (Option α)
  | none | some .nothing => some none
  | some value => (read? value).map some

/-- A field that has a default. -/
def defaulted {α : Type} (default : α) (read? : Value → Option α) : Option Value → Option α
  | none => some default
  | some value => read? value

end CompositeKeys.Records
