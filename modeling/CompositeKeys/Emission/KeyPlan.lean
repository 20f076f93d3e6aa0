import CompositeKeys.Emission.Writer

/-! A key plan says how the key arguments of a class become the one key that its storage uses: a
single argument serves as it is, a hasher turns all arguments into a string, and a composer turns
them into a frozen object that lives as long as the weak ones. -/

namespace CompositeKeys.Emission

/-- The parts of the key library that a module imports. -/
structure HelperUse where
  hasher : Bool := false
  composer : Bool := false
  deriving DecidableEq, Repr, Inhabited

namespace HelperUse

def union (first second : HelperUse) : HelperUse :=
  { hasher := first.hasher || second.hasher, composer := first.composer || second.composer }

def any (use : HelperUse) : Bool := use.hasher || use.composer

end HelperUse

inductive Keying where
  | direct
  | hashed
  | composite
  deriving DecidableEq, Repr, Inhabited

/-- The value that a field of a class begins with. -/
inductive Initial where
  | builtin (constructor : String)
  | count
  | hasher
  | composer (weak strong : List String)
  | base (className : String)
  deriving DecidableEq, Repr

def Initial.phrase : Initial → Phrase
  | .builtin constructor => ["new ", .own constructor]
  | .count => ["0"]
  | .hasher => ["new KeyHasher"]
  | .composer weak strong =>
    ["new WeakKeyComposer([", .literals weak, "], [", .literals strong, "])"]
  | .base className => ["new ", .names [className]]

/-- A private field of a class. -/
structure Variable where
  name : String
  initial : Initial
  deriving DecidableEq, Repr

def Variable.stroke (field : Variable) : Stroke :=
  .line (field.initial.phrase.between (field.name ++ " = ") ";")

structure KeyPlan where
  keying : Keying
  all : List String
  weak : List String
  strong : List String
  deriving DecidableEq, Repr, Inhabited

namespace KeyPlan

/-- The name under which a method body holds the storage key. -/
def key (plan : KeyPlan) : Fragment :=
  match plan.keying with
  | .direct => .names (plan.all.take 1)
  | .hashed => .own "__hash__"
  | .composite => .own "__key__"

def helpers (plan : KeyPlan) : HelperUse :=
  match plan.keying with
  | .direct => {}
  | .hashed => { hasher := true }
  | .composite => { composer := true }

/-- The fields that the plan keeps its hasher or its composer in. -/
def fields (plan : KeyPlan) (hasherField : String) : List Variable :=
  match plan.keying with
  | .direct => []
  | .hashed => [{ name := hasherField, initial := .hasher }]
  | .composite => [{ name := "#keyComposer", initial := .composer plan.weak plan.strong }]

/-- The arguments of a composer, weak ones apart from strong ones. -/
def composed (plan : KeyPlan) : Phrase :=
  ["[", .names plan.weak, "], [", .names plan.strong, "]"]

/-- Finds the key of arguments that have been stored, and leaves through `missing` if there is
none. -/
def lookup (plan : KeyPlan) (hasherField missing : String) : List Stroke :=
  match plan.keying with
  | .direct => []
  | .hashed =>
    [.line ["const __hash__ = this.", .own hasherField, ".getHashIfExists(", .names plan.all, ");"],
      .line ["if (!__hash__) ", .own missing]]
  | .composite =>
    [.line (plan.composed.between "const __key__ = this.#keyComposer.getKeyIfExists(" ");"),
      .line ["if (!__key__) ", .own missing]]

/-- Finds the key of arguments, or makes one. -/
def require (plan : KeyPlan) (hasherField : String) : List Stroke :=
  match plan.keying with
  | .direct => []
  | .hashed =>
    [.line ["const __hash__ = this.", .own hasherField, ".getHash(", .names plan.all, ");"]]
  | .composite => [.line (plan.composed.between "const __key__ = this.#keyComposer.getKey(" ");")]

/-- Gives a composed key back once its entry is gone. -/
def forget (plan : KeyPlan) : List Stroke :=
  match plan.keying with
  | .composite => [.line (plan.composed.between "this.#keyComposer.deleteKey(" ");")]
  | .direct | .hashed => []

end KeyPlan

end CompositeKeys.Emission
