import CompositeKeys.Emission.Variant

/-! What a class keeps its entries in. A weak container of the language is made in one place only, in
the field of a weak template that holds the entries; the sets under mapping keys are never weak. -/

namespace CompositeKeys.Emission

/-- What a line says of a container that holds its keys weakly. -/
def weakContainers : List String := ["WeakMap", "WeakSet", "new WeakMap", "new WeakSet"]

def Fragment.isWeak : Fragment → Bool
  | .own text => weakContainers.contains text
  | .names _ | .literals _ => false

def Stroke.isWeak : Stroke → Bool
  | .line phrase | .opening phrase => phrase.any Fragment.isWeak
  | .passage _ | .closing _ | .page _ => false

def Member.isWeak (member : Member) : Bool := member.body.any Stroke.isWeak

def Variable.isWeak (field : Variable) : Bool := field.stroke.isWeak

/-- Whether a class makes a weak container, in a field or in the body of a member. -/
def ClassOutline.holdsWeakly (outline : ClassOutline) : Bool :=
  outline.fields.any Variable.isWeak || outline.members.any Member.isWeak

section Strokes

variable (text check hasherField missing : String) (names : List String) (phrase arguments : Phrase)

@[simp] theorem isWeak_own : Fragment.isWeak (.own text) = weakContainers.contains text := rfl

@[simp] theorem isWeak_names : Fragment.isWeak (.names names) = false := rfl

@[simp] theorem isWeak_line : Stroke.isWeak (.line phrase) = phrase.any Fragment.isWeak := rfl

@[simp] theorem isWeak_opening : Stroke.isWeak (.opening phrase) = phrase.any Fragment.isWeak := rfl

@[simp] theorem isWeak_close : Stroke.isWeak .close = false := rfl

@[simp] theorem isWeak_key (plan : KeyPlan) : plan.key.isWeak = false := by
  unfold KeyPlan.key
  cases plan.keying <;> rfl

-- A choice makes no weak container if neither alternative does.

@[simp] theorem strokes_ite_isWeak (condition : Prop) [Decidable condition]
    (first second : List Stroke) :
    (if condition then first else second).any Stroke.isWeak = false ↔
      (condition → first.any Stroke.isWeak = false) ∧
        (¬ condition → second.any Stroke.isWeak = false) := by
  split <;> simp [*]

@[simp] theorem members_ite_isWeak (condition : Prop) [Decidable condition]
    (first second : List Member) :
    (if condition then first else second).any Member.isWeak = false ↔
      (condition → first.any Member.isWeak = false) ∧
        (¬ condition → second.any Member.isWeak = false) := by
  split <;> simp [*]

@[simp] theorem guard_isWeak (guarded : Bool) :
    (guard guarded check arguments missing).any Stroke.isWeak = false ↔
      (guarded = true → Stroke.isWeak
        (.line (arguments.between ("if (!this." ++ check ++ "(") (")) " ++ missing))) = false) := by
  cases guarded <;> simp [guard]

@[simp] theorem refuse_isWeak (guarded : Bool) :
    (refuse guarded check arguments missing).any Stroke.isWeak = false ↔
      (guarded = true → Stroke.isWeak
          (.line (arguments.between ("if (!this." ++ check ++ "(") "))")) = false ∧
        weakContainers.contains missing = false) := by
  cases guarded <;> simp [refuse, weakContainers]

@[simp] theorem testing_isWeak (checks : String) :
    (testing checks).any Stroke.isWeak = false := rfl

variable (plan : KeyPlan)

@[simp] theorem lookup_isWeak (field : weakContainers.contains hasherField = false)
    (other : weakContainers.contains missing = false) :
    (plan.lookup hasherField missing).any Stroke.isWeak = false := by
  unfold KeyPlan.lookup
  cases plan.keying <;> simp_all [weakContainers, KeyPlan.composed, Phrase.between]

@[simp] theorem require_isWeak (field : weakContainers.contains hasherField = false) :
    (plan.require hasherField).any Stroke.isWeak = false := by
  unfold KeyPlan.require
  cases plan.keying <;> simp_all [weakContainers, KeyPlan.composed, Phrase.between]

@[simp] theorem forget_isWeak : plan.forget.any Stroke.isWeak = false := by
  unfold KeyPlan.forget
  cases plan.keying <;> rfl

end Strokes

@[simp] theorem repr_not_weak (number : Nat) : number.repr ∉ weakContainers := by
  have digits : ∀ letter ∈ number.repr.toList, letter.isDigit = true := by
    intro letter member
    rw [Nat.toList_repr] at member
    exact Nat.isDigit_of_mem_toDigits (by decide) (by decide) member
  intro weak
  have letters : ∀ text ∈ weakContainers, 'W' ∈ text.toList := by decide
  exact absurd (digits 'W' (letters _ weak)) (by decide)

-- No member of a template makes a weak container, whatever is declared.

theorem keyedMap_members_strong (bindings : Bindings) (keying : Keying) (weak : Bool) :
    (keyedMap bindings keying weak).members.any Member.isWeak = false := by
  simp [-List.any_eq_false, keyedMap, Member.isWeak, Member.method, Member.accessor,
    Member.generator, Member.iterator, Member.toStringTag, weakContainers, Phrase.between,
    invalidKey, invalidValue]

theorem keyedSet_members_strong (bindings : Bindings) (keying : Keying) (weak : Bool) :
    (keyedSet bindings keying weak).members.any Member.isWeak = false := by
  simp [-List.any_eq_false, keyedSet, Member.isWeak, Member.method, Member.accessor,
    Member.generator, Member.iterator, Member.toStringTag, weakContainers, Phrase.between,
    invalidKey]

theorem mapOfSets_members_strong (bindings : Bindings) (outer : Keying) (weak : Bool)
    (inner : Keying) :
    (mapOfSets bindings outer weak inner).members.any Member.isWeak = false := by
  have counted := repr_not_weak bindings.setElements.length
  simp only [weakContainers, List.mem_cons, List.not_mem_nil, or_false, not_or] at counted
  cases weak <;> by_cases hashed : inner = .hashed <;>
    simp [-List.any_eq_false, mapOfSets, Member.isWeak, Member.method, Member.accessor,
      Member.generator, Member.iterator, Member.toStringTag, Member.hidden, countAdded,
      weakContainers, Phrase.between, invalidKey, counted, hashed]

section Fields

variable {name : String} (named : weakContainers.contains (name ++ " = ") = false)
include named

@[simp] theorem Variable.isWeak_builtin (constructor : String) :
    Variable.isWeak { name, initial := .builtin constructor } = weakContainers.contains constructor := by
  simp_all [Variable.isWeak, Variable.stroke, Initial.phrase, Phrase.between, weakContainers]

@[simp] theorem Variable.isWeak_count : Variable.isWeak { name, initial := .count } = false := by
  simp_all [Variable.isWeak, Variable.stroke, Initial.phrase, Phrase.between, weakContainers]

@[simp] theorem KeyPlan.fields_isWeak (plan : KeyPlan) :
    (plan.fields name).any Variable.isWeak = false := by
  unfold KeyPlan.fields
  cases plan.keying <;>
    simp_all [Variable.isWeak, Variable.stroke, Initial.phrase, Phrase.between, weakContainers,
      Fragment.isWeak]

end Fields

theorem keyedMap_holdsWeakly (bindings : Bindings) (keying : Keying) (weak : Bool) :
    (keyedMap bindings keying weak).holdsWeakly = weak := by
  unfold ClassOutline.holdsWeakly
  rw [keyedMap_members_strong]
  cases weak <;> simp [-List.any_eq_false, keyedMap, weakContainers]

/-- A hash would be kept in an ordinary map even by a weak set. -/
theorem keyedSet_holdsWeakly (bindings : Bindings) (keying : Keying) (weak : Bool) :
    (keyedSet bindings keying weak).holdsWeakly = (weak && keying ≠ .hashed) := by
  unfold ClassOutline.holdsWeakly
  rw [keyedSet_members_strong]
  cases weak <;> cases keying <;> simp [-List.any_eq_false, keyedSet, weakContainers]

theorem mapOfSets_holdsWeakly (bindings : Bindings) (outer : Keying) (weak : Bool)
    (inner : Keying) : (mapOfSets bindings outer weak inner).holdsWeakly = weak := by
  unfold ClassOutline.holdsWeakly
  rw [mapOfSets_members_strong]
  cases weak <;> simp [-List.any_eq_false, mapOfSets, weakContainers]

end CompositeKeys.Emission
