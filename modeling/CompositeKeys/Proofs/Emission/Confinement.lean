import CompositeKeys.Emission.Variant
import CompositeKeys.Proofs.Emission.Identifiers

/-! The names that the templates use for themselves. Almost all of them are in reserved form; here
are the others, template by template. -/

namespace CompositeKeys.Emission

def mapNames : List String := ["iterable", "undefined", "Object", "Error"]

def setNames : List String := ["iterable", "Object", "Error"]

def layeredNames : List String := mapNames ++ ["Array", "Boolean", "Map", "Set"]

def pairedNames : List String :=
  ["value_1", "value_2", "allowNotDefined", "undefined", "Object", "Error", "Boolean"]

/-- The names that a template uses although a key may have them. -/
def Template.exposedNames : Template → List String
  | .map .. => mapNames
  | .set .. => setNames
  | .mapOfSets .. => layeredNames
  | .paired => pairedNames

section Choices
variable {condition : Prop} [Decidable condition]

theorem forall_mem_ite {α : Type} {first second : List α} {holds : α → Prop} :
    (∀ item ∈ if condition then first else second, holds item) ↔
      if condition then ∀ item ∈ first, holds item else ∀ item ∈ second, holds item := by
  split <;> rfl

theorem confined_ite {allowed : List String} {first second : Stroke} :
    (if condition then first else second).Confined allowed ↔
      if condition then first.Confined allowed else second.Confined allowed := by
  split <;> rfl

theorem ite_of_both {first second : Prop} (one : first) (other : second) :
    if condition then first else second := by
  split
  · exact one
  · exact other

end Choices

-- A line is read piece by piece, and whatever a declaration puts between the pieces is passed over.
-- So each template has finitely many lines, and every one of them can be read. Literals are turned
-- into their letters first, because to evaluate them through their bytes takes long.

theorem keyedMap_confined (bindings : Bindings) (keying : Keying) (weak : Bool) :
    ∀ member ∈ (keyedMap bindings keying weak).members,
      member.Confined (valueName :: mapNames) := by
  have object : "Object" ∈ valueName :: mapNames := by decide
  unfold keyedMap
  cases keying <;>
    simp only [-String.reduceToList, -String.reduceAppend, confined_testing object,
      Member.confined_iff, confined_line, confined_opening, confined_close, forall_mem_ite,
      Member.method, Member.accessor, Member.generator, Member.iterator, Member.toStringTag,
      Head.joined, List.forall_mem_append, List.forall_mem_cons, List.not_mem_nil, false_imp_iff,
      implies_true, and_true, guard, refuse, KeyPlan.lookup, KeyPlan.require, KeyPlan.forget,
      KeyPlan.key, KeyPlan.ofMap, KeyPlan.composed, Phrase.between, List.cons_append,
      List.nil_append, List.append_assoc, List.map_cons, List.map_nil, Fragment.own?,
      String.toList_append, reduceCtorEq, if_false, if_true]
  all_goals
    repeat' first | apply And.intro | apply ite_of_both | exact trivial | apply reads_of_expected
  all_goals repeat rw [String.toList_ofList]
  all_goals decide +kernel

theorem keyedSet_confined (bindings : Bindings) (keying : Keying) (weak : Bool) :
    ∀ member ∈ (keyedSet bindings keying weak).members,
      member.Confined setNames := by
  have object : "Object" ∈ setNames := by decide
  unfold keyedSet
  cases keying <;>
    simp only [-String.reduceToList, -String.reduceAppend, confined_testing object,
      Member.confined_iff, confined_line, confined_opening, confined_close, forall_mem_ite,
      Member.method, Member.accessor, Member.generator, Member.iterator, Member.toStringTag,
      Head.joined, List.forall_mem_append, List.forall_mem_cons, List.not_mem_nil, false_imp_iff,
      implies_true, and_true, guard, refuse, KeyPlan.lookup, KeyPlan.require, KeyPlan.forget,
      KeyPlan.key, KeyPlan.ofSet, KeyPlan.composed, Phrase.between, List.cons_append,
      List.nil_append, List.append_assoc, List.map_cons, List.map_nil, Fragment.own?,
      String.toList_append, reduceCtorEq, if_false, if_true]
  all_goals
    repeat' first | apply And.intro | apply ite_of_both | exact trivial | apply reads_of_expected
  all_goals repeat rw [String.toList_ofList]
  all_goals decide +kernel

theorem mapOfSets_confined (bindings : Bindings) (outer : Keying) (weak : Bool) (inner : Keying) :
    ∀ member ∈ (mapOfSets bindings outer weak inner).members,
      member.Confined layeredNames := by
  have object : "Object" ∈ layeredNames := by decide
  have counted : ∀ count, Reads layeredNames [some "if (__set__.length !== ".toList,
      some (toString count).toList, some ")".toList] ↔ True :=
    fun count => iff_true_intro (reads_length count)
  unfold mapOfSets
  cases outer <;> cases inner <;>
    simp only [-String.reduceToList, -String.reduceAppend, confined_testing object,
      Member.confined_iff, confined_line, confined_opening, confined_close, confined_ite, counted,
      forall_mem_ite, Member.method, Member.accessor, Member.generator, Member.iterator,
      Member.toStringTag, Member.hidden, Head.joined, List.forall_mem_append,
      List.forall_mem_cons, List.not_mem_nil, false_imp_iff, implies_true, and_true, guard, refuse,
      countAdded, KeyPlan.lookup, KeyPlan.require, KeyPlan.forget, KeyPlan.key,
      KeyPlan.ofMappingKeys, KeyPlan.ofElements, KeyPlan.composed, Phrase.between,
      List.cons_append, List.nil_append, List.append_assoc, List.map_cons, List.map_nil,
      Fragment.own?, String.toList_append, reduceCtorEq, if_false, if_true]
  all_goals
    repeat' first | apply And.intro | apply ite_of_both | exact trivial | apply reads_of_expected
  all_goals repeat rw [String.toList_ofList]
  all_goals decide +kernel

theorem pairedMap_confined (className : String) (pairing : PairingBindings) :
    ∀ member ∈ (pairedMap className pairing).members,
      member.Confined (valueName :: pairedNames) := by
  have object : "Object" ∈ valueName :: pairedNames := by decide
  unfold pairedMap
  simp only [-String.reduceToList, -String.reduceAppend, confined_testing object, singleMembers,
    doubleMembers, lookupPair, lookupIdentity, checkValues, alreadyBound, List.flatMap_cons,
    List.flatMap_nil, List.append_nil, Member.confined_iff, confined_line, confined_blank,
    forall_mem_ite, Member.method, Member.toStringTag, Head.joined, List.forall_mem_append,
    List.forall_mem_cons, List.not_mem_nil, false_imp_iff, implies_true, and_true, guard, refuse,
    Phrase.between, List.cons_append, List.nil_append, List.append_assoc, List.map_cons,
    List.map_nil, Fragment.own?, String.toList_append]
  repeat' first | apply And.intro | apply ite_of_both | exact trivial | apply reads_of_expected
  all_goals repeat rw [String.toList_ofList]
  all_goals decide +kernel

end CompositeKeys.Emission
