import Mathlib.Data.List.Nodup
import CompositeKeys.Emission.Variant
import CompositeKeys.Proofs.Collection.Naming

/-! The parameters of members. A template puts parameters of its own beside those it takes from a
declaration; most of its own are in reserved form, which no declared name has. -/

namespace CompositeKeys

/-- Names of keys, told apart from each other and from all names in reserved form. -/
structure KeyNames (names : List String) : Prop where
  distinct : names.Nodup
  legal : ∀ name ∈ names, LegalName name

namespace KeyNames
variable {names part : List String}

theorem sublist (keys : KeyNames names) (sub : part.Sublist names) : KeyNames part :=
  ⟨keys.distinct.sublist sub, fun name among => keys.legal name (sub.subset among)⟩

theorem unreserved (keys : KeyNames names) (reserved : String)
    (form : isReservedName reserved.toList = true) : ∀ name ∈ names, name ≠ reserved := by
  rintro name among rfl
  exact (keys.legal name among).unreserved (isReservedName_iff.mp form).1

end KeyNames

namespace Emission

/-- The parameters that a member takes from a declaration. -/
def Head.declaredNames (head : Head) : List String :=
  head.parameters.flatMap fun
    | .own _ => []
    | .names declared | .literals declared => declared

/-- The parameters of a member are distinct, and those from a declaration are among some names. -/
def Head.Tells (names : List String) (head : Head) : Prop :=
  head.parameterNames.Nodup ∧ ∀ name ∈ head.declaredNames, name ∈ names

section Templates
variable {bindings : Bindings}

theorem keyedMap_heads (keying : Keying) (weak : Bool) (keys : KeyNames bindings.arguments)
    (unvalued : valueName ∉ bindings.arguments) :
    ∀ member ∈ (keyedMap bindings keying weak).members, member.head.Tells bindings.arguments := by
  have value : ∀ name ∈ bindings.arguments, name ≠ "value" := by
    rintro name among rfl
    exact unvalued among
  have getter := keys.unreserved "__defaultGetter__" (by decide +kernel)
  unfold keyedMap
  cases weak <;>
    simp +contextual [Head.Tells, Head.parameterNames, Head.declaredNames, Member.method,
      Member.accessor, Member.generator, Member.iterator, Member.toStringTag, List.nodup_append,
      keys.distinct, getter, value]

theorem keyedSet_heads (keying : Keying) (weak : Bool) (keys : KeyNames bindings.arguments) :
    ∀ member ∈ (keyedSet bindings keying weak).members, member.head.Tells bindings.arguments := by
  unfold keyedSet
  cases weak <;>
    simp [Head.Tells, Head.parameterNames, Head.declaredNames, Member.method, Member.accessor,
      Member.generator, Member.iterator, Member.toStringTag, keys.distinct]

theorem mapOfSets_heads (outer : Keying) (weak : Bool) (inner : Keying)
    (keys : KeyNames bindings.arguments) (mapKeys : bindings.mapKeys.Sublist bindings.arguments)
    (elements : bindings.setElements.Sublist bindings.arguments) :
    ∀ member ∈ (mapOfSets bindings outer weak inner).members,
      member.head.Tells bindings.arguments := by
  have mapped : ∀ name ∈ bindings.mapKeys, name ∈ bindings.arguments := mapKeys.subset
  have held : ∀ name ∈ bindings.setElements, name ∈ bindings.arguments := elements.subset
  have unreserved : ∀ name ∈ bindings.arguments,
      name ≠ "__sets__" ∧ name ≠ "__callback__" ∧ name ≠ "__thisArg__" ∧ name ≠ "__inner__" := by
    intro name among
    refine ⟨?_, ?_, ?_, ?_⟩ <;> exact keys.unreserved _ (by decide +kernel) name among
  have inner : "__inner__" ∉ bindings.setElements :=
    fun among => (unreserved _ (held _ among)).2.2.2 rfl
  unfold mapOfSets
  cases weak <;>
    simp +contextual [Head.Tells, Head.parameterNames, Head.declaredNames, Member.method,
      Member.accessor, Member.generator, Member.iterator, Member.toStringTag, Member.hidden,
      List.nodup_append, keys.distinct, keys.distinct.sublist mapKeys,
      keys.distinct.sublist elements, mapped, held, unreserved, inner]

end Templates

section Partners
variable {names : List String} {pairing : PairingBindings}

/-- A mark keeps names apart, and so do two marks. -/
theorem nodup_partners (distinct : names.Nodup) :
    (suffixed names "_1" ++ suffixed names "_2").Nodup := by
  have marked : ∀ mark, (suffixed names mark).Nodup := by
    intro mark
    exact distinct.map fun first second same => (String.append_left_inj mark).mp same
  refine List.nodup_append.mpr ⟨marked "_1", marked "_2", ?_⟩
  intro first among second other same
  obtain ⟨one, -, rfl⟩ := List.mem_map.mp among
  obtain ⟨two, -, rfl⟩ := List.mem_map.mp other
  have letters := congrArg (fun name => name.toList.getLast?) same
  simp at letters

/-- The parameters that bind two partners: the further keys and the value of each, with the mark of that
partner. -/
theorem nodup_bound (distinct : names.Nodup) (unvalued : valueName ∉ names) :
    (suffixed names "_1" ++ "value_1" :: (suffixed names "_2" ++ ["value_2"])).Nodup := by
  have valued : (names ++ ["value"]).Nodup := by
    rw [List.nodup_append_comm]
    exact List.nodup_cons.mpr ⟨unvalued, distinct⟩
  simpa [suffixed] using nodup_partners valued

/-- The last parameter of one member has an open name. All other parameters are distinct. -/
theorem pairedMap_distinct_iff (className : String) (keys : KeyNames pairing.sources)
    (unvalued : valueName ∉ pairing.sources) :
    (∀ member ∈ (pairedMap className pairing).members, member.head.parameterNames.Nodup) ↔
      "allowNotDefined" ∉ pairing.sources := by
  have ended : ∀ name, (pairing.sources ++ [name]).Nodup ↔ name ∉ pairing.sources := by
    intro name
    rw [List.nodup_append_comm]
    simp [keys.distinct]
  have partners := nodup_bound keys.distinct unvalued
  have value : "value" ∉ pairing.sources := unvalued
  cases single : pairing.isSingle with
  | true =>
    have none : pairing.sources = [] := List.isEmpty_iff.mp single
    simp [pairedMap, single, singleMembers, Head.parameterNames, Member.method,
      Member.toStringTag, none]
  | false =>
    simp [pairedMap, single, doubleMembers, Head.parameterNames, Member.method,
      Member.toStringTag, keys.distinct, partners, value, ended]

/-- What a paired collection declares are the further keys of its base, also with a mark. -/
theorem pairedMap_declared (className : String) :
    ∀ member ∈ (pairedMap className pairing).members, ∀ name ∈ member.head.declaredNames,
      name ∈ pairing.sources ∨ ∃ mark ∈ ["_1", "_2"], name ∈ suffixed pairing.sources mark := by
  cases single : pairing.isSingle with
  | true =>
    simp [pairedMap, single, singleMembers, Head.declaredNames, Member.method, Member.toStringTag]
  | false =>
    simp +contextual [pairedMap, single, doubleMembers, Head.declaredNames, Member.method,
      Member.toStringTag]

end Partners

end Emission

end CompositeKeys
