import CompositeKeys.Proofs.Collection.Declared
import CompositeKeys.Proofs.Emission.Selection
import CompositeKeys.Proofs.Emission.Storage

/-! Key plans that leave no key out. A collection has one side of keys, and a map of sets has two.
Whichever template is selected, the plan of each side makes a storage key of all the keys of that
side, and the storage holds it weakly only where a key is weak. -/

namespace CompositeKeys

namespace Declaration

section Partition

variable {own : Declaration} (consistent : own.Consistent)
include consistent

private theorem partition_names (role : Role) (kind held : Role → Bool)
    (only : ∀ other, decide (other = role) = (held other && kind other)) :
    own.partition.names role = ((own.dimensions.filter fun dimension => kind dimension.role).filter
      fun dimension => held dimension.role).map Dimension.name := by
  rw [consistent.partitioned, List.filter_filter]
  simp only [only]

theorem weakMapKeys_eq : own.partition.weakMapKeys =
    (own.mapKeys.filter fun key => key.role.isWeak).map Dimension.name :=
  partition_names consistent (.mapKey .weak) Role.isMapKey Role.isWeak
    (by rintro ((_ | _) | (_ | _) | _) <;> rfl)

theorem strongMapKeys_eq : own.partition.strongMapKeys =
    (own.mapKeys.filter fun key => !key.role.isWeak).map Dimension.name :=
  partition_names consistent (.mapKey .strong) Role.isMapKey (fun role => !role.isWeak)
    (by rintro ((_ | _) | (_ | _) | _) <;> rfl)

theorem weakSetElements_eq : own.partition.weakSetElements =
    (own.setElements.filter fun element => element.role.isWeak).map Dimension.name :=
  partition_names consistent (.setElement .weak) Role.isSetElement Role.isWeak
    (by rintro ((_ | _) | (_ | _) | _) <;> rfl)

theorem strongSetElements_eq : own.partition.strongSetElements =
    (own.setElements.filter fun element => !element.role.isWeak).map Dimension.name :=
  partition_names consistent (.setElement .strong) Role.isSetElement (fun role => !role.isWeak)
    (by rintro ((_ | _) | (_ | _) | _) <;> rfl)

end Partition

/-- The names of weak keys and those of the other keys are all names. -/
theorem weak_strong_perm (keys : List Dimension) :
    ((keys.filter fun key => key.role.isWeak).map Dimension.name ++
      (keys.filter fun key => !key.role.isWeak).map Dimension.name).Perm
    (keys.map Dimension.name) := by
  rw [← List.map_append]
  exact (List.filter_append_perm _ keys).map Dimension.name

end Declaration

namespace Emission

/-- The keys under which something is stored, and whether the storage holds them weakly. -/
structure Side where
  keys : List Dimension
  isWeak : Bool
  deriving DecidableEq, Repr

def Side.names (side : Side) : List String := side.keys.map Dimension.name

/-- The sides of a collection: set elements are stored apart from mapping keys, and never weakly. -/
def sidesOf (own : Declaration) : List Side :=
  if own.family.isMapOfSets then
    [{ keys := own.mapKeys, isWeak := own.family.isWeak },
      { keys := own.setElements, isWeak := false }]
  else [{ keys := own.dimensions, isWeak := own.family.isWeak }]

def Fragment.arguments : Fragment → List String
  | .names declared => declared
  | .own _ | .literals _ => []

def Stroke.arguments : Stroke → List String
  | .line phrase => phrase.flatMap Fragment.arguments
  | .passage _ | .opening _ | .closing _ | .page _ => []

/-- The plain way of making storage keys, for keys that are held weakly or not. -/
def keyingFor (isWeak : Bool) : Keying := if isWeak then .composite else .hashed

theorem keyingOf_retention (extent : Extent) :
    keyingOf extent.retention = keyingFor extent.isWeak := by
  unfold Extent.retention keyingFor
  cases extent.isWeak <;> rfl

/-- A lone key may be used directly, and else it matters only how the side is held. -/
def Side.Admits (side : Side) (keying : Keying) : Prop :=
  keying = .direct ∧ side.keys.length = 1 ∨ keying = keyingFor side.isWeak

theorem Side.admits_ite (side : Side) {isLone : Bool}
    (lone : isLone = true → side.keys.length = 1) :
    side.Admits (if isLone then .direct else keyingFor side.isWeak) := by
  cases isLone with
  | true => exact .inl ⟨rfl, lone rfl⟩
  | false => exact .inr rfl

theorem sidesOf_single {own : Declaration} (single : own.family.isMapOfSets = false) :
    sidesOf own = [{ keys := own.dimensions, isWeak := own.family.isWeak }] := by
  simp [sidesOf, single]

theorem sidesOf_layered {own : Declaration} (layers : own.family.isMapOfSets = true) :
    sidesOf own = [{ keys := own.mapKeys, isWeak := own.family.isWeak },
      { keys := own.setElements, isWeak := false }] := by
  simp [sidesOf, layers]

namespace KeyPlan

/-- A plan over exactly the keys of a side, told apart by how they are held. -/
structure Lists (plan : KeyPlan) (side : Side) : Prop where
  all : plan.all = side.names
  weak : plan.weak = (side.keys.filter fun key => key.role.isWeak).map Dimension.name
  strong : plan.strong = (side.keys.filter fun key => !key.role.isWeak).map Dimension.name

/-- A plan whose way of making a storage key suits the keys of the side: the one key as it is, held
as it asks to be; a composed key of all weak and strong ones; or a hash where no key is weak. -/
structure Suits (plan : KeyPlan) (side : Side) : Prop extends Lists plan side where
  direct : plan.keying = .direct → ∃ key, side.keys = [key] ∧ side.isWeak = key.role.isWeak
  composite : plan.keying = .composite →
    side.isWeak = true ∧ plan.weak ≠ [] ∧ (plan.weak ++ plan.strong).Perm plan.all
  hashed : plan.keying = .hashed →
    side.isWeak = false ∧ plan.weak = [] ∧ ∀ key ∈ side.keys, key.role.isWeak = false

/-- The arguments that a storage key is made of when one is required. -/
def required (plan : KeyPlan) (hasherField : String) : List String :=
  (plan.require hasherField).flatMap Stroke.arguments ++ plan.key.arguments

/-- The arguments by which a storage key is looked up. -/
def found (plan : KeyPlan) (hasherField missing : String) : List String :=
  (plan.lookup hasherField missing).flatMap Stroke.arguments ++ plan.key.arguments

theorem Suits.required_perm {plan : KeyPlan} {side : Side} (suits : plan.Suits side)
    (hasherField : String) : (plan.required hasherField).Perm side.names := by
  rw [← suits.all]
  unfold required require key
  cases keying : plan.keying with
  | direct =>
    obtain ⟨key, single, _⟩ := suits.direct keying
    simp [Fragment.arguments, suits.all, Side.names, single]
  | hashed => simp [Fragment.arguments, Stroke.arguments]
  | composite =>
    simpa [Fragment.arguments, Stroke.arguments, composed, Phrase.between] using
      (suits.composite keying).2.2

theorem found_eq_required (plan : KeyPlan) (hasherField missing : String) :
    plan.found hasherField missing = plan.required hasherField := by
  unfold found required require lookup
  cases plan.keying <;> simp [Stroke.arguments, Fragment.arguments, composed, Phrase.between]

/-- A plan suits its side when it lists its keys in a way that the side admits. -/
theorem Lists.suits {plan : KeyPlan} {side : Side} (lists : plan.Lists side)
    (keying : side.Admits plan.keying)
    (held : side.isWeak = true ↔ ∃ key ∈ side.keys, key.role.isWeak = true) :
    plan.Suits side := by
  have strong : side.isWeak = false → ∀ key ∈ side.keys, key.role.isWeak = false := by
    intro kept key member
    refine Bool.eq_false_iff.mpr fun weak => ?_
    cases kept.symm.trans (held.mpr ⟨key, member, weak⟩)
  refine { lists with direct := ?_, composite := ?_, hashed := ?_ }
  · intro direct
    rcases keying with ⟨_, single⟩ | other
    · obtain ⟨key, same⟩ := List.length_eq_one_iff.mp single
      refine ⟨key, same, Bool.eq_iff_iff.mpr ?_⟩
      simpa only [same, List.mem_singleton, exists_eq_left] using held
    · cases weak : side.isWeak <;> simp [direct, weak, keyingFor] at other
  · intro composite
    have weak : side.isWeak = true := by
      rcases keying with ⟨direct, _⟩ | other
      · simp [direct] at composite
      · cases kept : side.isWeak <;> simp [composite, kept, keyingFor] at other ⊢
    obtain ⟨key, member, isWeak⟩ := held.mp weak
    refine ⟨weak, ?_, ?_⟩
    · have listed : key.name ∈ plan.weak := by
        rw [lists.weak]
        exact List.mem_map_of_mem (List.mem_filter.mpr ⟨member, isWeak⟩)
      exact List.ne_nil_of_mem listed
    · rw [lists.weak, lists.strong, lists.all]
      exact Declaration.weak_strong_perm side.keys
  · intro hashed
    have kept : side.isWeak = false := by
      rcases keying with ⟨direct, _⟩ | other
      · simp [direct] at hashed
      · cases weak : side.isWeak <;> simp [hashed, weak, keyingFor] at other ⊢
    refine ⟨kept, ?_, strong kept⟩
    simpa [lists.weak] using strong kept

end KeyPlan

/-- Whether a member of the class asks for the storage key of a plan and goes on to use it; a hash is
used under its own name. -/
def ClassOutline.StoresUnder (outline : ClassOutline) (plan : KeyPlan) : Prop :=
  ∃ member ∈ outline.members, ∃ hasherField before after,
    member.body = before ++ plan.require hasherField ++ after ∧
      (plan.keying ≠ .hashed → ∃ phrase, .line phrase ∈ after ∧ plan.key ∈ phrase)

theorem keyedMap_storesUnder (bindings : Bindings) (keying : Keying) (weak : Bool) :
    (keyedMap bindings keying weak).StoresUnder (.ofMap bindings keying) := by
  refine ⟨_, List.mem_append_left _ (List.mem_append_left _ (List.mem_append_right _ (.head _))),
    "#hasher", _, _, List.append_assoc .., ?_⟩
  intro other
  rw [if_neg (show keying ≠ .hashed from other)]
  exact ⟨_, .head _, .tail _ (.head _)⟩

theorem keyedSet_storesUnder (bindings : Bindings) (keying : Keying) (weak : Bool) :
    (keyedSet bindings keying weak).StoresUnder (.ofSet bindings keying) := by
  refine ⟨_, List.mem_append_left _ (List.mem_append_left _ (List.mem_append_left _
    (List.mem_append_left _ (List.mem_append_left _ (List.mem_append_left _
      (List.mem_append_right _ (.head _))))))), "#hasher", _, _, List.append_assoc .., ?_⟩
  intro other
  rw [if_neg (show keying ≠ .hashed from other)]
  exact ⟨_, .head _, .tail _ (.head _)⟩

section MapOfSets

variable (bindings : Bindings) (outer : Keying) (weak : Bool) (inner : Keying)

theorem mapOfSets_storesUnder_mappingKeys :
    (mapOfSets bindings outer weak inner).StoresUnder (.ofMappingKeys bindings outer) := by
  refine ⟨_, List.mem_append_right _ (.tail _ (.tail _ (.head _))), "#mapHasher", [], _, rfl, ?_⟩
  exact fun _ => ⟨_, .head _, .tail _ (.head _)⟩

theorem mapOfSets_storesUnder_elements :
    (mapOfSets bindings outer weak inner).StoresUnder (.ofElements bindings inner) := by
  refine ⟨_, List.mem_append_right _ (.tail _ (.tail _ (.tail _ (.tail _ (.head _))))),
    "#setHasher", [], _, rfl, ?_⟩
  exact fun _ => ⟨_, .head _, .tail _ (.head _)⟩

end MapOfSets

section Plans

variable {own : Declaration} (formed : own.WellFormed)
include formed

/-- A weak collection is one that has a weak key. -/
theorem isWeak_iff_weak_key :
    own.family.isWeak = true ↔ ∃ key ∈ own.dimensions, key.role.isWeak = true := by
  constructor
  · intro weak
    obtain ⟨key, member, role⟩ := formed.weak weak
    refine ⟨key, member, ?_⟩
    rw [role]
    unfold Family.weakRole
    split <;> rfl
  · rintro ⟨key, member, weak⟩
    refine Bool.of_not_eq_false fun strong => ?_
    cases weak.symm.trans (formed.strong strong key member)

theorem elements_strong (layers : own.family.isMapOfSets = true) :
    ∀ element ∈ own.setElements, element.role.isWeak = false := by
  obtain ⟨keys, elements, same, _, _, mapped, strong⟩ := formed.layered layers
  intro element member
  obtain ⟨declared, isElement⟩ := List.mem_filter.mp member
  rw [same] at declared
  rcases List.mem_append.mp declared with key | late
  · have isKey := mapped element key
    cases role : element.role <;> simp [role, Role.isMapKey, Role.isSetElement] at isKey isElement
  · rw [strong element late]
    rfl

theorem isWeak_iff_weak_mapKey (layers : own.family.isMapOfSets = true) :
    own.family.isWeak = true ↔ ∃ key ∈ own.mapKeys, key.role.isWeak = true := by
  rw [isWeak_iff_weak_key formed]
  constructor
  · rintro ⟨key, member, weak⟩
    refine ⟨key, List.mem_filter.mpr ⟨member, ?_⟩, weak⟩
    refine Bool.of_not_eq_false fun other => ?_
    have element : key.role.isSetElement = true := by
      cases role : key.role <;> simp_all [Role.isMapKey, Role.isSetElement, Role.isWeak]
    cases weak.symm.trans
      (elements_strong formed layers key (List.mem_filter.mpr ⟨member, element⟩))
  · rintro ⟨key, member, weak⟩
    exact ⟨key, (List.mem_filter.mp member).1, weak⟩

theorem Extents.of?_some {extents : Extents} (counted : Extents.of? own = some extents) :
    (extents.mapKeys.isOne = true → own.mapKeys.length = 1) ∧
      (extents.elements.isOne = true → own.setElements.length = 1) ∧
      (extents.mapKeys.isWeak = true ↔ ∃ key ∈ own.mapKeys, key.role.isWeak = true) := by
  have consistent := formed.toConsistent
  have keyCount := (Declaration.weak_strong_perm own.mapKeys).length_eq
  have elementCount := (Declaration.weak_strong_perm own.setElements).length_eq
  rw [← Declaration.weakMapKeys_eq consistent, ← Declaration.strongMapKeys_eq consistent,
    List.length_append, List.length_map] at keyCount
  rw [← Declaration.weakSetElements_eq consistent, ← Declaration.strongSetElements_eq consistent,
    List.length_append, List.length_map] at elementCount
  unfold Extents.of? at counted
  dsimp only at counted
  split at counted
  · cases counted
  · cases counted
    refine ⟨fun one => ?_, fun one => ?_, ?_⟩
    · exact keyCount.symm.trans (of_decide_eq_true one)
    · exact elementCount.symm.trans (of_decide_eq_true one)
    · simp [Declaration.weakMapKeys_eq consistent]

end Plans

/-- The class that a template outlines for a declaration holds keys weakly exactly if the family is
weak, and then in a field, not in the sets that its members make. Side by side, its plans suit the
keys of the declaration, and it stores under each of them. -/
structure Template.KeepsKeys (template : Template) (bindings : Bindings) (own : Declaration)
    (outline : ClassOutline) : Prop where
  outlined : template.outline bindings = .ok outline
  weakly : outline.holdsWeakly = own.family.isWeak
  members : outline.members.any Member.isWeak = false
  sides : (template.plans bindings).length = (sidesOf own).length
  suited : ∀ pair ∈ (template.plans bindings).zip (sidesOf own),
    pair.1.Suits pair.2 ∧ outline.StoresUnder pair.1

section Keeps

variable {own : Declaration} {bindings : Bindings} {keying : Keying} (formed : own.WellFormed)
  (bound : Bindings.ofConfiguration (.plain own) = .ok bindings)
include formed bound

theorem keyedMap_keepsKeys (map : own.family.isMap = true)
    (keyed : Side.Admits { keys := own.dimensions, isWeak := own.family.isWeak } keying) :
    (Template.map keying own.family.isWeak).KeepsKeys bindings own
      (keyedMap bindings keying own.family.isWeak) := by
  have single := sidesOf_single (Family.of_isMap map).2.1
  have consistent := formed.toConsistent
  have keys : own.mapKeys = own.dimensions := List.filter_eq_self.mpr (formed.mapKeys map).2
  obtain ⟨arguments, _, _, partition⟩ := Bindings.ofConfiguration_ok bound
  refine ⟨rfl, keyedMap_holdsWeakly .., keyedMap_members_strong ..,
    by simp [single, Template.plans], ?_⟩
  simp only [single, Template.plans, List.zip_cons_cons, List.zip_nil_right, List.mem_singleton,
    forall_eq]
  refine ⟨KeyPlan.Lists.suits ⟨arguments, ?_, ?_⟩ keyed (isWeak_iff_weak_key formed),
    keyedMap_storesUnder ..⟩
  · simp only [KeyPlan.ofMap, partition]
    exact keys ▸ Declaration.weakMapKeys_eq consistent
  · simp only [KeyPlan.ofMap, partition]
    exact keys ▸ Declaration.strongMapKeys_eq consistent

theorem keyedSet_keepsKeys (set : own.family.isSet = true)
    (keyed : Side.Admits { keys := own.dimensions, isWeak := own.family.isWeak } keying) :
    (Template.set keying own.family.isWeak).KeepsKeys bindings own
      (keyedSet bindings keying own.family.isWeak) := by
  have single := sidesOf_single (Family.of_isSet set).2.1
  have consistent := formed.toConsistent
  have keys : own.setElements = own.dimensions :=
    List.filter_eq_self.mpr (formed.setElements set).2
  have weakly : (keyedSet bindings keying own.family.isWeak).holdsWeakly = own.family.isWeak := by
    rw [keyedSet_holdsWeakly]
    rcases keyed with ⟨rfl, _⟩ | rfl <;> cases own.family.isWeak <;> rfl
  obtain ⟨arguments, _, _, partition⟩ := Bindings.ofConfiguration_ok bound
  refine ⟨rfl, weakly, keyedSet_members_strong .., by simp [single, Template.plans], ?_⟩
  simp only [single, Template.plans, List.zip_cons_cons, List.zip_nil_right, List.mem_singleton,
    forall_eq]
  refine ⟨KeyPlan.Lists.suits ⟨arguments, ?_, ?_⟩ keyed (isWeak_iff_weak_key formed),
    keyedSet_storesUnder ..⟩
  · simp only [KeyPlan.ofSet, partition]
    exact keys ▸ Declaration.weakSetElements_eq consistent
  · simp only [KeyPlan.ofSet, partition]
    exact keys ▸ Declaration.strongSetElements_eq consistent

theorem mapOfSets_keepsKeys {inner : Keying} (layers : own.family.isMapOfSets = true)
    (outerKeyed : Side.Admits { keys := own.mapKeys, isWeak := own.family.isWeak } keying)
    (innerKeyed : Side.Admits { keys := own.setElements, isWeak := false } inner) :
    (Template.mapOfSets keying own.family.isWeak inner).KeepsKeys bindings own
      (mapOfSets bindings keying own.family.isWeak inner) := by
  have both := sidesOf_layered layers
  have consistent := formed.toConsistent
  have strong := elements_strong formed layers
  obtain ⟨_, mapKeys, setElements, partition⟩ := Bindings.ofConfiguration_ok bound
  refine ⟨rfl, mapOfSets_holdsWeakly .., mapOfSets_members_strong ..,
    by simp [both, Template.plans], ?_⟩
  simp only [both, Template.plans, List.zip_cons_cons, List.zip_nil_right, List.mem_cons,
    List.not_mem_nil, or_false, forall_eq_or_imp, forall_eq]
  refine ⟨⟨KeyPlan.Lists.suits ⟨mapKeys, ?_, ?_⟩ outerKeyed (isWeak_iff_weak_mapKey formed layers),
    mapOfSets_storesUnder_mappingKeys ..⟩, KeyPlan.Lists.suits ⟨setElements, ?_, ?_⟩ innerKeyed ?_,
    mapOfSets_storesUnder_elements ..⟩
  · simp only [KeyPlan.ofMappingKeys, partition]
    exact Declaration.weakMapKeys_eq consistent
  · simp only [KeyPlan.ofMappingKeys, partition]
    exact Declaration.strongMapKeys_eq consistent
  · have none : own.setElements.filter (fun element => element.role.isWeak) = [] :=
      List.filter_eq_nil_iff.mpr fun element member => by simp [strong element member]
    simp only [KeyPlan.ofElements, none]
    rfl
  · have all : own.setElements.filter (fun element => !element.role.isWeak) = own.setElements :=
      List.filter_eq_self.mpr fun element member => by simp [strong element member]
    simp only [KeyPlan.ofElements, setElements, all]
    rfl
  · simpa using strong

end Keeps

section Selected

variable {family : Family}

theorem nominal_template_of_isMap (map : family.isMap = true) :
    (Variant.nominal family).template =
      .map (if family.isSolo then .direct else keyingFor family.isWeak) family.isWeak := by
  cases family with
  | map retention | soloMap retention => cases retention <;> rfl
  | set | mapOfSets | oneToOne | soloSet => cases map

theorem nominal_template_of_isSet (set : family.isSet = true) :
    (Variant.nominal family).template =
      .set (if family.isSolo then .direct else keyingFor family.isWeak) family.isWeak := by
  cases family with
  | set retention | soloSet retention => cases retention <;> rfl
  | map | mapOfSets | oneToOne | soloMap => cases set

theorem nominal_template_of_isMapOfSets (layers : family.isMapOfSets = true) :
    (Variant.nominal family).template =
      .mapOfSets (keyingFor family.isWeak) family.isWeak .hashed := by
  cases family with
  | mapOfSets retention => cases retention <;> rfl
  | map | set | oneToOne | soloMap | soloSet => cases layers

end Selected

/-- A map of sets is written with the template of maps of sets, as weak as its family. -/
theorem Variant.select_template_of_isMapOfSets {own : Declaration} (formed : own.WellFormed)
    (layers : own.family.isMapOfSets = true) (disableSpecialization : Bool) :
    ∃ outer inner, (select own disableSpecialization).template =
      .mapOfSets outer own.family.isWeak inner := by
  rcases select_template own disableSpecialization with nominal | ⟨_, extents, counted, _, special⟩
  · exact ⟨_, _, nominal.trans (nominal_template_of_isMapOfSets layers)⟩
  · have weak : extents.mapKeys.isWeak = own.family.isWeak :=
      Bool.eq_iff_iff.mpr ((Extents.of?_some formed counted).2.2.trans
        (isWeak_iff_weak_mapKey formed layers).symm)
    rw [special, Extents.template, weak]
    exact ⟨_, _, rfl⟩

/-- Whatever template is selected for a well-formed declaration, with or without specialization,
keeps the keys of every side. -/
theorem exists_keepsKeys {own : Declaration} {bindings : Bindings} (formed : own.WellFormed)
    (unpaired : own.family.isOneToOne = false)
    (bound : Bindings.ofConfiguration (.plain own) = .ok bindings) (disableSpecialization : Bool) :
    ∃ outline, (Variant.select own disableSpecialization).template.KeepsKeys bindings own
      outline := by
  have lone := fun kind =>
    Side.admits_ite { keys := own.dimensions, isWeak := own.family.isWeak } (formed.solo kind).mp
  rcases Variant.select_template own disableSpecialization with
    nominal | ⟨layers, extents, counted, _, special⟩
  · rw [nominal]
    rcases Family.kinds unpaired with map | set | layers
    · rw [nominal_template_of_isMap map]
      exact ⟨_, keyedMap_keepsKeys formed bound map (lone (.inl map))⟩
    · rw [nominal_template_of_isSet set]
      exact ⟨_, keyedSet_keepsKeys formed bound set (lone (.inr set))⟩
    · rw [nominal_template_of_isMapOfSets layers]
      exact ⟨_, mapOfSets_keepsKeys formed bound layers (.inr rfl) (.inr rfl)⟩
  · obtain ⟨oneKey, oneElement, weakKeys⟩ := Extents.of?_some formed counted
    have weak : extents.mapKeys.isWeak = own.family.isWeak :=
      Bool.eq_iff_iff.mpr (weakKeys.trans (isWeak_iff_weak_mapKey formed layers).symm)
    rw [special, Extents.template, keyingOf_retention, weak]
    refine ⟨_, mapOfSets_keepsKeys formed bound layers ?_ ?_⟩
    · exact Side.admits_ite { keys := own.mapKeys, isWeak := own.family.isWeak } oneKey
    · exact Side.admits_ite { keys := own.setElements, isWeak := false } oneElement

/-- No key of a locked collection that is not paired is ever left out of a storage key: whether or
not specialization is disabled, the plans of the selected template suit the sides of the collection,
and storing as well as finding takes all keys of the side. -/
theorem storage_keys_complete {builder : Builder} {own : Declaration} (declared : builder.Declared)
    (locked : builder.isLocked = true) (unpaired : builder.configuration = .plain own)
    (disableSpecialization : Bool) :
    let template := (Variant.select own disableSpecialization).template
    ∃ bindings outline, Bindings.ofConfiguration builder.configuration = .ok bindings ∧
      template.KeepsKeys bindings own outline ∧
      ∀ pair ∈ (template.plans bindings).zip (sidesOf own), ∀ hasherField missing,
        (pair.1.required hasherField).Perm pair.2.names ∧
          (pair.1.found hasherField missing).Perm pair.2.names := by
  have formed := declared.sound.wellFormed locked
  rw [unpaired] at formed ⊢
  obtain ⟨bindings, bound, _⟩ := Bindings.exists_ofConfiguration_ok formed.paired_iff.mp
  cases formed with
  | plain formed nominal =>
    obtain ⟨outline, keeps⟩ := exists_keepsKeys formed nominal bound disableSpecialization
    refine ⟨bindings, outline, bound, keeps, ?_⟩
    intro pair member hasherField missing
    have suits := (keeps.suited pair member).1
    rw [KeyPlan.found_eq_required]
    exact ⟨suits.required_perm hasherField, suits.required_perm hasherField⟩

theorem storage_keys_complete_visits :
    let visits : Builder :=
      Builder.performAll ⟨⟨.mapOfSets, .start⟩, .empty "Visits" (.mapOfSets .weak)⟩
        [.addMapKey "guest" "The guest." true {}, .addMapKey "host" "The host." false {},
          .addSetElement "day" "The day." false {}, .lock]
    let own := visits.configuration.own
    let template := (Variant.select own false).template
    visits.isLocked = true ∧ template = .mapOfSets .composite true .direct ∧
      ∃ bindings outline, Bindings.ofConfiguration visits.configuration = .ok bindings ∧
        template.KeepsKeys bindings own outline ∧
        ∀ pair ∈ (template.plans bindings).zip (sidesOf own), ∀ hasherField missing,
          (pair.1.required hasherField).Perm pair.2.names ∧
            (pair.1.found hasherField missing).Perm pair.2.names := by
  intro visits own template
  have created : Builder.create "Visits" .weakMap (some .set) =
      .ok ⟨⟨.mapOfSets, .start⟩, .empty "Visits" (.mapOfSets .weak)⟩ := rfl
  have declared : visits.Declared :=
    (Builder.Declared.created created).performAll _ (by simp [Call.base?])
  have locked : visits.isLocked = true := by decide
  exact ⟨locked, by decide, storage_keys_complete declared locked rfl false⟩

end Emission

end CompositeKeys
