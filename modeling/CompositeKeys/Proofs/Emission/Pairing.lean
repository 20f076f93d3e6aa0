import CompositeKeys.Emission.SourceModule
import CompositeKeys.Proofs.Collection.Edits
import CompositeKeys.Proofs.Emission.Hygiene

/-! What the templates are told about a pairing. Whether the base has further keys, which ones they are
and where the identity stands among its arguments is read off the base in separate ways, and they agree
because the reserved key is there exactly once. -/

namespace CompositeKeys

namespace Emission

/-- The bindings of a pairing agree with the pairing, and their names can be told apart wherever they
stand beside each other. -/
structure PairingBindings.Follows (pairing : PairingBindings) (link : Link) (base : Configuration) :
    Prop where
  single : pairing.isSingle = link.isSingle base
  arguments : ∃ before after,
    base.own.argumentNames = before ++ link.reservedKey :: after ∧
      link.reservedKey ∉ before ++ after ∧ identityName ∉ before ++ after ∧
      pairing.baseArguments = before ++ identityName :: after ∧
      pairing.sources = before ++ after ∧
      ∀ mark, pairing.baseArgumentsWith mark =
        suffixed before mark ++ identityName :: suffixed after mark
  sources : pairing.baseArguments.erase identityName = pairing.sources
  partners : (suffixed pairing.sources "_1" ++
    "value_1" :: (suffixed pairing.sources "_2" ++ ["value_2"])).Nodup
  value : (valueName :: pairing.sources).Nodup

section Arguments
variable {pairing : PairingBindings} {before after : List String}

/-- The identity stays and every other argument takes the mark. -/
theorem baseArgumentsWith_split (split : pairing.baseArguments = before ++ identityName :: after)
    (free : identityName ∉ before ++ after) (mark : String) :
    pairing.baseArgumentsWith mark =
      suffixed before mark ++ identityName :: suffixed after mark := by
  have marked : ∀ part : List String, part ⊆ before ++ after →
      (part.map fun name => if name = identityName then name else name ++ mark) =
        suffixed part mark := by
    intro part within
    refine List.map_congr_left fun name among => if_neg ?_
    rintro rfl
    exact free (within among)
  simp only [PairingBindings.baseArgumentsWith, split, List.map_append, List.map_cons, if_true]
  rw [marked before (List.subset_append_left _ _), marked after (List.subset_append_right _ _)]

theorem erase_split (free : identityName ∉ before ++ after) :
    (before ++ identityName :: after).erase identityName = before ++ after := by
  rw [List.erase_append_right _ fun among => free (List.mem_append_left _ among),
    List.erase_cons_head]

end Arguments

section Bases
variable {link : Link} {base : Configuration}

theorem ofLink_baseArguments (link : Link) (base : Configuration) :
    (PairingBindings.ofLink link base).baseArguments = base.own.argumentNames.map fun name =>
      if name = link.reservedKey then identityName else name := by
  simp [PairingBindings.ofLink, Declaration.argumentNames]

theorem ofLink_sources (link : Link) (base : Configuration) :
    (PairingBindings.ofLink link base).sources =
      base.own.argumentNames.filter fun name => name ≠ link.reservedKey := by
  simp [PairingBindings.ofLink, Link.sources, Declaration.argumentNames, List.filter_map,
    Function.comp_def]

theorem ofLink_split {before after : List String}
    (split : base.own.argumentNames = before ++ link.reservedKey :: after)
    (single : link.reservedKey ∉ before ++ after) :
    (PairingBindings.ofLink link base).baseArguments = before ++ identityName :: after ∧
      (PairingBindings.ofLink link base).sources = before ++ after := by
  have other : ∀ name ∈ before ++ after, name ≠ link.reservedKey := by
    rintro name among rfl
    exact single among
  rw [List.forall_mem_append] at other
  obtain ⟨front, back⟩ := other
  constructor
  · have kept : ∀ part : List String, (∀ name ∈ part, name ≠ link.reservedKey) →
        (part.map fun name => if name = link.reservedKey then identityName else name) = part :=
      fun part other => (List.map_congr_left fun name among => if_neg (other name among)).trans
        (List.map_id part)
    rw [ofLink_baseArguments, split, List.map_append, List.map_cons, if_pos rfl, kept before front,
      kept after back]
  · have kept : ∀ part : List String, (∀ name ∈ part, name ≠ link.reservedKey) →
        (part.filter fun name => name ≠ link.reservedKey) = part :=
      fun part other => List.filter_eq_self.mpr fun name among => decide_eq_true (other name among)
    rw [ofLink_sources, split, List.filter_append, List.filter_cons_of_neg (by simp), kept before front,
      kept after back]

/-- A base without further keys is one with a single key. -/
theorem ofLink_isSingle (reserved : link.reservedKey ∈ base.own.argumentNames)
    (distinct : base.own.argumentNames.Nodup) :
    (PairingBindings.ofLink link base).isSingle = link.isSingle base := by
  obtain ⟨before, after, split⟩ := List.append_of_mem reserved
  have single := (List.nodup_cons.mp (List.nodup_middle.mp (split ▸ distinct))).1
  have counted : base.own.dimensions.length = before.length + after.length + 1 := by
    have lengths := congrArg List.length split
    simp only [Declaration.argumentNames, List.length_map, List.length_append,
      List.length_cons] at lengths
    omega
  rw [Bool.eq_iff_iff, PairingBindings.isSingle, (ofLink_split split single).2, Link.isSingle,
    counted, List.isEmpty_iff_length_eq_zero, List.length_append, decide_eq_true_eq]
  omega

/-- What is read off a base agrees, whatever its keys are and wherever the reserved one stands. -/
theorem ofLink_follows (based : base.own.Consistent) (mapped : base.own.family.isSet = false)
    (reserved : link.reservedKey ∈ base.own.argumentNames) :
    (PairingBindings.ofLink link base).Follows link base := by
  obtain ⟨before, after, split⟩ := List.append_of_mem reserved
  have apart := List.nodup_cons.mp (List.nodup_middle.mp (split ▸ based.distinct))
  obtain ⟨arguments, sources⟩ := ofLink_split split apart.1
  have within : before ++ after ⊆ base.own.argumentNames := by
    rw [split]
    exact (List.sublist_cons_self _ _).append_left before |>.subset
  have free : identityName ∉ before ++ after := fun among =>
    based.keyNames.unreserved identityName (by decide +kernel) _ (within among) rfl
  have unvalued : valueName ∉ before ++ after := fun among =>
    based.valueReserved mapped (within among)
  refine ⟨ofLink_isSingle reserved based.distinct, ⟨before, after, split, apart.1, free, arguments,
    sources, baseArgumentsWith_split arguments free⟩, ?_, ?_, ?_⟩
  · rw [arguments, sources, erase_split free]
  · rw [sources]
    exact nodup_bound apart.2 unvalued
  · rw [sources]
    exact List.nodup_cons.mpr ⟨unvalued, apart.2⟩

theorem ofConfiguration_paired {configuration : Configuration}
    (paired : configuration.pairing? = some (link, base)) :
    ∃ bindings, Bindings.ofConfiguration configuration = .ok bindings ∧
      bindings.pairing = some (PairingBindings.ofLink link base) := by
  cases configuration with
  | plain => cases paired
  | paired =>
    cases paired
    exact ⟨_, rfl, rfl⟩

end Bases

end Emission

namespace Builder

/-- While a base has just been entered it is a well-formed weak map that has the reserved key. -/
theorem Sound.pairing {builder : Builder} (sound : builder.Sound) (phase : builder.phase = .pairing)
    {link : Link} {base : Configuration} (paired : builder.configuration.pairing? = some (link, base)) :
    base.WellFormed ∧ base.family ∈ baseFamilies ∧ link.reservedKey ∈ base.own.argumentNames := by
  cases sound with
  | underway _ _ _ shaped =>
    cases phase
    cases shaped with
    | opened => cases paired
    | paired _ _ based family reserved =>
      cases paired
      obtain ⟨key, among, named, _⟩ := reserved
      exact ⟨based, family, named ▸ List.mem_map_of_mem among⟩
  | locked | dead => cases phase

end Builder

namespace Emission

/-- Whatever base a builder has accepted for a pairing, and whatever is called after that, the templates
are told what the pairing says: the same about single keys, in the same flavor of documentation, and
the arguments of the base with the identity in the place of the reserved key. -/
theorem pairing_followed {builder : Builder} (declared : builder.Declared) {choice : BaseChoice}
    {reservedKey : String} {modulePath : Option String}
    (bases : ∀ base, choice = .builder base → base.Declared)
    (accepted : (builder.perform (.configurePairing choice reservedKey modulePath)).2 = .ok ())
    (calls : List Call) :
    let paired := (builder.perform (.configurePairing choice reservedKey modulePath)).1
    ∃ base origin, Configuration.baseOf choice = .ok (base, origin) ∧
      let link : Link := { reservedKey, origin, modulePath }
      (paired.performAll calls).configuration.pairing? = some (link, base) ∧
      ∃ bindings pairing,
        Bindings.ofConfiguration (paired.performAll calls).configuration = .ok bindings ∧
        bindings.pairing = some pairing ∧
        Flavor.ofBindings bindings =
          (if link.isSingle base then .pairedSingle else .pairedDouble) ∧
        pairing.Follows link base := by
  intro paired
  obtain ⟨performed, phase⟩ := Builder.perform_accepted (by simp) accepted
  obtain ⟨base, origin, found, made⟩ := Configuration.perform_configurePairing performed
  have entered := Configuration.pairing?_of_pairing made
  have sound : paired.Sound := by
    refine (declared.called ?_).sound
    intro other handed
    cases choice with
    | wellKnown => cases handed
    | builder => exact bases other (congrArg BaseChoice.builder (Option.some.inj handed))
  obtain ⟨based, family, reserved⟩ := sound.pairing phase entered
  have maps : ∀ family ∈ baseFamilies, family.isSet = false := by decide
  have follows := ofLink_follows based.own.toConsistent (maps _ family) reserved
  have kept := (paired.keeps_performAll calls).pairing _ entered
  obtain ⟨bindings, made, same⟩ := ofConfiguration_paired kept
  refine ⟨base, origin, found, kept, bindings, _, made, same, ?_, follows⟩
  rw [Flavor.ofBindings, same]
  simp only [follows.single]

theorem pairing_followed_seats :
    let seats : Builder := Builder.performAll ⟨⟨.map, .start⟩, .empty "Seats" (.map .weak)⟩
      [.addMapKey "row" "The row." false {}, .addMapKey "car" "The car." true {},
        .addMapKey "seat" "The seat." false {}, .lock]
    let pairs : Builder := ⟨⟨.oneToOne, .start⟩, .empty "SeatPairs" .oneToOne⟩
    let paired := (pairs.perform (.configurePairing (.builder seats) "car" none)).1
    let link : Link := { reservedKey := "car", origin := .declared }
    seats.Declared ∧ pairs.Declared ∧
      (pairs.perform (.configurePairing (.builder seats) "car" none)).2 = .ok () ∧
      (paired.performAll [.lock, .setOverview "Late."]).configuration.pairing? =
        some (link, seats.configuration) ∧
      ∃ bindings pairing, Bindings.ofConfiguration
          (paired.performAll [.lock, .setOverview "Late."]).configuration = .ok bindings ∧
        bindings.pairing = some pairing ∧ Flavor.ofBindings bindings = .pairedDouble ∧
        pairing.Follows link seats.configuration := by
  intro seats pairs paired link
  have created : Builder.create "Seats" .weakMap none =
      .ok ⟨⟨.map, .start⟩, .empty "Seats" (.map .weak)⟩ := rfl
  have based : seats.Declared :=
    (Builder.Declared.created created).performAll _ (by simp [Call.base?])
  have begun : Builder.create "SeatPairs" .oneToOne none = .ok pairs := rfl
  have declared : pairs.Declared := .created begun
  have accepted : (pairs.perform (.configurePairing (.builder seats) "car" none)).2 = .ok () := by
    decide +kernel
  have chosen : Configuration.baseOf (.builder seats) = .ok (seats.configuration, .declared) := by
    decide +kernel
  have handed : ∀ base, BaseChoice.builder seats = .builder base → base.Declared := by
    rintro _ ⟨⟩
    exact based
  obtain ⟨base, origin, found, entered, bindings, pairing, made, told, flavor, follows⟩ :=
    pairing_followed declared handed accepted [.lock, .setOverview "Late."]
  obtain ⟨rfl, rfl⟩ := Prod.mk.inj (Except.ok.inj (chosen.symm.trans found))
  have double : link.isSingle seats.configuration = false := by decide +kernel
  refine ⟨based, declared, accepted, entered, bindings, pairing, made, told, ?_, follows⟩
  rw [flavor, double]
  rfl

end Emission

end CompositeKeys
