import CompositeKeys.Proofs.Collection.Declared
import CompositeKeys.Proofs.Emission.Confinement
import CompositeKeys.Proofs.Emission.Heads
import CompositeKeys.Proofs.Emission.Selection
import CompositeKeys.Proofs.Emission.Writing

/-! The names of keys in generated members. Keys are told apart from each other and from what is in
reserved form, and so are the parameters that come from them; but a template has a few names that
are open to keys. -/

namespace CompositeKeys

/-- The names that are declared for keys. A paired collection goes by the keys of its base. -/
def Configuration.keyNames : Configuration → List String
  | .plain own => own.argumentNames
  | .paired own _ base => own.argumentNames ++ base.own.argumentNames

namespace Declaration
variable {own : Declaration}

theorem Consistent.keyNames (consistent : own.Consistent) : KeyNames own.argumentNames :=
  ⟨consistent.distinct, List.forall_mem_map.mpr consistent.named⟩

end Declaration

namespace Emission

theorem Variant.select_template_set {own : Declaration} (set : own.family.isSet = true)
    (disableSpecialization : Bool) :
    ∃ keying weak, (select own disableSpecialization).template = .set keying weak := by
  rw [select_template_of_single (Family.of_isSet set).2.1]
  cases family : own.family with
  | set retention | soloSet retention => exact ⟨_, _, rfl⟩
  | map | mapOfSets | oneToOne | soloMap => simp [family, Family.isSet] at set

/-- The names, less those in reserved form, that a template uses in members. Sets have no value. -/
def Template.usedNames : Template → List String
  | .map keying weak => valueName :: (Template.map keying weak).exposedNames
  | .paired => valueName :: Template.paired.exposedNames
  | template => template.exposedNames

/-- A key has the name of the value only in a set, which does not use it. -/
theorem unvalued_of_consistent {own : Declaration} (consistent : own.Consistent)
    (disableSpecialization : Bool)
    (used : valueName ∈ (Variant.select own disableSpecialization).template.usedNames) :
    valueName ∉ own.argumentNames := by
  apply consistent.valueReserved
  refine Bool.eq_false_iff.mpr fun set => ?_
  obtain ⟨keying, weak, chosen⟩ := Variant.select_template_set set disableSpecialization
  have unused : valueName ∉ setNames := by decide
  rw [chosen] at used
  exact unused used

theorem exposed_of_owned {template : Template} {names : List String} {name : String}
    (keys : KeyNames names) (key : name ∈ names)
    (unvalued : valueName ∈ template.usedNames → valueName ∉ names)
    (owned : Owned template.usedNames name) : name ∈ template.exposedNames := by
  rcases owned with reserved | used
  · exact absurd rfl (keys.unreserved name reserved name key)
  · have other : name = valueName → name ∈ template.exposedNames := by
      rintro rfl
      exact absurd key (unvalued used)
    cases template with
    | map | paired => exact (List.mem_cons.mp used).elim other id
    | set | mapOfSets => exact used

theorem Template.outline_members {template : Template} {bindings : Bindings}
    {outline : ClassOutline} (outlined : template.outline bindings = .ok outline)
    (unpaired : template ≠ .paired) (keys : KeyNames bindings.arguments)
    (mapKeys : bindings.mapKeys.Sublist bindings.arguments)
    (elements : bindings.setElements.Sublist bindings.arguments)
    (unvalued : valueName ∈ template.usedNames → valueName ∉ bindings.arguments) :
    ∀ member ∈ outline.members,
      member.Confined template.usedNames ∧ member.head.Tells bindings.arguments := by
  intro member among
  cases template with
  | map keying weak =>
    cases outlined
    exact ⟨keyedMap_confined bindings keying weak member among,
      keyedMap_heads keying weak keys (unvalued List.mem_cons_self) member among⟩
  | set keying weak =>
    cases outlined
    exact ⟨keyedSet_confined bindings keying weak member among,
      keyedSet_heads keying weak keys member among⟩
  | mapOfSets outer weak inner =>
    cases outlined
    exact ⟨mapOfSets_confined bindings outer weak inner member among,
      mapOfSets_heads outer weak inner keys mapKeys elements member among⟩
  | paired => exact absurd rfl unpaired

/-- With a mark, no key but one named like the value has a name that the paired template uses. -/
theorem not_owned_of_marked {source mark : String} (marked : mark ∈ ["_1", "_2"])
    (unvalued : source ≠ valueName) : ¬ Owned Template.paired.usedNames (source ++ mark) := by
  -- A mark ends in a digit, as no name in reserved form and hardly any name in use does.
  have reservedMark : mark.toList.getLast? ≠ some '_' := by
    revert mark
    decide +kernel
  have usedMark : ∀ name ∈ Template.paired.usedNames,
      name.toList.getLast? = mark.toList.getLast? → name = valueName ++ mark := by
    revert mark
    decide +kernel
  have last : (source ++ mark).toList.getLast? = mark.toList.getLast? := by
    rcases List.mem_cons.mp marked with rfl | second
    · simp
    · obtain rfl := List.mem_singleton.mp second
      simp
  rintro (reserved | used)
  · obtain ⟨inner, same⟩ := (isReservedName_iff.mp reserved).1
    rw [same, List.getLast?_append] at last
    exact reservedMark last.symm
  · exact unvalued ((String.append_left_inj mark).mp (usedMark _ used last))

theorem pairedMap_captured (className : String) {pairing : PairingBindings} {names : List String}
    (keys : KeyNames names) (unvalued : valueName ∉ names)
    (further : ∀ source ∈ pairing.sources, source ∈ names) :
    ∀ member ∈ (pairedMap className pairing).members,
      ∀ name ∈ names ++ member.head.declaredNames, name ∈ member.ownNames →
        name ∈ names ∧ name ∈ Template.paired.exposedNames := by
  intro member among name draws uses
  have owned : Owned Template.paired.usedNames name :=
    pairedMap_confined className pairing member among name uses
  have key : name ∈ names := by
    rcases List.mem_append.mp draws with key | declared
    · exact key
    · rcases pairedMap_declared className member among name declared with
        plain | ⟨mark, marked, suffixed⟩
      · exact further name plain
      · obtain ⟨source, listed, rfl⟩ := List.mem_map.mp suffixed
        have other : source ≠ valueName := by
          rintro rfl
          exact unvalued (further _ listed)
        exact absurd owned (not_owned_of_marked marked other)
  exact ⟨key, exposed_of_owned keys key (fun _ => unvalued) owned⟩

namespace Contribution
variable {options : CompileOptions} {definition : ClassDefinition}

theorem Writes.plain_members {own : Declaration} (consistent : own.Consistent)
    (unpaired : own.family.isOneToOne = false)
    (written : Writes options (.plain own) definition) :
    ∀ member ∈ definition.outline.members,
      member.Confined (Variant.select own options.disableSpecialization).template.usedNames ∧
        member.head.Tells own.argumentNames := by
  obtain ⟨bindings, bound, defined⟩ := written
  obtain ⟨outlined, -⟩ := ClassDefinition.ofConfiguration_ok defined
  obtain ⟨arguments, mapKeys, elements, -⟩ := Bindings.ofConfiguration_ok bound
  have same : bindings.arguments = own.argumentNames := arguments
  rw [← same]
  apply Template.outline_members outlined
  · intro chosen
    exact nomatch unpaired.symm.trans ((Variant.select_template_paired_iff _ _).mp chosen)
  · rw [same]
    exact consistent.keyNames
  · rw [mapKeys, same]
    exact List.filter_sublist.map _
  · rw [elements, same]
    exact List.filter_sublist.map _
  · rw [same]
    exact unvalued_of_consistent consistent options.disableSpecialization

theorem Writes.paired_outline {own : Declaration} {link : Link} {base : Configuration}
    (family : own.family.isOneToOne = true)
    (written : Writes options (.paired own link base) definition) :
    definition.outline = pairedMap own.className (PairingBindings.ofLink link base) := by
  obtain ⟨bindings, bound, defined⟩ := written
  obtain ⟨outlined, -⟩ := ClassDefinition.ofConfiguration_ok defined
  have chosen := (Variant.select_template_paired_iff own options.disableSpecialization).mpr family
  change (Variant.select own _).template.outline bindings = _ at outlined
  rw [chosen] at outlined
  obtain rfl := Except.ok.inj bound
  exact (Except.ok.inj outlined).symm

theorem Writes.names_apart {part : Configuration} (formed : part.WellFormed)
    (written : Writes options part definition) :
    ((∀ member ∈ definition.outline.members, member.head.parameterNames.Nodup) ↔
        ∀ link base, part.pairing? = some (link, base) →
          "allowNotDefined" ∉ (link.sources base).map Dimension.name) ∧
      ∀ member ∈ definition.outline.members,
        ∀ name ∈ part.keyNames ++ member.head.declaredNames, name ∈ member.ownNames →
          name ∈ part.keyNames ∧ name ∈
            (Variant.select part.own options.disableSpecialization).template.exposedNames := by
  cases formed with
  | @plain own declared unpaired =>
    have members := written.plain_members declared.toConsistent unpaired
    refine ⟨iff_of_true (fun member among => (members member among).2.1) nofun, ?_⟩
    intro member among name draws uses
    obtain ⟨confined, -, declares⟩ := members member among
    have key : name ∈ own.argumentNames :=
      (List.mem_append.mp draws).elim id (declares name)
    refine ⟨key, ?_⟩
    exact exposed_of_owned declared.keyNames key
      (unvalued_of_consistent declared.toConsistent _) (confined name uses)
  | @paired own link base declared family based baseFamily reserved =>
    have named : (Configuration.paired own link base).keyNames = base.own.argumentNames := by
      simp [Configuration.keyNames, Declaration.argumentNames, declared.unkeyed family]
    have chosen : (Variant.select (Configuration.paired own link base).own
        options.disableSpecialization).template = .paired :=
      (Variant.select_template_paired_iff own _).mpr family
    have further : (PairingBindings.ofLink link base).sources.Sublist base.own.argumentNames :=
      List.filter_sublist.map _
    have maps : ∀ family ∈ baseFamilies, family.isSet = false := by decide
    have unvalued := based.own.valueReserved (maps _ baseFamily)
    rw [written.paired_outline family, named, chosen]
    refine ⟨?_, pairedMap_captured own.className based.own.keyNames unvalued further.subset⟩
    rw [pairedMap_distinct_iff own.className (based.own.keyNames.sublist further)
      fun among => unvalued (further.subset among)]
    constructor
    · rintro free _ _ ⟨⟩
      exact free
    · intro free
      exact free link base rfl

end Contribution

/-- In every member of every class that is generated from a locked declaration the parameters are
distinct, unless a further key of a paired collection has the name of its own last parameter; and
only the open names of its template can be captured by a key. -/
theorem members_hygienic {builder : Builder} (declared : builder.Declared)
    (locked : builder.isLocked = true) {options : CompileOptions} {helperDirectory : String}
    {source : SourceModule}
    (made : SourceModule.ofConfiguration builder.configuration options helperDirectory =
      .ok source) :
    ∀ definition ∈ source.contribution.classes,
      ∃ part ∈ Contribution.parts builder.configuration,
        Contribution.Writes options part definition ∧
        ((∀ member ∈ definition.outline.members, member.head.parameterNames.Nodup) ↔
          ∀ link base, part.pairing? = some (link, base) →
            "allowNotDefined" ∉ (link.sources base).map Dimension.name) ∧
        ∀ member ∈ definition.outline.members,
          ∀ name ∈ part.keyNames ++ member.head.declaredNames, name ∈ member.ownNames →
            name ∈ part.keyNames ∧ name ∈
              (Variant.select part.own options.disableSpecialization).template.exposedNames := by
  intro definition among
  obtain ⟨contribution, contributed, rfl⟩ := SourceModule.ofConfiguration_ok made
  obtain ⟨part, member, written⟩ := Contribution.part_of_class contributed among
  have formed : part.WellFormed := by
    refine Contribution.keeps_parts ?_ (declared.sound.wellFormed locked) part member
    exact fun own link base formed => formed.base rfl
  exact ⟨part, member, written, written.names_apart formed⟩

theorem members_hygienic_pairs :
    let owners : Builder := Builder.performAll ⟨⟨.map, .start⟩, .empty "CarOwners" (.map .weak)⟩
      [.addMapKey "car" "A car." true {}, .addMapKey "owner" "Its owner." false {}, .lock]
    let pairs : Builder := Builder.performAll ⟨⟨.oneToOne, .start⟩, .empty "CarPairs" .oneToOne⟩
      [.configurePairing (.builder owners) "car" none, .lock]
    pairs.isLocked = true ∧ ∃ source,
      SourceModule.ofConfiguration pairs.configuration {} "./keys" = .ok source ∧
      source.contribution.classes.length = 2 ∧
      ∀ definition ∈ source.contribution.classes,
        ∃ part ∈ Contribution.parts pairs.configuration, part.keyNames ≠ [] ∧
          ∀ member ∈ definition.outline.members, member.head.parameterNames.Nodup ∧
            ∀ name ∈ part.keyNames ++ member.head.declaredNames, name ∉ member.ownNames := by
  intro owners pairs
  have created : Builder.create "CarOwners" .weakMap none =
      .ok ⟨⟨.map, .start⟩, .empty "CarOwners" (.map .weak)⟩ := rfl
  have base : owners.Declared :=
    (Builder.Declared.created created).performAll _ (by simp [Call.base?])
  have begun : Builder.create "CarPairs" .oneToOne none =
      .ok ⟨⟨.oneToOne, .start⟩, .empty "CarPairs" .oneToOne⟩ := rfl
  have declared : pairs.Declared :=
    (Builder.Declared.created begun).performAll _ (by simpa [Call.base?] using base)
  have locked : pairs.isLocked = true := by decide +kernel
  obtain ⟨source, generated, classes⟩ : ∃ source,
      SourceModule.ofConfiguration pairs.configuration {} "./keys" = .ok source ∧
        source.contribution.classes.length = 2 := by
    rw [exists_eq_ok]
    decide +kernel
  have free : ∀ part ∈ Contribution.parts pairs.configuration, part.keyNames ≠ [] ∧
      (∀ pairing ∈ part.pairing?.toList,
        "allowNotDefined" ∉ (pairing.1.sources pairing.2).map Dimension.name) ∧
      ∀ name ∈ part.keyNames, name ∉ (Variant.select part.own false).template.exposedNames := by
    decide +kernel
  refine ⟨locked, source, generated, classes, fun definition among => ?_⟩
  obtain ⟨part, member, -, distinct, captured⟩ :=
    members_hygienic declared locked generated definition among
  obtain ⟨keyed, named, closed⟩ := free part member
  have last : ∀ link base, part.pairing? = some (link, base) →
      "allowNotDefined" ∉ (link.sources base).map Dimension.name :=
    fun link base found => named (link, base) (by simp [found])
  refine ⟨part, member, keyed, fun method listed => ⟨distinct.mpr last method listed, ?_⟩⟩
  intro name draws uses
  obtain ⟨key, opened⟩ := captured method listed name draws uses
  exact closed name key opened

/-- A key may take the name that the constructor has for its own argument, and a paired collection
may have a key of the name of its own last parameter. -/
theorem keys_captured :
    let cars : Builder := Builder.performAll ⟨⟨.map, .start⟩, .empty "Cars" (.map .strong)⟩
      [.addMapKey "iterable" "A car." false {}, .lock]
    let owners : Builder := Builder.performAll ⟨⟨.map, .start⟩, .empty "CarOwners" (.map .weak)⟩
      [.addMapKey "car" "A car." true {}, .addMapKey "allowNotDefined" "Its owner." false {}, .lock]
    let pairs : Builder := Builder.performAll ⟨⟨.oneToOne, .start⟩, .empty "CarPairs" .oneToOne⟩
      [.configurePairing (.builder owners) "car" none, .lock]
    (Builder.create "Cars" .map none = .ok ⟨⟨.map, .start⟩, .empty "Cars" (.map .strong)⟩ ∧
      cars.isLocked = true ∧ ∃ source,
        SourceModule.ofConfiguration cars.configuration {} "./keys" = .ok source ∧
        ∃ definition ∈ source.contribution.classes, ∃ member ∈ definition.outline.members,
          ∃ name ∈ cars.configuration.keyNames, name ∈ member.ownNames) ∧
    Builder.create "CarOwners" .weakMap none =
        .ok ⟨⟨.map, .start⟩, .empty "CarOwners" (.map .weak)⟩ ∧
      Builder.create "CarPairs" .oneToOne none =
        .ok ⟨⟨.oneToOne, .start⟩, .empty "CarPairs" .oneToOne⟩ ∧
      pairs.isLocked = true ∧ ∃ source,
        SourceModule.ofConfiguration pairs.configuration {} "./keys" = .ok source ∧
        ∃ definition ∈ source.contribution.classes, ∃ member ∈ definition.outline.members,
          ¬ member.head.parameterNames.Nodup := by
  intro cars owners pairs
  refine ⟨⟨rfl, by decide +kernel, ?_⟩, rfl, rfl, by decide +kernel, ?_⟩
  · rw [exists_eq_ok]
    decide +kernel
  · rw [exists_eq_ok]
    decide +kernel

end Emission

end CompositeKeys
