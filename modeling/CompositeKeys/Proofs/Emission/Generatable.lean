import CompositeKeys.Proofs.Collection.Declared
import CompositeKeys.Proofs.Emission.Documentation
import CompositeKeys.Proofs.Emission.Selection

/-! Generation of locked configurations. The template of a configuration is the paired one exactly
when the configuration is paired, and each template asks for no block that its flavor leaves out. A
well-formed configuration can therefore be written, bases included; the one thing that a module
still refuses is a pairing over a base of the same name. -/

namespace CompositeKeys.Emission

/-- The names under which the members of a class are documented. -/
def ClassOutline.documented (outline : ClassOutline) : List String :=
  outline.members.filterMap Member.documentedAs

/-- A class is written once every block that it asks for is there. -/
theorem ClassOutline.exists_strokes_ok {outline : ClassOutline}
    {block : String → Except EmissionError String}
    (blocks : ∀ name ∈ outline.documented, ∃ text, block name = .ok text) :
    ∃ strokes, outline.strokes block = .ok strokes := by
  have written : ∀ member ∈ outline.members, ∃ strokes, (do
      let page ← member.documentedAs.mapM block
      return member.strokes (page.map Stroke.page).toList) = .ok strokes := by
    intro member present
    cases documented : member.documentedAs with
    | none => exact ⟨_, rfl⟩
    | some name =>
      obtain ⟨text, made⟩ := blocks name (List.mem_filterMap.mpr ⟨member, present, documented⟩)
      refine ⟨_, bind_eq_ok.mpr ⟨some text, mapM_eq_ok_some.mpr ⟨name, rfl, made⟩, rfl⟩⟩
  obtain ⟨members, made⟩ := exists_mapM_ok written
  exact ⟨_, bind_eq_ok.mpr ⟨members, made, rfl⟩⟩

/-- Whether a flavor has an entry for every documented member. -/
def Flavor.covers (flavor : Flavor) (outline : ClassOutline) : Bool :=
  outline.documented.all flavor.names.contains

theorem Flavor.covers_iff {flavor : Flavor} {outline : ClassOutline} :
    flavor.covers outline = true ↔ ∀ name ∈ outline.documented, name ∈ flavor.names := by
  simp [covers]

-- Which members there are hangs on the kind of template alone, so these compute.

theorem Flavor.covers_keyedMap (bindings : Bindings) (keying : Keying) (weak : Bool) :
    Flavor.collection.covers (keyedMap bindings keying weak) = true := by
  cases weak <;> rfl

theorem Flavor.covers_keyedSet (bindings : Bindings) (keying : Keying) (weak : Bool) :
    Flavor.collection.covers (keyedSet bindings keying weak) = true := by
  cases weak <;> rfl

theorem Flavor.covers_mapOfSets (bindings : Bindings) (outer : Keying) (weak : Bool)
    (inner : Keying) : Flavor.collection.covers (mapOfSets bindings outer weak inner) = true := by
  cases weak <;> rfl

theorem Flavor.covers_pairedMap (bindings : Bindings) {pairing : PairingBindings}
    (paired : bindings.pairing = some pairing) :
    (Flavor.ofBindings bindings).covers (pairedMap bindings.className pairing) = true := by
  unfold Flavor.ofBindings pairedMap
  simp only [paired]
  cases pairing.isSingle with
  | true => 
    simp only [if_true]
    rfl
  | false => 
    simp only [Bool.false_eq_true, if_false]
    rfl

/-- The paired template has its pairing, and any other template is for a class without one. -/
def Template.Fits (template : Template) (bindings : Bindings) : Prop :=
  template = .paired ↔ bindings.pairing.isSome = true

theorem Template.Fits.exists_outline_ok {template : Template} {bindings : Bindings}
    (fits : template.Fits bindings) :
    ∃ outline, template.outline bindings = .ok outline ∧
      (Flavor.ofBindings bindings).covers outline = true := by
  have unpaired : template ≠ .paired → Flavor.ofBindings bindings = .collection := by
    intro other
    have absent : bindings.pairing = none := by simpa using mt fits.mpr other
    simp [Flavor.ofBindings, absent]
  cases template with
  | map keying weak =>
    exact ⟨_, rfl, (unpaired nofun).symm ▸ Flavor.covers_keyedMap bindings keying weak⟩
  | set keying weak =>
    exact ⟨_, rfl, (unpaired nofun).symm ▸ Flavor.covers_keyedSet bindings keying weak⟩
  | mapOfSets outer weak inner =>
    exact ⟨_, rfl, (unpaired nofun).symm ▸ Flavor.covers_mapOfSets bindings outer weak inner⟩
  | paired =>
    obtain ⟨pairing, paired⟩ := Option.isSome_iff_exists.mp (fits.mp rfl)
    refine ⟨pairedMap bindings.className pairing, ?_, Flavor.covers_pairedMap bindings paired⟩
    simp [Template.outline, paired]

theorem Template.Fits.exists_definition_ok {template : Template} {bindings : Bindings}
    (fits : template.Fits bindings) (configuration : Configuration) (checkedTypes : Bool) :
    ∃ definition, ClassDefinition.ofConfiguration configuration bindings template checkedTypes =
      .ok definition := by
  obtain ⟨documentation, made, present⟩ :=
    Documentation.exists_ofConfiguration_ok configuration bindings checkedTypes
  obtain ⟨outline, outlined, covered⟩ := fits.exists_outline_ok
  have written : ∀ listed : Documentation, (∀ name ∈ documentation.names, name ∈ listed.names) →
      ∃ strokes, outline.strokes (fun name => listed.filled.block name (indentation 1)) =
        .ok strokes := by
    intro listed kept
    apply ClassOutline.exists_strokes_ok
    intro name member
    apply Documentation.exists_block_ok
    rw [Documentation.filled_names]
    exact kept name (present name (Flavor.covers_iff.mp covered name member))
  refine exists_bind_ok made (exists_bind_ok outlined ?_)
  cases yields : template.yieldsKeys with
  | true =>
    obtain ⟨listed, entered, grown⟩ :=
      Documentation.exists_add_ok (by decide : Entry.keySets.Usable) documentation "values"
    obtain ⟨strokes, done⟩ := written listed fun name member => (grown name).mpr (.inr member)
    exact exists_bind_ok entered (exists_bind_ok done ⟨_, rfl⟩)
  | false =>
    obtain ⟨strokes, done⟩ := written documentation fun _ member => member
    exact exists_bind_ok rfl (exists_bind_ok done ⟨_, rfl⟩)

/-- The class of a well-formed configuration can be added to whatever its base brings in. -/
theorem Contribution.exists_extend_ok (options : CompileOptions) {configuration : Configuration}
    (formed : configuration.WellFormed) :
    ∃ bindings, Bindings.ofConfiguration configuration = .ok bindings ∧
      ∀ imports helpers bases, ∃ contribution,
        extend options configuration bindings imports helpers bases = .ok contribution := by
  obtain ⟨bindings, bound, same⟩ := Bindings.exists_ofConfiguration_ok formed.paired_iff.mp
  have fits : (Variant.select configuration.own options.disableSpecialization).template.Fits
      bindings := by
    unfold Template.Fits
    rw [Variant.select_template_paired_iff, same]
    exact formed.paired_iff
  refine ⟨bindings, bound, fun imports helpers bases => ?_⟩
  obtain ⟨definition, written⟩ := fits.exists_definition_ok configuration options.checkedTypes
  exact exists_bind_ok written ⟨_, rfl⟩

/-- A well-formed configuration can be written. The induction goes down the bases. -/
theorem Contribution.exists_ofConfiguration_ok (options : CompileOptions)
    {configuration : Configuration} (formed : configuration.WellFormed) :
    ∃ contribution, ofConfiguration options configuration = .ok contribution := by
  obtain ⟨bindings, bound, extended⟩ := exists_extend_ok options formed
  induction formed generalizing bindings with
  | plain => exact exists_bind_ok bound (extended [] {} [])
  | paired _ _ based _ _ ih =>
    refine exists_bind_ok bound ?_
    dsimp only
    split
    · exact extended _ _ _
    · exact extended _ _ _
    · obtain ⟨_, bound, inner⟩ := exists_extend_ok options based
      obtain ⟨_, written⟩ := ih _ bound inner
      exact exists_bind_ok written (extended _ _ _)

namespace SourceModule

theorem check_distinct {configuration : Configuration} (formed : configuration.WellFormed)
    (distinct : ∀ link base, configuration.pairing? = some (link, base) →
      base.className ≠ configuration.className) :
    check configuration = .ok () := by
  unfold check
  cases paired : configuration.family.isOneToOne with
  | true =>
    obtain ⟨⟨link, base⟩, based⟩ := Option.isSome_iff_exists.mp (formed.paired_iff.mp paired)
    simp [based, distinct link base based]
  | false => simp [formed.keyed paired]

theorem check_namesake {configuration base : Configuration} {link : Link}
    (formed : configuration.WellFormed) (paired : configuration.pairing? = some (link, base))
    (same : base.className = configuration.className) :
    check configuration = .error (.sameBaseName base.className) := by
  have family : configuration.family.isOneToOne = true := formed.paired_iff.mpr (by simp [paired])
  simp [check, family, paired, same]

/-- Whatever has been locked can be generated, and so can the class of a base inside it. The one
exception is a pairing over a base of its own name, which is refused under that name. -/
theorem generates_of_locked {builder : Builder} (declared : builder.Declared)
    (locked : builder.isLocked = true) (options : CompileOptions) (helperDirectory : String) :
    (∃ contribution,
      Contribution.ofConfiguration options builder.configuration = .ok contribution) ∧
    ((∀ link base, builder.configuration.pairing? = some (link, base) →
        base.className ≠ builder.configuration.className) →
      ∃ source, ofConfiguration builder.configuration options helperDirectory = .ok source) ∧
    ∀ link base, builder.configuration.pairing? = some (link, base) →
      (∃ nested, Contribution.ofConfiguration options base = .ok nested) ∧
      (base.className = builder.configuration.className →
        ofConfiguration builder.configuration options helperDirectory =
          .error (.sameBaseName base.className)) := by
  have formed := declared.sound.wellFormed locked
  obtain ⟨contribution, written⟩ := Contribution.exists_ofConfiguration_ok options formed
  refine ⟨⟨contribution, written⟩, ?_, ?_⟩
  · intro distinct
    exact exists_bind_ok (check_distinct formed distinct) (exists_bind_ok written ⟨_, rfl⟩)
  · intro link base paired
    refine ⟨Contribution.exists_ofConfiguration_ok options (formed.base paired), ?_⟩
    intro same
    unfold ofConfiguration
    rw [check_namesake formed paired same]
    rfl

theorem generates_of_locked_pairs :
    let owners : Builder := Builder.performAll ⟨⟨.map, .start⟩, .empty "CarOwners" (.map .weak)⟩
      [.addMapKey "car" "The car." true {}, .addMapKey "owner" "The owner." false {}, .lock]
    let paired : String → Builder := fun name =>
      Builder.performAll ⟨⟨.oneToOne, .start⟩, .empty name .oneToOne⟩
        [.configurePairing (.builder owners) "car" none, .lock]
    (paired "CarPairs").isLocked = true ∧
      (∃ source, ofConfiguration (paired "CarPairs").configuration {} "./keys" = .ok source) ∧
      (paired "CarOwners").isLocked = true ∧
      ofConfiguration (paired "CarOwners").configuration {} "./keys" =
        .error (.sameBaseName "CarOwners") := by
  intro owners paired
  have created : Builder.create "CarOwners" .weakMap none =
      .ok ⟨⟨.map, .start⟩, .empty "CarOwners" (.map .weak)⟩ := rfl
  have base : owners.Declared :=
    (Builder.Declared.created created).performAll _ (by simp [Call.base?])
  have declared : ∀ name, Builder.create name .oneToOne none =
      .ok ⟨⟨.oneToOne, .start⟩, .empty name .oneToOne⟩ → (paired name).Declared := by
    intro name made
    refine (Builder.Declared.created made).performAll _ ?_
    intro call member other handed
    simp only [List.mem_cons, List.not_mem_nil, or_false] at member
    rcases member with rfl | rfl
    · exact Option.some.inj handed ▸ base
    · cases handed
  have locked : (paired "CarPairs").isLocked = true := by decide
  have namesake : (paired "CarOwners").isLocked = true := by decide
  refine ⟨locked, ?_, namesake, ?_⟩
  · apply (generates_of_locked (declared "CarPairs" rfl) locked {} "./keys").2.1
    intro link base linked
    cases linked
    decide
  · exact ((generates_of_locked (declared "CarOwners" rfl) namesake {} "./keys").2.2 _ _ rfl).2 rfl

end SourceModule

end CompositeKeys.Emission
