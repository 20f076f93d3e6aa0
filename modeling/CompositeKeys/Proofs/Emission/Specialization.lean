import CompositeKeys.Proofs.Emission.Generatable
import CompositeKeys.Proofs.Emission.KeyPlans
import CompositeKeys.Proofs.Emission.Placement

/-! What specialization leaves alone. The template of a map of sets has the members that callers see,
then those that stored keys pass through, then the checks. Only the second group hangs on the key
plans. The first one hangs on whether the template is weak, and every template that is selected for
a declaration is as weak as its family. -/

namespace CompositeKeys.Emission
open Text

/-- The private members that stored keys pass through. -/
def storageNames : List String :=
  ["#getInner", "#requireInner", "#deleteInner", "#innerAdd", "#innerHas", "#innerDelete",
    "#innerValues"]

def checkNames : List String := ["#isValidKey", "#isValidMapKey", "#isValidSetKey"]

/-- The private fields that make keys. -/
def keyFieldNames : List String := ["#mapHasher", "#setHasher", "#keyComposer"]

namespace ClassOutline

def publicMembers (outline : ClassOutline) : List Member := outline.members.filter Member.isPublic

def membersAmong (outline : ClassOutline) (names : List String) : List Member :=
  outline.members.filter fun member => member.head.name ∈ names

def keptFields (outline : ClassOutline) : List Variable :=
  outline.fields.filter fun field => field.name ∉ keyFieldNames

/-- Two classes of one interface: callers see the same members, keys pass the same checks, and
storage is called in the same way. -/
structure SameInterface (first second : ClassOutline) : Prop where
  name : first.name = second.name
  publicMembers : first.publicMembers = second.publicMembers
  checks : first.membersAmong checkNames = second.membersAmong checkNames
  storageHeads : (first.membersAmong storageNames).map Member.head =
    (second.membersAmong storageNames).map Member.head
  fields : first.keptFields = second.keptFields

/-- Public members come first, then storage, then the checks, and there is nothing else. -/
def InOrder (outline : ClassOutline) : Prop :=
  outline.members =
    outline.publicMembers ++ outline.membersAmong storageNames ++ outline.membersAmong checkNames

end ClassOutline

section MapOfSets
variable (bindings : Bindings) (weak : Bool) (outer outer' inner inner' : Keying)

theorem mapOfSets_inOrder : (mapOfSets bindings outer weak inner).InOrder := by
  unfold ClassOutline.InOrder ClassOutline.publicMembers ClassOutline.membersAmong mapOfSets
  cases weak <;>
    simp [storageNames, checkNames, Member.isPublic, Member.method, Member.accessor,
      Member.generator, Member.iterator, Member.toStringTag, Member.hidden]

theorem mapOfSets_sameInterface : ClassOutline.SameInterface
    (mapOfSets bindings outer weak inner) (mapOfSets bindings outer' weak inner') where
  name := rfl
  publicMembers := by
    unfold ClassOutline.publicMembers mapOfSets
    cases weak <;>
      simp [Member.isPublic, Member.method, Member.accessor, Member.generator, Member.iterator,
        Member.toStringTag, Member.hidden]
  checks := by cases weak <;> rfl
  storageHeads := by cases weak <;> rfl
  fields := by cases weak <;> cases outer <;> cases outer' <;> cases inner <;> cases inner' <;> rfl

end MapOfSets

namespace ClassDefinition

/-- The text of the members that callers see, documentation included. -/
def publicText (definition : ClassDefinition) : String :=
  textAt 1 (definition.documentation.strokesOf definition.outline.publicMembers)

def textAmong (definition : ClassDefinition) (names : List String) : String :=
  textAt 1 (definition.documentation.strokesOf (definition.outline.membersAmong names))

/-- A class whose text is that of its parts: what callers see stands between the fields and the
storage, and the checks come last. -/
structure InParts (definition : ClassDefinition) : Prop where
  order : definition.outline.InOrder
  text : definition.text = textAt 0 definition.front ++ definition.publicText ++
    definition.textAmong storageNames ++ definition.textAmong checkNames ++
    textAt 1 (.close :: freezing definition.outline.name)

/-- Two classes that read the same but for storage. -/
structure SamePublic (first second : ClassDefinition) : Prop where
  interface : first.outline.SameInterface second.outline
  documentation : first.documentation = second.documentation
  publicText : first.publicText = second.publicText
  checks : first.textAmong checkNames = second.textAmong checkNames

end ClassDefinition

structure SourceModule.HoldsParts (source : SourceModule) (definition : ClassDefinition) : Prop where
  classes : source.contribution.classes = [definition]
  written : definition.Written
  inParts : definition.InParts
  publicText : (tidy definition.publicText).toList <:+: source.text.toList
  checks : (tidy (definition.textAmong checkNames)).toList <:+: source.text.toList

section Layered
variable {own : Declaration} {bindings : Bindings} {first second : ClassDefinition}
  {general special : SourceModule} (formed : own.WellFormed)
  (layers : own.family.isMapOfSets = true) (here : general.Holds own bindings first)
include formed layers here

theorem SourceModule.Holds.outline_eq :
    ∃ outer inner, first.outline = mapOfSets bindings outer own.family.isWeak inner := by
  obtain ⟨outer, inner, chosen⟩ :=
    Variant.select_template_of_isMapOfSets formed layers general.options.disableSpecialization
  have outlined := (ClassDefinition.ofConfiguration_ok here.defined).1
  rw [chosen] at outlined
  exact ⟨outer, inner, (Except.ok.inj outlined).symm⟩

theorem SourceModule.Holds.parts : general.HoldsParts first := by
  obtain ⟨outlined, written, _⟩ := ClassDefinition.ofConfiguration_ok here.defined
  obtain ⟨outer, inner, same⟩ := here.outline_eq formed layers
  have settled := Template.outline_settled outlined
  have order : first.outline.InOrder := same ▸ mapOfSets_inOrder bindings _ outer inner
  have member : first ∈ general.contribution.classes := by simp [here.classes]
  refine ⟨here.classes, written, ⟨order, (written.text_around settled order).1⟩, ?_, ?_⟩
  · have first : first.outline.members = [] ++ first.outline.publicMembers ++
        (first.outline.membersAmong storageNames ++ first.outline.membersAmong checkNames) := by
      rw [List.nil_append, ← List.append_assoc]
      exact order
    exact SourceModule.members_isInfix member written settled first
  · have last : first.outline.members = first.outline.publicMembers ++
        first.outline.membersAmong storageNames ++ first.outline.membersAmong checkNames ++ [] := by
      rw [List.append_nil]
      exact order
    exact SourceModule.members_isInfix member written settled last

theorem SourceModule.Holds.documentation_eq (there : special.Holds own bindings second)
    (types : general.options.checkedTypes = special.options.checkedTypes) :
    first.documentation = second.documentation := by
  obtain ⟨_, _, chosen⟩ :=
    Variant.select_template_of_isMapOfSets formed layers general.options.disableSpecialization
  obtain ⟨_, _, chosen'⟩ :=
    Variant.select_template_of_isMapOfSets formed layers special.options.disableSpecialization
  obtain ⟨_, _, documentation, listed, documented, added, filled⟩ :=
    ClassDefinition.ofConfiguration_ok here.defined
  obtain ⟨_, _, documentation', listed', documented', added', filled'⟩ :=
    ClassDefinition.ofConfiguration_ok there.defined
  rw [← types] at documented'
  obtain rfl := Except.ok.inj (documented.symm.trans documented')
  simp only [chosen, chosen', Template.yieldsKeys, if_true] at added added'
  obtain rfl := Except.ok.inj (added.symm.trans added')
  rw [filled, filled']

theorem SourceModule.Holds.samePublic (there : special.Holds own bindings second)
    (types : general.options.checkedTypes = special.options.checkedTypes) :
    first.SamePublic second := by
  obtain ⟨outer, inner, same⟩ := here.outline_eq formed layers
  obtain ⟨outer', inner', same'⟩ := there.outline_eq formed layers
  have documentation := here.documentation_eq formed layers there types
  have interface : first.outline.SameInterface second.outline := by
    rw [same, same']
    exact mapOfSets_sameInterface bindings _ outer outer' inner inner'
  refine ⟨interface, documentation, ?_, ?_⟩
  · rw [ClassDefinition.publicText, ClassDefinition.publicText, documentation,
      interface.publicMembers]
  · rw [ClassDefinition.textAmong, ClassDefinition.textAmong, documentation, interface.checks]

end Layered

/-- Specialization changes nothing that callers of a map of sets see. Whether or not it is disabled,
a locked map of sets is generated as a module of one class; the members that callers see and the
checks are the same, in the same order and with the same text, and so is what the module says and
imports beside its key library. -/
theorem specialization_preserves_public {builder : Builder} (declared : builder.Declared)
    (locked : builder.isLocked = true) (layers : builder.configuration.family.isMapOfSets = true)
    (options : CompileOptions) (helperDirectory : String) :
    let generate := fun disableSpecialization => SourceModule.ofConfiguration builder.configuration
      { options with disableSpecialization } helperDirectory
    ∃ general special first second, generate true = .ok general ∧ generate false = .ok special ∧
      general.HoldsParts first ∧ special.HoldsParts second ∧ first.SamePublic second ∧
      general.className = special.className ∧ general.ahead = special.ahead ∧
      general.header = special.header ∧ general.imports = special.imports := by
  have formed := declared.sound.wellFormed locked
  obtain ⟨bindings, bound, _⟩ := Bindings.exists_ofConfiguration_ok formed.paired_iff.mp
  generalize builder.configuration = configuration at formed bound layers ⊢
  intro generate
  cases formed with
  | paired _ paired =>
    have single := (Family.of_isOneToOne paired).2.2.1
    exact nomatch layers.symm.trans single
  | @plain own formed unpaired =>
    obtain ⟨general, first, made, name, overview, sameOptions, holds⟩ :=
      SourceModule.exists_holds (.plain formed unpaired) bound
        { options with disableSpecialization := true } helperDirectory
    obtain ⟨special, second, made', name', overview', sameOptions', holds'⟩ :=
      SourceModule.exists_holds (.plain formed unpaired) bound
        { options with disableSpecialization := false } helperDirectory
    have types : general.options.checkedTypes = special.options.checkedTypes := by
      rw [sameOptions, sameOptions']
    refine ⟨general, special, first, second, made, made', holds.parts formed layers,
      holds'.parts formed layers, holds.samePublic formed layers holds' types, ?_, ?_, ?_, ?_⟩
    · rw [name, name']
    · simp [SourceModule.ahead, SourceModule.licenseComment, sameOptions, sameOptions']
    · simp [SourceModule.header, SourceModule.headerLines, overview, overview', sameOptions,
        sameOptions']
    · rw [holds.imports, holds'.imports]

/-- A map of sets with a single element, which does without a hasher for elements once it is
specialized. -/
theorem specialization_preserves_public_visits :
    let visits : Builder :=
      Builder.performAll ⟨⟨.mapOfSets, .start⟩, .empty "Visits" (.mapOfSets .weak)⟩
        [.addMapKey "guest" "The guest." true {}, .addMapKey "host" "The host." false {},
          .addSetElement "day" "The day." false { validator := some "day => day > 0" }, .lock]
    let generate := fun disableSpecialization =>
      SourceModule.ofConfiguration visits.configuration { disableSpecialization } "./keys"
    visits.isLocked = true ∧ visits.configuration.family.isMapOfSets = true ∧
      (Variant.select visits.configuration.own true).template = .mapOfSets .composite true .hashed ∧
      (Variant.select visits.configuration.own false).template = .mapOfSets .composite true .direct ∧
      ∃ general special first second, generate true = .ok general ∧ generate false = .ok special ∧
        general.HoldsParts first ∧ special.HoldsParts second ∧ first.SamePublic second ∧
        general.className = special.className ∧ general.ahead = special.ahead ∧
        general.header = special.header ∧ general.imports = special.imports := by
  intro visits generate
  have created : Builder.create "Visits" .weakMap (some .set) =
      .ok ⟨⟨.mapOfSets, .start⟩, .empty "Visits" (.mapOfSets .weak)⟩ := rfl
  have declared : visits.Declared :=
    (Builder.Declared.created created).performAll _ (by simp [Call.base?])
  have locked : visits.isLocked = true := by decide +kernel
  have layers : visits.configuration.family.isMapOfSets = true := by decide +kernel
  exact ⟨locked, layers, by decide +kernel, by decide +kernel,
    specialization_preserves_public declared locked layers {} "./keys"⟩

end CompositeKeys.Emission
