import CompositeKeys.Emission.Variant
import CompositeKeys.Proofs.Collection.Order

/-! The template that is selected for a declaration. It is the one of the family, except that a map
of sets with a single key on a side and no weak elements has a form that uses that key directly. -/

namespace CompositeKeys.Emission

def Extent.retention (extent : Extent) : Retention := if extent.isWeak then .weak else .strong

/-- The template of the forms for a single key on a side. -/
def Extents.template (extents : Extents) : Template :=
  .mapOfSets (if extents.mapKeys.isOne then .direct else keyingOf extents.mapKeys.retention)
    extents.mapKeys.isWeak (if extents.elements.isOne then .direct else .hashed)

namespace Variant

theorem template_of_ofExtents? {extents : Extents} {variant : Variant}
    (form : ofExtents? extents = some variant) :
    extents.elements.isWeak = false ∧ variant.template = extents.template := by
  rcases extents with ⟨⟨oneKey, weakKeys⟩, oneElement, weakElements⟩
  cases weakElements with
  | true => exact nomatch form
  | false =>
    refine ⟨rfl, ?_⟩
    cases oneKey <;> cases oneElement <;> cases weakKeys <;> cases form <;> rfl

theorem select_template (own : Declaration) (disableSpecialization : Bool) :
    (select own disableSpecialization).template = (nominal own.family).template ∨
      own.family.isMapOfSets = true ∧ ∃ extents, Extents.of? own = some extents ∧
        extents.elements.isWeak = false ∧
        (select own disableSpecialization).template = extents.template := by
  unfold select
  split
  · exact .inl rfl
  next layered =>
    have kind : own.family.isMapOfSets = true := by simp_all
    cases form : (Extents.of? own).bind ofExtents? with
    | none => exact .inl rfl
    | some variant =>
      obtain ⟨extents, counted, chosen⟩ := Option.bind_eq_some_iff.mp form
      obtain ⟨strong, same⟩ := template_of_ofExtents? chosen
      exact .inr ⟨kind, extents, counted, strong, same⟩

theorem select_template_of_single {own : Declaration} (single : own.family.isMapOfSets = false)
    (disableSpecialization : Bool) :
    (select own disableSpecialization).template = (nominal own.family).template := by
  rcases select_template own disableSpecialization with nominal | ⟨layers, _⟩
  · exact nominal
  · exact nomatch layers.symm.trans single

/-- Only the paired family takes the paired template. -/
theorem select_template_paired_iff (own : Declaration) (disableSpecialization : Bool) :
    (select own disableSpecialization).template = .paired ↔ own.family.isOneToOne = true := by
  rcases select_template own disableSpecialization with same | ⟨kind, extents, _, _, same⟩
  · rw [same]
    cases own.family <;> simp [template, Family.isOneToOne]
  · rw [same, (Family.of_isMapOfSets kind).2.2]
    simp [Extents.template]

end Variant

namespace Bindings

theorem ofConfiguration_ok {configuration : Configuration} {bindings : Bindings}
    (bound : ofConfiguration configuration = .ok bindings) :
    bindings.arguments = configuration.own.argumentNames ∧
      bindings.mapKeys = configuration.own.mapKeys.map Dimension.name ∧
      bindings.setElements = configuration.own.setElements.map Dimension.name ∧
      bindings.partition = configuration.own.partition := by
  unfold ofConfiguration at bound
  dsimp only at bound
  split at bound
  · cases bound
  · cases bound
    exact ⟨rfl, rfl, rfl, rfl⟩

/-- Only a paired collection without its base has no bindings. -/
theorem exists_ofConfiguration_ok {configuration : Configuration}
    (paired : configuration.family.isOneToOne = true → configuration.pairing?.isSome = true) :
    ∃ bindings, ofConfiguration configuration = .ok bindings ∧
      bindings.pairing.isSome = configuration.pairing?.isSome := by
  unfold ofConfiguration
  refine ⟨_, if_neg ?_, Option.isSome_map⟩
  intro missing
  simp only [Option.isNone_map, Bool.and_eq_true, Option.isNone_iff_eq_none] at missing
  simpa [missing.1] using paired missing.2

end Bindings

end CompositeKeys.Emission
