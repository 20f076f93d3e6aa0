import CompositeKeys.Emission.SourceModule
import CompositeKeys.Proofs.Refusal
import Mathlib.Data.List.Nodup

/-! Documentation that can be written. An entry is refused exactly when it is not usable, and every
default entry is usable. A name that has been entered keeps its entry, so every block that a
template asks for is there: its members are documented under names of the table of its flavor. -/

namespace CompositeKeys.Emission

/-- A type definition has header lines and lists nothing; any other entry has a result, unless it
is a property or returns nothing. -/
def Entry.Usable (entry : Entry) : Prop :=
  if entry.isTypeDefinition then entry.listed = .none ∧ entry.headers ≠ []
  else entry.returnsNothing ∨ entry.isProperty ∨
    entry.resultType.isSome ∧ entry.resultDescription.isSome

instance (entry : Entry) : Decidable entry.Usable := by
  unfold Entry.Usable
  infer_instance

theorem Entry.check_ok_iff {name : String} {entry : Entry} :
    entry.check name = .ok () ↔ entry.Usable := by
  unfold Entry.check Entry.Usable
  cases entry.isTypeDefinition with
  | true =>
    by_cases listed : entry.listed = .none <;> by_cases headers : entry.headers = [] <;>
      simp [listed, headers]
  | false =>
    cases entry.returnsNothing <;> cases entry.isProperty <;> cases entry.resultType <;>
      cases entry.resultDescription <;> simp

example : ¬ ({ description := "Lists the keys.", resultType := some "Iterator" } : Entry).Usable := by
  decide +kernel

/-- The type of a dimension that documentation shows. -/
def shownType (checkedTypes : Bool) (dimension : Dimension) : String :=
  if checkedTypes then dimension.checkedType else dimension.documentType

@[simp] theorem Entry.fill_listed (entry : Entry) (fill : String → String) :
    (entry.fill fill).listed = entry.listed := rfl

def Flavor.names (flavor : Flavor) : List String := flavor.entries.map Prod.fst

theorem Flavor.entries_usable (flavor : Flavor) : ∀ row ∈ flavor.entries, row.2.Usable := by
  cases flavor with
  | collection => decide
  | pairedSingle => decide
  | pairedDouble => decide

theorem Flavor.names_nodup (flavor : Flavor) : flavor.names.Nodup := by
  cases flavor with
  | collection => decide +kernel
  | pairedSingle => decide +kernel
  | pairedDouble => decide +kernel

namespace Documentation

def names (documentation : Documentation) : List String := documentation.entries.map Prod.fst

theorem has_iff {documentation : Documentation} {name : String} :
    documentation.has name = true ↔ name ∈ documentation.names := by
  simp [has, names]

/-- A usable entry comes in under its name, and no other name goes. -/
theorem exists_add_ok {entry : Entry} (usable : entry.Usable) (documentation : Documentation)
    (name : String) :
    ∃ next, documentation.add name entry = .ok next ∧
      ∀ other, other ∈ next.names ↔ other = name ∨ other ∈ documentation.names := by
  refine ⟨_, bind_eq_ok.mpr ⟨(), Entry.check_ok_iff.mpr usable, rfl⟩, ?_⟩
  intro other
  split
  next known =>
    have kept : ((fun row : String × Entry × Bool => row.1) ∘ fun row =>
        if row.1 = name then (name, entry, false) else row) = fun row => row.1 := by
      funext row
      by_cases same : row.1 = name <;> simp [same]
    have present := has_iff.mp known
    simp only [names, List.map_map]
    rw [show (Prod.fst : String × Entry × Bool → String) = fun row => row.1 from rfl, kept]
    exact ⟨.inr, fun either => either.elim (· ▸ present) id⟩
  · simp [names, or_comm]

theorem add_fresh {entry : Entry} (usable : entry.Usable) {documentation : Documentation}
    {name : String} (fresh : name ∉ documentation.names) :
    documentation.add name entry =
      .ok { documentation with entries := documentation.entries ++ [(name, entry, false)] } := by
  refine bind_eq_ok.mpr ⟨(), Entry.check_ok_iff.mpr usable, ?_⟩
  rw [← has_iff, Bool.not_eq_true] at fresh
  simp [fresh, pure, Except.pure]

/-- Entries under new names come in one after another. -/
theorem foldlM_add {rows : List (String × Entry)} (usable : ∀ row ∈ rows, row.2.Usable)
    (start : Documentation) (fresh : (start.names ++ rows.map Prod.fst).Nodup) :
    rows.foldlM (fun documentation row => documentation.add row.1 row.2) start =
      .ok { start with entries := start.entries ++ rows.map fun row => (row.1, row.2, false) } := by
  induction rows generalizing start with
  | nil => simp [pure, Except.pure]
  | cons row rows ih =>
    obtain ⟨first, others⟩ := List.forall_mem_cons.mp usable
    rw [List.map_cons, List.append_cons] at fresh
    have absent : row.1 ∉ start.names :=
      fun among => List.disjoint_of_nodup_append fresh.of_append_left among (.head _)
    refine bind_eq_ok.mpr ⟨_, add_fresh first absent, ?_⟩
    rw [ih others _ (by simpa [names] using fresh)]
    simp

theorem ofFlavor_eq (flavor : Flavor) (className : String) (checkedTypes : Bool) :
    ofFlavor flavor className checkedTypes = .ok
      { className
        checkedTypes
        entries := flavor.entries.map fun row => (row.1, row.2, false) } :=
  foldlM_add flavor.entries_usable { className, checkedTypes } flavor.names_nodup

theorem exists_ofFlavor_ok (flavor : Flavor) (className : String) (checkedTypes : Bool) :
    ∃ documentation, ofFlavor flavor className checkedTypes = .ok documentation ∧
      ∀ name ∈ flavor.names, name ∈ documentation.names :=
  ⟨_, ofFlavor_eq flavor className checkedTypes,
    fun name member => by simpa [names, Flavor.names] using member⟩

@[simp] theorem addDimension_names (documentation : Documentation) (dimension : Dimension) :
    (documentation.addDimension dimension).names = documentation.names := by
  unfold addDimension
  split <;> rfl

@[simp] theorem addDimensions_names (dimensions : List Dimension) (documentation : Documentation) :
    (dimensions.foldl addDimension documentation).names = documentation.names := by
  induction dimensions generalizing documentation with
  | nil => rfl
  | cons dimension dimensions ih => rw [List.foldl_cons, ih, addDimension_names]

theorem mem_listed {documentation : Documentation} {listed : ListedArguments} {dimension : Dimension}
    (member : dimension ∈ documentation.listed listed) :
    dimension ∈ documentation.arguments ++ documentation.value.toList := by
  cases listed with
  | none => cases member
  | value => exact List.mem_append_right _ member
  | all => exact member
  | mapOnly | setOnly => exact List.mem_append_left _ (List.mem_of_mem_filter member)
  | exceptValue => exact List.mem_append_left _ member

theorem mem_rows {documentation : Documentation} {entry : Entry} {dimension : Dimension}
    (listed : dimension ∈ documentation.listed entry.listed) :
    { typeName := documentation.typeOf dimension, name := dimension.name
      description := dimension.description } ∈ documentation.rows entry :=
  List.mem_append_left _ (List.mem_append_right _ (List.mem_map.mpr ⟨dimension, listed, rfl⟩))

@[simp] theorem filled_listed (documentation : Documentation) (listed : ListedArguments) :
    documentation.filled.listed listed = documentation.listed listed := by
  cases listed <;> rfl

@[simp] theorem filled_names (documentation : Documentation) :
    documentation.filled.names = documentation.names := by
  simp [filled, names]

theorem exists_block_ok {documentation : Documentation} {name : String}
    (present : name ∈ documentation.names) (indent : String) :
    ∃ text, documentation.block name indent = .ok text := by
  obtain ⟨row, member, same⟩ := List.mem_map.mp present
  have found : (documentation.entries.find? fun row => row.1 = name).isSome = true := by
    simp only [List.find?_isSome, decide_eq_true_eq]
    exact ⟨row, member, same⟩
  obtain ⟨⟨_, entry, _⟩, first⟩ := Option.isSome_iff_exists.mp found
  refine ⟨_, bind_eq_ok.mpr ⟨entry, ?_, rfl⟩⟩
  simp [Documentation.entry, first]

/-- The documentation of a class has an entry for every name of its flavor, whatever dimensions it
lists. -/
theorem exists_ofConfiguration_ok (configuration : Configuration) (bindings : Bindings)
    (checkedTypes : Bool) :
    ∃ documentation, ofConfiguration configuration bindings checkedTypes = .ok documentation ∧
      ∀ name ∈ (Flavor.ofBindings bindings).names, name ∈ documentation.names := by
  obtain ⟨start, made, present⟩ :=
    exists_ofFlavor_ok (Flavor.ofBindings bindings) configuration.className checkedTypes
  unfold ofConfiguration
  cases configuration with
  | plain own =>
    refine ⟨_, bind_eq_ok.mpr ⟨start, made, rfl⟩, ?_⟩
    simpa only [addDimensions_names] using present
  | paired own link base =>
    by_cases single : Flavor.ofBindings bindings = .pairedSingle
    · refine ⟨start, bind_eq_ok.mpr ⟨start, made, ?_⟩, present⟩
      simp only [Configuration.pairing?, single, if_true]
      rfl
    · have usable : (Entry.binding (link.sources base) checkedTypes).Usable := .inl rfl
      obtain ⟨next, added, grown⟩ := exists_add_ok usable start "bindOneToOne"
      refine ⟨(link.sources base).foldl addDimension next, bind_eq_ok.mpr ⟨start, made, ?_⟩, ?_⟩
      · simp only [Configuration.pairing?, single, if_false]
        exact bind_eq_ok.mpr ⟨next, added, rfl⟩
      · intro name member
        rw [addDimensions_names]
        exact (grown name).mpr (.inr (present name member))

end Documentation

end CompositeKeys.Emission
