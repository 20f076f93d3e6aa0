import CompositeKeys.Proofs.Collection.Declared
import CompositeKeys.Proofs.Emission.BlockLines
import CompositeKeys.Proofs.Emission.Documentation
import CompositeKeys.Proofs.Emission.Writing

/-! The documentation that a class is written from: the dimensions that it lists and the entry that it
has under each name. The entries are those of a table, but two of them depend on the class. -/

namespace CompositeKeys

/-- A value has no place among the names by role, so no key is one. -/
theorem Declaration.Consistent.keys {own : Declaration} (consistent : own.Consistent) :
    ∀ dimension ∈ own.dimensions, dimension.role ≠ .value := by
  have none := consistent.partitioned .value
  simpa [Partition.names] using none

namespace Emission
open Text

/-- The entry of a table under a name. -/
def Flavor.under? (flavor : Flavor) (name : String) : Option Entry :=
  (flavor.entries.find? fun row => row.1 = name).map Prod.snd

namespace Documentation
variable {documentation next : Documentation}

/-- The entry under a name, and whether it has been filled in. -/
def found? (documentation : Documentation) (name : String) : Option (Entry × Bool) :=
  (documentation.entries.find? fun row => row.1 = name).map Prod.snd

theorem entry_ok_iff {name : String} {entry : Entry} :
    documentation.entry name = .ok entry ↔ ∃ done, documentation.found? name = some (entry, done) := by
  unfold Documentation.entry found?
  cases documentation.entries.find? fun row => row.1 = name with
  | none => simp
  | some row =>
    obtain ⟨_, _, done⟩ := row
    simp

/-- A block has the lines of its entry, each with the indentation and without the blanks at its end. -/
theorem block_of_entry {name : String} {entry : Entry}
    (found : documentation.entry name = .ok entry) (indent : String) :
    documentation.block name indent = .ok (String.join ((documentation.blockLines entry).map
      fun line => indent ++ trimEnd line ++ "\n")) :=
  bind_eq_ok.mpr ⟨entry, found, rfl⟩

theorem underBlank_eq (lines : List String) : ∃ margin, underBlank lines = margin ++ lines := by
  unfold underBlank
  split
  next none => exact ⟨[], by rw [none]; rfl⟩
  · exact ⟨[" *"], rfl⟩

/-- The table of the rows stands in a block as it is. -/
theorem blockLines_around_table (documentation : Documentation) (entry : Entry) :
    ∃ before after, documentation.blockLines entry =
      before ++ ParameterRow.table (documentation.rows entry) ++ after := by
  obtain ⟨margin, same⟩ := underBlank_eq (ParameterRow.table (documentation.rows entry))
  refine ⟨["/**"] ++ (lines entry.description).map (" * " ++ ·) ++
    underBlank (entry.headers.map (" * " ++ ·)) ++ margin,
    underBlank (resultLine entry) ++ underBlank (entry.footers.map (" * " ++ ·)) ++ [" */"], ?_⟩
  simp only [blockLines_eq, leadLines, same, List.append_assoc]

theorem find_replaced {α : Type} (rows : List (String × α)) (fresh : String × α) (other : String) :
    (rows.map fun row => if row.1 = fresh.1 then fresh else row).find? (fun row => row.1 = other) =
      if other = fresh.1 ∧ fresh.1 ∈ rows.map Prod.fst then some fresh
      else rows.find? fun row => row.1 = other := by
  obtain ⟨name, value⟩ := fresh
  induction rows with
  | nil => simp
  | cons row rows ih =>
    rw [List.map_cons, List.find?_cons, List.find?_cons, ih]
    by_cases wanted : other = name
    · obtain rfl := wanted
      by_cases same : row.1 = other
      · simp [same]
      · have elsewhere : other ∈ (row :: rows).map Prod.fst ↔ other ∈ rows.map Prod.fst := by
          rw [List.map_cons, List.mem_cons, or_iff_right (Ne.symm same)]
        simp only [same, elsewhere, if_false, decide_false]
    · by_cases same : row.1 = name
      · simp [same, wanted, Ne.symm wanted]
      · simp [same, wanted]

/-- An entry comes in under its name, and every other name keeps its entry. -/
theorem add_ok {name : String} {entry : Entry} (added : documentation.add name entry = .ok next) :
    next = { documentation with entries := next.entries } ∧
      ∀ other, next.found? other =
        if other = name then some (entry, false) else documentation.found? other := by
  obtain ⟨_, _, added⟩ := bind_eq_ok.mp added
  obtain rfl := pure_eq_ok.mp added
  refine ⟨rfl, fun other => ?_⟩
  unfold found?
  dsimp only
  split
  next known =>
    have present : name ∈ documentation.entries.map Prod.fst := has_iff.mp known
    rw [find_replaced documentation.entries (name, entry, false) other]
    by_cases wanted : other = name <;> simp [wanted, present]
  next unknown =>
    have absent : ∀ row ∈ documentation.entries, row.1 ≠ name := by
      intro row member same
      exact unknown (has_iff.mpr (List.mem_map.mpr ⟨row, member, same⟩))
    have none : documentation.entries.find? (fun row => row.1 = name) = none := by
      simpa using absent
    rw [List.find?_append]
    by_cases wanted : other = name
    · simp [wanted, none]
    · simp [wanted, Ne.symm wanted]

theorem found_filled (documentation : Documentation) (name : String) :
    documentation.filled.found? name = (documentation.found? name).map fun (entry, done) =>
      (if done then entry else entry.fill documentation.placeholders.fill, true) := by
  simp [found?, filled, List.find?_map, Function.comp_def]

theorem addKeys (dimensions : List Dimension)
    (keys : ∀ dimension ∈ dimensions, dimension.role ≠ .value) (documentation : Documentation) :
    dimensions.foldl addDimension documentation =
      { documentation with arguments := documentation.arguments ++ dimensions } := by
  induction dimensions generalizing documentation with
  | nil => simp
  | cons dimension dimensions ih =>
    obtain ⟨key, others⟩ := List.forall_mem_cons.mp keys
    rw [List.foldl_cons, ih others, addDimension, if_neg key]
    simp

theorem addValue (value : Option Dimension) (role : ∀ dimension ∈ value, dimension.role = .value)
    (documentation : Documentation) :
    value.toList.foldl addDimension documentation =
      { documentation with value := value.or documentation.value } := by
  cases value with
  | none => rfl
  | some value => simp [addDimension, role value rfl]

end Documentation

/-- The keys that the documentation of a class lists. A paired collection lists those of its base that
are left to its callers. -/
def shownKeys : Configuration → List Dimension
  | .plain own => own.dimensions
  | .paired _ link base => link.sources base

def shownValue? : Configuration → Option Dimension
  | .plain own => own.value
  | .paired _ _ _ => none

theorem shownType_legal {dimension : Dimension} (checked : dimension.Checked) (checkedTypes : Bool) :
    LegalText (shownType checkedTypes dimension) := by
  unfold shownType
  split
  · exact checked.checkedType
  · exact checked.documentType

/-- What the placeholders stand for in a class. -/
def placeholdersOf (part : Configuration) (checkedTypes : Bool) : Placeholders where
  className := part.className
  valueType := ((shownValue? part).map (shownType checkedTypes)).getD "*"
  valueDescription := ((shownValue? part).map Dimension.description).getD "The value."
  arguments := ", ".intercalate ((shownKeys part).map Dimension.name)

/-- The table that a class is documented from. -/
def tableOf : Configuration → Flavor
  | .plain _ => .collection
  | .paired _ link base => if link.sources base = [] then .pairedSingle else .pairedDouble

/-- The entry that a class has under a name before it is filled in. -/
def entryOf? (part : Configuration) (checkedTypes yieldsKeys : Bool) (name : String) :
    Option Entry :=
  if yieldsKeys ∧ name = "values" then some .keySets
  else if tableOf part = .pairedDouble ∧ name = "bindOneToOne" then
    some (.binding (shownKeys part) checkedTypes)
  else (tableOf part).under? name

/-- Documentation of a class before it is filled in. -/
structure Drafts (part : Configuration) (checkedTypes yieldsKeys : Bool)
    (draft : Documentation) : Prop where
  className : draft.className = part.className
  typed : draft.checkedTypes = checkedTypes
  arguments : draft.arguments = shownKeys part
  value : draft.value = shownValue? part
  found : ∀ name, draft.found? name =
    (entryOf? part checkedTypes yieldsKeys name).map fun entry => (entry, false)

section Drafts
variable {part : Configuration} {bindings : Bindings} {checkedTypes yieldsKeys : Bool}
  {draft documentation next : Documentation}

theorem entryOf_cases {name : String} {entry : Entry}
    (written : entryOf? part checkedTypes yieldsKeys name = some entry) :
    entry = .keySets ∨ entry = .binding (shownKeys part) checkedTypes ∨
      ∃ row ∈ (tableOf part).entries, row.2 = entry := by
  unfold entryOf? at written
  split at written
  · exact .inl (Option.some.inj written).symm
  · split at written
    · exact .inr (.inl (Option.some.inj written).symm)
    · obtain ⟨row, first, same⟩ := Option.map_eq_some_iff.mp written
      exact .inr (.inr ⟨row, List.mem_of_find?_eq_some first, same⟩)

theorem entryOf_table (part : Configuration) (checkedTypes yieldsKeys : Bool) {name : String}
    (plain : name ∉ ["values", "bindOneToOne"]) :
    entryOf? part checkedTypes yieldsKeys name = (tableOf part).under? name := by
  simp only [List.mem_cons, List.not_mem_nil, or_false, not_or] at plain
  simp [entryOf?, plain]

theorem Drafts.typeOf (drafts : Drafts part checkedTypes yieldsKeys draft) (dimension : Dimension) :
    draft.typeOf dimension = shownType checkedTypes dimension := by
  rw [Documentation.typeOf, drafts.typed, shownType]

theorem Drafts.placeholders (drafts : Drafts part checkedTypes yieldsKeys draft) :
    draft.placeholders = placeholdersOf part checkedTypes := by
  rw [Documentation.placeholders, placeholdersOf, drafts.className, drafts.value, drafts.arguments,
    funext drafts.typeOf]

/-- What stands under a name in the end is what the draft has there, filled in. -/
theorem Drafts.entry_filled_iff (drafts : Drafts part checkedTypes yieldsKeys draft) {name : String}
    {entry : Entry} : draft.filled.entry name = .ok entry ↔
      ∃ written, entryOf? part checkedTypes yieldsKeys name = some written ∧
        written.fill (placeholdersOf part checkedTypes).fill = entry := by
  rw [Documentation.entry_ok_iff, Documentation.found_filled, drafts.found, drafts.placeholders]
  simp

theorem flavor_ofBindings (bound : Bindings.ofConfiguration part = .ok bindings) :
    Flavor.ofBindings bindings = tableOf part := by
  unfold Bindings.ofConfiguration at bound
  dsimp only at bound
  split at bound
  · cases bound
  · cases bound
    cases part with
    | plain own => rfl
    | paired own link base =>
      simp [Flavor.ofBindings, tableOf, Configuration.pairing?, PairingBindings.ofLink,
        PairingBindings.isSingle]

theorem shownKeys_keys (formed : part.WellFormed) :
    ∀ dimension ∈ shownKeys part, dimension.role ≠ .value := by
  cases part with
  | plain own => exact formed.own.toConsistent.keys
  | paired own link base =>
    exact fun dimension member =>
      (formed.base rfl).own.toConsistent.keys dimension (List.mem_of_mem_filter member)

theorem shownKeys_named (formed : part.WellFormed) :
    ∀ dimension ∈ shownKeys part, LegalName dimension.name := by
  cases part with
  | plain own => exact formed.own.named
  | paired own link base =>
    exact fun dimension member =>
      (formed.base rfl).own.named dimension (List.mem_of_mem_filter member)

theorem shownKeys_checked (formed : part.WellFormed) :
    ∀ dimension ∈ shownKeys part, dimension.Checked := by
  cases part with
  | plain own => exact formed.own.checked
  | paired own link base =>
    exact fun dimension member =>
      (formed.base rfl).own.checked dimension (List.mem_of_mem_filter member)

theorem shownValue_checked (formed : part.WellFormed) :
    ∀ value ∈ shownValue? part,
      value.name = valueName ∧ value.Checked ∧ part.own.family.isMap = true := by
  cases part with
  | plain own =>
    intro value member
    obtain ⟨named, -, checked⟩ := formed.own.valueChecked value member
    have valued : own.value.isSome = true := Option.isSome_iff_exists.mpr ⟨value, member⟩
    cases formed with
    | plain declared => exact ⟨named, checked, declared.valued valued⟩
  | paired => exact nofun

theorem placeholdersOf_legal (formed : part.WellFormed) (checkedTypes : Bool) :
    LegalText (placeholdersOf part checkedTypes).valueType ∧
      LegalText (placeholdersOf part checkedTypes).valueDescription := by
  have unknown : LegalText "*" := (@checkText_ok_iff "" _).mp rfl
  have value : LegalText "The value." := (@checkText_ok_iff "" _).mp rfl
  unfold placeholdersOf
  cases shown : shownValue? part with
  | none => exact ⟨unknown, value⟩
  | some value =>
    obtain ⟨-, checked, -⟩ := shownValue_checked formed value shown
    exact ⟨shownType_legal checked checkedTypes, checked.description⟩

theorem Documentation.ofFlavor_found {flavor : Flavor} {className : String}
    (begun : ofFlavor flavor className checkedTypes = .ok documentation) :
    documentation = { className, checkedTypes, entries := documentation.entries } ∧
      ∀ name, documentation.found? name = (flavor.under? name).map fun entry => (entry, false) := by
  obtain rfl := Except.ok.inj ((ofFlavor_eq ..).symm.trans begun)
  refine ⟨rfl, fun name => ?_⟩
  simp [found?, Flavor.under?, List.find?_map, Function.comp_def]

theorem Documentation.plain_drafts {own : Declaration} (formed : own.WellFormed)
    (bound : Bindings.ofConfiguration (.plain own) = .ok bindings)
    (made : ofConfiguration (.plain own) bindings checkedTypes = .ok documentation) :
    Drafts (.plain own) checkedTypes false documentation := by
  obtain ⟨start, begun, made⟩ := bind_eq_ok.mp made
  rw [flavor_ofBindings bound] at begun
  obtain ⟨fresh, found⟩ := ofFlavor_found begun
  obtain rfl := pure_eq_ok.mp made
  rw [List.foldl_append]
  change Drafts _ _ _ (own.value.toList.foldl addDimension (own.dimensions.foldl addDimension _))
  rw [addKeys own.dimensions formed.toConsistent.keys, addValue own.value fun value valued =>
    (formed.toConsistent.valueChecked value valued).2.1]
  have listed : ∀ name, entryOf? (.plain own) checkedTypes false name =
      (tableOf (.plain own)).under? name := by
    simp [entryOf?, tableOf]
  rw [fresh]
  refine ⟨rfl, rfl, rfl, Option.or_none, fun name => ?_⟩
  rw [listed]
  exact found name

theorem Documentation.paired_drafts {own : Declaration} {link : Link} {base : Configuration}
    (formed : (Configuration.paired own link base).WellFormed)
    (bound : Bindings.ofConfiguration (.paired own link base) = .ok bindings)
    (made : ofConfiguration (.paired own link base) bindings checkedTypes = .ok documentation) :
    Drafts (.paired own link base) checkedTypes false documentation := by
  obtain ⟨start, begun, made⟩ := bind_eq_ok.mp made
  rw [flavor_ofBindings bound] at begun made
  obtain ⟨fresh, found⟩ := ofFlavor_found begun
  dsimp only [Configuration.pairing?] at made
  by_cases none : link.sources base = []
  · have single : tableOf (.paired own link base) = .pairedSingle := by simp [tableOf, none]
    rw [if_pos single] at made
    obtain rfl := pure_eq_ok.mp made
    rw [fresh]
    refine ⟨rfl, rfl, none.symm, rfl, fun name => ?_⟩
    have listed : entryOf? (.paired own link base) checkedTypes false name =
        (tableOf (.paired own link base)).under? name := by
      simp [entryOf?, single]
    rw [listed]
    exact found name
  · have double : tableOf (.paired own link base) = .pairedDouble := by simp [tableOf, none]
    rw [if_neg (by simp [double])] at made
    obtain ⟨listed, added, made⟩ := bind_eq_ok.mp made
    obtain ⟨same, foundListed⟩ := add_ok added
    obtain rfl := pure_eq_ok.mp made
    rw [addKeys (link.sources base) (shownKeys_keys formed), same, fresh]
    refine ⟨rfl, rfl, rfl, rfl, fun name => (foundListed name).trans ?_⟩
    rw [found, entryOf?]
    by_cases wanted : name = "bindOneToOne" <;> simp [wanted, double, shownKeys]

/-- A collection of key sets says so under `values`. -/
theorem Drafts.keyed (drafts : Drafts part checkedTypes false draft)
    (added : draft.add "values" .keySets = .ok next) : Drafts part checkedTypes true next := by
  obtain ⟨same, found⟩ := Documentation.add_ok added
  refine ⟨?_, ?_, ?_, ?_, fun name => ?_⟩
  · exact (congrArg Documentation.className same).trans drafts.className
  · exact (congrArg Documentation.checkedTypes same).trans drafts.typed
  · exact (congrArg Documentation.arguments same).trans drafts.arguments
  · exact (congrArg Documentation.value same).trans drafts.value
  · rw [found, drafts.found, entryOf?, entryOf?]
    by_cases wanted : name = "values" <;> simp [wanted]

end Drafts

namespace Contribution
variable {options : CompileOptions} {definition : ClassDefinition}

/-- The class of a well-formed configuration is documented by a draft that has been filled in. -/
theorem Writes.drafts {part : Configuration} (formed : part.WellFormed)
    (written : Writes options part definition) :
    ∃ draft, definition.documentation = draft.filled ∧ Drafts part options.checkedTypes
      (Variant.select part.own options.disableSpecialization).template.yieldsKeys draft := by
  obtain ⟨bindings, bound, defined⟩ := written
  obtain ⟨-, -, documentation, listed, documented, added, same⟩ :=
    ClassDefinition.ofConfiguration_ok defined
  have drafts : Drafts part options.checkedTypes false documentation := by
    cases part with
    | plain own => exact Documentation.plain_drafts formed.own bound documented
    | paired own link base => exact Documentation.paired_drafts formed bound documented
  refine ⟨listed, same, ?_⟩
  cases keyed : (Variant.select part.own options.disableSpecialization).template.yieldsKeys with
  | true =>
    rw [keyed] at added
    exact drafts.keyed added
  | false =>
    rw [keyed] at added
    exact pure_eq_ok.mp added ▸ drafts

/-- Every class that is generated from a locked declaration is written from a well-formed part of it. -/
theorem part_of_locked {builder : Builder} (declared : builder.Declared)
    (locked : builder.isLocked = true) {helperDirectory : String} {source : SourceModule}
    (made : SourceModule.ofConfiguration builder.configuration options helperDirectory =
      .ok source) :
    ∀ definition ∈ source.contribution.classes, ∃ part ∈ parts builder.configuration,
      part.WellFormed ∧ Writes options part definition := by
  intro definition among
  obtain ⟨contribution, contributed, rfl⟩ := SourceModule.ofConfiguration_ok made
  obtain ⟨part, inside, written⟩ := part_of_class contributed among
  have based : ∀ own link base, (Configuration.paired own link base).WellFormed → base.WellFormed :=
    fun own link base formed => formed.base rfl
  exact ⟨part, inside, keeps_parts based (declared.sound.wellFormed locked) part inside, written⟩

end Contribution

end Emission

end CompositeKeys
