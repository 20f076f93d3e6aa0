import CompositeKeys.Proofs.Emission.Entries
import CompositeKeys.Proofs.Emission.Hygiene
import CompositeKeys.Proofs.Emission.KeyPlans
import CompositeKeys.Proofs.Emission.Placement

/-! The parameters that documentation lists beside those that a member takes. -/

namespace CompositeKeys.Emission
open Text

/-- The name of a parameter without the brackets that mark it as optional. -/
def bareName (name : String) : String :=
  match name.toList with
  | '[' :: rest => if rest.getLast? = some ']' then .ofList rest.dropLast else name
  | _ => name

/-- What an entry lists: fixed names around those of declared dimensions. -/
structure Signature where
  before : List String := []
  listed : ListedArguments := .none
  after : List String := []
  deriving DecidableEq, Repr

def Entry.signature (entry : Entry) : Signature where
  before := entry.rowsBefore.map fun row => bareName row.name
  listed := entry.listed
  after := entry.rowsAfter.map fun row => bareName row.name

def Signature.names (signature : Signature) (listing : ListedArguments → List String) :
    List String :=
  signature.before ++ listing signature.listed ++ signature.after

def Flavor.signature? (flavor : Flavor) (name : String) : Option Signature :=
  (flavor.under? name).map Entry.signature

theorem Flavor.collection_signatures : ∀ row ∈ ([
      ("constructor", { before := ["iterable"] }), ("size", {}), ("mapSize", {}), ("clear", {}),
      ("delete", { listed := .exceptValue }), ("deleteSets", { listed := .mapOnly }),
      ("entries", {}), ("forEach", { before := ["__callback__", "__thisArg__"] }),
      ("forEachSet", { listed := .mapOnly, after := ["__callback__", "__thisArg__"] }),
      ("get", { listed := .exceptValue }),
      ("getDefault", { listed := .exceptValue, after := ["__defaultGetter__"] }),
      ("getSizeOfSet", { listed := .mapOnly }), ("has", { listed := .exceptValue }),
      ("hasSets", { listed := .mapOnly }), ("isValidKey", { listed := .exceptValue }),
      ("isValidValue", { listed := .value }), ("keys", {}), ("set", { listed := .all }),
      ("add", { listed := .exceptValue }),
      ("addSets", { listed := .mapOnly, after := ["__sets__"] }), ("values", {}),
      ("valuesSet", { listed := .mapOnly }), ("iterator", {}), ("toStringTag", {})] : List (String × Signature)),
    Flavor.collection.signature? row.1 = some row.2 := by
  decide +kernel

theorem Flavor.pairedSingle_signatures : ∀ row ∈ ([
      ("constructor", {}), ("bindOneToOne", { before := ["value_1", "value_2"] }),
      ("delete", { before := ["value"] }), ("get", { before := ["value"] }),
      ("has", { before := ["value"] }), ("isValidValue", { before := ["value"] }),
      ("toStringTag", {})] : List (String × Signature)),
    Flavor.pairedSingle.signature? row.1 = some row.2 := by
  decide +kernel

theorem Flavor.pairedDouble_signatures : ∀ row ∈ ([
      ("constructor", {}), ("bindOneToOne", { before := ["value_1", "value_2"] }),
      ("delete", { before := ["value"], listed := .exceptValue }),
      ("get", { before := ["value"], listed := .exceptValue }),
      ("has", { before := ["value"], listed := .exceptValue }),
      ("hasIdentity",
        { before := ["value"], listed := .exceptValue, after := ["allowNotDefined"] }),
      ("isValidKey", { listed := .exceptValue }), ("isValidValue", { before := ["value"] }),
      ("toStringTag", {})] : List (String × Signature)),
    Flavor.pairedDouble.signature? row.1 = some row.2 := by
  decide +kernel

example : (Flavor.pairedDouble.signature? "hasIdentity").map (·.names fun _ => ["key"]) =
    some ["value", "key", "allowNotDefined"] := by decide +kernel

/-- A member whose entry lists its parameters, up to what is missing under the name of the entry. -/
def Member.Documented (signature? : String → Option Signature)
    (listing : ListedArguments → List String) (missing : String → List String) (member : Member) :
    Prop :=
  ∃ name signature, member.documentedAs = some name ∧ signature? name = some signature ∧
    signature.names listing ++ missing name = member.head.parameterNames

/-- The names of declared dimensions that an entry lists for a class. -/
def Bindings.listing (bindings : Bindings) (value : List String) : ListedArguments → List String
  | .none => []
  | .value => value
  | .all => bindings.arguments ++ value
  | .mapOnly => bindings.mapKeys
  | .setOnly => bindings.setElements
  | .exceptValue => bindings.arguments

/-- The parameters that take a value and are not documented unless a value is declared. -/
def missingValue (valued : Bool) (name : String) : List String :=
  if valued = false ∧ name ∈ ["set", "isValidValue"] then ["value"] else []

/-- A parameter or a list of some; a list without names would leave its place empty. -/
def Fragment.Spelled : Fragment → Prop
  | .own _ => True
  | .names declared => declared ≠ []
  | .literals _ => False

def Head.Spelled (head : Head) : Prop := ∀ fragment ∈ head.parameters, fragment.Spelled

section Templates
variable {bindings : Bindings}

theorem keyedMap_documented (keying : Keying) (weak valued : Bool) (keyed : bindings.arguments ≠ []) :
    ∀ member ∈ (keyedMap bindings keying weak).members,
      member.Documented Flavor.collection.signature?
        (bindings.listing (if valued then ["value"] else [])) (missingValue valued) ∧
      member.head.Spelled := by
  have table := Flavor.collection_signatures
  simp only [List.forall_mem_cons] at table
  unfold keyedMap
  cases weak <;> cases valued <;>
    simp [Member.Documented, table, Signature.names, Bindings.listing, missingValue,
      Head.parameterNames, Head.Spelled, Fragment.Spelled, keyed, Member.method, Member.accessor,
      Member.generator, Member.iterator, Member.toStringTag]

theorem keyedSet_documented (keying : Keying) (weak : Bool) (keyed : bindings.arguments ≠ []) :
    ∀ member ∈ (keyedSet bindings keying weak).members,
      member.Documented Flavor.collection.signature? (bindings.listing []) (fun _ => []) ∧
      member.head.Spelled := by
  have table := Flavor.collection_signatures
  simp only [List.forall_mem_cons] at table
  unfold keyedSet
  cases weak <;>
    simp [Member.Documented, table, Signature.names, Bindings.listing, Head.parameterNames,
      Head.Spelled, Fragment.Spelled, keyed, Member.method, Member.accessor, Member.generator,
      Member.iterator, Member.toStringTag]

theorem mapOfSets_documented (outer : Keying) (weak : Bool) (inner : Keying)
    (keyed : bindings.arguments ≠ []) (mapped : bindings.mapKeys ≠ []) :
    ∀ member ∈ (mapOfSets bindings outer weak inner).members, member.isPublic = true →
      member.Documented Flavor.collection.signature? (bindings.listing []) (fun _ => []) ∧
      member.head.Spelled := by
  have table := Flavor.collection_signatures
  simp only [List.forall_mem_cons] at table
  unfold mapOfSets
  cases weak <;>
    simp [Member.Documented, table, Signature.names, Bindings.listing, Head.parameterNames,
      Head.Spelled, Fragment.Spelled, keyed, mapped, Member.method, Member.accessor,
      Member.generator, Member.iterator, Member.toStringTag, Member.hidden, Member.isPublic]

end Templates

section Pairs
variable {pairing : PairingBindings} (className : String) {listing : ListedArguments → List String}
  (nothing : listing .none = [])
include nothing

theorem pairedMap_single_documented (single : pairing.isSingle = true) :
    ∀ member ∈ (pairedMap className pairing).members,
      member.Documented Flavor.pairedSingle.signature? listing (fun _ => []) ∧
      member.head.Spelled := by
  have table := Flavor.pairedSingle_signatures
  simp only [List.forall_mem_cons] at table
  simp [pairedMap, single, singleMembers, Member.Documented, table, Signature.names, nothing,
    Head.parameterNames, Head.Spelled, Fragment.Spelled, Member.method, Member.toStringTag]

/-- The entry of a binding of two key sequences lists both of them, each with its value. -/
theorem pairedMap_double_documented (double : pairing.isSingle = false)
    (keys : listing .exceptValue = pairing.sources) {signature? : String → Option Signature}
    (bound : signature? "bindOneToOne" = some
      { before := suffixed pairing.sources "_1" ++ ["value_1"] ++
          (suffixed pairing.sources "_2" ++ ["value_2"]) })
    (others : ∀ name, name ≠ "bindOneToOne" → signature? name = Flavor.pairedDouble.signature? name) :
    ∀ member ∈ (pairedMap className pairing).members,
      member.Documented signature? listing (fun _ => []) ∧ member.head.Spelled := by
  have table := Flavor.pairedDouble_signatures
  simp only [List.forall_mem_cons] at table
  have keyed : pairing.sources ≠ [] := by
    intro none
    simp [PairingBindings.isSingle, none] at double
  simp [pairedMap, double, doubleMembers, Member.Documented, bound, others, table, Signature.names,
    nothing, keys, suffixed, keyed, Head.parameterNames, Head.Spelled, Fragment.Spelled, Member.method,
    Member.toStringTag]

end Pairs

def Fragment.parameters : Fragment → List String
  | .own name => [name]
  | .names declared | .literals declared => declared

theorem Fragment.Spelled.text {fragment : Fragment} (spelled : fragment.Spelled) :
    fragment.parameters ≠ [] ∧ fragment.text = nameList fragment.parameters := by
  cases fragment with
  | own text => exact ⟨List.cons_ne_nil _ _, by simp [Fragment.text, nameList, parameters]⟩
  | names declared => exact ⟨spelled, rfl⟩
  | literals => exact spelled.elim

theorem joined_text {parameters : Phrase} (spelled : ∀ fragment ∈ parameters, fragment.Spelled) :
    (Head.joined parameters).text = nameList (parameters.flatMap Fragment.parameters) := by
  induction parameters with
  | nil => simp [Head.joined, Phrase.text, nameList]
  | cons parameter rest ih =>
    obtain ⟨first, others⟩ := List.forall_mem_cons.mp spelled
    obtain ⟨filled, text⟩ := first.text
    cases rest with
    | nil => simp [Head.joined, Phrase.text, text]
    | cons next rest =>
      obtain ⟨nextFilled, -⟩ := (others next List.mem_cons_self).text
      have more : (next :: rest).flatMap Fragment.parameters ≠ [] := by
        rw [List.flatMap_cons]
        exact List.append_ne_nil_of_left_ne_nil nextFilled _
      have head : (Head.joined (parameter :: next :: rest)).text =
          parameter.text ++ ", " ++ (Head.joined (next :: rest)).text := by
        simp [Head.joined, Phrase.text, Fragment.text, String.append_assoc]
      rw [head, ih others, text, List.flatMap_cons]
      exact (String.intercalate_append_of_ne_nil filled more).symm

theorem Head.Spelled.text {head : Head} (spelled : head.Spelled) :
    ∃ opening ∈ ["", "get ", "* "],
      head.phrase.text = opening ++ head.name ++ "(" ++ nameList head.parameterNames ++ ")" := by
  have joined := joined_text spelled
  have phrase : ∀ opening : String,
      ((Head.joined head.parameters).between (opening ++ head.name ++ "(") ")").text =
        opening ++ head.name ++ "(" ++ nameList head.parameterNames ++ ")" := by
    intro opening
    change _ = _ ++ nameList (head.parameters.flatMap Fragment.parameters) ++ _
    rw [← joined]
    simp [Phrase.between, Phrase.text, Fragment.text, String.append_assoc]
  unfold Head.phrase
  cases head.kind with
  | method => exact ⟨"", by simp, phrase ""⟩
  | accessor => exact ⟨"get ", by simp, phrase "get "⟩
  | generator => exact ⟨"* ", by simp, phrase "* "⟩

/-- No name of a dimension begins like an optional parameter, with a mark or without. -/
theorem bareName_of_legal {name : String} (legal : LegalName name) (mark : String) :
    bareName (name ++ mark) = name ++ mark := by
  have words := isIdentifier_words legal.identifier
  have first : (name ++ mark).toList.head? ≠ some '[' := by
    cases letters : name.toList with
    | nil =>
      have identifier := legal.identifier
      rw [letters] at identifier
      cases identifier
    | cons letter rest =>
      rw [letters] at words
      have word := words letter List.mem_cons_self
      rw [String.toList_append, letters]
      rintro ⟨⟩
      cases word
  unfold bareName
  split
  next rest same => exact absurd (congrArg List.head? same) first
  · rfl

/-- What the entry of a class under a name lists. -/
def signatureOf? (part : Configuration) (checkedTypes yieldsKeys : Bool) (name : String) :
    Option Signature :=
  (entryOf? part checkedTypes yieldsKeys name).map Entry.signature

/-- The names of the dimensions that an entry lists. -/
def Documentation.listing (documentation : Documentation) (listed : ListedArguments) :
    List String :=
  (documentation.listed listed).map Dimension.name

section Listing
variable {part : Configuration} {checkedTypes yieldsKeys : Bool} {draft : Documentation}

/-- The names that an entry of a filled draft lists are those of its signature. -/
theorem Drafts.rows_names (drafts : Drafts part checkedTypes yieldsKeys draft)
    (bare : ∀ dimension ∈ shownKeys part ++ (shownValue? part).toList,
      bareName dimension.name = dimension.name) (entry : Entry) (fill : String → String) :
    ((draft.filled.rows (entry.fill fill)).map fun row => bareName row.name) =
      entry.signature.names draft.listing := by
  have listed : ∀ dimension ∈ draft.listed entry.listed,
      bareName dimension.name = dimension.name := by
    intro dimension member
    apply bare
    rw [← drafts.arguments, ← drafts.value]
    exact Documentation.mem_listed member
  have shown : (draft.filled.rows (entry.fill fill)).map ParameterRow.name =
      entry.rowsBefore.map ParameterRow.name ++ (draft.listed entry.listed).map Dimension.name ++
        entry.rowsAfter.map ParameterRow.name := by
    simp [Documentation.rows, Entry.fill, Function.comp_def]
  have each := congrArg (List.map bareName) shown
  rw [List.map_map] at each
  refine each.trans ?_
  rw [List.map_append, List.map_append, List.map_map, List.map_map, List.map_map]
  refine congrArg₂ _ (congrArg₂ _ rfl ?_) rfl
  exact List.map_congr_left listed

/-- A member whose entry in a draft lists its parameters is documented by what the draft is filled to. -/
theorem Drafts.documented (drafts : Drafts part checkedTypes yieldsKeys draft)
    (bare : ∀ dimension ∈ shownKeys part ++ (shownValue? part).toList,
      bareName dimension.name = dimension.name) {missing : String → List String} {member : Member}
    (documented :
      member.Documented (signatureOf? part checkedTypes yieldsKeys) draft.listing missing) :
    ∃ name entry, member.documentedAs = some name ∧ draft.filled.entry name = .ok entry ∧
      ((draft.filled.rows entry).map fun row => bareName row.name) ++ missing name =
        member.head.parameterNames := by
  obtain ⟨name, signature, said, signed, names⟩ := documented
  obtain ⟨entry, listed, rfl⟩ := Option.map_eq_some_iff.mp signed
  refine ⟨name, _, said, drafts.entry_filled_iff.mpr ⟨entry, listed, rfl⟩, ?_⟩
  rw [drafts.rows_names bare]
  exact names

/-- What a collection of key sets says of its values lists as little as what the table says of them. -/
theorem plain_signatures {own : Declaration} :
    signatureOf? (.plain own) checkedTypes yieldsKeys = Flavor.collection.signature? := by
  have values : Flavor.collection.signature? "values" = some {} :=
    Flavor.collection_signatures ("values", {}) (by simp)
  have keySets : Entry.keySets.signature = {} := rfl
  funext name
  by_cases said : name = "values"
  · cases yieldsKeys with
    | true => simp [signatureOf?, entryOf?, said, values, keySets]
    | false => simp [signatureOf?, entryOf?, tableOf, Flavor.signature?]
  · simp [signatureOf?, entryOf?, tableOf, said, Flavor.signature?]

theorem Drafts.plain_listing {own : Declaration} (formed : own.WellFormed)
    (drafts : Drafts (.plain own) checkedTypes yieldsKeys draft) {bindings : Bindings}
    (bound : Bindings.ofConfiguration (.plain own) = .ok bindings) :
    draft.listing = bindings.listing (if own.value.isSome then ["value"] else []) := by
  obtain ⟨arguments, mapKeys, elements, -⟩ := Bindings.ofConfiguration_ok bound
  have value : own.value.toList.map Dimension.name =
      if own.value.isSome then ["value"] else [] := by
    cases valued : own.value with
    | none => rfl
    | some value => simpa [valueName] using (formed.valueChecked value valued).1
  have keys : draft.arguments = own.dimensions := drafts.arguments
  have shown : draft.value = own.value := drafts.value
  funext listed
  cases listed <;> simp [Documentation.listing, Documentation.listed, Bindings.listing, keys,
    shown, value, arguments, mapKeys, elements, Configuration.own, Declaration.argumentNames,
    Declaration.mapKeys, Declaration.setElements]

end Listing

/-- The parameters of a map that are documented only if a value is declared. -/
def undocumented (part : Configuration) (name : String) : List String :=
  if part.own.family.isMap = true ∧ part.own.value = none ∧ name ∈ ["set", "isValidValue"] then
    ["value"]
  else []

theorem shown_bare {part : Configuration} (formed : part.WellFormed) :
    ∀ dimension ∈ shownKeys part ++ (shownValue? part).toList,
      bareName dimension.name = dimension.name := by
  intro dimension member
  rcases List.mem_append.mp member with key | value
  · simpa using bareName_of_legal (shownKeys_named formed dimension key) ""
  · obtain ⟨named, -⟩ := shownValue_checked formed dimension (Option.mem_toList.mp value)
    rw [named]
    decide

namespace Contribution
variable {options : CompileOptions} {definition : ClassDefinition}

theorem Writes.plain_documented {own : Declaration} (formed : own.WellFormed)
    (unpaired : own.family.isOneToOne = false)
    (written : Writes options (.plain own) definition) {draft : Documentation} {yieldsKeys : Bool}
    (drafts : Drafts (.plain own) options.checkedTypes yieldsKeys draft) :
    ∀ member ∈ definition.outline.members, member.isPublic = true →
      member.Documented (signatureOf? (.plain own) options.checkedTypes yieldsKeys) draft.listing
        (undocumented (.plain own)) ∧ member.head.Spelled := by
  obtain ⟨bindings, bound, defined⟩ := written
  obtain ⟨outlined, -⟩ := ClassDefinition.ofConfiguration_ok defined
  obtain ⟨arguments, mapKeys, -⟩ := Bindings.ofConfiguration_ok bound
  have keyed : bindings.arguments ≠ [] := by
    rw [arguments]
    simpa [Configuration.own, Declaration.argumentNames] using
      (Configuration.WellFormed.plain formed unpaired).keyed unpaired
  have unvalued : own.family.isMap = false →
      bindings.listing (if own.value.isSome then ["value"] else []) = bindings.listing [] ∧
        undocumented (.plain own) = fun _ => [] := by
    intro other
    have none : own.value.isSome = false :=
      Bool.eq_false_iff.mpr fun some => Bool.eq_false_iff.mp other (formed.valued some)
    refine ⟨by rw [none]; rfl, funext fun name => ?_⟩
    simp [undocumented, Configuration.own, other]
  rw [plain_signatures, drafts.plain_listing formed bound]
  change (Variant.select own _).template.outline bindings = _ at outlined
  rcases Family.kinds unpaired with map | set | layers
  · rw [Variant.select_template_of_single (Family.of_isMap map).2.1,
      nominal_template_of_isMap map] at outlined
    rw [← Except.ok.inj outlined]
    have missing : undocumented (.plain own) = missingValue own.value.isSome := by
      funext name
      simp [undocumented, missingValue, Configuration.own, map]
    rw [missing]
    exact fun member among _ => keyedMap_documented _ _ _ keyed member among
  · obtain ⟨keying, weak, chosen⟩ := Variant.select_template_set set options.disableSpecialization
    rw [chosen] at outlined
    rw [← Except.ok.inj outlined]
    obtain ⟨listed, missing⟩ := unvalued (Family.of_isSet set).1
    rw [listed, missing]
    exact fun member among _ => keyedSet_documented _ _ keyed member among
  · obtain ⟨outer, inner, chosen⟩ :=
      Variant.select_template_of_isMapOfSets formed layers options.disableSpecialization
    rw [chosen] at outlined
    rw [← Except.ok.inj outlined]
    obtain ⟨listed, missing⟩ := unvalued (Family.of_isMapOfSets layers).1
    rw [listed, missing]
    refine mapOfSets_documented _ _ _ keyed ?_
    obtain ⟨keys, elements, same, filled, -, mapped, -⟩ := formed.layered layers
    obtain ⟨key, rest, rfl⟩ := List.exists_cons_of_ne_nil filled
    have first : key ∈ own.mapKeys :=
      List.mem_filter.mpr ⟨by simp [same], mapped key List.mem_cons_self⟩
    rw [mapKeys]
    exact List.ne_nil_of_mem (List.mem_map_of_mem first)

theorem Writes.paired_documented {own : Declaration} {link : Link} {base : Configuration}
    (family : own.family.isOneToOne = true)
    (named : ∀ source ∈ link.sources base, LegalName source.name)
    (written : Writes options (.paired own link base) definition) {draft : Documentation}
    (drafts : Drafts (.paired own link base) options.checkedTypes false draft) :
    ∀ member ∈ definition.outline.members,
      member.Documented (signatureOf? (.paired own link base) options.checkedTypes false)
        draft.listing (undocumented (.paired own link base)) ∧ member.head.Spelled := by
  rw [written.paired_outline family]
  have nothing : draft.listing .none = [] := rfl
  have all : undocumented (.paired own link base) = fun _ => [] := by
    funext name
    have other : own.family.isMap = false := by
      cases found : own.family <;> simp [found, Family.isOneToOne, Family.isMap] at family ⊢
    simp [undocumented, Configuration.own, other]
  have sources : (PairingBindings.ofLink link base).sources =
      (link.sources base).map Dimension.name := rfl
  rw [all]
  cases single : (PairingBindings.ofLink link base).isSingle with
  | true =>
    have none : link.sources base = [] := by
      simpa [PairingBindings.isSingle, sources] using single
    have signatures : signatureOf? (.paired own link base) options.checkedTypes false =
        Flavor.pairedSingle.signature? := by
      funext name
      simp [signatureOf?, entryOf?, tableOf, none, Flavor.signature?]
    rw [signatures]
    exact pairedMap_single_documented _ nothing single
  | false =>
    have some : link.sources base ≠ [] := by
      intro none
      simp [PairingBindings.isSingle, sources, none] at single
    have keys : draft.listing .exceptValue = (PairingBindings.ofLink link base).sources :=
      congrArg (List.map Dimension.name) drafts.arguments
    refine pairedMap_double_documented _ nothing single keys ?_ ?_
    · have marked : ∀ mark, ((link.sources base).map fun source => bareName (source.name ++ mark)) =
          suffixed (PairingBindings.ofLink link base).sources mark := by
        intro mark
        rw [sources, suffixed, List.map_map]
        exact List.map_congr_left fun source among => bareName_of_legal (named source among) mark
      have value : bareName "value_1" = "value_1" ∧ bareName "value_2" = "value_2" := by
        decide +kernel
      simp [signatureOf?, entryOf?, tableOf, some, shownKeys, Entry.signature, Entry.binding,
        Function.comp_def, marked, value]
    · intro name other
      simp [signatureOf?, entryOf?, tableOf, some, other, Flavor.signature?]

theorem Writes.documented {part : Configuration} (formed : part.WellFormed)
    (written : Writes options part definition) :
    ∀ member ∈ definition.outline.members, member.isPublic = true →
      (∃ name entry, member.documentedAs = some name ∧
        definition.documentation.entry name = .ok entry ∧
        ((definition.documentation.rows entry).map fun row => bareName row.name) ++
          undocumented part name = member.head.parameterNames) ∧
      member.head.Spelled := by
  intro member among seen
  have bare := shown_bare formed
  obtain ⟨draft, filled, drafts⟩ := written.drafts formed
  rw [filled]
  cases formed with
  | plain declared unpaired =>
    obtain ⟨documented, spelled⟩ :=
      written.plain_documented declared unpaired drafts member among seen
    exact ⟨drafts.documented bare documented, spelled⟩
  | @paired own link base _ family based =>
    have chosen : (Variant.select (Configuration.paired own link base).own
        options.disableSpecialization).template = .paired :=
      (Variant.select_template_paired_iff own _).mpr family
    rw [chosen] at drafts
    have named : ∀ source ∈ link.sources base, LegalName source.name :=
      fun source listed => based.own.named source (List.mem_of_mem_filter listed)
    obtain ⟨documented, spelled⟩ := written.paired_documented family named drafts member among
    exact ⟨drafts.documented bare documented, spelled⟩

end Contribution

/-- In every class that is generated from a locked declaration, each member that callers see has a
block, in which the rows of the table are the parameters of its head, in their order; only a map
that declares no value leaves out the value that two of its members take. -/
theorem parameters_documented {builder : Builder} (declared : builder.Declared)
    (locked : builder.isLocked = true) {options : CompileOptions} {helperDirectory : String}
    {source : SourceModule}
    (made : SourceModule.ofConfiguration builder.configuration options helperDirectory =
      .ok source) :
    ∀ definition ∈ source.contribution.classes,
      ∃ part ∈ Contribution.parts builder.configuration,
        Contribution.Writes options part definition ∧
        ∀ member ∈ definition.outline.members, member.isPublic = true →
          ∃ name entry block, member.documentedAs = some name ∧
            definition.documentation.entry name = .ok entry ∧
            (∃ early late, block = String.join ((early ++
              ParameterRow.table (definition.documentation.rows entry) ++ late).map fun line =>
                indentation 1 ++ trimEnd line ++ "\n")) ∧
            (∃ opening ∈ ["", "get ", "* "], ∃ before after, Ended before.toList ∧
              definition.text = before ++ block ++ lineAt 1 (opening ++ member.head.name ++ "(" ++
                nameList member.head.parameterNames ++ ")" ++ " \x7b") ++ after) ∧
            ((definition.documentation.rows entry).map fun row => bareName row.name) ++
              undocumented part name = member.head.parameterNames := by
  intro definition among
  obtain ⟨part, inside, formed, written⟩ :=
    Contribution.part_of_locked declared locked made definition among
  refine ⟨part, inside, written, fun member listed seen => ?_⟩
  obtain ⟨⟨name, entry, said, found, names⟩, spelled⟩ := written.documented formed member listed seen
  obtain ⟨bindings, -, defined⟩ := written
  obtain ⟨outlined, whole, -⟩ := ClassDefinition.ofConfiguration_ok defined
  obtain ⟨block, before, after, blocked, apart, text⟩ :=
    whole.text_around_block (Template.outline_settled outlined) listed said
  obtain ⟨opening, among, head⟩ := spelled.text
  refine ⟨name, entry, block, said, found, ?_, ⟨opening, among, before, after, apart, ?_⟩, names⟩
  · obtain rfl := Except.ok.inj (blocked.symm.trans (Documentation.block_of_entry found _))
    obtain ⟨early, late, lines⟩ := definition.documentation.blockLines_around_table entry
    exact ⟨early, late, by rw [lines]⟩
  · rw [← head]
    exact text

theorem parameters_documented_pairs :
    let owners : Builder := Builder.performAll ⟨⟨.map, .start⟩, .empty "CarOwners" (.map .weak)⟩
      [.addMapKey "car" "A car." true {}, .addMapKey "owner" "Its owner." false {},
        .setValue "The papers." {}, .lock]
    let pairs : Builder := Builder.performAll ⟨⟨.oneToOne, .start⟩, .empty "CarPairs" .oneToOne⟩
      [.configurePairing (.builder owners) "car" none, .lock]
    pairs.isLocked = true ∧ ∃ source,
      SourceModule.ofConfiguration pairs.configuration {} "./keys" = .ok source ∧
      source.contribution.classes.length = 2 ∧
      ∀ definition ∈ source.contribution.classes, ∀ member ∈ definition.outline.members,
        member.isPublic = true → ∃ name entry, member.documentedAs = some name ∧
          definition.documentation.entry name = .ok entry ∧
          ((definition.documentation.rows entry).map fun row => bareName row.name) =
            member.head.parameterNames := by
  intro owners pairs
  have created : Builder.create "CarOwners" .weakMap none =
      .ok ⟨⟨.map, .start⟩, .empty "CarOwners" (.map .weak)⟩ := rfl
  have base : owners.Declared :=
    (Builder.Declared.created created).performAll _ (by simp [Call.base?])
  have begun : Builder.create "CarPairs" .oneToOne none =
      .ok ⟨⟨.oneToOne, .start⟩, .empty "CarPairs" .oneToOne⟩ := rfl
  have declared : pairs.Declared :=
    (Builder.Declared.created begun).performAll _ (by simpa [Call.base?] using base)
  have locked : pairs.isLocked = true := by decide +kernel
  obtain ⟨source, generated, classes⟩ : ∃ source,
      SourceModule.ofConfiguration pairs.configuration {} "./keys" = .ok source ∧
        source.contribution.classes.length = 2 := by
    rw [exists_eq_ok]
    decide +kernel
  have valued : ∀ part ∈ Contribution.parts pairs.configuration,
      part.own.family.isMap = false ∨ part.own.value ≠ none := by
    decide +kernel
  refine ⟨locked, source, generated, classes, fun definition among member listed seen => ?_⟩
  obtain ⟨part, inside, -, each⟩ := parameters_documented declared locked generated definition among
  obtain ⟨name, entry, block, said, found, -, -, names⟩ := each member listed seen
  have nothing : undocumented part name = [] := by
    rcases valued part inside with other | some
    · simp [undocumented, other]
    · simp [undocumented, some]
  rw [nothing, List.append_nil] at names
  exact ⟨name, entry, said, found, names⟩

/-- A map that declares no value takes one all the same, of which its documentation says nothing. -/
theorem value_undocumented :
    let cars : Builder := Builder.performAll ⟨⟨.map, .start⟩, .empty "Cars" (.map .strong)⟩
      [.addMapKey "car" "The car." false {}, .lock]
    Builder.create "Cars" .map none = .ok ⟨⟨.map, .start⟩, .empty "Cars" (.map .strong)⟩ ∧
      cars.isLocked = true ∧ ∃ source,
        SourceModule.ofConfiguration cars.configuration {} "./keys" = .ok source ∧
        ∃ definition ∈ source.contribution.classes, ∃ member ∈ definition.outline.members,
          member.isPublic = true ∧ member.documentedAs = some "set" ∧
          member.head.parameterNames = ["car", "value"] ∧
          ∃ entry, definition.documentation.entry "set" = .ok entry ∧
            ((definition.documentation.rows entry).map fun row => bareName row.name) = ["car"] := by
  intro cars
  refine ⟨rfl, by decide +kernel, ?_⟩
  obtain ⟨source, made, definition, among, member, listed, seen, said, taken, entry, found, names⟩ :
      ∃ source ∈ (SourceModule.ofConfiguration cars.configuration {} "./keys").toOption,
        ∃ definition ∈ source.contribution.classes, ∃ member ∈ definition.outline.members,
          member.isPublic = true ∧ member.documentedAs = some "set" ∧
          member.head.parameterNames = ["car", "value"] ∧
          ∃ entry ∈ (definition.documentation.entry "set").toOption,
            ((definition.documentation.rows entry).map fun row => bareName row.name) = ["car"] := by
    decide +kernel
  exact ⟨source, toOption_eq_some.mp made, definition, among, member, listed, seen, said, taken,
    entry, toOption_eq_some.mp found, names⟩

end CompositeKeys.Emission
