import CompositeKeys.Collection.Identifier
import CompositeKeys.Proofs.Emission.Placement
import Mathlib.Data.List.Count

/-! What generated classes take from the key library. A class is made with a helper if one of its
fields begins as a new instance of it. A module asks for the helpers that its classes are made with,
those of an inline base among them, and imports each of these once. -/

namespace CompositeKeys.Emission
open Text

/-- The classes of the key library. -/
inductive Helper where
  | hasher
  | composer
  deriving DecidableEq, Repr

namespace Helper

def all : List Helper := [.hasher, .composer]

def className : Helper → String
  | .hasher => "KeyHasher"
  | .composer => "WeakKeyComposer"

def fileName : Helper → String
  | .hasher => "Hasher.mjs"
  | .composer => "Composite.mjs"

/-- The statement that imports a helper from the directory of the key library. -/
def statement (helper : Helper) (directory : String) : String :=
  "import " ++ helper.className ++ " from \"" ++ directory ++ "/" ++ helper.fileName ++ "\";"

def usedBy (helper : Helper) (use : HelperUse) : Bool :=
  match helper with
  | .hasher => use.hasher
  | .composer => use.composer

theorem statement_hasher (directory : String) :
    hasher.statement directory = "import KeyHasher from \"" ++ directory ++ "/Hasher.mjs\";" := by
  rw [← String.toList_inj]
  simp [statement, className, fileName]

theorem statement_composer (directory : String) : composer.statement directory =
    "import WeakKeyComposer from \"" ++ directory ++ "/Composite.mjs\";" := by
  rw [← String.toList_inj]
  simp [statement, className, fileName]

example : composer.statement "." = "import WeakKeyComposer from \"./Composite.mjs\";" := by
  decide +kernel

theorem statement_unbroken (helper : Helper) {directory : String}
    (unbroken : '\n' ∉ directory.toList) : '\n' ∉ (helper.statement directory).toList := by
  cases helper <;> simp [statement, className, fileName, unbroken]

theorem statement_last (helper : Helper) (directory : String) :
    (helper.statement directory).toList.getLast? = some ';' := by
  simp only [statement, String.toList_append, List.getLast?_append]
  rfl

@[simp] theorem usedBy_union (helper : Helper) (first second : HelperUse) :
    helper.usedBy (first.union second) = (helper.usedBy first || helper.usedBy second) := by
  cases helper <;> rfl

@[simp] theorem usedBy_empty (helper : Helper) : helper.usedBy {} = false := by
  cases helper <;> rfl

theorem usedBy_unions {α : Type} (helper : Helper) (uses : α → HelperUse) (items : List α)
    (start : HelperUse) :
    helper.usedBy (items.foldl (fun use item => use.union (uses item)) start) =
      (helper.usedBy start || items.any fun item => helper.usedBy (uses item)) := by
  induction items generalizing start with
  | nil => simp
  | cons item items ih => simp [ih, Bool.or_assoc]

theorem statement_injective (directory : String) :
    Function.Injective fun helper : Helper => helper.statement directory := by
  have names : ∀ helper : Helper, (helper.statement directory).toList[7]? =
      some (match helper with | .hasher => 'K' | .composer => 'W') := by
    rintro (_ | _) <;> simp [statement, className]
  intro first second same
  have letters := (names first).symm.trans ((congrArg (·.toList[7]?) same).trans (names second))
  revert letters
  cases first <;> cases second <;> simp

end Helper

/-- The class that a field begins as a new instance of, as far as its name can be read. -/
def Initial.instantiated? (initial : Initial) : Option String :=
  match initial.phrase.text.toList with
  | 'n' :: 'e' :: 'w' :: ' ' :: rest => some (.ofList (rest.takeWhile isWordPart))
  | _ => none

/-- The helper that a field is made with. -/
def Initial.helper? : Initial → Option Helper
  | .hasher => some .hasher
  | .composer _ _ => some .composer
  | .builtin _ | .count | .base _ => none

/-- An initial value that is not left to a declaration: a container of the language, a count, or a
helper. -/
def Initial.Own : Initial → Prop
  | .builtin constructor => constructor ∈ ["Map", "Set", "WeakMap", "WeakSet"]
  | .count | .hasher | .composer _ _ => True
  | .base _ => False

theorem Initial.instantiated_composer (weak strong : List String) :
    (Initial.composer weak strong).instantiated? = some "WeakKeyComposer" := by
  simp [instantiated?, phrase, Phrase.text, Fragment.text, isWordPart]

theorem Initial.Own.instantiated_iff {initial : Initial} (own : initial.Own) (helper : Helper) :
    initial.instantiated? = some helper.className ↔ initial.helper? = some helper := by
  cases initial with
  | builtin constructor =>
    have known : constructor ∈ ["Map", "Set", "WeakMap", "WeakSet"] := own
    simp only [List.mem_cons, List.not_mem_nil, or_false] at known
    rcases known with rfl | rfl | rfl | rfl <;> cases helper <;> decide +kernel
  | count => cases helper <;> decide +kernel
  | hasher => cases helper <;> decide +kernel
  | composer weak strong =>
    rw [instantiated_composer]
    cases helper <;> simp [Helper.className, helper?]
  | base => exact own.elim

/-- The field of a paired collection that holds its base. -/
def baseField : String := "#baseMap"

/-- Whether a class has a helper in a field that does not hold the base of a pair. -/
def ClassOutline.keeps (outline : ClassOutline) (helper : Helper) : Bool :=
  outline.fields.any fun field => field.name ≠ baseField ∧ field.initial.helper? = some helper

section Templates
variable {bindings : Bindings} {template : Template} {outline : ClassOutline}

/-- A plan keeps the helpers that it asks for in its fields. -/
theorem KeyPlan.any_fields (plan : KeyPlan) {hasherField : String} (apart : hasherField ≠ baseField)
    (helper : Helper) :
    ((plan.fields hasherField).any fun field =>
      field.name ≠ baseField ∧ field.initial.helper? = some helper) =
        helper.usedBy plan.helpers := by
  have other : "#keyComposer" ≠ baseField := by decide
  unfold helpers fields
  cases plan.keying <;> cases helper <;> simp [apart, other, Helper.usedBy, Initial.helper?]

theorem KeyPlan.fields_own (plan : KeyPlan) (hasherField : String) :
    ∀ field ∈ plan.fields hasherField, field.initial.Own := by
  unfold fields
  cases plan.keying <;> simp [Initial.Own]

theorem Template.outline_paired_ok (outlined : Template.paired.outline bindings = .ok outline) :
    ∃ pairing, outline = pairedMap bindings.className pairing := by
  unfold Template.outline at outlined
  dsimp only at outlined
  split at outlined
  next pairing _ => exact ⟨pairing, (Except.ok.inj outlined).symm⟩
  · cases outlined

theorem Template.fields_own (outlined : template.outline bindings = .ok outline) :
    ∀ field ∈ outline.fields, field.name ≠ baseField → field.initial.Own := by
  -- What does not hold a base is a root, a count, or what a plan keeps.
  have own : ∀ {fields : List Variable}, (∀ field ∈ fields, field.initial.Own) →
      ∀ field ∈ fields, field.name ≠ baseField → field.initial.Own :=
    fun each field member _ => each field member
  cases template with
  | map keying weak =>
    cases outlined
    refine own (List.forall_mem_cons.mpr ⟨?_, KeyPlan.fields_own _ _⟩)
    cases weak <;> simp [Initial.Own]
  | set keying weak =>
    cases outlined
    refine own (List.forall_mem_cons.mpr ⟨?_, KeyPlan.fields_own _ _⟩)
    cases weak <;> cases keying <;> simp [Initial.Own]
  | mapOfSets outer weak inner =>
    cases outlined
    refine own (List.forall_mem_cons.mpr ⟨?_, List.forall_mem_append.mpr
      ⟨List.forall_mem_append.mpr ⟨KeyPlan.fields_own _ _, KeyPlan.fields_own _ _⟩, ?_⟩⟩)
    · cases weak <;> simp [Initial.Own]
    · cases weak <;> simp [Initial.Own]
  | paired =>
    obtain ⟨pairing, rfl⟩ := outline_paired_ok outlined
    simp [pairedMap, baseField, Initial.Own]

/-- A class has the helpers that its template asks for, and no others. -/
theorem Template.keeps_eq (outlined : template.outline bindings = .ok outline) (helper : Helper) :
    outline.keeps helper = helper.usedBy (template.helpers bindings) := by
  have hasher : "#hasher" ≠ baseField := by decide
  have mapHasher : "#mapHasher" ≠ baseField := by decide
  have setHasher : "#setHasher" ≠ baseField := by decide
  unfold ClassOutline.keeps
  cases template with
  | map keying weak =>
    cases outlined
    simp only [keyedMap, List.any_cons, KeyPlan.any_fields _ hasher]
    simp [Initial.helper?, helpers, plans]
  | set keying weak =>
    cases outlined
    simp only [keyedSet, List.any_cons, KeyPlan.any_fields _ hasher]
    simp [Initial.helper?, helpers, plans]
  | mapOfSets outer weak inner =>
    cases outlined
    simp only [Emission.mapOfSets, List.cons_append, List.any_cons, List.any_append,
      KeyPlan.any_fields _ mapHasher, KeyPlan.any_fields _ setHasher]
    cases weak <;> simp [Initial.helper?, helpers, plans]
  | paired =>
    obtain ⟨pairing, rfl⟩ := outline_paired_ok outlined
    simp [pairedMap, Initial.helper?, helpers, plans, baseField]

end Templates

/-- A class is made with a helper if a field of it, other than the one that holds the base of a pair,
begins as a new instance of the helper. -/
def ClassOutline.Builds (outline : ClassOutline) (helper : Helper) : Prop :=
  ∃ field ∈ outline.fields, field.name ≠ baseField ∧
    field.initial.instantiated? = some helper.className

theorem Template.builds_iff {template : Template} {bindings : Bindings} {outline : ClassOutline}
    (outlined : template.outline bindings = .ok outline) (helper : Helper) :
    outline.Builds helper ↔ helper.usedBy (template.helpers bindings) = true := by
  rw [← keeps_eq outlined, ClassOutline.keeps, List.any_eq_true]
  refine exists_congr fun field => and_congr_right fun member => ?_
  rw [decide_eq_true_iff]
  exact and_congr_right fun other => (fields_own outlined field member other).instantiated_iff helper

theorem Bindings.importText_ofConfiguration {configuration : Configuration} {bindings : Bindings}
    (bound : Bindings.ofConfiguration configuration = .ok bindings) :
    bindings.importText = configuration.own.importText := by
  unfold Bindings.ofConfiguration at bound
  dsimp only at bound
  split at bound
  · cases bound
  · cases bound
    rfl

theorem nodup_eraseDups (items : List String) : items.eraseDups.Nodup := by
  match items with
  | [] => exact List.nodup_nil
  | item :: rest =>
    rw [List.eraseDups_cons, List.nodup_cons, List.mem_eraseDups]
    have shorter := List.length_filter_le (fun other => !other == item) rest
    exact ⟨by simp, nodup_eraseDups _⟩
termination_by items.length

theorem eraseDups_of_nodup {items : List String} (distinct : items.Nodup) : items.eraseDups = items := by
  induction items with
  | nil => rfl
  | cons item rest ih =>
    obtain ⟨apart, distinct⟩ := List.nodup_cons.mp distinct
    have kept : rest.filter (fun other => !other == item) = rest := by
      rw [List.filter_eq_self]
      intro other listed
      have differs : other ≠ item := fun same => apart (same ▸ listed)
      simpa using differs
    rw [List.eraseDups_cons, kept, ih distinct]

/-- Items that have been cut down to the first ones may be cut again with more behind them. -/
theorem eraseDups_eraseDups_append (first more : List String) :
    (first.eraseDups ++ more).eraseDups = (first ++ more).eraseDups := by
  have again : first.eraseDups.eraseDups = first.eraseDups := eraseDups_of_nodup (nodup_eraseDups first)
  have others : more.removeAll first.eraseDups = more.removeAll first :=
    List.filter_congr fun item _ => by simp
  rw [List.eraseDups_append, List.eraseDups_append, again, others]

namespace Contribution
variable {options : CompileOptions} {contribution : Contribution} {helper : Helper}

/-- The helpers of some classes are those that one of them is made with. -/
def Helps (helpers : HelperUse) (classes : List ClassDefinition) : Prop :=
  ∀ helper : Helper,
    helper.usedBy helpers = true ↔ ∃ definition ∈ classes, definition.outline.Builds helper

theorem extend_helps {configuration : Configuration} {bindings : Bindings} {imports : List String}
    {helpers : HelperUse} {bases : List ClassDefinition} (based : Helps helpers bases)
    (made : extend options configuration bindings imports helpers bases = .ok contribution) :
    Helps contribution.helpers contribution.classes := by
  obtain ⟨definition, written, made⟩ := bind_eq_ok.mp made
  obtain rfl := pure_eq_ok.mp made
  obtain ⟨outlined, -⟩ := ClassDefinition.ofConfiguration_ok written
  intro helper
  simp [based helper, Template.builds_iff outlined, or_and_right, exists_or]

theorem helps_of_made {configuration : Configuration}
    (made : ofConfiguration options configuration = .ok contribution) :
    Helps contribution.helpers contribution.classes := by
  have empty : Helps {} [] := by simp [Helps]
  induction configuration generalizing contribution with
  | plain own =>
    obtain ⟨bindings, _, made⟩ := bind_eq_ok.mp made
    exact extend_helps empty made
  | paired own link base ih =>
    obtain ⟨bindings, _, made⟩ := bind_eq_ok.mp made
    dsimp only at made
    split at made
    · exact extend_helps empty made
    · exact extend_helps empty made
    · obtain ⟨inner, written, made⟩ := bind_eq_ok.mp made
      exact extend_helps (ih written) made

/-- The import statements that a configuration asks for: that of a base which is imported, and those
that it has been given. -/
def asked (configuration : Configuration) : List String :=
  (match configuration.pairing? with
    | some (link, base) =>
      match (PairingBindings.ofLink link base).baseSource with
      | .imported path => ["import " ++ base.className ++ " from " ++ quoted path ++ ";"]
      | .builtin | .inline => []
    | none => []) ++
  (configuration.own.importText.map importsOf).getD []

/-- The lines that the module of a configuration is asked for: those of the bases that are written inline,
innermost first, and its own. -/
def requested (configuration : Configuration) : List String :=
  (parts configuration).flatMap asked

/-- A module has the first line of every spelling that it is asked for. -/
theorem imports_eq {configuration : Configuration}
    (made : ofConfiguration options configuration = .ok contribution) :
    contribution.imports = (requested configuration).eraseDups := by
  have extended : ∀ {configuration bindings imports helpers bases contribution},
      Bindings.ofConfiguration configuration = .ok bindings →
      extend options configuration bindings imports helpers bases = .ok contribution →
      contribution.imports =
        (imports ++ (configuration.own.importText.map importsOf).getD []).eraseDups := by
    intro configuration bindings imports helpers bases contribution bound made
    obtain ⟨_, -, -, same⟩ := extend_ok made
    rw [same, Bindings.importText_ofConfiguration bound]
  unfold requested
  induction configuration generalizing contribution with
  | plain own =>
    obtain ⟨bindings, bound, made⟩ := bind_eq_ok.mp made
    simpa [parts, asked, Configuration.pairing?] using extended bound made
  | paired own link base ih =>
    obtain ⟨bindings, bound, made⟩ := bind_eq_ok.mp made
    unfold parts
    dsimp only at made
    cases found : (PairingBindings.ofLink link base).baseSource with
    | builtin =>
      rw [found] at made
      simpa [asked, Configuration.pairing?, found] using extended bound made
    | imported path =>
      rw [found] at made
      simpa [asked, Configuration.pairing?, found] using extended bound made
    | inline =>
      rw [found] at made
      obtain ⟨inner, written, made⟩ := bind_eq_ok.mp made
      rw [extended bound made, ih written, eraseDups_eraseDups_append]
      simp [asked, Configuration.pairing?, found]

theorem imports_of_made {configuration : Configuration}
    (made : ofConfiguration options configuration = .ok contribution) :
    contribution.imports.Nodup ∧ ∀ line, line ∈ contribution.imports ↔
      ∃ part ∈ parts configuration, line ∈ asked part := by
  rw [imports_eq made]
  refine ⟨nodup_eraseDups _, fun line => ?_⟩
  rw [List.mem_eraseDups, requested, List.mem_flatMap]

end Contribution

namespace SourceModule
variable (source : SourceModule) (helper : Helper)

theorem helperImports_eq : source.helperImports =
    (Helper.all.filter fun helper => helper.usedBy source.helpers).map fun helper =>
      helper.statement source.helperDirectory := by
  unfold helperImports
  cases hasher : source.helpers.hasher <;> cases composer : source.helpers.composer <;>
    simp [Helper.all, Helper.usedBy, Helper.statement_hasher, Helper.statement_composer, hasher,
      composer]

/-- Each helper in use is imported by one statement of the module's own. -/
theorem count_helperImports :
    source.helperImports.count (helper.statement source.helperDirectory) =
      (helper.usedBy source.helpers).toNat := by
  rw [helperImports_eq, List.count_map_of_injective _ _ (Helper.statement_injective _)]
  cases used : helper.usedBy source.helpers with
  | true =>
    have once : Helper.all.count helper = 1 := by cases helper <;> rfl
    exact (List.count_filter (p := fun helper => helper.usedBy source.helpers) used).trans once
  | false => simp [List.count_eq_zero, used]

/-- The statements that a module begins with have their lines to themselves. -/
theorem text_around_imports : ∃ before after, Ended before.toList ∧ source.text =
    tidy (before ++ String.join ((source.helperImports ++ source.imports).map (· ++ "\n")) ++
      after) := by
  refine ⟨source.ahead ++ source.header, "\n" ++
    String.join (source.contribution.classes.map fun definition => definition.text ++ "\n") ++
    "export default " ++ source.className ++ ";\n", ?_, ?_⟩
  · rw [String.toList_append]
    exact source.ahead_ended.append source.header_ended
  · simp only [text, ahead, String.append_assoc]

variable {helper source}

theorem statement_isInfix (unbroken : '\n' ∉ source.helperDirectory.toList)
    (used : helper.usedBy source.helpers = true) :
    (helper.statement source.helperDirectory ++ "\n").toList <:+: source.text.toList := by
  obtain ⟨before, after, apart, whole⟩ := source.text_around_imports
  have listed : helper.statement source.helperDirectory ∈ source.helperImports ++ source.imports := by
    refine List.mem_append_left _ (List.count_pos_iff.mp ?_)
    rw [count_helperImports, used]
    decide
  obtain ⟨early, late, same⟩ := List.append_of_mem listed
  have lines : Ended (String.join (early.map (· ++ "\n"))).toList := by
    refine Ended.join fun text member => ?_
    obtain ⟨_, _, rfl⟩ := List.mem_map.mp member
    exact ended_feed _
  have split : source.text = tidy (before ++ String.join (early.map (· ++ "\n")) ++
      (helper.statement source.helperDirectory ++ "\n") ++
      (String.join (late.map (· ++ "\n")) ++ after)) := by
    rw [whole, same]
    simp only [List.map_append, List.map_cons, String.join_append, String.join_cons,
      String.append_assoc]
  have placed : Ended (before ++ String.join (early.map (· ++ "\n"))).toList := by
    rw [String.toList_append]
    exact apart.append lines
  have part := @tidy_isInfix _ _ (String.join (late.map (· ++ "\n")) ++ after) placed
    (ended_feed (helper.statement source.helperDirectory))
  rw [tidy_line (helper.statement_unbroken unbroken) (helper.statement_last _) (by decide)] at part
  rw [split]
  exact part

theorem helps_of_made {configuration : Configuration} {options : CompileOptions}
    {helperDirectory : String}
    (made : ofConfiguration configuration options helperDirectory = .ok source) :
    Contribution.Helps source.helpers source.contribution.classes := by
  obtain ⟨contribution, contributed, rfl⟩ := ofConfiguration_ok made
  exact Contribution.helps_of_made contributed

end SourceModule

end CompositeKeys.Emission
