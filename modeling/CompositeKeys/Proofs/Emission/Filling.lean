import CompositeKeys.Proofs.Emission.Blocks
import CompositeKeys.Proofs.Emission.Entries

/-! Filling in at once. Placeholders are filled in one after another, so what has come in for one of
them is looked at again for the next. The checks on texts let none in that could be taken for a
placeholder, but the name of a class is checked as a whole only. -/

namespace CompositeKeys.Emission
open Text

/-- A letter that no placeholder has. -/
def separates (letter : Char) : Bool := marks.all fun mark => !mark.toList.contains letter

/-- A text whose words either are placeholders or hold none. -/
def Parted (letters : List Char) : Prop :=
  ∀ word ∈ letters.splitOnP separates,
    word ∈ marks.map String.toList ∨ ∀ mark ∈ marks, ¬ mark.toList <:+: word

instance (letters : List Char) : Decidable (Parted letters) :=
  inferInstanceAs (Decidable (∀ _ ∈ _, _))

theorem apart_of_separates {letter : Char} (separate : separates letter = true) :
    ∀ mark ∈ marks, letter ∉ mark.toList := by
  intro mark member
  simpa using List.all_eq_true.mp separate mark member

/-- A text is a single word, or one cut off by a letter from the rest of the text. -/
theorem words_induction {motive : List Char → Prop}
    (word : ∀ letters, (∀ letter ∈ letters, separates letter = false) → motive letters)
    (cut : ∀ first letter rest, (∀ letter ∈ first, separates letter = false) →
      separates letter = true → motive first → motive rest → motive (first ++ letter :: rest))
    (letters : List Char) : motive letters := by
  -- The letters of the word that has begun stand ahead of those that are still to be read.
  have ahead : ∀ first, (∀ letter ∈ first, separates letter = false) →
      motive (first ++ letters) := by
    induction letters with
    | nil => simpa using word
    | cons letter rest ih =>
      intro first whole
      cases separate : separates letter with
      | true =>
        exact cut first letter rest whole separate (word first whole) (ih [] (List.forall_mem_nil _))
      | false =>
        rw [List.append_cons]
        refine ih (first ++ [letter]) (List.forall_mem_append.mpr ⟨whole, ?_⟩)
        simpa using separate
  exact ahead [] (List.forall_mem_nil _)

theorem isInfix_of_mem_words {letters word : List Char}
    (member : word ∈ letters.splitOnP separates) : word <:+: letters := by
  induction letters using words_induction with
  | word letters whole =>
    rw [List.splitOnP_eq_singleton whole, List.mem_singleton] at member
    exact member ▸ List.infix_rfl
  | cut first letter rest whole separate _ ih =>
    rw [List.splitOnP_append_cons_of_forall_mem whole _ separate, List.mem_cons] at member
    rcases member with rfl | later
    · exact (List.prefix_append word _).isInfix
    · exact (ih later).trans ((List.suffix_cons letter rest).trans (List.suffix_append first _)).isInfix

theorem Parted.cut {first rest : List Char} {letter : Char} (separate : separates letter = true)
    (parted : Parted (first ++ letter :: rest)) : Parted first ∧ Parted rest := by
  rw [Parted, List.splitOnP_append_cons _ _ separate, List.forall_mem_append] at parted
  exact parted

theorem parted_of_unmarked {text : String} (unmarked : Unmarked text) : Parted text.toList :=
  fun _ member => .inr fun mark among inside =>
    unmarked mark among (inside.trans (isInfix_of_mem_words member))

theorem parted_of_worded {text : String} (worded : Worded text) : Parted text.toList := by
  have tables : ∀ text ∈ markedTexts, Parted text.toList := by decide +kernel
  exact worded.elim (fun sayable => parted_of_unmarked sayable.unmarked) (tables text)

namespace Placeholders
variable (values : Placeholders)

/-- The placeholders and what they stand for. -/
def table : List (List Char × List Char) :=
  [("__className__".toList, values.className.toList), ("__valueType__".toList, values.valueType.toList),
    ("__valueDesc__".toList, values.valueDescription.toList),
    ("__argList__".toList, values.arguments.toList)]

/-- Fills in all placeholders at once, so that nothing that comes in is looked at again. -/
def atOnce (text : String) : String := .ofList (replacingAll values.table 0 text.toList)

theorem table_marks : values.table.map Prod.fst = marks.map String.toList := rfl

theorem mem_marks {row : List Char × List Char} (member : row ∈ values.table) :
    ∃ mark ∈ marks, mark.toList = row.1 := by
  have first : row.1 ∈ marks.map String.toList :=
    values.table_marks ▸ List.mem_map_of_mem member
  exact List.mem_map.mp first

/-- The name of the class as it is said once later placeholders in it have been filled in, too. -/
def saidName : String := values.fill "__className__"

theorem atOnce_marks :
    values.atOnce "__className__" = values.className ∧ values.atOnce "__valueType__" = values.valueType ∧
      values.atOnce "__valueDesc__" = values.valueDescription ∧
      values.atOnce "__argList__" = values.arguments := by
  have each : ∀ {mark value : String}, mark.toList ≠ [] →
      values.table.find? (fun row => row.1.isPrefixOf mark.toList) = some (mark.toList, value.toList) →
        values.atOnce mark = value := by
    intro mark value filled first
    rw [atOnce, replacingAll_self filled first, String.ofList_toList]
  exact ⟨each (by decide) rfl, each (by decide) rfl, each (by decide) rfl, each (by decide) rfl⟩

theorem fill_arguments : values.fill "__argList__" = values.arguments := by
  have className : ¬ "__className__".toList <:+: "__argList__".toList := by decide
  have valueType : ¬ "__valueType__".toList <:+: "__argList__".toList := by decide
  have valueDescription : ¬ "__valueDesc__".toList <:+: "__argList__".toList := by decide
  rw [← String.toList_inj, toList_fill, fillLetters, replacing_of_absent className,
    replacing_of_absent valueType, replacing_of_absent valueDescription, replacing_self (by decide)]

/-- Filling in one after another differs from filling in at once only in the name of the class. -/
theorem fill_eq_atOnce (type : Unmarked values.valueType)
    (description : Unmarked values.valueDescription) {text : String} (parted : Parted text.toList) :
    values.fill text = ({ values with className := values.saidName } : Placeholders).atOnce text := by
  let said : Placeholders := { values with className := values.saidName }
  have placeholders : ∀ mark ∈ marks, values.fill mark = said.atOnce mark := by
    obtain ⟨className, valueType, valueDescription, arguments⟩ := said.atOnce_marks
    simp only [marks, List.forall_mem_cons]
    exact ⟨className.symm, (values.fill_valueType type).trans valueType.symm,
      (values.fill_valueDescription description).trans valueDescription.symm,
      values.fill_arguments.trans arguments.symm, List.forall_mem_nil _⟩
  have filled : ∀ row ∈ said.table, row.1 ≠ [] := by
    have marked : ∀ mark ∈ marks, mark.toList ≠ [] := by decide
    intro row member
    obtain ⟨mark, among, same⟩ := said.mem_marks member
    exact same ▸ marked mark among
  rw [← String.toList_inj, toList_fill, atOnce, String.toList_ofList]
  change values.fillLetters text.toList = replacingAll said.table 0 text.toList
  generalize text.toList = letters at parted
  induction letters using words_induction with
  | word letters whole =>
    rcases parted letters (by simp [List.splitOnP_eq_singleton whole]) with placeholder | unmarked
    · obtain ⟨mark, among, rfl⟩ := List.mem_map.mp placeholder
      have same := congrArg String.toList (placeholders mark among)
      rwa [toList_fill, atOnce, String.toList_ofList] at same
    · rw [values.fillLetters_unmarked unmarked, replacingAll_of_absent]
      intro row member
      obtain ⟨mark, among, same⟩ := said.mem_marks member
      exact same ▸ unmarked mark among
  | cut first letter rest whole separate word others =>
    obtain ⟨one, two⟩ := parted.cut separate
    have apart := apart_of_separates separate
    rw [values.fillLetters_cut apart, replacingAll_cut filled, word one, others two]
    intro row member
    obtain ⟨mark, among, same⟩ := said.mem_marks member
    exact same ▸ apart mark among

theorem saidName_of_unmarked
    (unmarked : ∀ mark ∈ ["__valueType__", "__valueDesc__", "__argList__"],
      ¬ mark.toList <:+: values.className.toList) : values.saidName = values.className := by
  simp only [List.forall_mem_cons] at unmarked
  obtain ⟨valueType, valueDescription, arguments, -⟩ := unmarked
  rw [saidName, ← String.toList_inj, toList_fill, fillLetters, replacing_self (by decide),
    replacing_of_absent valueType, replacing_of_absent valueDescription, replacing_of_absent arguments]

end Placeholders

namespace Entry

/-- The texts of an entry that are filled in. -/
def filledTexts (entry : Entry) : List String :=
  entry.texts ++ entry.ownRows.flatMap fun row => [row.typeName, row.description]

theorem fill_congr {entry : Entry} {one two : String → String}
    (same : ∀ text ∈ entry.filledTexts, one text = two text) : entry.fill one = entry.fill two := by
  have text : ∀ text ∈ entry.texts, one text = two text :=
    fun text member => same text (List.mem_append_left _ member)
  have option : ∀ {said : Option String}, (∀ text ∈ said.toList, one text = two text) →
      said.map one = said.map two := by
    intro said each
    cases said with
    | none => rfl
    | some text => exact congrArg some (each text (by simp))
  have row : ∀ row ∈ entry.ownRows,
      { row with typeName := one row.typeName, description := one row.description } =
        { row with typeName := two row.typeName, description := two row.description } := by
    intro row member
    have cells : ∀ text ∈ [row.typeName, row.description], one text = two text :=
      fun text inside => same text (List.mem_append_right _ (List.mem_flatMap.mpr ⟨row, member, inside⟩))
    rw [cells row.typeName (by simp), cells row.description (by simp)]
  simp only [texts, ownRows, List.forall_mem_cons, List.forall_mem_append] at text row
  obtain ⟨description, ⟨⟨⟨headers, footers⟩, resultType⟩, resultDescription⟩⟩ := text
  simp only [Entry.fill, Entry.mk.injEq, and_true, true_and]
  exact ⟨description, List.map_congr_left headers, List.map_congr_left footers,
    List.map_congr_left row.1, List.map_congr_left row.2, option resultType, option resultDescription⟩

theorem IsWorded.parted {entry : Entry} (worded : entry.IsWorded) :
    ∀ text ∈ entry.filledTexts, Parted text.toList := by
  unfold filledTexts
  simp only [List.forall_mem_append, List.forall_mem_flatMap, List.forall_mem_cons]
  exact ⟨fun text member => parted_of_worded (worded.texts text member), fun row member =>
    ⟨parted_of_worded (worded.rows row member).typeName,
      parted_of_worded (worded.rows row member).description, List.forall_mem_nil _⟩⟩

end Entry

section Written
variable {options : CompileOptions} {part : Configuration} {definition : ClassDefinition}

/-- The entry that the class of a configuration has under a name before it is filled in. -/
def written? (options : CompileOptions) (part : Configuration) (name : String) : Option Entry :=
  entryOf? part options.checkedTypes
    (Variant.select part.own options.disableSpecialization).template.yieldsKeys name

theorem binding_parted {sources : List Dimension} (checked : ∀ source ∈ sources, source.Checked)
    (checkedTypes : Bool) :
    ∀ text ∈ (Entry.binding sources checkedTypes).filledTexts, Parted text.toList := by
  have object : Parted "object".toList ∧ Parted "The value.".toList := by decide +kernel
  have shown : ∀ source ∈ sources, Parted (shownType checkedTypes source).toList ∧
      Parted source.description.toList := fun source among =>
    ⟨parted_of_unmarked (unmarked_of_legal (shownType_legal (checked source among) checkedTypes)),
      parted_of_unmarked (unmarked_of_legal (checked source among).description)⟩
  have texts : ∀ text ∈ (Entry.binding sources checkedTypes).texts, Parted text.toList := by
    simpa [Entry.binding, Entry.texts] using (by decide +kernel)
  refine List.forall_mem_append.mpr ⟨texts, List.forall_mem_flatMap.mpr fun row member => ?_⟩
  simp only [List.forall_mem_cons]
  obtain ⟨mark, -, ⟨source, among, rfl⟩ | rfl⟩ := Entry.of_mem_binding member
  · exact ⟨(shown source among).1, (shown source among).2, List.forall_mem_nil _⟩
  · exact ⟨object.1, object.2, List.forall_mem_nil _⟩

theorem written_parted (formed : part.WellFormed) {name : String} {entry : Entry}
    (written : written? options part name = some entry) :
    ∀ text ∈ entry.filledTexts, Parted text.toList := by
  rcases entryOf_cases written with rfl | rfl | ⟨row, among, rfl⟩
  · exact Entry.keySets_worded.parted
  · exact binding_parted (shownKeys_checked formed) options.checkedTypes
  · exact ((tableOf part).entries_worded row among).parted

/-- Every entry of a class is one that has been filled in at once, only not with the name of the class
but with what is said for it. -/
theorem Contribution.Writes.entry_iff (formed : part.WellFormed)
    (written : Writes options part definition) (name : String) (entry : Entry) :
    let values := placeholdersOf part options.checkedTypes
    definition.documentation.entry name = .ok entry ↔
      ∃ written, written? options part name = some written ∧
        written.fill (Placeholders.atOnce { values with className := values.saidName }) = entry := by
  obtain ⟨draft, filled, drafts⟩ := written.drafts formed
  obtain ⟨type, description⟩ := placeholdersOf_legal formed options.checkedTypes
  rw [filled]
  refine drafts.entry_filled_iff.trans (exists_congr fun written => and_congr_right fun under => ?_)
  rw [Entry.fill_congr fun text member => (placeholdersOf part options.checkedTypes).fill_eq_atOnce
    (unmarked_of_legal type) (unmarked_of_legal description) (written_parted formed under text member)]

theorem written_toStringTag (options : CompileOptions) (part : Configuration) :
    written? options part "toStringTag" = some .toStringTag := by
  rw [written?, entryOf_table part _ _ (by decide)]
  cases tableOf part <;> rfl

/-- Of the entries of a class, the one that says its name tells whether all are filled in at once. -/
theorem Contribution.Writes.at_once_iff (formed : part.WellFormed)
    (written : Writes options part definition) :
    let values := placeholdersOf part options.checkedTypes
    (∀ name entry, definition.documentation.entry name = .ok entry ↔
      ∃ written, written? options part name = some written ∧
        written.fill values.atOnce = entry) ↔ values.saidName = part.className := by
  intro values
  have filled := written.entry_iff formed
  constructor
  · intro atOnce
    have tag := (filled "toStringTag" _).mpr ⟨.toStringTag, written_toStringTag options part, rfl⟩
    obtain ⟨entry, under, same⟩ := (atOnce "toStringTag" _).mp tag
    obtain rfl := Option.some.inj ((written_toStringTag options part).symm.trans under)
    have said : values.atOnce "__className__" =
        Placeholders.atOnce { values with className := values.saidName } "__className__" :=
      Option.some.inj (congrArg Entry.resultDescription same)
    rw [(Placeholders.atOnce_marks _).1, (Placeholders.atOnce_marks _).1] at said
    exact said.symm
  · intro said
    have same : { values with className := values.saidName } = values := by rw [said]; rfl
    rw [← same]
    exact filled

end Written

/-- In every class that is generated from a locked declaration, the entries of documentation are those
of the tables with all placeholders filled in at once, but the name of the class has been looked at for
the later ones. So they are filled in at once with the name itself exactly if this leaves the name as
it is, as it does where the name holds none of them. -/
theorem filled_at_once_iff {builder : Builder} (declared : builder.Declared)
    (locked : builder.isLocked = true) {options : CompileOptions} {helperDirectory : String}
    {source : SourceModule}
    (made : SourceModule.ofConfiguration builder.configuration options helperDirectory =
      .ok source) :
    ∀ definition ∈ source.contribution.classes, ∃ part ∈ Contribution.parts builder.configuration,
      Contribution.Writes options part definition ∧
      let values := placeholdersOf part options.checkedTypes
      (∀ name entry, definition.documentation.entry name = .ok entry ↔
        ∃ written, written? options part name = some written ∧
          written.fill (Placeholders.atOnce { values with className := values.saidName }) = entry) ∧
      ((∀ name entry, definition.documentation.entry name = .ok entry ↔
        ∃ written, written? options part name = some written ∧
          written.fill values.atOnce = entry) ↔ values.saidName = part.className) ∧
      ((∀ mark ∈ ["__valueType__", "__valueDesc__", "__argList__"],
        ¬ mark.toList <:+: part.className.toList) → values.saidName = part.className) := by
  intro definition among
  obtain ⟨part, inside, formed, written⟩ :=
    Contribution.part_of_locked declared locked made definition among
  exact ⟨part, inside, written, written.entry_iff formed, written.at_once_iff formed,
    (placeholdersOf part options.checkedTypes).saidName_of_unmarked⟩

theorem filled_at_once_seats :
    let seats : Builder := Builder.performAll ⟨⟨.map, .start⟩, .empty "CarSeats" (.map .strong)⟩
      [.addMapKey "car" "The car." false {}, .addMapKey "seat" "The seat." false {},
        .setValue "The driver __here." { documentType := some "Person" }, .lock]
    seats.isLocked = true ∧ ∃ source,
      SourceModule.ofConfiguration seats.configuration {} "./keys" = .ok source ∧
      source.contribution.classes.length = 1 ∧
      ∀ definition ∈ source.contribution.classes, ∃ part ∈ Contribution.parts seats.configuration,
        ∀ name entry, definition.documentation.entry name = .ok entry ↔
          ∃ written, written? {} part name = some written ∧
            written.fill (placeholdersOf part false).atOnce = entry := by
  intro seats
  have created : Builder.create "CarSeats" .map none =
      .ok ⟨⟨.map, .start⟩, .empty "CarSeats" (.map .strong)⟩ := rfl
  have declared : seats.Declared :=
    (Builder.Declared.created created).performAll _ (by simp [Call.base?])
  have locked : seats.isLocked = true := by decide +kernel
  obtain ⟨source, generated, classes⟩ : ∃ source,
      SourceModule.ofConfiguration seats.configuration {} "./keys" = .ok source ∧
        source.contribution.classes.length = 1 := by
    rw [exists_eq_ok]
    decide +kernel
  have plain : ∀ part ∈ Contribution.parts seats.configuration,
      ∀ mark ∈ ["__valueType__", "__valueDesc__", "__argList__"],
        ¬ mark.toList <:+: part.className.toList := by
    decide +kernel
  refine ⟨locked, source, generated, classes, fun definition among => ?_⟩
  obtain ⟨part, inside, -, -, atOnce, same⟩ :=
    filled_at_once_iff declared locked generated definition among
  exact ⟨part, inside, atOnce.mpr (same (plain part inside))⟩

/-- A name with a placeholder in it is a legal one, but what has come in for it is filled in again. -/
theorem className_filled_again :
    let counts : Builder := Builder.performAll
      ⟨⟨.map, .start⟩, .empty "Of__valueType__" (.map .strong)⟩
      [.addMapKey "car" "The car." false {}, .lock]
    Builder.create "Of__valueType__" .map none =
        .ok ⟨⟨.map, .start⟩, .empty "Of__valueType__" (.map .strong)⟩ ∧
      counts.isLocked = true ∧ ∃ source,
        SourceModule.ofConfiguration counts.configuration {} "./keys" = .ok source ∧
        ∃ definition ∈ source.contribution.classes, ∃ written entry,
          written? {} counts.configuration "constructor" = some written ∧
          definition.documentation.entry "constructor" = .ok entry ∧
          written.description = "Create a new __className__." ∧
          (placeholdersOf counts.configuration false).atOnce written.description =
            "Create a new Of__valueType__." ∧
          entry.description = "Create a new Of*." := by
  intro counts
  refine ⟨rfl, by decide +kernel, ?_⟩
  obtain ⟨source, made, definition, among, written, under, entry, found, said⟩ :
      ∃ source ∈ (SourceModule.ofConfiguration counts.configuration {} "./keys").toOption,
        ∃ definition ∈ source.contribution.classes,
          ∃ written ∈ written? {} counts.configuration "constructor",
            ∃ entry ∈ (definition.documentation.entry "constructor").toOption,
              written.description = "Create a new __className__." ∧
              (placeholdersOf counts.configuration false).atOnce written.description =
                "Create a new Of__valueType__." ∧
              entry.description = "Create a new Of*." := by
    decide +kernel
  exact ⟨source, toOption_eq_some.mp made, definition, among, written, entry, under,
    toOption_eq_some.mp found, said⟩

end CompositeKeys.Emission
