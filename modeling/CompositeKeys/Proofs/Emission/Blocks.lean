import CompositeKeys.Proofs.Collection.WellFormed
import CompositeKeys.Proofs.Emission.BlockLines
import CompositeKeys.Proofs.Emission.Documentation
import CompositeKeys.Proofs.Emission.Writing
import CompositeKeys.Proofs.Emission.Wording

/-! What blocks of documentation say. An entry is worded when nothing in it ends a comment once it has
been filled in. The entries of the tables are worded, and so are those that list declared dimensions
whose texts end no comment, so a block of filled documentation ends in its last line only. -/

namespace CompositeKeys
open Text Emission

theorem clear_of_legalName {name : String} (legal : LegalName name) : Clear name.toList :=
  clear_of_starless fun member => absurd (isIdentifier_words legal.identifier _ member) (by decide)

/-- A dimension that documentation can list. -/
structure Dimension.Listable (dimension : Dimension) : Prop where
  name : Clear dimension.name.toList
  documentType : Sayable dimension.documentType
  checkedType : Sayable dimension.checkedType
  description : Sayable dimension.description

theorem Dimension.Listable.shownType {dimension : Dimension} (listable : dimension.Listable)
    (checkedTypes : Bool) : Sayable (shownType checkedTypes dimension) := by
  unfold Emission.shownType
  split
  · exact listable.checkedType
  · exact listable.documentType

end CompositeKeys

namespace CompositeKeys.Emission
open Text

namespace ParameterRow

/-- A row that ends no comment once it has been filled in. -/
@[mk_iff]
structure IsWorded (row : ParameterRow) : Prop where
  typeName : Worded row.typeName
  name : Clear row.name.toList
  description : Worded row.description

instance (row : ParameterRow) : Decidable row.IsWorded :=
  decidable_of_iff _ (isWorded_iff row).symm

structure IsClear (row : ParameterRow) : Prop where
  typeName : Clear row.typeName.toList
  name : Clear row.name.toList
  description : Clear row.description.toList

theorem padded_clear {text : String} (clear : Clear text.toList) (width : Nat) :
    Clear (padded width text).toList := by
  rw [padded, String.toList_append]
  refine clear.append_apart fun letter member => ?_
  obtain rfl : letter = ' ' := by simpa using List.eq_of_mem_replicate (by simpa using member)
  decide

theorem braced_clear {row : ParameterRow} (clear : Clear row.typeName.toList) :
    Clear row.braced.toList := by
  have parts : row.braced.toList = ([] ++ '\x7b' :: row.typeName.toList) ++ ['\x7d'] := by
    simp [braced]
  rw [parts]
  exact (Clear.cut (by decide) clear (by decide)).append_apart (by simp [terminator])

theorem first_clear {row : ParameterRow} {text : String} (clear : row.IsClear)
    (said : Clear text.toList) (typeWidth nameWidth : Nat) :
    Clear (" * @param " ++ padded typeWidth row.braced ++ " " ++ padded nameWidth row.name ++ " " ++
      text).toList := by
  have type : Clear (" * @param " ++ padded typeWidth row.braced).toList :=
    (padded_clear (braced_clear clear.typeName) typeWidth).behind_blank (by decide +kernel)
      (by decide +kernel)
  exact (type.spaced (padded_clear clear.name nameWidth)).spaced said

theorem further_clear {text : String} (clear : Clear text.toList) (width : Nat) :
    Clear (" * " ++ padded width "" ++ text).toList := by
  refine clear.behind_blank ?_ ?_
  · exact (padded_clear (by decide) width).behind_blank (by decide +kernel) (by decide +kernel)
  · have blanks : (" * " ++ padded width "").toList = [' ', '*'] ++ List.replicate (width + 1) ' ' := by
      simp [padded, List.replicate_succ]
    rw [blanks, List.getLast?_append, List.getLast?_replicate]
    rfl

theorem exists_first_mem_table {rows : List ParameterRow} {row : ParameterRow} (among : row ∈ rows) :
    ∃ typeWidth nameWidth text, " * @param " ++ padded typeWidth row.braced ++ " " ++
      padded nameWidth row.name ++ " " ++ text ∈ table rows := by
  unfold table
  simp only [List.mem_flatMap]
  cases read : lines row.description with
  | nil => exact ⟨_, _, "", row, among, by rw [read]; exact List.mem_singleton_self _⟩
  | cons text rest => exact ⟨_, _, text, row, among, by rw [read]; exact List.mem_cons_self⟩

theorem table_clear {rows : List ParameterRow} (clear : ∀ row ∈ rows, row.IsClear) :
    ∀ line ∈ table rows, Clear line.toList := by
  intro line member
  obtain ⟨row, among, text, said, shape⟩ := of_mem_table member
  have textClear : Clear text.toList := by
    rcases said with rfl | read
    · decide
    · exact clear_lines (clear row among).description read
  rcases shape with ⟨typeWidth, nameWidth, rfl⟩ | ⟨width, rfl⟩
  · exact first_clear (clear row among) textClear _ _
  · exact further_clear textClear _

end ParameterRow

namespace Entry

/-- The texts of an entry outside its rows. -/
def texts (entry : Entry) : List String :=
  entry.description ::
    (entry.headers ++ entry.footers ++ entry.resultType.toList ++ entry.resultDescription.toList)

/-- The rows of an entry that no dimension stands for. -/
def ownRows (entry : Entry) : List ParameterRow := entry.rowsBefore ++ entry.rowsAfter

/-- An entry that ends no comment once it has been filled in. -/
@[mk_iff]
structure IsWorded (entry : Entry) : Prop where
  texts : ∀ text ∈ entry.texts, Worded text
  rows : ∀ row ∈ entry.ownRows, row.IsWorded

instance (entry : Entry) : Decidable entry.IsWorded :=
  decidable_of_iff _ (isWorded_iff entry).symm

structure IsClear (entry : Entry) : Prop where
  texts : ∀ text ∈ entry.texts, Clear text.toList
  rows : ∀ row ∈ entry.ownRows, row.IsClear

theorem texts_fill (entry : Entry) (fill : String → String) :
    (entry.fill fill).texts = entry.texts.map fill := by
  simp [texts, Entry.fill, Option.toList_map]

theorem ownRows_fill (entry : Entry) (fill : String → String) :
    (entry.fill fill).ownRows = entry.ownRows.map fun row =>
      { row with typeName := fill row.typeName, description := fill row.description } := by
  simp [ownRows, Entry.fill]

theorem IsWorded.fill {entry : Entry} (worded : entry.IsWorded) {values : Placeholders}
    (sayable : values.Sayable) : (entry.fill values.fill).IsClear := by
  refine ⟨fun text member => ?_, fun row member => ?_⟩
  · rw [texts_fill] at member
    obtain ⟨written, among, rfl⟩ := List.mem_map.mp member
    exact (worded.texts written among).fill_clear sayable
  · rw [ownRows_fill] at member
    obtain ⟨written, among, rfl⟩ := List.mem_map.mp member
    have row := worded.rows written among
    exact ⟨row.typeName.fill_clear sayable, row.name, row.description.fill_clear sayable⟩

theorem keySets_worded : keySets.IsWorded := by decide +kernel

/-- A binding has a row for each key and one for the value, all of them on either side, under names
that end in the mark of the side. -/
theorem of_mem_binding {sources : List Dimension} {checkedTypes : Bool} {row : ParameterRow}
    (member : row ∈ (binding sources checkedTypes).ownRows) :
    ∃ mark ∈ ["_1", "_2"], (∃ source ∈ sources, row = {
        typeName := shownType checkedTypes source
        name := source.name ++ mark
        description := source.description }) ∨
      row = { typeName := "object", name := "value" ++ mark, description := "The value." } := by
  simp only [ownRows, binding, List.append_nil, List.mem_append, List.mem_map,
    List.mem_singleton] at member
  rcases member with (⟨source, among, rfl⟩ | rfl) | (⟨source, among, rfl⟩ | rfl)
  · exact ⟨"_1", by simp, .inl ⟨source, among, rfl⟩⟩
  · exact ⟨"_1", by simp, .inr rfl⟩
  · exact ⟨"_2", by simp, .inl ⟨source, among, rfl⟩⟩
  · exact ⟨"_2", by simp, .inr rfl⟩

/-- A binding is worded over the keys of any base that can be listed. -/
theorem binding_worded {sources : List Dimension} (listable : ∀ source ∈ sources, source.Listable)
    (checkedTypes : Bool) : (binding sources checkedTypes).IsWorded := by
  have object : Worded "object" := by decide +kernel
  have value : Worded "The value." := by decide +kernel
  have marks : ∀ mark ∈ ["_1", "_2"], ∀ letter ∈ mark.toList, letter ∉ terminator := by
    simp [terminator]
  refine ⟨by simpa [binding, texts] using (by decide +kernel), fun row member => ?_⟩
  obtain ⟨mark, marked, shape⟩ := of_mem_binding member
  have clear : ∀ name : String, Clear name.toList → Clear (name ++ mark).toList := by
    intro name clear
    rw [String.toList_append]
    exact clear.append_apart (marks mark marked)
  rcases shape with ⟨source, among, rfl⟩ | rfl
  · exact ⟨.inl ((listable source among).shownType checkedTypes), clear _ (listable source among).name,
      .inl (listable source among).description⟩
  · exact ⟨object, clear _ (by decide), value⟩

end Entry

theorem Flavor.entries_worded (flavor : Flavor) : ∀ row ∈ flavor.entries, row.2.IsWorded := by
  cases flavor with
  | collection => decide +kernel
  | pairedSingle => decide +kernel
  | pairedDouble => decide +kernel

namespace Documentation

/-- Documentation that ends no comment once it has been filled in, which is still to be done. -/
structure IsWorded (documentation : Documentation) : Prop where
  entries : ∀ row ∈ documentation.entries, row.2.1.IsWorded ∧ row.2.2 = false
  arguments : ∀ dimension ∈ documentation.arguments, dimension.Listable
  value : ∀ value ∈ documentation.value, value.Listable

/-- Filled documentation that ends no comment. -/
structure IsClear (documentation : Documentation) : Prop where
  entries : ∀ row ∈ documentation.entries, row.2.1.IsClear
  arguments : ∀ dimension ∈ documentation.arguments, dimension.Listable
  value : ∀ value ∈ documentation.value, value.Listable

section Wording
variable {documentation next : Documentation} {name : String} {entry : Entry}

theorem IsWorded.add (worded : documentation.IsWorded) (entryWorded : entry.IsWorded)
    (added : documentation.add name entry = .ok next) : next.IsWorded := by
  obtain ⟨_, _, added⟩ := bind_eq_ok.mp added
  obtain rfl := pure_eq_ok.mp added
  refine { worded with entries := fun row member => ?_ }
  dsimp only at member
  split at member
  · obtain ⟨existing, among, rfl⟩ := List.mem_map.mp member
    split
    · exact ⟨entryWorded, rfl⟩
    · exact worded.entries existing among
  · rcases List.mem_append.mp member with among | fresh
    · exact worded.entries row among
    · obtain rfl := List.mem_singleton.mp fresh
      exact ⟨entryWorded, rfl⟩

theorem IsWorded.addDimension (worded : documentation.IsWorded) {dimension : Dimension}
    (listable : dimension.Listable) : (documentation.addDimension dimension).IsWorded := by
  unfold Documentation.addDimension
  split
  · exact { worded with value := fun value same => Option.some.inj same ▸ listable }
  · refine { worded with arguments := fun other member => ?_ }
    rcases List.mem_append.mp member with among | fresh
    · exact worded.arguments other among
    · exact List.mem_singleton.mp fresh ▸ listable

theorem IsWorded.addDimensions (worded : documentation.IsWorded) {dimensions : List Dimension}
    (listable : ∀ dimension ∈ dimensions, dimension.Listable) :
    (dimensions.foldl Documentation.addDimension documentation).IsWorded := by
  induction dimensions generalizing documentation with
  | nil => exact worded
  | cons dimension rest ih =>
    rw [List.forall_mem_cons] at listable
    exact ih (worded.addDimension listable.1) listable.2

theorem ofFlavor_worded {flavor : Flavor} {className : String} {checkedTypes : Bool}
    (made : ofFlavor flavor className checkedTypes = .ok documentation) :
    documentation.IsWorded := by
  obtain rfl := Except.ok.inj ((ofFlavor_eq flavor className checkedTypes).symm.trans made)
  refine ⟨fun row member => ?_, List.forall_mem_nil _, nofun⟩
  obtain ⟨entered, among, rfl⟩ := List.mem_map.mp member
  exact ⟨flavor.entries_worded entered among, rfl⟩

theorem typeOf_sayable (documentation : Documentation) {dimension : Dimension}
    (listable : dimension.Listable) : Sayable (documentation.typeOf dimension) :=
  listable.shownType documentation.checkedTypes

theorem IsWorded.filled (worded : documentation.IsWorded)
    (className : Clear (documentation.placeholders.fill "__className__").toList) :
    documentation.filled.IsClear := by
  -- Without a value the placeholders of the value stand for texts of their own.
  have sayable : documentation.placeholders.Sayable := by
    cases valued : documentation.value with
    | none =>
      refine ⟨className, ?_, ?_⟩
      · simpa [placeholders, valued] using (by decide +kernel : Sayable "*")
      · simpa [placeholders, valued] using (by decide +kernel : Sayable "The value.")
    | some value =>
      have listable := worded.value value valued
      refine ⟨className, ?_, ?_⟩
      · simpa [placeholders, valued] using documentation.typeOf_sayable listable
      · simpa [placeholders, valued] using listable.description
  refine ⟨fun row member => ?_, worded.arguments, worded.value⟩
  obtain ⟨⟨name, entry, done⟩, among, rfl⟩ := List.mem_map.mp member
  obtain ⟨entryWorded, rfl⟩ := worded.entries _ among
  exact entryWorded.fill sayable

end Wording

section Block
variable {documentation : Documentation} {entry : Entry}

theorem IsClear.rows (clear : documentation.IsClear) (entryClear : entry.IsClear) :
    ∀ row ∈ documentation.rows entry, row.IsClear := by
  have listed : ∀ dimension ∈ documentation.listed entry.listed, dimension.Listable := by
    intro dimension member
    rcases List.mem_append.mp (mem_listed member) with among | value
    · exact clear.arguments dimension among
    · exact clear.value dimension (Option.mem_toList.mp value)
  intro row member
  simp only [Documentation.rows, List.mem_append, List.mem_map] at member
  rcases member with (before | ⟨dimension, among, rfl⟩) | after
  · exact entryClear.rows row (List.mem_append_left _ before)
  · have listable := listed dimension among
    exact ⟨(documentation.typeOf_sayable listable).clear, listable.name, listable.description.clear⟩
  · exact entryClear.rows row (List.mem_append_right _ after)

theorem marginal_clear {text : String} (clear : Clear text.toList) :
    Clear (" * " ++ text).toList :=
  clear.behind_blank (by decide +kernel) (by decide +kernel)

theorem marginals_clear {texts : List String} (clear : ∀ text ∈ texts, Clear text.toList) :
    ∀ line ∈ texts.map (" * " ++ ·), Clear line.toList := by
  intro line member
  obtain ⟨text, among, rfl⟩ := List.mem_map.mp member
  exact marginal_clear (clear text among)

theorem underBlank_clear {lines : List String} (clear : ∀ line ∈ lines, Clear line.toList) :
    ∀ line ∈ underBlank lines, Clear line.toList := by
  unfold underBlank
  split
  · exact nofun
  · exact List.forall_mem_cons.mpr ⟨by decide, clear⟩

theorem of_mem_resultLine {line : String} (member : line ∈ resultLine entry) :
    ∃ opening ∈ [" * @yields ", " * @returns "], ∃ typeName ∈ entry.texts,
      ∃ description ∈ entry.texts,
        line = opening ++ "\x7b" ++ typeName ++ "\x7d " ++ description := by
  unfold resultLine at member
  split at member
  next typeName description typed described =>
    have type : typeName ∈ entry.texts := by simp [Entry.texts, typed]
    have result : description ∈ entry.texts := by simp [Entry.texts, described]
    obtain rfl := List.mem_singleton.mp member
    split
    · exact ⟨" * @yields ", by simp, typeName, type, description, result, rfl⟩
    · exact ⟨" * @returns ", by simp, typeName, type, description, result, rfl⟩
  · cases member

theorem resultLine_clear (clear : entry.IsClear) :
    ∀ line ∈ resultLine entry, Clear line.toList := by
  have openings : ∀ opening ∈ [" * @yields ", " * @returns "], Clear opening.toList := by
    decide +kernel
  intro line member
  obtain ⟨opening, tagged, typeName, type, description, result, rfl⟩ := of_mem_resultLine member
  have parts : (opening ++ "\x7b" ++ typeName ++ "\x7d " ++ description).toList =
      (opening.toList ++ '\x7b' :: typeName.toList) ++
        '\x7d' :: ([] ++ ' ' :: description.toList) := by
    simp
  rw [parts]
  exact ((openings opening tagged).cut (clear.texts typeName type) (by decide)).cut
    (Clear.cut (by decide) (clear.texts description result) (by decide)) (by decide)

/-- A block ends in its last line, and nowhere ahead of it. -/
theorem IsClear.block {name text : String} (clear : documentation.IsClear)
    (made : documentation.block name (indentation 1) = .ok text) :
    ∃ body, Ended body.toList ∧ Clear body.toList ∧
      text = body ++ (indentation 1 ++ " ") ++ "*/\n" := by
  obtain ⟨entry, found, made⟩ := bind_eq_ok.mp made
  obtain rfl := pure_eq_ok.mp made
  have entryClear : entry.IsClear := by
    unfold Documentation.entry at found
    split at found
    next found? =>
      obtain rfl := Except.ok.inj found
      exact clear.entries _ (List.mem_of_find?_eq_some found?)
    · cases found
  obtain ⟨front, same, frontClear⟩ : ∃ front, documentation.blockLines entry = front ++ [" */"] ∧
      ∀ line ∈ front, Clear line.toList := by
    refine ⟨_, documentation.blockLines_eq entry, ?_⟩
    simp only [leadLines, List.forall_mem_append, and_assoc]
    refine ⟨by decide, marginals_clear fun line member => ?_, underBlank_clear (marginals_clear ?_),
      underBlank_clear (ParameterRow.table_clear (clear.rows entryClear)),
      underBlank_clear (resultLine_clear entryClear), underBlank_clear (marginals_clear ?_)⟩
    · exact clear_lines (entryClear.texts _ List.mem_cons_self) member
    · exact fun text member => entryClear.texts text (by simp [Entry.texts, member])
    · exact fun text member => entryClear.texts text (by simp [Entry.texts, member])
  refine ⟨String.join ((front.map fun line => indentation 1 ++ trimEnd line).map (· ++ "\n")),
    ?_, clear_join_lines ?_, ?_⟩
  · refine Ended.join fun line member => ?_
    obtain ⟨_, _, rfl⟩ := List.mem_map.mp member
    exact ended_feed _
  · intro line member
    obtain ⟨written, among, rfl⟩ := List.mem_map.mp member
    -- What is left of a line without the blanks at its end is a part of it.
    refine Clear.behind_blank ?_ (by decide) (by decide)
    rw [trimEnd, String.toList_ofList]
    exact (frontClear written among).of_isInfix (unpadded_isInfix _)
  · have last : trimEnd " */" = " " ++ "*/" := by decide +kernel
    simp [same, last, String.append_assoc, Function.comp_def]

end Block

end Documentation

end CompositeKeys.Emission
