import CompositeKeys.Proofs.Emission.Blocks
import CompositeKeys.Proofs.Emission.Entries
import CompositeKeys.Proofs.Emission.Generatable
import CompositeKeys.Proofs.Emission.Hygiene
import CompositeKeys.Proofs.Emission.KeyPlans

/-! The margin of a block of documentation. Every line that a block is put together from begins at the
margin, but only descriptions are cut into lines before they come in. Types and what is said of a
result come in whole, so they leave the margin as soon as they have lines of their own. -/

namespace CompositeKeys.Emission
open Text

/-- A text without line feeds. -/
def OneLine (text : String) : Prop := '\n' ∉ text.toList

theorem oneLine_of_bytes {text : String}
    (bytes : text.toByteArray.data.toList.contains 0x0a = false) : OneLine text := by
  intro feed
  have byte : (0x0a : UInt8) ∈ text.toByteArray.data.toList := byte_mem feed (by decide)
  simp [byte] at bytes

-- Most texts have one line, and looking at their bytes is fast.
instance (text : String) : Decidable (OneLine text) :=
  if bytes : text.toByteArray.data.toList.contains 0x0a = false then .isTrue (oneLine_of_bytes bytes)
  else inferInstanceAs (Decidable (¬ _))

@[simp] theorem oneLine_append {first second : String} :
    OneLine (first ++ second) ↔ OneLine first ∧ OneLine second := by
  simp [OneLine]

theorem OneLine.padded {text : String} (oneLine : OneLine text) (width : Nat) :
    OneLine (ParameterRow.padded width text) := by
  simp only [ParameterRow.padded, oneLine_append, oneLine, true_and]
  simp [OneLine]

theorem OneLine.trimEnd {text : String} (oneLine : OneLine text) : OneLine (trimEnd text) := by
  simp only [OneLine, Text.trimEnd, String.toList_ofList]
  exact fun feed => oneLine ((unpadded_isInfix _).subset feed)

theorem oneLine_of_mem_lines {text line : String} (member : line ∈ lines text) : OneLine line := by
  obtain ⟨letters, among, rfl⟩ := List.mem_map.mp member
  simpa [OneLine] using (part_of_mem_linesOf among).2

/-- What is filled in has one line if the text and everything that comes in have one. -/
theorem OneLine.fill {text : String} (oneLine : OneLine text) {values : Placeholders}
    (each : ∀ value ∈ [values.className, values.valueType, values.valueDescription,
      values.arguments], OneLine value) : OneLine (values.fill text) := by
  simp only [List.forall_mem_cons] at each
  obtain ⟨className, valueType, valueDescription, arguments, -⟩ := each
  have step : ∀ {pattern value : String} {letters : List Char}, OneLine value → '\n' ∉ letters →
      '\n' ∉ replacing pattern.toList value.toList 0 letters :=
    fun value letters feed => (mem_replacing feed).elim value letters
  rw [OneLine, Placeholders.toList_fill, Placeholders.fillLetters]
  exact step arguments (step valueDescription (step valueType (step className oneLine)))

/-- A block whose lines all stand at the margin, between a first and a last one. -/
def Margined (indent block : String) : Prop :=
  ∃ body : List String, (∀ line ∈ body, OneLine line ∧ " *".toList <+: line.toList) ∧
    block = String.join ((["/**"] ++ body ++ [" */"]).map (indent ++ · ++ "\n"))

/-- In a text of whole lines that begin alike, a line feed is the last letter or the next line begins
behind it. -/
theorem followed_of_lines {indent : String} {texts : List String}
    (oneLine : ∀ line ∈ texts, OneLine (indent ++ line)) {after : List Char}
    (fed : '\n' :: after <:+ (String.join (texts.map (indent ++ · ++ "\n"))).toList) :
    after = [] ∨ indent.toList <+: after := by
  induction texts with
  | nil => simp at fed
  | cons line texts ih =>
    obtain ⟨first, others⟩ := List.forall_mem_cons.mp oneLine
    obtain ⟨before, cut⟩ := fed
    have begins : ∀ rest, '\n' :: rest =
        '\n' :: (String.join (texts.map (indent ++ · ++ "\n"))).toList →
          rest = [] ∨ indent.toList <+: rest := by
      intro rest same
      rw [List.tail_eq_of_cons_eq same]
      cases texts with
      | nil => exact .inl (by simp)
      | cons next texts => exact .inr (by simp)
    have parts : before ++ '\n' :: after = (indent ++ line).toList ++ '\n' ::
        (String.join (texts.map (indent ++ · ++ "\n"))).toList := by
      rw [cut]
      simp
    rcases List.append_eq_append_iff.mp parts with ⟨early, same, rest⟩ | ⟨late, same, rest⟩
    · cases early with
      | nil => exact begins after rest
      | cons letter early =>
        obtain rfl := List.head_eq_of_cons_eq rest
        exact absurd (same ▸ by simp) first
    · cases late with
      | nil => exact begins after rest.symm
      | cons letter late => exact ih others ⟨late, (List.tail_eq_of_cons_eq rest).symm⟩

theorem Margined.followed {indent block : String} (margined : Margined indent block)
    (oneLine : OneLine indent) {after : List Char} (fed : '\n' :: after <:+ block.toList) :
    after = [] ∨ indent.toList <+: after := by
  obtain ⟨body, each, rfl⟩ := margined
  refine followed_of_lines (fun line member => oneLine_append.mpr ⟨oneLine, ?_⟩) fed
  have ends : OneLine "/**" ∧ OneLine " */" := by decide
  simp only [List.mem_append, List.mem_singleton] at member
  rcases member with (rfl | inside) | rfl
  · exact ends.1
  · exact (each line inside).1
  · exact ends.2

/-- A line feed within an indented line is followed by what may be taken for no indentation. -/
theorem oneLine_of_margined {texts : List String} (tidy : ∀ line ∈ texts, trimEnd line = line)
    (margined : ∀ indent, OneLine indent →
      Margined indent (String.join (texts.map (indent ++ · ++ "\n")))) :
    ∀ line ∈ texts, OneLine line := by
  intro line among feed
  obtain ⟨before, after, cut⟩ := List.append_of_mem feed
  -- A tidy line does not end in its line feed, so there is a letter behind it.
  obtain ⟨letter, rest, rfl⟩ : ∃ letter rest, after = letter :: rest := by
    refine List.exists_cons_of_ne_nil fun none => ?_
    have kept : unpadded line.toList = line.toList := by
      simpa [trimEnd] using congrArg String.toList (tidy line among)
    rw [cut, none, unpadded_append_singleton, if_pos (by decide)] at kept
    have shorter := (unpadded_isInfix before).length_le
    rw [kept, List.length_append, List.length_singleton] at shorter
    omega
  obtain ⟨other, apart, plain⟩ : ∃ other : Char, other ≠ letter ∧ other ≠ '\n' := by
    by_cases same : letter = 'x'
    · exact ⟨'y', by rw [same]; decide, by decide⟩
    · exact ⟨'x', Ne.symm same, by decide⟩
  have oneLine : OneLine (String.singleton other) := by simp [OneLine, Ne.symm plain]
  obtain ⟨early, late, rfl⟩ := List.append_of_mem among
  have fed : '\n' :: letter :: (rest ++ '\n' :: (String.join (late.map
      (String.singleton other ++ · ++ "\n"))).toList) <:+ (String.join ((early ++ line :: late).map
        (String.singleton other ++ · ++ "\n"))).toList :=
    ⟨(String.join (early.map (String.singleton other ++ · ++ "\n"))).toList ++ other :: before, by
      simp [cut]⟩
  rcases (margined _ oneLine).followed oneLine fed with none | begins
  · cases none
  · exact apart (by simpa using begins)

namespace ParameterRow

theorem table_oneLine {rows : List ParameterRow}
    (each : ∀ row ∈ rows, OneLine row.typeName ∧ OneLine row.name) :
    ∀ line ∈ table rows, OneLine line := by
  have marks : OneLine " * @param " ∧ OneLine " * " ∧ OneLine " " ∧ OneLine "" ∧ OneLine "\x7b" ∧
      OneLine "\x7d" := by
    decide
  intro line member
  obtain ⟨row, among, text, said, shape⟩ := of_mem_table member
  obtain ⟨typeName, name⟩ := each row among
  have textLine : OneLine text := said.elim (· ▸ by decide) oneLine_of_mem_lines
  have cells : OneLine row.braced ∧ ∀ width, OneLine (padded width row.braced) ∧
      OneLine (padded width row.name) ∧ OneLine (padded width "") := by
    have braced : OneLine row.braced := by simp [ParameterRow.braced, typeName, marks]
    exact ⟨braced, fun width =>
      ⟨braced.padded width, name.padded width, OneLine.padded (by decide) width⟩⟩
  rcases shape with ⟨typeWidth, nameWidth, rfl⟩ | ⟨width, rfl⟩
  · simp [marks, cells, textLine]
  · simp [marks, cells, textLine]

end ParameterRow

namespace Documentation
variable {documentation : Documentation} {name : String} {entry : Entry}

theorem underBlank_oneLine {lines : List String} (oneLine : ∀ line ∈ lines, OneLine line) :
    ∀ line ∈ underBlank lines, OneLine line := by
  unfold underBlank
  split
  · exact List.forall_mem_nil _
  · exact List.forall_mem_cons.mpr ⟨by decide, oneLine⟩

theorem resultLine_oneLine (texts : ∀ text ∈ entry.texts, OneLine text) :
    ∀ line ∈ resultLine entry, OneLine line := by
  have openings : ∀ opening ∈ [" * @yields ", " * @returns "], OneLine opening := by decide
  have braces : OneLine "\x7b" ∧ OneLine "\x7d " := by decide
  intro line member
  obtain ⟨opening, tagged, typeName, type, description, result, rfl⟩ := of_mem_resultLine member
  simp [openings opening tagged, braces, texts typeName type, texts description result]

theorem blockLines_oneLine (texts : ∀ text ∈ entry.texts, OneLine text)
    (rows : ∀ row ∈ documentation.rows entry, OneLine row.typeName ∧ OneLine row.name) :
    ∀ line ∈ documentation.blockLines entry, OneLine line := by
  have marginal : ∀ {own : List String}, (∀ text ∈ own, OneLine text) →
      ∀ line ∈ own.map (" * " ++ ·), OneLine line := by
    intro own each line member
    obtain ⟨text, among, rfl⟩ := List.mem_map.mp member
    exact oneLine_append.mpr ⟨by decide, each text among⟩
  have headers : ∀ text ∈ entry.headers, OneLine text :=
    fun text member => texts text (by simp [Entry.texts, member])
  have footers : ∀ text ∈ entry.footers, OneLine text :=
    fun text member => texts text (by simp [Entry.texts, member])
  simp only [blockLines_eq, leadLines, List.forall_mem_append, List.forall_mem_singleton]
  exact ⟨⟨⟨⟨⟨⟨by decide, marginal fun _ => oneLine_of_mem_lines⟩,
    underBlank_oneLine (marginal headers)⟩,
    underBlank_oneLine (ParameterRow.table_oneLine rows)⟩,
    underBlank_oneLine (resultLine_oneLine texts)⟩, underBlank_oneLine (marginal footers)⟩,
    by decide⟩

theorem trimEnd_margined {line : String} (margined : " *".toList <+: line.toList) :
    " *".toList <+: (trimEnd line).toList := by
  obtain ⟨rest, same⟩ := margined
  have parts : line.toList = [' '] ++ '*' :: rest := same.symm
  rw [trimEnd, String.toList_ofList, parts, unpadded_append_cons (by decide)]
  simp

/-- The block of an entry has the same lines behind every indentation. -/
theorem block_lines (found : documentation.entry name = .ok entry) :
    ∃ body, (documentation.blockLines entry).map trimEnd = ["/**"] ++ body ++ [" */"] ∧
      (∀ line ∈ body, " *".toList <+: line.toList) ∧
      ∀ indent, documentation.block name indent =
        .ok (String.join ((["/**"] ++ body ++ [" */"]).map (indent ++ · ++ "\n"))) := by
  obtain ⟨body, whole, margined⟩ := documentation.exists_body entry
  have ends : trimEnd "/**" = "/**" ∧ trimEnd " */" = " */" := by decide
  have trimmed : (documentation.blockLines entry).map trimEnd =
      ["/**"] ++ body.map trimEnd ++ [" */"] := by
    simp [whole, ends]
  refine ⟨body.map trimEnd, trimmed, fun line member => ?_, fun indent => ?_⟩
  · obtain ⟨written, among, rfl⟩ := List.mem_map.mp member
    exact trimEnd_margined (margined written among)
  · rw [block_of_entry found, ← trimmed, List.map_map]
    rfl

/-- The blocks of an entry stand at the margin, whatever it is, exactly if no line that they are put
together from is broken. -/
theorem block_margined_iff (found : documentation.entry name = .ok entry) :
    (∀ indent, OneLine indent →
      ∃ block, documentation.block name indent = .ok block ∧ Margined indent block) ↔
    ∀ line ∈ documentation.blockLines entry, OneLine (trimEnd line) := by
  obtain ⟨body, trimmed, margined, blocks⟩ := block_lines found
  rw [← List.forall_mem_map, trimmed]
  constructor
  · intro each
    apply oneLine_of_margined
    · intro line member
      rw [← trimmed] at member
      obtain ⟨written, -, rfl⟩ := List.mem_map.mp member
      simp only [trimEnd, String.toList_ofList]
      exact congrArg String.ofList (List.rdropWhile_idempotent isBlank _)
    · intro indent oneLine
      obtain ⟨block, made, inside⟩ := each indent oneLine
      rwa [← Except.ok.inj ((blocks indent).symm.trans made)] at inside
  · intro oneLine indent _
    refine ⟨_, blocks indent, body, fun line member => ⟨oneLine line ?_, margined line member⟩, rfl⟩
    simp [member]

end Documentation

/-- An entry that brings nothing into a block whole but what has one line. -/
@[mk_iff]
structure Entry.IsOneLine (entry : Entry) : Prop where
  texts : ∀ text ∈ entry.texts, OneLine text
  rows : ∀ row ∈ entry.ownRows, OneLine row.typeName ∧ OneLine row.name

instance (entry : Entry) : Decidable entry.IsOneLine :=
  decidable_of_iff _ (Entry.isOneLine_iff entry).symm

theorem Entry.IsOneLine.fill {entry : Entry} (oneLine : entry.IsOneLine) {values : Placeholders}
    (each : ∀ value ∈ [values.className, values.valueType, values.valueDescription,
      values.arguments], OneLine value) : (entry.fill values.fill).IsOneLine := by
  refine ⟨fun text member => ?_, fun row member => ?_⟩
  · rw [texts_fill] at member
    obtain ⟨written, among, rfl⟩ := List.mem_map.mp member
    exact (oneLine.texts written among).fill each
  · rw [ownRows_fill] at member
    obtain ⟨written, among, rfl⟩ := List.mem_map.mp member
    obtain ⟨typeName, name⟩ := oneLine.rows written among
    exact ⟨typeName.fill each, name⟩

theorem Flavor.entries_oneLine (flavor : Flavor) : ∀ row ∈ flavor.entries, row.2.IsOneLine := by
  cases flavor with
  | collection => decide +kernel
  | pairedSingle => decide +kernel
  | pairedDouble => decide +kernel

theorem OneLine.of_legalName {name : String} (legal : LegalName name) : OneLine name :=
  isIdentifier_oneLine legal.identifier

theorem Entry.binding_oneLine {sources : List Dimension} {checkedTypes : Bool}
    (each : ∀ source ∈ sources,
      LegalName source.name ∧ OneLine (shownType checkedTypes source)) :
    (Entry.binding sources checkedTypes).IsOneLine := by
  have marks : ∀ mark ∈ ["_1", "_2"], OneLine mark := by decide
  have value : OneLine "object" ∧ OneLine "value" := by decide
  refine ⟨by simpa [binding, texts] using (by decide +kernel), fun row member => ?_⟩
  obtain ⟨mark, marked, ⟨source, among, rfl⟩ | rfl⟩ := of_mem_binding member
  · exact ⟨(each source among).2,
      oneLine_append.mpr ⟨.of_legalName (each source among).1, marks mark marked⟩⟩
  · exact ⟨value.1, oneLine_append.mpr ⟨value.2, marks mark marked⟩⟩

theorem oneLine_intercalate {separator : String} {texts : List String} (between : OneLine separator)
    (each : ∀ text ∈ texts, OneLine text) : OneLine (separator.intercalate texts) := by
  induction texts with
  | nil => simp [OneLine]
  | cons text rest ih =>
    obtain ⟨first, others⟩ := List.forall_mem_cons.mp each
    cases rest with
    | nil => simpa using first
    | cons next rest =>
      rw [String.intercalate_cons_of_ne_nil (List.cons_ne_nil next rest)]
      simp [first, between, ih others]

/-- The texts of declared dimensions that blocks take in whole. -/
def wholeTexts (part : Configuration) (checkedTypes : Bool) : List String :=
  (shownKeys part).map (shownType checkedTypes) ++
    (shownValue? part).toList.flatMap fun value => [shownType checkedTypes value, value.description]

section Drafts
variable {part : Configuration} {checkedTypes yieldsKeys : Bool} {draft : Documentation}

theorem placeholdersOf_oneLine (formed : part.WellFormed)
    (whole : ∀ text ∈ wholeTexts part checkedTypes, OneLine text) :
    let values := placeholdersOf part checkedTypes
    ∀ value ∈ [values.className, values.valueType, values.valueDescription, values.arguments],
      OneLine value := by
  have className : OneLine part.className := .of_legalName formed.own.classNamed
  have names : ∀ name ∈ (shownKeys part).map Dimension.name, OneLine name :=
    List.forall_mem_map.mpr fun key member => .of_legalName (shownKeys_named formed key member)
  have arguments := oneLine_intercalate (by decide : OneLine ", ") names
  simp only [placeholdersOf, List.forall_mem_cons]
  cases shown : shownValue? part with
  | none =>
    exact ⟨className, (by decide : OneLine "*"), (by decide : OneLine "The value."), arguments,
      List.forall_mem_nil _⟩
  | some value =>
    exact ⟨className, whole _ (by simp [wholeTexts, shown]), whole _ (by simp [wholeTexts, shown]),
      arguments, List.forall_mem_nil _⟩

/-- Blocks whose whole texts have one line are broken nowhere. -/
theorem Drafts.blockLines_oneLine (drafts : Drafts part checkedTypes yieldsKeys draft)
    (formed : part.WellFormed) (whole : ∀ text ∈ wholeTexts part checkedTypes, OneLine text)
    {name : String} {entry : Entry} (found : draft.filled.entry name = .ok entry) :
    ∀ line ∈ draft.filled.blockLines entry, OneLine line := by
  have keys : ∀ key ∈ shownKeys part, LegalName key.name ∧ OneLine (shownType checkedTypes key) :=
    fun key member => ⟨shownKeys_named formed key member, whole _ (by
      simpa [wholeTexts] using .inl ⟨key, member, rfl⟩)⟩
  obtain ⟨written, under, rfl⟩ := drafts.entry_filled_iff.mp found
  have oneLine : written.IsOneLine := by
    rcases entryOf_cases under with rfl | rfl | ⟨row, among, rfl⟩
    · decide +kernel
    · exact Entry.binding_oneLine keys
    · exact (tableOf part).entries_oneLine row among
  have filled := oneLine.fill (placeholdersOf_oneLine formed whole)
  refine Documentation.blockLines_oneLine filled.texts fun row member => ?_
  simp only [Documentation.rows, List.mem_append, List.mem_map] at member
  rcases member with (before | ⟨dimension, among, rfl⟩) | after
  · exact filled.rows row (List.mem_append_left _ before)
  · have shown : draft.filled.typeOf dimension = shownType checkedTypes dimension :=
      drafts.typeOf dimension
    rw [shown]
    rcases List.mem_append.mp (Documentation.mem_listed among) with key | value
    · rw [show draft.filled.arguments = draft.arguments from rfl, drafts.arguments] at key
      exact ⟨(keys dimension key).2, .of_legalName (keys dimension key).1⟩
    · rw [show draft.filled.value = draft.value from rfl, drafts.value, Option.mem_toList] at value
      obtain ⟨named, -⟩ := shownValue_checked formed dimension value
      have valued : shownValue? part = some dimension := value
      exact ⟨whole _ (by simp [wholeTexts, valued]), named ▸ (by decide : OneLine valueName)⟩
  · exact filled.rows row (List.mem_append_right _ after)

/-- The type of a row is whole in the first line of the row. -/
theorem oneLine_of_row {documentation : Documentation} {entry : Entry}
    (lined : ∀ line ∈ documentation.blockLines entry, OneLine (trimEnd line)) :
    ∀ row ∈ documentation.rows entry, OneLine row.typeName := by
  intro row among
  obtain ⟨typeWidth, nameWidth, text, first⟩ := ParameterRow.exists_first_mem_table among
  obtain ⟨before, after, parts⟩ := documentation.blockLines_around_table entry
  have oneLine := lined _ (parts ▸ List.mem_append_left _ (List.mem_append_right _ first))
  generalize cells : " * @param " ++ ParameterRow.padded typeWidth row.braced ++ " " ++
    ParameterRow.padded nameWidth row.name ++ " " ++ text = line at oneLine
  obtain ⟨rest, cut⟩ : ∃ rest,
      line.toList = (" * @param \x7b".toList ++ row.typeName.toList) ++ '\x7d' :: rest := by
    exact ⟨_, by simp [← cells, ParameterRow.padded, ParameterRow.braced]; rfl⟩
  rw [OneLine, trimEnd, String.toList_ofList, cut, unpadded_append_cons (by decide)] at oneLine
  simp only [List.mem_append, not_or] at oneLine
  exact oneLine.1.2

/-- What `get` says of its result is the last thing in its line, and a full stop ends it. -/
theorem oneLine_of_result {documentation : Documentation} {entry : Entry} {typeName description : String}
    (typed : entry.resultType = some typeName) (described : entry.resultDescription = some description)
    (stopped : description.toList.getLast? = some '.')
    (lined : ∀ line ∈ documentation.blockLines entry, OneLine (trimEnd line)) :
    OneLine typeName ∧ OneLine description := by
  obtain ⟨opening, result⟩ : ∃ opening,
      Documentation.resultLine entry = [opening ++ "\x7b" ++ typeName ++ "\x7d " ++ description] := by
    unfold Documentation.resultLine
    rw [typed, described]
    cases entry.isGenerator with
    | true => exact ⟨" * @yields ", rfl⟩
    | false => exact ⟨" * @returns ", rfl⟩
  have among : opening ++ "\x7b" ++ typeName ++ "\x7d " ++ description ∈
      documentation.blockLines entry := by
    simp [Documentation.blockLines_eq, Documentation.leadLines, Documentation.underBlank, result]
  have oneLine := lined _ among
  obtain ⟨front, cut⟩ := List.getLast?_eq_some_iff.mp stopped
  have kept : trimEnd (opening ++ "\x7b" ++ typeName ++ "\x7d " ++ description) =
      opening ++ "\x7b" ++ typeName ++ "\x7d " ++ description := by
    rw [← String.toList_inj, trimEnd, String.toList_ofList, String.toList_append, cut,
      ← List.append_assoc, unpadded_append_cons (by decide)]
    rfl
  rw [kept] at oneLine
  simp only [oneLine_append] at oneLine
  exact ⟨oneLine.1.1.2, oneLine.2⟩

/-- Every key that is shown at all is listed under `has`. -/
theorem has_lists {key : Dimension} (shown : key ∈ shownKeys part) :
    ∃ entry, entryOf? part checkedTypes yieldsKeys "has" = some entry ∧
      entry.listed = .exceptValue := by
  have listing : ((tableOf part).under? "has").map Entry.listed = some .exceptValue := by
    cases part with
    | plain own => rfl
    | paired own link base =>
      have filled : link.sources base ≠ [] := List.ne_nil_of_mem shown
      rw [tableOf, if_neg filled]
      rfl
  rw [entryOf_table part checkedTypes yieldsKeys (by decide)]
  exact Option.map_eq_some_iff.mp listing

/-- A value is shown under `get`, with its type and its description. -/
theorem get_shows (formed : part.WellFormed) {value : Dimension}
    (shown : shownValue? part = some value) :
    ∃ entry, entryOf? part checkedTypes yieldsKeys "get" = some entry ∧
      (entry.fill (placeholdersOf part checkedTypes).fill).resultType =
        some (shownType checkedTypes value ++ " | undefined") ∧
      (entry.fill (placeholdersOf part checkedTypes).fill).resultDescription =
        some (value.description ++ " Undefined if it isn't in the collection.") := by
  have typeName : (placeholdersOf part checkedTypes).valueType = shownType checkedTypes value := by
    simp [placeholdersOf, shown]
  have said : (placeholdersOf part checkedTypes).valueDescription = value.description := by
    simp [placeholdersOf, shown]
  obtain ⟨typeLegal, descriptionLegal⟩ := placeholdersOf_legal formed checkedTypes
  obtain ⟨type, description⟩ := (placeholdersOf part checkedTypes).fill_result
    (unmarked_of_legal typeLegal) (unmarked_of_legal descriptionLegal)
  rw [typeName] at type
  rw [said] at description
  rw [entryOf_table part checkedTypes yieldsKeys (by decide)]
  cases part with
  | plain own => exact ⟨_, rfl, congrArg some type, congrArg some description⟩
  | paired own link base => cases shown

/-- The blocks under `has` and `get` show everything that blocks take in whole. -/
theorem Drafts.whole_of_lined (drafts : Drafts part checkedTypes yieldsKeys draft)
    (formed : part.WellFormed)
    (lined : ∀ name ∈ "has" :: (shownValue? part).toList.map fun _ => "get",
      ∀ entry, draft.filled.entry name = .ok entry →
        ∀ line ∈ draft.filled.blockLines entry, OneLine (trimEnd line)) :
    ∀ text ∈ wholeTexts part checkedTypes, OneLine text := by
  unfold wholeTexts
  rw [List.forall_mem_append, List.forall_mem_map]
  constructor
  · intro key member
    obtain ⟨written, under, listed⟩ := has_lists member
    have found := drafts.entry_filled_iff.mpr ⟨written, under, rfl⟩
    have among : key ∈ draft.filled.listed
        (written.fill (placeholdersOf part checkedTypes).fill).listed := by
      rw [Documentation.filled_listed, Entry.fill_listed, listed, Documentation.listed,
        drafts.arguments]
      exact member
    rw [← drafts.typeOf]
    exact oneLine_of_row (lined "has" List.mem_cons_self _ found) _ (Documentation.mem_rows among)
  · intro text member
    obtain ⟨value, valued, member⟩ := List.mem_flatMap.mp member
    have shown : shownValue? part = some value := Option.mem_toList.mp valued
    obtain ⟨written, under, type, description⟩ := get_shows formed shown
    have found := drafts.entry_filled_iff.mpr ⟨written, under, rfl⟩
    obtain ⟨typeLine, descriptionLine⟩ :=
      oneLine_of_result type description (by simp) (lined "get" (by simp [shown]) _ found)
    rcases List.mem_cons.mp member with rfl | described
    · exact (oneLine_append.mp typeLine).1
    · exact List.mem_singleton.mp described ▸ (oneLine_append.mp descriptionLine).1

end Drafts

-- Which members there are hangs on the kind of template alone, so these compute.

theorem Template.has_documented {template : Template} {bindings : Bindings} {outline : ClassOutline}
    (outlined : template.outline bindings = .ok outline) : "has" ∈ outline.documented := by
  rw [← List.contains_iff_mem]
  cases template with
  | map keying weak =>
    cases outlined
    cases weak <;> rfl
  | set keying weak =>
    cases outlined
    cases weak <;> rfl
  | mapOfSets outer weak inner =>
    cases outlined
    cases weak <;> rfl
  | paired =>
    unfold Template.outline at outlined
    dsimp only at outlined
    split at outlined
    next pairing found =>
      cases outlined
      unfold pairedMap
      cases pairing.isSingle <;> rfl
    · cases outlined

theorem get_documented (bindings : Bindings) (keying : Keying) (weak : Bool) :
    "get" ∈ (keyedMap bindings keying weak).documented := by
  rw [← List.contains_iff_mem]
  cases weak <;> rfl

namespace Contribution
variable {options : CompileOptions} {part : Configuration} {definition : ClassDefinition}

theorem Writes.exists_entry (written : Writes options part definition) {name : String}
    (documented : name ∈ definition.outline.documented) :
    ∃ entry, definition.documentation.entry name = .ok entry := by
  obtain ⟨bindings, -, defined⟩ := written
  obtain ⟨-, whole, -⟩ := ClassDefinition.ofConfiguration_ok defined
  obtain ⟨member, listed, said⟩ := List.mem_filterMap.mp documented
  obtain ⟨block, made⟩ := whole.block member listed name said
  obtain ⟨entry, found, -⟩ := bind_eq_ok.mp made
  exact ⟨entry, found⟩

/-- The blocks of a class stand at the margin, whatever it is, exactly if everything that they take in
whole has one line. -/
theorem Writes.margined_iff (formed : part.WellFormed) (written : Writes options part definition) :
    (∀ name ∈ definition.outline.documented, ∀ indent, OneLine indent →
      ∃ block, definition.documentation.block name indent = .ok block ∧ Margined indent block) ↔
    ∀ text ∈ wholeTexts part options.checkedTypes, OneLine text := by
  have entries : ∀ name ∈ definition.outline.documented,
      ∃ entry, definition.documentation.entry name = .ok entry :=
    fun name member => written.exists_entry member
  obtain ⟨draft, filled, drafts⟩ := written.drafts formed
  obtain ⟨bindings, -, defined⟩ := written
  obtain ⟨outlined, -⟩ := ClassDefinition.ofConfiguration_ok defined
  rw [filled] at entries ⊢
  constructor
  · intro margined
    refine drafts.whole_of_lined formed fun name among entry found => ?_
    refine (Documentation.block_margined_iff found).mp (margined name ?_)
    rcases List.mem_cons.mp among with rfl | shown
    · exact Template.has_documented outlined
    · obtain ⟨value, valued, rfl⟩ := List.mem_map.mp shown
      obtain ⟨-, -, map⟩ := shownValue_checked formed value (Option.mem_toList.mp valued)
      rw [Variant.select_template_of_single (Family.of_isMap map).2.1,
        nominal_template_of_isMap map] at outlined
      rw [← Except.ok.inj outlined]
      exact get_documented _ _ _
  · intro lines name member
    obtain ⟨entry, found⟩ := entries name member
    exact (Documentation.block_margined_iff found).mpr fun line among =>
      (drafts.blockLines_oneLine formed lines found line among).trimEnd

end Contribution

/-- In every class that is generated from a locked declaration, the block of a documented member is put
together from a first line, lines at the margin and a last line, behind any indentation. All of them
stay lines of their own exactly if the types that are shown and the description of a value have one
line each; whatever is said of keys may have several. -/
theorem blocks_margined_iff {builder : Builder} (declared : builder.Declared)
    (locked : builder.isLocked = true) {options : CompileOptions} {helperDirectory : String}
    {source : SourceModule}
    (made : SourceModule.ofConfiguration builder.configuration options helperDirectory =
      .ok source) :
    ∀ definition ∈ source.contribution.classes, ∃ part ∈ Contribution.parts builder.configuration,
      Contribution.Writes options part definition ∧
      (∀ name ∈ definition.outline.documented, ∃ body : List String,
        (∀ line ∈ body, " *".toList <+: line.toList) ∧
        ∀ indent, definition.documentation.block name indent =
          .ok (String.join ((["/**"] ++ body ++ [" */"]).map (indent ++ · ++ "\n")))) ∧
      ((∀ name ∈ definition.outline.documented, ∀ indent, OneLine indent →
        ∃ block, definition.documentation.block name indent = .ok block ∧ Margined indent block) ↔
        ∀ text ∈ wholeTexts part options.checkedTypes, OneLine text) := by
  intro definition among
  obtain ⟨part, inside, formed, written⟩ :=
    Contribution.part_of_locked declared locked made definition among
  refine ⟨part, inside, written, fun name member => ?_, written.margined_iff formed⟩
  obtain ⟨entry, found⟩ := written.exists_entry member
  obtain ⟨body, -, margined, blocks⟩ := Documentation.block_lines found
  exact ⟨body, margined, blocks⟩

theorem blocks_margined_seats :
    let seats : Builder := Builder.performAll ⟨⟨.map, .start⟩, .empty "CarSeats" (.map .strong)⟩
      [.addMapKey "car" "The car." false { documentType := some "Car" },
        .addMapKey "seat" "The seat.\nCounted from the front." false {},
        .setValue "The driver." { documentType := some "Person" }, .lock]
    seats.isLocked = true ∧ ∃ source,
      SourceModule.ofConfiguration seats.configuration {} "./keys" = .ok source ∧
      source.contribution.classes.length = 1 ∧
      ∀ definition ∈ source.contribution.classes, ∀ name ∈ definition.outline.documented,
        ∀ indent, OneLine indent →
          ∃ block, definition.documentation.block name indent = .ok block ∧
            Margined indent block := by
  intro seats
  have created : Builder.create "CarSeats" .map none =
      .ok ⟨⟨.map, .start⟩, .empty "CarSeats" (.map .strong)⟩ := rfl
  have declared : seats.Declared :=
    (Builder.Declared.created created).performAll _ (by simp [Call.base?])
  have locked : seats.isLocked = true := by decide +kernel
  obtain ⟨source, generated, classes⟩ : ∃ source,
      SourceModule.ofConfiguration seats.configuration {} "./keys" = .ok source ∧
        source.contribution.classes.length = 1 := by
    rw [exists_eq_ok]
    decide +kernel
  have whole : ∀ part ∈ Contribution.parts seats.configuration,
      ∀ text ∈ wholeTexts part false, OneLine text := by
    decide +kernel
  refine ⟨locked, source, generated, classes, fun definition among => ?_⟩
  obtain ⟨part, inside, -, -, margined⟩ := blocks_margined_iff declared locked generated definition among
  exact margined.mpr (whole part inside)

/-- The description of a value may have several lines, too, but its further lines leave the margin. -/
theorem value_unmargined :
    let cars : Builder := Builder.performAll ⟨⟨.map, .start⟩, .empty "Cars" (.map .strong)⟩
      [.addMapKey "car" "The car." false {}, .setValue "The driver.\nA person." {}, .lock]
    Builder.create "Cars" .map none = .ok ⟨⟨.map, .start⟩, .empty "Cars" (.map .strong)⟩ ∧
      cars.isLocked = true ∧ ∃ source,
        SourceModule.ofConfiguration cars.configuration {} "./keys" = .ok source ∧
        ∃ definition ∈ source.contribution.classes, "get" ∈ definition.outline.documented ∧
          ∃ block before after, definition.documentation.block "get" (indentation 1) = .ok block ∧
            block = before ++ "\nA person. Undefined if it isn't in the collection." ++ after ∧
            ¬ Margined (indentation 1) block := by
  intro cars
  refine ⟨rfl, by decide +kernel, ?_⟩
  obtain ⟨source, made, definition, among, listed, entry, found, broken⟩ :
      ∃ source ∈ (SourceModule.ofConfiguration cars.configuration {} "./keys").toOption,
        ∃ definition ∈ source.contribution.classes, "get" ∈ definition.outline.documented ∧
          ∃ entry ∈ (definition.documentation.entry "get").toOption,
            " * @returns \x7b* | undefined\x7d The driver." ++
              "\nA person. Undefined if it isn't in the collection." ∈
                definition.documentation.blockLines entry := by
    decide +kernel
  have said := Documentation.block_of_entry (toOption_eq_some.mp found) (indentation 1)
  obtain ⟨early, late, lines⟩ := List.append_of_mem broken
  have tidy : trimEnd (" * @returns \x7b* | undefined\x7d The driver." ++
      "\nA person. Undefined if it isn't in the collection.") =
        " * @returns \x7b* | undefined\x7d The driver." ++
          "\nA person. Undefined if it isn't in the collection." := by
    decide +kernel
  rw [lines, List.map_append, List.map_cons, String.join_append, String.join_cons, tidy] at said
  generalize (early.map fun line => indentation 1 ++ trimEnd line ++ "\n") = front at said
  generalize (late.map fun line => indentation 1 ++ trimEnd line ++ "\n") = back at said
  obtain ⟨block, before, after, blocked, parts⟩ : ∃ block before after,
      definition.documentation.block "get" (indentation 1) = .ok block ∧
        block = before ++ "\nA person. Undefined if it isn't in the collection." ++ after :=
    ⟨_, String.join front ++ indentation 1 ++ " * @returns \x7b* | undefined\x7d The driver.",
      "\n" ++ String.join back, said, by simp only [String.append_assoc]⟩
  refine ⟨source, toOption_eq_some.mp made, definition, among, listed, block, before, after, blocked,
    parts, fun margined => ?_⟩
  have fed : '\n' :: ("A person. Undefined if it isn't in the collection." ++ after).toList <:+
      block.toList :=
    ⟨before.toList, by simp [parts]⟩
  rcases margined.followed (by decide) fed with none | begins
  · simp at none
  · simp [indentation] at begins

end CompositeKeys.Emission
