import CompositeKeys.Proofs.Emission.Columns
import CompositeKeys.Proofs.Emission.Sessions

/-! What stands above the last line of a block. Nothing is dropped there, so a text that ends in blank
lines leaves a star behind. The entries of generated classes have no such text. -/

namespace CompositeKeys.Emission
open Text

/-- A line that is a star and a text is bare exactly if the text is blank. -/
theorem bare_iff {line : String} (rest : List Char) (parts : line.toList = " *".toList ++ rest) :
    trimEnd line = " *" ↔ rest.all isBlank = true := by
  have cut : unpadded line.toList = " *".toList ++ unpadded rest := by
    rw [parts]
    exact unpadded_append_cons (by decide) [' '] rest
  have blank : unpadded rest = [] ↔ rest.all isBlank = true :=
    List.rdropWhile_eq_nil_iff.trans List.all_eq_true.symm
  rw [← String.toList_inj, trimEnd, String.toList_ofList, cut, List.append_right_eq_self, blank]

/-- Lines whose last one is bare exactly if a text is blank that stands alone in it. -/
def Closes (text? : Option String) (lines : List String) : Prop :=
  ∃ front last, lines = front ++ [last] ∧ (trimEnd last = " *" ↔ text?.any isBlankText = true)

section Closes
variable {text? : Option String} {lines : List String}

theorem Closes.behind (closes : Closes text? lines) (before : List String) :
    Closes text? (before ++ lines) := by
  obtain ⟨front, last, rfl, bare⟩ := closes
  exact ⟨before ++ front, last, (List.append_assoc ..).symm, bare⟩

/-- Lines under an empty line of their own close what they stand in, unless there are none. -/
theorem Closes.under {further? : Option String} {further : List String} (closes : Closes text? lines)
    (below : further ≠ [] → Closes further? further) :
    Closes (if further = [] then text? else further?) (lines ++ Documentation.underBlank further) := by
  unfold Documentation.underBlank
  split
  next => rwa [List.append_nil]
  next filled => exact ((below filled).behind [" *"]).behind lines

theorem closes_spaced {line text : String} (count : Nat)
    (parts : line.toList = " *".toList ++ (List.replicate count ' ' ++ text.toList)) :
    Closes (some text) [line] := by
  refine ⟨[], line, rfl, ?_⟩
  have spaces : (List.replicate count ' ').all isBlank = true := by
    rw [List.all_replicate]
    simp [show isBlank ' ' = true by decide]
  rw [bare_iff _ parts, List.all_append, spaces, Bool.true_and, Option.any_some, isBlankText]

theorem closes_marked {line : String} (letter : Char) (filled : isBlank letter = false)
    (begins : " * ".toList ++ [letter] <+: line.toList) : Closes none [line] := by
  obtain ⟨rest, parts⟩ := begins
  refine ⟨[], line, rfl, ?_⟩
  rw [bare_iff (' ' :: letter :: rest) (by simp [← parts])]
  simp [filled]

theorem closes_marginal {texts : List String} (filled : texts ≠ []) :
    Closes texts.getLast? (texts.map (" * " ++ ·)) := by
  rcases List.eq_nil_or_concat' texts with rfl | ⟨front, last, rfl⟩
  · exact absurd rfl filled
  · rw [List.getLast?_concat, List.map_append]
    exact (closes_spaced 1 (by simp)).behind _

end Closes

namespace ParameterRow

/-- Only a further line of a description stands alone in a line of a table. -/
theorem closes_rowLines (row : ParameterRow) (typeWidth nameWidth : Nat) :
    Closes row.described.tail.getLast? (rowLines typeWidth nameWidth row) := by
  unfold rowLines
  cases read : row.described with
  | nil => exact absurd read row.described_ne_nil
  | cons text rest =>
    rcases List.eq_nil_or_concat' rest with rfl | ⟨front, last, rfl⟩
    · exact closes_marked '@' (by decide) (by simp [firstLine])
    · dsimp only
      rw [List.tail_cons, List.getLast?_concat, List.map_append, ← List.cons_append]
      refine Closes.behind (closes_spaced
        ("@param ".length + typeWidth + 1 + nameWidth + 1 + 1) ?_) _
      simp [furtherLine, toList_padded, List.replicate_succ]

theorem closes_table (rows : List ParameterRow) (filled : rows ≠ []) :
    Closes (rows.getLast?.bind fun row => row.described.tail.getLast?) (table rows) := by
  rcases List.eq_nil_or_concat' rows with rfl | ⟨front, last, rfl⟩
  · exact absurd rfl filled
  · rw [table_eq, List.map_append, List.flatten_append, List.getLast?_concat]
    refine Closes.behind ?_ _
    rw [List.map_singleton, List.flatten_singleton]
    exact last.closes_rowLines _ _

theorem table_eq_nil_iff {rows : List ParameterRow} : table rows = [] ↔ rows = [] := by
  constructor
  · intro none
    by_contra filled
    obtain ⟨front, last, some, -⟩ := closes_table rows filled
    rw [none] at some
    exact List.append_ne_nil_of_right_ne_nil front (List.cons_ne_nil last []) some.symm
  · rintro rfl
    rfl

end ParameterRow

namespace Documentation

/-- The text that stands alone in the line above the last line of a block: the last footer, or the last
further line of the last parameter, or the last header, or the last line of the description, whatever
comes last. The first line of a parameter and the line of a result say more than one text. -/
def lastText? (documentation : Documentation) (entry : Entry) : Option String :=
  if entry.footers ≠ [] then entry.footers.getLast?
  else if entry.resultType.isSome ∧ entry.resultDescription.isSome then none
  else if documentation.rows entry ≠ [] then
    (documentation.rows entry).getLast?.bind fun row => row.described.tail.getLast?
  else if entry.headers ≠ [] then entry.headers.getLast?
  else (lines entry.description).getLast?

theorem resultLine_eq_nil_iff {entry : Entry} :
    resultLine entry = [] ↔ ¬ (entry.resultType.isSome ∧ entry.resultDescription.isSome) := by
  unfold resultLine
  cases entry.resultType <;> cases entry.resultDescription <;> simp

theorem closes_resultLine (entry : Entry) (shown : resultLine entry ≠ []) :
    Closes none (resultLine entry) := by
  unfold resultLine at shown ⊢
  split
  · refine closes_marked '@' (by decide) ?_
    cases entry.isGenerator <;> simp
  · simp at shown

theorem closes_description (text : String) :
    Closes (lines text).getLast? (["/**"] ++ (lines text).map (" * " ++ ·)) := by
  by_cases none : lines text = []
  · rw [none]
    exact ⟨[], "/**", rfl, by decide⟩
  · exact (closes_marginal none).behind ["/**"]

theorem closes_leadLines (documentation : Documentation) (entry : Entry) :
    Closes (documentation.lastText? entry) (documentation.leadLines entry) := by
  have marginal : ∀ texts : List String, texts.map (" * " ++ ·) ≠ [] →
      Closes texts.getLast? (texts.map (" * " ++ ·)) :=
    fun texts filled => closes_marginal fun none => filled (by rw [none]; rfl)
  have described := closes_description entry.description
  have headed := described.under (marginal entry.headers)
  have listed := headed.under fun filled =>
    ParameterRow.closes_table (documentation.rows entry) (mt ParameterRow.table_eq_nil_iff.mpr filled)
  have closed := (listed.under (closes_resultLine entry)).under (marginal entry.footers)
  unfold lastText? leadLines
  simpa only [ite_not, List.map_eq_nil_iff, ParameterRow.table_eq_nil_iff, resultLine_eq_nil_iff] using closed

/-- A block ends in a line above its last one that is bare exactly if the last text of its entry is
blank, and that is one line if the block is put together from such lines only. -/
theorem block_closing {documentation : Documentation} {name : String} {entry : Entry}
    (found : documentation.entry name = .ok entry) (indent : String) :
    ∃ front above, documentation.block name indent =
        .ok (front ++ (indent ++ above ++ "\n") ++ (indent ++ " */\n")) ∧
      Ended front.toList ∧
      (above = " *" ↔ (documentation.lastText? entry).any isBlankText = true) ∧
      ((∀ line ∈ documentation.leadLines entry, OneLine line) → OneLine above) := by
  obtain ⟨lead, last, parts, bare⟩ := documentation.closes_leadLines entry
  refine ⟨String.join (lead.map fun line => indent ++ trimEnd line ++ "\n"), trimEnd last, ?block, ?ended,
    bare, ?oneLine⟩
  case block =>
    have close : trimEnd " */" = " */" := by decide
    rw [block_of_entry found, blockLines_eq, parts]
    simp [close, String.append_assoc]
  case ended =>
    apply Ended.join
    intro text member
    obtain ⟨line, -, rfl⟩ := List.mem_map.mp member
    exact ended_feed _
  case oneLine =>
    intro oneLine
    exact (oneLine last (by simp [parts])).trimEnd

end Documentation

namespace DocumentationSession

/-- Whatever a session has been through, the line above the last one of a block is a star alone exactly if
the last text of its entry is blank. -/
theorem closing_line_bare_iff {session : DocumentationSession} {name indent text : String}
    (answered : (session.perform (.block name indent)).2 = .ok (.block text)) :
    let documentation := session.refreshed.documentation
    ∃ entry front above, (session.perform (.entry name)).2 = .ok (.entry entry) ∧
      text = front ++ (indent ++ above ++ "\n") ++ (indent ++ " */\n") ∧ Ended front.toList ∧
      (above = " *" ↔ (documentation.lastText? entry).any isBlankText = true) ∧
      ((∀ line ∈ documentation.leadLines entry, OneLine line) → OneLine above) := by
  intro documentation
  have made : (documentation.block name indent).map Answer.block = .ok (.block text) := answered
  cases found : documentation.entry name with
  | error error =>
    rw [Documentation.block, found] at made
    cases made
  | ok entry =>
    obtain ⟨front, above, block, ended, bare, oneLine⟩ := Documentation.block_closing found indent
    rw [block] at made
    cases made
    refine ⟨entry, front, above, ?_, rfl, ended, bare, oneLine⟩
    exact congrArg (Except.map Answer.entry) found

/-- A line that holds something stays above the last one as it is. -/
theorem footer_above_close :
    let entry : Entry :=
      { description := "A note.\n\n", footers := ["See __className__."], returnsNothing := true }
    let session : DocumentationSession :=
      performAll { documentation := { className := "Cars", checkedTypes := false } } [.add "note" entry]
    ∃ text front above, (session.perform (.block "note" "  ")).2 = .ok (.block text) ∧
      text = front ++ ("  " ++ above ++ "\n") ++ ("  " ++ " */\n") ∧ Ended front.toList ∧
      above ≠ " *" := by
  intro entry session
  have answered : (session.perform (.block "note" "  ")).2 =
      .ok (.block "  /**\n   * A note.\n   *\n   *\n   * See Cars.\n   */\n") := by
    decide +kernel
  obtain ⟨filled, front, above, found, parts, ended, bare, -⟩ := closing_line_bare_iff answered
  have read : (session.perform (.entry "note")).2 = .ok (.entry { entry with footers := ["See Cars."] }) := by
    decide +kernel
  obtain rfl : { entry with footers := ["See Cars."] } = filled := by
    simpa using read.symm.trans found
  refine ⟨_, front, above, answered, parts, ended, fun star => ?_⟩
  exact absurd (bare.mp star) (by decide +kernel)

/-- Blank lines at the end of a description leave a star above the last line. -/
theorem star_above_close :
    let entry : Entry := { description := "A note.\n\n", returnsNothing := true }
    ∃ session, ofFlavor .collection "Cars" false = .ok session ∧
      ((session.performAll [.add "note" entry]).perform (.block "note" "")).2 =
        .ok (.block "/**\n * A note.\n *\n */\n") := by
  intro entry
  refine ⟨_, ofFlavor_eq .collection "Cars" false, ?_⟩
  decide +kernel

end DocumentationSession

def Stopped (text : String) : Prop := text.toList.getLast? = some '.'

instance (text : String) : Decidable (Stopped text) := inferInstanceAs (Decidable (_ = _))

theorem Stopped.filled {text : String} (stopped : Stopped text) : isBlankText text = false := by
  obtain ⟨front, parts⟩ := List.getLast?_eq_some_iff.mp stopped
  rw [isBlankText, parts]
  simp [show isBlank '.' = false by decide]

theorem Stopped.fill {text : String} (stopped : Stopped text) (values : Placeholders) :
    Stopped (values.fill text) := by
  obtain ⟨front, parts⟩ := List.getLast?_eq_some_iff.mp stopped
  have split : text.toList = (String.ofList front).toList ++ '.' :: "".toList := by simp [parts]
  have cut := values.toList_fill_cut (.ofList front) '.' "" split (by decide +kernel)
  have none : values.fill "" = "" := values.fill_unmarked (by decide)
  rw [Stopped, cut, none]
  simp

theorem Stopped.last_line {text : String} (stopped : Stopped text) :
    ∃ line, (lines text).getLast? = some line ∧ Stopped line := by
  obtain ⟨line, last, same⟩ := linesOf_getLast stopped (by decide)
  refine ⟨.ofList line, ?_, ?_⟩
  · rw [lines, List.getLast?_map, last]
    rfl
  · rw [Stopped, String.toList_ofList, same]

namespace Entry

/-- The text that an entry without a result ends in, if no declared dimension can come behind it. -/
def lastWords? (entry : Entry) : Option String :=
  match entry.rowsAfter.getLast?, entry.listed, entry.rowsBefore.getLast? with
  | some row, _, _ => some row.description
  | none, .none, some row => some row.description
  | none, .none, none => some entry.description
  | none, _, _ => none

/-- An entry that shows a result in the end or ends in a full stop. -/
@[mk_iff]
structure Settled (entry : Entry) : Prop where
  headers : entry.headers = []
  footers : entry.footers = []
  closed : entry.resultType.isSome ∧ entry.resultDescription.isSome ∨
    ∃ text ∈ entry.lastWords?, Stopped text

instance (entry : Entry) : Decidable entry.Settled :=
  decidable_of_iff _ (settled_iff entry).symm

end Entry

theorem Flavor.entries_settled (flavor : Flavor) : ∀ row ∈ flavor.entries, row.2.Settled := by
  cases flavor with
  | collection => decide +kernel
  | pairedSingle => decide +kernel
  | pairedDouble => decide +kernel

theorem Entry.binding_settled (sources : List Dimension) (checkedTypes : Bool) :
    (Entry.binding sources checkedTypes).Settled := by
  have last : ∃ row, (Entry.binding sources checkedTypes).rowsBefore.getLast? = some row ∧
      row.description = "The value." := by
    refine ⟨{ typeName := "object", name := "value" ++ "_2", description := "The value." }, ?_, rfl⟩
    unfold Entry.binding
    dsimp only
    rw [List.getLast?_append, List.getLast?_concat, Option.some_or]
  obtain ⟨row, last, said⟩ := last
  refine ⟨rfl, rfl, .inr ⟨"The value.", ?_, by decide⟩⟩
  unfold Entry.lastWords?
  rw [last, ← said]
  rfl

theorem ParameterRow.described_stopped {row : ParameterRow} (stopped : Stopped row.description) :
    row.described.tail.getLast?.any isBlankText = false := by
  obtain ⟨line, last, ends⟩ := stopped.last_line
  unfold described
  cases read : lines row.description with
  | nil => simp [read] at last
  | cons first rest =>
    rw [if_neg (List.cons_ne_nil first rest), List.tail_cons]
    cases rest with
    | nil => rfl
    | cons next rest =>
      rw [read, List.getLast?_cons_cons] at last
      rw [last, Option.any_some, ends.filled]

namespace Entry.Settled
variable {entry : Entry}

/-- What such an entry ends in is its last row, or its description if it has no rows. -/
theorem rows_last {text : String} (words : text ∈ entry.lastWords?) (documentation : Documentation)
    (fill : String → String) :
    (∃ row, (documentation.rows (entry.fill fill)).getLast? = some row ∧ row.description = fill text) ∨
      documentation.rows (entry.fill fill) = [] ∧ (entry.fill fill).description = fill text := by
  unfold Entry.lastWords? at words
  unfold Documentation.rows Entry.fill
  split at words
  next row _ last =>
    obtain rfl := Option.some.inj words
    left
    simp [List.getLast?_append, last]
  next row none listed before =>
    obtain rfl := Option.some.inj words
    left
    simp [List.getLast?_append, none, before, listed, Documentation.listed]
  next none listed before =>
    obtain rfl := Option.some.inj words
    right
    simp [List.getLast?_eq_none_iff.mp none, List.getLast?_eq_none_iff.mp before, listed,
      Documentation.listed]
  · cases words

theorem filled (settled : entry.Settled) (documentation : Documentation) (values : Placeholders) :
    (documentation.lastText? (entry.fill values.fill)).any isBlankText = false := by
  have headers : (entry.fill values.fill).headers = [] := congrArg (List.map values.fill) settled.headers
  have footers : (entry.fill values.fill).footers = [] := congrArg (List.map values.fill) settled.footers
  unfold Documentation.lastText?
  rw [if_neg (not_not.mpr footers)]
  split
  · rfl
  next hidden =>
    have ends : ∃ text ∈ entry.lastWords?, Stopped text := by
      refine settled.closed.resolve_left fun shown => hidden ?_
      simpa [Entry.fill] using shown
    obtain ⟨text, words, stopped⟩ := ends
    rcases rows_last words documentation values.fill with ⟨row, last, said⟩ | ⟨none, said⟩
    · rw [if_pos fun none => by simp [none] at last, last]
      exact ParameterRow.described_stopped (said ▸ stopped.fill values)
    · rw [if_neg (not_not.mpr none), if_neg (not_not.mpr headers), said]
      obtain ⟨line, last, filled⟩ := (stopped.fill values).last_line
      rw [last, Option.any_some, filled.filled]

end Entry.Settled

/-- In every class that is generated from a locked declaration, the line above the last one of a block
holds something. -/
theorem blocks_close_filled {builder : Builder} (declared : builder.Declared)
    (locked : builder.isLocked = true) {options : CompileOptions} {helperDirectory : String}
    {source : SourceModule}
    (generated : SourceModule.ofConfiguration builder.configuration options helperDirectory =
      .ok source) :
    ∀ definition ∈ source.contribution.classes, ∀ name indent block,
      definition.documentation.block name indent = .ok block →
      ∃ front above, block = front ++ (indent ++ above ++ "\n") ++ (indent ++ " */\n") ∧
        Ended front.toList ∧ above ≠ " *" := by
  intro definition among name indent block made
  obtain ⟨part, -, formed, written⟩ :=
    Contribution.part_of_locked declared locked generated definition among
  obtain ⟨draft, filled, drafts⟩ := written.drafts formed
  obtain ⟨entry, found, -⟩ := bind_eq_ok.mp made
  obtain ⟨front, above, blocked, ended, bare, -⟩ := Documentation.block_closing found indent
  refine ⟨front, above, Except.ok.inj (made.symm.trans blocked), ended, fun star => ?_⟩
  rw [filled] at found
  obtain ⟨entered, under, rfl⟩ := drafts.entry_filled_iff.mp found
  have settled : entered.Settled := by
    rcases entryOf_cases under with rfl | rfl | ⟨row, listed, rfl⟩
    · decide
    · exact Entry.binding_settled _ _
    · exact (tableOf part).entries_settled row listed
  have blank := bare.mp star
  rw [settled.filled definition.documentation] at blank
  cases blank

end CompositeKeys.Emission
