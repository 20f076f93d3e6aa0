import CompositeKeys.Text.Lines
import CompositeKeys.Text.Quoted
import Mathlib.Data.List.Basic

/-! Lines of texts that are put together. A text that is empty or ends in a line feed contributes
its own lines, whatever comes after it, and every line is a part of the text without line feeds. -/

namespace CompositeKeys.Text

/-- A text that is empty or ends in a line feed. -/
def Ended (letters : List Char) : Prop := letters = [] ∨ ∃ front, letters = front ++ ['\n']

theorem Ended.append {first second : List Char} (one : Ended first) (two : Ended second) :
    Ended (first ++ second) := by
  rcases two with rfl | ⟨front, rfl⟩
  · rwa [List.append_nil]
  · exact .inr ⟨first ++ front, by simp⟩

theorem Ended.join {texts : List String} (each : ∀ text ∈ texts, Ended text.toList) :
    Ended (String.join texts).toList := by
  induction texts with
  | nil => exact .inl (by simp)
  | cons text texts ih =>
    rw [String.join_cons, String.toList_append]
    exact (each text List.mem_cons_self).append
      (ih fun other member => each other (List.mem_cons_of_mem text member))

theorem ended_of_last {letters : List Char} (last : letters.getLast? = some '\n') : Ended letters := by
  obtain ⟨front, rfl⟩ := List.getLast?_eq_some_iff.mp last
  exact .inr ⟨front, rfl⟩

theorem ended_feed (text : String) : Ended (text ++ "\n").toList :=
  .inr ⟨text.toList, by simp⟩

theorem pieces_ne_nil (letters : List Char) : pieces letters ≠ [] := by
  induction letters with
  | nil => simp [pieces]
  | cons letter rest ih =>
    unfold pieces
    split
    · simp
    · split <;> simp

theorem pieces_append (first second : List Char) :
    pieces (first ++ '\n' :: second) = pieces first ++ pieces second := by
  induction first with
  | nil => simp [pieces]
  | cons letter rest ih =>
    by_cases feed : letter = '\n'
    · simp [pieces, feed, ih]
    · cases parts : pieces rest with
      | nil => exact absurd parts (pieces_ne_nil rest)
      | cons piece others => simp [pieces, feed, ih, parts]

theorem pieces_single {letters : List Char} (unbroken : '\n' ∉ letters) :
    pieces letters = [letters] := by
  induction letters with
  | nil => rfl
  | cons letter rest ih =>
    rw [List.mem_cons, not_or] at unbroken
    simp [pieces, Ne.symm unbroken.1, ih unbroken.2]

theorem linesOf_append_feed (first second : List Char) :
    linesOf (first ++ '\n' :: second) = (pieces first).map withoutReturn ++ linesOf second := by
  have kept : (pieces first ++ pieces second).dropLast = pieces first ++ (pieces second).dropLast :=
    List.dropLast_append_of_ne_nil (pieces_ne_nil second)
  have last : (pieces first ++ pieces second).getLast? = (pieces second).getLast? := by
    rw [List.getLast?_append, List.getLast?_eq_some_getLast (pieces_ne_nil second), Option.some_or]
  simp only [linesOf, pieces_append, kept, last, List.map_append, List.append_assoc]
  split <;> simp

theorem linesOf_append {first : List Char} (ended : Ended first) (second : List Char) :
    linesOf (first ++ second) = linesOf first ++ linesOf second := by
  rcases ended with rfl | ⟨front, rfl⟩
  · rfl
  · have alone := linesOf_append_feed front []
    rw [show linesOf [] = [] from rfl, List.append_nil] at alone
    rw [List.append_assoc, List.singleton_append, linesOf_append_feed, alone]

/-- A line of its own loses at most a carriage return before its line feed. -/
theorem linesOf_line {line : List Char} (unbroken : '\n' ∉ line) :
    linesOf (line ++ ['\n']) = [withoutReturn line] := by
  rw [linesOf_append_feed, pieces_single unbroken]
  rfl

theorem linesOf_single {letters : List Char} (unbroken : '\n' ∉ letters) (filled : letters ≠ []) :
    linesOf letters = [letters] := by
  cases letters with
  | nil => exact absurd rfl filled
  | cons letter rest =>
    unfold linesOf
    rw [pieces_single unbroken]
    rfl

/-- A last letter that is no line feed is the last one of the last line. -/
theorem linesOf_getLast {letters : List Char} {letter : Char} (last : letters.getLast? = some letter)
    (plain : letter ≠ '\n') :
    ∃ line, (linesOf letters).getLast? = some line ∧ line.getLast? = some letter := by
  by_cases broken : '\n' ∈ letters
  · obtain ⟨first, second, same, -⟩ := List.eq_append_cons_of_mem broken
    have shorter : second.length < letters.length := by simp [same]; omega
    have later : second.getLast? = some letter := by
      cases second with
      | nil =>
        rw [same, List.getLast?_concat] at last
        exact absurd (Option.some.inj last).symm plain
      | cons next rest =>
        rw [same, List.getLast?_append, List.getLast?_cons_cons] at last
        cases found : (next :: rest).getLast? with
        | none => simp at found
        | some final => rwa [found] at last
    obtain ⟨line, final, ends⟩ := linesOf_getLast later plain
    refine ⟨line, ?_, ends⟩
    rw [same, linesOf_append_feed, List.getLast?_append, final, Option.some_or]
  · have filled : letters ≠ [] := fun none => by simp [none] at last
    exact ⟨letters, by rw [linesOf_single broken filled]; rfl, last⟩
termination_by letters.length

/-- A letter that is not blank stands in one of the lines. -/
theorem filled_in_lines {letters : List Char} {letter : Char} (filled : isBlank letter = false)
    (member : letter ∈ letters) : ∃ line ∈ linesOf letters, letter ∈ line := by
  by_cases broken : '\n' ∈ letters
  · obtain ⟨first, second, same, unbroken⟩ := List.eq_append_cons_of_mem broken
    have shorter : second.length < letters.length := by simp [same]; omega
    rw [same, List.mem_append, List.mem_cons] at member
    rw [same, linesOf_append_feed, pieces_single unbroken, List.map_singleton, List.singleton_append]
    rcases member with early | rfl | later
    · refine ⟨withoutReturn first, List.mem_cons_self, ?_⟩
      unfold withoutReturn
      split
      next last =>
        -- The letter that is dropped is a blank.
        obtain ⟨front, rfl⟩ := List.getLast?_eq_some_iff.mp last
        rcases List.mem_append.mp early with kept | dropped
        · simpa using kept
        · rw [List.mem_singleton.mp dropped] at filled
          cases filled
      next => exact early
    · cases filled
    · obtain ⟨line, among, inside⟩ := filled_in_lines filled later
      exact ⟨line, List.mem_cons_of_mem _ among, inside⟩
  · have some : letters ≠ [] := List.ne_nil_of_mem member
    rw [linesOf_single broken some]
    exact ⟨letters, List.mem_cons_self, member⟩
termination_by letters.length

theorem withoutReturn_isPrefix (line : List Char) : withoutReturn line <+: line := by
  unfold withoutReturn
  split
  · exact List.dropLast_prefix line
  · exact List.prefix_rfl

theorem lines_append {first : String} (ended : Ended first.toList) (second : String) :
    lines (first ++ second) = lines first ++ lines second := by
  rw [lines, String.toList_append, linesOf_append ended, List.map_append]
  rfl

theorem lines_line {line : String} (unbroken : '\n' ∉ line.toList)
    (last : line.toList.getLast? ≠ some '\r') : lines (line ++ "\n") = [line] := by
  have whole : withoutReturn line.toList = line.toList := if_neg last
  rw [lines, String.toList_append]
  change (linesOf (line.toList ++ ['\n'])).map String.ofList = [line]
  rw [linesOf_line unbroken, whole]
  simp

theorem part_of_mem_pieces {letters piece : List Char} (member : piece ∈ pieces letters) :
    piece <:+: letters ∧ '\n' ∉ piece := by
  by_cases broken : '\n' ∈ letters
  · obtain ⟨first, second, same, unbroken⟩ := List.eq_append_cons_of_mem broken
    rw [same, pieces_append, pieces_single unbroken, List.mem_append, List.mem_singleton] at member
    rcases member with rfl | later
    · exact ⟨⟨[], '\n' :: second, by simp [same]⟩, unbroken⟩
    · have shorter : second.length < letters.length := by simp [same]; omega
      obtain ⟨part, rest⟩ := part_of_mem_pieces later
      exact ⟨part.trans ⟨first ++ ['\n'], [], by simp [same]⟩, rest⟩
  · rw [pieces_single broken, List.mem_singleton] at member
    exact ⟨member ▸ List.infix_rfl, member ▸ broken⟩
termination_by letters.length

theorem part_of_mem_linesOf {letters line : List Char} (member : line ∈ linesOf letters) :
    line <:+: letters ∧ '\n' ∉ line := by
  have part : ∃ piece ∈ pieces letters, line <+: piece := by
    have ended : line ∈ (pieces letters).dropLast.map withoutReturn →
        ∃ piece ∈ pieces letters, line <+: piece := by
      intro mapped
      obtain ⟨piece, early, rfl⟩ := List.mem_map.mp mapped
      exact ⟨piece, List.dropLast_subset _ early, withoutReturn_isPrefix piece⟩
    unfold linesOf at member
    dsimp only at member
    split at member
    · exact ended member
    · exact ended member
    next last _ found =>
      rcases List.mem_append.mp member with early | final
      · exact ended early
      · rw [List.mem_singleton.mp final]
        exact ⟨last, List.mem_of_getLast? found, List.prefix_rfl⟩
  obtain ⟨piece, among, front⟩ := part
  obtain ⟨part, unbroken⟩ := part_of_mem_pieces among
  exact ⟨front.isInfix.trans part, fun feed => unbroken (front.subset feed)⟩

theorem hexDigit_mem (value : Nat) : hexDigit value ∈ hexDigits := by
  have inside : value % 16 < hexDigits.length := Nat.mod_lt _ (by decide)
  rw [hexDigit, List.getD_eq_getElem?_getD, List.getElem?_eq_getElem inside, Option.getD_some]
  exact List.getElem_mem inside

/-- A quoted text is in one line. -/
theorem quoted_unbroken (text : String) : '\n' ∉ (quoted text).toList := by
  have digit : ∀ value, '\n' ≠ hexDigit value := by
    intro value same
    have none : '\n' ∉ hexDigits := by decide
    exact none (same ▸ hexDigit_mem value)
  have spelled : ∀ letter : Char, '\n' ∉ escaped letter := by
    intro letter
    unfold escaped
    grind
  simp [quoted, spelled]

end CompositeKeys.Text
