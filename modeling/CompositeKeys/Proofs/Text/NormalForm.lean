import CompositeKeys.Emission.SourceModule
import CompositeKeys.Proofs.Text.Layout
import Mathlib.Data.List.Chain

/-! The normal form as a law on lines, told without the passes that bring it about. A text has exactly
one normal form, which is its own, so what has been brought into it once stays as it is. -/

namespace CompositeKeys.Text

/-- The lines of a text as its line feeds cut it, without the blanks at their ends. -/
def trimmedLines (text : String) : List (List Char) := (text.toList.splitOn '\n').map unpadded

def filledLines (lines : List (List Char)) : List (List Char) := lines.filter (· ≠ [])

/-- Lines in normal form. They hold what `lines` hold, in its order and unchanged, and one empty line
stands between two lines that hold something exactly if at least one separated them. -/
structure Normal (lines result : List (List Char)) : Prop where
  kept : filledLines result = filledLines lines
  begins : result.head? ≠ some []
  ends : result.getLast? ≠ some []
  alone : result.IsChain fun first second => first ≠ [] ∨ second ≠ []
  gaps : ∀ before first gap second after, lines = before ++ first :: (gap ++ second :: after) →
    first ≠ [] → second ≠ [] → (∀ line ∈ gap, line = []) →
    ∃ early late, result = early ++ first :: ((if gap = [] then [] else [[]]) ++ second :: late) ∧
      filledLines early = filledLines before

section Filled
variable {lines before after : List (List Char)} {line : List Char}

@[simp] theorem filledLines_append : filledLines (before ++ after) = filledLines before ++ filledLines after :=
  List.filter_append before after

@[simp] theorem filledLines_cons_filled (filled : line ≠ []) :
    filledLines (line :: lines) = line :: filledLines lines :=
  List.filter_cons_of_pos (by simpa using filled)

@[simp] theorem filledLines_cons_empty : filledLines ([] :: lines) = filledLines lines :=
  List.filter_cons_of_neg (by simp)

theorem filledLines_eq_nil_iff : filledLines lines = [] ↔ ∀ line ∈ lines, line = [] := by
  simp [filledLines]

/-- Lines are all empty, or there is a first one that holds something. -/
theorem filled_or_cut (lines : List (List Char)) : (∀ line ∈ lines, line = []) ∨
    ∃ lead first rest, lines = lead ++ first :: rest ∧ (∀ line ∈ lead, line = []) ∧ first ≠ [] := by
  induction lines with
  | nil => exact .inl (List.forall_mem_nil _)
  | cons line rest ih =>
    by_cases empty : line = []
    · rcases ih with none | ⟨lead, first, others, rfl, blank, filled⟩
      · exact .inl (List.forall_mem_cons.mpr ⟨empty, none⟩)
      · exact .inr ⟨line :: lead, first, others, rfl, List.forall_mem_cons.mpr ⟨empty, blank⟩, filled⟩
    · exact .inr ⟨[], line, rest, rfl, List.forall_mem_nil _, empty⟩

end Filled

section Spaced
variable (owed : Bool) (lines : List (List Char))

theorem filledLines_spaced : filledLines (spaced owed lines) = filledLines lines := by
  induction lines generalizing owed with
  | nil => rfl
  | cons line rest ih =>
    by_cases empty : line = []
    · simp [spaced, empty, ih]
    · cases owed <;> simp [spaced, empty, ih]

theorem spaced_ends : (spaced owed lines).getLast? ≠ some [] := by
  induction lines generalizing owed with
  | nil => simp [spaced]
  | cons line rest ih =>
    by_cases empty : line = []
    · simpa [spaced, empty] using ih true
    · have last : (line :: spaced false rest).getLast? ≠ some [] := by
        intro found
        rw [List.getLast?_cons, Option.some_inj] at found
        cases others : (spaced false rest).getLast? with
        | none => simp [others, empty] at found
        | some final =>
          rw [others, Option.getD_some] at found
          exact ih false (others.trans (congrArg some found))
      cases owed with
      | false => simpa [spaced, empty] using last
      | true => simpa [spaced, empty] using last

theorem spaced_alone : (spaced owed lines).IsChain fun first second => first ≠ [] ∨ second ≠ [] := by
  induction lines generalizing owed with
  | nil => exact .nil
  | cons line rest ih =>
    by_cases empty : line = []
    · simpa [spaced, empty] using ih true
    · have chain : (line :: spaced false rest).IsChain fun first second => first ≠ [] ∨ second ≠ [] :=
        List.isChain_cons.mpr ⟨fun _ _ => .inl empty, ih false⟩
      cases owed with
      | false => simpa [spaced, empty] using chain
      | true => simpa [spaced, empty] using chain

variable {lines}

theorem spaced_empty (empty : ∀ line ∈ lines, line = []) : spaced owed lines = [] := by
  induction lines generalizing owed with
  | nil => rfl
  | cons line rest ih =>
    obtain ⟨first, others⟩ := List.forall_mem_cons.mp empty
    simp [spaced, first, ih true others]

theorem owes_empty (empty : ∀ line ∈ lines, line = []) : owes false lines = decide (lines ≠ []) := by
  have owing : ∀ rest : List (List Char), (∀ line ∈ rest, line = []) → owes true rest = true := by
    intro rest empty
    induction rest with
    | nil => rfl
    | cons line rest ih =>
      obtain ⟨first, others⟩ := List.forall_mem_cons.mp empty
      simp [owes, first, ih others]
  cases lines with
  | nil => rfl
  | cons line rest =>
    obtain ⟨first, others⟩ := List.forall_mem_cons.mp empty
    simp [owes, first, owing rest others]

end Spaced

theorem tidyLines_begins (lines : List (List Char)) : (tidyLines lines).head? ≠ some [] := by
  unfold tidyLines
  cases kept : lines.dropWhile (· = []) with
  | nil => simp [spaced]
  | cons line rest =>
    have filled := List.head?_dropWhile_not (· = []) lines
    simp only [kept, List.head?_cons, decide_eq_false_iff_not] at filled
    simp [spaced, filled]

theorem filledLines_dropWhile (lines : List (List Char)) :
    filledLines (lines.dropWhile (· = [])) = filledLines lines := by
  induction lines with
  | nil => rfl
  | cons line rest ih =>
    by_cases empty : line = []
    · rw [List.dropWhile_cons_of_pos (by simpa using empty), ih, empty, filledLines_cons_empty]
    · rw [List.dropWhile_cons_of_neg (by simpa using empty)]

theorem normal_tidyLines (lines : List (List Char)) : Normal lines (tidyLines lines) where
  kept := by rw [tidyLines, filledLines_spaced, filledLines_dropWhile]
  begins := tidyLines_begins lines
  ends := spaced_ends false _
  alone := spaced_alone false _
  gaps := by
    intro before first gap second after cut firstFilled secondFilled empty
    -- Only empty lines go at the front, so the first of the two lines stays behind what is left.
    obtain ⟨front, dropped, same⟩ : ∃ front, lines.dropWhile (· = []) =
        front ++ first :: (gap ++ second :: after) ∧ filledLines front = filledLines before := by
      rw [cut, List.dropWhile_append]
      split
      next none =>
        refine ⟨[], List.dropWhile_cons_of_neg (by simpa using firstFilled), ?_⟩
        rw [← filledLines_dropWhile before, List.isEmpty_iff.mp none]
      next => exact ⟨_, rfl, filledLines_dropWhile before⟩
    have middle : spaced false (gap ++ second :: after) =
        (if gap = [] then [] else [[]]) ++ second :: spaced false after := by
      rw [spaced_append, spaced_empty false empty, owes_empty empty]
      by_cases none : gap = [] <;> simp [spaced, none, secondFilled]
    refine ⟨spaced false front ++ (if owes false front then [[]] else []), spaced false after, ?_, ?_⟩
    · rw [tidyLines, dropped, spaced_append, ← middle]
      cases owes false front <;> simp [spaced, firstFilled]
    · rw [filledLines_append, filledLines_spaced, same]
      cases owes false front <;> simp [filledLines]

namespace Normal
variable {lines result other : List (List Char)}

theorem empty_iff (normal : Normal lines result) : result = [] ↔ ∀ line ∈ lines, line = [] := by
  rw [← filledLines_eq_nil_iff, ← normal.kept]
  constructor
  · intro none
    rw [none]
    rfl
  · intro none
    cases result with
    | nil => rfl
    | cons line rest =>
      have empty := filledLines_eq_nil_iff.mp none line List.mem_cons_self
      exact absurd (congrArg some empty) normal.begins

theorem itself (normal : Normal lines result) : Normal result result where
  kept := rfl
  begins := normal.begins
  ends := normal.ends
  alone := normal.alone
  gaps := by
    intro before first gap second after cut _ _ empty
    refine ⟨before, after, ?_, rfl⟩
    have chain := normal.alone
    rw [cut] at chain
    -- Two empty lines in a row would not be alone.
    match gap, empty with
    | [], _ => exact cut
    | [line], empty =>
      have blank := empty line List.mem_cons_self
      simpa [blank] using cut
    | one :: two :: rest, empty =>
      have inner := (List.isChain_append.mp chain).2.1.tail
      have pair := (List.isChain_cons_cons.mp inner).1
      simp only [List.forall_mem_cons] at empty
      simp [empty.1, empty.2.1] at pair

/-- Where only one line holds something, it is all that is left. -/
theorem single {lead rest : List (List Char)} {first : List Char}
    (normal : Normal (lead ++ first :: rest) result) (empty : ∀ line ∈ lead, line = [])
    (filled : first ≠ []) (last : ∀ line ∈ rest, line = []) : result = [first] := by
  have kept : filledLines result = [first] := by
    rw [normal.kept, filledLines_append, filledLines_cons_filled filled,
      filledLines_eq_nil_iff.mpr empty, filledLines_eq_nil_iff.mpr last, List.nil_append]
  cases result with
  | nil => cases kept
  | cons head tail =>
    have headFilled : head ≠ [] := fun none => normal.begins (congrArg some none)
    rw [filledLines_cons_filled headFilled] at kept
    obtain ⟨rfl, none⟩ := List.cons.inj kept
    rcases List.eq_nil_or_concat' tail with rfl | ⟨front, final, rfl⟩
    · rfl
    · have blank := filledLines_eq_nil_iff.mp none final (by simp)
      refine absurd ?_ normal.ends
      rw [blank, ← List.cons_append, List.getLast?_concat]

/-- From the second line that holds something on, lines have a normal form of their own. -/
theorem next {lead gap after : List (List Char)} {first second : List Char}
    (normal : Normal (lead ++ first :: (gap ++ second :: after)) result)
    (empty : ∀ line ∈ lead, line = []) (firstFilled : first ≠ []) (secondFilled : second ≠ [])
    (between : ∀ line ∈ gap, line = []) :
    ∃ late, result = first :: ((if gap = [] then [] else [[]]) ++ second :: late) ∧
      Normal (second :: after) (second :: late) := by
  obtain ⟨early, late, same, none⟩ :=
    normal.gaps lead first gap second after rfl firstFilled secondFilled between
  obtain rfl : early = [] := by
    rw [filledLines_eq_nil_iff.mpr empty] at none
    cases early with
    | nil => rfl
    | cons head tail =>
      have blank := filledLines_eq_nil_iff.mp none head List.mem_cons_self
      exact absurd (by simp [same, blank]) normal.begins
  rw [List.nil_append] at same
  refine ⟨late, same, ?_, by simpa using secondFilled, ?_, ?_, ?_⟩
  · have kept := normal.kept
    rw [same] at kept
    have inner : filledLines (if gap = [] then [] else [[]]) = filledLines gap := by
      rw [filledLines_eq_nil_iff.mpr between]
      split <;> rfl
    simp only [filledLines_append, filledLines_cons_filled, firstFilled, secondFilled, ne_eq,
      not_false_eq_true, filledLines_eq_nil_iff.mpr empty, inner, List.nil_append,
      filledLines_eq_nil_iff.mpr between, List.cons.injEq, true_and] at kept ⊢
    exact kept
  · have ends := normal.ends
    rw [same, ← List.cons_append, List.getLast?_append] at ends
    intro found
    rw [found] at ends
    exact ends rfl
  · have chain := normal.alone
    rw [same, ← List.cons_append] at chain
    exact (List.isChain_append.mp chain).2.1
  · intro before one space two rest cut oneFilled twoFilled blank
    obtain ⟨ahead, behind, split, held⟩ :=
      normal.gaps (lead ++ first :: (gap ++ before)) one space two rest (by simp [cut]) oneFilled
        twoFilled blank
    rw [filledLines_append, filledLines_eq_nil_iff.mpr empty, List.nil_append,
      filledLines_cons_filled firstFilled, filledLines_append, filledLines_eq_nil_iff.mpr between,
      List.nil_append] at held
    rw [same] at split
    -- The first line stands ahead of the two, and so does the empty line behind it if there is one.
    cases ahead with
    | nil => cases held
    | cons head ahead =>
      obtain ⟨rfl, later⟩ := List.cons.inj split
      rw [filledLines_cons_filled firstFilled] at held
      replace held := (List.cons.inj held).2
      by_cases none : gap = []
      · rw [if_pos none, List.nil_append] at later
        exact ⟨ahead, behind, later, held⟩
      · rw [if_neg none, List.singleton_append] at later
        cases ahead with
        | nil => exact absurd (List.cons.inj later).1.symm oneFilled
        | cons head ahead =>
          obtain ⟨rfl, further⟩ := List.cons.inj later
          exact ⟨ahead, behind, further, held⟩

theorem unique (one : Normal lines result) (two : Normal lines other) : result = other := by
  induction size : lines.length using Nat.strong_induction_on generalizing lines result other with
  | _ length ih =>
    rcases filled_or_cut lines with none | ⟨lead, first, rest, rfl, empty, firstFilled⟩
    · rw [one.empty_iff.mpr none, two.empty_iff.mpr none]
    · rcases filled_or_cut rest with last | ⟨gap, second, after, rfl, between, secondFilled⟩
      · rw [one.single empty firstFilled last, two.single empty firstFilled last]
      · obtain ⟨late, rfl, oneLater⟩ := one.next empty firstFilled secondFilled between
        obtain ⟨behind, rfl, twoLater⟩ := two.next empty firstFilled secondFilled between
        have shorter : (second :: after).length < length := by
          rw [← size]
          simp only [List.length_append, List.length_cons]
          omega
        rw [ih _ shorter oneLater twoLater rfl]

end Normal

theorem pieces_eq_splitOn (letters : List Char) : pieces letters = letters.splitOn '\n' := by
  induction letters with
  | nil => rfl
  | cons letter rest ih =>
    rw [List.splitOn_eq_splitOnP, List.splitOnP_cons_eq_if_modifyHead, ← List.splitOn_eq_splitOnP, ← ih,
      pieces]
    by_cases feed : letter = '\n'
    · simp [feed]
    · cases parts : pieces rest with
      | nil => exact absurd parts (pieces_ne_nil rest)
      | cons first others => simp [feed]

theorem pieces_unlines {lines : List (List Char)} (unbroken : ∀ line ∈ lines, '\n' ∉ line) :
    pieces (unlines lines) = lines ++ [[]] := by
  induction lines with
  | nil => rfl
  | cons line rest ih =>
    obtain ⟨first, others⟩ := List.forall_mem_cons.mp unbroken
    have split : unlines (line :: rest) = line ++ '\n' :: unlines rest := by simp [unlines]
    rw [split, pieces_append, pieces_single first, ih others]
    rfl

/-- A carriage return is blank, so it goes with the blanks at the end of its line. -/
theorem unpadded_withoutReturn (line : List Char) : unpadded (withoutReturn line) = unpadded line := by
  unfold withoutReturn
  split
  next last =>
    obtain ⟨front, rfl⟩ := List.getLast?_eq_some_iff.mp last
    rw [List.dropLast_concat, unpadded_append_singleton, if_pos (by decide)]
  next => rfl

/-- Lines are read with a rule of their own for the end of a text, which the normal form does not
show. -/
theorem tidyLines_linesOf (letters : List Char) :
    tidyLines ((linesOf letters).map unpadded) = tidyLines ((letters.splitOn '\n').map unpadded) := by
  have returns : (pieces letters).dropLast.map (unpadded ∘ withoutReturn) =
      (pieces letters).dropLast.map unpadded :=
    List.map_congr_left fun line _ => unpadded_withoutReturn line
  have parts : ∀ {last}, (pieces letters).getLast? = some last →
      pieces letters = (pieces letters).dropLast ++ [last] := by
    intro last found
    obtain ⟨front, same⟩ := List.getLast?_eq_some_iff.mp found
    rw [same, List.dropLast_concat]
  rw [← pieces_eq_splitOn]
  unfold linesOf
  dsimp only
  split
  next none => exact absurd (List.getLast?_eq_none_iff.mp none) (pieces_ne_nil letters)
  next found =>
    rw [parts found, List.map_append, List.map_map, List.dropLast_concat, returns]
    exact (tidyLines_append_blank _).symm
  next last _ found =>
    rw [parts found, List.map_append, List.map_append, List.map_map, List.dropLast_concat, returns]

theorem toList_tidy_trimmed (text : String) :
    (tidy text).toList = unlines (tidyLines (trimmedLines text)) := by
  rw [toList_tidy, tidyLines_linesOf]
  rfl

theorem trimmedLines_tidy (text : String) :
    trimmedLines (tidy text) = tidyLines (trimmedLines text) ++ [[]] := by
  have trimmed : ∀ line ∈ tidyLines (trimmedLines text), '\n' ∉ line ∧ unpadded line = line := by
    intro line member
    rcases mem_of_mem_tidyLines member with rfl | among
    · exact ⟨List.not_mem_nil, rfl⟩
    · obtain ⟨piece, cut, rfl⟩ := List.mem_map.mp among
      rw [← pieces_eq_splitOn] at cut
      have unbroken := (part_of_mem_pieces cut).2
      exact ⟨fun feed => unbroken ((unpadded_isInfix piece).subset feed),
        List.rdropWhile_idempotent isBlank piece⟩
  rw [trimmedLines, toList_tidy_trimmed, ← pieces_eq_splitOn,
    pieces_unlines fun line member => (trimmed line member).1, List.map_append]
  have same := (List.map_congr_left fun line member => (trimmed line member).2).trans
    (List.map_id (tidyLines (trimmedLines text)))
  exact congrArg (· ++ [[]]) same

theorem tidy_tidy (text : String) : tidy (tidy text) = tidy text := by
  have normal := normal_tidyLines (trimmedLines text)
  have itself := (normal_tidyLines (tidyLines (trimmedLines text))).unique normal.itself
  rw [← String.toList_inj, toList_tidy_trimmed, trimmedLines_tidy, tidyLines_append_blank, itself,
    toList_tidy_trimmed]

/-- A text in normal form holds the lines that are the one normal form of its own, each with a line feed
behind it, which is nothing where all lines are empty. Neither it nor a generated module changes when it
is brought into normal form again. -/
theorem tidy_normal (text : String) (source : Emission.SourceModule) :
    (∃ result, (∀ lines, Normal (trimmedLines text) lines ↔ lines = result) ∧
      (tidy text).toList = result.flatMap (· ++ ['\n'])) ∧
    (tidy text = "" ↔ ∀ line ∈ trimmedLines text, line = []) ∧
    tidy (tidy text) = tidy text ∧ tidy source.text = source.text := by
  have normal := normal_tidyLines (trimmedLines text)
  refine ⟨⟨tidyLines (trimmedLines text), ?_, toList_tidy_trimmed text⟩, ?_, tidy_tidy text,
    tidy_tidy _⟩
  · intro lines
    constructor
    · intro other
      exact other.unique normal
    · rintro rfl
      exact normal
  · rw [← normal.empty_iff, ← String.toList_eq_nil_iff, toList_tidy_trimmed]
    cases tidyLines (trimmedLines text) with
    | nil => simp [unlines]
    | cons line rest => simp [unlines]

end CompositeKeys.Text
