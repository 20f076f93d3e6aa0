import CompositeKeys.Proofs.Text.Blank
import CompositeKeys.Proofs.Text.Lines
import CompositeKeys.Text.Layout

/-! The normal form line by line. A text is brought into normal form in passes over its letters, of
which each looks at line feeds only. What they come to is told by its lines: those that hold something
stay in their order, and where empty lines separated two of them one empty line does. -/

namespace CompositeKeys.Text

/-- The lines that hold something, with one empty line wherever empty lines separated two of them;
`owed` records that one did so before the first line at hand. -/
def spaced : Bool → List (List Char) → List (List Char)
  | _, [] => []
  | owed, line :: rest =>
    if line = [] then spaced true rest
    else if owed then [] :: line :: spaced false rest
    else line :: spaced false rest

/-- Lines in normal form, without blank lines at either end. -/
def tidyLines (lines : List (List Char)) : List (List Char) :=
  spaced false (lines.dropWhile (· = []))

def unlines (lines : List (List Char)) : List Char :=
  lines.flatMap (· ++ ['\n'])

def below (lines : List (List Char)) : List Char :=
  lines.flatMap ('\n' :: ·)

theorem intercalate_feed (line : List Char) (lines : List (List Char)) :
    ['\n'].intercalate (line :: lines) = line ++ below lines := by
  induction lines generalizing line with
  | nil => simp [below]
  | cons next rest ih =>
    rw [List.intercalate_cons_cons, ih]
    simp [below]

section Collapsing
variable {line : List Char} (unbroken : '\n' ∉ line) (filled : line ≠ []) (feeds : Nat)

include unbroken filled in
/-- After a line that holds something, line feeds are counted anew. -/
theorem collapsed_line (rest : List Char) :
    collapsed feeds (line ++ rest) = line ++ collapsed 0 rest := by
  induction line generalizing feeds with
  | nil => exact absurd rfl filled
  | cons letter more ih =>
    rw [List.mem_cons, not_or] at unbroken
    rw [List.cons_append, collapsed, if_neg (Ne.symm unbroken.1), List.cons_append]
    by_cases last : more = []
    · rw [last, List.nil_append, List.nil_append]
    · rw [ih unbroken.2 last]

/-- At most two line feeds in a row are kept. -/
theorem collapsed_feed (rest : List Char) :
    List.replicate (min feeds 2) '\n' ++ collapsed feeds ('\n' :: rest) =
      List.replicate (min (feeds + 1) 2) '\n' ++ collapsed (feeds + 1) rest := by
  rw [collapsed, if_pos rfl]
  by_cases few : feeds < 2
  · have one : min feeds 2 = feeds := by omega
    have more : min (feeds + 1) 2 = feeds + 1 := by omega
    rw [if_pos few, one, more, List.replicate_succ', List.append_assoc]
    rfl
  · have two : min feeds 2 = 2 := by omega
    have still : min (feeds + 1) 2 = 2 := by omega
    rw [if_neg few, two, still]

end Collapsing

section Ending
variable {first second : List Char}

theorem unfed_append (held : unfed second ≠ []) : unfed (first ++ second) = first ++ unfed second := by
  have kept : second.reverse.dropWhile (· = '\n') ≠ [] := by
    intro none
    apply held
    rw [unfed, none, List.reverse_nil]
  unfold unfed
  rw [List.reverse_append, List.dropWhile_append, if_neg (mt List.isEmpty_iff.mp kept)]
  rw [List.reverse_append, List.reverse_reverse]

theorem unfed_unbroken (unbroken : '\n' ∉ first) : unfed first = first := by
  apply List.rdropWhile_eq_self_iff.mpr
  intro held last
  have feed : first.getLast held = '\n' := by simpa using last
  exact unbroken (feed ▸ List.getLast_mem held)

theorem unfed_feeds (unbroken : '\n' ∉ first) (feeds : Nat) :
    unfed (first ++ List.replicate feeds '\n') = first := by
  induction feeds with
  | zero => rw [List.replicate_zero, List.append_nil, unfed_unbroken unbroken]
  | succ feeds ih =>
    rw [List.replicate_succ', ← List.append_assoc]
    exact (List.rdropWhile_concat_pos _ _ _ (by simp)).trans ih

end Ending

/-- The last two passes over a line that holds something and `feeds` line feeds behind it, with what
stands below them. -/
theorem unfed_passage {line : List Char} {lines : List (List Char)} (unbroken : '\n' ∉ line)
    (filled : line ≠ []) (each : ∀ other ∈ lines, '\n' ∉ other) (feeds : Nat) :
    unfed (line ++ (List.replicate (min feeds 2) '\n' ++ collapsed feeds (below lines))) ++ ['\n'] =
      line ++ '\n' :: unlines (spaced (feeds ≠ 0) lines) := by
  induction lines generalizing line feeds with
  | nil =>
    simp only [below, List.flatMap_nil, collapsed, List.append_nil, spaced, unlines]
    rw [unfed_feeds unbroken]
  | cons next rest ih =>
    obtain ⟨nextUnbroken, others⟩ := List.forall_mem_cons.mp each
    have split : below (next :: rest) = '\n' :: (next ++ below rest) := by simp [below]
    rw [split, collapsed_feed]
    by_cases empty : next = []
    · subst empty
      rw [List.nil_append, ih unbroken filled others (feeds + 1)]
      simp [spaced]
    · have later := ih nextUnbroken empty others 0
      simp only [Nat.zero_min, List.replicate_zero, List.nil_append] at later
      have held : unfed (next ++ collapsed 0 (below rest)) ≠ [] := by
        intro none
        rw [none] at later
        have lengths := congrArg List.length later
        have positive := List.length_pos_iff.mpr empty
        simp only [List.length_append, List.length_cons, List.length_nil] at lengths
        omega
      rw [collapsed_line nextUnbroken empty, ← List.append_assoc, unfed_append held,
        List.append_assoc, later]
      -- One line feed ends the line above, a second one leaves an empty line.
      cases feeds with
      | zero => simp [spaced, empty, unlines]
      | succ feeds =>
        simp [spaced, empty, unlines, List.replicate_succ]

/-- Leading line feeds go, whatever was left of them. -/
theorem dropWhile_collapsed {lines : List (List Char)} (each : ∀ line ∈ lines, '\n' ∉ line)
    (feeds : Nat) : (collapsed feeds (['\n'].intercalate lines)).dropWhile (· = '\n') =
      match lines.dropWhile (· = []) with
      | [] => []
      | line :: rest => line ++ collapsed 0 (below rest) := by
  induction lines generalizing feeds with
  | nil => rfl
  | cons line rest ih =>
    obtain ⟨unbroken, others⟩ := List.forall_mem_cons.mp each
    by_cases empty : line = []
    · subst empty
      rw [List.dropWhile_cons_of_pos (by simp)]
      cases rest with
      | nil => rfl
      | cons next more =>
        rw [List.intercalate_cons_cons, List.nil_append, List.singleton_append, ← ih others (feeds + 1),
          collapsed, if_pos rfl]
        split
        · rw [List.dropWhile_cons_of_pos (by simp)]
        · rfl
    · rw [List.dropWhile_cons_of_neg (by simpa using empty), intercalate_feed,
        collapsed_line unbroken empty]
      cases line with
      | nil => exact absurd rfl empty
      | cons letter more =>
        rw [List.mem_cons, not_or] at unbroken
        exact List.dropWhile_cons_of_neg (by simpa using Ne.symm unbroken.1)

theorem unbroken_of_mem_trimmed {letters line : List Char}
    (member : line ∈ (linesOf letters).map unpadded) : '\n' ∉ line := by
  obtain ⟨whole, among, rfl⟩ := List.mem_map.mp member
  intro feed
  exact (part_of_mem_linesOf among).2 ((unpadded_isInfix whole).subset feed)

theorem toList_tidy (text : String) :
    (tidy text).toList = unlines (tidyLines ((linesOf text.toList).map unpadded)) := by
  have each : ∀ line ∈ (linesOf text.toList).map unpadded, '\n' ∉ line :=
    fun line member => unbroken_of_mem_trimmed member
  unfold tidy
  generalize (linesOf text.toList).map unpadded = lines at each
  dsimp only
  rw [dropWhile_collapsed each, tidyLines]
  cases kept : lines.dropWhile (· = []) with
  | nil => rfl
  | cons line rest =>
    have filled : line ≠ [] := by
      have head := List.head_dropWhile_not (· = []) (show lines.dropWhile (· = []) ≠ [] by simp [kept])
      simpa [kept] using head
    have inside : ∀ other ∈ line :: rest, '\n' ∉ other := by
      intro other member
      rw [← kept] at member
      exact each other (List.dropWhile_subset _ member)
    obtain ⟨unbroken, others⟩ := List.forall_mem_cons.mp inside
    have passage := unfed_passage unbroken filled others 0
    simp only [Nat.zero_min, List.replicate_zero, List.nil_append] at passage
    have held : unfed (line ++ collapsed 0 (below rest)) ≠ [] := by
      intro none
      rw [none] at passage
      have lengths := congrArg List.length passage
      have positive := List.length_pos_iff.mpr filled
      simp only [List.length_append, List.length_cons, List.length_nil] at lengths
      omega
    dsimp only
    rw [if_neg held, String.toList_ofList, passage]
    simp [spaced, filled, unlines]

end CompositeKeys.Text
