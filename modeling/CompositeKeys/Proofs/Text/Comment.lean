import CompositeKeys.Proofs.Text.Layout
import Mathlib.Data.List.Infix

/-! Comments and what ends them. Letters in which no comment ends can be put together at any letter
that the end of a comment does not have, and bringing a comment into normal form ends it nowhere
else. -/

namespace CompositeKeys.Text

/-- What ends a comment. -/
def terminator : List Char := ['*', '/']

/-- Letters in which no comment ends. -/
def Clear (letters : List Char) : Prop := ¬ terminator <:+: letters

instance (letters : List Char) : Decidable (Clear letters) :=
  inferInstanceAs (Decidable (¬ _))

/-- A comment that ends once: its one terminator has nothing but line feeds behind it. -/
def ClosesOnce (letters : List Char) : Prop :=
  ∃ body feeds, letters = body ++ (terminator ++ feeds) ∧ (∀ letter ∈ feeds, letter = '\n') ∧
    ∀ before after, letters = before ++ (terminator ++ after) → before = body

section Clear
variable {first second : List Char} {letter : Char}

theorem Clear.of_isInfix (clear : Clear second) (part : first <:+: second) : Clear first :=
  fun inside => clear (inside.trans part)

theorem clear_of_starless (starless : '*' ∉ first) : Clear first :=
  fun inside => starless (inside.subset List.mem_cons_self)

theorem Clear.cut (one : Clear first) (two : Clear second) (apart : letter ∉ terminator) :
    Clear (first ++ letter :: second) :=
  fun inside => (infix_of_cut apart inside).elim one two

theorem Clear.append_apart (clear : Clear first) (apart : ∀ letter ∈ second, letter ∉ terminator) :
    Clear (first ++ second) := by
  induction second generalizing first with
  | nil => rwa [List.append_nil]
  | cons letter rest ih =>
    rw [List.forall_mem_cons] at apart
    rw [List.append_cons]
    exact ih (clear.cut (by decide) apart.1) apart.2

/-- Behind a blank, letters come to stand beside nothing that could end a comment with them. -/
theorem Clear.behind_blank {start rest : String} (clear : Clear rest.toList)
    (begun : Clear start.toList) (blank : start.toList.getLast? = some ' ') :
    Clear (start ++ rest).toList := by
  obtain ⟨front, same⟩ := List.getLast?_eq_some_iff.mp blank
  rw [String.toList_append, same, ← List.append_cons]
  exact (begun.of_isInfix ⟨[], [' '], by simp [same]⟩).cut clear (by decide)

theorem Clear.spaced {first second : String} (one : Clear first.toList)
    (two : Clear second.toList) : Clear (first ++ " " ++ second).toList := by
  have parts : (first ++ " " ++ second).toList = first.toList ++ ' ' :: second.toList := by simp
  rw [parts]
  exact one.cut two (by decide)

theorem clear_join_lines {texts : List String} (clear : ∀ text ∈ texts, Clear text.toList) :
    Clear (String.join (texts.map (· ++ "\n"))).toList := by
  induction texts with
  | nil => exact clear_of_starless (by simp)
  | cons text rest ih =>
    rw [List.forall_mem_cons] at clear
    have whole : (String.join ((text :: rest).map (· ++ "\n"))).toList =
        text.toList ++ '\n' :: (String.join (rest.map (· ++ "\n"))).toList := by simp
    rw [whole]
    exact clear.1.cut (ih clear.2) (by decide)

theorem clear_lines {text line : String} (clear : Clear text.toList) (member : line ∈ lines text) :
    Clear line.toList := by
  obtain ⟨letters, among, rfl⟩ := List.mem_map.mp member
  rw [String.toList_ofList]
  exact clear.of_isInfix (part_of_mem_linesOf among).1

theorem clear_unlines {lines : List (List Char)} (clear : ∀ line ∈ lines, Clear line) :
    Clear (unlines lines) := by
  induction lines with
  | nil => exact (by decide : Clear [])
  | cons line rest ih =>
    rw [List.forall_mem_cons] at clear
    have whole : unlines (line :: rest) = line ++ '\n' :: unlines rest := by simp [unlines]
    rw [whole]
    exact clear.1.cut (ih clear.2) (by decide)

end Clear

theorem closesOnce_of_clear {body feeds : List Char} (clear : Clear body)
    (rest : ∀ letter ∈ feeds, letter = '\n') : ClosesOnce (body ++ (terminator ++ feeds)) := by
  refine ⟨body, feeds, rfl, rest, fun before after same => ?_⟩
  -- Another end would begin in the body, across the first one or among the line feeds.
  rw [List.append_eq_append_iff] at same
  rcases same with ⟨more, rfl, ends⟩ | ⟨more, rfl, ends⟩
  · match more with
    | [] => simp
    | [letter] => simp [terminator] at ends
    | first :: second :: more =>
      simp only [terminator, List.cons_append, List.nil_append, List.cons.injEq] at ends
      obtain ⟨_, _, inside⟩ := ends
      have star := rest '*' (by simp [inside])
      cases star
  · match more with
    | [] => simp
    | [letter] => simp [terminator] at ends
    | first :: second :: more =>
      simp only [terminator, List.cons_append, List.nil_append, List.cons.injEq] at ends
      obtain ⟨rfl, rfl, _⟩ := ends
      exact absurd ⟨before, more, by simp [terminator]⟩ clear

/-- A comment that ends ahead of more than line feeds. -/
def EndsEarly (letters : List Char) : Prop :=
  ∃ rest ∈ letters.tails, terminator <+: rest ∧
    (rest.drop terminator.length).any (· ≠ '\n') = true

instance (letters : List Char) : Decidable (EndsEarly letters) :=
  inferInstanceAs (Decidable (∃ _ ∈ _, _))

theorem EndsEarly.not_closesOnce {letters : List Char} (early : EndsEarly letters) :
    ¬ ClosesOnce letters := by
  rintro ⟨body, feeds, same, onlyFeeds, unique⟩
  obtain ⟨rest, member, ⟨after, rfl⟩, more⟩ := early
  obtain ⟨letter, behind, other⟩ := List.any_eq_true.mp more
  obtain ⟨before, whole⟩ := (List.mem_tails _ _).mp member
  obtain rfl := unique before after whole.symm
  have feedsSame : after = feeds := by simpa [same] using whole
  rw [List.drop_left] at behind
  simp [onlyFeeds letter (feedsSame ▸ behind)] at other

section Comment
variable {body margin : String} (ended : Ended body.toList) (clear : Clear body.toList)
  (blank : ∀ letter ∈ margin.toList, letter = ' ')
include clear blank

theorem clear_margin : Clear (body.toList ++ margin.toList) := by
  refine clear.append_apart fun letter member => ?_
  rw [blank letter member]
  decide

theorem comment_closesOnce : ClosesOnce (body ++ margin ++ "*/\n").toList := by
  have closes : ClosesOnce (body.toList ++ margin.toList ++ (terminator ++ ['\n'])) :=
    closesOnce_of_clear (clear_margin clear blank) (by simp)
  simpa [terminator] using closes

include ended in
/-- A comment in normal form ends as it did. -/
theorem tidy_comment_closesOnce : ClosesOnce (tidy (body ++ margin ++ "*/\n")).toList := by
  let last := margin.toList ++ terminator
  have lines : (linesOf (body ++ margin ++ "*/\n").toList).map unpadded =
      (linesOf body.toList).map unpadded ++ [last] := by
    have unbroken : '\n' ∉ last := by
      simp only [last, List.mem_append, not_or]
      exact ⟨fun member => absurd (blank _ member) (by decide), by decide⟩
    have slash : last.getLast? = some '/' := by simp [last, terminator]
    have parts : (body ++ margin ++ "*/\n").toList = body.toList ++ (last ++ ['\n']) := by
      simp [last, terminator]
    rw [parts, linesOf_append ended, List.map_append, normal_line unbroken slash (by decide)]
  -- The last line is filled, so it stays last, and the lines ahead of it are parts of the body's.
  have filled : last ≠ [] := by simp [last, terminator]
  obtain ⟨front, same, early⟩ := tidyLines_append_filled filled ((linesOf body.toList).map unpadded)
  have clearFront : Clear (unlines front) := by
    refine clear_unlines fun line member => ?_
    rcases early line member with rfl | mapped
    · decide
    · obtain ⟨whole, among, rfl⟩ := List.mem_map.mp mapped
      exact clear.of_isInfix ((unpadded_isInfix whole).trans (part_of_mem_linesOf among).1)
  have whole : (tidy (body ++ margin ++ "*/\n")).toList =
      unlines front ++ margin.toList ++ (terminator ++ ['\n']) := by
    rw [toList_tidy, lines, same, unlines_append]
    simp [unlines, last]
  rw [whole]
  refine closesOnce_of_clear (clearFront.append_apart fun letter member => ?_) (by simp)
  rw [blank letter member]
  decide

end Comment

end CompositeKeys.Text
