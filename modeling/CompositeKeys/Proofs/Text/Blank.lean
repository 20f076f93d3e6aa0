import CompositeKeys.Text.Blank
import Mathlib.Data.List.DropRight
import Mathlib.Data.List.Induction

/-! What is left of a text without the blanks at its ends, and the letter that it then ends in; and
what is left of one without a given beginning or ending. -/

namespace CompositeKeys.Text

/-- The last letter that is not blank. -/
def lastFilled (letters : List Char) : Option Char := (unpadded letters).getLast?

theorem unpadded_isInfix (letters : List Char) : unpadded letters <:+: letters :=
  (List.rdropWhile_prefix isBlank letters).isInfix

section Padding
variable (before after : List Char) (letter : Char)

theorem unpadded_append_singleton :
    unpadded (before ++ [letter]) =
      if isBlank letter then unpadded before else before ++ [letter] := by
  unfold unpadded
  cases blank : isBlank letter <;> simp [blank]

theorem lastFilled_append_singleton :
    lastFilled (before ++ [letter]) = if isBlank letter then lastFilled before else some letter := by
  unfold lastFilled
  rw [unpadded_append_singleton]
  split <;> simp

theorem lastFilled_append : lastFilled (before ++ after) = (lastFilled after).or (lastFilled before) := by
  induction after using List.reverseRecOn with
  | nil => simp [lastFilled, unpadded]
  | append_singleton after letter ih =>
    rw [← List.append_assoc, lastFilled_append_singleton, lastFilled_append_singleton, ih]
    split <;> simp

end Padding

/-- What is not blank keeps everything before it. -/
theorem unpadded_append_cons {letter : Char} (filled : isBlank letter = false)
    (before after : List Char) :
    unpadded (before ++ letter :: after) = before ++ letter :: unpadded after := by
  induction after using List.reverseRecOn with
  | nil => simp [filled, unpadded]
  | append_singleton after last ih =>
    have whole : before ++ letter :: (after ++ [last]) = before ++ letter :: after ++ [last] := by
      simp
    rw [whole, unpadded_append_singleton, unpadded_append_singleton, ih]
    split <;> simp

/-- Dropping blanks at the end uncovers none at the front. -/
theorem unindented_unpadded {letters : List Char} (front : unindented letters = letters) :
    unindented (unpadded letters) = unpadded letters := by
  have kept : unpadded letters <+: letters := List.rdropWhile_prefix isBlank letters
  generalize unpadded letters = rest at kept
  obtain ⟨blanks, rfl⟩ := kept
  cases rest with
  | nil => rfl
  | cons first rest =>
    unfold unindented at front ⊢
    rw [List.dropWhile_eq_self_iff] at front ⊢
    exact fun _ => front (by simp)

theorem stripped_stripped (letters : List Char) : stripped (stripped letters) = stripped letters := by
  have front : unindented (stripped letters) = stripped letters :=
    unindented_unpadded (List.dropWhile_idempotent isBlank letters)
  unfold stripped at front ⊢
  rw [front]
  exact List.rdropWhile_idempotent isBlank _

theorem unindented_append_singleton {letter : Char} (filled : isBlank letter = false)
    (letters : List Char) : unindented (letters ++ [letter]) = unindented letters ++ [letter] := by
  induction letters with
  | nil => simp [unindented, filled]
  | cons first rest ih =>
    unfold unindented at ih ⊢
    rw [List.cons_append, List.dropWhile_cons, List.dropWhile_cons, ih]
    split <;> simp

theorem stripped_unindented (letters : List Char) :
    stripped (unindented letters) = stripped letters := by
  unfold stripped unindented
  rw [List.dropWhile_idempotent]

theorem stripped_cons_of_blank {letter : Char} (blank : isBlank letter = true) (rest : List Char) :
    stripped (letter :: rest) = stripped rest := by
  rw [stripped, unindented, List.dropWhile_cons, if_pos blank, ← unindented, ← stripped]

theorem stripped_cons_of_filled {letter : Char} (filled : isBlank letter = false)
    (rest : List Char) : stripped (letter :: rest) = unpadded (letter :: rest) := by
  rw [stripped, unindented, List.dropWhile_cons, if_neg (ne_true_of_eq_false filled)]

theorem stripped_append_of_blank {letter : Char} (blank : isBlank letter = true)
    (letters : List Char) : stripped (letters ++ [letter]) = stripped letters := by
  unfold stripped unindented
  rw [List.dropWhile_append]
  split
  next empty => simp [List.isEmpty_iff.mp empty, blank]
  · rw [unpadded_append_singleton, if_pos blank]

/-- Blanks at the end do not matter to what is left between the blanks at both ends. -/
theorem stripped_unpadded (letters : List Char) : stripped (unpadded letters) = stripped letters := by
  induction letters using List.reverseRecOn with
  | nil => rfl
  | append_singleton letters last ih =>
    rw [unpadded_append_singleton]
    split
    next blank => rw [ih, stripped_append_of_blank blank]
    · rfl

theorem stripped_ne_nil {line : List Char} {letter : Char} (filled : isBlank letter = false)
    (inside : letter ∈ line) : stripped line ≠ [] := by
  induction line with
  | nil => cases inside
  | cons first rest ih =>
    cases held : isBlank first with
    | true =>
      have later : letter ∈ rest := by
        refine (List.mem_cons.mp inside).resolve_left fun same => ?_
        rw [same, held] at filled
        cases filled
      rw [stripped_cons_of_blank held]
      exact ih later
    | false =>
      have whole : unpadded (first :: rest) = first :: unpadded rest :=
        unpadded_append_cons held [] rest
      rw [stripped_cons_of_filled held, whole]
      exact List.cons_ne_nil _ _

theorem stripped_eq_self {letters : List Char}
    (front : ∀ first ∈ letters.head?, isBlank first = false)
    (back : ∀ last ∈ letters.getLast?, isBlank last = false) : stripped letters = letters := by
  have kept : unindented letters = letters := by
    cases letters with
    | nil => rfl
    | cons first rest => simp [unindented, front first rfl]
  rw [stripped, kept]
  refine List.rdropWhile_eq_self_iff.mpr fun filled => ?_
  simp [back _ (List.getLast?_eq_some_getLast filled)]

theorem after?_cons (first letter : Char) (start letters : List Char) :
    after? (first :: start) (letter :: letters) =
      if first = letter then after? start letters else none := by
  by_cases same : first = letter <;> simp [after?, List.isPrefixOf, same]

theorem before?_append (letters ending : List Char) :
    before? ending (letters ++ ending) = some letters := by
  simp [before?]

end CompositeKeys.Text
