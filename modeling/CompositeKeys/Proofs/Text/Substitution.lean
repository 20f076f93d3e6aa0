import CompositeKeys.Text.Substitution
import Mathlib.Data.List.Infix

/-! What replacing leaves alone. A text without the pattern stays as it is, and a text may be cut at
any letter that the pattern does not have: no occurrence lies on both sides. All of this holds of
several patterns that are replaced at once, too, of which a single one is the simplest case. -/

namespace CompositeKeys.Text

/-- Replaces the occurrences of all patterns of a table at once, as `replacing` does those of one. Of
several patterns that begin alike the first one counts. -/
def replacingAll (table : List (List Char × List Char)) : Nat → List Char → List Char
  | _, [] => []
  | skipped + 1, _ :: rest => replacingAll table skipped rest
  | 0, letter :: rest =>
    match table.find? fun row => row.1.isPrefixOf (letter :: rest) with
    | some (pattern, value) => value ++ replacingAll table (pattern.length - 1) rest
    | none => letter :: replacingAll table 0 rest

section Table
variable {table : List (List Char × List Char)}

theorem replacingAll_skip (letters : List Char) :
    replacingAll table letters.length letters = [] := by
  induction letters with
  | nil => rfl
  | cons letter rest ih => exact ih

/-- A pattern becomes its value if no earlier pattern of the table begins it. -/
theorem replacingAll_self {pattern value : List Char} (filled : pattern ≠ [])
    (first : table.find? (fun row => row.1.isPrefixOf pattern) = some (pattern, value)) :
    replacingAll table 0 pattern = value := by
  cases pattern with
  | nil => exact absurd rfl filled
  | cons letter rest => simp [replacingAll, first, replacingAll_skip]

theorem replacingAll_of_absent {letters : List Char} (absent : ∀ row ∈ table, ¬ row.1 <:+: letters) :
    replacingAll table 0 letters = letters := by
  induction letters with
  | nil => rfl
  | cons letter rest ih =>
    simp only [List.infix_cons_iff, not_or] at absent
    have none : table.find? (fun row => row.1.isPrefixOf (letter :: rest)) = none := by
      simpa using fun pattern value member => (absent (pattern, value) member).1
    rw [replacingAll, none]
    exact congrArg (letter :: ·) (ih fun row member => (absent row member).2)

/-- A pattern that begins before a letter which it does not have ends before it, too. -/
theorem prefix_cut {pattern : List Char} {letter : Char} (apart : letter ∉ pattern)
    (first second : List Char) : pattern <+: first ++ letter :: second ↔ pattern <+: first := by
  refine ⟨fun begins => ?_, fun begins => begins.trans (List.prefix_append _ _)⟩
  refine List.prefix_of_prefix_length_le begins (List.prefix_append _ _) ?_
  by_contra longer
  obtain ⟨rest, same⟩ := begins
  have found : pattern[first.length]? = some letter := by
    have place := congrArg (·[first.length]?) same
    simpa [List.getElem?_append_left (Nat.lt_of_not_le longer)] using place
  exact apart (List.mem_of_getElem? found)

theorem replacingAll_cut {letter : Char} (filled : ∀ row ∈ table, row.1 ≠ [])
    (apart : ∀ row ∈ table, letter ∉ row.1) (first second : List Char) :
    replacingAll table 0 (first ++ letter :: second) =
      replacingAll table 0 first ++ letter :: replacingAll table 0 second := by
  have found : ∀ before, table.find? (fun row => row.1.isPrefixOf (before ++ letter :: second)) =
      table.find? fun row => row.1.isPrefixOf before := by
    intro before
    rw [← List.head?_filter, ← List.head?_filter]
    refine congrArg List.head? (List.filter_congr fun row member => ?_)
    rw [Bool.eq_iff_iff, List.isPrefixOf_iff_prefix, List.isPrefixOf_iff_prefix]
    exact prefix_cut (apart row member) before second
  -- Letters that are skipped belong to an occurrence, so all of them stand before the cut.
  have skipping : ∀ skipped, skipped ≤ first.length →
      replacingAll table skipped (first ++ letter :: second) =
        replacingAll table skipped first ++ letter :: replacingAll table 0 second := by
    induction first with
    | nil =>
      intro skipped bound
      obtain rfl := Nat.le_zero.mp bound
      have none : table.find? (fun row => row.1.isPrefixOf ([] : List Char)) = none := by
        simpa using fun pattern value member => filled (pattern, value) member
      have cut : table.find? (fun row => row.1.isPrefixOf (letter :: second)) = Option.none :=
        (found []).trans none
      change replacingAll table 0 (letter :: second) = letter :: replacingAll table 0 second
      rw [replacingAll, cut]
    | cons head rest ih =>
      intro skipped bound
      cases skipped with
      | succ skipped => exact ih skipped (by simpa using bound)
      | zero =>
        have here := found (head :: rest)
        rw [List.cons_append] at here ⊢
        rw [replacingAll, here, replacingAll]
        cases begins : table.find? fun row => row.1.isPrefixOf (head :: rest) with
        | none => exact congrArg (head :: ·) (ih 0 (Nat.zero_le _))
        | some row =>
          have shorter : row.1.length - 1 ≤ rest.length := by
            have starts := List.find?_some begins
            have inside := (List.isPrefixOf_iff_prefix.mp starts).length_le
            simp only [List.length_cons] at inside
            omega
          simp only [ih _ shorter, List.append_assoc]
  exact skipping 0 (Nat.zero_le _)

end Table

variable {pattern value : List Char}

/-- A single pattern is a table of its own. -/
theorem replacingAll_single (skipped : Nat) (letters : List Char) :
    replacingAll [(pattern, value)] skipped letters = replacing pattern value skipped letters := by
  induction letters generalizing skipped with
  | nil => rfl
  | cons letter rest ih =>
    cases skipped with
    | succ skipped => exact ih skipped
    | zero =>
      rw [replacingAll, replacing]
      cases begins : pattern.isPrefixOf (letter :: rest) <;> simp [begins, ih]

theorem replacing_self (filled : pattern ≠ []) : replacing pattern value 0 pattern = value := by
  rw [← replacingAll_single]
  exact replacingAll_self filled (by simp)

theorem replacing_of_absent {letters : List Char} (absent : ¬ pattern <:+: letters) :
    replacing pattern value 0 letters = letters := by
  rw [← replacingAll_single]
  exact replacingAll_of_absent (by simpa using absent)

theorem replacing_cut {letter : Char} (filled : pattern ≠ []) (apart : letter ∉ pattern)
    (first second : List Char) :
    replacing pattern value 0 (first ++ letter :: second) =
      replacing pattern value 0 first ++ letter :: replacing pattern value 0 second := by
  simp only [← replacingAll_single]
  exact replacingAll_cut (by simpa using filled) (by simpa using apart) first second

theorem mem_replacing {letter : Char} {skipped : Nat} {letters : List Char}
    (member : letter ∈ replacing pattern value skipped letters) :
    letter ∈ value ∨ letter ∈ letters := by
  induction letters generalizing skipped with
  | nil => exact .inr member
  | cons first rest ih =>
    have later := fun {skipped} (member : letter ∈ replacing pattern value skipped rest) =>
      (ih member).imp_right (List.mem_cons_of_mem first)
    cases skipped with
    | succ skipped => exact later member
    | zero =>
      unfold replacing at member
      split at member
      · exact (List.mem_append.mp member).elim .inl later
      · rcases List.mem_cons.mp member with rfl | among
        · exact .inr List.mem_cons_self
        · exact later among

end CompositeKeys.Text
