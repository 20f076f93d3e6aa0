import CompositeKeys.Files.Path
import Mathlib.Data.List.Perm.Basic

/-! The order of paths. It is that of their components, so that paths are in one order only if no two of
them are the same. -/

namespace CompositeKeys.Files

namespace Component

theorem before_name_iff {first second : String} :
    (name first).before (name second) = true ↔ first < second := decide_eq_true_iff

theorem before_trans {first second third : Component} (one : first.before second = true)
    (two : second.before third = true) : first.before third = true := by
  cases first <;> cases second <;> cases third
  case name.name.name =>
    rw [before_name_iff] at one two ⊢
    exact String.lt_trans one two
  all_goals simp_all [before, rank]

theorem before_total {first second : Component} (apart : first ≠ second) :
    first.before second = true ∨ second.before first = true := by
  cases first <;> cases second
  case name.name first second =>
    have differs : first ≠ second := fun same => apart (same ▸ rfl)
    rw [before_name_iff, before_name_iff]
    by_cases less : first < second
    · exact .inl less
    · refine .inr (Decidable.byContradiction fun other => differs ?_)
      exact String.le_antisymm (String.not_lt.mp other) (String.not_lt.mp less)
  all_goals simp_all [before, rank]

theorem before_irrefl (component : Component) : component.before component = false := by
  cases component <;> simp [before]

section Sequences
variable {first second third : List Component}

theorem sequenceBefore_trans (one : sequenceBefore first second = true)
    (two : sequenceBefore second third = true) : sequenceBefore first third = true := by
  induction first generalizing second third with
  | nil =>
    cases third with
    | nil => cases second <;> cases two
    | cons => rfl
  | cons head first ih =>
    rcases second with _ | ⟨next, second⟩
    · cases one
    rcases third with _ | ⟨last, third⟩
    · cases two
    unfold sequenceBefore at one two ⊢
    by_cases same : head = next
    · subst same
      rw [if_pos rfl] at one
      split at two
      next same => rw [if_pos same, ih one two]
      next apart => rwa [if_neg apart]
    · rw [if_neg same] at one
      by_cases also : next = last
      · subst also
        rwa [if_neg same]
      · rw [if_neg also] at two
        have before := before_trans one two
        split
        next back =>
          subst back
          rw [before_irrefl] at before
          cases before
        · exact before

theorem sequenceBefore_total (apart : first ≠ second) :
    sequenceBefore first second = true ∨ sequenceBefore second first = true := by
  induction first generalizing second with
  | nil =>
    cases second with
    | nil => exact absurd rfl apart
    | cons => exact .inl rfl
  | cons head first ih =>
    rcases second with _ | ⟨next, second⟩
    · exact .inr rfl
    unfold sequenceBefore
    by_cases same : head = next
    · subst same
      rw [if_pos rfl, if_pos rfl]
      exact ih fun rest => apart (rest ▸ rfl)
    · rw [if_neg same, if_neg (Ne.symm same)]
      exact before_total same

theorem sequenceBefore_irrefl (components : List Component) :
    sequenceBefore components components = false := by
  induction components with
  | nil => rfl
  | cons head rest ih => rwa [sequenceBefore, if_pos rfl]

end Sequences

end Component

/-- Paths that stand in their order. -/
abbrev Sorted (paths : List FilePath) : Prop := paths.Pairwise fun first second => first.before second = true

theorem Sorted.apart {paths : List FilePath} (sorted : Sorted paths) :
    paths.Pairwise fun first second => first.same second = false := by
  refine sorted.imp fun {first second} before => decide_eq_false fun same => ?_
  rw [FilePath.before, same, Component.sequenceBefore_irrefl] at before
  cases before

section Insert
variable {α : Type}

theorem insertPath_perm (path : FilePath) (value : α) (entries : List (FilePath × α)) :
    (insertPath path value entries).Perm (entries ++ [(path, value)]) := by
  refine List.Perm.trans ?_ (List.perm_append_singleton _ _).symm
  induction entries with
  | nil => exact .refl _
  | cons entry entries ih =>
    unfold insertPath
    split
    · exact .refl _
    · exact (ih.cons entry).trans (.swap ..)

theorem sorted_insertPath {path : FilePath} {value : α} {entries : List (FilePath × α)}
    (sorted : Sorted (entries.map Prod.fst)) (new : ∀ entry ∈ entries, entry.1.same path = false) :
    Sorted ((insertPath path value entries).map Prod.fst) := by
  induction entries with
  | nil => exact List.pairwise_singleton _ _
  | cons entry entries ih =>
    rw [List.map_cons, Sorted, List.pairwise_cons] at sorted
    obtain ⟨least, rest⟩ := sorted
    obtain ⟨other, others⟩ := List.forall_mem_cons.mp new
    unfold insertPath
    split
    next early =>
      refine List.pairwise_cons.mpr ⟨?_, List.pairwise_cons.mpr ⟨least, rest⟩⟩
      intro later listed
      rcases List.mem_cons.mp listed with rfl | listed
      · exact early
      · exact Component.sequenceBefore_trans early (least later listed)
    next late =>
      refine List.pairwise_cons.mpr ⟨?_, ih rest others⟩
      intro later listed
      obtain ⟨row, among, rfl⟩ := List.mem_map.mp listed
      rcases List.mem_append.mp ((insertPath_perm path value entries).mem_iff.mp among) with among | last
      · exact least row.1 (List.mem_map.mpr ⟨row, among, rfl⟩)
      · obtain rfl := List.mem_singleton.mp last
        have apart : entry.1.components ≠ path.components := of_decide_eq_false other
        exact (Component.sequenceBefore_total apart).resolve_right late

/-- Paths that are entered one after another stand in their order. -/
theorem sorted_insertAll {paths : List FilePath}
    (apart : paths.Pairwise fun first second => first.same second = false) :
    let inserted := (paths.foldr (fun path => insertPath path ()) []).map Prod.fst
    Sorted inserted ∧ inserted.Perm paths := by
  induction paths with
  | nil => exact ⟨.nil, .refl _⟩
  | cons path paths ih =>
    obtain ⟨new, apart⟩ := List.pairwise_cons.mp apart
    obtain ⟨sorted, perm⟩ := ih apart
    refine ⟨sorted_insertPath sorted fun entry among => ?_, ?_⟩
    · have unlike := new entry.1 (perm.mem_iff.mp (List.mem_map.mpr ⟨entry, among, rfl⟩))
      have differs : path.components ≠ entry.1.components := of_decide_eq_false unlike
      exact decide_eq_false (Ne.symm differs)
    · refine ((insertPath_perm path () _).map Prod.fst).trans ?_
      rw [List.map_append]
      exact (perm.append_right _).trans (List.perm_append_singleton _ _)

end Insert

end CompositeKeys.Files
