import CompositeKeys.Proofs.Generation.Loading
import Mathlib.Data.Finset.Card

/-! Links that come back to a file. -/

namespace CompositeKeys.Generation.Manifest
open Files FilePath FileTree

/-- The way along which the link after so many others leads. -/
def way? (read : Reading) (path : FilePath) (count : Nat) : Option FilePath :=
  (read (trail read path count)).toOption.bind wayOf?

/-- Links that come back to a file that is being loaded, where paths may have any length. -/
structure Circle (tree : FileTree) (path : FilePath) (first second : Nat) : Prop where
  apart : first < second
  leads : Leads tree.readLong path second
  back : tree.place (trail tree.readLong path first) = tree.place (trail tree.readLong path second)
  there : ∃ text, tree.readLong (trail tree.readLong path second) = .ok text

/-- Whether a path grows with every turn around a circle: no link is absolute, and one of them leads out of
its directory. -/
def Drifts (tree : FileTree) (path : FilePath) (first second : Nat) : Prop :=
  (∀ count, first ≤ count → count < second → ∀ way ∈ way? tree.readLong path count,
    way.isAbsolute = false) ∧
  ∃ count, first ≤ count ∧ count < second ∧ ∃ way ∈ way? tree.readLong path count, 2 ≤ way.names.length

section Circles
variable {tree : FileTree} {path : FilePath} (proper : tree.Proper)
include proper

theorem linked_long_iff {here next : FilePath} :
    linked? tree.readLong here = some next ↔
      ∃ text way, tree.Stands here text ∧ wayOf? text = some way ∧ here.beside way = next := by
  unfold linked?
  simp only [Option.bind_eq_some_iff, toOption_eq_some, proper.readLong_ok_iff, Option.map_eq_some_iff]
  constructor
  · rintro ⟨text, stands, way, link, same⟩
    exact ⟨text, way, stands, link, same⟩
  · rintro ⟨text, way, stands, link, same⟩
    exact ⟨text, stands, way, link, same⟩

variable {first second : Nat} (circle : Circle tree path first second)
include circle

/-- Links that have come back go on for ever, and come to the same files with every turn. -/
theorem Circle.turns (count : Nat) :
    Leads tree.readLong path (second + count) ∧
      tree.place (trail tree.readLong path (second + count)) =
        tree.place (trail tree.readLong path (first + count)) ∧
      ∃ text, tree.Stands (trail tree.readLong path (second + count)) text := by
  induction count with
  | zero =>
    obtain ⟨text, there⟩ := circle.there
    exact ⟨circle.leads, circle.back.symm, text, proper.readLong_ok_iff.mp there⟩
  | succ count ih =>
    obtain ⟨leads, same, text, stands⟩ := ih
    have sooner : first + count + 1 ≤ second + count := by
      have apart := circle.apart
      omega
    have link := (leads.of_le sooner).link
    obtain ⟨earlier, way, before, onward, next⟩ := (linked_long_iff proper).mp link
    obtain rfl := stands.text_eq before same
    have turn : linked? tree.readLong (trail tree.readLong path (second + count)) =
        some ((trail tree.readLong path (second + count)).beside way) :=
      (linked_long_iff proper).mpr ⟨text, way, stands, onward, rfl⟩
    have step : trail tree.readLong path (second + (count + 1)) =
        (trail tree.readLong path (second + count)).beside way := by
      rw [← Nat.add_assoc, trail_step, turn]
      rfl
    obtain ⟨placed, reads⟩ := stands.beside_same proper before same way
    rw [next] at placed reads
    refine ⟨fun earlier lower => ?_, ?_, ?_⟩
    · rcases Nat.lt_succ_iff_lt_or_eq.mp lower with less | rfl
      · exact leads earlier less
      · exact Option.isSome_iff_exists.mpr ⟨_, turn⟩
    · rw [step, placed]
      rfl
    · rw [step]
      simp only [reads]
      rcases sooner.lt_or_eq with less | equal
      · obtain ⟨later, _, there, -⟩ := (linked_long_iff proper).mp (leads.of_le less).link
        exact ⟨later, there⟩
      · exact ⟨text, equal ▸ stands⟩

theorem Circle.leads_on (count : Nat) : Leads tree.readLong path count :=
  (circle.turns proper count).1.of_le (Nat.le_add_left count second)

/-- Every path leads to a file that is linked on, along the same way from all paths of the file. -/
theorem Circle.step (count : Nat) : ∃ text way,
    tree.Stands (trail tree.readLong path count) text ∧ wayOf? text = some way ∧
      way? tree.readLong path count = some way ∧
      trail tree.readLong path (count + 1) = (trail tree.readLong path count).beside way := by
  obtain ⟨text, way, stands, onward, next⟩ :=
    (linked_long_iff proper).mp (circle.leads_on proper (count + 1)).link
  refine ⟨text, way, stands, onward, ?_, next.symm⟩
  simp [way?, proper.readLong_ok_iff.mpr stands, Except.toOption, onward]

theorem Circle.way_turn (count : Nat) :
    way? tree.readLong path (second + count) = way? tree.readLong path (first + count) := by
  obtain ⟨text, way, stands, onward, same, -⟩ := circle.step proper (second + count)
  obtain ⟨again, other, also, onwardToo, sameToo, -⟩ := circle.step proper (first + count)
  obtain rfl := stands.text_eq also (circle.turns proper count).2.1
  rw [same, sameToo, ← onward, onwardToo]

/-- All ways are those of the first turn. -/
theorem Circle.early {count : Nat} (late : first ≤ count) : ∃ early, first ≤ early ∧ early < second ∧
    way? tree.readLong path count = way? tree.readLong path early := by
  have apart := circle.apart
  induction count using Nat.strong_induction_on with
  | _ count ih =>
    by_cases sooner : count < second
    · exact ⟨count, late, sooner, rfl⟩
    · obtain ⟨more, rfl⟩ := Nat.exists_eq_add_of_le (Nat.le_of_not_lt sooner)
      obtain ⟨early, low, high, same⟩ := ih (first + more) (by omega) (by omega)
      exact ⟨early, low, high, (circle.way_turn proper more).trans same⟩

/-- A relative way adds its names to the components of the directory. -/
theorem Circle.components_step {count : Nat} {way : FilePath}
    (along : way? tree.readLong path count = some way) (relative : way.isAbsolute = false) :
    let here := (trail tree.readLong path count).components
    way.names ≠ [] ∧ here ≠ [] ∧ (trail tree.readLong path (count + 1)).components =
      here.dropLast ++ ((if here.dropLast = [] then way.anchors else []) ++
        way.names.map Spelling.ofSegment) := by
  obtain ⟨text, _, stands, -, same, next⟩ := circle.step proper count
  obtain rfl := Option.some.inj (along.symm.trans same)
  obtain ⟨later, _, standsNext, -⟩ := circle.step proper (count + 1)
  rw [next] at standsNext ⊢
  obtain ⟨last, whole, -⟩ := stands.components_of_place proper stands rfl
  refine ⟨stands.beside_names proper relative standsNext, ?_, stands.beside_components proper relative⟩
  rw [whole]
  simp

/-- A relative way makes no path shorter, and one that leads out of the directory makes it longer. -/
theorem Circle.grows {count : Nat} {way : FilePath} (along : way? tree.readLong path count = some way)
    (relative : way.isAbsolute = false) :
    (trail tree.readLong path count).components.length ≤
        (trail tree.readLong path (count + 1)).components.length ∧
      (2 ≤ way.names.length → (trail tree.readLong path count).components.length <
        (trail tree.readLong path (count + 1)).components.length) := by
  obtain ⟨named, some, same⟩ := circle.components_step proper along relative
  have one := List.length_pos_iff.mpr named
  have own := List.length_pos_iff.mpr some
  rw [same]
  simp only [List.length_append, List.length_dropLast, List.length_map]
  constructor
  · omega
  · omega

/-- What comes after paths that are spelled the same is spelled the same. -/
theorem Circle.onward_same {one two : Nat} (same : (trail tree.readLong path one).components =
      (trail tree.readLong path two).components) (count : Nat) :
    (trail tree.readLong path (one + count)).components =
      (trail tree.readLong path (two + count)).components := by
  induction count with
  | zero => exact same
  | succ count ih =>
    obtain ⟨text, way, stands, onward, along, next⟩ := circle.step proper (one + count)
    obtain ⟨again, other, also, onwardToo, alongToo, nextToo⟩ := circle.step proper (two + count)
    obtain rfl := stands.text_eq also (place_of_components ih tree)
    obtain rfl := Option.some.inj (onward.symm.trans onwardToo)
    rw [← Nat.add_assoc, ← Nat.add_assoc]
    cases absolute : way.isAbsolute with
    | true => rw [next, nextToo, beside_absolute absolute, beside_absolute absolute]
    | false =>
      obtain ⟨-, -, here⟩ := circle.components_step proper along absolute
      obtain ⟨-, -, there⟩ := circle.components_step proper alongToo absolute
      rw [here, there, ih]

theorem Circle.way_turns {count : Nat} (late : first ≤ count) (turns : Nat) :
    way? tree.readLong path (count + turns * (second - first)) = way? tree.readLong path count := by
  have apart := circle.apart
  induction turns with
  | zero => rw [Nat.zero_mul, Nat.add_zero]
  | succ turns ih =>
    obtain ⟨more, rfl⟩ := Nat.exists_eq_add_of_le late
    have turn := circle.way_turn proper (more + turns * (second - first))
    rw [Nat.succ_mul]
    rw [show first + more + (turns * (second - first) + (second - first)) =
        second + (more + turns * (second - first)) by omega, turn, ← Nat.add_assoc, ih]

section Drift
variable (drifts : Drifts tree path first second)
include drifts

theorem Circle.longer {one two : Nat} (late : first ≤ one) (later : one ≤ two) :
    (trail tree.readLong path one).components.length ≤
      (trail tree.readLong path two).components.length := by
  induction later with
  | refl => exact Nat.le_refl _
  | @step two later ih =>
    obtain ⟨-, way, -, -, along, -⟩ := circle.step proper two
    obtain ⟨early, low, high, same⟩ := circle.early proper (late.trans later)
    exact ih.trans (circle.grows proper along (drifts.1 early low high way (same ▸ along))).1

/-- Some link leads out of its directory in every turn. -/
theorem Circle.leaves : ∃ count, first ≤ count ∧ count < second ∧ ∀ turns,
    (trail tree.readLong path (count + turns * (second - first))).components.length <
      (trail tree.readLong path (count + turns * (second - first) + 1)).components.length := by
  obtain ⟨relative, count, low, high, way, along, leaves⟩ := drifts
  refine ⟨count, low, high, fun turns => ?_⟩
  have again := circle.way_turns proper low turns
  exact (circle.grows proper (again.trans along) (relative count low high way along)).2 leaves

/-- A path that drifts is never spelled the same again. -/
theorem Circle.never_again {one two : Nat} (apart : one < two) :
    (trail tree.readLong path one).components ≠ (trail tree.readLong path two).components := by
  intro same
  obtain ⟨count, low, -, leaves⟩ := circle.leaves proper drifts
  -- A turn late enough is compared with what comes after it in the same distance.
  have turn := circle.apart
  have late : one ≤ count + one * (second - first) :=
    (Nat.le_mul_of_pos_right one (by omega)).trans (Nat.le_add_left _ _)
  obtain ⟨more, whole⟩ := Nat.exists_eq_add_of_le late
  have equal := circle.onward_same proper same more
  have strict := leaves one
  rw [whole] at strict
  have grown : (trail tree.readLong path (one + more + 1)).components.length ≤
      (trail tree.readLong path (two + more)).components.length :=
    circle.longer proper drifts (by omega) (by omega)
  rw [← equal] at grown
  omega

end Drift

section Stay
variable (relative : ∀ count, first ≤ count → count < second → ∀ way ∈ way? tree.readLong path count,
    way.isAbsolute = false ∧ way.names.length ≤ 1)
include relative

/-- Where no link leads out of its directory, the directory stays as it has been spelled. -/
theorem Circle.directory_stays {count : Nat} (late : first ≤ count)
    (housed : (trail tree.readLong path count).components.dropLast ≠ []) (more : Nat) :
    (trail tree.readLong path (count + more)).components.dropLast =
      (trail tree.readLong path count).components.dropLast := by
  induction more with
  | zero => rfl
  | succ more ih =>
    obtain ⟨-, way, -, -, along, -⟩ := circle.step proper (count + more)
    obtain ⟨early, low, high, same⟩ := circle.early proper (late.trans (Nat.le_add_right count more))
    obtain ⟨plain, one⟩ := relative early low high way (same ▸ along)
    obtain ⟨named, -, next⟩ := circle.components_step proper along plain
    obtain ⟨name, only⟩ : ∃ name, way.names = [name] :=
      List.length_eq_one_iff.mp (Nat.le_antisymm one (List.length_pos_iff.mpr named))
    rw [← Nat.add_assoc, next, ih, if_neg housed, only]
    exact List.dropLast_concat

end Stay

/-- A path that does not drift is spelled the same again after two turns at most. -/
theorem Circle.comes_again (stays : ¬ Drifts tree path first second) :
    ∃ one two, one < two ∧ two ≤ second + (second - first) ∧
      (trail tree.readLong path one).components = (trail tree.readLong path two).components := by
  have turn := circle.apart
  by_cases bound : ∃ count, first ≤ count ∧ count < second ∧ ∃ way ∈ way? tree.readLong path count,
      way.isAbsolute = true
  · obtain ⟨count, low, high, way, along, absolute⟩ := bound
    have again := (circle.way_turns proper low 1).trans along
    rw [Nat.one_mul] at again
    have next : ∀ {count}, way? tree.readLong path count = some way →
        trail tree.readLong path (count + 1) = way := by
      intro count along
      obtain ⟨-, other, -, -, same, next⟩ := circle.step proper count
      obtain rfl := Option.some.inj (along.symm.trans same)
      rw [next, beside_absolute absolute]
    refine ⟨count + 1, count + (second - first) + 1, by omega, by omega, ?_⟩
    rw [next along, next again]
  · have relative : ∀ count, first ≤ count → count < second → ∀ way ∈ way? tree.readLong path count,
        way.isAbsolute = false := by
      intro count low high way along
      exact Bool.eq_false_iff.mpr fun absolute => bound ⟨count, low, high, way, along, absolute⟩
    have short : ∀ count, first ≤ count → count < second → ∀ way ∈ way? tree.readLong path count,
        way.isAbsolute = false ∧ way.names.length ≤ 1 := by
      intro count low high way along
      refine ⟨relative count low high way along, Nat.le_of_not_lt fun leaves => ?_⟩
      exact stays ⟨relative, count, low, high, way, along, leaves⟩
    have spelled : ∀ {one two}, tree.place (trail tree.readLong path one) =
          tree.place (trail tree.readLong path two) →
        (trail tree.readLong path one).components.dropLast =
          (trail tree.readLong path two).components.dropLast →
        (trail tree.readLong path one).components = (trail tree.readLong path two).components := by
      intro one two place directory
      obtain ⟨_, _, stands, -⟩ := circle.step proper one
      obtain ⟨_, _, also, -⟩ := circle.step proper two
      obtain ⟨last, here, there⟩ := stands.components_of_place proper also place
      rw [here, there, directory]
    by_cases housed : (trail tree.readLong path second).components.dropLast = []
    · have first' : (trail tree.readLong path first).components.dropLast = [] := by
        by_contra some
        have kept := circle.directory_stays proper short (Nat.le_refl first) some (second - first)
        rw [Nat.add_sub_cancel' turn.le, housed] at kept
        exact some kept.symm
      exact ⟨first, second, turn, Nat.le_add_right _ _, spelled circle.back (first'.trans housed.symm)⟩
    · have kept := circle.directory_stays proper short turn.le housed (second - first)
      have placed := (circle.turns proper (second - first)).2.1
      rw [Nat.add_sub_cancel' turn.le] at placed
      exact ⟨second, second + (second - first), by omega, Nat.le_refl _, spelled placed.symm kept.symm⟩

end Circles

section Bounds
variable {tree : FileTree} {path : FilePath} (proper : tree.Proper)
include proper

/-- More links than there are files come back to one of them. -/
theorem exists_circle (leads : Leads tree.readLong path (tree.entries.length + 1)) :
    ∃ first second, second ≤ tree.entries.length ∧ Circle tree path first second := by
  have stands : ∀ count ≤ tree.entries.length,
      ∃ text, tree.Stands (trail tree.readLong path count) text := by
    intro count few
    obtain ⟨text, _, stands, -⟩ :=
      (linked_long_iff proper).mp (leads.of_le (Nat.succ_le_succ few)).link
    exact ⟨text, stands⟩
  let place := fun count => tree.place (trail tree.readLong path count)
  have inside : ∀ count ∈ Finset.range (tree.entries.length + 1),
      place count ∈ (tree.entries.map Prod.fst).toFinset := by
    intro count few
    obtain ⟨text, there⟩ := stands count (Nat.le_of_lt_succ (Finset.mem_range.mp few))
    exact List.mem_toFinset.mpr there.listed
  have fewer : (tree.entries.map Prod.fst).toFinset.card < (Finset.range (tree.entries.length + 1)).card := by
    have bound := List.toFinset_card_le (tree.entries.map Prod.fst)
    rw [List.length_map] at bound
    rw [Finset.card_range]
    exact Nat.lt_succ_of_le bound
  obtain ⟨one, oneFew, two, twoFew, differ, same⟩ :=
    Finset.exists_ne_map_eq_of_card_lt_of_maps_to fewer inside
  rw [Finset.mem_range] at oneFew twoFew
  have circle : ∀ {first second}, first < second → second < tree.entries.length + 1 →
      place first = place second → Circle tree path first second := by
    intro first second apart few same
    obtain ⟨text, there⟩ := stands second (Nat.le_of_lt_succ few)
    exact ⟨apart, leads.of_le few.le, same, text, proper.readLong_ok_iff.mpr there⟩
  rcases Nat.lt_or_gt_of_ne differ with less | more
  · exact ⟨one, two, Nat.le_of_lt_succ twoFew, circle less twoFew same⟩
  · exact ⟨two, one, Nat.le_of_lt_succ oneFew, circle more oneFew same.symm⟩

/-- Links that can be read along paths within the limit lead the same way without it. -/
theorem Leads.long {count : Nat} (leads : Leads tree.read path count) :
    Leads tree.readLong path count ∧
      ∀ earlier ≤ count, trail tree.read path earlier = trail tree.readLong path earlier := by
  induction count with
  | zero =>
    refine ⟨nofun, fun earlier none => ?_⟩
    rw [Nat.le_zero.mp none]
    rfl
  | succ count ih =>
    obtain ⟨long, same⟩ := ih (leads.of_le (Nat.le_succ count))
    have link := leads.link
    have further : linked? tree.readLong (trail tree.readLong path count) =
        some (trail tree.read path (count + 1)) := by
      rw [same count (Nat.le_refl count)] at link
      unfold linked? at link ⊢
      obtain ⟨text, got, onward⟩ := Option.bind_eq_some_iff.mp link
      have reads := (proper.read_ok_iff.mp (toOption_eq_some.mp got)).1
      rw [proper.readLong_ok_iff.mpr reads]
      exact onward
    refine ⟨fun earlier lower => ?_, fun earlier few => ?_⟩
    · rcases Nat.lt_succ_iff_lt_or_eq.mp lower with less | rfl
      · exact long earlier less
      · exact Option.isSome_iff_exists.mpr ⟨_, further⟩
    · rcases few.lt_or_eq with less | rfl
      · exact same earlier (Nat.le_of_lt_succ less)
      · have step := @trail_step tree.readLong path count
        rw [step, further]
        rfl

/-- With every turn a path that drifts takes up another component at least. -/
theorem Circle.length_turns {first second : Nat} (circle : Circle tree path first second)
    (drifts : Drifts tree path first second) (turns : Nat) :
    turns < (trail tree.readLong path (first + turns * (second - first))).components.length := by
  have turn := circle.apart
  induction turns with
  | zero =>
    rw [Nat.zero_mul, Nat.add_zero]
    obtain ⟨-, way, -, -, along, -⟩ := circle.step proper first
    have relative := drifts.1 first (Nat.le_refl first) turn way along
    exact List.length_pos_iff.mpr (circle.components_step proper along relative).2.1
  | succ turns ih =>
    obtain ⟨count, low, high, leaves⟩ := circle.leaves proper drifts
    have whole : first + (turns + 1) * (second - first) = second + turns * (second - first) := by
      rw [Nat.succ_mul]
      omega
    have before := circle.longer proper drifts (Nat.le_add_right first (turns * (second - first)))
      (Nat.add_le_add_right low _)
    have after := circle.longer proper drifts
      (show first ≤ count + turns * (second - first) + 1 by omega)
      (show count + turns * (second - first) + 1 ≤ second + turns * (second - first) by omega)
    have strict := leaves turns
    rw [whole]
    omega

/-- Loading never runs out of links. -/
theorem stops_within (path : FilePath) : Stops tree.read [] path (linkLimit tree) := by
  by_contra endless
  obtain ⟨leads, fresh⟩ := leads_of_endless endless
  obtain ⟨long, same⟩ := leads.long proper
  have files : tree.entries.length + 1 ≤ linkLimit tree := Nat.le_mul_of_pos_left _ (Nat.succ_pos pathLimit)
  have twice : 2 * tree.entries.length < linkLimit tree := by
    unfold linkLimit pathLimit
    omega
  obtain ⟨first, second, few, circle⟩ := exists_circle proper (long.of_le files)
  by_cases drifts : Drifts tree path first second
  · have turn := circle.apart
    have within : first + (pathLimit + 1) * (second - first) < linkLimit tree :=
      calc first + (pathLimit + 1) * (second - first)
          = pathLimit * (second - first) + second := by
            rw [Nat.succ_mul]
            omega
        _ ≤ pathLimit * tree.entries.length + tree.entries.length :=
          Nat.add_le_add (Nat.mul_le_mul_left _ ((Nat.sub_le _ _).trans few)) few
        _ = (pathLimit + 1) * tree.entries.length := (Nat.succ_mul _ _).symm
        _ < linkLimit tree := Nat.mul_lt_mul_of_pos_left (Nat.lt_succ_self _) (Nat.succ_pos _)
    have long := circle.length_turns proper drifts (pathLimit + 1)
    obtain ⟨next, link⟩ := Option.isSome_iff_exists.mp (leads _ within)
    obtain ⟨text, got, -⟩ := Option.bind_eq_some_iff.mp link
    have short := (proper.read_ok_iff.mp (toOption_eq_some.mp got)).2
    rw [same _ within.le] at short
    have bound := length_components_le
      (trail tree.readLong path (first + (pathLimit + 1) * (second - first)))
    omega
  · obtain ⟨one, two, apart, bound, equal⟩ := circle.comes_again proper drifts
    have late : two < linkLimit tree := by omega
    refine fresh two late (.inr ⟨one, apart, ?_⟩)
    rw [same one (apart.trans late).le, same two late.le, equal]

/-- Where links come back to a file, loading fails: a path comes back, or it has become too long. -/
theorem Circle.loaded {first second : Nat} (circle : Circle tree path first second) :
    load tree path = .error (.file .nameTooLong) ∨
      ∃ count, Leads tree.read path count ∧ Again tree.read [] path count ∧
        load tree path = .error (.manifest (trail tree.read path count) .cycle) := by
  have loads := (load_eq_iff (stops_within proper path) _).mp rfl
  obtain ⟨count, leads, -, ⟨again, cycle⟩ | ⟨-, none, -, faults⟩⟩ := loads.ends
  · exact .inr ⟨count, leads, again, cycle⟩
  · refine .inl (faults _ ?_)
    obtain ⟨text, way, stands, onward, -⟩ := circle.step proper count
    rw [(leads.long proper).2 count (Nat.le_refl count)] at none ⊢
    have reads := read_eq tree (trail tree.readLong path count)
    split at reads
    · exact reads
    · rw [proper.readLong_ok_iff.mpr stands] at reads
      simp [linked?_eq_some reads, onward] at none

/-- Links along which a path drifts are followed without an end. -/
theorem Circle.endless {first second : Nat} (circle : Circle tree path first second)
    (drifts : Drifts tree path first second) :
    (∀ result, ¬ Loads tree.readLong [] path result) ∧ load tree path = .error (.file .nameTooLong) := by
  have new : ∀ count, ¬ Again tree.readLong [] path count := by
    rintro count (none | ⟨earlier, lower, same⟩)
    · cases none
    · exact circle.never_again proper drifts lower same
  constructor
  · intro result loads
    obtain ⟨links, count, -, leads, again | none⟩ := exists_loads_iff.mp ⟨result, loads⟩
    · exact new count again
    · obtain ⟨next, link⟩ := Option.isSome_iff_exists.mp (circle.leads_on proper (count + 1) count (by omega))
      cases none.symm.trans link
  · rcases circle.loaded proper with long | ⟨count, leads, again, -⟩
    · exact long
    · refine absurd ?_ (new count)
      have same := (leads.long proper).2
      obtain none | ⟨earlier, lower, equal⟩ := again
      · cases none
      · exact .inr ⟨earlier, lower, by rw [← same earlier lower.le, ← same count (Nat.le_refl count), equal]⟩

end Bounds

/-- A manifest that is linked to itself. -/
theorem circle_of_self {tree : FileTree} {path way : FilePath} {text : String}
    (got : tree.readLong path = .ok text) (onward : wayOf? text = some way)
    (also : tree.readLong (path.beside way) = .ok text) (same : tree.place path = tree.place (path.beside way)) :
    Circle tree path 0 1 ∧ way? tree.readLong path 0 = some way := by
  have link : linked? tree.readLong path = some (path.beside way) := by simp [linked?_eq_some got, onward]
  have next : trail tree.readLong path 1 = path.beside way := trail_succ link 0
  refine ⟨⟨Nat.one_pos, ?_, ?_, text, next ▸ also⟩, ?_⟩
  · intro earlier few
    obtain rfl := Nat.lt_one_iff.mp few
    exact Option.isSome_iff_exists.mpr ⟨_, link⟩
  · rw [next]
    exact same
  · simp [way?, trail, got, Except.toOption, onward]

/-- The text of a manifest of pairs over a base that it is linked to. -/
def pairedText (base : String) : String :=
  "class_name = \"Pairs\"\nouter = \"OneToOne\"\n\n[pairing]\nbase_manifest = \"" ++ base ++
    "\"\nreserved_key = \"key\"\n"

end CompositeKeys.Generation.Manifest
