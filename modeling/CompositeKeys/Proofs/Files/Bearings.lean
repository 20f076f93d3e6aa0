import CompositeKeys.Proofs.Files.Paths
import Mathlib.Data.List.Induction

/-! Where paths lead by their spelling alone, from wherever they are read. A step up takes back the last name
that is still there. Ahead of all names it leads out of the directory in which the path is read, and nowhere
at the root. -/

namespace CompositeKeys.Files

/-- The way that is left of a path: steps up, and names after them. -/
structure Bearing where
  absolute : Bool
  ups : Nat := 0
  names : List String := []
  deriving DecidableEq, Repr

namespace Bearing

/-- Where a path leads that takes no step. -/
def here : Bearing := { absolute := false }

def step (bearing : Bearing) (next : String) : Bearing :=
  if next = "." then bearing
  else if next ≠ ".." then { bearing with names := bearing.names ++ [next] }
  else if bearing.names ≠ [] then { bearing with names := bearing.names.dropLast }
  else if bearing.absolute then bearing
  else { bearing with ups := bearing.ups + 1 }

def along (bearing : Bearing) (steps : List String) : Bearing := steps.foldl step bearing

/-- What comes of a way that is taken after another one. -/
def after (bearing way : Bearing) : Bearing :=
  { absolute := bearing.absolute
    ups := bearing.ups + if bearing.absolute then 0 else way.ups - bearing.names.length
    names := bearing.names.take (bearing.names.length - way.ups) ++ way.names }

/-- Where a bearing leads when it is taken in a directory. -/
def placeFrom (bearing : Bearing) (directory : Place) : Place :=
  if bearing.absolute then bearing.names
  else directory.take (directory.length - bearing.ups) ++ bearing.names

/-- Whether a bearing leads to what another one leads to, or to something in there. -/
structure Under (bearing base : Bearing) : Prop where
  absolute : bearing.absolute = base.absolute
  ups : bearing.ups ≤ base.ups
  level : base.names = [] ∨ bearing.ups = base.ups
  names : base.names <+: bearing.names

instance (bearing base : Bearing) : Decidable (bearing.Under base) :=
  decidable_of_iff (bearing.absolute = base.absolute ∧ bearing.ups ≤ base.ups ∧
      (base.names = [] ∨ bearing.ups = base.ups) ∧ base.names <+: bearing.names)
    ⟨fun ⟨absolute, ups, level, names⟩ => ⟨absolute, ups, level, names⟩,
      fun ⟨absolute, ups, level, names⟩ => ⟨absolute, ups, level, names⟩⟩

section Steps
variable (bearing : Bearing)

theorem along_append (first last : List String) :
    bearing.along (first ++ last) = (bearing.along first).along last := List.foldl_append

theorem step_name {name : String} (here : name ≠ ".") (up : name ≠ "..") :
    bearing.step name = { bearing with names := bearing.names ++ [name] } := by
  simp [step, here, up]

theorem step_up : bearing.step ".." =
    if bearing.names ≠ [] then { bearing with names := bearing.names.dropLast }
    else if bearing.absolute then bearing else { bearing with ups := bearing.ups + 1 } := by
  simp [step]

theorem along_moves (steps : List String) : bearing.along (steps.filter (· ≠ ".")) = bearing.along steps := by
  induction steps generalizing bearing with
  | nil => rfl
  | cons next steps ih =>
    by_cases idle : next = "."
    · subst idle
      exact ih bearing
    · rw [List.filter_cons_of_pos (by simpa using idle)]
      exact ih (bearing.step next)

theorem along_down {names : List String} (moves : "." ∉ names) (down : ".." ∉ names) :
    bearing.along names = { bearing with names := bearing.names ++ names } := by
  induction names generalizing bearing with
  | nil => simp [along]
  | cons name names ih =>
    rw [List.mem_cons, not_or] at moves down
    rw [along, List.foldl_cons, bearing.step_name (Ne.symm moves.1) (Ne.symm down.1)]
    refine (ih _ moves.2 down.2).trans ?_
    rw [List.append_assoc]
    rfl

theorem absolute_along (steps : List String) : (bearing.along steps).absolute = bearing.absolute := by
  induction steps generalizing bearing with
  | nil => rfl
  | cons next steps ih =>
    refine (ih (bearing.step next)).trans ?_
    unfold step
    repeat' split
    all_goals rfl

theorem ups_le_along (steps : List String) : bearing.ups ≤ (bearing.along steps).ups := by
  induction steps generalizing bearing with
  | nil => exact Nat.le_refl _
  | cons next steps ih =>
    refine Nat.le_trans ?_ (ih (bearing.step next))
    unfold step
    repeat' split
    all_goals first | exact Nat.le_refl _ | exact Nat.le_succ _

theorem after_step (way : Bearing) (relative : way.absolute = false) (next : String) :
    (bearing.after way).step next = bearing.after (way.step next) := by
  by_cases idle : next = "."
  · simp [step, idle]
  by_cases down : next ≠ ".."
  · simp [step, idle, down, after]
  obtain rfl : next = ".." := not_not.mp down
  rw [step_up, step_up]
  by_cases named : way.names = []
  · -- The step up goes on into what the way comes after.
    by_cases far : bearing.names.length ≤ way.ups
    · have gone : bearing.names.length - (way.ups + 1) = 0 := by omega
      have spent : bearing.names.length - way.ups = 0 := by omega
      cases absolute : bearing.absolute
      · simp [after, named, relative, gone, spent, absolute]
        omega
      · simp [after, named, relative, gone, spent, absolute]
    · have some : bearing.names.take (bearing.names.length - way.ups) ≠ [] := by
        intro none
        have short := congrArg List.length none
        simp at short
        omega
      have short : way.ups - bearing.names.length = 0 ∧ way.ups + 1 - bearing.names.length = 0 := by omega
      have less : (bearing.names.take (bearing.names.length - way.ups)).dropLast =
          bearing.names.take (bearing.names.length - (way.ups + 1)) := by
        rw [List.dropLast_eq_take, List.length_take, List.take_take]
        exact congrArg (List.take · bearing.names) (by omega)
      simp [after, named, relative, some, short, less]
  · simp [after, named, List.dropLast_append_of_ne_nil]

/-- What steps come to hangs on the way alone that is left of them. -/
theorem along_eq (steps : List String) : bearing.along steps = bearing.after (here.along steps) := by
  induction steps using List.reverseRecOn with
  | nil => simp [along, after, here]
  | append_singleton steps next ih =>
    rw [along_append, along_append, ih]
    exact bearing.after_step _ (absolute_along here steps) next

end Steps

/-- Every step up takes a name back or leaves one out. -/
theorem names_along_le (bearing : Bearing) (steps : List String) :
    (bearing.along steps).names.length + steps.count ".." ≤ bearing.names.length + steps.length := by
  induction steps generalizing bearing with
  | nil => exact Nat.le_refl _
  | cons next steps ih =>
    have rest := ih (bearing.step next)
    have one : (bearing.step next).names.length + [next].count ".." ≤ bearing.names.length + 1 := by
      by_cases up : next = ".."
      · subst up
        rw [step_up]
        split
        · simp
        · split <;> simp
      · unfold step
        simp only [up, ne_eq, not_false_eq_true, if_true]
        split
        · simp [up]
        · simp [up]
    have counted : (next :: steps).count ".." = [next].count ".." + steps.count ".." :=
      @List.count_append _ _ ".." [next] steps
    rw [along, List.foldl_cons, counted, List.length_cons]
    rw [along] at rest
    omega

theorem along_ups (bearing : Bearing) (count : Nat) : bearing.along (List.replicate count "..") =
    bearing.after { absolute := false, ups := count } := by
  have up : here.along (List.replicate count "..") = { absolute := false, ups := count } := by
    induction count with
    | zero => rfl
    | succ count ih =>
      rw [List.replicate_succ', along_append, ih]
      rfl
  rw [along_eq, up]

/-- Steps up undo as many other ones exactly where those only go down, or where there is nothing above. -/
theorem along_back_iff {bearing : Bearing} {steps : List String} (moves : "." ∉ steps) :
    (bearing.along steps).along (List.replicate steps.length "..") = bearing ↔
      ".." ∉ steps ∨ bearing.absolute = true ∧ bearing.names = [] := by
  have bound := names_along_le bearing steps
  rw [along_ups]
  constructor
  · intro back
    by_contra other
    rw [not_or, not_not, not_and] at other
    have climbs : 0 < steps.count ".." := List.count_pos_iff.mpr other.1
    have length := congrArg (fun bearing => bearing.names.length) back
    have ups := congrArg Bearing.ups back
    have above := bearing.ups_le_along steps
    simp only [after, absolute_along, List.append_nil, List.length_take] at length ups
    cases absolute : bearing.absolute with
    | true =>
      have named : 0 < bearing.names.length := List.length_pos_iff.mpr (other.2 absolute)
      omega
    | false =>
      rw [absolute, if_neg Bool.false_ne_true] at ups
      omega
  · rintro (down | ⟨absolute, none⟩)
    · rw [along_down _ moves down]
      simp [after]
    · have few : (bearing.along steps).names.length ≤ steps.length := by
        rw [none, List.length_nil, Nat.zero_add] at bound
        exact Nat.le_trans (Nat.le_add_right _ _) bound
      have same : (bearing.along steps).ups = bearing.ups ∧ (bearing.along steps).absolute = true := by
        rw [along_eq, after, absolute]
        exact ⟨rfl, rfl⟩
      rw [after, same.1, same.2, Nat.sub_eq_zero_of_le few]
      cases bearing
      cases absolute
      cases none
      rfl

/-- A way ends under the bearing that it is taken from if it comes back into whatever it steps out of. -/
def Returns (way base : Bearing) : Prop :=
  (base.absolute = true ∨ way.ups ≤ base.names.length) ∧
    base.names.drop (base.names.length - way.ups) <+: way.names

instance (way base : Bearing) : Decidable (way.Returns base) :=
  inferInstanceAs (Decidable (_ ∧ _))

theorem after_level_iff {base way : Bearing} :
    (base.after way).ups = base.ups ↔ base.absolute = true ∨ way.ups ≤ base.names.length := by
  cases absolute : base.absolute <;> simp [after, absolute, Nat.sub_eq_zero_iff_le]

theorem after_under_iff {base way : Bearing} : (base.after way).Under base ↔ way.Returns base := by
  have parts : base.names <+: (base.after way).names ↔
      base.names.drop (base.names.length - way.ups) <+: way.names := by
    conv_lhs => lhs; rw [← List.take_append_drop (base.names.length - way.ups) base.names]
    exact List.prefix_append_right_inj _
  constructor
  · rintro ⟨-, ups, -, names⟩
    exact ⟨after_level_iff.mp (Nat.le_antisymm ups (Nat.le_add_right _ _)), parts.mp names⟩
  · rintro ⟨level, names⟩
    have level := after_level_iff.mpr level
    exact ⟨rfl, Nat.le_of_eq level, .inr level, parts.mpr names⟩

theorem returns_of_level {base way : Bearing} (level : way.ups = 0) : way.Returns base := by
  rw [Returns, level, Nat.sub_zero, List.drop_length]
  exact ⟨.inr (Nat.zero_le _), List.nil_prefix⟩

/-- Directories of which each name repeats tell what is above from what is below. -/
theorem under_of_names {bearing root : Bearing} (absolutes : bearing.absolute = root.absolute)
    (lies : ∀ count name, List.replicate (count - root.ups) name ++ root.names <+:
      List.replicate (count - bearing.ups) name ++ bearing.names) : bearing.Under root := by
  have heads : ∀ {first second : List String} {name}, name :: first <+: second → second.head? = some name := by
    rintro first second name ⟨rest, rfl⟩
    rfl
  rcases Nat.lt_trichotomy bearing.ups root.ups with less | level | more
  · by_cases none : root.names = []
    · exact ⟨absolutes, Nat.le_of_lt less, .inl none, none ▸ List.nil_prefix⟩
    · exfalso
      obtain ⟨first, rest, filled⟩ := List.exists_cons_of_ne_nil none
      obtain ⟨count, apart⟩ : ∃ count, root.ups - bearing.ups = count + 1 :=
        Nat.exists_eq_add_one_of_ne_zero (Nat.sub_ne_zero_of_lt less)
      have starts : ∀ name, name = first := by
        intro name
        have lies := lies root.ups name
        rw [Nat.sub_self, apart, filled] at lies
        exact Option.some.inj (heads lies)
      exact absurd ((starts "a").trans (starts "b").symm) (by decide)
  · have names := lies root.ups ""
    rw [level, Nat.sub_self] at names
    exact ⟨absolutes, Nat.le_of_eq level, .inr level, names⟩
  · exfalso
    obtain ⟨count, apart⟩ : ∃ count, bearing.ups - root.ups = count + 1 :=
      Nat.exists_eq_add_one_of_ne_zero (Nat.sub_ne_zero_of_lt more)
    have starts : ∀ name, bearing.names.head? = some name := by
      intro name
      have lies := lies bearing.ups name
      rw [Nat.sub_self, apart] at lies
      exact heads lies
    exact absurd ((starts "a").symm.trans (starts "b")) (by decide)

end Bearing

namespace FilePath
open FileTree

def bearing (path : FilePath) : Bearing :=
  Bearing.along { absolute := path.isAbsolute } (stepsOf path)

theorem bearing_eq (path : FilePath) :
    path.bearing = Bearing.along { absolute := path.isAbsolute } path.names :=
  (Bearing.along_moves _ _).symm

theorem isAbsolute_join (path : FilePath) {next : FilePath} (relative : next.isAbsolute = false) :
    (path.join next).isAbsolute = path.isAbsolute := by
  by_cases filled : path.text = ""
  · have bare : path.isAbsolute = false := by
      rw [isAbsolute, filled]
      rfl
    rw [bare, join, relative, filled]
    exact relative
  · rw [isAbsolute_eq, anchors_join_filled filled relative, ← isAbsolute_eq]

theorem bearing_join (path : FilePath) {next : FilePath} (relative : next.isAbsolute = false) :
    (path.join next).bearing = path.bearing.along (stepsOf next) := by
  rw [bearing, isAbsolute_join path relative, stepsOf_join relative, Bearing.along_append]
  rfl

theorem bearing_join_eq (path : FilePath) {next : FilePath} (relative : next.isAbsolute = false) :
    (path.join next).bearing = path.bearing.after next.bearing := by
  rw [bearing_join path relative, Bearing.along_eq, next.bearing_eq, relative, Bearing.here, names,
    Bearing.along_moves]

theorem place_eq (tree : FileTree) (path : FilePath) :
    tree.place path = path.bearing.placeFrom tree.workingDirectory := by
  have walked : ∀ place steps, walk place steps =
      (Bearing.along { absolute := true, names := place } steps).names := by
    intro place steps
    induction steps generalizing place with
    | nil => rfl
    | cons next steps ih =>
      have one : Bearing.step { absolute := true, names := place } next =
          { absolute := true, names := hop place next } := by
        unfold Bearing.step hop
        by_cases idle : next = "."
        · simp [idle]
        by_cases up : next = ".."
        · subst up
          cases place <;> simp
        · simp [idle, up]
      rw [walk, List.foldl_cons, Bearing.along, List.foldl_cons, one]
      exact ih _
  rw [FileTree.place, walked, FileTree.start]
  cases absolute : path.isAbsolute with
  | true =>
    rw [bearing, absolute, Bearing.placeFrom, Bearing.absolute_along]
    rfl
  | false =>
    have relative : path.bearing = Bearing.here.along (stepsOf path) := by
      rw [bearing, absolute]
      rfl
    rw [relative, Bearing.placeFrom, Bearing.absolute_along, Bearing.along_eq]
    rfl

theorem ups_of_absolute {path : FilePath} (absolute : path.isAbsolute = true) : path.bearing.ups = 0 := by
  rw [bearing, Bearing.along_eq, absolute]
  rfl

theorem absolute_bearing (path : FilePath) : path.bearing.absolute = path.isAbsolute :=
  Bearing.absolute_along _ _

/-- What lies under a path by the spelling does so in whatever directory both are read. -/
theorem under_iff_places {root path : FilePath} (same : path.isAbsolute = root.isAbsolute) :
    path.bearing.Under root.bearing ↔ ∀ tree : FileTree, tree.place root <+: tree.place path := by
  simp only [place_eq, Bearing.placeFrom, absolute_bearing, same]
  cases absolute : root.isAbsolute with
  | true =>
    have grounded := ups_of_absolute absolute
    have also := ups_of_absolute (same.trans absolute)
    refine ⟨fun under _ => under.names, fun led => ?_⟩
    refine ⟨?_, ?_, ?_, led {}⟩
    · rw [absolute_bearing, absolute_bearing, same]
    · exact Nat.le_of_eq (also.trans grounded.symm)
    · exact .inr (also.trans grounded.symm)
  | false =>
    simp only [Bool.false_eq_true, if_false]
    constructor
    · rintro ⟨-, ups, level | level, names⟩ tree
      · rw [level, List.append_nil]
        exact (List.take_prefix_take_left (by omega)).trans (List.prefix_append _ _)
      · rw [level]
        exact (List.prefix_append_right_inj _).mpr names
    · intro led
      refine Bearing.under_of_names (by rw [absolute_bearing, absolute_bearing, same]) fun count name => ?_
      have lies := led { workingDirectory := List.replicate count name }
      simpa [List.take_replicate, Nat.min_eq_left (Nat.sub_le _ _)] using lies

end FilePath

end CompositeKeys.Files
