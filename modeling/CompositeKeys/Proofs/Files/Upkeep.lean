import CompositeKeys.Proofs.Files.Search

/-! What keeps the names in a tree. The steps of a path are steps between slashes, and whatever they lead to has
a name at each of its places; so what is written, or created, leaves each place of the tree with one entry. -/

namespace CompositeKeys.Files.FileTree
open FilePath

/-- Whether a place is told by names. -/
def IsPlace (place : Place) : Prop := ∀ name ∈ place, IsName name

/-- Whether a text can be a step of a path: a name, or one that moves within a directory or out of it. -/
def IsStep (step : String) : Prop := step ≠ "" ∧ '/' ∉ step.toList

theorem isStep_of_mem {path : FilePath} {step : String} (taken : step ∈ stepsOf path) : IsStep step := by
  obtain ⟨among, filled⟩ := List.mem_filter.mp taken
  obtain ⟨letters, segment, rfl⟩ := List.mem_map.mp among
  exact ⟨of_decide_eq_true filled, by simpa using unparted_of_mem segment⟩

section Steps
variable {tree : FileTree} {place goal : Place} {steps : List String}

theorem isPlace_hop {step : String} (placed : IsPlace place) (sound : IsStep step) : IsPlace (hop place step) := by
  unfold hop
  split
  · exact placed
  split
  · exact fun name among => placed name ((List.dropLast_sublist _).subset among)
  next moves climbs =>
    intro name among
    rcases List.mem_append.mp among with among | last
    · exact placed name among
    · rw [List.mem_singleton.mp last]
      exact ⟨by simp [isIdle, sound.1, moves], climbs, sound.2⟩

/-- Whether a stop, and the steps left to take from there, are told by names. -/
def Stop.Placed : Stop → Prop
  | .entry goal _ | .missing goal => IsPlace goal
  | .link directory _ rest => IsPlace directory ∧ ∀ step ∈ rest, IsStep step

theorem stride_placed (placed : IsPlace place) (sound : ∀ step ∈ steps, IsStep step) {stop : Stop}
    (led : tree.stride place steps = .ok stop) : stop.Placed := by
  induction steps generalizing place with
  | nil =>
    cases led
    exact placed
  | cons step steps ih =>
    obtain ⟨first, sound⟩ := List.forall_mem_cons.mp sound
    have next := isPlace_hop placed first
    rw [stride_cons] at led
    split at led
    · cases led
    split at led
    · split at led
      · cases led
        exact next
      · cases led
    · exact ih next sound led
    · split at led
      · cases led
        exact next
      · cases led
    · cases led
      exact ⟨placed, sound⟩

theorem resolve_placed {links : Nat} {found : Option Entry} (placed : IsPlace place)
    (sound : ∀ step ∈ steps, IsStep step) (resolved : tree.resolve links place steps = .ok (goal, found)) :
    IsPlace goal := by
  induction links generalizing place steps with
  | zero => cases resolved
  | succ links ih =>
    obtain ⟨stop, led, resolved⟩ := bind_eq_ok.mp resolved
    have reached := stride_placed placed sound led
    cases stop with
    | entry =>
      cases resolved
      exact reached
    | missing =>
      cases resolved
      exact reached
    | link directory target rest =>
      refine ih ?_ (List.forall_mem_append.mpr ⟨fun step taken => isStep_of_mem taken, reached.2⟩) resolved
      split
      · exact fun name none => absurd none List.not_mem_nil
      · exact reached.1

theorem enter_ok (entered : tree.enter place steps = .ok goal) :
    tree.resolve (linkLimit + 1) place steps = .ok (goal, some .directory) := by
  obtain ⟨⟨there, _ | _ | _⟩, resolved, entered⟩ := bind_eq_ok.mp entered
  · cases entered
  · cases entered
    exact resolved
  · cases entered
  · cases entered

end Steps

theorem Tidy.put {tree : FileTree} (tidy : tree.Tidy) {place : Place} {entry : Entry} (inside : place ≠ [])
    (placed : IsPlace place) : (tree.put place entry).Tidy where
  once := List.pairwise_cons.mpr
    ⟨fun _ kept => (of_decide_eq_true (List.mem_filter.mp kept).2).symm, tidy.once.filter _⟩
  inside := List.forall_mem_cons.mpr ⟨inside, fun row kept => tidy.inside row (List.mem_filter.mp kept).1⟩
  names := List.forall_mem_cons.mpr ⟨placed, fun row kept => tidy.names row (List.mem_filter.mp kept).1⟩

section Upkeep
variable {tree next : FileTree} (named : tree.Named)
include named

theorem Named.isPlace {place : Place} {entry : Entry} (there : tree.entry? place = some entry) : IsPlace place := by
  unfold entry? at there
  split at there
  next root =>
    rw [root]
    exact fun name none => absurd none List.not_mem_nil
  · obtain ⟨before, after, whole, -⟩ := List.lookup_eq_some_iff.mp there
    exact named.names (place, entry) (by rw [whole]; simp)

/-- What is put where there is no directory, at a place that is told by names, keeps the tree. -/
theorem Named.put {place : Place} {entry : Entry} (placed : IsPlace place)
    (plain : tree.entry? place ≠ some .directory) : (tree.put place entry).Named := by
  have inside : place ≠ [] := by
    rintro rfl
    exact plain rfl
  have apart : tree.workingDirectory ≠ place := by
    rintro rfl
    exact plain named.based
  exact ⟨named.toTidy.put inside placed, (entry?_put inside entry _).trans ((if_neg apart).trans named.based)⟩

/-- The directory that a path leads into, and the last step from there. -/
theorem Named.approach {path : FilePath} {directory : Place} {step : String}
    (near : tree.approach path = .ok (directory, some step)) :
    tree.entry? directory = some .directory ∧ IsPlace directory ∧ IsName step := by
  obtain ⟨-, entered, last, here, up, -⟩ := approach_ok near
  have resolved := enter_ok entered
  obtain ⟨filled, unparted⟩ := isStep_of_mem (List.mem_of_getLast? last)
  refine ⟨resolve_entry (named.start path) resolved, ?_, by simp [isIdle, filled, here], up, unparted⟩
  exact resolve_placed (named.isPlace (named.start path))
    (fun step taken => isStep_of_mem ((List.dropLast_sublist _).subset taken)) resolved

theorem Named.write {path : FilePath} {text : String} (written : tree.write path text = .ok next) :
    next.Named := by
  obtain ⟨goal, reached, rfl⟩ := map_eq_ok.mp written
  obtain ⟨directory, step, found, near, -, resolved, plain⟩ := target_ok reached
  obtain ⟨dir, placed, moves, -, unparted⟩ := named.approach near
  have sound : IsStep step := ⟨fun empty => by simp [empty, isIdle] at moves, unparted⟩
  refine named.put (resolve_placed placed (fun other taken => ?_) resolved) fun there => plain ?_
  · rwa [List.mem_singleton.mp taken]
  · rw [← there, resolve_entry dir resolved]

theorem Named.writeIfAble (path : FilePath) (text : String) : ((tree.write path text).toOption.getD tree).Named := by
  cases written : tree.write path text with
  | error error => exact named
  | ok next => exact named.write written

theorem Named.createDirectory {path : FilePath} (made : tree.createDirectory path = .ok next) : next.Named := by
  unfold FileTree.createDirectory create at made
  obtain ⟨⟨directory, _ | step⟩, near, made⟩ := bind_eq_ok.mp made
  · cases made
  · obtain ⟨-, placed, name⟩ := named.approach near
    dsimp only at made
    split at made
    · cases made
    next absent =>
      cases made
      refine named.put (List.forall_mem_append.mpr ⟨placed, fun other last => ?_⟩) fun there => ?_
      · rwa [List.mem_singleton.mp last]
      · exact absent (Option.isSome_of_eq_some there)

theorem Named.ensureDirectory (path : FilePath) : (tree.ensureDirectory path).1.Named := by
  unfold FileTree.ensureDirectory
  split
  next next made => exact named.createDirectory made
  · exact named

theorem Named.createDirectories (depth : Nat) (path : FilePath) :
    (FileTree.createDirectories depth tree path).1.Named := by
  induction depth generalizing path with
  | zero => exact named
  | succ depth ih =>
    unfold FileTree.createDirectories
    split
    · exact named
    split
    next parent _ _ =>
      have first := ih parent
      split
      next made =>
        rw [made] at first
        exact first.ensureDirectory path
      · exact first
    · exact named.ensureDirectory path

theorem Named.createAll (path : FilePath) : (tree.createAll path).1.Named := named.createDirectories _ path

end Upkeep

/-- The first directories on the way to the working directory, which are there before any file. -/
def rooted (directory : Place) (count : Nat) : FileTree :=
  (List.range count).foldl (fun tree length => tree.put (directory.take (length + 1)) .directory)
    { workingDirectory := directory }

theorem rooted_ok {directory : Place} (placed : IsPlace directory) {count : Nat} (within : count ≤ directory.length) :
    (rooted directory count).Tidy ∧ (rooted directory count).workingDirectory = directory ∧
      entry? (rooted directory count) (directory.take count) = some .directory := by
  induction count with
  | zero =>
    exact ⟨⟨.nil, fun row none => absurd none List.not_mem_nil, fun row none => absurd none List.not_mem_nil⟩,
      rfl, rfl⟩
  | succ count ih =>
    obtain ⟨tidy, base, -⟩ := ih (Nat.le_of_succ_le within)
    have inside : directory.take (count + 1) ≠ [] := by
      rw [Ne, List.take_eq_nil_iff]
      rintro (none | empty)
      · cases none
      · simp [empty] at within
    have next : rooted directory (count + 1) =
        (rooted directory count).put (directory.take (count + 1)) .directory := by
      rw [rooted, List.range_succ, List.foldl_concat]
      rfl
    rw [next]
    refine ⟨tidy.put inside fun name among => placed name (List.mem_of_mem_take among), base, ?_⟩
    rw [entry?_put inside, if_pos rfl]

/-- A tree that is made of files has one entry at each of its places. -/
theorem named_ofFiles {directory : Place} (placed : IsPlace directory) (files : List (String × String)) :
    (ofFiles directory files).Named := by
  have start : (rooted directory directory.length).Named := by
    obtain ⟨tidy, base, there⟩ := rooted_ok placed (le_refl _)
    rw [List.take_length] at there
    exact ⟨tidy, by rw [base, there]⟩
  refine List.foldlRecOn files _ start fun tree named file _ => ?_
  rcases file with ⟨name, text⟩
  dsimp only
  split
  · exact named.createAll _
  cases FilePath.parent? ⟨name⟩ with
  | none => exact named.writeIfAble _ _
  | some parent => exact (named.createAll parent).writeIfAble _ _

end CompositeKeys.Files.FileTree
