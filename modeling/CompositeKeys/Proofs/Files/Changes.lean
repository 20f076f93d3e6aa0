import CompositeKeys.Proofs.Files.Paths
import CompositeKeys.Proofs.Refusal

/-! What writing does to a tree of files. Directories are created where there has been nothing and files are
put where there is no directory, and all else stays. In a tree without links a file is put at the place that
its path names, and can be read from there until something else is put at that place. -/

namespace CompositeKeys.Files.FileTree

variable {tree middle next : FileTree}

def Linkless (tree : FileTree) : Prop := ∀ place target, tree.entry? place ≠ some (.link target)

theorem lookup_filter_ne {place other : Place} (apart : other ≠ place) (entries : List (Place × Entry)) :
    (entries.filter fun entry => entry.1 ≠ place).lookup other = entries.lookup other := by
  induction entries with
  | nil => rfl
  | cons entry entries ih =>
    obtain ⟨here, value⟩ := entry
    by_cases same : here = place
    · subst same
      have skipped : (other == here) = false := beq_false_of_ne apart
      rw [List.filter_cons_of_neg (by simp), ih, List.lookup_cons, skipped]
    · rw [List.filter_cons_of_pos (by simpa using same), List.lookup_cons, List.lookup_cons, ih]

theorem entry?_put {place : Place} (inside : place ≠ []) (entry : Entry) (other : Place) :
    entry? (tree.put place entry) other = if other = place then some entry else tree.entry? other := by
  unfold entry? put
  by_cases same : other = place
  · subst same
    rw [if_neg inside, if_pos rfl]
    exact List.lookup_cons_self
  · have differ : (other == place) = false := beq_false_of_ne same
    rw [if_neg same, List.lookup_cons, differ, lookup_filter_ne same]

/-- What has been made of a tree, with files put at some places. -/
structure Changes (places : List Place) (tree next : FileTree) : Prop where
  base : next.workingDirectory = tree.workingDirectory
  entries : ∀ place, next.entry? place = tree.entry? place ∨
    (tree.entry? place = none ∧ next.entry? place = some .directory) ∨
    (place ∈ places ∧ tree.entry? place ≠ some .directory ∧ ∃ text, next.entry? place = some (.file text))

theorem Changes.refl (tree : FileTree) : Changes [] tree tree := ⟨rfl, fun _ => .inl rfl⟩

theorem Changes.trans {first second : List Place} (a : Changes first tree middle)
    (b : Changes second middle next) : Changes (first ++ second) tree next := by
  refine ⟨b.base.trans a.base, fun place => ?_⟩
  rcases b.entries place with same | ⟨absent, made⟩ | ⟨member, plain, text, put⟩
  · rw [same]
    exact (a.entries place).imp_right (.imp_right fun ⟨member, rest⟩ => ⟨List.mem_append_left _ member, rest⟩)
  · rcases a.entries place with before | ⟨_, dir⟩ | ⟨_, _, text, file⟩
    · exact .inr (.inl ⟨before.symm.trans absent, made⟩)
    · cases absent.symm.trans dir
    · cases absent.symm.trans file
  · refine .inr (.inr ⟨List.mem_append_right _ member, fun dir => ?_, text, put⟩)
    rcases a.entries place with before | ⟨absent, _⟩ | ⟨_, other, _⟩
    · exact plain (before.trans dir)
    · cases absent.symm.trans dir
    · exact other dir

section Kept

variable {places : List Place} (changes : Changes places tree next)
include changes

theorem Changes.linkless (linkless : tree.Linkless) : next.Linkless := by
  intro place target linked
  rcases changes.entries place with same | ⟨_, made⟩ | ⟨_, _, text, put⟩
  · exact linkless place target (same.symm.trans linked)
  · cases linked.symm.trans made
  · cases linked.symm.trans put

theorem Changes.directory {place : Place} (dir : tree.entry? place = some .directory) :
    next.entry? place = some .directory := by
  rcases changes.entries place with same | ⟨absent, _⟩ | ⟨_, other, _⟩
  · exact same.trans dir
  · cases absent.symm.trans dir
  · exact absurd dir other

theorem Changes.kept {place : Place} {entry : Entry} (apart : place ∉ places)
    (there : tree.entry? place = some entry) : next.entry? place = some entry := by
  rcases changes.entries place with same | ⟨absent, _⟩ | ⟨member, _⟩
  · exact same.trans there
  · cases absent.symm.trans there
  · exact absurd member apart

theorem Changes.start (path : FilePath) : next.start path = tree.start path := by
  rw [FileTree.start, FileTree.start, changes.base]

theorem Changes.place (path : FilePath) : next.place path = tree.place path := by
  rw [FileTree.place, FileTree.place, changes.start]

end Kept

section Stride

variable {place goal : Place} {steps rest : List String}

theorem stride_cons (place : Place) (step : String) (rest : List String) :
    tree.stride place (step :: rest) =
      if nameLimit < step.utf8ByteSize then .error .nameTooLong
      else match tree.entry? (hop place step) with
        | none => if rest = [] then .ok (.missing (hop place step)) else .error .notFound
        | some .directory => tree.stride (hop place step) rest
        | some (.file text) =>
          if rest = [] then .ok (.entry (hop place step) (.file text)) else .error .notDirectory
        | some (.link target) => .ok (.link place ⟨target⟩ rest) := rfl

theorem stride_append (led : tree.stride place steps = .ok (.entry goal .directory)) :
    tree.stride place (steps ++ rest) = tree.stride goal rest := by
  induction steps generalizing place with
  | nil =>
    cases led
    rfl
  | cons step steps ih =>
    rw [stride_cons] at led
    rw [List.cons_append, stride_cons]
    split at led
    · cases led
    next short =>
    rw [if_neg short]
    split at led
    · split at led <;> cases led
    next found => exact ih led
    · split at led <;> cases led
    · cases led

/-- Steps that come to an entry have met no link. -/
theorem stride_entry {entry : Entry} (led : tree.stride place steps = .ok (.entry goal entry)) :
    goal = walk place steps ∧ (tree.entry? goal = some entry ∨ steps = []) := by
  induction steps generalizing place with
  | nil =>
    cases led
    exact ⟨rfl, .inr rfl⟩
  | cons step steps ih =>
    rw [stride_cons] at led
    split at led
    · cases led
    split at led
    · split at led <;> cases led
    next found =>
      obtain ⟨rfl, there⟩ := ih led
      refine ⟨rfl, .inl ?_⟩
      rcases there with there | rfl
      · exact there
      · cases led
        exact found
    next text found =>
      split at led
      next last =>
        cases led
        subst last
        exact ⟨rfl, .inl found⟩
      · cases led
    · cases led

theorem stride_missing (led : tree.stride place steps = .ok (.missing goal)) :
    goal = walk place steps ∧ tree.entry? goal = none := by
  induction steps generalizing place with
  | nil => cases led
  | cons step steps ih =>
    rw [stride_cons] at led
    split at led
    · cases led
    split at led
    next absent =>
      split at led
      next last =>
        cases led
        subst last
        exact ⟨rfl, absent⟩
      · cases led
    · exact ih led
    · split at led <;> cases led
    · cases led

theorem stride_linkless (linkless : tree.Linkless) {directory : Place} {target : FilePath} :
    tree.stride place steps ≠ .ok (.link directory target rest) := by
  induction steps generalizing place with
  | nil => exact nofun
  | cons step steps ih =>
    intro led
    rw [stride_cons] at led
    split at led
    · cases led
    split at led
    · split at led <;> cases led
    · exact ih led
    · split at led <;> cases led
    next target found => exact linkless _ target found

/-- Steps lead where they have led before, whatever a file there holds now. -/
theorem Changes.stride {places : List Place} (changes : Changes places tree next) {entry after : Entry}
    (led : tree.stride place steps = .ok (.entry goal entry))
    (kind : (entry = .directory ∧ after = .directory) ∨
      entry ≠ .directory ∧ next.entry? goal = some after ∧ ∃ text, after = .file text) :
    next.stride place steps = .ok (.entry goal after) := by
  induction steps generalizing place with
  | nil =>
    cases led
    rcases kind with ⟨_, rfl⟩ | ⟨other, _⟩
    · rfl
    · exact absurd rfl other
  | cons step steps ih =>
    rw [stride_cons] at led ⊢
    split at led
    · cases led
    next short =>
    rw [if_neg short]
    split at led
    · split at led <;> cases led
    next found =>
      rw [changes.directory found]
      exact ih led
    next found =>
      split at led
      next last =>
        cases led
        rcases kind with ⟨other, _⟩ | ⟨_, there, text, rfl⟩
        · cases other
        · rw [there]
          exact if_pos last
      · cases led
    · cases led

end Stride

/-- A file with a text lies at a path. -/
structure Lies (tree : FileTree) (path : FilePath) (text : String) : Prop where
  sound : checkPath path = .ok ()
  closed : endsInSlash path = false
  led : tree.stride (tree.start path) (stepsOf path) = .ok (.entry (tree.place path) (.file text))

theorem Lies.entry {path : FilePath} {text : String} (lies : tree.Lies path text) :
    tree.entry? (tree.place path) = some (.file text) := by
  rcases (stride_entry lies.led).2 with there | none
  · exact there
  · have led := lies.led
    rw [none] at led
    injection led with led
    injection led with _ kind
    cases kind

theorem Lies.read {path : FilePath} {text : String} (lies : tree.Lies path text) :
    tree.read path = .ok text := by
  have found : tree.find path = .ok (tree.place path, .file text) := by
    simp only [find, lies.sound, lies.closed, resolve, List.append_nil, Bool.false_eq_true, if_false,
      lies.led]
    rfl
  simp only [FileTree.read, found]
  rfl

section Later

variable {places : List Place} (changes : Changes places tree next) {path : FilePath} {text : String}
  (lies : tree.Lies path text)
include changes lies

theorem Lies.replaced {after : String} (there : next.entry? (tree.place path) = some (.file after)) :
    next.Lies path after := by
  refine ⟨lies.sound, lies.closed, ?_⟩
  rw [changes.start, changes.place]
  exact changes.stride lies.led (.inr ⟨nofun, there, after, rfl⟩)

/-- A file stays that nothing else is put in place of. -/
theorem Lies.stay (apart : tree.place path ∉ places) : next.Lies path text :=
  lies.replaced changes (changes.kept apart lies.entry)

end Later

theorem changes_put {goal : Place} {text : String} (inside : goal ≠ [])
    (plain : tree.entry? goal ≠ some .directory) :
    Changes [goal] tree (tree.put goal (.file text)) := by
  refine ⟨rfl, fun place => ?_⟩
  rw [entry?_put inside]
  by_cases same : place = goal
  · subst same
    rw [if_pos rfl]
    exact .inr (.inr ⟨.head _, plain, text, rfl⟩)
  · rw [if_neg same]
    exact .inl rfl

theorem changes_make {goal : Place} (absent : tree.entry? goal = none) :
    Changes [] tree (tree.put goal .directory) := by
  have inside : goal ≠ [] := by
    rintro rfl
    cases absent
  refine ⟨rfl, fun place => ?_⟩
  rw [entry?_put inside]
  by_cases same : place = goal
  · subst same
    rw [if_pos rfl]
    exact .inr (.inl ⟨absent, rfl⟩)
  · rw [if_neg same]
    exact .inl rfl

section Create

theorem changes_createDirectory {path : FilePath} (made : tree.createDirectory path = .ok next) :
    Changes [] tree next := by
  unfold createDirectory create at made
  obtain ⟨⟨directory, _ | step⟩, _, made⟩ := bind_eq_ok.mp made
  · cases made
  · dsimp only at made
    split at made
    · cases made
    next absent =>
      cases made
      exact changes_make (Option.not_isSome_iff_eq_none.mp absent)

theorem changes_ensureDirectory (tree : FileTree) (path : FilePath) :
    Changes [] tree (tree.ensureDirectory path).1 := by
  unfold ensureDirectory
  split
  next next made => exact changes_createDirectory made
  · exact .refl tree

theorem changes_createDirectories (depth : Nat) (tree : FileTree) (path : FilePath) :
    Changes [] tree (createDirectories depth tree path).1 := by
  induction depth generalizing tree path with
  | zero => exact .refl tree
  | succ depth ih =>
    unfold createDirectories
    split
    · exact .refl tree
    split
    next parent _ _ =>
      have first := ih tree parent
      split
      next made =>
        rw [made] at first
        exact first.trans (changes_ensureDirectory _ path)
      · exact first
    · exact changes_ensureDirectory tree path

/-- Creating directories puts no file anywhere, also where it fails. -/
theorem changes_createAll (tree : FileTree) (path : FilePath) :
    Changes [] tree (tree.createAll path).1 := changes_createDirectories _ tree path

end Create

section Write

theorem approach_ok {path : FilePath} {directory : Place} {step : String}
    (near : tree.approach path = .ok (directory, some step)) :
    checkPath path = .ok () ∧ tree.enter (tree.start path) (stepsOf path).dropLast = .ok directory ∧
      (stepsOf path).getLast? = some step ∧ step ≠ "." ∧ step ≠ ".." ∧ ¬ nameLimit < step.utf8ByteSize := by
  unfold approach at near
  obtain ⟨_, sound, near⟩ := bind_eq_ok.mp near
  obtain ⟨there, entered, near⟩ := bind_eq_ok.mp near
  split at near
  · cases near
  · cases near
  · cases near
  next here up last =>
    dsimp only at near
    split at near
    · cases near
    next short =>
      cases near
      exact ⟨sound, entered, last, here, up, short⟩

theorem target_ok {path : FilePath} {goal : Place} (reached : tree.target path = .ok goal) :
    ∃ directory step found, tree.approach path = .ok (directory, some step) ∧ endsInSlash path = false ∧
      tree.resolve (linkLimit + 1) directory [step] = .ok (goal, found) ∧ found ≠ some .directory := by
  unfold target at reached
  obtain ⟨⟨directory, _ | step⟩, near, reached⟩ := bind_eq_ok.mp reached
  · cases reached
  dsimp only at reached
  split at reached
  · cases reached
  next closed =>
  obtain ⟨⟨there, found⟩, resolved, reached⟩ := bind_eq_ok.mp reached
  split at reached
  · cases reached
  next plain same =>
  cases pure_eq_ok.mp reached
  cases same
  exact ⟨directory, step, found, near, Bool.eq_false_iff.mpr closed, resolved, plain⟩

variable (linkless : tree.Linkless)
include linkless

theorem resolve_linkless {links : Nat} {place goal : Place} {steps : List String} {found : Option Entry}
    (resolved : tree.resolve (links + 1) place steps = .ok (goal, found)) :
    match found with
    | some entry => tree.stride place steps = .ok (.entry goal entry)
    | none => tree.stride place steps = .ok (.missing goal) := by
  rw [resolve] at resolved
  obtain ⟨stop, led, resolved⟩ := bind_eq_ok.mp resolved
  cases stop with
  | entry place entry =>
    cases resolved
    exact led
  | missing place =>
    cases resolved
    exact led
  | link directory target rest => exact absurd led (stride_linkless linkless)

theorem enter_linkless {place goal : Place} {steps : List String}
    (entered : tree.enter place steps = .ok goal) :
    tree.stride place steps = .ok (.entry goal .directory) := by
  unfold enter at entered
  obtain ⟨⟨there, _ | _ | _⟩, resolved, entered⟩ := bind_eq_ok.mp entered
  · cases entered
  · cases entered
    exact resolve_linkless linkless resolved
  · cases entered
  · cases entered

/-- A file is put at the place that its path names. -/
theorem write_ok {path : FilePath} {text : String} (written : tree.write path text = .ok next) :
    Changes [tree.place path] tree next ∧ next.Lies path text := by
  obtain ⟨goal, reached, rfl⟩ := map_eq_ok.mp written
  obtain ⟨directory, step, found, near, closed, resolved, plain⟩ := target_ok reached
  obtain ⟨sound, entered, last, here, up, short⟩ := approach_ok near
  -- The last step is taken apart from the others: it may come to a file, or to nothing yet.
  have led := enter_linkless linkless entered
  have whole : (stepsOf path).dropLast ++ [step] = stepsOf path := List.dropLast_append_getLast? step last
  have there : goal = hop directory step ∧ tree.entry? goal ≠ some .directory := by
    have stepped := resolve_linkless linkless resolved
    cases found with
    | none =>
      obtain ⟨same, absent⟩ := stride_missing stepped
      exact ⟨same, fun dir => nomatch absent.symm.trans dir⟩
    | some entry =>
      obtain ⟨same, there | none⟩ := stride_entry stepped
      · exact ⟨same, fun dir => plain (there.symm.trans dir)⟩
      · cases none
  obtain ⟨rfl, plain⟩ := there
  have placed : tree.place path = hop directory step := by
    rw [FileTree.place, ← whole, walk, List.foldl_append, (stride_entry led).1]
    rfl
  have inside : hop directory step ≠ [] := fun same => plain (by rw [same]; rfl)
  have changes : Changes [hop directory step] tree (tree.put (hop directory step) (.file text)) :=
    changes_put inside plain
  refine ⟨placed ▸ changes, sound, closed, ?_⟩
  rw [changes.place, placed, changes.start, ← whole, stride_append (changes.stride led (.inl ⟨rfl, rfl⟩)),
    stride_cons, if_neg short, entry?_put inside, if_pos rfl]
  rfl

end Write

end CompositeKeys.Files.FileTree
