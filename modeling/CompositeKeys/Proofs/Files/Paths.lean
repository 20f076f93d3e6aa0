import CompositeKeys.Files.Tree

/-! Where paths lead. The steps of a joined path are those of its parts, so that all paths below a root
start with the same steps; two of them that go down only lead to one place if and only if they are the same
but for their spelling. -/

namespace CompositeKeys.Files

theorem segmentsOf_append (first last : List Char) :
    segmentsOf (first ++ '/' :: last) = segmentsOf first ++ segmentsOf last := by
  induction first with
  | nil => rfl
  | cons letter first ih =>
    rw [List.cons_append, segmentsOf, segmentsOf, ih]
    split
    · rfl
    · cases head : segmentsOf first with
      | nil =>
        exfalso
        cases first with
        | nil => cases head
        | cons next first =>
          rw [segmentsOf] at head
          split at head
          · cases head
          · split at head <;> cases head
      | cons segment segments => rfl

namespace FileTree

/-- Where a step leads that meets no link. -/
def hop (place : Place) (step : String) : Place :=
  if step = "." then place else if step = ".." then place.dropLast else place ++ [step]

def walk (place : Place) (steps : List String) : Place := steps.foldl hop place

/-- Where a path leads that meets no link. -/
def place (tree : FileTree) (path : FilePath) : Place := walk (tree.start path) (stepsOf path)

theorem walk_down {place : Place} {steps : List String} (down : ".." ∉ steps) :
    walk place steps = place ++ steps.filter (· ≠ ".") := by
  induction steps generalizing place with
  | nil => exact (List.append_nil place).symm
  | cons step steps ih =>
    have forth : step ≠ ".." := fun same => down (same ▸ .head _)
    have rest := @ih (hop place step) fun later => down (.tail _ later)
    rw [walk, List.foldl_cons]
    refine rest.trans ?_
    by_cases idle : step = "."
    · simp [hop, idle]
    · simp [hop, idle, forth]

theorem stepsOf_slash {path next joined : FilePath}
    (text : joined.text.toList = path.text.toList ++ '/' :: next.text.toList) :
    stepsOf joined = stepsOf path ++ stepsOf next := by
  unfold stepsOf
  rw [text, segmentsOf_append, List.map_append, List.filter_append]

theorem stepsOf_join {path next : FilePath} (relative : next.isAbsolute = false) :
    stepsOf (path.join next) = stepsOf path ++ stepsOf next := by
  unfold FilePath.join
  rw [relative, Bool.false_or]
  split
  next empty =>
    have none : stepsOf path = [] := by
      rw [stepsOf, of_decide_eq_true empty]
      rfl
    rw [none, List.nil_append]
  split
  next slashed =>
    obtain ⟨start, whole⟩ := List.getLast?_eq_some_iff.mp slashed
    have first : stepsOf path = stepsOf ⟨String.ofList start⟩ ++ stepsOf ⟨""⟩ := by
      refine stepsOf_slash ?_
      rw [whole, String.toList_ofList]
      rfl
    have joined : stepsOf ⟨path.text ++ next.text⟩ = stepsOf ⟨String.ofList start⟩ ++ stepsOf next := by
      refine stepsOf_slash ?_
      rw [String.toList_append, whole, String.toList_ofList, List.append_assoc]
      rfl
    rw [joined, first]
    exact congrArg (· ++ stepsOf next) (List.append_nil _).symm
  · refine stepsOf_slash ?_
    rw [String.toList_append, String.toList_append, List.append_assoc]
    rfl

end FileTree

namespace FilePath
open FileTree

def anchorsOf : List Char → List Component
  | '/' :: _ => [.root]
  | ['.'] => [.here]
  | '.' :: '/' :: _ => [.here]
  | _ => []

/-- The component that a path has in front, if it is not a name. -/
def anchors (path : FilePath) : List Component := anchorsOf path.text.toList

/-- The steps of a path that lead somewhere. -/
def names (path : FilePath) : List String := (stepsOf path).filter (· ≠ ".")

theorem names_eq (path : FilePath) :
    path.names = ((segmentsOf path.text.toList).map String.ofList).filter (! isIdle ·) := by
  unfold names stepsOf
  rw [List.filter_filter]
  refine List.filter_congr fun segment _ => ?_
  simp only [isIdle, ne_eq, decide_not, Bool.not_or]
  exact Bool.and_comm _ _

theorem components_eq (path : FilePath) :
    path.components = path.anchors ++ path.names.map Spelling.ofSegment := by
  rw [names_eq]
  unfold components spelling anchors
  generalize path.text.toList = letters
  unfold Spelling.ofLetters
  split
  · rfl
  · rfl
  · rfl
  next root dot here =>
    have bare : anchorsOf letters = [] := by
      unfold anchorsOf
      split
      next rest => cases root rest rfl
      · cases dot rfl
      next rest => cases here rest rfl
      · rfl
    rw [bare]
    rfl

theorem isAbsolute_eq (path : FilePath) : path.isAbsolute = decide (path.anchors = [.root]) := by
  unfold isAbsolute anchors
  generalize path.text.toList = letters
  unfold anchorsOf
  split
  · rfl
  · rfl
  · rfl
  next root _ _ =>
    cases letters with
    | nil => rfl
    | cons letter rest =>
      refine decide_eq_false fun same => root rest ?_
      rw [Option.some.inj same]

theorem isAbsolute_of_bare {path : FilePath} (bare : path.anchors = []) : path.isAbsolute = false := by
  rw [isAbsolute_eq, bare]
  rfl

theorem anchorsOf_append {letters after : List Char} (some : letters ≠ [])
    (whole : letters = ['.'] → ∃ rest, after = '/' :: rest) :
    anchorsOf (letters ++ after) = anchorsOf letters := by
  rcases letters with _ | ⟨first, _ | ⟨second, letters⟩⟩
  · exact absurd rfl some
  · by_cases root : first = '/'
    · subst root
      rfl
    by_cases dot : first = '.'
    · subst dot
      obtain ⟨rest, rfl⟩ := whole rfl
      rfl
    · simp [anchorsOf, root, dot]
  · by_cases root : first = '/'
    · subst root
      rfl
    by_cases here : first = '.' ∧ second = '/'
    · obtain ⟨rfl, rfl⟩ := here
      rfl
    have none : ∀ rest, anchorsOf (first :: second :: rest) = [] := by
      intro rest
      unfold anchorsOf
      split
      next same => exact absurd (List.cons.inj same).1 root
      next same => cases (List.cons.inj same).2
      next same =>
        obtain ⟨dot, same⟩ := List.cons.inj same
        exact absurd ⟨dot, (List.cons.inj same).1⟩ here
      · rfl
    exact (none (letters ++ after)).trans (none letters).symm

/-- A path that holds something keeps its anchor, whatever relative path comes after it. -/
theorem anchors_join_filled {path next : FilePath} (filled : path.text ≠ "")
    (relative : next.isAbsolute = false) : (path.join next).anchors = path.anchors := by
  have some : path.text.toList ≠ [] := fun none => filled (String.toList_eq_nil_iff.mp none)
  unfold join
  rw [relative, Bool.false_or, if_neg (by simpa using filled)]
  split
  next slashed =>
    rw [anchors, String.toList_append, anchors]
    refine anchorsOf_append some fun dot => ?_
    rw [dot] at slashed
    cases slashed
  · rw [anchors, String.toList_append, String.toList_append, List.append_assoc, anchors]
    exact anchorsOf_append some fun _ => ⟨_, rfl⟩

theorem anchors_join (path : FilePath) {next : FilePath} (bare : next.anchors = []) :
    (path.join next).anchors = path.anchors := by
  have relative := isAbsolute_of_bare bare
  by_cases empty : path.text = ""
  · unfold join
    rw [relative, Bool.false_or, if_pos (decide_eq_true empty), bare, anchors, empty]
    rfl
  · exact anchors_join_filled empty relative

/-- Whether a path only goes down from a root. -/
structure Below (root path : FilePath) : Prop where
  anchors : path.anchors = root.anchors
  steps : ∃ rest, stepsOf path = stepsOf root ++ rest ∧ ".." ∉ rest

/-- Whether a path is not absolute and has no dots among its components. -/
def Plain (path : FilePath) : Prop :=
  path.isAbsolute = false ∧ .here ∉ path.components ∧ .up ∉ path.components

instance (path : FilePath) : Decidable path.Plain :=
  inferInstanceAs (Decidable (path.isAbsolute = false ∧ .here ∉ path.components ∧ .up ∉ path.components))

theorem Plain.anchors {path : FilePath} (plain : path.Plain) : path.anchors = [] := by
  obtain ⟨relative, here, _⟩ := plain
  rw [components_eq] at here
  unfold isAbsolute at relative
  unfold FilePath.anchors at here ⊢
  generalize path.text.toList = letters at relative here ⊢
  unfold anchorsOf at here ⊢
  split at here
  · cases relative
  · exact absurd (.head _) here
  · exact absurd (.head _) here
  · rfl

theorem Plain.down {path : FilePath} (plain : path.Plain) : ".." ∉ stepsOf path := by
  intro member
  have named : ".." ∈ path.names := List.mem_filter.mpr ⟨member, rfl⟩
  refine plain.2.2 ?_
  rw [components_eq]
  exact List.mem_append_right _ (List.mem_map.mpr ⟨_, named, rfl⟩)

theorem below_self (root : FilePath) : root.Below root :=
  ⟨rfl, [], (List.append_nil _).symm, List.not_mem_nil⟩

theorem Below.join {root path next : FilePath} (below : root.Below path) (plain : next.Plain) :
    root.Below (path.join next) := by
  obtain ⟨rest, steps, down⟩ := below.steps
  refine ⟨(anchors_join path plain.anchors).trans below.anchors, rest ++ stepsOf next, ?_, ?_⟩
  · rw [stepsOf_join plain.1, steps, List.append_assoc]
  · rw [List.mem_append]
    exact not_or.mpr ⟨down, plain.down⟩

theorem ofSegment_injective (first second : String)
    (same : Spelling.ofSegment first = Spelling.ofSegment second) : first = second := by
  unfold Spelling.ofSegment at same
  split at same <;> split at same
  next up also => exact up.trans also.symm
  · cases same
  · cases same
  · exact Component.name.inj same

theorem parts_of_components {path other : FilePath} (same : path.components = other.components) :
    path.anchors = other.anchors ∧ path.names = other.names := by
  have front : ∀ path : FilePath,
      path.components.filter (fun component => component = .root ∨ component = .here) = path.anchors := by
    intro path
    have own : path.anchors.filter (fun component => component = .root ∨ component = .here) = path.anchors := by
      unfold anchors anchorsOf
      split <;> rfl
    have none : (path.names.map Spelling.ofSegment).filter
        (fun component => component = .root ∨ component = .here) = [] := by
      rw [List.filter_eq_nil_iff]
      intro component listed
      obtain ⟨name, -, rfl⟩ := List.mem_map.mp listed
      unfold Spelling.ofSegment
      split <;> simp
    rw [components_eq, List.filter_append, own, none, List.append_nil]
  have anchored : path.anchors = other.anchors := by rw [← front, ← front, same]
  rw [components_eq, components_eq, anchored, List.append_cancel_left_eq,
    List.map_inj_right ofSegment_injective] at same
  exact ⟨anchored, same⟩

theorem start_eq {first second : FilePath} (same : first.anchors = second.anchors) (tree : FileTree) :
    tree.start first = tree.start second := by
  unfold FileTree.start
  rw [isAbsolute_eq, isAbsolute_eq, same]

theorem names_join (path : FilePath) {next : FilePath} (relative : next.isAbsolute = false) :
    (path.join next).names = path.names ++ next.names := by
  rw [names, stepsOf_join relative, List.filter_append]
  rfl

theorem place_join (tree : FileTree) (path : FilePath) {next : FilePath} (plain : next.Plain) :
    tree.place (path.join next) = tree.place path ++ next.names := by
  rw [FileTree.place, start_eq (anchors_join path plain.anchors), stepsOf_join plain.1, walk,
    List.foldl_append]
  exact walk_down plain.down

/-- Paths below a root lead to one place if and only if they are the same. -/
theorem Below.place_eq_iff {root first second : FilePath} (below : root.Below first)
    (other : root.Below second) (tree : FileTree) :
    tree.place first = tree.place second ↔ first.same second = true := by
  obtain ⟨rest, steps, down⟩ := below.steps
  obtain ⟨more, also, falls⟩ := other.steps
  have start : tree.start first = tree.start second :=
    start_eq (below.anchors.trans other.anchors.symm) tree
  have placed : ∀ {path rest}, stepsOf path = stepsOf root ++ rest → ".." ∉ rest →
      tree.place path = walk (tree.start path) (stepsOf root) ++ rest.filter (· ≠ ".") := by
    intro path rest steps down
    rw [FileTree.place, steps, walk, List.foldl_append]
    exact walk_down down
  rw [placed steps down, placed also falls, start, List.append_cancel_left_eq]
  unfold same
  rw [decide_eq_true_iff, components_eq, components_eq, below.anchors, other.anchors,
    List.append_cancel_left_eq, List.map_inj_right ofSegment_injective, names, names, steps,
    also, List.filter_append, List.filter_append, List.append_cancel_left_eq]

theorem names_slash (first next : String) :
    names ⟨first ++ "/" ++ next⟩ = names ⟨first⟩ ++ names ⟨next⟩ := by
  have steps : stepsOf ⟨first ++ "/" ++ next⟩ = stepsOf ⟨first⟩ ++ stepsOf ⟨next⟩ := by
    refine stepsOf_slash ?_
    simp
  rw [names, steps, List.filter_append]
  rfl

theorem anchors_slash (first next : String) :
    anchors ⟨first ++ "/" ++ next⟩ = anchors ⟨first ++ "/"⟩ := by
  simp only [anchors, String.toList_append, List.append_assoc]
  cases letters : first.toList with
  | nil => rfl
  | cons letter rest =>
    show anchorsOf (letter :: rest ++ '/' :: next.toList) = anchorsOf (letter :: rest ++ ['/'])
    rw [anchorsOf_append (List.cons_ne_nil _ _) fun _ => ⟨_, rfl⟩,
      anchorsOf_append (List.cons_ne_nil _ _) fun _ => ⟨[], rfl⟩]

theorem same_of_names {first next other : String} (names : names ⟨next⟩ = names ⟨other⟩) :
    same ⟨first ++ "/" ++ next⟩ ⟨first ++ "/" ++ other⟩ = true := by
  unfold same
  rw [decide_eq_true_iff, components_eq, components_eq, anchors_slash, anchors_slash first other,
    names_slash, names_slash, names]

/-- Doubled slashes and single dots between slashes are spelling only. -/
theorem same_respelled (first next : String) :
    same ⟨first ++ "//" ++ next⟩ ⟨first ++ "/" ++ next⟩ = true ∧
      same ⟨first ++ "/./" ++ next⟩ ⟨first ++ "/" ++ next⟩ = true := by
  have doubled := @same_of_names first ("" ++ "/" ++ next) next (names_slash "" next)
  have dotted := @same_of_names first ("." ++ "/" ++ next) next (names_slash "." next)
  simp only [String.append_assoc] at doubled dotted ⊢
  exact ⟨doubled, dotted⟩

end FilePath

end CompositeKeys.Files
