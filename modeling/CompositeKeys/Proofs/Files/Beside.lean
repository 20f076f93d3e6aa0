import CompositeKeys.Proofs.Files.Changes
import CompositeKeys.Proofs.Files.Spelling
import Mathlib.Data.String.Basic

/-! What is read beside a file. In a tree without links it hangs on nothing but the place of the file and
the way from there, however the path of the file is spelled. -/

namespace CompositeKeys.Files

/-- The path of what lies beside a file, by the way from its directory. -/
def FilePath.beside (path way : FilePath) : FilePath := (path.parent?.getD ⟨""⟩).join way

theorem FilePath.beside_absolute {path way : FilePath} (absolute : way.isAbsolute = true) :
    path.beside way = way := by
  unfold beside join
  rw [absolute]
  rfl

namespace FileTree
open FilePath

/-- What a path of any length leads to. -/
def findLong (tree : FileTree) (path : FilePath) : Except FileError (Place × Entry) := do
  if path.text.toList.contains '\x00' then throw .nulInPath
  if path.text = "" then throw .notFound
  let steps := stepsOf path ++ if endsInSlash path then ["."] else []
  match ← tree.resolve (linkLimit + 1) (tree.start path) steps with
  | (_, none) => throw .notFound
  | (place, some entry) => return (place, entry)

/-- Reads a file by a path of any length. -/
def readLong (tree : FileTree) (path : FilePath) : Except FileError String := do
  match ← tree.findLong path with
  | (_, .file text) => return text
  | _ => throw .isDirectory

/-- Paths are read as far as they go, up to the limit. -/
theorem read_eq (tree : FileTree) (path : FilePath) :
    tree.read path =
      if '\x00' ∉ path.text.toList ∧ path.text ≠ "" ∧ pathLimit < path.text.utf8ByteSize then
        .error .nameTooLong
      else tree.readLong path := by
  unfold read readLong find findLong checkPath
  by_cases nul : '\x00' ∈ path.text.toList
  · simp [nul]
    rfl
  by_cases empty : path.text = ""
  · simp [empty]
    rfl
  by_cases long : pathLimit < path.text.utf8ByteSize
  · simp [nul, empty, long]
    rfl
  · simp [nul, empty, long]
    rfl

/-- A tree without links in which whatever there is lies in a directory. -/
structure Proper (tree : FileTree) : Prop where
  linkless : tree.Linkless
  housed : ∀ place entry, tree.entry? place = some entry → tree.entry? place.dropLast = some .directory
  based : tree.entry? tree.workingDirectory = some .directory

/-- Whether the entries of a tree are proper ones. -/
def isProper (tree : FileTree) : Bool :=
  tree.isDirectoryAt tree.workingDirectory && tree.entries.all fun row =>
    match row.2 with
    | .link _ => false
    | .directory | .file _ => tree.isDirectoryAt row.1.dropLast

theorem proper_of_isProper {tree : FileTree} (each : tree.isProper = true) : tree.Proper := by
  rw [isProper, Bool.and_eq_true, List.all_eq_true] at each
  obtain ⟨base, rows⟩ := each
  have listed : ∀ place entry, tree.entry? place = some entry → place = [] ∨ (place, entry) ∈ tree.entries := by
    intro place entry there
    unfold entry? at there
    split at there
    next root => exact .inl root
    · obtain ⟨before, after, whole, -⟩ := List.lookup_eq_some_iff.mp there
      exact .inr (by rw [whole]; simp)
  refine ⟨fun place target linked => ?_, fun place entry there => ?_, of_decide_eq_true base⟩
  · rcases listed place _ linked with rfl | row
    · cases linked
    · cases rows _ row
  · rcases listed place entry there with rfl | row
    · rfl
    · have housed := rows _ row
      cases entry with
      | link target => cases housed
      | directory => exact of_decide_eq_true housed
      | file text => exact of_decide_eq_true housed

/-- A file with a text stands at a path, which may have any length. -/
structure Stands (tree : FileTree) (path : FilePath) (text : String) : Prop where
  sound : '\x00' ∉ path.text.toList
  closed : endsInSlash path = false
  led : tree.stride (tree.start path) (stepsOf path) = .ok (.entry (tree.place path) (.file text))

theorem Stands.steps {tree : FileTree} {path : FilePath} {text : String} (stands : tree.Stands path text) :
    stepsOf path ≠ [] := by
  intro none
  have led := stands.led
  rw [none] at led
  injection led with led
  injection led with _ kind
  cases kind

theorem Stands.entry {tree : FileTree} {path : FilePath} {text : String} (stands : tree.Stands path text) :
    tree.entry? (tree.place path) = some (.file text) :=
  (stride_entry stands.led).2.resolve_right stands.steps

theorem Stands.listed {tree : FileTree} {path : FilePath} {text : String} (stands : tree.Stands path text) :
    tree.place path ∈ tree.entries.map Prod.fst := by
  have there := stands.entry
  unfold entry? at there
  split at there
  · cases there
  · obtain ⟨before, after, whole, -⟩ := List.lookup_eq_some_iff.mp there
    rw [whole]
    simp

/-- A file has one text, whatever path it is read by. -/
theorem Stands.text_eq {tree : FileTree} {path other : FilePath} {text again : String}
    (stands : tree.Stands path text) (also : tree.Stands other again)
    (same : tree.place path = tree.place other) : text = again := by
  have one := stands.entry
  rw [same, also.entry] at one
  injection one with one
  injection one with one
  exact one.symm

section Steps
variable {tree : FileTree} {place goal : Place} {steps rest : List String}

theorem stride_split {entry : Entry} (more : rest ≠ [])
    (led : tree.stride place (steps ++ rest) = .ok (.entry goal entry)) :
    ∃ middle, tree.stride place steps = .ok (.entry middle .directory) ∧
      tree.stride middle rest = .ok (.entry goal entry) := by
  induction steps generalizing place with
  | nil => exact ⟨place, rfl, led⟩
  | cons step steps ih =>
    rw [List.cons_append, stride_cons] at led
    rw [stride_cons]
    split at led
    · cases led
    next short =>
    rw [if_neg short]
    split at led
    · split at led <;> cases led
    · exact ih led
    · split at led
      next none => exact absurd (List.append_eq_nil_iff.mp none).2 more
      · cases led
    · cases led

theorem stride_dots (dir : tree.entry? place = some .directory) (dots : ∀ step ∈ steps, step = ".") :
    tree.stride place steps = .ok (.entry place .directory) := by
  induction steps with
  | nil => rfl
  | cons step steps ih =>
    rw [List.forall_mem_cons] at dots
    obtain ⟨rfl, rest⟩ := dots
    rw [stride_cons, show hop place "." = place from rfl, dir]
    exact ih rest

theorem directory_of_stride (dir : tree.entry? place = some .directory)
    (led : tree.stride place steps = .ok (.entry goal .directory)) : tree.entry? goal = some .directory := by
  rcases (stride_entry led).2 with there | none
  · exact there
  · rw [none] at led
    cases led
    exact dir

variable (proper : tree.Proper)
include proper

theorem Proper.start (path : FilePath) : tree.entry? (tree.start path) = some .directory := by
  unfold FileTree.start
  split
  · rfl
  · exact proper.based

/-- Only a step with a name leads to a file. -/
theorem Proper.last {step text : String} (dir : tree.entry? place = some .directory)
    (led : tree.stride place [step] = .ok (.entry goal (.file text))) :
    step ≠ "." ∧ step ≠ ".." ∧ goal = place ++ [step] := by
  obtain ⟨rfl, there | none⟩ := stride_entry led
  · have hopped : walk place [step] = hop place step := rfl
    rw [hopped] at there ⊢
    have here : step ≠ "." := by
      rintro rfl
      cases there.symm.trans dir
    have up : step ≠ ".." := by
      rintro rfl
      cases there.symm.trans (proper.housed _ _ dir)
    exact ⟨here, up, by simp [hop, here, up]⟩
  · cases none

theorem Proper.readLong_ok_iff {path : FilePath} {text : String} :
    tree.readLong path = .ok text ↔ tree.Stands path text := by
  unfold readLong findLong
  constructor
  · intro reads
    obtain ⟨⟨place, entry⟩, found, reads⟩ := bind_eq_ok.mp reads
    obtain ⟨nul, found⟩ := next_of_refused found
    obtain ⟨filled, found⟩ := next_of_refused found
    obtain ⟨⟨goal, stop⟩, resolved, found⟩ := bind_eq_ok.mp found
    obtain ⟨rfl, rfl⟩ : entry = .file text ∧ stop = some (.file text) := by
      cases stop with
      | none => cases found
      | some stop =>
        cases found
        cases entry <;> cases reads
        exact ⟨rfl, rfl⟩
    have led := resolve_linkless proper.linkless resolved
    dsimp only at led
    have closed : endsInSlash path = false := by
      rw [Bool.eq_false_iff]
      intro slash
      rw [slash, if_pos rfl] at led
      obtain ⟨middle, first, last⟩ := stride_split (List.cons_ne_nil _ _) led
      exact (proper.last (directory_of_stride (proper.start path) first) last).1 rfl
    rw [closed, if_neg Bool.false_ne_true, List.append_nil] at led
    obtain ⟨rfl, -⟩ := stride_entry led
    exact ⟨by simpa using nul, closed, led⟩
  · intro stands
    have filled : path.text ≠ "" := by
      intro empty
      exact stands.steps (by rw [stepsOf, empty]; rfl)
    simp only [filled, stands.closed, Bool.false_eq_true, if_false, List.append_nil, resolve, stands.led]
    simp [stands.sound]
    rfl

theorem Proper.read_ok_iff {path : FilePath} {text : String} :
    tree.read path = .ok text ↔ tree.Stands path text ∧ path.text.utf8ByteSize ≤ pathLimit := by
  rw [read_eq, ← proper.readLong_ok_iff]
  by_cases long : pathLimit < path.text.utf8ByteSize
  · constructor
    · intro reads
      split at reads
      · cases reads
      next sound =>
        have stands := proper.readLong_ok_iff.mp reads
        refine absurd ⟨stands.sound, fun empty => stands.steps ?_, long⟩ sound
        rw [stepsOf, empty]
        rfl
    · rintro ⟨-, short⟩
      exact absurd long (Nat.not_lt.mpr short)
  · rw [if_neg fun far => long far.2.2]
    simp [Nat.le_of_not_lt long]

/-- A file has a name and lies in a directory, to which the path of that directory leads. -/
theorem Stands.lodges {path : FilePath} {text : String} (stands : tree.Stands path text) :
    ∃ directory name, path.Lodges directory name ∧ name ≠ "." ∧
      tree.place path = (tree.place path).dropLast ++ [name] ∧
      tree.stride (tree.start path) (stepsOf directory) =
        .ok (.entry (tree.place path).dropLast .directory) := by
  obtain ⟨steps, name, whole⟩ := (List.eq_nil_or_concat' (stepsOf path)).resolve_left stands.steps
  have led := stands.led
  rw [whole] at led
  obtain ⟨middle, first, last⟩ := stride_split (List.cons_ne_nil _ _) led
  obtain ⟨here, up, placed⟩ := proper.last (directory_of_stride (proper.start path) first) last
  obtain ⟨directory, lodges⟩ := exists_lodges stands.closed whole here up
  have parted : (tree.place path).dropLast = middle := by rw [placed, List.dropLast_concat]
  refine ⟨directory, name, lodges, here, by rw [parted, placed], ?_⟩
  -- The steps that the directory leaves out stay where they are.
  obtain ⟨dots, steps', idle⟩ := lodges.steps
  have same : steps = stepsOf directory ++ dots := List.append_inj_left' (whole.symm.trans steps') rfl
  rw [same] at first
  rw [parted]
  by_cases none : dots = []
  · rwa [none, List.append_nil] at first
  · obtain ⟨earlier, led, stay⟩ := stride_split none first
    rw [stride_dots (directory_of_stride (proper.start path) led) idle] at stay
    cases stay
    exact led

end Steps

/-- The letters of a joined path are those of its parts, but for a slash. -/
theorem letters_join (path : FilePath) {next : FilePath} (relative : next.isAbsolute = false) :
    ∃ front, (path.join next).text.toList = front ++ next.text.toList ∧
      ∀ letter ∈ front, letter ∈ path.text.toList ∨ letter = '/' := by
  unfold FilePath.join
  rw [relative, Bool.false_or]
  split
  · exact ⟨[], rfl, nofun⟩
  split
  · exact ⟨path.text.toList, String.toList_append, fun _ listed => .inl listed⟩
  · refine ⟨path.text.toList ++ ['/'], by simp, fun letter listed => ?_⟩
    simpa using listed

section Beside
variable {tree : FileTree} {path way : FilePath} {text : String} (proper : tree.Proper)
  (stands : tree.Stands path text)
include proper stands

/-- What is read beside a file hangs on the place of the file alone. -/
theorem Stands.beside_iff (relative : way.isAbsolute = false) :
    tree.place (path.beside way) = walk (tree.place path).dropLast (stepsOf way) ∧
    ∀ found, tree.Stands (path.beside way) found ↔ '\x00' ∉ way.text.toList ∧ endsInSlash way = false ∧
      tree.stride (tree.place path).dropLast (stepsOf way) =
        .ok (.entry (walk (tree.place path).dropLast (stepsOf way)) (.file found)) := by
  obtain ⟨directory, name, lodges, here, placed, led⟩ := stands.lodges proper
  have joined : path.beside way = directory.join way := by rw [FilePath.beside, lodges.parent]; rfl
  have start : tree.start (path.beside way) = tree.start path := by
    rw [joined]
    by_cases empty : directory.text = ""
    · have bare : path.isAbsolute = false := by
        rw [isAbsolute_eq, ← lodges.anchors, FilePath.anchors, empty]
        rfl
      have only : directory.join way = way := by
        unfold join
        rw [empty, relative]
        rfl
      rw [FileTree.start, FileTree.start, only, relative, bare]
    · exact start_eq ((anchors_join_filled empty relative).trans lodges.anchors) tree
  have steps : stepsOf (path.beside way) = stepsOf directory ++ stepsOf way := by
    rw [joined, stepsOf_join relative]
  have goal : tree.place (path.beside way) = walk (tree.place path).dropLast (stepsOf way) := by
    rw [FileTree.place, start, steps, walk, List.foldl_append, (stride_entry led).1]
    rfl
  have onward : tree.stride (tree.start (path.beside way)) (stepsOf (path.beside way)) =
      tree.stride (tree.place path).dropLast (stepsOf way) := by
    rw [start, steps, stride_append led]
  obtain ⟨front, letters, parts⟩ := letters_join directory relative
  rw [← joined] at letters
  refine ⟨goal, fun found => ⟨?_, ?_⟩⟩
  · rintro ⟨sound, closed, led⟩
    rw [onward, goal] at led
    rw [letters, List.mem_append, not_or] at sound
    refine ⟨sound.2, ?_, led⟩
    unfold endsInSlash at closed ⊢
    rw [letters, List.getLast?_append] at closed
    cases last : way.text.toList.getLast? with
    | none => rfl
    | some letter => simpa [last] using closed
  · rintro ⟨sound, closed, led⟩
    refine ⟨?_, ?_, by rw [onward, goal, led]⟩
    · rw [letters, List.mem_append, not_or]
      refine ⟨fun nul => ?_, sound⟩
      rcases parts _ nul with inside | slash
      · exact stands.sound (lodges.part.subset inside)
      · cases slash
    · have filled : way.text.toList ≠ [] := by
        intro empty
        rw [stepsOf, empty] at led
        cases led
      obtain ⟨letter, last⟩ := List.getLast?_isSome.mpr filled |> Option.isSome_iff_exists.mp
      unfold endsInSlash at closed ⊢
      rw [letters, List.getLast?_append, last]
      simpa [last] using closed

/-- The same is read beside paths of one file. -/
theorem Stands.beside_same {other : FilePath} {again : String} (also : tree.Stands other again)
    (same : tree.place path = tree.place other) (way : FilePath) :
    tree.place (path.beside way) = tree.place (other.beside way) ∧
      ∀ found, tree.Stands (path.beside way) found ↔ tree.Stands (other.beside way) found := by
  cases absolute : way.isAbsolute with
  | true =>
    rw [beside_absolute absolute, beside_absolute absolute]
    exact ⟨rfl, fun _ => Iff.rfl⟩
  | false =>
    obtain ⟨here, reads⟩ := stands.beside_iff proper absolute
    obtain ⟨there, readsToo⟩ := also.beside_iff proper absolute
    exact ⟨by rw [here, there, same], fun found => by rw [reads, readsToo, same]⟩

/-- The components beside a file go on from those of its directory. -/
theorem Stands.beside_components (relative : way.isAbsolute = false) :
    (path.beside way).components = path.components.dropLast ++
      ((if path.components.dropLast = [] then way.anchors else []) ++
        way.names.map Spelling.ofSegment) := by
  obtain ⟨directory, name, lodges, here, -, -⟩ := stands.lodges proper
  have joined : path.beside way = directory.join way := by rw [FilePath.beside, lodges.parent]; rfl
  have parted : path.components.dropLast = directory.components := by
    rw [lodges.components here, List.dropLast_concat]
  rw [joined, parted]
  by_cases empty : directory.text = ""
  · have only : directory.join way = way := by
      unfold join
      rw [empty, relative]
      rfl
    have none : directory.components = [] := by
      rw [components_eq, names, FilePath.anchors, stepsOf, empty]
      rfl
    rw [only, none, if_pos rfl, List.nil_append, ← components_eq]
  · rw [if_neg (mt lodges.bare empty), components_eq, components_eq, anchors_join_filled empty relative,
      names, stepsOf_join relative, List.filter_append, List.map_append, List.nil_append, List.append_assoc]
    rfl

/-- A way to a file has a name. -/
theorem Stands.beside_names {found : String} (relative : way.isAbsolute = false)
    (also : tree.Stands (path.beside way) found) : way.names ≠ [] := by
  obtain ⟨-, -, led⟩ := ((stands.beside_iff proper relative).2 found).mp also
  have dir : tree.entry? (tree.place path).dropLast = some .directory := proper.housed _ _ stands.entry
  have some : stepsOf way ≠ [] := by
    intro none
    rw [none] at led
    cases led
  obtain ⟨steps, last, whole⟩ := (List.eq_nil_or_concat' (stepsOf way)).resolve_left some
  rw [whole] at led
  obtain ⟨middle, first, final⟩ := stride_split (List.cons_ne_nil _ _) led
  have moves := (proper.last (directory_of_stride dir first) final).1
  rw [names, whole, List.filter_append]
  simp [moves]

/-- Paths to one file have the same last component. -/
theorem Stands.components_of_place {other : FilePath} {again : String} (also : tree.Stands other again)
    (same : tree.place path = tree.place other) : ∃ last,
      path.components = path.components.dropLast ++ [last] ∧
      other.components = other.components.dropLast ++ [last] := by
  obtain ⟨directory, name, lodges, here, placed, -⟩ := stands.lodges proper
  obtain ⟨next, last, lodgesToo, hereToo, placedToo, -⟩ := also.lodges proper
  rw [same] at placed
  obtain ⟨-, names⟩ := List.append_inj' (placed.symm.trans placedToo) rfl
  obtain rfl := List.singleton_inj.mp names
  refine ⟨Spelling.ofSegment name, ?_, ?_⟩
  · rw [lodges.components here, List.dropLast_concat]
  · rw [lodgesToo.components here, List.dropLast_concat]

end Beside

end FileTree

theorem length_toList_le (text : String) : text.toList.length ≤ text.utf8ByteSize := by
  have sizes : ∀ letters : List Char, letters.length ≤ String.utf8Len letters := by
    intro letters
    induction letters with
    | nil => exact Nat.le_refl 0
    | cons letter rest ih =>
      have one := letter.utf8Size_pos
      rw [String.utf8Len_cons, List.length_cons]
      omega
  rw [← String.ofList_toList (s := text), String.utf8ByteSize_ofList, String.toList_ofList]
  exact sizes text.toList

namespace FilePath
open FileTree

/-- Paths that are spelled the same lead to the same place. -/
theorem place_of_components {path other : FilePath} (same : path.components = other.components)
    (tree : FileTree) : tree.place path = tree.place other := by
  obtain ⟨anchored, named⟩ := parts_of_components same
  have idle : ∀ place steps, walk place steps = walk place (steps.filter (· ≠ ".")) := by
    intro place steps
    induction steps generalizing place with
    | nil => rfl
    | cons step steps ih =>
      by_cases dot : step = "."
      · subst dot
        exact ih place
      · rw [List.filter_cons_of_pos (by simpa using dot)]
        exact ih (hop place step)
  rw [FileTree.place, FileTree.place, idle, idle _ (stepsOf other), start_eq anchored]
  exact congrArg (walk _) named

theorem length_names_le (path : FilePath) : path.names.length ≤ path.text.utf8ByteSize := by
  have pieces : ∀ letters : List Char,
      ((segmentsOf letters).filter (· ≠ [])).length ≤ letters.length := by
    intro letters
    induction letters with
    | nil => simp [segmentsOf]
    | cons letter rest ih =>
      unfold segmentsOf
      split
      · simpa using ih.trans (Nat.le_succ _)
      · split
        next none => exact absurd none (segmentsOf_ne_nil rest)
        next first others same =>
          rw [same] at ih
          by_cases none : first = []
          · subst none
            simpa using ih
          · simp [none] at ih ⊢
            omega
  have kept : path.names.length ≤ ((segmentsOf path.text.toList).filter (· ≠ [])).length := by
    rw [names_eq, List.filter_map, List.length_map, ← List.countP_eq_length_filter,
      ← List.countP_eq_length_filter]
    refine List.countP_mono_left fun segment _ moves => decide_eq_true ?_
    rintro rfl
    cases moves
  exact (kept.trans (pieces _)).trans (length_toList_le _)

theorem length_components_le (path : FilePath) :
    path.components.length ≤ path.text.utf8ByteSize + 1 := by
  have few : path.anchors.length ≤ 1 := by
    unfold anchors anchorsOf
    split <;> simp
  have names := path.length_names_le
  rw [components_eq, List.length_append, List.length_map]
  omega

end FilePath

end CompositeKeys.Files
