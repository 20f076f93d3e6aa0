import CompositeKeys.Proofs.Files.Changes
import CompositeKeys.Proofs.Files.Directories

/-! What a search through a directory finds. Each file below the directory has a path that goes on from that of
the directory by names, and no two files have the same path. -/

namespace CompositeKeys.Files

/-- Whether a text can be the name of a file. -/
def IsName (name : String) : Prop := isIdle name = false ∧ name ≠ ".." ∧ '/' ∉ name.toList

instance (name : String) : Decidable (IsName name) := inferInstanceAs (Decidable (_ ∧ _ ∧ _))

namespace FilePath

/-- Names that are added to a path one after another. -/
theorem joined_names {names : List String} (sound : ∀ name ∈ names, IsName name) (path : FilePath) :
    (names.foldl (fun path name => path.join ⟨name⟩) path).anchors = path.anchors ∧
      (names.foldl (fun path name => path.join ⟨name⟩) path).names = path.names ++ names := by
  induction names generalizing path with
  | nil => exact ⟨rfl, (List.append_nil _).symm⟩
  | cons name names ih =>
    obtain ⟨⟨moves, -, unparted⟩, sound⟩ := List.forall_mem_cons.mp sound
    have spelt := spelt_name moves unparted
    have own : [name].filter (!isIdle ·) = [name] := by simp [moves]
    obtain ⟨anchors, named⟩ := ih sound (path.join ⟨name⟩)
    refine ⟨anchors.trans (anchors_join path spelt.anchors), named.trans ?_⟩
    rw [names_join path (isAbsolute_of_bare spelt.anchors), spelt.names, own, List.append_assoc]
    rfl

end FilePath

namespace FileTree
open FilePath

/-- A tree with one entry at each of its places, which are told by names. -/
structure Tidy (tree : FileTree) : Prop where
  once : tree.entries.Pairwise fun first second => first.1 ≠ second.1
  inside : ∀ row ∈ tree.entries, row.1 ≠ []
  names : ∀ row ∈ tree.entries, ∀ name ∈ row.1, IsName name

/-- Such a tree, seen from one of its directories. -/
structure Named (tree : FileTree) : Prop extends Tidy tree where
  based : tree.entry? tree.workingDirectory = some .directory

instance (tree : FileTree) : Decidable tree.Named :=
  decidable_of_iff ((tree.entries.Pairwise fun first second => first.1 ≠ second.1) ∧
      (∀ row ∈ tree.entries, row.1 ≠ []) ∧ (∀ row ∈ tree.entries, ∀ name ∈ row.1, IsName name) ∧
      tree.entry? tree.workingDirectory = some .directory)
    ⟨fun all => ⟨⟨all.1, all.2.1, all.2.2.1⟩, all.2.2.2⟩,
      fun named => ⟨named.once, named.inside, named.names, named.based⟩⟩

section Find
variable {tree : FileTree} {place goal : Place} {steps rest : List String}

/-- Whether a stop is at what there is, if there is anything, or at a link in a directory. -/
def Stop.Sound (tree : FileTree) : Stop → Prop
  | .entry goal found => tree.entry? goal = some found
  | .missing goal => tree.entry? goal = none
  | .link directory _ _ => tree.entry? directory = some .directory

theorem stride_sound (dir : tree.entry? place = some .directory) {stop : Stop}
    (led : tree.stride place steps = .ok stop) : stop.Sound tree := by
  induction steps generalizing place with
  | nil =>
    cases led
    exact dir
  | cons step steps ih =>
    rw [stride_cons] at led
    split at led
    · cases led
    split at led
    next none =>
      split at led
      · cases led
        exact none
      · cases led
    next there => exact ih there led
    next there =>
      split at led
      · cases led
        exact there
      · cases led
    · cases led
      exact dir

/-- Steps come to what there is at their place. -/
theorem resolve_entry {links : Nat} {found : Option Entry} (dir : tree.entry? place = some .directory)
    (resolved : tree.resolve links place steps = .ok (goal, found)) : tree.entry? goal = found := by
  induction links generalizing place steps with
  | zero => cases resolved
  | succ links ih =>
    obtain ⟨stop, led, resolved⟩ := bind_eq_ok.mp resolved
    have sound := stride_sound dir led
    cases stop with
    | entry =>
      cases resolved
      exact sound
    | missing =>
      cases resolved
      exact sound
    | link directory target rest =>
      refine ih ?_ resolved
      split
      · rfl
      · exact sound

variable (named : tree.Named)
include named

theorem Named.start (path : FilePath) : tree.entry? (tree.start path) = some .directory := by
  unfold FileTree.start
  split
  · rfl
  · exact named.based

theorem Named.find_entry {path : FilePath} {entry : Entry} (found : tree.find path = .ok (goal, entry)) :
    tree.entry? goal = some entry := by
  obtain ⟨⟨⟩, -, found⟩ := bind_eq_ok.mp found
  obtain ⟨⟨there, stop⟩, resolved, found⟩ := bind_eq_ok.mp found
  cases stop with
  | none => cases found
  | some stop =>
    cases found
    exact resolve_entry (named.start path) resolved

theorem Named.entry_of_mem {entry : Entry} (listed : (place, entry) ∈ tree.entries) :
    tree.entry? place = some entry := by
  unfold entry?
  rw [if_neg (named.inside _ listed)]
  obtain ⟨before, after, whole⟩ := List.append_of_mem listed
  refine List.lookup_eq_some_iff.mpr ⟨before, after, whole, fun row earlier => ?_⟩
  have once := named.once
  rw [whole] at once
  have apart := (List.pairwise_append.mp once).2.2 row earlier (place, entry) List.mem_cons_self
  simpa using Ne.symm apart

end Find

/-- A file that a search below a path has found. -/
structure Found (path file : FilePath) : Prop where
  anchors : file.anchors = path.anchors
  below : ∃ names, names ≠ [] ∧ (∀ name ∈ names, IsName name) ∧ file.names = path.names ++ names

theorem below_eq_some {directory place names : Place} :
    below? directory place = some names ↔ place = directory ++ names := by
  unfold below?
  constructor
  · intro found
    split at found
    next starts =>
      cases found
      obtain ⟨rest, rfl⟩ := List.isPrefixOf_iff_prefix.mp starts
      rw [List.drop_left]
    · cases found
  · rintro rfl
    rw [if_pos (List.isPrefixOf_iff_prefix.mpr (List.prefix_append _ _)), List.drop_left]

/-- The path of a file below a directory. -/
def pathBelow? (path : FilePath) (directory : Place) (row : Place × Entry) : Option FilePath :=
  match row.2 with
  | .file _ => (below? directory row.1).map fun names => names.foldl (fun path name => path.join ⟨name⟩) path
  | _ => none

section Below
variable {tree : FileTree} (named : tree.Named) {path file : FilePath} {directory : Place} {row : Place × Entry}
include named

/-- A file has another place than a directory, and so there are names between them. -/
theorem Named.pathBelow (dir : tree.entry? directory = some .directory) (listed : row ∈ tree.entries)
    (below : pathBelow? path directory row = some file) :
    file.anchors = path.anchors ∧ ∃ names, names ≠ [] ∧ (∀ name ∈ names, IsName name) ∧
      file.names = path.names ++ names ∧ row.1 = directory ++ names := by
  rcases row with ⟨place, entry⟩
  unfold pathBelow? at below
  split at below
  next text kind =>
    obtain rfl : entry = .file text := kind
    obtain ⟨names, within, rfl⟩ := Option.map_eq_some_iff.mp below
    obtain rfl : place = directory ++ names := below_eq_some.mp within
    have sound : ∀ name ∈ names, IsName name := fun name among =>
      named.names _ listed name (List.mem_append_right _ among)
    obtain ⟨anchors, joined⟩ := joined_names sound path
    refine ⟨anchors, names, ?_, sound, joined, rfl⟩
    rintro rfl
    rw [List.append_nil] at listed
    cases dir.symm.trans (named.entry_of_mem listed)
  · cases below

theorem Named.filesUnder (there : tree.hasDirectory path = true) :
    ∃ files, tree.filesUnder path = .ok files ∧ (∀ file ∈ files, Found path file) ∧
      files.Pairwise fun first second => first.same second = false := by
  obtain ⟨directory, found⟩ : ∃ directory, tree.find path = .ok (directory, .directory) := by
    unfold hasDirectory at there
    split at there
    next directory found => exact ⟨directory, found⟩
    · cases there
  have dir := named.find_entry found
  have files : tree.filesUnder path = .ok (tree.entries.filterMap (pathBelow? path directory)) := by
    rw [FileTree.filesUnder, found]
    rfl
  refine ⟨_, files, fun file listed => ?_, ?_⟩
  · obtain ⟨row, among, below⟩ := List.mem_filterMap.mp listed
    obtain ⟨anchors, names, filled, sound, joined, -⟩ := named.pathBelow dir among below
    exact ⟨anchors, names, filled, sound, joined⟩
  · rw [List.pairwise_filterMap]
    refine named.once.imp_of_mem fun {row other} among also apart first below second beyond => ?_
    obtain ⟨-, names, -, -, joined, place⟩ := named.pathBelow dir among below
    obtain ⟨-, others, -, -, alike, beside⟩ := named.pathBelow dir also beyond
    refine decide_eq_false fun same => apart ?_
    have equal := (parts_of_components same).2
    rw [joined, alike, List.append_cancel_left_eq] at equal
    rw [place, beside, equal]

end Below

end FileTree

end CompositeKeys.Files
