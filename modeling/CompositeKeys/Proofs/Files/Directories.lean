import CompositeKeys.Proofs.Files.Spelling

/-! The operations on paths, by what they do to components. Whatever spelling is left out, the directory of a
file has all components but the last, and what comes after a path has the others. -/

namespace CompositeKeys.Files

theorem anchorsOf_spelled {segment : String} {rest : List String} (moves : isIdle segment = false)
    (unparted : '/' ∉ segment.toList) : FilePath.anchorsOf (spelled (segment :: rest)) = [] := by
  have filled : segment ≠ "" ∧ segment ≠ "." := by simpa [isIdle] using moves
  have some : segment.toList ≠ [] := mt String.toList_eq_nil_iff.mp filled.1
  have apart : segment.toList ≠ ['.'] := fun dot => filled.2 (String.toList_inj.mp dot)
  have own : FilePath.anchorsOf segment.toList = [] := by
    unfold FilePath.anchorsOf
    split
    next letters => exact absurd (letters ▸ List.mem_cons_self) unparted
    next letters => exact absurd letters apart
    next letters => exact absurd (letters ▸ List.mem_cons_of_mem _ List.mem_cons_self) unparted
    · rfl
  cases rest with
  | nil => simpa [spelled] using own
  | cons next rest =>
    rw [spelled_cons segment (List.cons_ne_nil _ _), FilePath.anchorsOf_append some fun dot => absurd dot apart]
    exact own

namespace FilePath
open FileTree

/-- A path that is spelled with an anchor and segments. -/
def spell (anchor : Anchor) (segments : List String) : FilePath := ⟨(⟨anchor, segments⟩ : Spelling).text⟩

theorem letters_spell (anchor : Anchor) (segments : List String) :
    (spell anchor segments).text.toList = anchor.letters ++ spelled segments := by
  simp only [spell, Spelling.text, String.toList_append, String.toList_intercalate]
  cases anchor <;> rfl

theorem spelt_spell {anchor : Anchor} {segments : List String} (filled : segments ≠ [])
    (unparted : ∀ segment ∈ segments, '/' ∉ segment.toList)
    (here : anchor = .here → segments.head? = some "")
    (bare : anchor = .none → anchorsOf (spelled segments) = []) :
    (spell anchor segments).Spelt anchor segments := by
  refine ⟨?_, letters_spell anchor segments, filled, unparted, here⟩
  have parted : (segmentsOf (spelled segments)).map String.ofList = segments :=
    segmentsOf_spelled filled unparted
  rw [spelling, letters_spell]
  cases anchor with
  | root => exact congrArg (Spelling.mk .root) parted
  | here =>
    obtain ⟨more, rfl⟩ : ∃ more, segments = "" :: more := List.head?_eq_some_iff.mp (here rfl)
    by_cases last : more = []
    · subst last
      rfl
    · rw [spelled_cons "" last] at parted ⊢
      exact congrArg (Spelling.mk .here) parted
  | none =>
    have bare := bare rfl
    rw [show Anchor.none.letters ++ spelled segments = spelled segments from rfl]
    generalize spelled segments = letters at parted bare
    unfold Spelling.ofLetters
    split
    · cases bare
    · cases bare
    · cases bare
    · exact congrArg (Spelling.mk .none) parted

section Spelt
variable {path : FilePath} {anchor : Anchor} {segments : List String}

theorem Spelt.trimmed (spelt : path.Spelt anchor segments) :
    path.spelling.trimmed = ⟨anchor, segments.rdropWhile isIdle⟩ := by
  rw [spelt.spelling]
  rfl

/-- The spelling at the end of a path can be left out. -/
theorem Spelt.cut {idle : List String} (spelt : path.Spelt anchor (segments ++ idle))
    (filled : segments ≠ []) : (spell anchor segments).Spelt anchor segments := by
  refine spelt_spell filled (fun segment listed => spelt.unparted segment (List.mem_append_left _ listed))
    (fun here => ?_) fun none => ?_
  · rw [← spelt.here here, List.head?_append_of_ne_nil _ filled]
  · subst none
    have bare : anchorsOf path.text.toList = [] := spelt.anchors
    rw [spelt.letters] at bare
    by_cases none : idle = []
    · rwa [none, List.append_nil] at bare
    by_cases letters : spelled segments = []
    · rw [letters]
      rfl
    · rw [spelled_append filled none] at bare
      rwa [← anchorsOf_append letters fun _ => ⟨_, rfl⟩]

end Spelt

/-- A path without components is not spelled at all. -/
theorem text_of_bare {path : FilePath} (bare : path.components = []) : path.text = "" := by
  rw [components_eq, List.append_eq_nil_iff, List.map_eq_nil_iff, names_eq] at bare
  obtain ⟨front, none⟩ := bare
  have whole := spelled_segmentsOf path.text.toList
  rcases segments : (segmentsOf path.text.toList).map String.ofList with _ | ⟨segment, rest⟩
  · exact absurd (List.map_eq_nil_iff.mp segments) (segmentsOf_ne_nil _)
  · rw [segments] at whole none
    have idle : isIdle segment = true := by simpa using List.filter_eq_nil_iff.mp none segment List.mem_cons_self
    rw [anchors, ← whole] at front
    rcases (by simpa [isIdle] using idle : segment = "" ∨ segment = ".") with rfl | rfl
    · cases rest with
      | nil => exact String.toList_eq_nil_iff.mp whole.symm
      | cons next rest =>
        rw [spelled_cons "" (List.cons_ne_nil _ _)] at front
        cases front
    · cases rest with
      | nil => cases front
      | cons next rest =>
        rw [spelled_cons "." (List.cons_ne_nil _ _)] at front
        cases front

theorem fileName_iff {path : FilePath} {name : String} :
    path.fileName? = some name ↔ path.names.getLast? = some name ∧ name ≠ ".." := by
  unfold fileName?
  rw [components_eq]
  rcases List.eq_nil_or_concat' path.names with none | ⟨init, last, whole⟩
  · rw [none]
    unfold anchors anchorsOf
    generalize path.text.toList = letters
    split
    next last =>
      split at last <;> cases last
    · simp
  · rw [whole]
    by_cases up : last = ".."
    · subst up
      simp [Spelling.ofSegment]
      rintro rfl
      rfl
    · simp [Spelling.ofSegment, up]
      rintro rfl
      exact up

/-- A path to a file can be spelled without anything after the name of the file. -/
theorem exists_trimmed {path : FilePath} {name : String} (named : path.fileName? = some name) :
    ∃ anchor init, path.spelling.trimmed = ⟨anchor, init ++ [name]⟩ ∧
      (spell anchor (init ++ [name])).Spelt anchor (init ++ [name]) ∧ isIdle name = false ∧
      anchor.components = path.anchors ∧ (init ++ [name]).filter (!isIdle ·) = path.names := by
  obtain ⟨anchor, segments, spelt⟩ := exists_spelt path
  let kept := segments.rdropWhile isIdle
  let idle := segments.rtakeWhile isIdle
  have parts : kept ++ idle = segments := List.rdropWhile_append_rtakeWhile
  have names : kept.filter (!isIdle ·) = path.names := by
    have none : idle.filter (!isIdle ·) = [] := by
      rw [List.filter_eq_nil_iff]
      intro segment listed
      rw [List.mem_rtakeWhile_imp listed]
      decide
    rw [spelt.names, ← parts, List.filter_append, none, List.append_nil]
  have last := (fileName_iff.mp named).1
  rw [← names] at last
  have filled : kept ≠ [] := by
    intro none
    rw [none] at last
    cases last
  obtain ⟨init, final, whole⟩ := (List.eq_nil_or_concat' kept).resolve_left filled
  have moves : isIdle final = false := by
    have last := List.rdropWhile_last_not isIdle segments filled
    simpa [show segments.rdropWhile isIdle = _ from whole] using last
  obtain rfl : final = name := by
    rw [whole, List.filter_append] at last
    simpa [moves] using last
  refine ⟨anchor, init, ?_, ?_, moves, spelt.anchors.symm, ?_⟩
  · rw [spelt.trimmed, ← whole]
  · rw [← parts, whole] at spelt
    exact spelt.cut (by simp)
  · rw [← whole, names]

theorem parent_of_fileName {path : FilePath} {name : String} (named : path.fileName? = some name) :
    path.parent? = some ⟨path.spelling.dropLast.text⟩ := by
  unfold fileName? at named
  unfold parent?
  split at named
  next last => rw [last]
  · cases named

/-- The directory of a file has all components of its path but the last. -/
theorem exists_directory {path : FilePath} {name : String} (named : path.fileName? = some name) :
    ∃ directory, path.parent? = some directory ∧ directory.anchors = path.anchors ∧
      path.names = directory.names ++ [name] ∧ (directory.components = [] → directory.text = "") := by
  obtain ⟨anchor, init, trimmed, spelt, moves, anchors, names⟩ := exists_trimmed named
  let short := spell anchor (init ++ [name])
  have same : path.spelling.dropLast = short.spelling.dropLast := by
    have closed : path.spelling.trimmed = short.spelling := trimmed.trans spelt.spelling.symm
    have still : short.spelling.trimmed = short.spelling := by
      rw [spelt.trimmed, spelt.spelling, List.rdropWhile_concat_neg _ _ _ (by simp [moves])]
    have anchors := congrArg Spelling.anchor closed
    unfold Spelling.dropLast
    rw [still, closed]
    exact congrArg (fun anchor => Spelling.trimmed ⟨anchor, short.spelling.segments.dropLast⟩) anchors
  have alike : path.names = short.names := names.symm.trans spelt.names.symm
  have own := fileName_iff.mp named
  have shortNamed : short.fileName? = some name := fileName_iff.mpr (alike ▸ own)
  obtain ⟨directory, lodges⟩ := spelt.lodges moves own.2
  have here : name ≠ "." := by
    rintro rfl
    cases moves
  refine ⟨directory, ?_, ?_, ?_, lodges.bare⟩
  · rw [parent_of_fileName named, same, ← parent_of_fileName shortNamed, lodges.parent]
  · rw [lodges.anchors, spelt.anchors, anchors]
  · rw [alike, lodges.names here]

/-- A path that is spelled with names alone. -/
theorem spelt_names {segment : String} {rest : List String} (moves : isIdle segment = false)
    (unparted : ∀ part ∈ segment :: rest, '/' ∉ part.toList) :
    FilePath.Spelt ⟨"/".intercalate (segment :: rest)⟩ .none (segment :: rest) := by
  have whole : spell .none (segment :: rest) = ⟨"/".intercalate (segment :: rest)⟩ :=
    congrArg FilePath.mk (String.empty_append)
  rw [← whole]
  exact spelt_spell (List.cons_ne_nil _ _) unparted nofun fun _ =>
    anchorsOf_spelled moves (unparted _ List.mem_cons_self)

theorem spelt_name {name : String} (moves : isIdle name = false) (unparted : '/' ∉ name.toList) :
    FilePath.Spelt ⟨name⟩ .none [name] := by
  have spelt := @spelt_names name [] moves (by simpa using unparted)
  rwa [String.intercalate_singleton] at spelt

/-- Another file name takes the place of the last name alone. -/
theorem withFileName_eq {path : FilePath} {name other : String} (named : path.fileName? = some name)
    (moves : isIdle other = false) (unparted : '/' ∉ other.toList) :
    (path.withFileName other).anchors = path.anchors ∧
      (path.withFileName other).names = path.names.dropLast ++ [other] := by
  obtain ⟨directory, parent, anchors, names, -⟩ := exists_directory named
  have spelt := spelt_name moves unparted
  have joined : path.withFileName other = directory.join ⟨other⟩ := by
    rw [withFileName, named, parent]
    rfl
  rw [joined]
  refine ⟨(anchors_join directory spelt.anchors).trans anchors, ?_⟩
  rw [names_join directory (isAbsolute_of_bare spelt.anchors), spelt.names, names, List.dropLast_concat]
  simp [moves]

theorem filter_dropFirst (count : Nat) (segments : List String) :
    (Spelling.dropFirst count segments).filter (!isIdle ·) = (segments.filter (!isIdle ·)).drop count := by
  have none : ∀ segments : List String,
      (segments.dropWhile isIdle).filter (!isIdle ·) = segments.filter (!isIdle ·) := by
    intro segments
    induction segments with
    | nil => rfl
    | cons segment segments ih =>
      by_cases idle : isIdle segment = true
      · rw [List.dropWhile_cons_of_pos idle, ih, List.filter_cons_of_neg (by simp [idle])]
      · rw [List.dropWhile_cons_of_neg idle]
  induction count generalizing segments with
  | zero => exact none segments
  | succ count ih =>
    rw [Spelling.dropFirst, ih, ← none segments]
    cases whole : segments.dropWhile isIdle with
    | nil => simp
    | cons segment rest =>
      have moves : isIdle segment = false := by
        have head := List.head?_dropWhile_not isIdle segments
        rw [whole] at head
        simpa using head
      simp [moves]

theorem dropFirst_head {count : Nat} {segments rest : List String} {segment : String}
    (whole : Spelling.dropFirst count segments = segment :: rest) : isIdle segment = false := by
  induction count generalizing segments with
  | zero =>
    have head := List.head?_dropWhile_not isIdle segments
    rw [show segments.dropWhile isIdle = _ from whole] at head
    simpa using head
  | succ count ih => exact ih whole

theorem dropFirst_suffix (count : Nat) (segments : List String) :
    Spelling.dropFirst count segments <:+ segments := by
  induction count generalizing segments with
  | zero => exact List.dropWhile_suffix _
  | succ count ih => exact (ih _).trans ((List.drop_suffix _ _).trans (List.dropWhile_suffix _))

/-- What a path has beyond another one. -/
theorem exists_after {path base : FilePath} {steps : List String} {name : String}
    (anchors : path.anchors = base.anchors) (names : path.names = base.names ++ steps)
    (filled : base.components ≠ []) (named : path.fileName? = some name) :
    ∃ rest, path.after? base = some rest ∧ rest.anchors = [] ∧ rest.names = steps := by
  obtain ⟨anchor, init, trimmed, spelt, moves, front, kept⟩ := exists_trimmed named
  let left := Spelling.dropFirst base.names.length (init ++ [name])
  have start : base.components.isPrefixOf path.components = true := by
    rw [components_eq, components_eq, anchors, names, List.map_append, ← List.append_assoc,
      List.isPrefixOf_iff_prefix]
    exact List.prefix_append _ _
  have count : base.components.length - (if anchor = .none then 0 else 1) = base.names.length := by
    rw [components_eq, ← anchors, ← front, List.length_append, List.length_map]
    cases anchor <;> simp [Anchor.components]
  have found : path.after? base = some ⟨"/".intercalate left⟩ := by
    unfold after?
    dsimp only [left]
    rw [start, trimmed, ← count]
    cases whole : base.components with
    | nil => exact absurd whole filled
    | cons component components => rfl
  refine ⟨_, found, ?_⟩
  have rest : left.filter (!isIdle ·) = steps := by
    rw [filter_dropFirst, kept, names, List.drop_left]
  rw [← rest]
  cases whole : left with
  | nil => exact ⟨rfl, rfl⟩
  | cons segment others =>
    have spelt := @spelt_names segment others (dropFirst_head whole) fun part listed =>
      spelt.unparted part ((dropFirst_suffix _ _).subset (whole ▸ listed))
    exact ⟨spelt.anchors, spelt.names⟩

end FilePath

end CompositeKeys.Files
