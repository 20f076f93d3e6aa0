import CompositeKeys.Proofs.Files.Paths
import Mathlib.Data.List.DropRight

/-! The directory of a file, by its path. A path is taken apart into segments and put together again from
them, so that the directory is what stands ahead of the last slash, but for the spelling there. -/

namespace CompositeKeys.Files

/-- The letters of segments with slashes between them. -/
def spelled (segments : List String) : List Char := ['/'].intercalate (segments.map String.toList)

theorem spelled_cons (segment : String) {segments : List String} (some : segments ≠ []) :
    spelled (segment :: segments) = segment.toList ++ '/' :: spelled segments := by
  obtain ⟨next, rest, rfl⟩ := List.exists_cons_of_ne_nil some
  simp [spelled, List.intercalate_cons_cons]

theorem spelled_append {first last : List String} (one : first ≠ []) (two : last ≠ []) :
    spelled (first ++ last) = spelled first ++ '/' :: spelled last := by
  induction first with
  | nil => exact absurd rfl one
  | cons segment first ih =>
    rw [List.cons_append, spelled_cons segment (by simp [two])]
    cases first with
    | nil => simp [spelled]
    | cons next first =>
      rw [ih (List.cons_ne_nil _ _), spelled_cons segment (List.cons_ne_nil _ _), List.append_assoc]
      rfl

theorem segmentsOf_ne_nil (letters : List Char) : segmentsOf letters ≠ [] := by
  cases letters with
  | nil => exact List.cons_ne_nil _ _
  | cons letter rest =>
    unfold segmentsOf
    split
    · exact List.cons_ne_nil _ _
    · split <;> exact List.cons_ne_nil _ _

theorem spelled_segmentsOf (letters : List Char) :
    spelled ((segmentsOf letters).map String.ofList) = letters := by
  induction letters with
  | nil => rfl
  | cons letter rest ih =>
    unfold segmentsOf
    split
    next slash =>
      subst slash
      rw [List.map_cons, spelled_cons _ (by simpa using segmentsOf_ne_nil rest), ih]
      simp
    · split
      next none => exact absurd none (segmentsOf_ne_nil rest)
      next first others same =>
        rw [same] at ih
        rw [← ih]
        cases others with
        | nil => simp [spelled]
        | cons other others => simp [spelled, List.intercalate_cons_cons]

theorem segmentsOf_name {name : List Char} (unparted : '/' ∉ name) : segmentsOf name = [name] := by
  induction name with
  | nil => rfl
  | cons letter rest ih =>
    rw [List.mem_cons, not_or] at unparted
    rw [segmentsOf, if_neg (Ne.symm unparted.1), ih unparted.2]

theorem segmentsOf_spelled {segments : List String} (some : segments ≠ [])
    (unparted : ∀ segment ∈ segments, '/' ∉ segment.toList) :
    (segmentsOf (spelled segments)).map String.ofList = segments := by
  induction segments with
  | nil => exact absurd rfl some
  | cons segment segments ih =>
    rw [List.forall_mem_cons] at unparted
    by_cases last : segments = []
    · subst last
      simp [spelled, segmentsOf_name unparted.1]
    · rw [spelled_cons segment last, segmentsOf_append, segmentsOf_name unparted.1, List.map_append,
        ih last unparted.2]
      simp

theorem unparted_of_mem {letters segment : List Char} (listed : segment ∈ segmentsOf letters) :
    '/' ∉ segment := by
  induction letters generalizing segment with
  | nil => simp [segmentsOf] at listed; simp [listed]
  | cons letter rest ih =>
    unfold segmentsOf at listed
    split at listed
    · rcases List.mem_cons.mp listed with rfl | later
      · exact List.not_mem_nil
      · exact ih later
    next other =>
      split at listed
      next none => exact absurd none (segmentsOf_ne_nil rest)
      next first others same =>
        have firstUnparted := ih (same ▸ List.mem_cons_self)
        rcases List.mem_cons.mp listed with rfl | later
        · simp [firstUnparted, Ne.symm other]
        · exact ih (same ▸ List.mem_cons_of_mem _ later)

namespace FileTree

theorem stepsOf_spelled {segments : List String} (unparted : ∀ segment ∈ segments, '/' ∉ segment.toList) :
    stepsOf ⟨.ofList (spelled segments)⟩ = segments.filter (· ≠ "") := by
  unfold stepsOf
  rw [String.toList_ofList]
  by_cases none : segments = []
  · subst none
    rfl
  · rw [segmentsOf_spelled none unparted]

end FileTree

/-- The letters in front of the segments. -/
def Anchor.letters : Anchor → List Char
  | .none => []
  | .root => ['/']
  | .here => ['.']

def Anchor.steps : Anchor → List String
  | .none | .root => []
  | .here => ["."]

def Anchor.components : Anchor → List Component
  | .none => []
  | .root => [.root]
  | .here => [.here]

namespace FilePath
open FileTree

/-- How a text comes apart into its anchor and its segments. -/
structure Spelt (path : FilePath) (anchor : Anchor) (segments : List String) : Prop where
  spelling : path.spelling = ⟨anchor, segments⟩
  letters : path.text.toList = anchor.letters ++ spelled segments
  filled : segments ≠ []
  unparted : ∀ segment ∈ segments, '/' ∉ segment.toList
  here : anchor = .here → segments.head? = some ""

theorem exists_spelt (path : FilePath) : ∃ anchor segments, path.Spelt anchor segments := by
  have filled : ∀ letters, (segmentsOf letters).map String.ofList ≠ [] := by
    simpa using segmentsOf_ne_nil
  have unparted : ∀ letters, ∀ segment ∈ (segmentsOf letters).map String.ofList, '/' ∉ segment.toList := by
    intro letters segment listed
    obtain ⟨piece, member, rfl⟩ := List.mem_map.mp listed
    rw [String.toList_ofList]
    exact unparted_of_mem member
  have parts : ∀ anchor letters, path.spelling = Spelling.ofSegments anchor letters →
      path.text.toList = anchor.letters ++ letters →
      (anchor = .here → ((segmentsOf letters).map String.ofList).head? = some "") →
      ∃ anchor segments, path.Spelt anchor segments := fun anchor letters spelling whole here =>
    ⟨anchor, _, spelling, (spelled_segmentsOf letters).symm ▸ whole, filled letters, unparted letters, here⟩
  have whole : path.spelling = Spelling.ofLetters path.text.toList := rfl
  generalize text : path.text.toList = letters at whole
  unfold Spelling.ofLetters at whole
  split at whole
  · exact parts .root _ whole text nofun
  · exact parts .here [] whole text fun _ => rfl
  · exact parts .here _ whole text fun _ => rfl
  · exact parts .none _ whole text nofun

section Parent
variable {path : FilePath} {anchor : Anchor} {segments : List String}

theorem Spelt.steps (spelt : path.Spelt anchor segments) :
    stepsOf path = anchor.steps ++ segments.filter (· ≠ "") := by
  obtain ⟨-, letters, -, unparted, here⟩ := spelt
  cases anchor with
  | none =>
    have whole : path = ⟨.ofList (spelled segments)⟩ := by
      rw [← show path.text.toList = spelled segments from letters, String.ofList_toList]
    rw [whole]
    exact stepsOf_spelled unparted
  | root =>
    have cut : stepsOf path = stepsOf ⟨""⟩ ++ stepsOf ⟨.ofList (spelled segments)⟩ :=
      stepsOf_slash (by simp [letters, Anchor.letters])
    rw [cut, stepsOf_spelled unparted]
    rfl
  | here =>
    obtain ⟨more, rfl⟩ : ∃ more, segments = "" :: more := List.head?_eq_some_iff.mp (here rfl)
    by_cases last : more = []
    · subst last
      have whole : path = ⟨"."⟩ := congrArg FilePath.mk (String.toList_inj.mp letters)
      rw [whole]
      rfl
    · have cut : stepsOf path = stepsOf ⟨"."⟩ ++ stepsOf ⟨.ofList (spelled more)⟩ := by
        refine stepsOf_slash ?_
        rw [letters, spelled_cons _ last]
        simp [Anchor.letters]
      rw [cut, stepsOf_spelled fun segment listed => unparted segment (List.mem_cons_of_mem _ listed)]
      simp
      rfl

theorem Spelt.names (spelt : path.Spelt anchor segments) : path.names = segments.filter (!isIdle ·) := by
  rw [FilePath.names, spelt.steps, List.filter_append, List.filter_filter]
  have bare : anchor.steps.filter (· ≠ ".") = [] := by
    cases anchor <;> rfl
  rw [bare, List.nil_append]
  refine List.filter_congr fun segment _ => ?_
  simp only [isIdle, ne_eq, decide_not, Bool.not_or]
  exact Bool.and_comm _ _

theorem Spelt.anchors (spelt : path.Spelt anchor segments) : path.anchors = anchor.components := by
  have both : path.anchors ++ path.names.map Spelling.ofSegment =
      anchor.components ++ path.names.map Spelling.ofSegment := by
    rw [← components_eq, components, spelt.spelling, spelt.names]
    cases anchor <;> rfl
  exact List.append_cancel_right both

theorem spelled_ne_nil {segment : String} (listed : segment ∈ segments) (some : segment ≠ "") :
    spelled segments ≠ [] := by
  obtain ⟨front, rest, rfl⟩ := List.append_of_mem listed
  have filled : segment.toList ≠ [] := mt String.toList_eq_nil_iff.mp some
  cases front with
  | nil =>
    cases rest with
    | nil => simpa [spelled] using filled
    | cons next rest => simp [spelled_cons]
  | cons first front => simp [spelled_cons]

/-- The directory of a file. Its path is the beginning of that of the file, up to the spelling before the
last slash. -/
structure Lodges (path directory : FilePath) (name : String) : Prop where
  parent : path.parent? = some directory
  anchors : directory.anchors = path.anchors
  steps : ∃ dots, stepsOf path = stepsOf directory ++ dots ++ [name] ∧ ∀ step ∈ dots, step = "."
  part : directory.text.toList <+: path.text.toList
  bare : directory.components = [] → directory.text = ""

theorem Spelt.lodges {name : String} {init : List String} (spelt : path.Spelt anchor (init ++ [name]))
    (named : isIdle name = false) (down : name ≠ "..") :
    ∃ directory, path.Lodges directory name := by
  let front := init.rdropWhile isIdle
  let idle := init.rtakeWhile isIdle
  have parts : front ++ idle = init := List.rdropWhile_append_rtakeWhile
  have dropped : path.spelling.dropLast = ⟨anchor, front⟩ := by
    rw [spelt.spelling]
    simp [Spelling.dropLast, Spelling.trimmed, named, front, List.rdropWhile]
  let directory : FilePath := ⟨(⟨anchor, front⟩ : Spelling).text⟩
  have parent : path.parent? = some directory := by
    have last : path.components.getLast? = some (.name name) := by
      have idle : (!isIdle name) = true := by rw [named]; rfl
      simp [components, spelt.spelling, Spelling.components, List.filter_append, idle,
        Spelling.ofSegment, down, List.getLast?_append]
    unfold parent?
    rw [last]
    show some (FilePath.mk path.spelling.dropLast.text) = some directory
    rw [dropped]
  have letters : directory.text.toList = anchor.letters ++ spelled front := by
    simp only [directory, Spelling.text, String.toList_append, String.toList_intercalate]
    cases anchor <;> rfl
  have dots : ∀ step ∈ idle.filter (· ≠ ""), step = "." := by
    intro step listed
    obtain ⟨member, some⟩ := List.mem_filter.mp listed
    have dot := List.mem_rtakeWhile_imp member
    simpa [isIdle, of_decide_eq_true some] using dot
  have rest : (idle ++ [name]).filter (· ≠ "") = idle.filter (· ≠ "") ++ [name] := by
    have some : name ≠ "" := by
      rintro rfl
      cases named
    simp [List.filter_append, some]
  have steps := spelt.steps
  rw [← parts, List.append_assoc, List.filter_append, rest] at steps
  by_cases none : front = []
  · rw [none] at letters steps
    have whole : directory = ⟨.ofList anchor.letters⟩ := by
      refine congrArg FilePath.mk (String.toList_inj.mp ?_)
      rw [letters, String.toList_ofList]
      exact List.append_nil _
    have own : stepsOf directory = anchor.steps ∧ directory.anchors = anchor.components := by
      rw [whole]
      cases anchor <;> exact ⟨rfl, rfl⟩
    refine ⟨directory, parent, own.2.trans spelt.anchors.symm, ⟨_, ?_, dots⟩, ?_, fun bare => ?_⟩
    · rw [steps, own.1]
      simp
    · rw [letters, spelt.letters]
      exact ⟨_, congrArg (· ++ _) (List.append_nil anchor.letters)⟩
    · rw [whole] at bare ⊢
      cases anchor with
      | none => rfl
      | root => cases bare
      | here => cases bare
  · have whole : path.text.toList = directory.text.toList ++ '/' :: spelled (idle ++ [name]) := by
      rw [spelt.letters, letters, ← parts, List.append_assoc front, spelled_append none (by simp),
        List.append_assoc]
    have unparted : ∀ segment ∈ idle ++ [name], '/' ∉ segment.toList := by
      intro segment listed
      refine spelt.unparted segment ?_
      rw [← parts, List.append_assoc]
      exact List.mem_append_right _ listed
    have cut : stepsOf path = stepsOf directory ++ (idle.filter (· ≠ "") ++ [name]) := by
      rw [← rest, ← stepsOf_spelled unparted]
      exact stepsOf_slash (by rw [whole, String.toList_ofList])
    have kept : stepsOf directory = anchor.steps ++ front.filter (· ≠ "") := by
      rw [cut, ← List.append_assoc anchor.steps] at steps
      exact List.append_cancel_right steps
    obtain ⟨step, among, moves⟩ : ∃ step ∈ front, isIdle step = false :=
      ⟨_, List.getLast_mem none, Bool.not_eq_true _ ▸ List.rdropWhile_last_not isIdle init none⟩
    have some : step ≠ "" ∧ step ≠ "." := by simpa [isIdle] using moves
    have longer : directory.text.toList ≠ [] := by
      rw [letters]
      simp [spelled_ne_nil among some.1]
    refine ⟨directory, parent, ?_, ⟨_, by rw [cut, List.append_assoc], dots⟩, ⟨_, whole.symm⟩, fun bare => ?_⟩
    · unfold FilePath.anchors
      rw [whole]
      exact (anchorsOf_append longer fun _ => ⟨_, rfl⟩).symm
    · have named : step ∈ directory.names := by
        rw [FilePath.names, kept, List.filter_append]
        refine List.mem_append_right _ (List.mem_filter.mpr ⟨List.mem_filter.mpr ⟨among, ?_⟩, ?_⟩)
        · exact decide_eq_true some.1
        · exact decide_eq_true some.2
      rw [components_eq, List.append_eq_nil_iff, List.map_eq_nil_iff] at bare
      rw [bare.2] at named
      cases named

theorem Spelt.last {steps : List String} {name : String} (spelt : path.Spelt anchor segments)
    (closed : endsInSlash path = false) (last : stepsOf path = steps ++ [name]) (moves : name ≠ ".") :
    ∃ init, segments = init ++ [name] := by
  obtain ⟨init, segment, rfl⟩ := (List.eq_nil_or_concat' segments).resolve_left spelt.filled
  rw [spelt.steps, List.filter_append] at last
  by_cases empty : segment = ""
  · subst empty
    cases init with
    | nil =>
      have only : name ∈ anchor.steps := by
        have listed : name ∈ steps ++ [name] := List.mem_append_right _ (List.mem_singleton.mpr rfl)
        rw [← last] at listed
        simpa using listed
      cases anchor with
      | none => cases only
      | root => cases only
      | here => exact absurd (List.mem_singleton.mp only) moves
    | cons first init =>
      have slash : endsInSlash path = true := by
        rw [endsInSlash, spelt.letters, spelled_append (List.cons_ne_nil _ _) (List.cons_ne_nil _ _)]
        simp [spelled, List.getLast?_append]
      cases slash.symm.trans closed
  · have kept : [segment].filter (· ≠ "") = [segment] := by simp [empty]
    rw [kept, ← List.append_assoc] at last
    obtain ⟨-, same⟩ := List.append_inj' last rfl
    exact ⟨init, by rw [List.singleton_inj.mp same]⟩

/-- A file whose path ends in its name has a directory. -/
theorem exists_lodges {steps : List String} {name : String} (closed : endsInSlash path = false)
    (last : stepsOf path = steps ++ [name]) (here : name ≠ ".") (up : name ≠ "..") :
    ∃ directory, path.Lodges directory name := by
  obtain ⟨anchor, segments, spelt⟩ := exists_spelt path
  obtain ⟨init, rfl⟩ := spelt.last closed last here
  have filled : name ≠ "" := by
    have listed : name ∈ stepsOf path := last ▸ List.mem_append_right _ (List.mem_singleton.mpr rfl)
    exact of_decide_eq_true (List.mem_filter.mp listed).2
  exact spelt.lodges (by simp [isIdle, filled, here]) up

theorem Lodges.names {directory : FilePath} {name : String} (lodges : path.Lodges directory name)
    (here : name ≠ ".") : path.names = directory.names ++ [name] := by
  obtain ⟨dots, steps, idle⟩ := lodges.steps
  have none : dots.filter (· ≠ ".") = [] := by simpa [List.filter_eq_nil_iff] using idle
  rw [FilePath.names, steps, List.filter_append, List.filter_append, none, List.append_nil]
  simp [FilePath.names, here]

/-- The components of a file are those of its directory and its name. -/
theorem Lodges.components {directory : FilePath} {name : String} (lodges : path.Lodges directory name)
    (here : name ≠ ".") : path.components = directory.components ++ [Spelling.ofSegment name] := by
  rw [components_eq, components_eq, lodges.names here, lodges.anchors, List.map_append, List.append_assoc]
  rfl

end Parent

end FilePath
end CompositeKeys.Files
