import CompositeKeys.Proofs.Files.Beside
import CompositeKeys.Proofs.Files.Directories
import CompositeKeys.Proofs.Generation.Outputs

/-! What modules write in front of the names of helper modules. It always reads as a relative import. It leads
from the directory of the module to that of the helpers where the path of the module takes no step up, and
only by chance elsewhere. -/

namespace CompositeKeys

namespace Files

namespace Component

/-- The step that a component asks for. -/
def step? : Component → Option String
  | .up => some ".."
  | .name text => some text
  | .root | .here => none

theorem steps_ofSegment (names : List String) :
    (names.map Spelling.ofSegment).filterMap step? = names := by
  induction names with
  | nil => rfl
  | cons name names ih =>
    have own : step? (Spelling.ofSegment name) = some name := by
      unfold Spelling.ofSegment
      split
      next up => rw [up, step?]
      · rfl
    rw [List.map_cons, List.filterMap_cons_some own, ih]

theorem steps_up {α : Type} (rest : List α) :
    (rest.map fun _ => Component.up).filterMap step? = List.replicate rest.length ".." := by
  induction rest with
  | nil => rfl
  | cons _ rest ih =>
    rw [List.map_cons, List.filterMap_cons_some (show step? .up = some ".." from rfl), ih]
    rfl

end Component

theorem Bearing.along_name {bearing other : Bearing} {name : String} (here : name ≠ ".") (up : name ≠ "..") :
    bearing.along [name] = other.along [name] ↔ bearing = other := by
  rw [along, along, List.foldl_cons, List.foldl_cons, step_name _ here up, step_name _ here up]
  cases bearing
  cases other
  simp

namespace FilePath
open FileTree Component

theorem names_parts (path : FilePath) : ∀ name ∈ path.names, isIdle name = false ∧ '/' ∉ name.toList := by
  obtain ⟨anchor, segments, spelt⟩ := exists_spelt path
  rw [spelt.names]
  intro name listed
  obtain ⟨listed, moves⟩ := List.mem_filter.mp listed
  exact ⟨by simpa using moves, spelt.unparted name listed⟩

theorem anchors_cases (path : FilePath) :
    path.anchors = [] ∨ path.anchors = [.root] ∨ path.anchors = [.here] := by
  unfold anchors anchorsOf
  split <;> simp

theorem leading_append (front path base : List Component) :
    leading false (front ++ path) (front ++ base) = leading false path base := by
  induction front with
  | nil => rfl
  | cons component front ih =>
    rw [List.cons_append, List.cons_append, leading]
    simpa using ih

theorem leading_nil (apart : Bool) (path : List Component) : leading apart path [] = some path := by
  unfold leading
  rfl

/-- The way to a name, as seen from below. -/
theorem leading_name {name step : String} {rest : List String} (down : name ≠ "..") :
    leading false [.name name] ((step :: rest).map Spelling.ofSegment) =
      if step = name then some (rest.map fun _ => .up)
      else if step = ".." then none
      else some ((step :: rest).map (fun _ => .up) ++ [.name name]) := by
  rw [List.map_cons, leading]
  by_cases same : step = name
  · subst same
    have own : Spelling.ofSegment step = .name step := by simp [Spelling.ofSegment, down]
    rw [own]
    cases rest <;> simp [leading, Function.comp_def]
  · by_cases up : step = ".."
    · subst up
      simp [Spelling.ofSegment, same]
    · have own : Spelling.ofSegment step = .name step := by simp [Spelling.ofSegment, up]
      have other : Component.name name ≠ .name step := by simpa using Ne.symm same
      simp [own, other, same, up, Function.comp_def]

theorem leading_mem {apart : Bool} {path base way : List Component} (led : leading apart path base = some way) :
    ∀ component ∈ way, component = .up ∨ component ∈ path := by
  fun_induction leading apart path base generalizing way with
  | case1 apart path =>
    cases led
    exact fun _ listed => .inr listed
  | case2 apart base =>
    cases led
    intro component listed
    obtain ⟨_, _, rfl⟩ := List.mem_map.mp listed
    exact .inl rfl
  | case3 apart step path back base same ih =>
    exact fun component listed => (ih led component listed).imp_right (List.mem_cons_of_mem _)
  | case4 apart step path base same ih =>
    obtain ⟨rest, onward, rfl⟩ := Option.map_eq_some_iff.mp led
    intro component listed
    rcases List.mem_cons.mp listed with rfl | listed
    · exact .inr List.mem_cons_self
    · exact (ih onward component listed).imp_right (List.mem_cons_of_mem _)
  | case5 => cases led
  | case6 apart step path back base same here up =>
    cases led
    intro component listed
    rcases List.mem_append.mp listed with listed | listed
    · obtain ⟨_, _, rfl⟩ := List.mem_map.mp listed
      exact .inl rfl
    · exact .inr listed

theorem relativeTo_eq {path base : FilePath} {front first last : List String} (anchors : path.anchors = base.anchors)
    (names : path.names = front ++ first) (other : base.names = front ++ last) :
    path.relativeTo? base = leading false (first.map Spelling.ofSegment) (last.map Spelling.ofSegment) := by
  have same : path.isAbsolute = base.isAbsolute := by rw [isAbsolute_eq, isAbsolute_eq, anchors]
  rw [relativeTo?, if_pos same, components_eq, components_eq, names, other, anchors, List.map_append,
    List.map_append, ← List.append_assoc, ← List.append_assoc, leading_append]

theorem bearing_of_names {path base : FilePath} {steps : List String} (same : path.isAbsolute = base.isAbsolute)
    (names : path.names = base.names ++ steps) : path.bearing = base.bearing.along steps := by
  rw [path.bearing_eq, base.bearing_eq, same, names, Bearing.along_append]

/-- The steps from a directory to another one, or those of the other one where there is no way. -/
def wayFrom (path base : FilePath) : List String :=
  ((path.relativeTo? base).getD path.components).filterMap step?

theorem steps_anchors (path : FilePath) : path.anchors.filterMap step? = [] := by
  unfold anchors anchorsOf
  split <;> rfl

theorem wayFrom_parts (path base : FilePath) :
    ∀ step ∈ path.wayFrom base, isIdle step = false ∧ '/' ∉ step.toList := by
  intro step listed
  obtain ⟨component, among, own⟩ := List.mem_filterMap.mp listed
  have origin : component = .up ∨ component ∈ path.components := by
    unfold relativeTo? at among
    split at among
    · cases led : leading false path.components base.components with
      | none => exact .inr (by simpa [led] using among)
      | some way => exact leading_mem led component (by simpa [led] using among)
    · split at among <;> exact .inr among
  rcases origin with rfl | listed
  · cases own
    decide
  · have named : step ∈ path.components.filterMap step? := List.mem_filterMap.mpr ⟨component, listed, own⟩
    rw [components_eq, List.filterMap_append, steps_anchors, steps_ofSegment] at named
    exact path.names_parts step named

end FilePath

end Files

namespace Generation
open Files Emission

/-- The text of an import along some steps. -/
def importText (steps : List String) : String :=
  match steps with
  | [] => "."
  | ".." :: _ => "/".intercalate steps
  | _ => "./" ++ "/".intercalate steps

theorem importPrefix_eq (output directory : FilePath) :
    importPrefix output directory = importText (directory.wayFrom (output.parent?.getD ⟨""⟩)) := by
  refine congrArg importText (List.filterMap_congr fun component _ => ?_)
  cases component <;> rfl

/-- Whether a text reads as a relative import. -/
def IsRelativeImport (text : String) : Prop :=
  text = "." ∨ text = ".." ∨ ['.', '/'] <+: text.toList ∨ ['.', '.', '/'] <+: text.toList

theorem importText_relative (steps : List String) : IsRelativeImport (importText steps) := by
  unfold importText
  split
  · exact .inl rfl
  next rest =>
    cases rest with
    | nil => exact .inr (.inl rfl)
    | cons next rest =>
      refine .inr (.inr (.inr ?_))
      simp [String.toList_intercalate]
  · refine .inr (.inr (.inl ?_))
    rw [String.toList_append]
    exact List.prefix_append _ _

theorem importText_leads {steps : List String}
    (parts : ∀ step ∈ steps, isIdle step = false ∧ '/' ∉ step.toList) :
    FilePath.isAbsolute ⟨importText steps⟩ = false ∧ FilePath.names ⟨importText steps⟩ = steps := by
  have all : steps.filter (!isIdle ·) = steps := by
    rw [List.filter_eq_self]
    intro step listed
    rw [(parts step listed).1]
    rfl
  unfold importText
  split
  · exact ⟨rfl, rfl⟩
  next rest =>
    have spelt := FilePath.spelt_names (parts _ List.mem_cons_self).1 fun step listed => (parts step listed).2
    rw [FilePath.isAbsolute_eq, spelt.anchors, spelt.names, all]
    exact ⟨rfl, rfl⟩
  next none other =>
    cases steps with
    | nil => exact absurd rfl none
    | cons step rest =>
      have spelt := FilePath.spelt_names (parts _ List.mem_cons_self).1 fun step listed => (parts step listed).2
      have dotted := FilePath.names_slash "." ("/".intercalate (step :: rest))
      refine ⟨?_, dotted.trans ?_⟩
      · rw [FilePath.isAbsolute, String.toList_append]
        rfl
      · rw [spelt.names, all]
        rfl

/-- What is imported along a prefix is sought from the directory of the module. -/
theorem bearing_beside_import {output directory helpers : FilePath} (parent : output.parent? = some directory) :
    (output.beside ⟨importPrefix output helpers⟩).bearing = directory.bearing.along (helpers.wayFrom directory) := by
  have leads := importText_leads (helpers.wayFrom_parts directory)
  rw [importPrefix_eq, parent, FilePath.beside, parent]
  refine (FilePath.bearing_join directory leads.1).trans ?_
  rw [← Bearing.along_moves]
  exact congrArg directory.bearing.along leads.2

section Helpers
variable (root : FilePath)

theorem helpers_spelt : FilePath.Spelt ⟨helperDirectoryName⟩ .none [helperDirectoryName] :=
  FilePath.spelt_name (by decide) (by decide)

theorem anchors_helpers : (GenerationRun.helperDirectoryOf root).anchors = root.anchors :=
  FilePath.anchors_join root helpers_spelt.anchors

theorem names_helpers : (GenerationRun.helperDirectoryOf root).names = root.names ++ [helperDirectoryName] :=
  FilePath.names_join root rfl

theorem bearing_helpers :
    (GenerationRun.helperDirectoryOf root).bearing = root.bearing.along [helperDirectoryName] :=
  FilePath.bearing_of_names (FilePath.isAbsolute_join root rfl) (names_helpers root)

/-- From above the root the way leads through it. -/
theorem wayFrom_helpers_root {name : String} {directory : FilePath} (anchors : root.anchors = directory.anchors)
    (names : directory.names ++ [name] = root.names) :
    (GenerationRun.helperDirectoryOf root).wayFrom directory = [name, helperDirectoryName] := by
  have named := names_helpers root
  rw [← names, List.append_assoc] at named
  rw [FilePath.wayFrom, FilePath.relativeTo_eq ((anchors_helpers root).trans anchors) named (List.append_nil _).symm,
    List.map_nil, FilePath.leading_nil]
  exact Component.steps_ofSegment _

end Helpers

/-- The way back to the helpers that is written after steps from the root. -/
def wayBack (root : List String) : List String → List String
  | [] => [helperDirectoryName]
  | step :: rest =>
    if step = helperDirectoryName then .replicate rest.length ".."
    else if step = ".." then root ++ [helperDirectoryName]
    else .replicate (rest.length + 1) ".." ++ [helperDirectoryName]

theorem wayFrom_helpers {root directory : FilePath} {steps : List String} (anchors : directory.anchors = root.anchors)
    (names : directory.names = root.names ++ steps) :
    (GenerationRun.helperDirectoryOf root).wayFrom directory = wayBack root.names steps := by
  have way := FilePath.relativeTo_eq ((anchors_helpers root).trans anchors.symm) (names_helpers root) names
  have own : [helperDirectoryName].map Spelling.ofSegment = [.name helperDirectoryName] := rfl
  rw [FilePath.wayFrom, way, own]
  cases steps with
  | nil => rfl
  | cons step rest =>
    rw [FilePath.leading_name (by decide), wayBack]
    split
    · exact Component.steps_up rest
    split
    · rw [Option.getD_none, FilePath.components_eq, List.filterMap_append, FilePath.steps_anchors,
        List.nil_append, Component.steps_ofSegment, names_helpers]
    · rw [Option.getD_some, List.filterMap_append, Component.steps_up]
      rfl

/-- Written steps lead back if the way to the module takes no step up, if it ends in the root where the names of the
root are written instead, and if there is nothing above the root. -/
theorem along_wayBack {bearing : Bearing} {names steps : List String} (moves : "." ∉ steps) :
    (bearing.along steps).along (wayBack names steps) = bearing.along [helperDirectoryName] ↔
      ".." ∉ steps ∨
        (steps.head? = some ".." ∧ (bearing.along steps).along names = bearing) ∨
        (steps.head? ≠ some ".." ∧ steps.head? ≠ some helperDirectoryName ∧
          bearing.absolute = true ∧ bearing.names = []) := by
  have apart : helperDirectoryName ≠ "." ∧ helperDirectoryName ≠ ".." := by decide
  cases steps with
  | nil => simp [wayBack, Bearing.along]
  | cons step rest =>
    have onward : ∀ way, (bearing.along (step :: rest)).along (way ++ [helperDirectoryName]) =
        bearing.along [helperDirectoryName] ↔ (bearing.along (step :: rest)).along way = bearing := by
      intro way
      rw [Bearing.along_append]
      exact Bearing.along_name apart.1 apart.2
    rw [wayBack, List.head?_cons, ne_eq, ne_eq, Option.some.injEq, Option.some.injEq]
    split
    next keys =>
      subst keys
      have named : (bearing.along [helperDirectoryName]).names ≠ [] := by
        rw [Bearing.along, List.foldl_cons, bearing.step_name apart.1 apart.2]
        simp
      have back := @Bearing.along_back_iff (bearing.along [helperDirectoryName]) _
        (List.not_mem_of_not_mem_cons moves)
      refine back.trans ?_
      simp [named, apart.2, Ne.symm apart.2]
    next other =>
    split
    next up =>
      subst up
      rw [onward]
      simp
    next down =>
      rw [onward]
      refine (Bearing.along_back_iff moves).trans ?_
      simp [other, down]

theorem along_wayBack_here {steps : List String} (moves : "." ∉ steps) :
    (Bearing.here.along steps).along (helperDirectoryName :: .replicate steps.length "..") =
        Bearing.here.along [helperDirectoryName] ↔
      ".." ∉ steps ∧ steps.head?.getD helperDirectoryName = helperDirectoryName := by
  let whole := Bearing.here.along (steps ++ [helperDirectoryName])
  have split : (Bearing.here.along steps).along (helperDirectoryName :: .replicate steps.length "..") =
      whole.after { absolute := false, ups := steps.length } := by
    rw [← Bearing.along_ups, ← List.singleton_append, Bearing.along_append, ← Bearing.along_append _ steps]
  have goal : Bearing.here.along [helperDirectoryName] =
    { absolute := false, names := [helperDirectoryName] } := by decide
  rw [split, goal]
  by_cases climbs : ".." ∈ steps
  · have few : whole.names.length - steps.length = 0 := by
      have bound := Bearing.names_along_le Bearing.here (steps ++ [helperDirectoryName])
      have up : 0 < steps.count ".." := List.count_pos_iff.mpr climbs
      simp only [Bearing.here, List.count_append, List.length_append, List.length_nil, List.length_singleton] at bound
      exact Nat.sub_eq_zero_of_le (by simp only [whole, Bearing.here]; omega)
    refine ⟨fun same => ?_, fun down => absurd climbs down.1⟩
    have names := congrArg Bearing.names same
    rw [Bearing.after, few] at names
    cases names
  · have moving : "." ∉ steps ++ [helperDirectoryName] := by simpa [moves] using by decide
    have falling : ".." ∉ steps ++ [helperDirectoryName] := by simpa [climbs] using by decide
    have down : whole = { absolute := false, names := steps ++ [helperDirectoryName] } :=
      Bearing.here.along_down moving falling
    rw [down]
    cases steps with
    | nil => decide
    | cons step rest => simp [Bearing.after, climbs]

/-- Whether the way that a module imports along leads to the helpers, by the steps that its path takes below the
root before the name of the module. -/
def FindsHelpers (root relative : FilePath) : Prop :=
  let steps := relative.names.dropLast
  if root.text = "" ∧ relative.anchors = [.here] then
    ".." ∉ steps ∧ steps.head?.getD helperDirectoryName = helperDirectoryName
  else
    ".." ∉ steps ∨
      (steps.head? = some ".." ∧ (root.bearing.along steps).along root.names = root.bearing) ∨
      (steps.head? ≠ some ".." ∧ steps.head? ≠ some helperDirectoryName ∧
        root.bearing.absolute = true ∧ root.bearing.names = [])

instance (root relative : FilePath) : Decidable (FindsHelpers root relative) :=
  inferInstanceAs (Decidable (ite _ _ _))

/-- Where the first path says that it starts here and the second one does not, the way takes a step up too many. -/
theorem wayFrom_here {directory : FilePath} {steps : List String} (anchors : directory.anchors = [.here])
    (names : directory.names = steps) :
    FilePath.wayFrom ⟨helperDirectoryName⟩ directory =
      helperDirectoryName :: .replicate steps.length ".." := by
  have relative : directory.isAbsolute = false := by
    rw [FilePath.isAbsolute_eq, anchors]
    rfl
  have way : FilePath.relativeTo? ⟨helperDirectoryName⟩ directory =
      some (.name helperDirectoryName :: steps.map fun _ => .up) := by
    rw [FilePath.relativeTo?, if_pos (show FilePath.isAbsolute ⟨helperDirectoryName⟩ = _ from relative.symm),
      FilePath.components_eq directory, anchors, names,
      show FilePath.components ⟨helperDirectoryName⟩ = [.name helperDirectoryName] from by decide]
    cases steps <;> simp [FilePath.leading, Function.comp_def]
  rw [FilePath.wayFrom, way, Option.getD_some, List.filterMap_cons_some (by rfl), Component.steps_up]

theorem finds_helpers_iff {root relative : FilePath} (within : relative.isAbsolute = false)
    (named : (root.join relative).fileName?.isSome = true) :
    ((root.join relative).beside
        ⟨importPrefix (root.join relative) (GenerationRun.helperDirectoryOf root)⟩).bearing =
      (GenerationRun.helperDirectoryOf root).bearing ↔ FindsHelpers root relative := by
  obtain ⟨name, named⟩ := Option.isSome_iff_exists.mp named
  obtain ⟨directory, parent, anchors, names, -⟩ := FilePath.exists_directory named
  rw [bearing_beside_import parent, bearing_helpers]
  have joined := FilePath.names_join root within
  rw [names] at joined
  have absolute : directory.isAbsolute = root.isAbsolute := by
    rw [FilePath.isAbsolute_eq, anchors, ← FilePath.isAbsolute_eq, FilePath.isAbsolute_join root within]
  have unnamed : root.text = "" → root = ⟨""⟩ := fun empty => congrArg FilePath.mk empty
  by_cases none : relative.names = []
  · -- The module stands where the root does, and the helpers below it.
    rw [none, List.append_nil] at joined
    have filled : root.text ≠ "" := by
      intro empty
      rw [unnamed empty] at joined
      exact absurd joined.symm (by simp [FilePath.names, FileTree.stepsOf, segmentsOf])
    have front : root.anchors = directory.anchors := by
      rw [anchors, FilePath.anchors_join_filled filled within]
    have found : directory.bearing.along [name, helperDirectoryName] = root.bearing.along [helperDirectoryName] := by
      rw [FilePath.bearing_of_names absolute.symm joined.symm]
      rfl
    rw [wayFrom_helpers_root root front joined, FindsHelpers, none, if_neg (filled ·.1)]
    simp [found]
  obtain ⟨steps, last, whole⟩ := (List.eq_nil_or_concat' relative.names).resolve_left none
  rw [whole, ← List.append_assoc] at joined
  have joined := List.append_inj_left' joined rfl
  have moves : "." ∉ steps := by
    intro listed
    have idle := (relative.names_parts "." (whole ▸ List.mem_append_left _ listed)).1
    cases idle
  have bearing : directory.bearing = root.bearing.along steps := FilePath.bearing_of_names absolute joined
  rw [FindsHelpers, whole, List.dropLast_concat, bearing]
  by_cases drifting : root.text = "" ∧ relative.anchors = [.here]
  · obtain ⟨empty, here⟩ := drifting
    rw [if_pos ⟨empty, here⟩]
    obtain rfl := unnamed empty
    have alone : FilePath.join ⟨""⟩ relative = relative := by
      rw [FilePath.join, within]
      rfl
    rw [alone, here] at anchors
    have way : (GenerationRun.helperDirectoryOf ⟨""⟩).wayFrom directory = _ := wayFrom_here anchors joined
    rw [way]
    exact along_wayBack_here moves
  · rw [if_neg drifting]
    have front : directory.anchors = root.anchors := by
      rw [anchors]
      by_cases empty : root.text = ""
      · refine FilePath.anchors_join root (relative.anchors_cases.resolve_right ?_)
        rintro (absolute | here)
        · rw [FilePath.isAbsolute_eq, absolute] at within
          cases within
        · exact drifting ⟨empty, here⟩
      · exact FilePath.anchors_join_filled empty within
    rw [wayFrom_helpers front joined]
    exact along_wayBack moves

theorem finds_helpers_of_plain {root relative : FilePath} (plain : relative.Plain) : FindsHelpers root relative := by
  have down : ".." ∉ relative.names.dropLast := by
    intro listed
    exact plain.down (List.mem_filter.mp (List.dropLast_subset _ listed)).1
  rw [FindsHelpers, plain.anchors, if_neg (by simp)]
  exact .inl down

namespace Batch

/-- Whatever path is accepted, the prefix of its imports is relative. It leads to the helpers of the run, from the
directory of the module, exactly if the path finds them, as every path does that has no dots. -/
theorem imports_lead_iff {batch next : Batch} {builder : Builder} {relative : FilePath}
    (accepted : batch.add builder relative = (next, .ok ())) :
    ∃ generator : Generator, next.generators = batch.generators ++ [generator] ∧
      generator.output = batch.run.root.join relative ∧
      let text := importPrefix generator.output batch.run.helperDirectory
      IsRelativeImport text ∧
      ((generator.output.beside ⟨text⟩).bearing = batch.run.helperDirectory.bearing ↔
        FindsHelpers batch.run.root relative) ∧
      (relative.Plain → (generator.output.beside ⟨text⟩).bearing = batch.run.helperDirectory.bearing) := by
  obtain ⟨within, named, -, generator, added, output⟩ := add_ok accepted
  have leads := finds_helpers_iff within named
  refine ⟨generator, added, output, ?_, ?_⟩
  · rw [importPrefix_eq]
    exact importText_relative _
  · rw [output]
    exact ⟨leads, fun plain => leads.mpr (finds_helpers_of_plain plain)⟩

/-- Cars two directories further down find the helpers. -/
theorem imports_lead_up :
    let batch := create ⟨"shop/../out"⟩ {} {}
    ∃ next generator, batch.add cars ⟨"fleet/new/Cars.mjs"⟩ = (next, .ok ()) ∧
      next.generators = [generator] ∧
      (generator.output.beside ⟨importPrefix generator.output batch.run.helperDirectory⟩).bearing =
        batch.run.helperDirectory.bearing := by
  intro batch
  obtain ⟨next, added⟩ : ∃ next, batch.add cars ⟨"fleet/new/Cars.mjs"⟩ = (next, .ok ()) :=
    exists_of_added (by decide +kernel)
  obtain ⟨generator, generators, -, -, leads, -⟩ := imports_lead_iff added
  exact ⟨next, generator, added, generators, leads.mpr (by decide +kernel)⟩

/-- Cars that leave a directory again seek the helpers two steps above the root. -/
theorem imports_astray :
    let batch := create ⟨"out"⟩ {} {}
    ∃ next generator, batch.add cars ⟨"x/../Cars.mjs"⟩ = (next, .ok ()) ∧ next.generators = [generator] ∧
      importPrefix generator.output batch.run.helperDirectory = "../../keys" ∧
      (generator.output.beside ⟨"../../keys"⟩).bearing ≠ batch.run.helperDirectory.bearing := by
  intro batch
  obtain ⟨next, added⟩ : ∃ next, batch.add cars ⟨"x/../Cars.mjs"⟩ = (next, .ok ()) :=
    exists_of_added (by decide +kernel)
  obtain ⟨-, -, -, generator, generators, output⟩ := add_ok added
  exact ⟨next, generator, added, generators, output ▸ by decide +kernel, output ▸ by decide +kernel⟩

end Batch

end Generation

end CompositeKeys
