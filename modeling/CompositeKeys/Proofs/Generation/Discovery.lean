import CompositeKeys.Generation.Project
import CompositeKeys.Proofs.Files.Beside
import CompositeKeys.Proofs.Files.Search
import CompositeKeys.Proofs.Files.Sorting
import CompositeKeys.Proofs.Generation.Delivery
import CompositeKeys.Proofs.Generation.Listing
import CompositeKeys.Proofs.Generation.Loading
import CompositeKeys.Proofs.Generation.Registry

/-! What becomes of the manifests of a project. Each has a module of its own, at the same place below the output
directory, and no two of them have the same one. -/

namespace CompositeKeys.Generation
open Files FileTree Tasks

/-- The end of the name of a module. -/
def moduleEnding : String := ".mjs"

theorem manifestStem_iff {name stem : String} :
    manifestStem? name = some stem ↔ name = stem ++ manifestEnding := by
  unfold manifestStem? Text.before?
  constructor
  · intro found
    obtain ⟨letters, found, same⟩ := Option.map_eq_some_iff.mp found
    split at found
    next ends =>
      obtain ⟨front, whole⟩ := List.isSuffixOf_iff_suffix.mp ends
      refine String.toList_inj.mp ?_
      rw [String.toList_append, ← same, ← Option.some.inj found, String.toList_ofList, ← whole]
      simp
    · cases found
  · rintro rfl
    rw [String.toList_append, if_pos (List.isSuffixOf_iff_suffix.mpr (List.suffix_append _ _))]
    simp

/-- A text that ends as modules do can be the name of a file, if there is no slash ahead. -/
theorem isName_module {stem : String} (unparted : '/' ∉ stem.toList) : IsName (stem ++ moduleEnding) := by
  have last : ∀ text : String, text.toList.getLast? ≠ some 's' → stem ++ moduleEnding ≠ text := by
    rintro text other rfl
    exact other (by simp [moduleEnding, List.getLast?_append])
  refine ⟨?_, last ".." (by decide), ?_⟩
  · have empty := last "" (by decide)
    have dot := last "." (by decide)
    simp [isIdle, empty, dot]
  · rw [String.toList_append, List.mem_append, not_or]
    exact ⟨unparted, by decide⟩

theorem exists_of_mem_right {α β : Type} {related : α → β → Prop} {first : List α} {second : List β}
    (each : List.Forall₂ related first second) {value : β} (listed : value ∈ second) :
    ∃ origin ∈ first, related origin value := by
  induction each with
  | nil => cases listed
  | @cons origin other _ _ here _ ih =>
    rcases List.mem_cons.mp listed with rfl | later
    · exact ⟨origin, List.mem_cons_self, here⟩
    · obtain ⟨origin, among, relates⟩ := ih later
      exact ⟨origin, List.mem_cons_of_mem _ among, relates⟩

/-- Whether an output lies below the output directory as a manifest does below the source, under the same name. -/
def Mirrors (source manifest output : FilePath) : Prop :=
  ∃ directory stem, manifest.components = source.components ++ directory ++ [.name (stem ++ manifestEnding)] ∧
    output.components = directory ++ [.name (stem ++ moduleEnding)]

theorem Mirrors.apart {source first second output other : FilePath} (one : Mirrors source first output)
    (two : Mirrors source second other) (apart : first.same second = false) : output.same other = false := by
  obtain ⟨directory, stem, manifest, own⟩ := one
  obtain ⟨beside, name, also, alike⟩ := two
  refine decide_eq_false fun same => of_decide_eq_false apart ?_
  rw [own, alike] at same
  obtain ⟨rfl, last⟩ := List.append_inj' same rfl
  rw [manifest, also, (String.append_left_inj _).mp (Component.name.inj (List.singleton_inj.mp last))]

/-- Whether a path below the output directory gets a target. -/
structure Project.Takes (project : Project) (output : FilePath) : Prop where
  bare : output.anchors = []
  named : (project.output.join output).fileName?.isSome = true
  plain : (project.output.join output).text ∉ rootName :: GenerationRun.fixedTargets

section Relative
variable {project : Project} {manifest : FilePath} {stem : String}

/-- The module of a manifest that is found lies where the manifest does. -/
theorem exists_relativeOutput (based : project.source.components ≠ [])
    (found : Found project.source manifest) (named : manifest.fileName?.bind manifestStem? = some stem) :
    ∃ output, project.relativeOutput manifest = .ok output ∧ Mirrors project.source manifest output ∧
      output.anchors = [] ∧ output.fileName? = some (stem ++ moduleEnding) ∧
      ∃ front, output.text.toList = front ++ (stem ++ moduleEnding).toList := by
  obtain ⟨name, last, stemmed⟩ := Option.bind_eq_some_iff.mp named
  obtain rfl := manifestStem_iff.mp stemmed
  obtain ⟨anchors, names, filled, sound, joined⟩ := found
  obtain ⟨directory, final, rfl⟩ := (List.eq_nil_or_concat' names).resolve_left filled
  obtain rfl : final = stem ++ manifestEnding := by
    have ends := (FilePath.fileName_iff.mp last).1
    rw [joined, ← List.append_assoc] at ends
    simpa using ends
  obtain ⟨moves, down, unparted⟩ := sound _ (List.mem_append_right _ (List.mem_singleton.mpr rfl))
  obtain ⟨rest, after, bare, rested⟩ := FilePath.exists_after anchors joined based last
  have ending : rest.fileName? = some (stem ++ manifestEnding) :=
    FilePath.fileName_iff.mpr ⟨by simp [rested], down⟩
  have module : IsName (stem ++ moduleEnding) := by
    rw [String.toList_append, List.mem_append, not_or] at unparted
    exact isName_module unparted.1
  have output : project.relativeOutput manifest = .ok (rest.withFileName (stem ++ moduleEnding)) := by
    simp only [Project.relativeOutput, after, ending, Option.bind_eq_bind, Option.bind_some, stemmed]
    rfl
  obtain ⟨front, placed⟩ := FilePath.withFileName_eq ending module.1 module.2.2
  rw [rested, List.dropLast_concat] at placed
  rw [bare] at front
  refine ⟨_, output, ⟨directory.map Spelling.ofSegment, stem, ?_, ?_⟩, front, ?_, ?_⟩
  · rw [FilePath.components_eq, FilePath.components_eq, anchors, joined]
    simp [Spelling.ofSegment, down]
  · rw [FilePath.components_eq, front, placed]
    simp [Spelling.ofSegment, module.2.1]
  · exact FilePath.fileName_iff.mpr ⟨by simp [placed], module.2.1⟩
  · have relative := FilePath.isAbsolute_of_bare (FilePath.spelt_name module.1 module.2.2).anchors
    obtain ⟨ahead, text, -⟩ := letters_join (rest.parent?.getD rest) relative
    exact ⟨ahead, by rw [← text, FilePath.withFileName, ending]; rfl⟩

theorem takes_output {output : FilePath} (bare : output.anchors = [])
    (named : output.fileName? = some (stem ++ moduleEnding))
    (ends : ∃ front, output.text.toList = front ++ (stem ++ moduleEnding).toList) : project.Takes output := by
  have relative := FilePath.isAbsolute_of_bare bare
  refine ⟨bare, ?_, ?_⟩
  · have ends := FilePath.fileName_iff.mp named
    have joined : (project.output.join output).fileName? = some (stem ++ moduleEnding) := by
      refine FilePath.fileName_iff.mpr ⟨?_, ends.2⟩
      rw [FilePath.names_join _ relative, List.getLast?_append, ends.1]
      rfl
    rw [joined]
    rfl
  · obtain ⟨front, whole⟩ := ends
    obtain ⟨ahead, joined, -⟩ := letters_join project.output relative
    have ends : moduleEnding.toList <:+ (project.output.join output).text.toList := by
      rw [joined, whole, String.toList_append, ← List.append_assoc, ← List.append_assoc]
      exact List.suffix_append _ _
    have unlike : ∀ text ∈ rootName :: GenerationRun.fixedTargets, ¬ moduleEnding.toList <:+ text.toList := by decide
    exact fun fixed => unlike _ fixed ends

/-- Manifests at different paths have different modules. -/
theorem exists_outputs {manifests : List FilePath} (based : project.source.components ≠ [])
    (found : ∀ manifest ∈ manifests, Found project.source manifest ∧
      ∃ stem, manifest.fileName?.bind manifestStem? = some stem)
    (apart : manifests.Pairwise fun first second => first.same second = false) :
    ∃ outputs, List.Forall₂ (fun manifest output => project.relativeOutput manifest = .ok output ∧
        Mirrors project.source manifest output ∧ project.Takes output) manifests outputs ∧
      outputs.Pairwise fun first second => first.same second = false := by
  induction manifests with
  | nil => exact ⟨[], .nil, .nil⟩
  | cons manifest manifests ih =>
    obtain ⟨differs, apart⟩ := List.pairwise_cons.mp apart
    obtain ⟨⟨here, stem, named⟩, found⟩ := List.forall_mem_cons.mp found
    obtain ⟨output, placed, mirrors, bare, last, ends⟩ := exists_relativeOutput based here named
    obtain ⟨outputs, others, outputsApart⟩ := ih found apart
    refine ⟨output :: outputs, .cons ⟨placed, mirrors, takes_output bare last ends⟩ others,
      List.pairwise_cons.mpr ⟨fun other listed => ?_, outputsApart⟩⟩
    obtain ⟨origin, among, -, mirrored, -⟩ := exists_of_mem_right others listed
    exact mirrors.apart mirrored (differs origin among)

end Relative

section Load
variable {tree : FileTree} {path : FilePath} {builder : Builder}

theorem isLocked_of_load (loaded : Manifest.load tree path = .ok builder) : builder.isLocked = true := by
  have built : ∀ {manifest : Manifest} {base}, manifest.built path base = .ok builder → builder.isLocked = true :=
    fun made => Manifest.isLocked_of_build (mapError_eq_ok.mp made)
  obtain ⟨links, some⟩ : ∃ links, Manifest.linkLimit tree = links + 1 :=
    Nat.exists_eq_add_one_of_ne_zero (Nat.mul_ne_zero (Nat.succ_ne_zero _) (Nat.succ_ne_zero _))
  have opened := Manifest.loadLinked_succ tree links [] path
  rw [Manifest.load, some] at loaded
  rw [List.map_nil, loaded, if_neg List.not_mem_nil] at opened
  split at opened
  · cases opened
  split at opened
  · cases opened
  split at opened
  · exact built opened.symm
  · obtain ⟨base, -, made⟩ := bind_eq_ok.mp opened.symm
    exact built made

end Load

/-- What a module is written from, for a manifest that has been loaded. -/
def Project.request (project : Project) (builder : Builder) (output : FilePath) : Enrollment :=
  { builder, output := project.output.join output, options := project.options }

/-- The generator of a request that owns its target. -/
def Enrollment.owner (request : Enrollment) : Generator :=
  { claim := request.claim, output := request.output, ownsTarget := true }

section Adding
variable {project : Project} {tree : FileTree} {batch next : Batch} {owners : List Enrollment}
  {checker : CheckerSettings} {manifests outputs : List FilePath} {builders : List Builder}

theorem Project.Takes.components {output : FilePath} (takes : project.Takes output) :
    (project.output.join output).components = project.output.components ++ output.components := by
  rw [FilePath.components_eq, FilePath.components_eq, FilePath.components_eq output,
    FilePath.anchors_join _ takes.bare, FilePath.names_join _ (FilePath.isAbsolute_of_bare takes.bare), takes.bare,
    List.map_append, List.nil_append, List.append_assoc]

theorem Project.Takes.same_iff {output other : FilePath} (takes : project.Takes output) (also : project.Takes other) :
    (project.output.join output).same (project.output.join other) = output.same other := by
  simp only [FilePath.same, takes.components, also.components, List.append_cancel_left_eq]

/-- A locked builder that is added at a new path owns a target there. -/
theorem add_ok_of_takes {builder : Builder} {output : FilePath}
    (ledger : Ledger project.output checker owners batch.run)
    (given : batch.options = project.options) (takes : project.Takes output) (locked : builder.isLocked = true)
    (new : ∀ owner ∈ owners, owner.output.same (project.output.join output) = false) :
    let request := project.request builder output
    ∃ next, batch.add builder output = (next, .ok ()) ∧ next.options = project.options ∧
      next.generators = batch.generators ++ [request.owner] ∧
      Ledger project.output checker (owners ++ [request]) next.run := by
  intro request
  have relative := FilePath.isAbsolute_of_bare takes.bare
  have claims : request.claims = true := by
    rw [Enrollment.claims, Bool.and_eq_true, Bool.and_eq_true]
    exact ⟨⟨locked, takes.named⟩, decide_eq_true takes.plain⟩
  have others : owners.any (·.output.same request.output) = false :=
    List.any_eq_false.mpr fun owner among => Bool.eq_false_iff.mp (new owner among)
  obtain ⟨run, registered, later⟩ := ledger.owns request claims others
  have entered : Generator.register builder (project.output.join output) project.options batch.run = _ := registered
  refine ⟨{ batch with run, generators := batch.generators ++ [request.owner] }, ?_, given, rfl, later⟩
  rw [Batch.add, relative, if_neg Bool.false_ne_true, ledger.prepared.base, given, entered]
  rfl

/-- Modules that are added for manifests own their targets, one each. -/
theorem addManifests_ok (ledger : Ledger project.output checker owners batch.run)
    (given : batch.options = project.options)
    (loads : List.Forall₂ (fun manifest builder => Manifest.load tree manifest = .ok builder) manifests builders)
    (placed : List.Forall₂ (fun manifest output => project.relativeOutput manifest = .ok output) manifests outputs)
    (takes : ∀ output ∈ outputs, project.Takes output)
    (apart : outputs.Pairwise fun first second => first.same second = false)
    (new : ∀ owner ∈ owners, ∀ output ∈ outputs, owner.output.same (project.output.join output) = false) :
    ∃ next, project.addManifests tree batch manifests = .ok next ∧
      Ledger project.output checker (owners ++ List.zipWith project.request builders outputs) next.run ∧
      next.generators =
        batch.generators ++ (List.zipWith project.request builders outputs).map Enrollment.owner := by
  induction loads generalizing batch owners outputs with
  | nil =>
    cases placed
    exact ⟨batch, rfl, by simpa using ledger, by simp⟩
  | @cons manifest builder manifests builders loaded loads ih =>
    cases placed with
    | @cons _ output _ outputs here placed =>
    obtain ⟨own, takes⟩ := List.forall_mem_cons.mp takes
    obtain ⟨differs, apart⟩ := List.pairwise_cons.mp apart
    obtain ⟨next, added, given, grows, grown⟩ := add_ok_of_takes ledger given own (isLocked_of_load loaded)
      fun owner among => new owner among output List.mem_cons_self
    have fresh : ∀ owner ∈ owners ++ [project.request builder output], ∀ output ∈ outputs,
        owner.output.same (project.output.join output) = false := by
      intro owner among other listed
      rcases List.mem_append.mp among with among | last
      · exact new owner among other (List.mem_cons_of_mem _ listed)
      · rw [List.mem_singleton.mp last]
        exact (own.same_iff (takes other listed)).trans (differs other listed)
    obtain ⟨last, adds, owned, generators⟩ := ih grown given placed takes apart fresh
    refine ⟨last, ?_, ?_, ?_⟩
    · simp only [Project.addManifests, loaded, here, added, bind, Except.bind]
      exact adds
    · simpa using owned
    · rw [generators, grows]
      simp

/-- What is added for manifests has been loaded from each of them. -/
theorem loads_of_added (added : project.addManifests tree batch manifests = .ok next) :
    ∃ builders,
      List.Forall₂ (fun manifest builder => Manifest.load tree manifest = .ok builder) manifests builders := by
  induction manifests generalizing batch with
  | nil => exact ⟨[], .nil⟩
  | cons manifest manifests ih =>
    obtain ⟨builder, loaded, added⟩ := bind_eq_ok.mp added
    obtain ⟨output, -, added⟩ := bind_eq_ok.mp added
    split at added
    · cases added
    · obtain ⟨builders, loads⟩ := ih added
      exact ⟨builder :: builders, .cons loaded loads⟩

/-- A batch that is completed gives the classes of its generators. -/
theorem names_of_completed {files final : FileTree} {names : List String}
    (completed : (batch.complete files).2 = (final, .ok names)) :
    names = batch.generators.map (·.claim.className) := by
  unfold Batch.complete at completed
  split at completed
  next none =>
    cases completed
    rw [none]
    rfl
  next filled =>
    exact (Batch.results_ok filled (congrArg Prod.snd completed)).2

theorem exists_added {manifests outputs : List FilePath} {builders : List Builder}
    (loads : List.Forall₂ (fun manifest builder => Manifest.load tree manifest = .ok builder) manifests builders)
    (placed : List.Forall₂ (fun manifest output => project.relativeOutput manifest = .ok output ∧
      Mirrors project.source manifest output ∧ project.Takes output) manifests outputs)
    (apart : outputs.Pairwise fun first second => first.same second = false) :
    let requests := List.zipWith project.request builders outputs
    ∃ batch, project.addManifests tree (.create project.output project.options project.checker) manifests =
        .ok batch ∧
      batch.generators = requests.map Enrollment.owner ∧ OnePerPath project.output requests batch.run := by
  have takes : ∀ output ∈ outputs, project.Takes output := by
    intro output listed
    obtain ⟨_, -, -, -, takes⟩ := exists_of_mem_right placed listed
    exact takes
  have given : (Batch.create project.output project.options project.checker).options = project.options := rfl
  obtain ⟨batch, added, ledger, generators⟩ := addManifests_ok
    (ledger_create project.output project.checker : Ledger _ _ _ (Batch.run (.create _ project.options _)))
    given loads (placed.imp fun _ _ kept => kept.1) takes apart nofun
  exact ⟨batch, added, generators, ledger.onePerPath⟩

end Adding

/-- What a search below the source finds are the manifests, in the order of their paths. -/
theorem exists_manifests {project : Project} {tree : FileTree} (named : tree.Named)
    (there : tree.hasDirectory project.source = true) :
    ∃ manifests, project.manifests tree = .ok manifests ∧ Sorted manifests ∧
      ∀ manifest ∈ manifests, Found project.source manifest ∧
        ∃ stem, manifest.fileName?.bind manifestStem? = some stem := by
  obtain ⟨files, found, below, apart⟩ := named.filesUnder there
  obtain ⟨sorted, perm⟩ := sorted_insertAll (apart.filter fun path => (path.fileName?.bind manifestStem?).isSome)
  refine ⟨_, ?_, sorted, fun manifest listed => ?_⟩
  · rw [Project.manifests, found]
    rfl
  · obtain ⟨among, named⟩ := List.mem_filter.mp (perm.mem_iff.mp listed)
    exact ⟨below manifest among, Option.isSome_iff_exists.mp named⟩

/-- Two collections in a source directory, one of them in a directory there. -/
def fleet : FileTree :=
  let cars := "class_name = \"Cars\"\nouter = \"Map\"\n\n[[map_keys]]\nname = \"car\"\ndescription = \"The car.\"\n"
  let vans := "class_name = \"Vans\"\nouter = \"Set\"\n\n[[set_elements]]\nname = \"van\"\ndescription = \"The van.\"\n"
  { entries := [(["src"], .directory), (["src", "fleet"], .directory),
      (["src", "fleet", "Cars.collection.toml"], .file cars), (["src", "Vans.collection.toml"], .file vans)] }

end CompositeKeys.Generation
