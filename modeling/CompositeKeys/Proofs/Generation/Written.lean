import CompositeKeys.Proofs.Files.Changes
import CompositeKeys.Proofs.Generation.Completion

/-! What the jobs of a run leave in the tree of files. Each module is put at the place of its path, then the
helper modules are put into their directory; a file stays that nothing else is put in place of. -/

namespace CompositeKeys.Generation
open Files FileTree Tasks Emission

def ModuleOrder.source (order : ModuleOrder) : Except EmissionError SourceModule :=
  SourceModule.ofConfiguration order.configuration order.options order.helperPrefix

/-- The helper modules that a module imports. -/
def ModuleOrder.helpers (order : ModuleOrder) : HelperUse :=
  (order.source.toOption.map SourceModule.helpers).getD {}

def helpersOf (orders : List ModuleOrder) : HelperUse :=
  orders.foldl (fun use order => use.union order.helpers) {}

/-- The modules that are checked once they have been written. -/
def checkedOf (orders : List ModuleOrder) : List FilePath :=
  orders.flatMap fun order => if order.options.checkedTypes then [order.output] else []

theorem ModuleOrder.work_ok {order : ModuleOrder} {workspace next : Workspace}
    (worked : order.work workspace = (next, .ok ())) :
    ∃ source made, order.source = .ok source ∧ Changes [] workspace.files made ∧
      made.write order.output source.text = .ok next.files ∧
      next.helpers = workspace.helpers.union order.helpers ∧
      next.toCheck = workspace.toCheck ++ checkedOf [order] := by
  unfold work at worked
  split at worked
  · cases worked
  next source generated =>
  split at worked
  next made _ near =>
  have created : Changes [] workspace.files made := by
    split at near
    next directory _ =>
      have all := changes_createAll workspace.files directory
      rw [near] at all
      exact all
    · cases near
      exact .refl _
  split at worked
  · cases worked
  next written put =>
    obtain ⟨_, _, put⟩ := bind_eq_ok.mp put
    cases worked
    have helpers : order.helpers = source.helpers := by
      have same : order.source = .ok source := generated
      rw [helpers, same]
      rfl
    refine ⟨source, _, generated, created, put, ?_, ?_⟩
    · rw [helpers]
    · exact congrArg (workspace.toCheck ++ ·) (List.append_nil _).symm

/-- What has been made of a tree of files once some modules are written. -/
structure Written (files : FileTree) (orders : List ModuleOrder) (workspace : Workspace) : Prop where
  linkless : workspace.files.Linkless
  changes : Changes (orders.map fun order => files.place order.output) files workspace.files
  modules : ∀ order ∈ orders, ∃ source, order.source = .ok source ∧
    workspace.files.Lies order.output source.text
  helpers : workspace.helpers = helpersOf orders
  toCheck : workspace.toCheck = checkedOf orders


section Modules

variable {files : FileTree} {orders : List ModuleOrder} {workspace next : Workspace}

theorem Written.work (written : Written files orders workspace) {order : ModuleOrder}
    (worked : order.work workspace = (next, .ok ()))
    (apart : files.place order.output ∉ orders.map fun order => files.place order.output) :
    Written files (orders ++ [order]) next := by
  obtain ⟨source, made, generated, created, put, helpers, toCheck⟩ := ModuleOrder.work_ok worked
  obtain ⟨changed, lies⟩ := write_ok (created.linkless written.linkless) put
  have changes := created.trans changed
  have placed : made.place order.output = files.place order.output :=
    (created.place _).trans (written.changes.place _)
  rw [placed] at changes
  refine ⟨changes.linkless written.linkless, ?_, fun other member => ?_, ?_, ?_⟩
  · rw [List.map_append]
    exact written.changes.trans changes
  · rcases List.mem_append.mp member with earlier | last
    · obtain ⟨source, generated, lies⟩ := written.modules other earlier
      refine ⟨source, generated, lies.stay changes ?_⟩
      rw [written.changes.place, List.nil_append, List.mem_singleton]
      exact fun same => apart (same ▸ List.mem_map_of_mem earlier)
    · rw [List.mem_singleton.mp last]
      exact ⟨source, generated, lies⟩
  · rw [helpers, written.helpers, helpersOf, helpersOf, List.foldl_append]
    rfl
  · rw [toCheck, written.toCheck, checkedOf, checkedOf, checkedOf, List.flatMap_append]

theorem Written.runAll (written : Written files orders workspace) {rest : List ModuleOrder}
    {begun : List Job} (ran : Job.runAll (rest.map ModuleOrder.job) workspace = (begun, next, .ok ()))
    (apart : ((orders ++ rest).map fun order => files.place order.output).Nodup) :
    Written files (orders ++ rest) next := by
  induction rest generalizing orders workspace begun with
  | nil =>
    cases ran
    exact (List.append_nil orders).symm ▸ written
  | cons order rest ih =>
    obtain ⟨between, more, worked, others, _⟩ := Job.runAll_cons_ok ran
    rw [List.append_cons] at apart ⊢
    refine ih (written.work worked ?_) others apart
    have first : (orders.map (fun order => files.place order.output) ++
        [files.place order.output]).Nodup := by
      rw [List.map_append, List.map_append] at apart
      exact apart.of_append_left
    exact fun member => List.disjoint_of_nodup_append first member (.head _)

end Modules

section Helpers

variable {directory : FilePath} {files tree next : FileTree} {wanted : List HelperFile}

theorem writeHelpers_ok (linkless : tree.Linkless)
    (wrote : writeHelpers directory tree wanted = (next, .ok ()))
    (apart : (wanted.map fun file => tree.place (directory.join ⟨file.name⟩)).Nodup) :
    Changes (wanted.map fun file => tree.place (directory.join ⟨file.name⟩)) tree next ∧
      ∀ file ∈ wanted, next.Lies (directory.join ⟨file.name⟩) file.text := by
  induction wanted generalizing tree with
  | nil =>
    cases wrote
    exact ⟨.refl _, List.forall_mem_nil _⟩
  | cons file wanted ih =>
    rw [writeHelpers] at wrote
    split at wrote
    next middle put =>
      obtain ⟨changed, lies⟩ := write_ok linkless put
      have placed : (wanted.map fun file => middle.place (directory.join ⟨file.name⟩)) =
          wanted.map fun file => tree.place (directory.join ⟨file.name⟩) :=
        List.map_congr_left fun file _ => changed.place _
      obtain ⟨first, rest⟩ := List.nodup_cons.mp apart
      obtain ⟨later, others⟩ := ih (changed.linkless linkless) wrote (placed ▸ rest)
      refine ⟨changed.trans (placed ▸ later), fun other member => ?_⟩
      rcases List.mem_cons.mp member with rfl | member
      · refine lies.stay later ?_
        rw [placed, changed.place]
        exact first
      · exact others other member
    · cases wrote

theorem copyHelpers_ok {workspace next : Workspace} (linkless : workspace.files.Linkless)
    (worked : copyHelpers directory workspace = (next, .ok ()))
    (apart : ((helperFiles workspace.helpers).map fun file =>
      workspace.files.place (directory.join ⟨file.name⟩)).Nodup) :
    next.toCheck = workspace.toCheck ∧
      Changes ((helperFiles workspace.helpers).map fun file =>
        workspace.files.place (directory.join ⟨file.name⟩)) workspace.files next.files ∧
      ∀ file ∈ helperFiles workspace.helpers, next.files.Lies (directory.join ⟨file.name⟩) file.text := by
  unfold copyHelpers at worked
  split at worked
  next none =>
    cases worked
    rw [none]
    exact ⟨rfl, .refl _, List.forall_mem_nil _⟩
  · have made := changes_createAll workspace.files directory
    dsimp only at worked
    split at worked
    next ready all =>
      rw [all] at made
      rcases wrote : writeHelpers directory ready (helperFiles workspace.helpers) with ⟨copied, _ | _⟩
      · rw [wrote] at worked
        cases worked
      · rw [wrote] at worked
        cases worked
        have placed : ((helperFiles workspace.helpers).map fun file =>
              ready.place (directory.join ⟨file.name⟩)) =
            (helperFiles workspace.helpers).map fun file =>
              workspace.files.place (directory.join ⟨file.name⟩) :=
          List.map_congr_left fun file _ => made.place _
        obtain ⟨changes, lies⟩ := writeHelpers_ok (made.linkless linkless) wrote (placed ▸ apart)
        exact ⟨rfl, placed ▸ made.trans changes, lies⟩
    next failed =>
      rcases all : workspace.files.createAll directory with ⟨files, _ | _⟩
      · rw [all] at worked
        cases worked
      · exact absurd all (failed files)

end Helpers

/-- Where a helper module is copied to. -/
def helperPath (root : FilePath) (file : HelperFile) : FilePath :=
  (GenerationRun.helperDirectoryOf root).join ⟨file.name⟩

theorem helper_plain {use : HelperUse} {file : HelperFile} (member : file ∈ helperFiles use) :
    FilePath.Plain ⟨file.name⟩ ∧ FilePath.names ⟨file.name⟩ = [file.name] := by
  have either : file.name = "Hasher.mjs" ∨ file.name = "Composite.mjs" := by
    unfold helperFiles at member
    rcases List.mem_append.mp member with member | member <;> split at member
    · exact .inl (congrArg HelperFile.name (List.mem_singleton.mp member))
    · cases member
    · exact .inr (congrArg HelperFile.name (List.mem_singleton.mp member))
    · cases member
  rcases either with same | same
  · rw [same]
    exact ⟨by decide +kernel, by decide +kernel⟩
  · rw [same]
    exact ⟨by decide +kernel, by decide +kernel⟩

theorem helper_below (root : FilePath) {use : HelperUse} {file : HelperFile}
    (member : file ∈ helperFiles use) : root.Below (helperPath root file) := by
  have directory : FilePath.Plain ⟨helperDirectoryName⟩ := by decide +kernel
  exact ((FilePath.below_self root).join directory).join (helper_plain member).1

theorem helper_names (use : HelperUse) : ((helperFiles use).map HelperFile.name).Nodup := by
  obtain ⟨_ | _, _ | _⟩ := use <;> decide

theorem helper_apart (root : FilePath) (use : HelperUse) (files : FileTree) :
    ((helperFiles use).map fun file => files.place (helperPath root file)).Nodup := by
  have placed : ((helperFiles use).map fun file => files.place (helperPath root file)) =
      ((helperFiles use).map HelperFile.name).map fun name =>
        files.place (GenerationRun.helperDirectoryOf root) ++ [name] := by
    rw [List.map_map]
    refine List.map_congr_left fun file member => ?_
    obtain ⟨plain, names⟩ := helper_plain member
    rw [helperPath, FilePath.place_join _ _ plain, names]
    rfl
  rw [placed]
  refine (helper_names use).map fun first second same => ?_
  exact (List.cons.inj (List.append_cancel_left same)).1

/-- The helper module that is copied to a path, if any is. -/
def helperAt? (root : FilePath) (wanted : List HelperFile) (path : FilePath) : Option HelperFile :=
  wanted.find? fun file => path.same (helperPath root file)

/-- What a tree of files holds once modules have been written and their helpers have been copied. A module
at the path of a helper is lost. -/
structure Delivered (root : FilePath) (files : FileTree) (orders : List ModuleOrder) (wanted : List HelperFile)
    (written : FileTree) : Prop where
  modules : ∀ order ∈ orders, ∃ source, order.source = .ok source ∧ written.read order.output =
    .ok (((helperAt? root wanted order.output).map HelperFile.text).getD source.text)
  helpers : ∀ file ∈ wanted, written.read (helperPath root file) = .ok file.text
  changes : Changes (orders.map (fun order => files.place order.output) ++
    wanted.map fun file => files.place (helperPath root file)) files written

section Delivered

variable {root : FilePath} {files : FileTree} {orders : List ModuleOrder} {workspace next : Workspace}
  (below : ∀ order ∈ orders, root.Below order.output)
include below

theorem Written.copy (written : Written files orders workspace)
    (worked : copyHelpers (GenerationRun.helperDirectoryOf root) workspace = (next, .ok ())) :
    next.toCheck = checkedOf orders ∧
      Delivered root files orders (helperFiles (helpersOf orders)) next.files := by
  have apart := helper_apart root workspace.helpers workspace.files
  obtain ⟨toCheck, changes, lies⟩ := copyHelpers_ok written.linkless worked apart
  rw [written.helpers] at changes lies
  refine ⟨toCheck.trans written.toCheck, fun order member => ?_, fun file member => (lies file member).read,
    ?_⟩
  · obtain ⟨source, generated, before⟩ := written.modules order member
    refine ⟨source, generated, ?_⟩
    cases helper : helperAt? root (helperFiles (helpersOf orders)) order.output with
    | some file =>
      -- The two paths lead to one place, which now holds the helper.
      have wanted := List.mem_of_find?_eq_some helper
      have same := List.find?_some helper
      have spot := ((below order member).place_eq_iff (helper_below root wanted) next.files).mpr same
      refine (before.replaced changes ?_).read
      rw [← changes.place, spot]
      exact (lies file wanted).entry
    | none =>
      rw [Option.map_none, Option.getD_none]
      refine (before.stay changes fun clash => ?_).read
      obtain ⟨file, wanted, spot⟩ := List.mem_map.mp clash
      have other := List.find?_eq_none.mp helper file wanted
      exact other (((below order member).place_eq_iff (helper_below root wanted) workspace.files).mp spot.symm)
  · have placed : ((helperFiles (helpersOf orders)).map fun file => workspace.files.place (helperPath root file)) =
        (helperFiles (helpersOf orders)).map fun file => files.place (helperPath root file) :=
      List.map_congr_left fun file _ => written.changes.place _
    exact written.changes.trans (placed ▸ changes)

variable (apart : orders.Pairwise fun first second => first.output.same second.output = false)
include apart

theorem outputs_nodup (files : FileTree) : (orders.map fun order => files.place order.output).Nodup := by
  refine List.pairwise_map.mpr (apart.imp_of_mem fun member other differ same => ?_)
  have equal := ((below _ member).place_eq_iff (below _ other) files).mp same
  cases differ.symm.trans equal

/-- No file is written twice, unless a module is put where a helper module goes. -/
theorem places_nodup_iff (files : FileTree) (use : HelperUse) :
    (orders.map (fun order => files.place order.output) ++
        (helperFiles use).map fun file => files.place (helperPath root file)).Nodup ↔
      ∀ order ∈ orders, helperAt? root (helperFiles use) order.output = none := by
  rw [List.nodup_append]
  constructor
  · intro ⟨_, _, disjoint⟩ order member
    refine List.find?_eq_none.mpr fun file wanted same => ?_
    have spot := ((below order member).place_eq_iff (helper_below root wanted) files).mpr same
    exact disjoint _ (List.mem_map_of_mem member) _ (List.mem_map_of_mem wanted) spot
  · intro none
    refine ⟨outputs_nodup below apart files, helper_apart root use files, ?_⟩
    intro first written second copied spot
    obtain ⟨order, member, rfl⟩ := List.mem_map.mp written
    obtain ⟨file, wanted, rfl⟩ := List.mem_map.mp copied
    have same := ((below order member).place_eq_iff (helper_below root wanted) files).mp spot
    exact List.find?_eq_none.mp (none order member) file wanted same

/-- A run that succeeds has delivered its modules when the checker takes over. -/
theorem runAll_delivers {checker : CheckerSettings} {begun : List Job} (linkless : files.Linkless)
    (ran : Job.runAll (jobsOf root checker orders) { files } = (begun, next, .ok ())) :
    ∃ written, Delivered root files orders (helperFiles (helpersOf orders)) written ∧
      next.files = (checker.check written root (checkedOf orders)).1 := by
  rw [jobsOf, Job.runAll_append] at ran
  split at ran
  · cases ran
  next first middle modules =>
  rcases rest : Job.runAll (lastJobs root checker) middle with ⟨others, left, outcome⟩
  rw [rest] at ran
  cases ran
  have start : Written files [] { files } := ⟨linkless, .refl files, List.forall_mem_nil _, rfl, rfl⟩
  have written := start.runAll modules (outputs_nodup below apart files)
  obtain ⟨copied, _, worked, rest, _⟩ := Job.runAll_cons_ok rest
  obtain ⟨toCheck, delivered⟩ := written.copy below worked
  obtain ⟨checked, _, worked, rest, _⟩ := Job.runAll_cons_ok rest
  cases rest
  refine ⟨copied.files, delivered, ?_⟩
  rw [← toCheck]
  exact (congrArg (fun done => done.1.files) worked).symm

end Delivered

end CompositeKeys.Generation
