import CompositeKeys.Proofs.Generation.Claims

/-! How generators enter a run. A generator whose path is new owns a target with the job of writing it, one
whose path has been claimed shares that, and a refused one changes nothing that is executed. -/

namespace CompositeKeys.Generation
open Files Tasks Emission

/-- What a generator has written that owns its target. -/
def orderOf (root : FilePath) (builder : Builder) (options : CompileOptions) (output : FilePath) :
    ModuleOrder :=
  { configuration := builder.configuration, options, output
    helperPrefix := importPrefix output (GenerationRun.helperDirectoryOf root) }

def ModuleOrder.job (order : ModuleOrder) : Job := ⟨order.output.text, order.work⟩

def ModuleOrder.claim (order : ModuleOrder) : Claim :=
  { className := order.configuration.className, target := order.output.text }

/-- A run that has been entered by generators and not been started. -/
structure Prepared (root : FilePath) (checker : CheckerSettings) (workspace : Workspace)
    (orders : List ModuleOrder) (run : GenerationRun) : Prop where
  base : run.root = root
  planned : Planned run.machine.graph (orders.map ModuleOrder.job) (lastJobs root checker)
  unrun : run.machine.runs = []
  unstarted : Journal.starts run.machine.journal = []
  world : run.machine.world = workspace
  outcome : run.outcome = none
  unclaimed : ∀ path, run.claim? path = none → ∀ order ∈ orders, order.output.same path = false
  claimed : ∀ path claim, run.claim? path = some claim →
    ∃ order ∈ orders, order.output.same path = true ∧ order.claim = claim

theorem FilePath.same_self (path : FilePath) : path.same path = true := by
  simp [FilePath.same]

theorem FilePath.same_iff {first second : FilePath} :
    first.same second = true ↔ first.components = second.components := by
  simp [FilePath.same]

theorem find?_insertPath {α : Type} {path : FilePath} {value : α} {entries : List (FilePath × α)}
    {holds : FilePath × α → Bool} (only : holds (path, value) = true → entries.find? holds = none) :
    (insertPath path value entries).find? holds =
      if holds (path, value) then some (path, value) else entries.find? holds := by
  induction entries with
  | nil =>
    rw [insertPath, List.find?_cons]
    cases holds (path, value) <;> rfl
  | cons entry entries ih =>
    unfold insertPath
    split
    · rw [List.find?_cons]
      cases holds (path, value) <;> rfl
    · have rest : holds (path, value) = true → entries.find? holds = none := by
        intro same
        have none := only same
        rw [List.find?_cons] at none
        split at none
        · cases none
        · exact none
      rw [List.find?_cons, ih rest, List.find?_cons]
      cases own : holds (path, value) with
      | true =>
        have none := List.find?_eq_none.mp (only own) entry (.head _)
        rw [Bool.eq_false_iff.mpr none]
      | false => rfl

variable {root : FilePath} {checker : CheckerSettings} {workspace : Workspace}
  {orders : List ModuleOrder} {run : GenerationRun}

theorem prepared_create (root : FilePath) (checker : CheckerSettings) :
    Prepared root checker {} [] (.create root checker) := by
  have machine := create_machine root checker
  refine ⟨rfl, planned_create root checker, ?_, ?_, ?_, rfl, nofun, nofun⟩
  · rw [machine]
  · rw [machine]
    rfl
  · rw [machine]

theorem claim?_insert {next : GenerationRun} {output : FilePath} {claim : Claim}
    (known : next.known = insertPath output claim run.known) (unknown : run.claim? output = none)
    (path : FilePath) :
    next.claim? path = if output.same path then some claim else run.claim? path := by
  have absent := Option.map_eq_none_iff.mp unknown
  have only : output.same path = true → run.known.find? (fun entry => entry.1.same path) = none := by
    intro same
    refine List.find?_eq_none.mpr fun entry member found => List.find?_eq_none.mp absent entry member ?_
    exact FilePath.same_iff.mpr ((FilePath.same_iff.mp found).trans (FilePath.same_iff.mp same).symm)
  have found := @find?_insertPath Claim output claim run.known (fun entry => entry.1.same path) only
  rw [GenerationRun.claim?, known, found]
  cases output.same path <;> rfl

section Claim

variable (prepared : Prepared root checker workspace orders run)
include prepared

theorem Prepared.withGraph {graph : Tasks.Graph (Program Workspace)}
    (planned : Planned graph (orders.map ModuleOrder.job) (lastJobs root checker)) :
    Prepared root checker workspace orders { run with machine := { run.machine with graph } } :=
  ⟨prepared.base, planned, prepared.unrun, prepared.unstarted, prepared.world, prepared.outcome,
    prepared.unclaimed, prepared.claimed⟩

theorem Prepared.job_ne {output : FilePath} (unknown : run.claim? output = none) :
    ∀ job ∈ orders.map ModuleOrder.job, job.target ≠ output.text := by
  intro job member same
  obtain ⟨order, listed, rfl⟩ := List.mem_map.mp member
  have apart := prepared.unclaimed output unknown order listed
  have equal : order.output = output := congrArg FilePath.mk same
  rw [equal, FilePath.same_self] at apart
  cases apart

/-- A new path gets a target and the job of writing it. -/
theorem Prepared.claim_new {builder : Builder} {options : CompileOptions} {output : FilePath}
    (unknown : run.claim? output = none)
    (new : run.machine.graph.target? output.text = none) :
    ∃ claimed, run.claim output builder.className =
        (claimed, .ok ((orderOf root builder options output).claim, true)) ∧ claimed.root = root ∧
      ∃ machine, claimed.machine.operate (.addTask output.text
          ((orderOf root builder options output).work.task output.text)) = (machine, .ok ()) ∧
        Prepared root checker workspace (orders ++ [orderOf root builder options output])
          { claimed with machine } := by
  obtain ⟨graph, accepted, entered⟩ := prepared.planned.accepts output.text builder.className new
  obtain ⟨after, added, planned⟩ := @Planned.entered _ _ _ _ prepared.planned
    (orderOf root builder options output).job entered
  have claim : run.claim output builder.className =
      ({ run with
          machine := { run.machine with graph }
          known := insertPath output (orderOf root builder options output).claim run.known },
        .ok ((orderOf root builder options output).claim, true)) := by
    have early : run.status = .notStarted := prepared.planned.early
    simp only [GenerationRun.claim, unknown, early, ne_eq, not_true_eq_false, if_false, accepted]
    rfl
  have operated : Machine.operate { run.machine with graph } (.addTask output.text
      ((orderOf root builder options output).work.task output.text)) =
      (Machine.record { run.machine with graph := after } (.added output.text
        ((orderOf root builder options output).work.task output.text)), .ok ()) := by
    have added : graph.operate? (.addTask output.text
      ((orderOf root builder options output).work.task output.text)) = .ok after := added
    simp only [Machine.operate, added]
  refine ⟨_, claim, prepared.base, _, operated, prepared.base, ?_, prepared.unrun, prepared.unstarted,
    prepared.world, prepared.outcome, fun path unclaimed order member => ?_, fun path claim found => ?_⟩
  · rw [List.map_append]
    exact planned
  · rw [claim?_insert rfl unknown] at unclaimed
    split at unclaimed
    · cases unclaimed
    next other =>
      rcases List.mem_append.mp member with earlier | last
      · exact prepared.unclaimed path unclaimed order earlier
      · rw [List.mem_singleton.mp last]
        exact Bool.eq_false_iff.mpr other
  · rw [claim?_insert rfl unknown] at found
    split at found
    next same =>
      exact ⟨_, List.mem_append_right _ (.head _), same, Option.some.inj found⟩
    · obtain ⟨order, member, same, told⟩ := prepared.claimed path claim found
      exact ⟨order, List.mem_append_left _ member, same, told⟩

/-- What is there already and has not been claimed is refused. -/
theorem Prepared.claim_old (className : String) {output : FilePath}
    (unknown : run.claim? output = none)
    (old : (run.machine.graph.target? output.text).isSome = true) :
    ∃ claimed error, run.claim output className = (claimed, .error error) ∧
      Prepared root checker workspace orders claimed := by
  obtain ⟨graph, error, refused, planned⟩ :=
    prepared.planned.refuses output.text className old (prepared.job_ne unknown)
  refine ⟨_, .task error, ?_, prepared.withGraph planned⟩
  have early : run.status = .notStarted := prepared.planned.early
  simp only [GenerationRun.claim, unknown, early, ne_eq, not_true_eq_false, if_false, refused]

/-- What becomes of a generator that asks to enter a run. -/
inductive Registered (root : FilePath) (checker : CheckerSettings) (workspace : Workspace)
    (orders : List ModuleOrder) (run : GenerationRun) (order : ModuleOrder) :
    GenerationRun × Except GenerationError Generator → Prop where
  | refused {next : GenerationRun} (error : GenerationError)
      (prepared : Prepared root checker workspace orders next) :
      Registered root checker workspace orders run order (next, .error error)
  | shares (owner : ModuleOrder) (member : owner ∈ orders) (same : owner.output.same order.output = true) :
      Registered root checker workspace orders run order
        (run, .ok { claim := owner.claim, output := order.output, ownsTarget := false })
  | owns {next : GenerationRun} (new : ∀ owner ∈ orders, owner.output.same order.output = false)
      (prepared : Prepared root checker workspace (orders ++ [order]) next) :
      Registered root checker workspace orders run order
        (next, .ok { claim := order.claim, output := order.output, ownsTarget := true })

theorem Prepared.register (builder : Builder) (options : CompileOptions) (output : FilePath) :
    Registered root checker workspace orders run (orderOf root builder options output)
      (Generator.register builder output options run) := by
  have fresh := prepared.unclaimed
  unfold Generator.register
  split
  · exact .refused _ prepared
  split
  · exact .refused _ prepared
  cases known : run.claim? output with
  | some claim =>
    obtain ⟨owner, member, same, told⟩ := prepared.claimed output claim known
    simp only [GenerationRun.claim, known]
    rw [← told]
    exact @Registered.shares _ _ _ _ _ (orderOf root builder options output) owner member same
  | none =>
    cases old : run.machine.graph.target? output.text with
    | some node =>
      obtain ⟨claimed, error, refused, prepared⟩ :=
        prepared.claim_old builder.className known (by rw [old]; rfl)
      simp only [refused]
      exact .refused error prepared
    | none =>
      obtain ⟨claimed, accepted, base, machine, added, prepared⟩ := @Prepared.claim_new _ _ _ _ _ prepared
        builder options output known old
      have order : { configuration := builder.configuration, options, output
                     helperPrefix := importPrefix output claimed.helperDirectory : ModuleOrder } =
          orderOf root builder options output := by
        rw [GenerationRun.helperDirectory, base]
        rfl
      simp only [accepted, order]
      rw [show (orderOf root builder options output).claim.target = output.text from rfl, added]
      exact .owns (fresh output known) prepared

end Claim

end CompositeKeys.Generation
