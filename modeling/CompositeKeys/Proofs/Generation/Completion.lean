import CompositeKeys.Proofs.Generation.Registration

/-! How a run is completed. What has been prepared is launched without a refusal, comes to its end within
the steps that it is given, and has then done its jobs up to the first that has failed. -/

namespace CompositeKeys.Generation
open Files Tasks

variable {root : FilePath} {checker : CheckerSettings} {workspace : Workspace}
  {orders : List ModuleOrder} {run : GenerationRun}

/-- All jobs of a run, in the order in which they are done. -/
def jobsOf (root : FilePath) (checker : CheckerSettings) (orders : List ModuleOrder) : List Job :=
  orders.map ModuleOrder.job ++ lastJobs root checker

/-- A graph whose run does the jobs of a run of generators. -/
structure Launched (graph : Tasks.Graph (Program Workspace)) (root : FilePath) (checker : CheckerSettings)
    (orders : List ModuleOrder) : Prop where
  arranged : Arranged graph (orders.map ModuleOrder.job) (lastJobs root checker)
  launchable : graph.Launchable
  ready : graph.status = .ready

/-- A run under way that will do its jobs, within so many steps. -/
structure UnderWay (graph : Tasks.Graph (Program Workspace)) (workspace : Workspace)
    (machine : Machine Workspace) : Prop where
  stands : ∃ position, Machine.Stands graph (graph.report workspace) machine position
  brisk : machine.Brisk
  within : machine.budget ≤ GenerationRun.stepLimit graph

theorem Prepared.launches (prepared : Prepared root checker workspace orders run) :
    ∃ graph, operateAll run.machine (.markReady :: GenerationRun.fixedTargets.map (.depend rootName)) =
        ({ run.machine with graph }, .ok ()) ∧ Launched graph root checker orders ∧
      UnderWay graph workspace (Machine.start { run.machine with graph } rootName) := by
  obtain ⟨graph, operated, arranged, launchable, ready, brief⟩ := prepared.planned.launch rfl
  have unrun : ∀ target, Machine.progress? { run.machine with graph } target = none := by
    intro target
    rw [Machine.progress?, prepared.unrun]
    rfl
  have runs : ∀ name, (Machine.start { run.machine with graph } rootName).progress? name =
      if name = rootName then some .begun else none := by
    intro name
    rw [Machine.start_progress?, unrun, unrun, Option.getD_none]
  have started : Machine.start { run.machine with graph } rootName =
      { run.machine with graph, runs := (rootName, .begun) :: run.machine.runs } := by
    simp only [Machine.start, unrun]
  have fresh : ∀ name, (Machine.start { run.machine with graph } rootName).Fresh name := by
    intro name
    rw [Machine.Fresh, runs]
    split
    · exact .inr rfl
    · exact .inl rfl
  have stands := @Machine.stands_at_start Workspace { run.machine with graph } unrun prepared.unstarted
  refine ⟨graph, operated, ⟨arranged, launchable, ready⟩, ⟨_, prepared.world ▸ stands⟩, ⟨?_, ?_, ?_⟩, ?_⟩
  · rw [started]
    exact brief
  · intro name progress
    rw [runs]
    split
    · exact fun same => Option.some.inj same ▸ trivial
    · rintro ⟨⟩
  · intro name progress
    rw [runs, started]
    split
    next same =>
      subst same
      exact fun _ => Graph.mem_targetNames launchable.layered.rooted
    · rintro ⟨⟩
  · have within := @budget_le_stepLimit (Machine.start { run.machine with graph } rootName)
      (by rw [started]; exact launchable.layered.sorted) fresh
    rw [started] at within ⊢
    exact within

/-- What a run has come to that is over. -/
structure Over (jobs : List Job) (workspace : Workspace) (machine : Machine Workspace)
    (outcome : Outcome) : Prop where
  comes : (Job.runAll jobs workspace).2.2 = outcome
  started : Journal.starts machine.journal =
    (Job.runAll jobs workspace).1.map fun job => (job.target, job.task)
  world : machine.world = (Job.runAll jobs workspace).2.1
  status : machine.graph.status = if outcome.isOk then .closed else .errored

/-- Closes the graph of a run that has succeeded. -/
def conclude (machine : Machine Workspace) : Outcome → Machine Workspace × Outcome
  | .ok () => machine.operate .markClosed
  | .error error => (machine, .error error)

theorem Launched.concludes {graph : Tasks.Graph (Program Workspace)}
    (launched : Launched graph root checker orders) {machine : Machine Workspace} {outcome : Outcome}
    (ended : machine.outcome? rootName = some outcome)
    (ran : Machine.Ran graph (graph.report workspace) machine) :
    ∃ closed, conclude machine outcome = (closed, outcome) ∧ closed.runs = machine.runs ∧
      Over (jobsOf root checker orders) workspace closed outcome := by
  obtain ⟨started, world, comes⟩ := launched.arranged.report workspace
  have same : (graph.report workspace).2 = outcome := Option.some.inj (ran.outcome.symm.trans ended)
  have started := ran.started.trans started
  have world := ran.world.trans world
  have status := ran.status
  rw [same] at status comes
  cases outcome with
  | error error => exact ⟨machine, rfl, rfl, comes.symm, started, world, status⟩
  | ok =>
    have unfailed : machine.graph.status ≠ .errored := by
      rw [status]
      exact nofun
    have accepted : machine.graph.operate? .markClosed = .ok { machine.graph with status := .closed } :=
      if_neg unfailed
    refine ⟨{ machine with graph := { machine.graph with status := .closed } }, ?_, rfl, comes.symm,
      started, world, rfl⟩
    simp only [conclude, Machine.operate, accepted]

theorem execute_eq {machine : Machine Workspace} {outcome : Outcome}
    (ended : ((machine.start rootName).settle (GenerationRun.stepLimit machine.graph)).outcome? rootName =
      some outcome) :
    GenerationRun.execute machine =
      conclude ((machine.start rootName).settle (GenerationRun.stepLimit machine.graph)) outcome := by
  simp only [GenerationRun.execute, Machine.waitFor, ended]
  cases outcome <;> rfl

/-- A run that is to work on the given files. -/
def GenerationRun.given (run : GenerationRun) (files : FileTree) : GenerationRun :=
  { run with machine := { run.machine with world := { run.machine.world with files } } }

theorem Prepared.given (prepared : Prepared root checker workspace orders run) (files : FileTree) :
    Prepared root checker { workspace with files } orders (run.given files) :=
  ⟨prepared.base, prepared.planned, prepared.unrun, prepared.unstarted,
    congrArg (fun workspace : Workspace => { workspace with files }) prepared.world, prepared.outcome,
    prepared.unclaimed, prepared.claimed⟩

/-- A run that has been prepared is launched, comes to its end alone and is concluded. -/
theorem Prepared.concludes (prepared : Prepared root checker workspace orders run) :
    ∃ graph closed outcome,
      operateAll run.machine (.markReady :: GenerationRun.fixedTargets.map (.depend rootName)) =
        ({ run.machine with graph }, .ok ()) ∧
      ((Machine.start { run.machine with graph } rootName).settle
        (GenerationRun.stepLimit graph)).outcome? rootName = some outcome ∧
      conclude ((Machine.start { run.machine with graph } rootName).settle
        (GenerationRun.stepLimit graph)) outcome = (closed, outcome) ∧
      Over (jobsOf root checker orders) workspace closed outcome := by
  obtain ⟨graph, operated, launched, underWay⟩ := prepared.launches
  obtain ⟨position, stands⟩ := underWay.stands
  have ran := stands.ran_within launched.launchable underWay.brisk underWay.within
  obtain ⟨closed, concluded, _, upshot⟩ := launched.concludes ran.outcome ran
  exact ⟨graph, closed, _, operated, ran.outcome, concluded, upshot⟩

/-- Completing a run that has been prepared does its jobs. -/
theorem Prepared.complete (prepared : Prepared root checker workspace orders run) (files : FileTree) :
    ∃ machine, run.complete files =
        ({ run with
            machine
            outcome := some (Job.runAll (jobsOf root checker orders) { workspace with files }).2.2 },
          (Job.runAll (jobsOf root checker orders) { workspace with files }).2.1.files,
          (Job.runAll (jobsOf root checker orders) { workspace with files }).2.2) ∧
      Over (jobsOf root checker orders) { workspace with files } machine
        (Job.runAll (jobsOf root checker orders) { workspace with files }).2.2 := by
  obtain ⟨graph, closed, outcome, operated, ended, concluded, upshot⟩ := (prepared.given files).concludes
  have executed := (@execute_eq { (run.given files).machine with graph } _ ended).trans concluded
  rw [upshot.comes]
  refine ⟨closed, ?_, upshot⟩
  unfold GenerationRun.given at operated executed
  simp only [GenerationRun.complete, prepared.outcome, GenerationRun.launch, operated]
  rw [executed, upshot.world]

end CompositeKeys.Generation
