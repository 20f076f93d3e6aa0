import CompositeKeys.Generation.Run
import CompositeKeys.Proofs.Tasks.Budget

/-! What a run of generators is to do, told without the graph of its targets: the modules are written in
the order in which their paths have been claimed, then the helper modules are copied, and then the modules
are checked. The first job that fails ends everything. -/

namespace CompositeKeys.Generation
open Files Tasks

/-- A piece of work and the target that does it. -/
structure Job where
  target : String
  work : Work

namespace Job

def task (job : Job) : Program Workspace := job.work.task job.target

/-- Does one job after another, up to the first that fails: those that have been begun, what they leave
and what they come to. -/
def runAll : List Job → Workspace → List Job × Workspace × Outcome
  | [], workspace => ([], workspace, .ok ())
  | job :: rest, workspace =>
    match job.work workspace with
    | (left, .error error) => ([job], left, .error (.failed job.target error.message))
    | (next, .ok ()) =>
      let (begun, left, outcome) := runAll rest next
      (job :: begun, left, outcome)

/-- The job at which everything has ended: those before it have been done, and those after it have not
been begun. -/
def Stops (jobs begun : List Job) (workspace left : Workspace) (error : TaskError) : Prop :=
  ∃ before job after between reason, jobs = before ++ job :: after ∧ begun = before ++ [job] ∧
    runAll before workspace = (before, between, .ok ()) ∧
    job.work between = (left, .error reason) ∧ error = .failed job.target reason.message

theorem runAll_cons_ok {job : Job} {jobs begun : List Job} {workspace left : Workspace}
    (ran : runAll (job :: jobs) workspace = (begun, left, .ok ())) :
    ∃ next others, job.work workspace = (next, .ok ()) ∧
      runAll jobs next = (others, left, .ok ()) ∧ begun = job :: others := by
  unfold runAll at ran
  split at ran
  · cases ran
  next next worked =>
    rcases rest : runAll jobs next with ⟨others, between, outcome⟩
    rw [rest] at ran
    cases ran
    exact ⟨next, others, worked, rest, rfl⟩

theorem runAll_ok {jobs begun : List Job} {workspace left : Workspace}
    (ran : runAll jobs workspace = (begun, left, .ok ())) : begun = jobs := by
  induction jobs generalizing workspace begun with
  | nil =>
    cases ran
    rfl
  | cons job jobs ih =>
    obtain ⟨next, others, _, rest, rfl⟩ := runAll_cons_ok ran
    rw [ih rest]

theorem runAll_error {jobs begun : List Job} {workspace left : Workspace} {error : TaskError}
    (ran : runAll jobs workspace = (begun, left, .error error)) :
    Stops jobs begun workspace left error := by
  induction jobs generalizing workspace begun with
  | nil => cases ran
  | cons job jobs ih =>
    unfold runAll at ran
    split at ran
    next reason failed =>
      cases ran
      exact ⟨[], job, jobs, workspace, reason, rfl, rfl, rfl, failed, rfl⟩
    next next worked =>
      rcases rest : runAll jobs next with ⟨others, remains, outcome⟩
      rw [rest] at ran
      cases ran
      obtain ⟨before, last, after, between, reason, split, cut, done, failed, same⟩ := ih rest
      refine ⟨job :: before, last, after, between, reason, congrArg (job :: ·) split,
        congrArg (job :: ·) cut, ?_, failed, same⟩
      simp only [runAll, worked, done]

theorem runAll_append {first last : List Job} {workspace : Workspace} :
    runAll (first ++ last) workspace = match runAll first workspace with
      | (begun, left, .error error) => (begun, left, .error error)
      | (begun, between, .ok ()) =>
        let (others, left, outcome) := runAll last between
        (begun ++ others, left, outcome) := by
  induction first generalizing workspace with
  | nil => rfl
  | cons job first ih =>
    rcases worked : job.work workspace with ⟨next, result⟩
    cases result with
    | error reason => simp only [List.cons_append, runAll, worked]
    | ok =>
      simp only [List.cons_append, runAll, worked, ih]
      rcases runAll first next with ⟨begun, between, outcome⟩
      cases outcome <;> rfl

theorem task_brief (job : Job) : job.task.Brief := fun _ => ⟨_, rfl⟩

theorem task_detached (job : Job) : job.task.Detached := fun _ => trivial

def duties (job : Job) : List (Duty Workspace) := [.enter job.target, .perform job.target job.task]

def tally (tally : Tally Workspace) (begun : List Job) (left : Workspace) : Tally Workspace :=
  { entered := (begun.map Job.target).reverse ++ tally.entered
    started := tally.started ++ begun.map fun job => (job.target, job.task)
    world := left }

theorem tally_cons (tally : Tally Workspace) (job : Job) (begun : List Job) (next left : Workspace) :
    Job.tally tally (job :: begun) left = Job.tally
      ⟨job.target :: tally.entered, tally.started ++ [(job.target, job.task)], next⟩ begun left := by
  simp [Job.tally]

end Job

section Report

variable {graph : Graph (Program Workspace)} {jobs modules last : List Job}

/-- Targets that depend on nothing and have one job each are toured one after another. -/
theorem ahead_jobs (agenda : List Stop) {entered : List String}
    (alone : ∀ job ∈ jobs, graph.subtargets job.target = [] ∧ graph.pending job.target = [job.task])
    (distinct : (jobs.map Job.target).Nodup) (fresh : ∀ job ∈ jobs, job.target ∉ entered) :
    graph.ahead entered ((jobs.map Job.target).map .enter ++ agenda) =
      jobs.flatMap Job.duties ++ graph.ahead ((jobs.map Job.target).reverse ++ entered) agenda := by
  induction jobs generalizing entered with
  | nil => rfl
  | cons job jobs ih =>
    obtain ⟨⟨needless, single⟩, others⟩ := List.forall_mem_cons.mp alone
    obtain ⟨first, distinct⟩ := List.nodup_cons.mp distinct
    obtain ⟨unentered, fresh⟩ := List.forall_mem_cons.mp fresh
    have later : ∀ other ∈ jobs, other.target ∉ job.target :: entered := by
      intro other member known
      rcases List.mem_cons.mp known with same | known
      · exact first (same ▸ List.mem_map_of_mem member)
      · exact fresh other member known
    rw [List.map_cons, List.map_cons, List.cons_append, Graph.ahead_enter unentered, needless,
      List.map_nil, List.nil_append, Graph.ahead_leave, single, ih others distinct later,
      List.reverse_cons, List.append_assoc]
    rfl

theorem carryOut_jobs (present : ∀ job ∈ jobs, (graph.target? job.target).isSome = true)
    (rest : List (Duty Workspace)) (tally : Tally Workspace) :
    graph.carryOut (jobs.flatMap Job.duties ++ rest) tally =
      match Job.runAll jobs tally.world with
      | (begun, left, .ok ()) => graph.carryOut rest (Job.tally tally begun left)
      | (begun, left, .error error) => (Job.tally tally begun left, .error error) := by
  induction jobs generalizing tally with
  | nil =>
    show graph.carryOut rest tally = graph.carryOut rest (Job.tally tally [] tally.world)
    rw [Job.tally, List.map_nil, List.map_nil, List.append_nil]
    rfl
  | cons job jobs ih =>
    obtain ⟨here, others⟩ := List.forall_mem_cons.mp present
    have entered : graph.carryOut ((job :: jobs).flatMap Job.duties ++ rest) tally =
        ({ tally with
            entered := job.target :: tally.entered
            started := tally.started ++ [(job.target, job.task)] } : Tally Workspace).unlessFailed
          (graph.carryOut (jobs.flatMap Job.duties ++ rest))
          ((job.work tally.world).2.mapError fun error => .failed job.target error.message,
            (job.work tally.world).1) := if_pos here
    rw [entered]
    rcases worked : job.work tally.world with ⟨next, result⟩
    cases result with
    | error reason =>
      simp only [Job.runAll, worked]
      rfl
    | ok =>
      simp only [Job.runAll, worked]
      refine (ih others _).trans ?_
      rcases Job.runAll jobs next with ⟨begun, left, outcome⟩
      have same := Job.tally_cons tally job begun next left
      dsimp only
      cases outcome with
      | error error => exact congrArg (·, Except.error error) same.symm
      | ok => exact congrArg (graph.carryOut rest) same.symm

/-- A root target over that of the modules and others, with a job for each target but those two. -/
structure Arranged (graph : Graph (Program Workspace)) (modules last : List Job) : Prop where
  rooted : (graph.target? rootName).isSome = true
  root : graph.subtargets rootName = GenerationRun.modulesTarget :: last.map Job.target ∧
    graph.pending rootName = []
  held : (graph.target? GenerationRun.modulesTarget).isSome = true
  gathers : graph.subtargets GenerationRun.modulesTarget = modules.map Job.target ∧
    graph.pending GenerationRun.modulesTarget = []
  present : ∀ job ∈ modules ++ last, (graph.target? job.target).isSome = true
  alone : ∀ job ∈ modules ++ last, graph.subtargets job.target = [] ∧
    graph.pending job.target = [job.task]
  distinct : ((modules ++ last).map Job.target).Nodup

theorem Arranged.ahead (arranged : Arranged graph modules last) :
    graph.ahead [] [.enter rootName] = .enter rootName :: .enter GenerationRun.modulesTarget ::
      (modules.flatMap Job.duties ++ (last.flatMap Job.duties ++ [])) := by
  have plain : ∀ job ∈ modules ++ last, job.target ∉ [GenerationRun.modulesTarget, rootName] := by
    intro job member known
    have single := (arranged.alone job member).2
    rcases List.mem_cons.mp known with same | known
    · cases (same ▸ single).symm.trans arranged.gathers.2
    · cases (List.mem_singleton.mp known ▸ single).symm.trans arranged.root.2
  have split : (modules.map Job.target ++ last.map Job.target).Nodup :=
    List.map_append ▸ arranged.distinct
  obtain ⟨first, second, apart⟩ := List.nodup_append.mp split
  have written : graph.ahead [GenerationRun.modulesTarget, rootName]
      ((modules.map Job.target).map .enter ++ (.leave GenerationRun.modulesTarget ::
        ((last.map Job.target).map .enter ++ [.leave rootName]))) = _ :=
    ahead_jobs _ (fun job member => arranged.alone job (List.mem_append_left _ member)) first
      fun job member => plain job (List.mem_append_left _ member)
  have later : ∀ job ∈ last,
      job.target ∉ (modules.map Job.target).reverse ++ [GenerationRun.modulesTarget, rootName] := by
    intro job member known
    rcases List.mem_append.mp known with earlier | fixed
    · exact apart _ (List.mem_reverse.mp earlier) _ (List.mem_map_of_mem member) rfl
    · exact plain job (List.mem_append_right _ member) fixed
  rw [Graph.ahead_enter List.not_mem_nil, arranged.root.1, List.map_cons, List.cons_append,
    Graph.ahead_enter (by simp [rootName, GenerationRun.modulesTarget]), arranged.gathers.1, written,
    Graph.ahead_leave, arranged.gathers.2, List.map_nil, List.nil_append,
    ahead_jobs _ (fun job member => arranged.alone job (List.mem_append_right _ member)) second later,
    Graph.ahead_leave, arranged.root.2, Graph.ahead_nil]
  rfl

/-- A run of the root target does the jobs. -/
theorem Arranged.report (arranged : Arranged graph modules last) (workspace : Workspace) :
    let (begun, left, outcome) := Job.runAll (modules ++ last) workspace
    (graph.report workspace).1.started = begun.map (fun job => (job.target, job.task)) ∧
      (graph.report workspace).1.world = left ∧ (graph.report workspace).2 = outcome := by
  have entered : graph.report workspace = graph.carryOut ((modules ++ last).flatMap Job.duties ++ [])
      { entered := [GenerationRun.modulesTarget, rootName], world := workspace } := by
    rw [Graph.report, arranged.ahead, Graph.carryOut, if_pos arranged.rooted, Graph.carryOut,
      if_pos arranged.held, List.flatMap_append, List.append_assoc]
  rw [entered, carryOut_jobs arranged.present]
  rcases Job.runAll (modules ++ last) workspace with ⟨begun, left, outcome⟩
  cases outcome <;> exact ⟨rfl, rfl, rfl⟩

end Report

end CompositeKeys.Generation
