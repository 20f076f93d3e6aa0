import CompositeKeys.Proofs.Generation.Plan

/-! The graph of a run while its paths are claimed. A new path gets a target under that of the modules, a
refused one leaves nothing behind that is executed, and once the run is launched the graph is arranged for
the jobs that have been planned. -/

namespace CompositeKeys.Generation
open Files Tasks

variable {graph next : Tasks.Graph (Program Workspace)} {modules last : List Job}
  {machine : Machine Workspace} {target : String}

/-- A graph under declaration, with a target for each job that is planned. -/
structure Planned (graph : Tasks.Graph (Program Workspace)) (modules last : List Job) : Prop where
  layered : graph.Layered
  alive : graph.isDropped = false
  early : graph.status = .notStarted
  root : graph.subtargets rootName = [] ∧ graph.pending rootName = []
  gathers : ∃ text, graph.target? GenerationRun.modulesTarget =
    some ⟨some text, modules.map Job.target, []⟩
  jobs : ∀ job ∈ modules ++ last, ∃ text, graph.target? job.target = some ⟨some text, [], [job.task]⟩
  only : ∀ name, (graph.target? name).isSome = true → name = rootName ∨
    name = GenerationRun.modulesTarget ∨ name ∈ (modules ++ last).map Job.target
  distinct : ((modules ++ last).map Job.target).Nodup

theorem unreachable_root {Task : Type} {graph : Tasks.Graph Task} (layered : graph.Layered)
    {name : String} (other : name ≠ rootName) : ¬ graph.Reachable name rootName := by
  intro path
  rcases Relation.ReflTransGen.cases_tail path with same | ⟨between, _, last⟩
  · exact other same.symm
  · exact layered.rootless between last

theorem operateAll_ok {operation : Operation (Program Workspace)}
    (accepted : machine.graph.operate? operation = .ok next)
    (other : ∀ target task, operation ≠ .addTask target task)
    (rest : List (Operation (Program Workspace))) :
    operateAll machine (operation :: rest) = operateAll { machine with graph := next } rest := by
  have operated : machine.operate operation = ({ machine with graph := next }, .ok ()) := by
    unfold Machine.operate
    rw [accepted]
    cases operation with
    | addTask target task => exact (other target task rfl).elim
    | create | markReady | markClosed | describe | depend => rfl
  simp only [operateAll, operated]

theorem operateAll_error {operation : Operation (Program Workspace)} {error : TaskError}
    (refused : machine.graph.operate? operation = .error error)
    (rest : List (Operation (Program Workspace))) :
    operateAll machine (operation :: rest) = (machine, .error error) := by
  have operated : machine.operate operation = (machine, .error error) := by
    unfold Machine.operate
    rw [refused]
  simp only [operateAll, operated]

section Launch

/-- The root target of a ready graph is made to depend on others. -/
theorem operateAll_depends {names : List String} (layered : machine.graph.Layered)
    (alive : machine.graph.isDropped = false) (ready : machine.graph.status = .ready)
    (distinct : (machine.graph.subtargets rootName ++ names).Nodup) (plain : rootName ∉ names) :
    ∃ graph, operateAll machine (names.map (.depend rootName)) = ({ machine with graph }, .ok ()) ∧
      graph.Layered ∧ graph.isDropped = false ∧ graph.status = .ready ∧
      graph.subtargets rootName = machine.graph.subtargets rootName ++ names ∧
      graph.pending rootName = machine.graph.pending rootName ∧
      ∀ name, name ≠ rootName → graph.target? name = machine.graph.target? name := by
  induction names generalizing machine with
  | nil => exact ⟨machine.graph, rfl, layered, alive, ready, (List.append_nil _).symm, rfl, fun _ _ => rfl⟩
  | cons name names ih =>
    obtain ⟨other, plain⟩ := not_or.mp (mt List.mem_cons.mpr plain)
    obtain ⟨root, found⟩ := Option.isSome_iff_exists.mp layered.rooted
    have fresh : name ∉ root.subtargets := by
      intro listed
      rw [Graph.subtargets_of_target? found] at distinct
      exact (List.nodup_append.mp distinct).2.2 name listed name (.head _) rfl
    have unreached : machine.graph.dependsOn name rootName = false := by
      rw [Bool.eq_false_iff]
      exact fun path => unreachable_root layered (Ne.symm other)
        ((Graph.dependsOn_iff layered.sorted).mp path)
    have accepted : machine.graph.operate? (.depend rootName name) =
        .ok (machine.graph.updateTarget rootName (Target.needing name)) := by
      have decided := Graph.depend_of_held alive found (by rw [ready, if_pos rfl]) (Ne.symm other)
        (Ne.symm other) fresh
      rw [unreached] at decided
      exact decided
    have listed := Graph.needing_subtargets found name
    have own : (machine.graph.updateTarget rootName (Target.needing name)).subtargets rootName =
        machine.graph.subtargets rootName ++ [name] := (listed rootName).trans (if_pos rfl)
    have updated := fun other => machine.graph.updateTarget_target? rootName other (Target.needing name)
    obtain ⟨graph, rest, layered, alive, ready, subtargets, pending, elsewhere⟩ :=
      @ih { machine with graph := machine.graph.updateTarget rootName (Target.needing name) }
        (layered.depend accepted) alive ready (by
          rw [own, List.append_assoc]
          exact distinct) plain
    refine ⟨graph, ?_, layered, alive, ready, ?_, ?_, fun name apart => ?_⟩
    · exact (operateAll_ok accepted (by simp) _).trans rest
    · rw [subtargets, own, List.append_assoc]
      rfl
    · rw [pending, Graph.pending, updated, if_pos rfl, Graph.pending, found]
      rfl
    · rw [elsewhere name apart, updated, if_neg apart]

theorem Planned.pending (planned : Planned graph modules last) {name : String}
    {task : Program Workspace} (member : task ∈ graph.pending name) :
    ∃ job ∈ modules ++ last, task = job.task := by
  cases found : graph.target? name with
  | none =>
    rw [Graph.pending, found] at member
    cases member
  | some node =>
    have present : (graph.target? name).isSome = true := by
      rw [found]
      rfl
    rcases planned.only name present with rfl | rfl | listed
    · rw [planned.root.2] at member
      cases member
    · obtain ⟨text, held⟩ := planned.gathers
      rw [Graph.pending, held] at member
      cases member
    · obtain ⟨job, among, rfl⟩ := List.mem_map.mp listed
      obtain ⟨text, held⟩ := planned.jobs job among
      rw [Graph.pending, held] at member
      exact ⟨job, among, List.mem_singleton.mp member⟩

theorem Planned.job_ne_root (planned : Planned graph modules last) {job : Job}
    (member : job ∈ modules ++ last) : job.target ≠ rootName := by
  intro same
  obtain ⟨text, held⟩ := planned.jobs job member
  have idle := planned.root.2
  rw [← same, Graph.pending, held] at idle
  cases idle

theorem Planned.job_ne_modules (planned : Planned graph modules last) {job : Job}
    (member : job ∈ modules ++ last) : job.target ≠ GenerationRun.modulesTarget := by
  intro same
  obtain ⟨text, held⟩ := planned.jobs job member
  obtain ⟨title, gathers⟩ := planned.gathers
  have single := congrArg (Option.map Target.tasks) ((same ▸ held).symm.trans gathers)
  cases single

/-- A graph that has been set ready, in which the root target depends on the fixed ones. -/
structure Readied (graph next : Tasks.Graph (Program Workspace)) : Prop where
  layered : next.Layered
  alive : next.isDropped = false
  ready : next.status = .ready
  subtargets : next.subtargets rootName = GenerationRun.fixedTargets
  pending : next.pending rootName = []
  elsewhere : ∀ name, name ≠ rootName → next.target? name = graph.target? name

theorem Planned.readied (planned : Planned machine.graph modules last) :
    ∃ graph, operateAll machine (.markReady :: GenerationRun.fixedTargets.map (.depend rootName)) =
      ({ machine with graph }, .ok ()) ∧ Readied machine.graph graph := by
  have marked : machine.graph.operate? .markReady = .ok { machine.graph with status := .ready } := by
    rw [Graph.operate?, Graph.markReady, Graph.requireStatus_ok.mpr planned.early]
    rfl
  obtain ⟨early, idle⟩ := planned.root
  have distinct : (machine.graph.subtargets rootName ++ GenerationRun.fixedTargets).Nodup := by
    rw [early]
    decide
  have layered : Graph.Layered { machine.graph with status := .ready } := planned.layered.of_targets rfl
  obtain ⟨graph, depends, layered, alive, ready, subtargets, pending, elsewhere⟩ :=
    @operateAll_depends { machine with graph := { machine.graph with status := .ready } }
      GenerationRun.fixedTargets layered planned.alive rfl distinct (by decide)
  refine ⟨graph, (operateAll_ok marked (by simp) _).trans depends, layered, alive, ready, ?_,
    pending.trans idle, elsewhere⟩
  exact subtargets.trans (congrArg (· ++ _) early)

section Readied

variable (planned : Planned graph modules last) (readied : Readied graph next)
include planned readied

theorem Readied.jobs {job : Job} (member : job ∈ modules ++ last) :
    ∃ text, next.target? job.target = some ⟨some text, [], [job.task]⟩ := by
  obtain ⟨text, held⟩ := planned.jobs job member
  exact ⟨text, (readied.elsewhere _ (planned.job_ne_root member)).trans held⟩

theorem Readied.tasks {name : String} {task : Program Workspace} (member : task ∈ next.pending name) :
    ∃ job : Job, task = job.task := by
  by_cases root : name = rootName
  · subst root
    rw [readied.pending] at member
    cases member
  · rw [Graph.pending, readied.elsewhere name root] at member
    obtain ⟨job, _, same⟩ := planned.pending member
    exact ⟨job, same⟩

theorem Readied.arranged
    (fixed : last.map Job.target = [GenerationRun.helpersTarget, GenerationRun.checkTarget]) :
    Arranged next modules last := by
  obtain ⟨text, gathers⟩ := planned.gathers
  have found : next.target? GenerationRun.modulesTarget = some ⟨some text, modules.map Job.target, []⟩ :=
    (readied.elsewhere _ (by decide)).trans gathers
  refine ⟨readied.layered.rooted, ⟨?_, readied.pending⟩, ?_, ⟨Graph.subtargets_of_target? found, ?_⟩,
    fun job member => ?_, fun job member => ?_, planned.distinct⟩
  · rw [readied.subtargets, fixed]
    rfl
  · rw [found]
    rfl
  · rw [Graph.pending, found]
    rfl
  · obtain ⟨text, held⟩ := readied.jobs planned member
    rw [held]
    rfl
  · obtain ⟨text, held⟩ := readied.jobs planned member
    refine ⟨Graph.subtargets_of_target? held, ?_⟩
    rw [Graph.pending, held]
    rfl

end Readied

/-- Whatever has been planned can be launched. -/
theorem Planned.launch (planned : Planned machine.graph modules last)
    (fixed : last.map Job.target = [GenerationRun.helpersTarget, GenerationRun.checkTarget]) :
    ∃ graph, operateAll machine (.markReady :: GenerationRun.fixedTargets.map (.depend rootName)) =
        ({ machine with graph }, .ok ()) ∧
      Arranged graph modules last ∧ graph.Launchable ∧ graph.status = .ready ∧
      ∀ name, ∀ task ∈ graph.pending name, task.Brief := by
  obtain ⟨graph, operated, readied⟩ := planned.readied
  have early : graph.status ∈ [.notStarted, .ready] := by
    rw [readied.ready]
    exact .tail _ (.head _)
  have detached : ∀ name, ∀ task ∈ graph.pending name, task.Detached := by
    intro name task member
    obtain ⟨job, rfl⟩ := readied.tasks planned member
    exact job.task_detached
  have brief : ∀ name, ∀ task ∈ graph.pending name, task.Brief := by
    intro name task member
    obtain ⟨job, rfl⟩ := readied.tasks planned member
    exact job.task_brief
  exact ⟨graph, operated, readied.arranged planned fixed, ⟨readied.layered, readied.alive, early, detached⟩,
    readied.ready, brief⟩

end Launch

section Claim

section Describe

variable {node : Target (Program Workspace)} (alive : graph.isDropped = false)
  (early : graph.status = .notStarted) (found : graph.target? target = some node) (text : String)
include alive early found

theorem describe_refused (described : node.description.isSome = true) :
    graph.operate? (.describe target text) = .error (.descriptionAlreadySet target) := by
  have held : graph.held target = .ok node := Graph.held_ok.mpr ⟨alive, found⟩
  simp only [Graph.operate?, Graph.describe, held, Graph.requireStatus_ok.mpr early, bind, Except.bind,
    described, if_true]
  rfl

theorem describe_accepted (described : node.description = none) :
    ∃ next, graph.operate? (.describe target text) = .ok next ∧ next.isDropped = false ∧
      next.status = .notStarted ∧ ∀ name, next.target? name =
        if name = target then some { node with description := some text } else graph.target? name := by
  have held : graph.held target = .ok node := Graph.held_ok.mpr ⟨alive, found⟩
  refine ⟨graph.updateTarget target fun target => { target with description := some text }, ?_, alive,
    early, fun name => ?_⟩
  · simp only [Graph.operate?, Graph.describe, held, Graph.requireStatus_ok.mpr early, bind, Except.bind,
      described]
    rfl
  · rw [Graph.updateTarget_target?, found]
    rfl

end Describe

theorem Planned.of_target? (planned : Planned graph modules last) (layered : next.Layered)
    (alive : next.isDropped = false) (early : next.status = .notStarted)
    (root : next.subtargets rootName = [] ∧ next.pending rootName = [])
    (same : ∀ name, name ≠ rootName → next.target? name = graph.target? name) :
    Planned next modules last := by
  refine ⟨layered, alive, early, root, ?_, fun job member => ?_, fun name present => ?_, planned.distinct⟩
  · rw [same _ (by decide)]
    exact planned.gathers
  · rw [same _ (planned.job_ne_root member)]
    exact planned.jobs job member
  · by_cases other : name = rootName
    · exact .inl other
    · exact planned.only name (same name other ▸ present)

section Operations

variable {className : String}

theorem claims_undescribed {error : TaskError}
    (refused : (machine.graph.create target).operate? (.describe target s!"Generate {className}") =
      .error error) :
    operateAll machine (GenerationRun.claimOperations target className) =
      ({ machine with graph := machine.graph.create target }, .error error) :=
  (operateAll_ok rfl (by simp) _).trans (operateAll_error refused _)

theorem claims_described {described : Tasks.Graph (Program Workspace)}
    (accepted : (machine.graph.create target).operate? (.describe target s!"Generate {className}") =
      .ok described) :
    operateAll machine (GenerationRun.claimOperations target className) =
      operateAll { machine with graph := described.create GenerationRun.modulesTarget }
        [.depend GenerationRun.modulesTarget target] := by
  refine (operateAll_ok rfl (by simp) _).trans ((operateAll_ok accepted (by simp) _).trans ?_)
  exact operateAll_ok rfl (by simp) _

end Operations

/-- A new target under that of the modules, without tasks. -/
structure Entered (graph next : Tasks.Graph (Program Workspace)) (target : String) : Prop where
  layered : next.Layered
  alive : next.isDropped = false
  early : next.status = .notStarted
  new : graph.target? target = none
  own : ∃ text, next.target? target = some ⟨some text, [], []⟩
  gathers : next.target? GenerationRun.modulesTarget =
    (graph.target? GenerationRun.modulesTarget).map (Target.needing target)
  elsewhere : ∀ name, name ≠ target → name ≠ GenerationRun.modulesTarget →
    next.target? name = graph.target? name

/-- A graph that has been made sure to have a target, under declaration. -/
structure Holds (graph next : Tasks.Graph (Program Workspace)) (target : String) : Prop where
  layered : next.Layered
  alive : next.isDropped = false
  early : next.status = .notStarted
  target? : ∀ name, next.target? name =
    if name = target then some ((graph.target? target).getD {}) else graph.target? name

theorem holds_create (layered : graph.Layered) (alive : graph.isDropped = false)
    (early : graph.status = .notStarted) (target : String) :
    Holds graph (graph.create target) target := by
  refine ⟨layered.create target, ?_, ?_, Graph.create_target? layered.sorted alive target⟩
  · simp [Graph.create, alive]
  · simp [Graph.create, alive, early]

theorem Holds.same (holds : Holds graph next target) {node : Target (Program Workspace)}
    (found : graph.target? target = some node) (name : String) :
    next.target? name = graph.target? name := by
  rw [holds.target?]
  split
  next same =>
    rw [same, found]
    rfl
  · rfl

variable (planned : Planned machine.graph modules last) (target className : String)
include planned

/-- The root target takes a description, but nothing can depend on it. -/
theorem Planned.refuses_root {node : Target (Program Workspace)}
    (found : machine.graph.target? rootName = some node) (undescribed : node.description = none) :
    ∃ graph error, operateAll machine (GenerationRun.claimOperations rootName className) =
      ({ machine with graph }, .error error) ∧ Planned graph modules last := by
  have created := holds_create planned.layered planned.alive planned.early rootName
  obtain ⟨described, accepted, alive, early, held⟩ := describe_accepted created.alive created.early
    ((created.same found rootName).trans found) s!"Generate {className}" undescribed
  have layered := created.layered.operate accepted
  have again := holds_create layered alive early GenerationRun.modulesTarget
  obtain ⟨text, gathers⟩ := planned.gathers
  have there : described.target? GenerationRun.modulesTarget = some ⟨some text, modules.map Job.target, []⟩ := by
    rw [held, if_neg (by decide), created.same found]
    exact gathers
  have kept := again.same there
  refine ⟨described.create GenerationRun.modulesTarget, .rootDependency GenerationRun.modulesTarget, ?_,
    planned.of_target? again.layered again.alive again.early ?_ fun name other => ?_⟩
  · have refused : (described.create GenerationRun.modulesTarget).operate?
        (.depend GenerationRun.modulesTarget rootName) =
        .error (.rootDependency GenerationRun.modulesTarget) := rfl
    exact (claims_described accepted).trans (operateAll_error refused [])
  · have own : (described.create GenerationRun.modulesTarget).target? rootName =
        some { node with description := some s!"Generate {className}" } := by
      rw [kept, held, if_pos rfl]
    obtain ⟨needless, idle⟩ := planned.root
    rw [Graph.subtargets_of_target? found] at needless
    rw [Graph.pending, found] at idle
    rw [Graph.subtargets_of_target? own, Graph.pending, own]
    exact ⟨needless, idle⟩
  · rw [kept, held, if_neg other, created.same found]

/-- What is there already and is no module is not claimed. -/
theorem Planned.refuses (old : (machine.graph.target? target).isSome = true)
    (unclaimed : ∀ job ∈ modules, job.target ≠ target) :
    ∃ graph error, operateAll machine (GenerationRun.claimOperations target className) =
      ({ machine with graph }, .error error) ∧ Planned graph modules last := by
  obtain ⟨node, found⟩ := Option.isSome_iff_exists.mp old
  by_cases described : node.description.isSome = true
  · have created := holds_create planned.layered planned.alive planned.early target
    have refused := describe_refused created.alive created.early
      ((created.same found target).trans found) s!"Generate {className}" described
    refine ⟨machine.graph.create target, .descriptionAlreadySet target, ?_,
      planned.of_target? created.layered created.alive created.early ?_
        fun name _ => created.same found name⟩
    · exact claims_undescribed refused
    · rw [Graph.subtargets, Graph.pending, created.same found]
      exact planned.root
  · rcases planned.only target old with rfl | rfl | listed
    · exact planned.refuses_root className found (Option.not_isSome_iff_eq_none.mp described)
    · obtain ⟨text, gathers⟩ := planned.gathers
      cases found.symm.trans gathers
      exact (described rfl).elim
    · obtain ⟨job, member, rfl⟩ := List.mem_map.mp listed
      obtain ⟨text, held⟩ := planned.jobs job member
      cases found.symm.trans held
      exact (described rfl).elim

/-- A new path gets a target. -/
theorem Planned.accepts (new : machine.graph.target? target = none) :
    ∃ graph, operateAll machine (GenerationRun.claimOperations target className) =
      ({ machine with graph }, .ok ()) ∧ Entered machine.graph graph target := by
  have created := holds_create planned.layered planned.alive planned.early target
  have own : (machine.graph.create target).target? target = some {} := by
    rw [created.target?, if_pos rfl, new]
    rfl
  obtain ⟨described, accepted, alive, early, held⟩ := describe_accepted created.alive created.early own
    s!"Generate {className}" rfl
  have layered := created.layered.operate accepted
  have again := holds_create layered alive early GenerationRun.modulesTarget
  obtain ⟨text, gathers⟩ := planned.gathers
  have apart : GenerationRun.modulesTarget ≠ target := by
    rintro rfl
    cases new.symm.trans gathers
  have plain : target ≠ rootName := by
    rintro rfl
    have rooted := planned.layered.rooted
    rw [new] at rooted
    cases rooted
  have there : described.target? GenerationRun.modulesTarget =
      some ⟨some text, modules.map Job.target, []⟩ := by
    rw [held, if_neg apart, created.target?, if_neg apart]
    exact gathers
  have kept := again.same there
  have entry : (described.create GenerationRun.modulesTarget).target? target =
      some ⟨some s!"Generate {className}", [], []⟩ := by
    rw [kept, held, if_pos rfl]
  have fresh : target ∉ modules.map Job.target := by
    intro listed
    obtain ⟨job, member, same⟩ := List.mem_map.mp listed
    obtain ⟨text, taken⟩ := planned.jobs job (List.mem_append_left _ member)
    cases (same ▸ new).symm.trans taken
  have unreached : (described.create GenerationRun.modulesTarget).dependsOn target
      GenerationRun.modulesTarget = false := by
    rw [Bool.eq_false_iff]
    intro reached
    rcases ((Graph.dependsOn_iff again.layered.sorted).mp reached).cases_head with same | ⟨next, first, _⟩
    · exact apart same.symm
    · rw [Graph.Needs, Graph.subtargets_of_target? entry] at first
      cases first
  have decided := Graph.depend_of_held again.alive ((kept _).trans there)
    (by rw [again.early, if_neg (by decide)]) apart.symm plain fresh
  rw [unreached] at decided
  have depends : (described.create GenerationRun.modulesTarget).operate?
      (.depend GenerationRun.modulesTarget target) = .ok _ := decided
  have updated := fun name => (described.create GenerationRun.modulesTarget).updateTarget_target?
    GenerationRun.modulesTarget name (Target.needing target)
  refine ⟨_, ?_, again.layered.operate depends, again.alive, again.early, new,
    ⟨s!"Generate {className}", ?_⟩, ?_,
    fun name other under => ?_⟩
  · exact (claims_described accepted).trans (operateAll_ok depends (by simp) [])
  · exact ((updated target).trans (if_neg apart.symm)).trans entry
  · rw [updated, if_pos rfl, kept, there, gathers]
  · rw [updated, if_neg under, kept, held, if_neg other, created.target?, if_neg other]

end Claim

/-- A claimed path gets its job. -/
theorem Planned.entered (planned : Planned graph modules last) {job : Job}
    (entered : Entered graph next job.target) :
    ∃ after, next.operate? (.addTask job.target job.task) = .ok after ∧
      Planned after (modules ++ [job]) last := by
  obtain ⟨text, own⟩ := entered.own
  obtain ⟨title, gathers⟩ := planned.gathers
  have held : next.held job.target = .ok ⟨some text, [], []⟩ := Graph.held_ok.mpr ⟨entered.alive, own⟩
  have accepted : next.operate? (.addTask job.target job.task) =
      .ok (next.updateTarget job.target fun target => { target with tasks := target.tasks ++ [job.task] }) := by
    simp only [Graph.operate?, Graph.addTask, held, Graph.requireStatus_ok.mpr entered.early, bind,
      Except.bind]
    rfl
  have updated := fun name => next.updateTarget_target? job.target name fun target =>
    { target with tasks := target.tasks ++ [job.task] }
  have present : ∀ name, (graph.target? name).isSome = true → name ≠ job.target := by
    rintro name there rfl
    rw [entered.new] at there
    cases there
  have apart : GenerationRun.modulesTarget ≠ job.target := present _ (by rw [gathers]; rfl)
  have elsewhere : ∀ name, name ≠ job.target → name ≠ GenerationRun.modulesTarget →
      (next.updateTarget job.target fun target =>
        { target with tasks := target.tasks ++ [job.task] }).target? name = graph.target? name := by
    intro name other under
    rw [updated, if_neg other, entered.elsewhere name other under]
  have others : ∀ other ∈ modules ++ last, other.target ≠ job.target := by
    intro other member
    obtain ⟨text, there⟩ := planned.jobs other member
    exact present _ (by rw [there]; rfl)
  refine ⟨_, accepted, entered.layered.operate accepted, entered.alive, entered.early, ?_, ⟨title, ?_⟩,
    fun other member => ?_, fun name there => ?_, ?_⟩
  · rw [Graph.subtargets, Graph.pending, elsewhere _ (present _ planned.layered.rooted) (by decide)]
    exact planned.root
  · rw [updated, if_neg apart, entered.gathers, gathers, List.map_append]
    rfl
  · rcases List.mem_append.mp member with early | late
    · rcases List.mem_append.mp early with early | new
      · have member := List.mem_append_left last early
        obtain ⟨text, there⟩ := planned.jobs other member
        exact ⟨text, (elsewhere _ (others other member) (planned.job_ne_modules member)).trans there⟩
      · rw [List.mem_singleton.mp new]
        exact ⟨text, (updated _).trans (by rw [if_pos rfl, own]; rfl)⟩
    · have member := List.mem_append_right modules late
      obtain ⟨text, there⟩ := planned.jobs other member
      exact ⟨text, (elsewhere _ (others other member) (planned.job_ne_modules member)).trans there⟩
  · by_cases own : name = job.target
    · subst own
      simp
    by_cases under : name = GenerationRun.modulesTarget
    · exact .inr (.inl under)
    · rw [elsewhere name own under] at there
      refine (planned.only name there).imp_right (Or.imp_right fun listed => ?_)
      simp only [List.map_append, List.mem_append] at listed ⊢
      exact listed.imp_left .inl
  · have distinct := planned.distinct
    simp only [List.map_append, List.append_assoc] at distinct ⊢
    refine (List.perm_middle.nodup_iff).mpr (List.nodup_cons.mpr ⟨fun listed => ?_, distinct⟩)
    have listed : job.target ∈ (modules ++ last).map Job.target := List.map_append ▸ listed
    obtain ⟨other, member, same⟩ := List.mem_map.mp listed
    exact others other member same

section Create

theorem operateAll_layered (layered : machine.graph.Layered)
    (operations : List (Operation (Program Workspace))) :
    (operateAll machine operations).1.graph.Layered := by
  induction operations generalizing machine with
  | nil => exact layered
  | cons operation rest ih =>
    have operated : (machine.operate operation).1.graph.Layered :=
      Machine.move_layered layered (.operate operation)
    unfold operateAll
    split
    next next accepted =>
      rw [accepted] at operated
      exact ih operated
    next refused => exact operated

/-- The jobs behind those of the modules. -/
def lastJobs (root : FilePath) (checker : CheckerSettings) : List Job :=
  [⟨GenerationRun.helpersTarget, copyHelpers (GenerationRun.helperDirectoryOf root)⟩,
    ⟨GenerationRun.checkTarget, checkModules checker root⟩]

theorem create_machine (root : FilePath) (checker : CheckerSettings) :
    let helpers := (copyHelpers (GenerationRun.helperDirectoryOf root)).task GenerationRun.helpersTarget
    let check := (checkModules checker root).task GenerationRun.checkTarget
    (GenerationRun.create root checker).machine = {
      graph := { targets := [
        (GenerationRun.helpersTarget,
          ⟨some "Copy runtime helpers beside the generated modules", [], [helpers]⟩),
        (GenerationRun.modulesTarget, ⟨some "Generate every collection module", [], []⟩),
        (rootName, {}),
        (GenerationRun.checkTarget, ⟨some "Type-check the generated modules", [], [check]⟩)] }
      world := {}
      journal := [.added GenerationRun.checkTarget check, .added GenerationRun.helpersTarget helpers] } := by
  -- only these: the names have to stay literals, or their order is not decided
  simp only [GenerationRun.create, operateAll, Machine.operate, Graph.operate?, Graph.create,
    Graph.empty, Bool.false_eq_true, ↓reduceIte, Graph.insertTarget, rootName,
    GenerationRun.modulesTarget, GenerationRun.helpersTarget, GenerationRun.checkTarget,
    String.reduceEq, String.reduceLT, Graph.describe, Graph.held,
    Graph.target?, Graph.requireStatus, Graph.updateTarget, Graph.addTask, Machine.record, bind,
    Except.bind, pure, Except.pure, lookup_cons, List.map_cons, List.map_nil, List.nil_append,
    Option.isSome_none]

theorem planned_create (root : FilePath) (checker : CheckerSettings) :
    Planned (GenerationRun.create root checker).machine.graph [] (lastJobs root checker) := by
  have layered : (GenerationRun.create root checker).machine.graph.Layered :=
    operateAll_layered Graph.layered_empty _
  rw [create_machine] at layered ⊢
  refine ⟨layered, rfl, rfl, ⟨rfl, rfl⟩, ⟨"Generate every collection module", rfl⟩, ?_,
    fun name present => ?_, ?_⟩
  · intro job member
    rcases List.mem_cons.mp member with rfl | member
    · exact ⟨"Copy runtime helpers beside the generated modules", rfl⟩
    · rw [List.mem_singleton.mp member]
      exact ⟨"Type-check the generated modules", rfl⟩
  · have listed := Graph.mem_targetNames present
    simpa [Graph.targetNames, lastJobs, or_comm, or_left_comm] using listed
  · show [GenerationRun.helpersTarget, GenerationRun.checkTarget].Nodup
    decide

end Create

section Limit

/-- A run takes no more steps than it is given. -/
theorem budget_le_stepLimit (sorted : Graph.Sorted machine.graph.targets)
    (fresh : ∀ name, machine.Fresh name) : machine.budget ≤ GenerationRun.stepLimit machine.graph := by
  have charged : ∀ entry ∈ machine.graph.targets, machine.charge entry.1 ≤
      4 * (entry.2.subtargets.length + entry.2.tasks.length + 1) := by
    intro entry member
    have held : machine.graph.target? entry.1 = some entry.2 := (Graph.target?_eq_some sorted).mpr member
    have load : machine.graph.load entry.1 = entry.2.subtargets.length + 2 * entry.2.tasks.length := by
      rw [Graph.load, Graph.subtargets_of_target? held, Graph.pending, held]
      rfl
    rcases fresh entry.1 with unbegun | begun
    · rw [Machine.charge, unbegun, load]
      dsimp only
      omega
    · rw [Machine.charge_of begun, load, Progress.charge]
      omega
  unfold Machine.budget GenerationRun.stepLimit Graph.targetNames
  generalize machine.graph.targets = entries at charged
  induction entries with
  | nil => exact Nat.zero_le 4
  | cons entry entries ih =>
    obtain ⟨here, others⟩ := List.forall_mem_cons.mp charged
    have rest := ih others
    rw [List.map_cons, List.map_cons, List.sum_cons, List.foldr_cons]
    omega

end Limit

end CompositeKeys.Generation
