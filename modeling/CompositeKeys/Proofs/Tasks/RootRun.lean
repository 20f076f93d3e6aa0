import CompositeKeys.Proofs.Tasks.Course

/-! What a run of the root target does. Whatever target is chosen for each step, the run starts the tasks
that are due in their order, comes to its end after finitely many steps, and leaves the graph as the
report of the run tells. -/

namespace CompositeKeys.Tasks.Machine
open Journal

variable {World : Type} {graph : Graph (Program World)} {goal : Tally World × Outcome}
  {machine : Machine World} {position : Position World}

/-- A graph has been run, and nothing but what the run has entered is changed. -/
structure Ran (graph : Graph (Program World)) (goal : Tally World × Outcome)
    (machine : Machine World) : Prop where
  outcome : machine.outcome? rootName = some goal.2
  status : machine.graph.status = goal.2.status
  started : starts machine.journal = goal.1.started
  world : machine.world = goal.1.world
  entered : ∀ name, name ∈ goal.1.entered ↔ ¬ machine.Fresh name
  taken : machine.graph = graph.taken goal.2.status goal.1.entered
  kept : ∀ name, name ∉ goal.1.entered → machine.graph.target? name = graph.target? name

theorem starts_of_added {journal : List (Event World)}
    (only : ∀ event ∈ journal, ∃ target task, event = .added target task) : starts journal = [] := by
  induction journal with
  | nil => rfl
  | cons event earlier ih =>
    obtain ⟨target, task, rfl⟩ := only event (.head _)
    exact ih fun other member => only other (.tail _ member)

theorem stands_at_start
    (unrun : ∀ target, machine.progress? target = none) (unstarted : starts machine.journal = []) :
    Stands machine.graph (machine.graph.report machine.world) (machine.start rootName)
      ⟨rootName, .begun, [], [], [], none⟩ := by
  have started : machine.start rootName = { machine with runs := (rootName, .begun) :: machine.runs } := by
    simp only [start, unrun]
  have runs : ∀ name, (machine.start rootName).progress? name =
      if name = rootName then some .begun else none := by
    intro name
    rw [start_progress?, unrun, unrun, Option.getD_none]
  have fresh : ∀ name, (machine.start rootName).Fresh name := by
    intro name
    rw [Fresh, runs]
    split
    · exact .inr rfl
    · exact .inl rfl
  have tally : (machine.start rootName).tally [] = { world := machine.world } := by
    rw [started, Machine.tally]
    exact congrArg (Tally.mk [] · machine.world) unstarted
  refine ⟨?_, .root, (runs rootName).trans (if_pos rfl), .begun, ?_, ?_,
    fun name member => (List.not_mem_nil member).elim, ?_⟩
  · show _ = machine.graph.taken machine.graph.status []
    rw [Graph.taken_nil, started]
  · intro name apart _
    exact .inl ((runs name).trans (if_neg apart))
  · exact fun name => iff_of_false List.not_mem_nil fun begun => begun (fresh name)
  · show machine.graph.carryOut _ _ = machine.graph.report machine.world
    rw [tally]
    rfl

theorem Waiting.root_mem {top : String} {waiters : List String} {agenda : List Stop}
    (waiting : Waiting graph machine top waiters agenda) : rootName = top ∨ rootName ∈ waiters := by
  induction waiting with
  | root => exact .inl rfl
  | behind below _ _ _ ih =>
    rcases ih with rfl | later
    · exact .inr (.head _)
    · exact .inr (.tail _ later)

section Stands

variable (stands : Stands graph goal machine position)
include stands

/-- What has been started by now is the beginning of what will have been started. -/
theorem Stands.started_prefix : starts machine.journal <+: goal.1.started := by
  rw [← stands.ahead]
  exact position.rest_grows (machine.tally position.entered)

theorem Stands.ran {outcome : Outcome} (ended : machine.outcome? rootName = some outcome) :
    Ran graph goal machine := by
  have finished := outcome?_eq_some.mp ended
  rcases stands.waiting.root_mem with top | behind
  · have progress : position.progress = .finished outcome := by
      have here := stands.here
      rw [← top, finished] at here
      exact (Option.some.inj here).symm
    have apt := stands.apt
    rcases position with ⟨top, _, waiters, agenda, entered, failure⟩
    cases progress
    cases apt
    have reached : (machine.tally entered, outcome) = goal := by
      rw [← stands.ahead]
      cases outcome <;> rfl
    have taken : machine.graph = graph.taken outcome.status entered := by
      rw [stands.taken]
      cases outcome <;> rfl
    subst reached
    refine ⟨ended, ?_, rfl, rfl, stands.entered, taken, fun name fresh => ?_⟩
    · rw [taken]
      rfl
    · rw [taken]
      exact Graph.taken_of_fresh fresh
  · obtain ⟨_, _, _, depending, _⟩ := stands.waiting.blocked rootName behind
    cases finished.symm.trans depending

variable (launchable : graph.Launchable)
include launchable

/-- Whoever takes a step brings the run closer to its end. -/
theorem Stands.step {target : String} {next : Machine World}
    (stepped : machine.advance? target = some next) :
    Nears graph goal next (position.remaining graph machine.world) := by
  by_cases other : target = position.top
  · subst other
    have unfinished : ∀ outcome, position.progress ≠ .finished outcome := by
      intro outcome finished
      simp [advance?, stands.here, finished] at stepped
    obtain ⟨later, advanced, near⟩ := stands.advances launchable unfinished
    cases stepped.symm.trans advanced
    exact near
  · cases (stands.still other).symm.trans stepped

theorem Stands.moves {moves : List (Move World)}
    (only : ∀ move ∈ moves, ∃ target, move = .advance target) :
    ∃ later, Stands graph goal (machine.moves moves) later := by
  induction moves generalizing machine position with
  | nil => exact ⟨position, stands⟩
  | cons move moves ih =>
    obtain ⟨⟨target, rfl⟩, rest⟩ := List.forall_mem_cons.mp only
    show ∃ later, Stands graph goal (((machine.advance? target).getD machine).moves moves) later
    cases stepped : machine.advance? target with
    | none => exact ih stands rest
    | some next =>
      obtain ⟨later, standing, _⟩ := stands.step launchable stepped
      exact ih standing rest

/-- A run at whose position nobody can take a step is at its end. -/
theorem Stands.ended (stuck : ∀ run ∈ machine.runs, machine.advance? run.1 = none) :
    ∃ outcome, machine.outcome? rootName = some outcome := by
  by_cases unfinished : ∀ outcome, position.progress ≠ .finished outcome
  · obtain ⟨next, stepped, _⟩ := stands.advances launchable unfinished
    have member : ∃ run ∈ machine.runs, position.top = run.1 := by
      have held : (machine.runs.lookup position.top).isSome := by
        rw [show machine.runs.lookup position.top = _ from stands.here]
        rfl
      obtain ⟨run, member, same⟩ := List.lookup_isSome_iff.mp held
      exact ⟨run, member, beq_iff_eq.mp same⟩
    obtain ⟨run, member, same⟩ := member
    cases stepped.symm.trans (same ▸ stuck run member)
  · obtain ⟨outcome, finished⟩ := Classical.not_forall_not.mp unfinished
    have here := stands.here
    have apt := stands.apt
    rcases position with ⟨top, progress, waiters, agenda, entered, failure⟩
    cases finished
    cases apt
    exact ⟨outcome, outcome?_eq_some.mpr here⟩

/-- Settling brings a run to its end, and goes no further. -/
theorem Stands.settles : ∃ limit, ∀ more, limit ≤ more → Ran graph goal (machine.settle more) := by
  -- No limit can be read off the graph: how long a task works hangs on the world that it finds.
  generalize far : position.remaining graph machine.world = distance
  induction distance using WellFoundedLT.induction generalizing machine position with
  | ind distance ih =>
    cases choice : machine.runs.findSome? fun run => machine.advance? run.1 with
    | none =>
      have stuck := List.findSome?_eq_none_iff.mp choice
      obtain ⟨outcome, ended⟩ := stands.ended launchable stuck
      refine ⟨0, fun more _ => ?_⟩
      have settled : machine.settle more = machine := by
        cases more with
        | zero => rfl
        | succ more => simp only [settle, choice]
      rw [settled]
      exact stands.ran ended
    | some next =>
      obtain ⟨run, _, stepped⟩ := List.exists_of_findSome?_eq_some choice
      obtain ⟨later, standing, near⟩ := stands.step launchable stepped
      obtain ⟨limit, ran⟩ := ih _ (far ▸ near) standing rfl
      refine ⟨limit + 1, fun more enough => ?_⟩
      cases more with
      | zero => omega
      | succ more =>
        have settled : machine.settle (more + 1) = next.settle more := by
          simp only [settle, choice]
        rw [settled]
        exact ran more (by omega)

end Stands

section Declaring

theorem added_of_mem {target : String} {task : Program World} {journal : List (Event World)}
    (member : task ∈ added target journal) : .added target task ∈ journal := by
  induction journal with
  | nil => cases member
  | cons event earlier ih =>
    cases event with
    | added other first =>
      unfold added at member
      split at member
      next same =>
        rcases List.mem_append.mp member with before | last
        · exact .tail _ (ih before)
        · rw [same, List.mem_singleton.mp last]
          exact .head _
      · exact .tail _ (ih member)
    | started | returned | finished | delivered => exact .tail _ (ih member)

theorem operate_added {operation : Operation (Program World)} {target : String}
    {task : Program World} (told : .added target task ∈ (machine.operate operation).1.journal) :
    .added target task ∈ machine.journal ∨ operation = .addTask target task := by
  unfold operate at told
  cases accepted : machine.graph.operate? operation with
  | error =>
    rw [accepted] at told
    exact .inl told
  | ok graph =>
    rw [accepted] at told
    cases operation with
    | addTask other first =>
      rcases List.mem_cons.mp told with same | earlier
      · cases same
        exact .inr rfl
      · exact .inl earlier
    | create | markReady | markClosed | describe | depend => exact .inl told

/-- Operations alone run nothing, and leave no tasks but those that they add. -/
theorem operated_unrun {moves : List (Move World)}
    (only : ∀ move ∈ moves, ∃ operation, move = .operate operation) :
    (∀ target, (machine.moves moves).progress? target = machine.progress? target) ∧
      ∀ target task, .added target task ∈ (machine.moves moves).journal →
        .added target task ∈ machine.journal ∨ .operate (.addTask target task) ∈ moves := by
  induction moves generalizing machine with
  | nil => exact ⟨fun target => rfl, fun target task => .inl⟩
  | cons move moves ih =>
    obtain ⟨⟨operation, rfl⟩, rest⟩ := List.forall_mem_cons.mp only
    obtain ⟨unrun, tasks⟩ := @ih (machine.operate operation).1 rest
    refine ⟨fun target => (unrun target).trans (operate_progress? machine target operation), ?_⟩
    intro target task told
    rcases tasks target task told with now | later
    · rcases operate_added now with earlier | rfl
      · exact .inl earlier
      · exact .inr (.head _)
    · exact .inr (.tail _ later)

/-- What has been declared with detached tasks can be run. -/
theorem runnable_of_operated (world : World) {moves : List (Move World)}
    (only : ∀ move ∈ moves, ∃ operation, move = .operate operation)
    (detached : ∀ target task, .operate (.addTask target task) ∈ moves → task.Detached) :
    let machine := ({ world } : Machine World).moves moves
    (∀ target, machine.progress? target = none) ∧
      ∀ target, ∀ task ∈ machine.graph.pending target, task.Detached := by
  intro machine
  have valid : machine.Valid := (valid_initial world).moves moves
  obtain ⟨unrun, tasks⟩ := @operated_unrun World { world } moves only
  refine ⟨unrun, fun target task pending => ?_⟩
  have account := valid.account target
  rw [show machine.progress? target = none from unrun target] at account
  cases account with
  | none idle =>
    rw [idle.pending] at pending
    rcases tasks target task (added_of_mem pending) with before | added
    · cases before
    · exact detached target task added

end Declaring

/-- The root target, run in a graph that is live and of which nothing has been run, starts the tasks of
all targets that can be reached, in depth-first order, each behind all that it depends on, up to the
first task that fails or the first target that is missing. It comes to an end, however its steps are
scheduled, and leaves the graph running or failed, with the tasks of all other targets untouched. -/
theorem root_run_in_order (world : World) (moves : List (Move World)) :
    let machine := ({ world } : Machine World).moves moves
    let graph := machine.graph
    let report := graph.report machine.world
    graph.isDropped = false → graph.status ∈ [.notStarted, .ready] →
    (∀ target, machine.progress? target = none) →
    (∀ target, ∀ task ∈ graph.pending target, task.Detached) →
    (graph.postOrder.Nodup ∧ (∀ name, name ∈ graph.postOrder ↔ graph.Reachable rootName name) ∧
      graph.postOrder.Pairwise fun first second => ¬ graph.Needs first second) ∧
    (report.1.started <+: graph.dueTasks ∧
      (report.2 = .ok () → report.1.started = graph.dueTasks) ∧
      ∀ error, report.2 = .error error →
        (∃ name, graph.Reachable rootName name ∧ graph.target? name = none ∧
          error = .unknownTarget name) ∨
        ∃ name task view before, report.1.started.getLast? = some (name, task) ∧
          (task.perform view before).1 = .error error) ∧
    (∀ steps : List (Move World), (∀ step ∈ steps, ∃ target, step = .advance target) →
      let later := (machine.start rootName).moves steps
      starts later.journal <+: report.1.started ∧
        ∀ outcome, later.outcome? rootName = some outcome → Ran graph report later) ∧
    ∃ limit, ∀ more, limit ≤ more →
      (machine.waitFor rootName more).2 = some report.2 ∧
        Ran graph report (machine.waitFor rootName more).1 := by
  intro machine graph report alive early unrun detached
  have valid : machine.Valid := (valid_initial world).moves moves
  have layered : graph.Layered := moves_layered Graph.layered_empty moves
  have launchable : graph.Launchable := ⟨layered, alive, early, detached⟩
  have unsettled : ¬ graph.Settled := by
    rintro (dropped | past)
    · cases alive.symm.trans dropped
    · exact past early
  have stands : Stands graph report (machine.start rootName) ⟨rootName, .begun, [], [], [], none⟩ :=
    stands_at_start unrun (starts_of_added (valid.early unsettled).1)
  obtain ⟨within, whole⟩ := @Graph.report_started World graph machine.world
  refine ⟨⟨Graph.postOrder_nodup, fun name => Graph.mem_postOrder,
    Graph.postOrder_ordered layered.acyclic⟩, ⟨within, whole, fun error => Graph.report_error⟩, ?_, ?_⟩
  · intro steps only
    obtain ⟨later, standing⟩ := stands.moves launchable only
    exact ⟨standing.started_prefix, fun outcome ended => standing.ran ended⟩
  · obtain ⟨limit, ran⟩ := stands.settles launchable
    exact ⟨limit, fun more enough => ⟨(ran more enough).outcome, ran more enough⟩⟩

def notes (text : String) : Program (List String) :=
  .suspend (.act (text :: ·) fun _ => .finish (.ok ()))

/-- An engine and a frame that are both made of steel. -/
def assemblesCar : List (Move (List String)) :=
  [.operate (.create "car"), .operate (.create "engine"), .operate (.create "frame"),
    .operate (.create "steel"), .operate (.depend "engine" "steel"),
    .operate (.depend "frame" "steel"), .operate (.depend "car" "engine"),
    .operate (.depend "car" "frame"), .operate (.addTask "car" (notes "car")),
    .operate (.addTask "frame" (notes "frame")), .operate (.addTask "engine" (notes "engine")),
    .operate (.addTask "steel" (notes "steel")), .operate .markReady,
    .operate (.depend rootName "car")]

/-- The steel is made once, before anything that needs it. -/
theorem root_run_in_order_car :
    ∃ limit, ∀ more, limit ≤ more →
      let run := (({ world := [] } : Machine (List String)).moves assemblesCar).waitFor rootName more
      run.2 = some (.ok ()) ∧ run.1.world = ["car", "frame", "engine", "steel"] := by
  have only : ∀ move ∈ assemblesCar, ∃ operation, move = .operate operation := by
    simp [assemblesCar]
  have notesOnly : ∀ target task, .operate (.addTask target task) ∈ assemblesCar →
      task.Detached := by
    intro target task added
    have note : task = notes target := by
      simp only [assemblesCar, List.mem_cons, Move.operate.injEq, Operation.addTask.injEq,
        reduceCtorEq, List.not_mem_nil, or_false, false_or] at added
      rcases added with ⟨rfl, rfl⟩ | ⟨rfl, rfl⟩ | ⟨rfl, rfl⟩ | ⟨rfl, rfl⟩ <;> rfl
    rw [note]
    exact fun _ => trivial
  obtain ⟨unrun, detached⟩ := runnable_of_operated [] only notesOnly
  obtain ⟨_, _, _, limit, ran⟩ := root_run_in_order [] assemblesCar (by decide +kernel)
    (by decide +kernel) unrun detached
  refine ⟨limit, fun more enough => ?_⟩
  obtain ⟨outcome, left⟩ := ran more enough
  refine ⟨outcome.trans ?_, left.world.trans ?_⟩
  · decide +kernel
  · decide +kernel

end CompositeKeys.Tasks.Machine
