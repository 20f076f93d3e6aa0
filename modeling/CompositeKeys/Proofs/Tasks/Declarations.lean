import CompositeKeys.Proofs.Tasks.Dependencies
import CompositeKeys.Proofs.Tasks.Failure

/-! What is declared of a target, and until when. A target is described once and takes its tasks and what it
depends on before its graph is ready; the root target takes what it depends on once the graph is. When the
first target begins, all of this stands for good, whatever the tasks at work ask for. -/

namespace CompositeKeys.Tasks
open Journal

/-- What has been declared of a target: what it is said to be, what it depends on, and all the tasks ever
added to it, whether it has taken them or not. Of a target that is not there nothing has been declared. -/
structure TargetDeclaration (World : Type) where
  description : Option String
  subtargets : List String
  tasks : List (Program World)

namespace Graph

variable {Task : Type} {graph next : Graph Task}

def describedAs (graph : Graph Task) (name : String) : Option String :=
  (graph.target? name).bind Target.description

/-- The graph is there, and in a certain status. -/
def IsAt (graph : Graph Task) (status : Status) : Prop :=
  graph.isDropped = false ∧ graph.status = status

theorem Settled.not_at {status : Status} (settled : graph.Settled)
    (early : status = .notStarted ∨ status = .ready) : ¬ graph.IsAt status := by
  rintro ⟨alive, rfl⟩
  rcases settled with dropped | past
  · cases alive.symm.trans dropped
  · exact past (by simpa using early)

/-- A running graph that a target has taken its tasks out of. -/
def opened (graph : Graph Task) (name : String) : Graph Task :=
  Graph.updateTarget { graph with status := .running } name Target.emptied

section Kept

-- What operations leave alone of a description and of what a target depends on.

theorem describedAs_of_targets (same : next.targets = graph.targets) (name : String) :
    next.describedAs name = graph.describedAs name := by
  rw [describedAs, describedAs, target?, target?, same]

theorem subtargets_of_targets (same : next.targets = graph.targets) (name : String) :
    next.subtargets name = graph.subtargets name := by
  rw [subtargets, subtargets, target?, target?, same]

theorem create_kept (sorted : Sorted graph.targets) (name other : String) :
    (graph.create name).describedAs other = graph.describedAs other ∧
      (graph.create name).subtargets other = graph.subtargets other := by
  cases alive : graph.isDropped with
  | true =>
    have same : graph.create name = graph := by simp [create, alive]
    exact same.symm ▸ ⟨rfl, rfl⟩
  | false =>
    rw [describedAs, describedAs, subtargets, subtargets, create_target? sorted alive]
    split
    next same =>
      subst same
      cases graph.target? other <;> exact ⟨rfl, rfl⟩
    · exact ⟨rfl, rfl⟩

theorem updateTarget_describedAs {name : String} {change : Target Task → Target Task}
    (kept : ∀ target, (change target).description = target.description) (other : String) :
    (graph.updateTarget name change).describedAs other = graph.describedAs other := by
  rw [describedAs, describedAs, updateTarget_target?]
  split
  next same =>
    subst same
    cases graph.target? other <;> simp [kept]
  · rfl

end Kept

section Accepted

-- When an operation that declares something is accepted.

variable {name : String}

theorem describe_ok {text : String} (accepted : graph.describe name text = .ok next) :
    graph.IsAt .notStarted ∧ graph.describedAs name = none ∧
      next = graph.updateTarget name fun target => { target with description := some text } := by
  obtain ⟨target, found, accepted⟩ := bind_eq_ok.mp accepted
  obtain ⟨_, early, accepted⟩ := bind_eq_ok.mp accepted
  obtain ⟨blank, accepted⟩ := next_of_refused accepted
  obtain ⟨alive, present⟩ := held_ok.mp found
  refine ⟨⟨alive, requireStatus_ok.mp early⟩, ?_, (pure_eq_ok.mp accepted).symm⟩
  rw [describedAs, present]
  exact Option.not_isSome_iff_eq_none.mp blank

theorem depend_at {subtarget : String} (accepted : graph.depend name subtarget = .ok next) :
    graph.IsAt (if name = rootName then .ready else .notStarted) := by
  unfold depend at accepted
  obtain ⟨_, accepted⟩ := next_of_refused accepted
  obtain ⟨_, accepted⟩ := next_of_refused accepted
  obtain ⟨target, found, accepted⟩ := bind_eq_ok.mp accepted
  obtain ⟨_, early, _⟩ := bind_eq_ok.mp accepted
  exact ⟨(held_ok.mp found).1, requireStatus_ok.mp early⟩

theorem addTask_at {task : Task} (accepted : graph.addTask name task = .ok next) :
    graph.IsAt .notStarted := by
  obtain ⟨target, found, accepted⟩ := bind_eq_ok.mp accepted
  obtain ⟨_, early, _⟩ := bind_eq_ok.mp accepted
  exact ⟨(held_ok.mp found).1, requireStatus_ok.mp early⟩

/-- What an operation declares of a target beside its tasks. -/
theorem operate?_declares {operation : Operation Task} (sorted : Sorted graph.targets)
    (accepted : graph.operate? operation = .ok next) (name : String) :
    (next.describedAs name = graph.describedAs name ∨
      graph.IsAt .notStarted ∧ graph.describedAs name = none) ∧
    (next.subtargets name = graph.subtargets name ∨
      graph.IsAt (if name = rootName then .ready else .notStarted) ∧
        ∃ subtarget, next.subtargets name = graph.subtargets name ++ [subtarget]) := by
  cases operation with
  | create created =>
    cases accepted
    obtain ⟨described, depends⟩ := create_kept sorted created name
    exact ⟨.inl described, .inl depends⟩
  | markReady =>
    obtain ⟨_, _, same⟩ := bind_eq_ok.mp accepted
    cases pure_eq_ok.mp same
    exact ⟨.inl rfl, .inl rfl⟩
  | markClosed =>
    simp only [operate?, markClosed] at accepted
    split at accepted
    · cases accepted
    · cases accepted
      exact ⟨.inl rfl, .inl rfl⟩
  | describe described text =>
    obtain ⟨early, blank, rfl⟩ := describe_ok accepted
    refine ⟨?_, .inl (updateTarget_subtargets (fun _ => by rfl) name)⟩
    by_cases here : name = described
    · exact .inr ⟨early, here ▸ blank⟩
    · refine .inl ?_
      rw [describedAs, updateTarget_target?, if_neg here]
      rfl
  | depend dependent subtarget =>
    have ready := depend_at accepted
    obtain ⟨_, _, target, found, _, _, rfl⟩ := depend_ok accepted
    refine ⟨.inl (updateTarget_describedAs (fun _ => by rfl) name), ?_⟩
    have listed := needing_subtargets found subtarget name
    by_cases here : name = dependent
    · rw [if_pos here, ← here] at listed
      exact .inr ⟨here ▸ ready, subtarget, here ▸ listed⟩
    · exact .inl (listed.trans (if_neg here))
  | addTask gaining task =>
    obtain ⟨_, _, rfl⟩ := addTask_ok accepted
    exact ⟨.inl (updateTarget_describedAs (fun _ => by rfl) name),
      .inl (updateTarget_subtargets (fun _ => by rfl) name)⟩

end Accepted

end Graph

/-- What a move can make of the declaration of a target. A description is given once, what a target depends
on and its tasks are only added to, and each of these only in the status that it belongs to. -/
structure Declares {World Task : Type} (graph : Graph Task) (name : String)
    (before after : TargetDeclaration World) : Prop where
  description : after.description = before.description ∨
    graph.IsAt .notStarted ∧ before.description = none
  subtargets : after.subtargets = before.subtargets ∨
    graph.IsAt (if name = rootName then .ready else .notStarted) ∧
      ∃ subtarget, after.subtargets = before.subtargets ++ [subtarget]
  tasks : after.tasks = before.tasks ∨
    graph.IsAt .notStarted ∧ ∃ task, after.tasks = before.tasks ++ [task]

namespace Declares

variable {World Task : Type} {graph : Graph Task} {name : String}
  {before after : TargetDeclaration World}

theorem of_same (same : after = before) : Declares graph name before after :=
  same ▸ ⟨.inl rfl, .inl rfl, .inl rfl⟩

/-- Of what is not the root target, nothing is declared but before the graph is ready. -/
theorem ordinary (declares : Declares graph name before after) (other : name ≠ rootName)
    (late : ¬ graph.IsAt .notStarted) : after = before := by
  obtain ⟨description, subtargets, tasks⟩ := declares
  rw [if_neg other] at subtargets
  replace description := description.resolve_right fun early => late early.1
  replace subtargets := subtargets.resolve_right fun early => late early.1
  replace tasks := tasks.resolve_right fun early => late early.1
  cases before
  cases after
  simp_all

theorem settled (declares : Declares graph name before after) (settled : graph.Settled) :
    after = before := by
  have late := settled.not_at (.inl rfl)
  by_cases root : name = rootName
  · obtain ⟨description, subtargets, tasks⟩ := declares
    rw [if_pos root] at subtargets
    replace description := description.resolve_right fun early => late early.1
    replace subtargets := subtargets.resolve_right fun ready => settled.not_at (.inr rfl) ready.1
    replace tasks := tasks.resolve_right fun early => late early.1
    cases before
    cases after
    simp_all
  · exact declares.ordinary root late

end Declares

namespace Machine

variable {World : Type} {machine next : Machine World} {target : String}

def declaration (machine : Machine World) (name : String) : TargetDeclaration World :=
  { description := machine.graph.describedAs name
    subtargets := machine.graph.subtargets name
    tasks := added name machine.journal }

/-- A target that begins fails in a graph that is not there or not running, or takes its tasks. -/
theorem begin_cases (machine : Machine World) (name : String) :
    (∃ error, machine.begin name = machine.finish name (.error error)) ∨
    (∃ error, machine.begin name = machine.fail name error) ∨
    ∃ target, machine.graph.target? name = some target ∧ machine.begin name =
      setProgress { machine with graph := machine.graph.opened name } name
        (.depending target.subtargets target.tasks) := by
  unfold begin
  split
  · exact .inl ⟨_, rfl⟩
  · refine .inr ?_
    generalize opened : (if name = rootName ∧ machine.graph.status ∈ [.notStarted, .ready] then
      { machine.graph with status := .running } else machine.graph) = graph
    have targets : graph.targets = machine.graph.targets ∧ graph.isDropped = machine.graph.isDropped := by
      rw [← opened]
      split <;> exact ⟨rfl, rfl⟩
    dsimp only
    split
    · exact .inl ⟨_, rfl⟩
    next running =>
      have same : graph = { machine.graph with status := .running } := by
        rcases graph with ⟨status, isDropped, entries⟩
        obtain ⟨rfl, rfl⟩ := targets
        obtain rfl : status = .running := Classical.not_not.mp running
        rfl
      subst same
      split
      · exact .inl ⟨_, rfl⟩
      next target found => exact .inr ⟨target, found, rfl⟩

/-- A step in which no operation is carried out and no target begins. -/
structure Undeclaring (before after : Machine World) : Prop where
  targets : after.graph.targets = before.graph.targets
  added : ∀ name, added name after.journal = added name before.journal

theorem undeclaring_start (machine : Machine World) (name : String) :
    machine.Undeclaring (machine.start name) := by
  unfold start
  split <;> exact ⟨rfl, fun _ => rfl⟩

theorem undeclaring_nextTask (machine : Machine World) (name : String) (place : Nat)
    (tasks : List (Program World)) : machine.Undeclaring (machine.nextTask name place tasks) := by
  cases tasks <;> exact ⟨rfl, fun _ => rfl⟩

/-- What one step of a target comes to: it begins, its task operates on the graph, or it declares nothing. -/
theorem work_cases {place : Nat} {program : Program World} {rest : List (Program World)}
    (stepped : machine.work? target place program rest = some next) :
    (∃ operation, next.graph = (machine.operate operation).1.graph ∧
      next.journal = (machine.operate operation).1.journal) ∨ machine.Undeclaring next := by
  cases program with
  | finish outcome =>
    cases outcome with
    | ok =>
      cases stepped
      have ended := undeclaring_nextTask (machine.record (.returned target place (.ok ()))) target
        (place + 1) rest
      exact .inr ⟨ended.targets, ended.added⟩
    | error error =>
      cases stepped
      exact .inr ⟨rfl, fun _ => rfl⟩
  | operate operation =>
    cases stepped
    exact .inl ⟨operation, rfl, rfl⟩
  | suspend | act | observe =>
    cases stepped
    exact .inr ⟨rfl, fun _ => rfl⟩
  | start other =>
    cases stepped
    have started := undeclaring_start machine other
    exact .inr ⟨started.targets, started.added⟩
  | await other =>
    simp only [work?] at stepped
    split at stepped
    · cases stepped
      exact .inr (undeclaring_start machine other)
    · cases stepped
      exact .inr ⟨rfl, fun _ => rfl⟩
    · cases stepped

theorem advance_cases (stepped : machine.advance? target = some next) :
    (machine.progress? target = some .begun ∧ next = machine.begin target) ∨
    (∃ operation, next.graph = (machine.operate operation).1.graph ∧
      next.journal = (machine.operate operation).1.journal) ∨ machine.Undeclaring next := by
  unfold advance? at stepped
  split at stepped
  · cases stepped
  · cases stepped
  next begun =>
    cases stepped
    exact .inl ⟨begun, rfl⟩
  · cases stepped
    exact .inr (.inr (undeclaring_nextTask machine target 0 _))
  next subtarget _ _ _ =>
    refine .inr (.inr ?_)
    split at stepped
    · cases stepped
      exact ⟨rfl, fun _ => rfl⟩
    · split at stepped
      · cases stepped
        exact undeclaring_start machine subtarget
      next outcome _ =>
        cases outcome <;>
        · cases stepped
          exact ⟨rfl, fun _ => rfl⟩
      · cases stepped
  · exact .inr (work_cases stepped)

section Declaring

variable (name : String)

theorem Undeclaring.declaration (undeclaring : machine.Undeclaring next) :
    next.declaration name = machine.declaration name := by
  rw [Machine.declaration, Machine.declaration, Graph.describedAs_of_targets undeclaring.targets,
    Graph.subtargets_of_targets undeclaring.targets, undeclaring.added]

/-- A target that begins takes its tasks, and leaves all that has been declared as it is. -/
theorem begin_declaration (machine : Machine World) (begun : String) :
    (machine.begin begun).declaration name = machine.declaration name := by
  rcases machine.begin_cases begun with ⟨error, same⟩ | ⟨error, same⟩ | ⟨held, -, same⟩
  · rw [same]
    rfl
  · rw [same]
    exact Undeclaring.declaration name ⟨rfl, fun _ => rfl⟩
  · rw [same]
    have described := @Graph.updateTarget_describedAs _ { machine.graph with status := .running } begun
      Target.emptied (fun _ => rfl) name
    have depends := @Graph.updateTarget_subtargets _ { machine.graph with status := .running } begun
      Target.emptied (fun _ => rfl) name
    show TargetDeclaration.mk ((machine.graph.opened begun).describedAs name)
      ((machine.graph.opened begun).subtargets name) _ = _
    rw [Graph.opened, described, depends]
    rfl

theorem operate_declares (sorted : Graph.Sorted machine.graph.targets)
    (operation : Operation (Program World)) : Declares machine.graph name (machine.declaration name)
      ((machine.operate operation).1.declaration name) := by
  unfold operate
  cases accepted : machine.graph.operate? operation with
  | error => exact .of_same rfl
  | ok graph =>
    obtain ⟨described, depends⟩ := Graph.operate?_declares sorted accepted name
    cases operation with
    | addTask gaining task =>
      refine ⟨described, depends, ?_⟩
      by_cases here : gaining = name
      · exact .inr ⟨Graph.addTask_at accepted, task, if_pos here⟩
      · exact .inl (if_neg here)
    | create | markReady | markClosed | describe | depend => exact ⟨described, depends, .inl rfl⟩

theorem move_declares (sorted : Graph.Sorted machine.graph.targets) (move : Move World) :
    Declares machine.graph name (machine.declaration name) ((machine.move move).declaration name) := by
  cases move with
  | operate operation => exact operate_declares name sorted operation
  | start target => exact .of_same ((undeclaring_start machine target).declaration name)
  | advance target =>
    show Declares _ _ _ (((machine.advance? target).getD machine).declaration name)
    cases stepped : machine.advance? target with
    | none => exact .of_same rfl
    | some next =>
      rcases advance_cases stepped with ⟨-, rfl⟩ | ⟨operation, graph, journal⟩ | undeclaring
      · exact .of_same (begin_declaration name machine target)
      · have declares := operate_declares name sorted operation
        rw [declaration, declaration, ← graph, ← journal] at declares
        exact declares
      · exact .of_same (undeclaring.declaration name)
  | drop => exact .of_same (Undeclaring.declaration name ⟨rfl, fun _ => rfl⟩)

end Declaring

theorem move_rank_le (machine : Machine World) (move : Move World) :
    machine.graph.status.rank ≤ (machine.move move).graph.status.rank := by
  by_cases drop : move = .drop
  · subst drop
    exact Nat.le_refl _
  · exact (move_changes machine drop).rank_le

theorem move_isDropped (dropped : machine.graph.isDropped = true) (move : Move World) :
    (machine.move move).graph.isDropped = true := by
  by_cases drop : move = .drop
  · subst drop
    rfl
  · exact (move_changes machine drop).isDropped.trans dropped

end Machine

theorem Status.started_iff {status : Status} :
    status ∉ [.notStarted, .ready] ↔ Status.running.rank ≤ status.rank := by
  cases status <;> decide

theorem Status.opened_iff {status : Status} :
    status ≠ .notStarted ↔ Status.ready.rank ≤ status.rank := by
  cases status <;> decide

namespace Machine

variable {World : Type} {machine : Machine World}

theorem move_settled (settled : machine.graph.Settled) (move : Move World) :
    (machine.move move).graph.Settled := by
  rcases settled with dropped | started
  · exact .inl (move_isDropped dropped move)
  · exact .inr (Status.started_iff.mpr
      (Nat.le_trans (Status.started_iff.mp started) (move_rank_le machine move)))

/-- What no move ends, no sequence of moves ends. -/
theorem moves_hold {holds : Machine World → Prop}
    (stays : ∀ machine move, holds machine → holds (machine.move move)) (start : holds machine)
    (moves : List (Move World)) : holds (machine.moves moves) := by
  induction moves generalizing machine with
  | nil => exact start
  | cons move moves ih => exact ih (stays machine move start)

/-- A declaration that no move changes while something holds that no move ends is changed by no sequence of
moves. -/
theorem declaration_moves {holds : Machine World → Prop} {name : String}
    (stays : ∀ machine move, holds machine → holds (machine.move move))
    (same : ∀ machine move, holds machine →
      (machine.move move).declaration name = machine.declaration name)
    (start : holds machine) (moves : List (Move World)) :
    (machine.moves moves).declaration name = machine.declaration name := by
  induction moves generalizing machine with
  | nil => rfl
  | cons move moves ih => exact (ih (stays machine move start)).trans (same machine move start)

section Freeze

variable (layered : machine.graph.Layered) (name : String)
include layered

theorem declaration_settled (settled : machine.graph.Settled) (moves : List (Move World)) :
    (machine.moves moves).declaration name = machine.declaration name := by
  have stays : ∀ (machine : Machine World) (move : Move World),
      machine.graph.Layered ∧ machine.graph.Settled →
      (machine.move move).graph.Layered ∧ (machine.move move).graph.Settled :=
    fun _ move ⟨layered, settled⟩ => ⟨move_layered layered move, move_settled settled move⟩
  have same : ∀ (machine : Machine World) (move : Move World),
      machine.graph.Layered ∧ machine.graph.Settled →
      (machine.move move).declaration name = machine.declaration name :=
    fun _ move ⟨layered, settled⟩ => (move_declares name layered.sorted move).settled settled
  exact declaration_moves stays same ⟨layered, settled⟩ moves

/-- What is declared of a target other than the root target stands from when the graph is ready. -/
theorem declaration_opened (other : name ≠ rootName)
    (opened : Status.ready.rank ≤ machine.graph.status.rank) (moves : List (Move World)) :
    (machine.moves moves).declaration name = machine.declaration name := by
  have stays : ∀ (machine : Machine World) (move : Move World),
      machine.graph.Layered ∧ Status.ready.rank ≤ machine.graph.status.rank →
      (machine.move move).graph.Layered ∧
        Status.ready.rank ≤ (machine.move move).graph.status.rank :=
    fun machine move ⟨layered, opened⟩ =>
      ⟨move_layered layered move, Nat.le_trans opened (move_rank_le machine move)⟩
  have same : ∀ (machine : Machine World) (move : Move World),
      machine.graph.Layered ∧ Status.ready.rank ≤ machine.graph.status.rank →
      (machine.move move).declaration name = machine.declaration name := by
    rintro machine move ⟨layered, opened⟩
    apply (move_declares name layered.sorted move).ordinary other
    exact fun early => Status.opened_iff.mpr opened early.2
  exact declaration_moves stays same ⟨layered, opened⟩ moves

theorem description_moves {text : String} (described : (machine.declaration name).description = some text)
    (moves : List (Move World)) : ((machine.moves moves).declaration name).description = some text := by
  have stays : ∀ (machine : Machine World) (move : Move World),
      machine.graph.Layered ∧ (machine.declaration name).description = some text →
      (machine.move move).graph.Layered ∧
        ((machine.move move).declaration name).description = some text := by
    rintro machine move ⟨layered, described⟩
    refine ⟨move_layered layered move, ?_⟩
    rcases (move_declares name layered.sorted move).description with same | ⟨-, blank⟩
    · exact same.trans described
    · cases described.symm.trans blank
  exact (moves_hold stays ⟨layered, described⟩ moves).2

omit layered in
theorem moves_started (started : machine.graph.status ∉ [.notStarted, .ready])
    (moves : List (Move World)) : (machine.moves moves).graph.status ∉ [.notStarted, .ready] := by
  have stays : ∀ (machine : Machine World) (move : Move World),
      machine.graph.status ∉ [.notStarted, .ready] →
      (machine.move move).graph.status ∉ [.notStarted, .ready] := by
    intro machine move started
    have rank := Status.started_iff.mp started
    exact Status.started_iff.mpr (Nat.le_trans rank (move_rank_le machine move))
  exact moves_hold stays started moves

end Freeze

/-- A refused operation leaves everything as it is, and a task that asked for it is told so. -/
theorem operate_refused {operation : Operation (Program World)} {error : TaskError}
    (refused : (machine.operate operation).2 = .error error) :
    (machine.operate operation).1 = machine ∧ ∀ target place following rest,
      machine.progress? target = some (.working place (.operate operation following) rest) →
      machine.move (.advance target) =
        machine.setProgress target (.working place (following (.error error)) rest) := by
  have same : machine.operate operation = (machine, .error error) := by
    unfold operate at refused ⊢
    split at refused
    next found =>
      cases refused
      rfl
    · split at refused <;> cases refused
  refine ⟨congrArg Prod.fst same, fun target place following rest running => ?_⟩
  simp only [move, advance?, running, work?, same, Option.getD_some]

/-- Declarations stand when work starts. Whatever is declared, waited for and carried out in whichever order,
descriptions, dependencies and tasks are declared only in the status that each of them belongs to and are
never taken back, and what is refused changes nothing. Once a graph is ready all this stands for every target
but the root target, and once it has been started, for all of them, whatever its tasks ask for. -/
theorem declarations_freeze (world : World) (moves : List (Move World)) :
    let machine := ({ world } : Machine World).moves moves
    (∀ move name, Declares machine.graph name (machine.declaration name)
      ((machine.move move).declaration name)) ∧
    (∀ name text, (machine.declaration name).description = some text →
      ∀ more, ((machine.moves more).declaration name).description = some text) ∧
    (∀ operation error, (machine.operate operation).2 = .error error →
      (machine.operate operation).1 = machine ∧ ∀ target place following rest,
        machine.progress? target = some (.working place (.operate operation following) rest) →
        machine.move (.advance target) =
          machine.setProgress target (.working place (following (.error error)) rest)) ∧
    (machine.graph.status ≠ .notStarted → ∀ name, name ≠ rootName →
      ∀ more, (machine.moves more).declaration name = machine.declaration name) ∧
    (machine.graph.status ∉ [.notStarted, .ready] → ∀ more,
      (machine.moves more).graph.status ∉ [.notStarted, .ready] ∧
        ∀ name, (machine.moves more).declaration name = machine.declaration name) := by
  intro machine
  have layered : machine.graph.Layered := moves_layered Graph.layered_empty moves
  refine ⟨fun move name => move_declares name layered.sorted move, fun name text described more => ?_,
    fun operation error refused => operate_refused refused, fun opened name other more => ?_,
    fun started more => ⟨moves_started started more, fun name => ?_⟩⟩
  · exact description_moves layered name described more
  · exact declaration_opened layered name other (Status.opened_iff.mp opened) more
  · exact declaration_settled layered name (.inr started) more

def redescribesCar : Program Unit := .operate (.describe "car" "Another car.") .finish

def describesCar : List (Move Unit) :=
  [.operate (.create "car"), .operate (.describe "car" "A car."), .operate (.addTask "car" redescribesCar),
    .start rootName, .advance rootName, .start "car", .advance "car", .advance "car"]

/-- A car that is described anew by its own task, when it is too late for that. -/
theorem declarations_freeze_car :
    let machine := ({ world := () } : Machine Unit).moves describesCar
    machine.graph.status = .running ∧
    machine.move (.advance "car") = machine.setProgress "car"
      (.working 0 (.finish (.error (.status .notStarted .running))) []) ∧
    ∀ more, (machine.moves more).graph.status ∉ [.notStarted, .ready] ∧
      ((machine.moves more).declaration "car").description = some "A car." ∧
      (machine.moves more).declaration "car" = machine.declaration "car" ∧
      ((machine.moves more).declaration rootName).tasks.length = 0 := by
  intro machine
  obtain ⟨-, once, refused, opened, started⟩ := declarations_freeze () describesCar
  have running : machine.graph.status = .running := rfl
  have denied : (machine.operate (.describe "car" "Another car.")).2 =
      .error (.status .notStarted .running) := rfl
  refine ⟨running, (refused _ _ denied).2 "car" 0 .finish [] rfl, fun more => ?_⟩
  have early : machine.graph.status ≠ .notStarted := by simp [running]
  have late : machine.graph.status ∉ [.notStarted, .ready] := by simp [running]
  obtain ⟨stays, kept⟩ := started late more
  refine ⟨stays, once "car" _ rfl more, opened early "car" (by decide) more, ?_⟩
  rw [kept rootName]
  rfl

end Machine

end CompositeKeys.Tasks
