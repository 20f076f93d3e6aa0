import CompositeKeys.Proofs.Tasks.RootRun
import Mathlib.Algebra.Order.BigOperators.Group.List
import Mathlib.Algebra.Order.Ring.Nat

/-! How many steps a run takes whose tasks change the world at most once. A target is charged for what it
has still to do, and every step lowers what all targets together are charged. -/

namespace CompositeKeys.Tasks

variable {World : Type}

/-- A task that changes the world and ends, or just ends. -/
def Program.Brief : Program World → Prop
  | .finish _ => True
  | .act _ next => ∀ world, ∃ outcome, next world = .finish outcome
  | _ => False

def Program.charge : Program World → Nat
  | .act .. => 2
  | _ => 1

theorem Program.charge_le (program : Program World) : program.charge ≤ 2 := by
  unfold Program.charge
  split <;> omega

theorem Program.charge_pos (program : Program World) : 0 < program.charge := by
  unfold Program.charge
  split <;> omega

def Progress.Brief : Progress World → Prop
  | .depending _ tasks => ∀ task ∈ tasks, task.Brief
  | .working _ program rest => program.Brief ∧ ∀ task ∈ rest, task.Brief
  | .begun | .finished _ => True

/-- What a target that is under way has still to do, if it had so much to do from the beginning on. -/
def Progress.charge (load : Nat) : Progress World → Nat
  | .begun => 2 + load
  | .depending subtargets tasks => 1 + subtargets.length + 2 * tasks.length
  | .working _ program rest => program.charge + 2 * rest.length
  | .finished _ => 0

theorem Progress.charge_pos {load : Nat} {progress : Progress World}
    (unfinished : ∀ outcome, progress ≠ .finished outcome) : 0 < progress.charge load := by
  cases progress with
  | begun => exact Nat.add_pos_left (Nat.succ_pos 1) load
  | depending subtargets tasks =>
    show 0 < 1 + subtargets.length + 2 * tasks.length
    omega
  | working place program rest => exact Nat.add_pos_left program.charge_pos _
  | finished outcome => exact (unfinished outcome rfl).elim

def Graph.load {Task : Type} (graph : Graph Task) (name : String) : Nat :=
  (graph.subtargets name).length + 2 * (graph.pending name).length

theorem Graph.load_congr {Task : Type} {graph next : Graph Task} {name : String}
    (same : next.target? name = graph.target? name) : next.load name = graph.load name := by
  rw [load, load, subtargets, subtargets, pending, pending, same]

theorem Graph.mem_targetNames {Task : Type} {graph : Graph Task} {name : String}
    (present : (graph.target? name).isSome = true) : name ∈ graph.targetNames := by
  obtain ⟨entry, member, same⟩ := List.lookup_isSome_iff.mp present
  exact List.mem_map.mpr ⟨entry, member, (beq_iff_eq.mp same).symm⟩

namespace Machine

def charge (machine : Machine World) (name : String) : Nat :=
  match machine.progress? name with
  | none => 3 + machine.graph.load name
  | some progress => progress.charge (machine.graph.load name)

def budget (machine : Machine World) : Nat := (machine.graph.targetNames.map machine.charge).sum

/-- All that is under way belongs to the graph, and all tasks are brief. -/
structure Brisk (machine : Machine World) : Prop where
  pending : ∀ name, ∀ task ∈ machine.graph.pending name, task.Brief
  handed : ∀ name progress, machine.progress? name = some progress → progress.Brief
  known : ∀ name progress, machine.progress? name = some progress → name ∈ machine.graph.targetNames

variable {machine next : Machine World}

theorem charge_of {name : String} {progress : Progress World}
    (running : machine.progress? name = some progress) :
    machine.charge name = progress.charge (machine.graph.load name) := by
  rw [charge, running]

theorem budget_lt (names : next.graph.targetNames = machine.graph.targetNames)
    (lower : ∀ name, next.charge name ≤ machine.charge name) {target : String}
    (known : target ∈ machine.graph.targetNames) (cheaper : next.charge target < machine.charge target) :
    next.budget < machine.budget := by
  rw [budget, budget, names]
  exact List.sum_lt_sum _ _ (fun name _ => lower name) ⟨target, known, cheaper⟩

theorem Brisk.record (brisk : machine.Brisk) (event : Event World) : (machine.record event).Brisk :=
  ⟨brisk.pending, brisk.handed, brisk.known⟩

/-- Somebody is waited for who has not begun. -/
theorem Brisk.start (brisk : machine.Brisk) {other : String} (fresh : machine.progress? other = none)
    (known : other ∈ machine.graph.targetNames) :
    (machine.start other).Brisk ∧ (machine.start other).budget < machine.budget := by
  have graph : (machine.start other).graph = machine.graph := by
    rw [Machine.start, fresh]
  have runs : ∀ name, (machine.start other).progress? name =
      if name = other then some .begun else machine.progress? name := by
    intro name
    rw [start_progress?, fresh]
    rfl
  have cheaper : (machine.start other).charge other < machine.charge other := by
    rw [charge_of ((runs other).trans (if_pos rfl)), charge, fresh, graph]
    exact Nat.add_lt_add_right (Nat.lt_succ_self 2) _
  refine ⟨⟨graph ▸ brisk.pending, fun name progress => ?_, fun name progress => ?_⟩, ?_⟩
  · rw [runs]
    split
    · exact fun same => Option.some.inj same ▸ trivial
    · exact brisk.handed name progress
  · rw [runs, graph]
    split
    next same => exact fun _ => same ▸ known
    · exact brisk.known name progress
  · refine budget_lt (by rw [graph]) (fun name => ?_) known cheaper
    by_cases same : name = other
    · subst same
      exact Nat.le_of_lt cheaper
    · rw [charge, charge, runs, if_neg same, graph]

section Spend

variable {target : String} {current progress : Progress World} (brisk : machine.Brisk)
  (running : machine.progress? target = some current)
include brisk running

/-- A target gets on by itself. -/
theorem Brisk.spend
    (runs : ∀ name, next.progress? name = if name = target then some progress else machine.progress? name)
    (names : next.graph.targetNames = machine.graph.targetNames)
    (held : ∀ name, name ≠ target → next.graph.target? name = machine.graph.target? name)
    (pending : ∀ task ∈ next.graph.pending target, task ∈ machine.graph.pending target)
    (handed : progress.Brief)
    (cheaper : progress.charge (next.graph.load target) < current.charge (machine.graph.load target)) :
    next.Brisk ∧ next.budget < machine.budget := by
  have known : target ∈ machine.graph.targetNames := brisk.known target current running
  have own : next.charge target < machine.charge target := by
    rw [charge_of ((runs target).trans (if_pos rfl)), charge_of running]
    exact cheaper
  refine ⟨⟨fun name task member => ?_, fun name other => ?_, fun name other => ?_⟩, ?_⟩
  · by_cases same : name = target
    · subst same
      exact brisk.pending name task (pending task member)
    · rw [Graph.pending, held name same] at member
      exact brisk.pending name task member
  · rw [runs]
    split
    · exact fun same => Option.some.inj same ▸ handed
    · exact brisk.handed name other
  · rw [runs, names]
    split
    next same => exact fun _ => same ▸ known
    · exact brisk.known name other
  · refine budget_lt names (fun name => ?_) known own
    by_cases same : name = target
    · subst same
      exact Nat.le_of_lt own
    · rw [charge, charge, runs, if_neg same, Graph.load_congr (held name same)]

theorem Brisk.setProgress (handed : progress.Brief)
    (cheaper : progress.charge (machine.graph.load target) < current.charge (machine.graph.load target)) :
    (machine.setProgress target progress).Brisk ∧
      (machine.setProgress target progress).budget < machine.budget :=
  brisk.spend running (fun name => machine.setProgress_progress? target name progress running) rfl
    (fun _ _ => rfl) (fun _ => id) handed cheaper

variable (unfinished : ∀ outcome, current ≠ .finished outcome)

include unfinished in
theorem Brisk.finish {graph : Graph (Program World)} (same : graph.targets = machine.graph.targets)
    (outcome : Outcome) : (Machine.finish { machine with graph } target outcome).Brisk ∧
      (Machine.finish { machine with graph } target outcome).budget < machine.budget := by
  have found : graph.target? = machine.graph.target? := by
    funext name
    rw [Graph.target?, Graph.target?, same]
  have ended : (Machine.setProgress { machine with graph } target (.finished outcome)).Brisk ∧
      (Machine.setProgress { machine with graph } target (.finished outcome)).budget < machine.budget := by
    refine brisk.spend running
      (fun name => setProgress_progress? { machine with graph } target name _ running)
      (congrArg (List.map Prod.fst) same) (fun name _ => congrFun found name) (fun task member => ?_)
      trivial (Progress.charge_pos unfinished)
    rw [Graph.pending, ← found]
    exact member
  exact ⟨ended.1.record _, ended.2⟩

include unfinished in
theorem Brisk.fail (error : TaskError) :
    (machine.fail target error).Brisk ∧ (machine.fail target error).budget < machine.budget :=
  @Brisk.finish World machine target current brisk running unfinished
    { machine.graph with status := .errored } rfl (.error error)

theorem Brisk.nextTask {place : Nat} {tasks : List (Program World)} (handed : ∀ task ∈ tasks, task.Brief)
    (cheaper : 1 + 2 * tasks.length ≤ current.charge (machine.graph.load target)) :
    (machine.nextTask target place tasks).Brisk ∧
      (machine.nextTask target place tasks).budget < machine.budget := by
  cases tasks with
  | nil =>
    have unfinished : ∀ outcome, current ≠ .finished outcome := by
      rintro outcome rfl
      exact absurd cheaper (by simp [Progress.charge])
    exact brisk.finish running unfinished rfl (.ok ())
  | cons task rest =>
    have working : (machine.setProgress target (.working place task rest)).Brisk ∧
        (machine.setProgress target (.working place task rest)).budget < machine.budget := by
      refine brisk.setProgress running (List.forall_mem_cons.mp handed) ?_
      have most := task.charge_le
      rw [List.length_cons] at cheaper
      show task.charge + 2 * rest.length < _
      omega
    exact ⟨working.1.record _, working.2⟩

end Spend

section Steps

variable {target : String} (brisk : machine.Brisk)
include brisk

theorem Brisk.begin (running : machine.progress? target = some .begun) :
    (machine.begin target).Brisk ∧ (machine.begin target).budget < machine.budget := by
  unfold Machine.begin
  split
  · exact brisk.finish running nofun rfl _
  · dsimp only
    generalize graphed : (if target = rootName ∧ machine.graph.status ∈ [.notStarted, .ready] then
      { machine.graph with status := .running } else machine.graph) = graph
    have targets : graph.targets = machine.graph.targets := by
      rw [← graphed]
      split <;> rfl
    have found : ∀ name, graph.target? name = machine.graph.target? name := by
      intro name
      rw [Graph.target?, Graph.target?, targets]
    split
    · exact brisk.fail running nofun _
    · split
      · exact brisk.fail running nofun _
      next node here =>
        have held : machine.graph.target? target = some node := found target ▸ here
        have pending : machine.graph.pending target = node.tasks := by
          rw [Graph.pending, held]
          rfl
        have taken : ∀ name, (graph.updateTarget target Target.emptied).target? name =
            if name = target then some node.emptied else machine.graph.target? name := by
          intro name
          rw [Graph.updateTarget_target?, here, found]
          rfl
        refine brisk.spend running
          (fun name => setProgress_progress? { machine with graph := _ } target name _ running)
          ?_ (fun name apart => (taken name).trans (if_neg apart)) (fun task member => ?_)
          (fun task member => brisk.pending target task (pending ▸ member)) ?_
        · exact (Graph.updateTarget_targetNames target _).trans (congrArg (List.map Prod.fst) targets)
        · have member : task ∈ (graph.updateTarget target Target.emptied).pending target := member
          rw [Graph.pending, taken, if_pos rfl] at member
          cases member
        · show 1 + node.subtargets.length + 2 * node.tasks.length < 2 + machine.graph.load target
          rw [Graph.load, pending, Graph.subtargets_of_target? held]
          omega

theorem Brisk.work {place : Nat} {program : Program World} {rest : List (Program World)}
    (running : machine.progress? target = some (.working place program rest))
    (stepped : machine.work? target place program rest = some next) :
    next.Brisk ∧ next.budget < machine.budget := by
  obtain ⟨brief, others⟩ : program.Brief ∧ ∀ task ∈ rest, task.Brief := brisk.handed target _ running
  cases program with
  | finish outcome =>
    have returned := brisk.record (.returned target place outcome)
    cases outcome with
    | ok =>
      cases stepped
      exact returned.nextTask running others (Nat.le_refl _)
    | error error =>
      cases stepped
      exact returned.fail running nofun error
  | act change following =>
    obtain ⟨outcome, last⟩ := brief machine.world
    have stepped : Machine.setProgress { machine with world := change machine.world } target
        (.working place (.finish outcome) rest) = next := last ▸ Option.some.inj stepped
    subst stepped
    refine brisk.spend running
      (fun name => setProgress_progress? { machine with world := _ } target name _ running) rfl
      (fun _ _ => rfl) (fun _ => id) ⟨trivial, others⟩ ?_
    exact Nat.add_lt_add_right (Nat.lt_succ_self 1) _
  | suspend | operate | observe | start | await => exact brief.elim

theorem Brisk.advance (stepped : machine.advance? target = some next) :
    next.Brisk ∧ next.budget < machine.budget := by
  unfold advance? at stepped
  split at stepped
  · cases stepped
  · cases stepped
  next running =>
    cases stepped
    exact brisk.begin running
  next tasks running =>
    cases stepped
    exact brisk.nextTask running (brisk.handed target _ running) (Nat.le_refl _)
  next subtarget rest tasks running =>
    have handed : ∀ task ∈ tasks, task.Brief := brisk.handed target _ running
    split at stepped
    · cases stepped
      exact brisk.fail running nofun _
    next found =>
      split at stepped
      next fresh =>
        cases stepped
        refine brisk.start fresh (Graph.mem_targetNames ?_)
        rw [← Option.not_isNone, Bool.eq_false_iff.mpr found]
        rfl
      next outcome _ =>
        have told := brisk.record (.delivered target subtarget outcome)
        cases outcome with
        | ok =>
          cases stepped
          refine told.setProgress running handed ?_
          show 1 + rest.length + 2 * tasks.length < 1 + (rest.length + 1) + 2 * tasks.length
          omega
        | error error =>
          cases stepped
          exact told.fail running nofun error
      · cases stepped
  next running => exact brisk.work running stepped

/-- Takes a step of each of the targets in turn, if each of them can take one. -/
def advances? (machine : Machine World) (targets : List String) : Option (Machine World) :=
  targets.foldlM advance? machine

/-- Nobody can take more steps than are left. -/
theorem Brisk.steps {targets : List String} (taken : machine.advances? targets = some next) :
    next.Brisk ∧ next.budget + targets.length ≤ machine.budget := by
  induction targets generalizing machine with
  | nil =>
    cases taken
    exact ⟨brisk, Nat.le_refl _⟩
  | cons target targets ih =>
    rw [advances?, List.foldlM_cons] at taken
    obtain ⟨between, stepped, taken⟩ := Option.bind_eq_some_iff.mp taken
    obtain ⟨brisk, less⟩ := brisk.advance stepped
    obtain ⟨brisk, rest⟩ := ih brisk taken
    rw [List.length_cons]
    exact ⟨brisk, by omega⟩

/-- Within so many steps settling comes to where nobody can take one. -/
theorem Brisk.settled {limit : Nat} (enough : machine.budget ≤ limit) :
    ∀ run ∈ (machine.settle limit).runs, (machine.settle limit).advance? run.1 = none := by
  induction limit generalizing machine with
  | zero =>
    intro run member
    cases stepped : machine.advance? run.1 with
    | none => exact stepped
    | some next =>
      have less := (brisk.advance stepped).2
      omega
  | succ limit ih =>
    cases choice : machine.runs.findSome? fun run => machine.advance? run.1 with
    | none =>
      have same : machine.settle (limit + 1) = machine := by simp only [settle, choice]
      rw [same]
      exact List.findSome?_eq_none_iff.mp choice
    | some next =>
      have same : machine.settle (limit + 1) = next.settle limit := by simp only [settle, choice]
      obtain ⟨run, _, stepped⟩ := List.exists_of_findSome?_eq_some choice
      obtain ⟨brisk, less⟩ := brisk.advance stepped
      rw [same]
      exact ih brisk (by omega)

end Steps

section Run

variable {graph : Graph (Program World)} {goal : Tally World × Outcome} {position : Position World}
  (launchable : graph.Launchable)
include launchable

theorem Stands.settle (stands : Stands graph goal machine position) (limit : Nat) :
    ∃ later, Stands graph goal (machine.settle limit) later := by
  induction limit generalizing machine position with
  | zero => exact ⟨position, stands⟩
  | succ limit ih =>
    unfold Machine.settle
    split
    next next choice =>
      obtain ⟨run, _, stepped⟩ := List.exists_of_findSome?_eq_some choice
      obtain ⟨later, standing, _⟩ := stands.step launchable stepped
      exact ih standing
    · exact ⟨position, stands⟩

/-- A run of brief tasks is over within its budget. -/
theorem Stands.ran_within (stands : Stands graph goal machine position) (brisk : machine.Brisk)
    {limit : Nat} (enough : machine.budget ≤ limit) : Ran graph goal (machine.settle limit) := by
  obtain ⟨later, standing⟩ := stands.settle launchable limit
  obtain ⟨outcome, ended⟩ := standing.ended launchable (brisk.settled enough)
  exact standing.ran ended

end Run

end Machine

end CompositeKeys.Tasks
