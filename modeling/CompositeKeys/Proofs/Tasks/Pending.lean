import CompositeKeys.Proofs.Tasks.Aftermath
import CompositeKeys.Proofs.Tasks.Declarations
import Mathlib.Data.List.Induction

/-! What the count of pending tasks tells. It counts the tasks that a target has in the graph, and these are
all or none: a target takes them all at once, before it waits for what it depends on. From then on those that
have not been started are in its hands and are not counted, and when it fails they are lost. -/

namespace CompositeKeys.Tasks
open Journal

namespace Graph

variable {Task : Type} {graph next : Graph Task}

theorem pending_of_targets (same : next.targets = graph.targets) (name : String) :
    next.pending name = graph.pending name := by
  rw [pending, pending, target?, target?, same]

theorem opened_pending (begun name : String) :
    (graph.opened begun).pending name = if name = begun then [] else graph.pending name := by
  rw [pending, opened, updateTarget_target?]
  split
  · cases target? { graph with status := .running } begun <;> rfl
  · rfl

end Graph

namespace Machine

variable {World : Type} {machine next : Machine World} {name stepping : String}

theorem begin_pending (machine : Machine World) (apart : name ≠ stepping) :
    (machine.begin stepping).graph.pending name = machine.graph.pending name := by
  rcases machine.begin_cases stepping with ⟨error, same⟩ | ⟨error, same⟩ | ⟨target, -, same⟩
  · rw [same]
    rfl
  · rw [same]
    exact Graph.pending_of_targets rfl name
  · rw [same]
    exact (Graph.opened_pending stepping name).trans (if_neg apart)

section Settled

variable (valid : machine.Valid) (settled : machine.graph.Settled)
include valid settled

theorem operate_pending (operation : Operation (Program World)) (name : String) :
    (machine.operate operation).1.graph.pending name = machine.graph.pending name := by
  unfold operate
  cases accepted : machine.graph.operate? operation with
  | error => rfl
  | ok graph =>
    have same := (Graph.operate?_settled valid.sorted settled accepted).pending name
    cases operation <;> exact same

/-- Only a target that begins takes tasks out of a graph in which nothing is declared any more. -/
theorem advance_pending (other : name ≠ stepping ∨ machine.progress? stepping ≠ some .begun)
    (stepped : machine.advance? stepping = some next) :
    next.graph.pending name = machine.graph.pending name := by
  rcases advance_cases stepped with ⟨begun, rfl⟩ | ⟨operation, same, -⟩ | undeclaring
  · exact begin_pending machine (other.resolve_right fun unbegun => unbegun begun)
  · rw [same]
    exact operate_pending valid settled operation name
  · exact Graph.pending_of_targets undeclaring.targets name

theorem move_pending_of_other {move : Move World} (other : move ≠ .advance name) :
    (machine.move move).graph.pending name = machine.graph.pending name := by
  cases move with
  | operate operation => exact operate_pending valid settled operation name
  | start target => exact Graph.pending_of_targets (undeclaring_start machine target).targets name
  | advance target =>
    have apart : name ≠ target := fun same => other (congrArg _ same.symm)
    show ((machine.advance? target).getD machine).graph.pending name = _
    cases stepped : machine.advance? target with
    | none => rfl
    | some next => exact advance_pending valid settled (.inl apart) stepped
  | drop => exact Graph.pending_of_targets rfl name

end Settled

/-- A target has its tasks in the graph, all of them, and has not gone past its beginning. -/
structure Untaken (machine : Machine World) (name : String) : Prop where
  idle : machine.Idle name
  progress : ∀ progress, machine.progress? name = some progress →
    progress = .begun ∨ ∃ error, progress = .finished (.error error)

/-- The graph has no tasks of a target, and will not be given any. -/
structure Taken (machine : Machine World) (name : String) : Prop where
  pending : machine.graph.pending name = []
  settled : machine.graph.Settled

theorem Taken.move (taken : machine.Taken name) (valid : machine.Valid) (move : Move World) :
    (machine.move move).Taken name := by
  refine ⟨?_, move_settled taken.settled move⟩
  by_cases other : move = .advance name
  · subst other
    show ((machine.advance? name).getD machine).graph.pending name = []
    cases stepped : machine.advance? name with
    | none => exact taken.pending
    | some next =>
      rcases advance_cases stepped with ⟨begun, rfl⟩ | ⟨operation, same, -⟩ | undeclaring
      · rcases machine.begin_cases name with ⟨error, same⟩ | ⟨error, same⟩ | ⟨target, -, same⟩
        · rw [same]
          exact taken.pending
        · rw [same]
          exact taken.pending
        · rw [same]
          exact (Graph.opened_pending name name).trans (if_pos rfl)
      · rw [Option.getD_some, same, operate_pending valid taken.settled]
        exact taken.pending
      · exact (Graph.pending_of_targets undeclaring.targets name).trans taken.pending
  · exact (move_pending_of_other valid taken.settled other).trans taken.pending

/-- Nothing that others do takes the tasks of a target away. -/
theorem Untaken.elsewhere (untaken : machine.Untaken name) (valid : machine.Valid) {move : Move World}
    (other : move ≠ .advance name) : (machine.move move).Untaken name := by
  have elsewhere := move_elsewhere machine other
  have progress : ∀ progress, (machine.move move).progress? name = some progress →
      progress = .begun ∨ ∃ error, progress = .finished (.error error) := by
    intro progress now
    rcases elsewhere.progress with same | ⟨-, begun⟩
    · exact untaken.progress progress (same.symm.trans now)
    · exact .inl (Option.some.inj (now.symm.trans begun))
  refine ⟨?_, progress⟩
  have account := (valid.move move).account name
  cases now : (machine.move move).progress? name with
  | none =>
    rw [now] at account
    cases account with
    | none idle => exact idle
  | some current =>
    rw [now] at account
    rcases progress current now with rfl | ⟨error, rfl⟩
    · cases account with
      | begun idle => exact idle
    · -- the target had been refused before, so that nothing was declared any more
      have refused : machine.progress? name = some (.finished (.error error)) := by
        rcases elsewhere.progress with same | ⟨-, begun⟩
        · exact same.symm.trans now
        · cases now.symm.trans begun
      have settled := valid.settled refused nofun
      have tasks : added name (machine.move move).journal = added name machine.journal :=
        congrArg TargetDeclaration.tasks ((move_declares name valid.sorted move).settled settled)
      exact ⟨(move_pending_of_other valid settled other).trans (untaken.idle.pending.trans tasks.symm),
        elsewhere.started.trans untaken.idle.started⟩

/-- When its turn comes a target is refused, with its tasks left in the graph, or takes them. -/
theorem Untaken.begin (untaken : machine.Untaken name) (begun : machine.progress? name = some .begun) :
    (machine.begin name).Untaken name ∨ (machine.begin name).Taken name ∧ ∃ subtargets tasks,
      (machine.begin name).progress? name = some (.depending subtargets tasks) := by
  have turned : ∀ (graph : Graph (Program World)) (progress : Progress World),
      (setProgress { machine with graph } name progress).progress? name = some progress :=
    fun graph progress => @setProgress_held World { machine with graph } name _ progress begun
  rcases machine.begin_cases name with ⟨error, same⟩ | ⟨error, same⟩ | ⟨target, -, same⟩
  · rw [same]
    refine .inl ⟨⟨untaken.idle.pending, untaken.idle.started⟩, fun progress now =>
      .inr ⟨error, ?_⟩⟩
    exact Option.some.inj (now.symm.trans (turned machine.graph _))
  · rw [same]
    refine .inl ⟨⟨untaken.idle.pending, untaken.idle.started⟩, fun progress now =>
      .inr ⟨error, ?_⟩⟩
    exact Option.some.inj (now.symm.trans (turned _ _))
  · rw [same]
    refine .inr ⟨⟨(Graph.opened_pending name name).trans (if_pos rfl), .inr ?_⟩, _, _, turned _ _⟩
    show Status.running ∉ _
    decide

theorem Untaken.move (untaken : machine.Untaken name) (valid : machine.Valid) (move : Move World) :
    (machine.move move).Untaken name ∨ (machine.move move).Taken name ∧ ∃ subtargets tasks,
      (machine.move move).progress? name = some (.depending subtargets tasks) := by
  by_cases other : move = .advance name
  · subst other
    cases current : machine.progress? name with
    | none =>
      have still : machine.move (.advance name) = machine := by simp [Machine.move, advance?, current]
      exact .inl (still.symm ▸ untaken)
    | some progress =>
      rcases untaken.progress progress current with rfl | ⟨error, rfl⟩
      · have begins : machine.move (.advance name) = machine.begin name := by
          simp [Machine.move, advance?, current]
        exact begins.symm ▸ untaken.begin current
      · have still : machine.move (.advance name) = machine := by
          simp [Machine.move, advance?, current]
        exact .inl (still.symm ▸ untaken)
  · exact .inl (untaken.elsewhere valid other)

/-- At some time in a run a target has gone past its beginning, to wait for what it depends on. -/
def TakesUp (world : World) (moves : List (Move World)) (name : String) : Prop :=
  ∃ early late, moves = early ++ late ∧ ∃ subtargets tasks,
    (({ world } : Machine World).moves early).progress? name = some (.depending subtargets tasks)

theorem takesUp_concat {world : World} {moves : List (Move World)} {move : Move World} :
    TakesUp world (moves ++ [move]) name ↔ TakesUp world moves name ∨ ∃ subtargets tasks,
      (({ world } : Machine World).moves (moves ++ [move])).progress? name =
        some (.depending subtargets tasks) := by
  constructor
  · rintro ⟨early, late, split, depending⟩
    rcases List.eq_nil_or_concat' late with rfl | ⟨before, last, rfl⟩
    · rw [List.append_nil] at split
      exact .inr (split ▸ depending)
    · rw [← List.append_assoc] at split
      exact .inl ⟨early, before, (List.append_inj' split rfl).1, depending⟩
  · rintro (⟨early, late, split, depending⟩ | depending)
    · exact ⟨early, late ++ [move], by rw [split, List.append_assoc], depending⟩
    · exact ⟨moves ++ [move], [], (List.append_nil _).symm, depending⟩

/-- The tasks of a target are all in the graph until it takes them up, and none is from then on. -/
theorem untaken_until_takesUp (world : World) (moves : List (Move World)) (name : String) :
    (¬ TakesUp world moves name → (({ world } : Machine World).moves moves).Untaken name) ∧
      (TakesUp world moves name → (({ world } : Machine World).moves moves).Taken name) := by
  induction moves using List.reverseRecOn with
  | nil =>
    have untaken : ({ world } : Machine World).Untaken name := by
      have account := (valid_initial world).account name
      cases account with
      | none idle => exact ⟨idle, nofun⟩
    refine ⟨fun _ => untaken, ?_⟩
    rintro ⟨early, late, split, subtargets, tasks, depending⟩
    obtain ⟨rfl, -⟩ := List.append_eq_nil_iff.mp split.symm
    cases depending
  | append_singleton moves move ih =>
    have valid := (valid_initial world).moves moves
    have step : ({ world } : Machine World).moves (moves ++ [move]) =
        (({ world } : Machine World).moves moves).move move := moves_append ..
    rw [takesUp_concat, step]
    by_cases before : TakesUp world moves name
    · exact ⟨fun never => (never (.inl before)).elim, fun _ => (ih.2 before).move valid move⟩
    · rcases (ih.1 before).move valid move with untaken | ⟨taken, depending⟩
      · refine ⟨fun _ => untaken, ?_⟩
        rintro (earlier | ⟨subtargets, tasks, depending⟩)
        · exact (before earlier).elim
        · rcases untaken.progress _ depending with begun | ⟨error, refused⟩
          · cases begun
          · cases refused
      · exact ⟨fun never => (never (.inr depending)).elim, fun _ => taken⟩

/-- While a target has not failed, what it has started and what it has still to start make up, with what is
in the graph, all the tasks that have been added to it. -/
theorem Valid.counts (valid : machine.Valid) (name : String)
    (unfailed : ∀ error, machine.outcome? name ≠ some (.error error))
    (placed : machine.Untaken name ∨ machine.Taken name) :
    (machine.graph.pending name).length + (machine.ahead name).length +
      (started name machine.journal).length = (added name machine.journal).length := by
  rcases placed with untaken | taken
  · have none : machine.ahead name = [] := by
      unfold ahead
      cases current : machine.progress? name with
      | none => rfl
      | some progress => rcases untaken.progress progress current with rfl | ⟨error, rfl⟩ <;> rfl
    rw [none, untaken.idle.started, untaken.idle.pending]
    rfl
  · have account := valid.account name
    rw [taken.pending]
    cases current : machine.progress? name with
    | none =>
      rw [current] at account
      cases account with
      | none idle => simp [ahead, current, idle.started, ← idle.pending, taken.pending]
    | some progress =>
      rw [current] at account
      cases account with
      | begun idle => simp [ahead, current, Progress.remaining, idle.started, ← idle.pending, taken.pending]
      | depending tasks none => simp [ahead, current, Progress.remaining, none, tasks]
      | working reached =>
        simp [ahead, current, Progress.remaining, reached.started, reached.remaining]
        omega
      | completed reached =>
        simp [ahead, current, Progress.remaining, reached.completed.1]
      | failed => exact (unfailed _ (outcome?_eq_some.mpr current)).elim

/-- The count of pending tasks is that of the tasks added and not started until the target takes up its tasks,
and zero from then on, so that it is truthful exactly if by then they have all been started. Those that a
target has taken up and not started make up the difference, unless it has failed. -/
theorem pending_truthful_iff (world : World) (moves : List (Move World)) (name : String)
    (target : Target (Program World)) :
    let machine := ({ world } : Machine World).moves moves
    let added := (added name machine.journal).length
    let started := (started name machine.journal).length
    let pending := (target.view name).pendingTasks
    machine.graph.target? name = some target →
    (pending + started = added ↔ (TakesUp world moves name → started = added)) ∧
    (¬ TakesUp world moves name → pending = added ∧ started = 0) ∧
    (TakesUp world moves name → pending = 0) ∧
    ((∀ error, machine.outcome? name ≠ some (.error error)) →
      pending + (machine.ahead name).length + started = added) ∧
    (machine.outcome? name = some (.ok ()) → pending = 0 ∧ started = added) := by
  intro machine added started pending found
  have valid : machine.Valid := (valid_initial world).moves moves
  obtain ⟨before, after⟩ := untaken_until_takesUp world moves name
  have counted : pending = (machine.graph.pending name).length := by
    rw [Graph.pending, found]
    rfl
  have untaken : ¬ TakesUp world moves name → pending = added ∧ started = 0 := by
    intro never
    obtain ⟨all, none⟩ := (before never).idle
    exact ⟨counted.trans (congrArg List.length all), List.length_eq_zero_iff.mpr none⟩
  have taken : TakesUp world moves name → pending = 0 := by
    intro takes
    rw [counted, (after takes).pending]
    rfl
  refine ⟨?_, untaken, taken, fun unfailed => ?_, fun good => ?_⟩
  · by_cases takes : TakesUp world moves name
    · simp [taken takes, takes]
    · obtain ⟨all, none⟩ := untaken takes
      simp [takes, all, none]
  · have placed : machine.Untaken name ∨ machine.Taken name := by
      by_cases takes : TakesUp world moves name
      · exact .inr (after takes)
      · exact .inl (before takes)
    rw [counted]
    exact valid.counts name unfailed placed
  · have completed : started = added := by
      have whole := (valid.sound.complete name good).2.1
      exact (congrArg List.length whole).trans (by simp [added])
    refine ⟨?_, completed⟩
    refine taken (Classical.byContradiction fun never => ?_)
    rcases (before never).progress _ (outcome?_eq_some.mp good) with begun | ⟨error, failed⟩
    · cases begun
    · cases failed

def paint : Program Unit := .suspend (.finish (.ok ()))

/-- A car that is painted twice and has been taken up when it still waits for its first coat. -/
def paintsCar : List (Move Unit) :=
  [.operate (.create "car"), .operate (.addTask "car" paint), .operate (.addTask "car" paint),
    .start rootName, .advance rootName, .start "car", .advance "car", .advance "car"]

theorem pending_truthful_iff_paint :
    let machine := ({ world := () } : Machine Unit).moves paintsCar
    machine.graph.target? "car" = some ⟨none, [], []⟩ ∧ TakesUp () paintsCar "car" ∧
    (Target.view "car" (⟨none, [], []⟩ : Target (Program Unit))).pendingTasks = 0 ∧
    (machine.ahead "car").length + (started "car" machine.journal).length =
      (added "car" machine.journal).length ∧ (started "car" machine.journal).length = 1 := by
  intro machine
  have found : machine.graph.target? "car" = some ⟨none, [], []⟩ := rfl
  obtain ⟨-, -, taken, whole, -⟩ := pending_truthful_iff () paintsCar "car" _ found
  have takes : TakesUp () paintsCar "car" := ⟨paintsCar.dropLast, [.advance "car"], rfl, _, _, rfl⟩
  have working : machine.progress? "car" = some (.working 0 paint [paint]) := rfl
  have made := whole fun error failed => by cases working.symm.trans (outcome?_eq_some.mp failed)
  rw [taken takes, Nat.zero_add] at made
  exact ⟨found, takes, taken takes, made, rfl⟩

/-- A car that is to be painted once it has an engine, which nobody makes. -/
def missesEngine : List (Move Unit) :=
  [.operate (.create "car"), .operate (.addTask "car" paint), .operate (.depend "car" "engine"),
    .start rootName, .advance rootName, .start "car", .advance "car", .advance "car"]

/-- Of the tasks that have not been started none is counted, where a dependency has failed and where a task
is at work. -/
theorem pending_untruthful :
    let missed := ({ world := () } : Machine Unit).moves missesEngine
    let painted := ({ world := () } : Machine Unit).moves paintsCar
    ((missed.graph.target? "car").map (fun target => (target.view "car").pendingTasks) = some 0 ∧
      (started "car" missed.journal).length = 0 ∧ (added "car" missed.journal).length = 1) ∧
    (painted.graph.target? "car").map (fun target => (target.view "car").pendingTasks) = some 0 ∧
      (started "car" painted.journal).length = 1 ∧ (added "car" painted.journal).length = 2 := by
  decide +kernel

end Machine

end CompositeKeys.Tasks
