import CompositeKeys.Proofs.Tasks.Steps

/-! Failure is final and closing is not. The status of a graph only ever rises, and it is that of failure
exactly if some target has failed. A target that is begun after that fails at once. A graph that has been
closed stays so until a target fails, and every target that begins in it does. -/

namespace CompositeKeys.Tasks
open Journal

def Status.rank : Status → Nat
  | .notStarted => 0
  | .ready => 1
  | .running => 2
  | .closed => 3
  | .errored => 4

theorem Status.rank_le (status : Status) : status.rank ≤ Status.errored.rank := by
  cases status <;> decide

theorem Status.errored_of_rank {status : Status} (above : Status.errored.rank ≤ status.rank) :
    status = .errored := by
  cases status <;> first | rfl | exact absurd above (by decide)

theorem Status.closed_of_rank {status : Status} (above : Status.closed.rank ≤ status.rank) :
    status = .closed ∨ status = .errored := by
  cases status <;> first | exact .inl rfl | exact .inr rfl | exact absurd above (by decide)

section Graph

variable {Task : Type} {graph next : Graph Task}

/-- An accepted operation leaves the status as it is or moves it on, though never to failure or away
from it. -/
theorem Graph.operate?_status {operation : Operation Task}
    (accepted : graph.operate? operation = .ok next) :
    next.isDropped = graph.isDropped ∧ (next.status = graph.status ∨
      graph.status = .notStarted ∧ next.status = .ready ∨
      graph.status ≠ .errored ∧ next.status = .closed) := by
  cases operation with
  | create name =>
    cases accepted
    unfold create
    split <;> exact ⟨rfl, .inl rfl⟩
  | markReady =>
    obtain ⟨_, early, same⟩ := bind_eq_ok.mp accepted
    cases pure_eq_ok.mp same
    exact ⟨rfl, .inr (.inl ⟨requireStatus_ok.mp early, rfl⟩)⟩
  | markClosed =>
    simp only [operate?, markClosed] at accepted
    split at accepted
    · cases accepted
    next unfailed =>
      cases accepted
      exact ⟨rfl, .inr (.inr ⟨unfailed, rfl⟩)⟩
  | describe name text =>
    obtain ⟨_, _, accepted⟩ := bind_eq_ok.mp accepted
    obtain ⟨_, _, accepted⟩ := bind_eq_ok.mp accepted
    obtain ⟨_, accepted⟩ := next_of_refused accepted
    cases pure_eq_ok.mp accepted
    exact ⟨rfl, .inl rfl⟩
  | depend name subtarget =>
    simp only [operate?, depend] at accepted
    obtain ⟨_, accepted⟩ := next_of_refused accepted
    obtain ⟨_, accepted⟩ := next_of_refused accepted
    obtain ⟨_, _, accepted⟩ := bind_eq_ok.mp accepted
    obtain ⟨_, _, accepted⟩ := bind_eq_ok.mp accepted
    obtain ⟨_, accepted⟩ := next_of_refused accepted
    obtain ⟨_, accepted⟩ := next_of_refused accepted
    cases pure_eq_ok.mp accepted
    exact ⟨rfl, .inl rfl⟩
  | addTask name task =>
    obtain ⟨_, _, rfl⟩ := addTask_ok accepted
    exact ⟨rfl, .inl rfl⟩

variable {told later : List (String × TaskError)} (change : Change graph told next later)
include change

theorem Change.isDropped : next.isDropped = graph.isDropped := by
  cases change with
  | operated operation accepted => exact (Graph.operate?_status accepted).1
  | kept | opened | failed | orphaned => rfl

theorem Change.rank_le : graph.status.rank ≤ next.status.rank := by
  cases change with
  | kept | orphaned => exact Nat.le_refl _
  | operated operation accepted =>
    obtain ⟨_, same | ⟨early, ready⟩ | ⟨unfailed, closed⟩⟩ := Graph.operate?_status accepted
    · exact Nat.le_of_eq (congrArg Status.rank same.symm)
    · rw [early, ready]
      decide
    · rw [closed]
      cases status : graph.status <;> first | exact absurd status unfailed | decide
  | opened target opening =>
    show graph.status.rank ≤ Status.running.rank
    rcases opening with running | ⟨_, early⟩
    · exact Nat.le_of_eq (congrArg Status.rank running)
    · have either : graph.status = .notStarted ∨ graph.status = .ready := by simpa using early
      rcases either with early | ready
      · rw [early]
        decide
      · rw [ready]
        decide
  | failed => exact Status.rank_le graph.status

/-- A graph goes on to be failed exactly if there are failures to tell of. -/
theorem Change.errored_iff (alive : graph.isDropped = false)
    (truthful : graph.status = .errored ↔ told ≠ []) : next.status = .errored ↔ later ≠ [] := by
  cases change with
  | kept => exact truthful
  | operated operation accepted =>
    rw [← truthful]
    obtain ⟨_, same | ⟨early, ready⟩ | ⟨unfailed, closed⟩⟩ := Graph.operate?_status accepted
    · rw [same]
    · simp [early, ready]
    · simp [unfailed, closed]
  | opened target opening =>
    rw [← truthful]
    rcases opening with running | ⟨_, early⟩
    · exact iff_of_false nofun (by simp [running])
    · refine iff_of_false nofun fun errored => ?_
      simp [errored] at early
  | failed target error => exact iff_of_true rfl (List.cons_ne_nil _ _)
  | orphaned dropped => cases alive.symm.trans dropped

end Graph

namespace Machine

variable {World : Type} {machine : Machine World}

/-- The graph is there, and its status is that of failure exactly if some target has failed. -/
structure Truthful (machine : Machine World) : Prop where
  alive : machine.graph.isDropped = false
  errored_iff : machine.graph.status = .errored ↔ failures machine.journal ≠ []

theorem truthful_initial (world : World) : Truthful { world } :=
  ⟨rfl, iff_of_false nofun (· rfl)⟩

theorem Truthful.move (truthful : machine.Truthful) {move : Move World} (held : move ≠ .drop) :
    (machine.move move).Truthful := by
  have change := move_changes machine held
  exact ⟨change.isDropped.trans truthful.alive, change.errored_iff truthful.alive truthful.errored_iff⟩

theorem Truthful.moves (truthful : machine.Truthful) {moves : List (Move World)}
    (held : .drop ∉ moves) : (machine.moves moves).Truthful := by
  induction moves generalizing machine with
  | nil => exact truthful
  | cons move moves ih =>
    obtain ⟨first, rest⟩ := not_or.mp (mt List.mem_cons.mpr held)
    exact ih (truthful.move (Ne.symm first)) rest

theorem moves_rank_le {moves : List (Move World)} (held : .drop ∉ moves) :
    machine.graph.status.rank ≤ (machine.moves moves).graph.status.rank := by
  induction moves generalizing machine with
  | nil => exact Nat.le_refl _
  | cons move moves ih =>
    obtain ⟨first, rest⟩ := not_or.mp (mt List.mem_cons.mpr held)
    exact Nat.le_trans (move_changes machine (Ne.symm first)).rank_le (ih rest)

/-- A graph has failed exactly if a target has come to an error. -/
theorem Truthful.errored_iff_outcome (truthful : machine.Truthful) (valid : machine.Valid) :
    machine.graph.status = .errored ↔
      ∃ target error, machine.outcome? target = some (.error error) := by
  have told : ∀ target error, (target, error) ∈ failures machine.journal ↔
      machine.outcome? target = some (.error error) := by
    intro target error
    rw [mem_failures, outcome?_eq_some, valid.finished]
  rw [truthful.errored_iff]
  constructor
  · intro some
    obtain ⟨⟨target, error⟩, member⟩ := List.exists_mem_of_ne_nil _ some
    exact ⟨target, error, (told target error).mp member⟩
  · rintro ⟨target, error, failed⟩
    exact List.ne_nil_of_mem ((told target error).mpr failed)

/-- In a graph that is at its end, a target that begins fails and does nothing else. -/
theorem advance_refused {target : String} (alive : machine.graph.isDropped = false)
    (ended : machine.graph.status = .closed ∨ machine.graph.status = .errored)
    (begun : machine.progress? target = some .begun) :
    machine.advance? target =
      some (machine.fail target (.status .running machine.graph.status)) := by
  simp only [advance?, begun, begin, alive]
  rcases ended with closed | errored
  · simp [closed]
  · simp [errored]

theorem fail_of_errored (errored : machine.graph.status = .errored) (target : String)
    (error : TaskError) : machine.fail target error = machine.finish target (.error error) := by
  have same : { machine.graph with status := .errored } = machine.graph := by
    rw [← errored]
  rw [fail, same]

def refusal : Outcome := .error (.status .running .errored)

/-- Since some earlier journal, a target has done nothing but be refused for the failure of the
graph. -/
structure Spurned (machine : Machine World) (since : List (Event World)) (target : String) : Prop where
  progress : machine.Fresh target ∨ machine.progress? target = some (.finished refusal)
  silent : ∃ events, machine.journal = events ++ since ∧
    ∀ event ∈ events, event.Of target → event = .finished target refusal

theorem Spurned.elsewhere {after : Machine World} {since : List (Event World)} {target : String}
    (spurned : machine.Spurned since target) (elsewhere : Elsewhere target machine after) :
    after.Spurned since target := by
  constructor
  · rcases elsewhere.progress with same | ⟨_, begun⟩
    · rw [Fresh, same]
      exact spurned.progress
    · exact .inl (.inr begun)
  · obtain ⟨earlier, grown, silent⟩ := spurned.silent
    obtain ⟨events, grownOn, foreign⟩ := elsewhere.quiet
    refine ⟨events ++ earlier, by rw [grownOn, grown, List.append_assoc], ?_⟩
    refine List.forall_mem_append.mpr ⟨fun event member own => ?_, silent⟩
    exact (foreign event member own).elim

theorem Spurned.move {since : List (Event World)} {target : String}
    (spurned : machine.Spurned since target) (alive : machine.graph.isDropped = false)
    (errored : machine.graph.status = .errored) (move : Move World) :
    (machine.move move).Spurned since target := by
  by_cases other : move ≠ .advance target
  · exact spurned.elsewhere (move_elsewhere machine other)
  · rw [ne_eq, Classical.not_not] at other
    subst other
    show ((machine.advance? target).getD machine).Spurned since target
    rcases spurned.progress with (fresh | begun) | refused
    · rw [advance?, fresh]
      exact spurned
    · rw [advance_refused alive (.inr errored) begun, errored, fail_of_errored errored]
      obtain ⟨events, grown, silent⟩ := spurned.silent
      refine ⟨.inr ?_, .finished target refusal :: events, congrArg (_ :: ·) grown, ?_⟩
      · exact (machine.setProgress_progress? target target _ begun).trans (if_pos rfl)
      · exact List.forall_mem_cons.mpr ⟨fun _ => rfl, silent⟩
    · rw [advance?, refused]
      exact spurned

theorem Truthful.spurned_moves (truthful : machine.Truthful)
    (errored : machine.graph.status = .errored) {since : List (Event World)} {target : String}
    (spurned : machine.Spurned since target) {moves : List (Move World)} (held : .drop ∉ moves) :
    (machine.moves moves).Spurned since target := by
  induction moves generalizing machine with
  | nil => exact spurned
  | cons move moves ih =>
    obtain ⟨first, rest⟩ := not_or.mp (mt List.mem_cons.mpr held)
    have risen := (move_changes machine (Ne.symm first)).rank_le
    have stays : (machine.move move).graph.status = .errored :=
      Status.errored_of_rank (errored ▸ risen)
    exact ih (truthful.move (Ne.symm first)) stays
      (spurned.move truthful.alive errored move) rest

/-- As long as a graph is there, the failure of any target is the failure of the graph, which no move
undoes. A target that had not begun by then stays as it was or is refused, and is told nothing else;
the step that refuses it changes nothing but that. -/
theorem failure_permanent (world : World) (moves more : List (Move World))
    (held : .drop ∉ moves ++ more) :
    let machine := ({ world } : Machine World).moves moves
    ((∃ target error, machine.outcome? target = some (.error error)) →
      machine.graph.status = .errored) ∧
    (machine.graph.status = .errored →
      (machine.moves more).graph.status = .errored ∧
      (∀ target, machine.progress? target = some .begun →
        machine.advance? target = some (machine.finish target refusal)) ∧
      ∀ target, machine.Fresh target →
        (machine.moves more).Spurned machine.journal target) := by
  intro machine
  obtain ⟨heldBefore, heldAfter⟩ := not_or.mp (mt List.mem_append.mpr held)
  have truthful : machine.Truthful := (truthful_initial world).moves heldBefore
  have valid : machine.Valid := (valid_initial world).moves moves
  refine ⟨(truthful.errored_iff_outcome valid).mpr, fun errored => ⟨?_, ?_, ?_⟩⟩
  · exact Status.errored_of_rank (errored ▸ moves_rank_le heldAfter)
  · intro target begun
    rw [advance_refused truthful.alive (.inr errored) begun, errored, fail_of_errored errored]
    rfl
  · intro target fresh
    exact truthful.spurned_moves errored ⟨.inl fresh, [], rfl, nofun⟩ heldAfter

def declaresTooLate : List (Move Unit) :=
  [.operate (.create "car"), .start "car", .advance "car"]

/-- A target that is run before its graph is ready fails, and the root target is refused then. -/
theorem failure_permanent_early :
    (({ world := () } : Machine Unit).moves declaresTooLate).graph.status = .errored ∧
      ((({ world := () } : Machine Unit).moves declaresTooLate).moves
        [.start rootName, .advance rootName]).progress? rootName = some (.finished refusal) := by
  obtain ⟨failed, final⟩ := failure_permanent () declaresTooLate [.start rootName, .advance rootName]
    (by simp [declaresTooLate])
  have errored := failed ⟨"car", .status .running .notStarted, by decide +kernel⟩
  obtain ⟨_, _, spurned⟩ := final errored
  refine ⟨errored, (spurned rootName (.inl rfl)).progress.resolve_left ?_⟩
  rintro (none | begun)
  · cases none
  · cases begun

section Closing

/-- Only the steps of targets take a graph away from being closed. -/
theorem closed_of_unadvanced {moves : List (Move World)} (closed : machine.graph.status = .closed)
    (unadvanced : ∀ target, .advance target ∉ moves) :
    (machine.moves moves).graph.status = .closed := by
  induction moves generalizing machine with
  | nil => exact closed
  | cons move moves ih =>
    refine ih ?_ fun target member => unadvanced target (.tail _ member)
    cases move with
    | operate operation =>
      show (machine.operate operation).1.graph.status = .closed
      unfold operate
      cases accepted : machine.graph.operate? operation with
      | error => exact closed
      | ok graph =>
        have still : graph.status = .closed := by
          obtain ⟨_, same | ⟨early, _⟩ | ⟨_, closing⟩⟩ := Graph.operate?_status accepted
          · exact same.trans closed
          · cases closed.symm.trans early
          · exact closing
        cases operation <;> exact still
    | start target =>
      show (machine.start target).graph.status = .closed
      unfold start
      split <;> exact closed
    | advance target => exact (unadvanced target (.head _)).elim
    | drop => exact closed

/-- A closed graph does not stay closed if its root target is run. -/
theorem closed_left :
    (({ world := () } : Machine Unit).moves [.operate .markClosed]).graph.status = .closed ∧
      ((({ world := () } : Machine Unit).moves [.operate .markClosed]).moves
        [.start rootName, .advance rootName]).graph.status = .errored := by
  constructor <;> rfl

/-- A closed graph stays closed exactly as long as no target fails. No operation and no request to run a
target changes that, but a target that begins in a closed graph fails, and the graph with it. -/
theorem closed_until_failure (world : World) (moves more : List (Move World))
    (held : .drop ∉ moves ++ more) :
    let machine := ({ world } : Machine World).moves moves
    let later := machine.moves more
    machine.graph.status = .closed →
      (later.graph.status = .errored ↔
        ∃ target error, later.outcome? target = some (.error error)) ∧
      (later.graph.status ≠ .errored → later.graph.status = .closed) ∧
      ((∀ target, .advance target ∉ more) → later.graph.status = .closed) ∧
      (∀ target, later.graph.status = .closed → later.progress? target = some .begun →
        later.advance? target = some (later.fail target (.status .running .closed))) := by
  intro machine later closed
  obtain ⟨_, heldAfter⟩ := not_or.mp (mt List.mem_append.mpr held)
  have same : later = ({ world } : Machine World).moves (moves ++ more) := (moves_append ..).symm
  have truthful : later.Truthful := same ▸ (truthful_initial world).moves held
  have valid : later.Valid := same ▸ (valid_initial world).moves (moves ++ more)
  refine ⟨truthful.errored_iff_outcome valid, fun unfailed => ?_, closed_of_unadvanced closed, ?_⟩
  · have risen : Status.closed.rank ≤ later.graph.status.rank := closed ▸ moves_rank_le heldAfter
    exact (Status.closed_of_rank risen).resolve_right unfailed
  · intro target still begun
    rw [advance_refused truthful.alive (.inl still) begun, still]

theorem closed_until_failure_run :
    ((({ world := () } : Machine Unit).moves [.operate .markClosed]).moves
      [.operate (.create "car"), .start "car"]).graph.status = .closed ∧
    ((({ world := () } : Machine Unit).moves [.operate .markClosed]).moves
      [.operate (.create "car"), .start "car"]).advance? "car" =
        some (fail ((({ world := () } : Machine Unit).moves [.operate .markClosed]).moves
          [.operate (.create "car"), .start "car"]) "car" (.status .running .closed)) := by
  obtain ⟨_, _, waiting, refused⟩ := closed_until_failure () [.operate .markClosed]
    [.operate (.create "car"), .start "car"] (by simp) rfl
  have closed := waiting (by simp)
  exact ⟨closed, refused "car" closed rfl⟩

end Closing

end Machine

end CompositeKeys.Tasks
