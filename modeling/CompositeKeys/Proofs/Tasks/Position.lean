import CompositeKeys.Proofs.Tasks.Dependencies
import CompositeKeys.Proofs.Tasks.Report
import Mathlib.Data.Prod.Lex

/-! Where a run of the root target stands. At any time one target is under way and the others that have
begun wait for it in a row, down to the root target; what they have still to do is the rest of the tour.
A failure is handed down the row. -/

namespace CompositeKeys.Tasks
open Relation

variable {World : Type}

namespace Journal

/-- The tasks that have been started, in the order of starting. -/
def starts : List (Event World) → List (String × Program World)
  | [] => []
  | .started target _ task :: earlier => starts earlier ++ [(target, task)]
  | _ :: earlier => starts earlier

end Journal

/-- What a run can start from. -/
structure Graph.Launchable (graph : Graph (Program World)) : Prop where
  layered : graph.Layered
  alive : graph.isDropped = false
  early : graph.status ∈ [.notStarted, .ready]
  detached : ∀ target, ∀ task ∈ graph.pending target, task.Detached

namespace Outcome

def error? : Outcome → Option TaskError
  | .ok () => none
  | .error error => some error

/-- The status of a graph whose run comes to an outcome. -/
def status : Outcome → Status
  | .ok () => .running
  | .error _ => .errored

end Outcome

/-- The target under way with its progress, the targets that wait in a row for it, what is left to do
behind it, what has been entered, and the error that has ended the run. -/
structure Position (World : Type) where
  top : String
  progress : Progress World
  waiters : List String := []
  agenda : List Stop := []
  entered : List String := []
  failure : Option TaskError := none

/-- A lexicographic measure of what is ahead: the stops of the tour, what keeps the agenda from getting
on, and the steps of the task at work. -/
def distance (stops agenda steps : Nat) : Nat ×ₗ Nat ×ₗ Nat := toLex (stops, toLex (agenda, steps))

theorem distance_lt {stops agenda steps others further more : Nat} :
    distance stops agenda steps < distance others further more ↔
      stops < others ∨ stops = others ∧ (agenda < further ∨ agenda = further ∧ steps < more) := by
  simp only [distance, Prod.Lex.toLex_lt_toLex]

/-- What may be ahead once a target with such an agenda behind it has come to an outcome. -/
def Graph.bound {Task : Type} (graph : Graph Task) (entered : List String) (agenda : List Stop) :
    Outcome → Nat ×ₗ Nat ×ₗ Nat
  | .ok () => distance (graph.tour entered agenda).length (agenda.length + 3) 0
  | .error _ => distance 0 (agenda.length + 1) 0

namespace Position

def status (initial : Status) (position : Position World) : Status :=
  match position.failure, position.progress with
  | some _, _ => .errored
  | none, .begun => if position.top = rootName then initial else .running
  | none, _ => .running

theorem status_of_started {initial : Status} {position : Position World}
    (sound : position.failure = none) (started : position.progress ≠ .begun) :
    position.status initial = .running := by
  unfold status
  rw [sound]
  cases first : position.progress with
  | begun => exact (started first).elim
  | depending | working | finished => rfl

/-- What the run does and comes to from here on. -/
def rest (graph : Graph (Program World)) (position : Position World) (tally : Tally World) :
    Tally World × Outcome :=
  let behind := graph.ahead position.entered
  match position.failure, position.progress with
  | some error, _ => (tally, .error error)
  | none, .begun => graph.carryOut (behind (.enter position.top :: position.agenda)) tally
  | none, .depending todo _ =>
    graph.carryOut (behind (todo.map .enter ++ .leave position.top :: position.agenda)) tally
  | none, .working _ program rest =>
    tally.unlessFailed
      (graph.carryOut (rest.map (.perform position.top) ++ behind position.agenda))
      (program.perform (graph.taken .running position.entered).view tally.world)
  | none, .finished _ => (tally, .ok ())

theorem rest_grows {graph : Graph (Program World)} (position : Position World)
    (tally : Tally World) : tally.started <+: (position.rest graph tally).1.started := by
  unfold rest
  dsimp only
  split
  · exact List.prefix_rfl
  · exact Graph.carryOut_grows _ tally
  · exact Graph.carryOut_grows _ tally
  · exact Tally.unlessFailed_grows (fun world => Graph.carryOut_grows _ { tally with world }) _
  · exact List.prefix_rfl

def remaining (graph : Graph (Program World)) (position : Position World) (world : World) :
    Nat ×ₗ Nat ×ₗ Nat :=
  let stops := fun agenda => (graph.tour position.entered agenda).length
  let agenda := position.agenda
  match position.failure, position.progress with
  | _, .finished _ => distance 0 0 0
  | some _, _ => distance 0 (agenda.length + 1) 0
  | none, .begun => distance (stops (.enter position.top :: agenda)) (agenda.length + 1) 0
  | none, .depending todo _ =>
    distance (stops (todo.map .enter ++ .leave position.top :: agenda))
      (todo.length + agenda.length + 2) 0
  | none, .working _ program rest =>
    distance (stops agenda) (agenda.length + rest.length + 3)
      (program.steps (graph.taken .running position.entered).view world)

end Position

namespace Machine

def tally (machine : Machine World) (entered : List String) : Tally World :=
  { entered, started := Journal.starts machine.journal, world := machine.world }

/-- The targets that wait in a row for the one at the top, and what is left to do behind it. -/
inductive Waiting (graph : Graph (Program World)) (machine : Machine World) :
    String → List String → List Stop → Prop where
  | root : Waiting graph machine rootName [] []
  | behind {waiter child : String} {rest waiters : List String} {agenda : List Stop}
      (below : Waiting graph machine waiter waiters agenda)
      (waiting : machine.progress? waiter = some (.depending (child :: rest) (graph.pending waiter)))
      (listed : ∀ name ∈ child :: rest, graph.Needs waiter name)
      (known : (graph.target? child).isSome) :
      Waiting graph machine child (waiter :: waiters) (rest.map .enter ++ .leave waiter :: agenda)

section Waiting

variable {graph : Graph (Program World)} {machine next : Machine World} {top : String}
  {waiters : List String} {agenda : List Stop}
  (waiting : Waiting graph machine top waiters agenda)
include waiting

theorem Waiting.congr (same : ∀ name ∈ waiters, next.progress? name = machine.progress? name) :
    Waiting graph next top waiters agenda := by
  induction waiting with
  | root => exact .root
  | behind below waiting listed known ih =>
    have rest := ih fun name member => same name (.tail _ member)
    exact .behind rest ((same _ (.head _)).trans waiting) listed known

theorem Waiting.needs : ∀ name ∈ waiters, TransGen graph.Needs name top := by
  induction waiting with
  | root => exact nofun
  | behind below waiting listed known ih =>
    have last := listed _ (.head _)
    refine List.forall_mem_cons.mpr ⟨.single last, fun name member => ?_⟩
    exact (ih name member).tail last

theorem Waiting.present (rooted : (graph.target? rootName).isSome) :
    (graph.target? top).isSome := by
  cases waiting with
  | root => exact rooted
  | behind _ _ _ known => exact known

/-- Each target in the row waits for the next one. -/
theorem Waiting.blocked : ∀ name ∈ waiters, ∃ child rest tasks,
    machine.progress? name = some (.depending (child :: rest) tasks) ∧
      (graph.target? child).isSome ∧ (child = top ∨ child ∈ waiters) := by
  induction waiting with
  | root => exact nofun
  | @behind waiter child rest waiters agenda below waiting listed known ih =>
    refine List.forall_mem_cons.mpr ⟨⟨child, rest, _, waiting, known, .inl rfl⟩, fun name member => ?_⟩
    obtain ⟨other, others, tasks, depending, present, place⟩ := ih name member
    refine ⟨other, others, tasks, depending, present, .inr ?_⟩
    rcases place with rfl | later
    · exact .head _
    · exact .tail _ later

end Waiting

/-- What the progress of the target at the top tells. -/
inductive Apt (graph : Graph (Program World)) (machine : Machine World) : Position World → Prop where
  | begun {top waiters agenda entered} : Apt graph machine ⟨top, .begun, waiters, agenda, entered, none⟩
  | depending {top waiters agenda entered todo} (listed : ∀ name ∈ todo, graph.Needs top name) :
      Apt graph machine
        ⟨top, .depending todo (graph.pending top), waiters, agenda, entered, none⟩
  | unwinding {top waiters agenda entered child rest error}
      (failed : machine.progress? child = some (.finished (.error error)))
      (known : (graph.target? child).isSome) :
      Apt graph machine
        ⟨top, .depending (child :: rest) (graph.pending top), waiters, agenda, entered, some error⟩
  | working {top waiters agenda entered place program rest} (detached : program.Detached)
      (others : ∀ task ∈ rest, task.Detached) :
      Apt graph machine ⟨top, .working place program rest, waiters, agenda, entered, none⟩
  | finished {outcome entered} :
      Apt graph machine ⟨rootName, .finished outcome, [], [], entered, outcome.error?⟩

/-- A run of a graph stands at a position, from where it comes to its goal. -/
structure Stands (graph : Graph (Program World)) (goal : Tally World × Outcome)
    (machine : Machine World) (position : Position World) : Prop where
  taken : machine.graph = graph.taken (position.status graph.status) position.entered
  waiting : Waiting graph machine position.top position.waiters position.agenda
  here : machine.progress? position.top = some position.progress
  apt : Apt graph machine position
  others : ∀ name, name ≠ position.top → name ∉ position.waiters →
    machine.progress? name = none ∨ ∃ outcome : Outcome,
      machine.progress? name = some (.finished outcome) ∧
        ∀ error, outcome = .error error → position.failure = some error
  entered : ∀ name, name ∈ position.entered ↔ ¬ machine.Fresh name
  present : ∀ name ∈ position.entered, (graph.target? name).isSome
  ahead : position.rest graph (machine.tally position.entered) = goal

def Nears (graph : Graph (Program World)) (goal : Tally World × Outcome) (machine : Machine World)
    (bound : Nat ×ₗ Nat ×ₗ Nat) : Prop :=
  ∃ position, Stands graph goal machine position ∧ position.remaining graph machine.world < bound

variable {graph : Graph (Program World)} {goal : Tally World × Outcome}
  {machine next : Machine World}

theorem Nears.closer {bound further : Nat ×ₗ Nat ×ₗ Nat} (nears : Nears graph goal machine bound)
    (closer : bound ≤ further) : Nears graph goal machine further := by
  obtain ⟨position, stands, near⟩ := nears
  exact ⟨position, stands, near.trans_le closer⟩

section Standing

variable {position : Position World} (stands : Stands graph goal machine position)
include stands

theorem Stands.top_entered (started : position.progress ≠ .begun) :
    position.top ∈ position.entered := by
  refine (stands.entered _).mpr ?_
  rw [Fresh, stands.here]
  simp [started]

theorem Stands.isSome_iff (name : String) :
    (machine.graph.target? name).isSome = (graph.target? name).isSome := by
  rw [stands.taken, Graph.taken_isSome]

theorem Stands.runs_after (progress : Progress World) (name : String) :
    (machine.setProgress position.top progress).progress? name =
      if name = position.top then some progress else machine.progress? name :=
  machine.setProgress_progress? position.top name progress stands.here

theorem Stands.fresh_after {progress : Progress World} (runs : ∀ name, next.progress? name =
      if name = position.top then some progress else machine.progress? name)
    (started : progress ≠ .begun) (name : String) :
    ¬ next.Fresh name ↔ name = position.top ∨ name ∈ position.entered := by
  rw [stands.entered name, Fresh, Fresh, runs name]
  by_cases top : name = position.top
  · simp [top, started]
  · simp [top]

/-- What has no effect on what has been started can be told at any time. -/
theorem Stands.record {event : Event World}
    (quiet : Journal.starts (event :: machine.journal) = Journal.starts machine.journal) :
    Stands graph goal (machine.record event) position := by
  refine ⟨stands.taken, stands.waiting.congr fun _ _ => rfl, stands.here, ?_, stands.others,
    stands.entered, stands.present, ?_⟩
  · cases stands.apt with
    | begun => exact .begun
    | depending listed => exact .depending listed
    | unwinding failed known => exact .unwinding failed known
    | working detached others => exact .working detached others
    | finished => exact .finished
  · have same : (machine.record event).tally position.entered = machine.tally position.entered := by
      rw [tally, Machine.record, quiet]
      rfl
    rw [same]
    exact stands.ahead

variable (launchable : graph.Launchable)
include launchable

theorem Stands.top_not_waiting : position.top ∉ position.waiters :=
  fun member => launchable.layered.acyclic _ (stands.waiting.needs _ member)

theorem Stands.top_present : (graph.target? position.top).isSome :=
  stands.waiting.present launchable.layered.rooted

/-- A target that the one at the top depends on does not wait for it. -/
theorem Stands.child_apart {child : String} (needed : graph.Needs position.top child) :
    child ≠ position.top ∧ child ∉ position.waiters := by
  constructor
  · rintro rfl
    exact launchable.layered.acyclic _ (.single needed)
  · intro member
    exact launchable.layered.acyclic _ (.head needed (stands.waiting.needs child member))

theorem Stands.become {progress : Progress World} {entered : List String}
    (runs : ∀ name, next.progress? name =
      if name = position.top then some progress else machine.progress? name)
    (started : progress ≠ .begun) (sound : position.failure = none)
    (joined : ∀ name, name ∈ entered ↔ name = position.top ∨ name ∈ position.entered)
    (same : next.graph = graph.taken .running entered)
    (apt : Apt graph next { position with progress, entered })
    (reached : ({ position with progress, entered } : Position World).rest graph
      (next.tally entered) = goal) :
    Stands graph goal next { position with progress, entered } := by
  have elsewhere : ∀ name, name ≠ position.top → next.progress? name = machine.progress? name :=
    fun name apart => (runs name).trans (if_neg apart)
  have here : next.progress? position.top = some progress := (runs _).trans (if_pos rfl)
  refine ⟨?_, ?_, here, apt, ?_, ?_, ?_, reached⟩
  · have running := @Position.status_of_started World graph.status
      { position with progress, entered } sound started
    rw [same, running]
  · refine stands.waiting.congr fun name member => elsewhere name ?_
    rintro rfl
    exact stands.top_not_waiting launchable member
  · intro name apart idle
    rw [elsewhere name apart]
    exact stands.others name apart idle
  · exact fun name => (joined name).trans (stands.fresh_after runs started name).symm
  · intro name member
    rcases (joined name).mp member with rfl | earlier
    · exact stands.top_present launchable
    · exact stands.present name earlier

theorem Stands.continue {progress : Progress World} (begun : position.progress ≠ .begun)
    (runs : ∀ name, next.progress? name =
      if name = position.top then some progress else machine.progress? name)
    (started : progress ≠ .begun) (sound : position.failure = none)
    (same : next.graph = machine.graph) (apt : Apt graph next { position with progress })
    (reached : ({ position with progress } : Position World).rest graph
      (next.tally position.entered) = goal) :
    Stands graph goal next { position with progress } := by
  have known := stands.top_entered begun
  have running : next.graph = graph.taken .running position.entered := by
    rw [same, stands.taken, Position.status_of_started sound begun]
  refine stands.become launchable runs started sound (fun name => ⟨.inr, fun either => ?_⟩)
    running apt reached
  rcases either with rfl | earlier
  · exact known
  · exact earlier

end Standing

section Finishing

variable {top : String} {progress : Progress World} {waiters : List String} {agenda : List Stop}
  {entered : List String} {broken : Option TaskError} {outcome : Outcome}
  (stands : Stands graph goal machine ⟨top, progress, waiters, agenda, entered, broken⟩)
  (started : progress ≠ .begun)
  (runs : ∀ name, next.progress? name =
    if name = top then some (.finished outcome) else machine.progress? name)
  (failure : ∀ error, broken = some error → outcome = .error error)
  (same : next.graph = graph.taken outcome.status entered)
  (ahead : (next.tally entered).unlessFailed (graph.carryOut (graph.ahead entered agenda))
    (outcome, next.world) = goal)

include stands started runs in
theorem Stands.entered_after (name : String) : name ∈ entered ↔ ¬ next.Fresh name := by
  rw [stands.fresh_after runs nofun name]
  refine ⟨.inr, fun either => ?_⟩
  rcases either with rfl | earlier
  · exact stands.top_entered started
  · exact earlier

include stands runs failure in
/-- Whoever does not wait has finished, and with the error of the run if with any. -/
theorem Stands.others_after (name : String) (idle : name ∉ waiters) :
    next.progress? name = none ∨ ∃ other : Outcome, next.progress? name = some (.finished other) ∧
      ∀ error, other = .error error → outcome.error? = some error := by
  rw [runs name]
  split
  · refine .inr ⟨outcome, rfl, fun error failed => ?_⟩
    rw [failed]
    rfl
  next apart =>
    refine (stands.others name apart idle).imp_right ?_
    rintro ⟨other, ended, failed⟩
    refine ⟨other, ended, fun error same => ?_⟩
    rw [failure error (failed error same)]
    rfl

include stands started runs failure same ahead

theorem Stands.finish_root (root : top = rootName) (alone : waiters = []) (last : agenda = []) :
    Nears graph goal next (graph.bound entered agenda outcome) := by
  subst root alone last
  have here : next.progress? rootName = some (.finished outcome) := (runs _).trans (if_pos rfl)
  refine ⟨⟨rootName, .finished outcome, [], [], entered, outcome.error?⟩, ⟨?_, .root, here,
    .finished, fun name _ => stands.others_after runs failure name,
    stands.entered_after started runs, stands.present, ?_⟩, ?_⟩
  · cases outcome <;> exact same
  · cases outcome with
    | ok =>
      rw [Graph.ahead_nil] at ahead
      exact ahead
    | error error => exact ahead
  · cases outcome with
    | ok =>
      refine distance_lt.mpr ?_
      omega
    | error => exact distance_lt.mpr (.inr ⟨rfl, .inl (Nat.succ_pos _)⟩)

theorem Stands.finish_behind {waiter : String} {rest waiting : List String} {behind : List Stop}
    (launchable : graph.Launchable) (row : waiters = waiter :: waiting)
    (order : agenda = rest.map .enter ++ .leave waiter :: behind)
    (below : Waiting graph machine waiter waiting behind)
    (depending : machine.progress? waiter =
      some (.depending (top :: rest) (graph.pending waiter)))
    (listed : ∀ name ∈ top :: rest, graph.Needs waiter name) :
    Nears graph goal next (graph.bound entered agenda outcome) := by
  subst row order
  have apart : top ∉ waiter :: waiting := stands.top_not_waiting launchable
  have known : top ∈ entered := stands.top_entered started
  have here : next.progress? top = some (.finished outcome) := (runs _).trans (if_pos rfl)
  have kept : ∀ name ∈ waiter :: waiting, next.progress? name = machine.progress? name := by
    intro name member
    refine (runs name).trans (if_neg ?_)
    rintro rfl
    exact apart member
  refine ⟨⟨waiter, .depending (top :: rest) (graph.pending waiter), waiting, behind, entered,
    outcome.error?⟩, ⟨?_, below.congr fun name member => kept name (.tail _ member),
    (kept waiter (.head _)).trans depending, ?_, ?_, stands.entered_after started runs,
    stands.present, ?_⟩, ?_⟩
  · cases outcome <;> exact same
  -- A good end takes the waiter on to the next target that it depends on, an error ends it as well.
  · cases outcome with
    | ok => exact .depending listed
    | error => exact .unwinding here (stands.top_present launchable)
  · intro name other idle
    refine stands.others_after runs failure name ?_
    simp [other, idle]
  · cases outcome with
    | ok =>
      rw [← ahead]
      show graph.carryOut (graph.ahead entered (.enter top :: (rest.map .enter ++ _))) _ = _
      rw [Graph.ahead_known known]
      rfl
    | error => exact ahead
  · have length := Stop.length_below rest waiter behind
    cases outcome with
    | ok =>
      show distance (graph.tour entered (.enter top :: (rest.map .enter ++ _))).length _ _ < _
      rw [Graph.tour_known known]
      refine distance_lt.mpr (.inr ⟨rfl, .inl ?_⟩)
      show rest.length + 1 + behind.length + 2 < _ + 3
      rw [length]
      omega
    | error =>
      refine distance_lt.mpr (.inr ⟨rfl, .inl ?_⟩)
      show behind.length + 1 < _ + 1
      rw [length]
      omega

/-- The target at the top comes to its end, and the one that has waited for it hears of that. -/
theorem Stands.finish (launchable : graph.Launchable) :
    Nears graph goal next (graph.bound entered agenda outcome) := by
  cases stands.waiting with
  | root => exact stands.finish_root started runs failure same ahead rfl rfl rfl
  | behind below depending listed _ =>
    exact stands.finish_behind started runs failure same ahead launchable rfl rfl below depending
      listed

end Finishing

theorem Stands.fail {position : Position World} {error : TaskError}
    (stands : Stands graph goal machine position) (launchable : graph.Launchable)
    (started : position.progress ≠ .begun)
    (failure : ∀ other, position.failure = some other → error = other)
    (ahead : (machine.tally position.entered, .error error) = goal) :
    Nears graph goal (machine.fail position.top error)
      (distance 0 (position.agenda.length + 1) 0) := by
  have taken : { machine.graph with status := .errored } =
      graph.taken .errored position.entered := by
    rw [stands.taken]
    rfl
  have ended : Nears graph goal (machine.fail position.top error)
      (graph.bound position.entered position.agenda (.error error)) :=
    stands.finish started (stands.runs_after _)
      (fun other same => congrArg Except.error (failure other same)) taken ahead launchable
  exact ended

end Machine

end CompositeKeys.Tasks
