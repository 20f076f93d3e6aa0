import CompositeKeys.Proofs.Tasks.Soundness

/-! What one move can do. It changes the graph in one of few ways, each of which is tied to the failures
that it adds to the journal, and it leaves all targets alone but the one that takes a step. -/

namespace CompositeKeys.Tasks

variable {World : Type}

namespace Journal

/-- The failures that a journal tells of, the latest one first. -/
def failures : List (Event World) → List (String × TaskError)
  | [] => []
  | .finished target (.error error) :: earlier => (target, error) :: failures earlier
  | _ :: earlier => failures earlier

theorem mem_failures {target : String} {error : TaskError} {journal : List (Event World)} :
    (target, error) ∈ failures journal ↔ .finished target (.error error) ∈ journal := by
  induction journal with
  | nil => simp [failures]
  | cons event earlier ih =>
    cases event with
    | finished other outcome =>
      cases outcome with
      | ok => simpa [failures] using ih
      | error told => simp [failures, ih]
    | added | started | returned | delivered => simpa [failures] using ih

end Journal

open Journal

/-- Takes the tasks out of a target. -/
def Target.emptied {Task : Type} (target : Target Task) : Target Task := { target with tasks := [] }

/-- What a move makes of a graph and of the failures told so far. A target that begins in a graph that
is dropped fails without an effect on the graph. -/
inductive Change {Task : Type} (graph : Graph Task) (told : List (String × TaskError)) :
    Graph Task → List (String × TaskError) → Prop where
  | kept : Change graph told graph told
  | operated {next : Graph Task} (operation : Operation Task)
      (accepted : graph.operate? operation = .ok next) : Change graph told next told
  | opened (target : String)
      (opening : graph.status = .running ∨
        target = rootName ∧ graph.status ∈ [.notStarted, .ready]) :
      Change graph told (Graph.updateTarget { graph with status := .running } target
        Target.emptied) told
  | failed (target : String) (error : TaskError) :
      Change graph told { graph with status := .errored } ((target, error) :: told)
  | orphaned (dropped : graph.isDropped = true) {later : List (String × TaskError)} :
      Change graph told graph later

namespace Machine

def Changes (before after : Machine World) : Prop :=
  Change before.graph (failures before.journal) after.graph (failures after.journal)

section Changes

variable (machine : Machine World) (target : String)

theorem start_changes : machine.Changes (machine.start target) := by
  unfold start
  split <;> exact .kept

theorem operate_changes (operation : Operation (Program World)) :
    machine.Changes (machine.operate operation).1 := by
  unfold operate
  cases accepted : machine.graph.operate? operation with
  | error => exact .kept
  | ok graph => cases operation <;> exact .operated _ accepted

theorem nextTask_changes (place : Nat) (tasks : List (Program World)) :
    machine.Changes (machine.nextTask target place tasks) := by
  cases tasks <;> exact .kept

theorem begin_changes : machine.Changes (machine.begin target) := by
  unfold begin
  split
  next dropped => exact .orphaned dropped
  · dsimp only
    split
    next opening =>
      rw [if_neg (by simp)]
      split
      · exact .failed target _
      · exact .opened target (.inr opening)
    · split
      · exact .failed target _
      next running =>
        have status : machine.graph.status = .running := Classical.not_not.mp running
        split
        · exact .failed target _
        · have opened : Change machine.graph (failures machine.journal) _ (failures machine.journal) :=
            .opened target (.inl status)
          rw [← status] at opened
          exact opened

variable {machine target} {next : Machine World}

theorem work_changes {place : Nat} {program : Program World} {rest : List (Program World)}
    (stepped : machine.work? target place program rest = some next) : machine.Changes next := by
  cases program with
  | finish outcome =>
    cases outcome with
    | ok =>
      cases stepped
      cases rest <;> exact .kept
    | error error =>
      cases stepped
      exact .failed target error
  | suspend | act | observe =>
    cases stepped
    exact .kept
  | operate operation =>
    cases stepped
    exact operate_changes machine operation
  | start other =>
    cases stepped
    exact start_changes machine other
  | await other =>
    simp only [work?] at stepped
    split at stepped
    · cases stepped
      exact start_changes machine other
    · cases stepped
      exact .kept
    · cases stepped

theorem advance_changes (stepped : machine.advance? target = some next) : machine.Changes next := by
  unfold advance? at stepped
  split at stepped
  · cases stepped
  · cases stepped
  · cases stepped
    exact begin_changes machine target
  · cases stepped
    exact nextTask_changes machine target 0 _
  next subtarget _ _ _ =>
    split at stepped
    · cases stepped
      exact .failed target _
    · split at stepped
      · cases stepped
        exact start_changes machine subtarget
      next outcome _ =>
        cases outcome with
        | ok =>
          cases stepped
          exact .kept
        | error error =>
          cases stepped
          exact .failed target error
      · cases stepped
  · exact work_changes stepped

theorem move_changes (machine : Machine World) {move : Move World} (held : move ≠ .drop) :
    machine.Changes (machine.move move) := by
  cases move with
  | operate operation => exact operate_changes machine operation
  | start target => exact start_changes machine target
  | advance target =>
    show machine.Changes ((machine.advance? target).getD machine)
    cases stepped : machine.advance? target with
    | none => exact .kept
    | some next => exact advance_changes stepped
  | drop => exact (held rfl).elim

end Changes

/-- No step of a target has been taken yet. -/
def Fresh (machine : Machine World) (target : String) : Prop :=
  machine.progress? target = none ∨ machine.progress? target = some .begun

/-- What happens elsewhere, as a target sees it. Its own progress is left as it is, unless somebody
waits for it first, and nothing is told of it. -/
structure Elsewhere (target : String) (before after : Machine World) : Prop where
  progress : after.progress? target = before.progress? target ∨
    before.progress? target = none ∧ after.progress? target = some .begun
  quiet : ∃ events, after.journal = events ++ before.journal ∧
    ∀ event ∈ events, ¬ event.Of target

theorem Elsewhere.trans {before between after : Machine World} {target : String}
    (first : Elsewhere target before between) (last : Elsewhere target between after) :
    Elsewhere target before after := by
  constructor
  · rcases first.progress with same | ⟨fresh, begun⟩
    · exact same ▸ last.progress
    · rcases last.progress with kept | ⟨unbegun, _⟩
      · exact .inr ⟨fresh, kept.trans begun⟩
      · cases unbegun.symm.trans begun
  · obtain ⟨earlier, grown, foreign⟩ := first.quiet
    obtain ⟨later, grownOn, foreignOn⟩ := last.quiet
    refine ⟨later ++ earlier, by rw [grownOn, grown, List.append_assoc], ?_⟩
    exact List.forall_mem_append.mpr ⟨foreignOn, foreign⟩

section Elsewhere

variable (machine : Machine World) (target : String)

theorem elsewhere_with (graph : Graph (Program World)) (world : World) :
    Elsewhere target machine { machine with graph, world } :=
  ⟨.inl rfl, [], rfl, nofun⟩

theorem elsewhere_record {event : Event World} (foreign : ¬ event.Of target) :
    Elsewhere target machine (machine.record event) :=
  ⟨.inl rfl, [event], rfl, by simp [foreign]⟩

theorem elsewhere_start (other : String) : Elsewhere target machine (machine.start other) := by
  refine ⟨?_, [], start_journal machine other, nofun⟩
  rw [start_progress?]
  split
  next same =>
    subst same
    cases machine.progress? target with
    | none => exact .inr ⟨rfl, rfl⟩
    | some progress => exact .inl rfl
  · exact .inl rfl

theorem elsewhere_operate (operation : Operation (Program World)) :
    Elsewhere target machine (machine.operate operation).1 := by
  refine ⟨.inl (operate_progress? machine target operation), ?_⟩
  unfold operate
  cases machine.graph.operate? operation with
  | error => exact ⟨[], rfl, nofun⟩
  | ok graph =>
    cases operation with
    | addTask name task => exact ⟨[.added name task], rfl, by simp [Event.Of]⟩
    | _ => exact ⟨[], rfl, nofun⟩

variable {target} {stepping : String} (apart : target ≠ stepping)
include apart

theorem elsewhere_setProgress (progress : Progress World) :
    Elsewhere target machine (machine.setProgress stepping progress) := by
  refine ⟨.inl ?_, [], rfl, nofun⟩
  exact (lookup_map_update machine.runs stepping target fun _ => progress).trans (if_neg apart)

theorem elsewhere_finish (outcome : Outcome) :
    Elsewhere target machine (machine.finish stepping outcome) :=
  (elsewhere_setProgress machine apart _).trans (elsewhere_record _ target apart.symm)

theorem elsewhere_fail (error : TaskError) : Elsewhere target machine (machine.fail stepping error) :=
  (elsewhere_with machine target _ machine.world).trans (elsewhere_finish _ apart (.error error))

theorem elsewhere_nextTask (place : Nat) (tasks : List (Program World)) :
    Elsewhere target machine (machine.nextTask stepping place tasks) := by
  cases tasks with
  | nil => exact elsewhere_finish machine apart _
  | cons task rest =>
    exact (elsewhere_setProgress machine apart _).trans (elsewhere_record _ target apart.symm)

theorem elsewhere_begin : Elsewhere target machine (machine.begin stepping) := by
  unfold begin
  split
  · exact elsewhere_finish machine apart _
  · dsimp only
    generalize (if stepping = rootName ∧ machine.graph.status ∈ [.notStarted, .ready] then
      { machine.graph with status := .running } else machine.graph) = graph
    split
    · exact elsewhere_fail machine apart _
    · split
      · exact elsewhere_fail machine apart _
      · exact (elsewhere_with machine target _ machine.world).trans
          (elsewhere_setProgress _ apart _)

variable {machine} {next : Machine World}

theorem work_elsewhere {place : Nat} {program : Program World} {rest : List (Program World)}
    (stepped : machine.work? stepping place program rest = some next) :
    Elsewhere target machine next := by
  cases program with
  | finish outcome =>
    have returned : Elsewhere target machine (machine.record (.returned stepping place outcome)) :=
      elsewhere_record machine target apart.symm
    cases outcome with
    | ok =>
      cases stepped
      exact returned.trans (elsewhere_nextTask _ apart _ rest)
    | error error =>
      cases stepped
      exact returned.trans (elsewhere_fail _ apart error)
  | suspend | observe =>
    cases stepped
    exact elsewhere_setProgress machine apart _
  | act change =>
    cases stepped
    exact (elsewhere_with machine target machine.graph _).trans (elsewhere_setProgress _ apart _)
  | operate operation =>
    cases stepped
    exact (elsewhere_operate machine target operation).trans (elsewhere_setProgress _ apart _)
  | start other =>
    cases stepped
    exact (elsewhere_start machine target other).trans (elsewhere_setProgress _ apart _)
  | await other =>
    simp only [work?] at stepped
    split at stepped
    · cases stepped
      exact elsewhere_start machine target other
    next outcome _ =>
      cases stepped
      have told : Elsewhere target machine (machine.record (.delivered stepping other outcome)) :=
        elsewhere_record machine target apart.symm
      exact told.trans (elsewhere_setProgress _ apart _)
    · cases stepped

theorem advance_elsewhere (stepped : machine.advance? stepping = some next) :
    Elsewhere target machine next := by
  unfold advance? at stepped
  split at stepped
  · cases stepped
  · cases stepped
  · cases stepped
    exact elsewhere_begin machine apart
  · cases stepped
    exact elsewhere_nextTask machine apart 0 _
  next subtarget _ _ _ =>
    split at stepped
    · cases stepped
      exact elsewhere_fail machine apart _
    · split at stepped
      · cases stepped
        exact elsewhere_start machine target subtarget
      next outcome _ =>
        have told : Elsewhere target machine
            (machine.record (.delivered stepping subtarget outcome)) :=
          elsewhere_record machine target apart.symm
        cases outcome with
        | ok =>
          cases stepped
          exact told.trans (elsewhere_setProgress _ apart _)
        | error error =>
          cases stepped
          exact told.trans (elsewhere_fail _ apart error)
      · cases stepped
  · exact work_elsewhere apart stepped

end Elsewhere

theorem move_elsewhere (machine : Machine World) {target : String} {move : Move World}
    (other : move ≠ .advance target) : Elsewhere target machine (machine.move move) := by
  cases move with
  | operate operation => exact elsewhere_operate machine target operation
  | start name => exact elsewhere_start machine target name
  | advance stepping =>
    show Elsewhere target machine ((machine.advance? stepping).getD machine)
    cases stepped : machine.advance? stepping with
    | none => exact elsewhere_with machine target machine.graph machine.world
    | some next =>
      refine advance_elsewhere ?_ stepped
      rintro rfl
      exact other rfl
  | drop => exact elsewhere_with machine target _ machine.world

end Machine

end CompositeKeys.Tasks
