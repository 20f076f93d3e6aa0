import CompositeKeys.Proofs.Tasks.Position

/-! The steps of a run of the root target. The target at the top can take a step until it has finished,
and nobody else can. Each step leads to another position with the same goal, and closer to it. -/

namespace CompositeKeys.Tasks.Machine

variable {World : Type} {graph : Graph (Program World)} {goal : Tally World × Outcome}
  {machine : Machine World} {top : String} {waiters : List String} {agenda : List Stop}
  {entered : List String}

/-- The target at the top can take a step, which brings the run closer to its goal. -/
def Advances (graph : Graph (Program World)) (goal : Tally World × Outcome) (machine : Machine World)
    (position : Position World) : Prop :=
  ∃ next, machine.advance? position.top = some next ∧
    Nears graph goal next (position.remaining graph machine.world)

section Advance

variable (launchable : graph.Launchable)
include launchable

theorem Stands.nextTask {progress : Progress World}
    (stands : Stands graph goal machine ⟨top, progress, waiters, agenda, entered, none⟩)
    (started : progress ≠ .begun) (place : Nat) {tasks : List (Program World)}
    (detached : ∀ task ∈ tasks, task.Detached)
    (ahead : graph.carryOut (tasks.map (.perform top) ++ graph.ahead entered agenda)
      (machine.tally entered) = goal) :
    Nears graph goal (machine.nextTask top place tasks)
      (distance (graph.tour entered agenda).length (agenda.length + tasks.length + 3) 0) := by
  cases tasks with
  | nil =>
    have running : machine.graph = graph.taken .running entered := by
      rw [stands.taken, Position.status_of_started rfl started]
    have ended : Nears graph goal (machine.finish top (.ok ())) (graph.bound entered agenda (.ok ())) :=
      stands.finish started (stands.runs_after _) nofun running ahead launchable
    exact ended
  | cons task rest =>
    obtain ⟨first, others⟩ := List.forall_mem_cons.mp detached
    have further : Stands graph goal (machine.nextTask top place (task :: rest))
        ⟨top, .working place task rest, waiters, agenda, entered, none⟩ :=
      stands.continue launchable started (stands.runs_after _) nofun rfl rfl
        (.working first others) ahead
    refine ⟨_, further, distance_lt.mpr (.inr ⟨rfl, .inl ?_⟩)⟩
    show agenda.length + rest.length + 3 < agenda.length + (rest.length + 1) + 3
    omega

/-- A target begins in a graph that runs, and the root target sets it running before. -/
theorem begin_taken (same : machine.graph =
      graph.taken (if top = rootName then graph.status else .running) entered)
    (fresh : top ∉ entered) (present : (graph.target? top).isSome) :
    machine.begin top =
      setProgress { machine with graph := graph.taken .running (top :: entered) } top
        (.depending (graph.subtargets top) (graph.pending top)) := by
  obtain ⟨target, found⟩ := Option.isSome_iff_exists.mp present
  have alive : machine.graph.isDropped = false := same ▸ launchable.alive
  have opened : (if top = rootName ∧ machine.graph.status ∈ [.notStarted, .ready] then
      { machine.graph with status := .running } else machine.graph) =
        graph.taken .running entered := by
    rw [same]
    by_cases root : top = rootName
    · rw [if_pos root]
      exact if_pos ⟨root, launchable.early⟩
    · rw [if_neg root]
      exact if_neg fun both => root both.1
  have held : (graph.taken .running entered).target? top = some target :=
    (Graph.taken_of_fresh fresh).trans found
  have subtargets : graph.subtargets top = target.subtargets := Graph.subtargets_of_target? found
  have pending : graph.pending top = target.tasks := by
    simp [Graph.pending, found]
  rw [subtargets, pending, ← Graph.taken_update]
  unfold begin
  rw [alive, opened]
  simp only [Bool.false_eq_true, if_false, held]
  rfl

theorem Stands.begin
    (stands : Stands graph goal machine ⟨top, .begun, waiters, agenda, entered, none⟩) :
    Advances graph goal machine ⟨top, .begun, waiters, agenda, entered, none⟩ := by
  have fresh : top ∉ entered := fun member => (stands.entered top).mp member (.inr stands.here)
  have present : (graph.target? top).isSome := stands.top_present launchable
  have stepped : machine.advance? top = some (machine.begin top) := by
    simp only [advance?, show machine.progress? top = some .begun from stands.here]
  rw [begin_taken launchable stands.taken fresh present] at stepped
  have ahead : graph.carryOut
      (graph.ahead (top :: entered) ((graph.subtargets top).map .enter ++ .leave top :: agenda))
      (machine.tally (top :: entered)) = goal := by
    have reached : graph.carryOut (graph.ahead entered (.enter top :: agenda))
        (machine.tally entered) = goal := stands.ahead
    rw [Graph.ahead_enter fresh, Graph.carryOut, if_pos present] at reached
    exact reached
  refine ⟨_, stepped, ⟨top, .depending (graph.subtargets top) (graph.pending top), waiters, agenda,
    top :: entered, none⟩, ?_, ?_⟩
  · exact stands.become launchable (stands.runs_after _) nofun rfl (fun name => List.mem_cons) rfl
      (.depending fun name => id) ahead
  · refine distance_lt.mpr (.inl ?_)
    show _ < (graph.tour entered (.enter top :: agenda)).length
    rw [Graph.tour_enter fresh, List.length_cons]
    exact Nat.lt_succ_self _

section Depending

variable {child : String} {todo rest : List String} {failure : Option TaskError}

omit launchable in
/-- What a target comes to that waits for a target that is there. -/
theorem advance_depending {outcome : Outcome}
    (stands : Stands graph goal machine
      ⟨top, .depending (child :: rest) (graph.pending top), waiters, agenda, entered, failure⟩)
    (present : (graph.target? child).isSome)
    (done : machine.progress? child = some (.finished outcome)) :
    machine.advance? top = some (match outcome with
      | .ok () => (machine.record (.delivered top child (.ok ()))).setProgress top
          (.depending rest (graph.pending top))
      | .error error => (machine.record (.delivered top child (.error error))).fail top error) := by
  have here : machine.progress? top = some (.depending (child :: rest) (graph.pending top)) :=
    stands.here
  have held : (machine.graph.target? child).isNone = false := by
    rw [← Option.not_isSome, stands.isSome_iff, present]
    rfl
  simp only [advance?, here, held, Bool.false_eq_true, if_false, done]
  cases outcome <;> rfl

theorem Stands.child_missing
    (stands : Stands graph goal machine
      ⟨top, .depending (child :: rest) (graph.pending top), waiters, agenda, entered, none⟩)
    (missing : graph.target? child = none) :
    Advances graph goal machine
      ⟨top, .depending (child :: rest) (graph.pending top), waiters, agenda, entered, none⟩ := by
  have fresh : child ∉ entered := by
    intro member
    have present := stands.present child member
    rw [missing] at present
    cases present
  have absent : machine.graph.target? child = none := by
    rw [stands.taken, Graph.taken_target?, missing]
    rfl
  have here : machine.progress? top = some (.depending (child :: rest) (graph.pending top)) :=
    stands.here
  have stepped : machine.advance? top = some (machine.fail top (.unknownTarget child)) := by
    simp only [advance?, here, absent, Option.isNone_none, if_true]
  have ahead : (machine.tally entered, .error (.unknownTarget child)) = goal := by
    have reached : graph.carryOut
        (graph.ahead entered (.enter child :: (rest.map .enter ++ .leave top :: agenda)))
        (machine.tally entered) = goal := stands.ahead
    rw [Graph.ahead_enter fresh, Graph.carryOut, missing] at reached
    exact reached
  refine ⟨_, stepped, (stands.fail launchable nofun nofun ahead).closer (le_of_lt ?_)⟩
  refine distance_lt.mpr (.inl ?_)
  show 0 < (graph.tour entered (.enter child :: (rest.map .enter ++ .leave top :: agenda))).length
  rw [Graph.tour_enter fresh, List.length_cons]
  exact Nat.succ_pos _

/-- The target at the top waits for one that nobody has waited for, which comes to the top. -/
theorem Stands.child_starts
    (stands : Stands graph goal machine
      ⟨top, .depending (child :: rest) (graph.pending top), waiters, agenda, entered, none⟩)
    (listed : ∀ name ∈ child :: rest, graph.Needs top name)
    (present : (graph.target? child).isSome) (idle : machine.progress? child = none) :
    Advances graph goal machine
      ⟨top, .depending (child :: rest) (graph.pending top), waiters, agenda, entered, none⟩ := by
  -- There are no cycles, so the new target at the top is not one of those that wait.
  obtain ⟨apart, notWaiting⟩ := stands.child_apart launchable (listed child (.head _))
  have plain : child ≠ rootName := by
    rintro rfl
    exact launchable.layered.rootless top (listed rootName (.head _))
  have here : machine.progress? top = some (.depending (child :: rest) (graph.pending top)) :=
    stands.here
  have held : (machine.graph.target? child).isNone = false := by
    rw [← Option.not_isSome, stands.isSome_iff, present]
    rfl
  have stepped : machine.advance? top =
      some { machine with runs := (child, .begun) :: machine.runs } := by
    simp only [advance?, here, held, Bool.false_eq_true, if_false, idle, start]
  have runs : ∀ name, progress? { machine with runs := (child, .begun) :: machine.runs } name =
      if name = child then some .begun else machine.progress? name :=
    fun name => lookup_cons machine.runs child name .begun
  have waiting : Waiting graph { machine with runs := (child, .begun) :: machine.runs } top waiters
      agenda := by
    refine stands.waiting.congr fun name member => (runs name).trans (if_neg ?_)
    rintro rfl
    exact notWaiting member
  refine ⟨_, stepped, ⟨child, .begun, top :: waiters, rest.map Stop.enter ++ .leave top :: agenda,
    entered, none⟩, ⟨?_, .behind waiting ?_ listed present, ?_, .begun, ?_, ?_, stands.present,
    stands.ahead⟩, ?_⟩
  · have status : Position.status graph.status (⟨child, .begun, top :: waiters,
        rest.map .enter ++ .leave top :: agenda, entered, none⟩ : Position World) = .running :=
      if_neg plain
    rw [status]
    exact stands.taken
  · exact ((runs top).trans (if_neg (Ne.symm apart))).trans here
  · exact (runs child).trans (if_pos rfl)
  · intro name other unawaited
    obtain ⟨above, behind⟩ := not_or.mp (mt List.mem_cons.mpr unawaited)
    rw [runs name, if_neg other]
    exact stands.others name above behind
  · intro name
    rw [stands.entered name, Fresh, Fresh, runs name]
    by_cases same : name = child
    · simp [same, idle]
    · simp [same]
  · refine distance_lt.mpr (.inr ⟨rfl, .inl ?_⟩)
    show (rest.map Stop.enter ++ .leave top :: agenda).length + 1 <
      rest.length + 1 + agenda.length + 2
    rw [Stop.length_below]
    omega

theorem Stands.child_done
    (stands : Stands graph goal machine
      ⟨top, .depending (child :: rest) (graph.pending top), waiters, agenda, entered, none⟩)
    (listed : ∀ name ∈ child :: rest, graph.Needs top name)
    (present : (graph.target? child).isSome)
    (done : machine.progress? child = some (.finished (.ok ()))) :
    Advances graph goal machine
      ⟨top, .depending (child :: rest) (graph.pending top), waiters, agenda, entered, none⟩ := by
  have known : child ∈ entered := (stands.entered child).mpr (by simp [Fresh, done])
  have told : Stands graph goal (machine.record (.delivered top child (.ok ())))
      ⟨top, .depending (child :: rest) (graph.pending top), waiters, agenda, entered, none⟩ :=
    stands.record rfl
  have ahead : graph.carryOut (graph.ahead entered (rest.map .enter ++ .leave top :: agenda))
      (machine.tally entered) = goal := by
    rw [← Graph.ahead_known known]
    exact stands.ahead
  refine ⟨_, advance_depending stands present done,
    ⟨top, .depending rest (graph.pending top), waiters, agenda, entered, none⟩, ?_, ?_⟩
  · exact told.continue launchable (by simp) (told.runs_after _) (by simp) rfl rfl
      (.depending fun name later => listed name (.tail _ later)) ahead
  · refine distance_lt.mpr (.inr ⟨?_, .inl ?_⟩)
    · show _ = (graph.tour entered (.enter child :: (rest.map .enter ++ .leave top :: agenda))).length
      rw [Graph.tour_known known]
    · show rest.length + agenda.length + 2 < rest.length + 1 + agenda.length + 2
      omega

theorem Stands.proceed
    (stands : Stands graph goal machine
      ⟨top, .depending todo (graph.pending top), waiters, agenda, entered, none⟩)
    (listed : ∀ name ∈ todo, graph.Needs top name) :
    Advances graph goal machine
      ⟨top, .depending todo (graph.pending top), waiters, agenda, entered, none⟩ := by
  cases todo with
  | nil =>
    have stepped : machine.advance? top = some (machine.nextTask top 0 (graph.pending top)) := by
      simp only [advance?, show machine.progress? top = _ from stands.here]
    have ahead : graph.carryOut ((graph.pending top).map (.perform top) ++ graph.ahead entered agenda)
        (machine.tally entered) = goal := by
      rw [← Graph.ahead_leave]
      exact stands.ahead
    have near := stands.nextTask launchable nofun 0 (launchable.detached top) ahead
    refine ⟨_, stepped, near.closer (le_of_lt (distance_lt.mpr (.inl ?_)))⟩
    show _ < (graph.tour entered (.leave top :: agenda)).length
    rw [Graph.tour_leave, List.length_cons]
    exact Nat.lt_succ_self _
  | cons child rest =>
    obtain ⟨apart, notWaiting⟩ := stands.child_apart launchable (listed child (.head _))
    cases found : graph.target? child with
    | none => exact stands.child_missing launchable found
    | some target =>
      have present : (graph.target? child).isSome := by
        rw [found]
        rfl
      rcases stands.others child apart notWaiting with idle | ⟨outcome, done, failed⟩
      · exact stands.child_starts launchable listed present idle
      · cases outcome with
        | ok => exact stands.child_done launchable listed present done
        | error error => cases failed error rfl

/-- The failure of a target is handed on to the one that has waited for it. -/
theorem Stands.unwind {error : TaskError}
    (stands : Stands graph goal machine
      ⟨top, .depending (child :: rest) (graph.pending top), waiters, agenda, entered, some error⟩)
    (failed : machine.progress? child = some (.finished (.error error)))
    (present : (graph.target? child).isSome) :
    Advances graph goal machine
      ⟨top, .depending (child :: rest) (graph.pending top), waiters, agenda, entered, some error⟩ := by
  have told : Stands graph goal (machine.record (.delivered top child (.error error)))
      ⟨top, .depending (child :: rest) (graph.pending top), waiters, agenda, entered, some error⟩ :=
    stands.record rfl
  refine ⟨_, advance_depending stands present failed, ?_⟩
  exact told.fail launchable nofun (fun other same => Option.some.inj same) told.ahead

end Depending

section Working

variable {place : Nat} {program : Program World} {rest : List (Program World)}
  (stands : Stands graph goal machine
    ⟨top, .working place program rest, waiters, agenda, entered, none⟩)
  (others : ∀ task ∈ rest, task.Detached)
include stands others

/-- The task at work goes on as a program that comes to the same, in fewer steps. -/
theorem Stands.resume {further : Program World} {world : World} (detached : further.Detached)
    (same : further.perform (graph.taken .running entered).view world =
      program.perform (graph.taken .running entered).view machine.world)
    (fewer : further.steps (graph.taken .running entered).view world <
      program.steps (graph.taken .running entered).view machine.world) :
    Nears graph goal (setProgress { machine with world } top (.working place further rest))
      (Position.remaining graph ⟨top, .working place program rest, waiters, agenda, entered, none⟩
        machine.world) := by
  have ahead : ({ machine.tally entered with world } : Tally World).unlessFailed
      (graph.carryOut (rest.map (.perform top) ++ graph.ahead entered agenda))
      (further.perform (graph.taken .running entered).view world) = goal := by
    rw [Tally.unlessFailed_world, same]
    exact stands.ahead
  refine ⟨⟨top, .working place further rest, waiters, agenda, entered, none⟩, ?_,
    distance_lt.mpr (.inr ⟨rfl, .inr ⟨rfl, fewer⟩⟩)⟩
  exact stands.continue launchable nofun (stands.runs_after _) nofun rfl rfl
    (.working detached others) ahead

theorem Stands.work (detached : program.Detached) :
    Advances graph goal machine
      ⟨top, .working place program rest, waiters, agenda, entered, none⟩ := by
  have here : machine.progress? top = some (.working place program rest) := stands.here
  have stepped : machine.advance? top = machine.work? top place program rest := by
    simp only [advance?, here]
  have view : machine.graph.view = (graph.taken .running entered).view :=
    congrArg Graph.view stands.taken
  unfold Advances
  rw [stepped]
  cases program with
  | finish outcome =>
    have told : Stands graph goal (machine.record (.returned top place outcome))
        ⟨top, .working place (.finish outcome) rest, waiters, agenda, entered, none⟩ :=
      stands.record rfl
    cases outcome with
    | ok => exact ⟨_, rfl, told.nextTask launchable nofun (place + 1) others told.ahead⟩
    | error error =>
      have near := told.fail launchable nofun nofun told.ahead
      refine ⟨_, rfl, near.closer (le_of_lt (distance_lt.mpr ?_))⟩
      show 0 < (graph.tour entered agenda).length ∨ 0 = (graph.tour entered agenda).length ∧
        (agenda.length + 1 < agenda.length + rest.length + 3 ∨ _)
      omega
  | suspend next =>
    exact ⟨_, rfl, stands.resume launchable others detached rfl (Nat.lt_succ_self _)⟩
  | act change next =>
    exact ⟨_, rfl, stands.resume launchable others (detached machine.world) rfl (Nat.lt_succ_self _)⟩
  | observe next =>
    refine ⟨_, rfl, stands.resume launchable others (detached machine.graph.view) ?_ ?_⟩
    · rw [view]
      rfl
    · rw [view]
      exact Nat.lt_succ_self _
  | operate | start | await => exact detached.elim

end Working

end Advance

/-- A target that waits for one under way cannot take a step. -/
theorem advance_blocked {target child : String} {rest : List String} {tasks : List (Program World)}
    {progress : Progress World}
    (waiting : machine.progress? target = some (.depending (child :: rest) tasks))
    (held : (machine.graph.target? child).isNone = false)
    (current : machine.progress? child = some progress)
    (unfinished : ∀ outcome, progress ≠ .finished outcome) : machine.advance? target = none := by
  cases progress with
  | begun | depending | working =>
    simp only [advance?, waiting, held, Bool.false_eq_true, if_false, current]
  | finished outcome => exact (unfinished outcome rfl).elim

section Step

variable {position : Position World} (stands : Stands graph goal machine position)
include stands

theorem Stands.advances (launchable : graph.Launchable)
    (unfinished : ∀ outcome, position.progress ≠ .finished outcome) :
    Advances graph goal machine position := by
  cases stands.apt with
  | begun => exact stands.begin launchable
  | depending listed => exact stands.proceed launchable listed
  | unwinding failed known => exact stands.unwind launchable failed known
  | working detached others => exact stands.work launchable others detached
  | finished => exact (unfinished _ rfl).elim

/-- Whoever waits is blocked by the next one in the row, and all the others are at their end. -/
theorem Stands.still {name : String} (other : name ≠ position.top) : machine.advance? name = none := by
  by_cases behind : name ∈ position.waiters
  · obtain ⟨child, rest, tasks, waiting, known, place⟩ := stands.waiting.blocked name behind
    have held : (machine.graph.target? child).isNone = false := by
      rw [← Option.not_isSome, stands.isSome_iff, known]
      rfl
    have unfinished : ∀ outcome, position.progress ≠ .finished outcome := by
      cases stands.apt with
      | begun | depending | unwinding | working => exact nofun
      | finished => exact (List.not_mem_nil behind).elim
    rcases place with rfl | later
    · exact advance_blocked waiting held stands.here unfinished
    · obtain ⟨_, _, _, depending, _⟩ := stands.waiting.blocked child later
      exact advance_blocked waiting held depending nofun
  · rcases stands.others name other behind with idle | ⟨outcome, ended, _⟩
    · simp only [advance?, idle]
    · simp only [advance?, ended]

end Step

end CompositeKeys.Tasks.Machine
