import CompositeKeys.Proofs.Tasks.Dependencies
import CompositeKeys.Proofs.Tasks.Failure

/-! What still happens in a graph that has failed. No target takes up its tasks any more, but one that has
taken them goes on: the status is looked at when a target begins, and not again. Only what waits for a
failure, and hands it on, starts nothing. In a run of the root target alone whose tasks hand on the failures
of others, that is everything. -/

namespace CompositeKeys.Tasks
open Journal

variable {World : Type}

namespace Journal

theorem started_of_foreign {target : String} {events : List (Event World)}
    (foreign : ∀ event ∈ events, ¬ event.Of target) (journal : List (Event World)) :
    started target (events ++ journal) = started target journal := by
  induction events with
  | nil => rfl
  | cons event events ih =>
    obtain ⟨apart, rest⟩ := List.forall_mem_cons.mp foreign
    rw [List.cons_append]
    cases event with
    | started other place task => exact (if_neg apart).trans (ih rest)
    | added | returned | finished | delivered => exact ih rest

theorem started_prefix (target : String) (events journal : List (Event World)) :
    started target journal <+: started target (events ++ journal) := by
  induction events with
  | nil => exact List.prefix_rfl
  | cons event events ih =>
    rw [List.cons_append]
    cases event with
    | started other place task =>
      rw [started]
      split
      · exact ih.trans (List.prefix_append ..)
      · exact ih
    | added | returned | finished | delivered => exact ih

end Journal

namespace Program

/-- A program that cannot succeed unless one of the doomed targets does. -/
def Fails (doomed : String → Prop) : Program World → Prop
  | .finish outcome => outcome ≠ .ok ()
  | .suspend next => next.Fails doomed
  | .act _ next => ∀ world, (next world).Fails doomed
  | .operate _ next => ∀ outcome, (next outcome).Fails doomed
  | .observe next => ∀ view, (next view).Fails doomed
  | .start _ next => next.Fails doomed
  | .await other next => doomed other ∧ ∀ error, (next (.error error)).Fails doomed

theorem Fails.mono {doomed more : String → Prop} (weaker : ∀ target, doomed target → more target) :
    ∀ program : Program World, program.Fails doomed → program.Fails more
  | .finish _, fails => fails
  | .suspend next, fails => Fails.mono weaker next fails
  | .act _ next, fails => fun world => Fails.mono weaker (next world) (fails world)
  | .operate _ next, fails => fun outcome => Fails.mono weaker (next outcome) (fails outcome)
  | .observe next, fails => fun view => Fails.mono weaker (next view) (fails view)
  | .start _ next, fails => Fails.mono weaker next fails
  | .await other next, ⟨awaited, fails⟩ =>
    ⟨weaker other awaited, fun error => Fails.mono weaker (next (.error error)) (fails error)⟩

/-- A program that waits for all that it starts and fails when that fails. -/
def HandsOn : Program World → Prop
  | .finish _ => True
  | .suspend next => next.HandsOn
  | .act _ next => ∀ world, (next world).HandsOn
  | .operate _ next => ∀ outcome, (next outcome).HandsOn
  | .observe next => ∀ view, (next view).HandsOn
  | .start .. => False
  | .await _ next => (∀ outcome, (next outcome).HandsOn) ∧
      ∀ error, (next (.error error)).Fails fun _ => False

end Program

theorem Graph.operate?_settled {Task : Type} {graph next : Graph Task} {operation : Operation Task}
    (sorted : Graph.Sorted graph.targets) (settled : graph.Settled)
    (accepted : graph.operate? operation = .ok next) : graph.Extends next := by
  cases operation with
  | addTask target task => exact ((Graph.addTask_ok accepted).1 settled).elim
  | create | markReady | markClosed | describe | depend =>
    exact operate?_extends sorted accepted nofun

/-- The tasks that have been taken and not started. -/
def Progress.remaining : Progress World → List (Program World)
  | .depending _ tasks => tasks
  | .working _ _ rest => rest
  | .begun | .finished _ => []

namespace Machine

variable {machine next : Machine World}

/-- The tasks that a target has taken and not started. -/
def ahead (machine : Machine World) (target : String) : List (Program World) :=
  ((machine.progress? target).map Progress.remaining).getD []

/-- What a target has started and what it may still start. -/
def agenda (machine : Machine World) (target : String) : List (Program World) :=
  (started target machine.journal).map Prod.fst ++ machine.ahead target

theorem agenda_congr {target : String}
    (journal : started target next.journal = started target machine.journal)
    (progress : next.progress? target = machine.progress? target) :
    next.agenda target = machine.agenda target := by
  rw [agenda, agenda, ahead, ahead, journal, progress]

theorem Elsewhere.started {before after : Machine World} {target : String}
    (elsewhere : Elsewhere target before after) :
    started target after.journal = started target before.journal := by
  obtain ⟨events, grown, foreign⟩ := elsewhere.quiet
  rw [grown, started_of_foreign foreign]

theorem Elsewhere.agenda {before after : Machine World} {target : String}
    (elsewhere : Elsewhere target before after) : after.agenda target = before.agenda target := by
  rcases elsewhere.progress with same | ⟨fresh, begun⟩
  · exact agenda_congr elsewhere.started same
  · rw [Machine.agenda, Machine.agenda, ahead, ahead, elsewhere.started, fresh, begun]
    rfl

section Own

-- What a target does to itself in one step.

variable {target : String} {current progress : Progress World}
  (running : machine.progress? target = some current)
include running

theorem start_held (other : String) : (machine.start other).progress? target = some current := by
  rw [start_progress?]
  split
  next same => rw [← same, running, Option.getD_some]
  · exact running

theorem start_agenda (other : String) : (machine.start other).agenda target = machine.agenda target :=
  agenda_congr (elsewhere_start machine target other).started
    ((start_held running other).trans running.symm)

theorem setProgress_held : (machine.setProgress target progress).progress? target = some progress :=
  (machine.setProgress_progress? target target progress running).trans (if_pos rfl)

theorem setProgress_agenda (same : progress.remaining = current.remaining) :
    (machine.setProgress target progress).agenda target = machine.agenda target := by
  rw [agenda, agenda, ahead, ahead, setProgress_held running, running]
  exact congrArg (_ ++ ·) same

theorem finish_agenda (outcome : Outcome) :
    (machine.finish target outcome).agenda target <+: machine.agenda target := by
  have ended : (machine.finish target outcome).progress? target = some (.finished outcome) :=
    setProgress_held running
  rw [agenda, ahead, ended]
  exact (List.append_nil _).symm ▸ List.prefix_append ..

theorem fail_agenda (error : TaskError) :
    (machine.fail target error).agenda target <+: machine.agenda target :=
  @finish_agenda World { machine with graph := { machine.graph with status := .errored } } target
    current running (.error error)

theorem nextTask_agenda {place : Nat} {tasks : List (Program World)}
    (taken : current.remaining = tasks) :
    (machine.nextTask target place tasks).agenda target <+: machine.agenda target := by
  cases tasks with
  | nil => exact finish_agenda running (.ok ())
  | cons task rest =>
    have remaining : (machine.nextTask target place (task :: rest)).progress? target =
        some (.working place task rest) := setProgress_held running
    have recorded : started target (machine.nextTask target place (task :: rest)).journal =
        started target machine.journal ++ [(task, place)] := if_pos rfl
    rw [agenda, agenda, ahead, ahead, remaining, recorded, running, List.map_append, List.append_assoc]
    exact (congrArg (_ ++ ·) taken).symm ▸ List.prefix_rfl

end Own

theorem work_agenda {target : String} {place : Nat} {program : Program World}
    {rest : List (Program World)}
    (running : machine.progress? target = some (.working place program rest))
    (stepped : machine.work? target place program rest = some next) :
    next.agenda target <+: machine.agenda target := by
  -- a task that goes on leaves the agenda as it is
  have resumed : ∀ (between : Machine World) (following : Program World),
      between.progress? target = some (.working place program rest) →
      started target between.journal = started target machine.journal →
      (between.setProgress target (.working place following rest)).agenda target <+:
        machine.agenda target := by
    intro between following held journal
    have kept : (between.setProgress target (.working place following rest)).agenda target =
        between.agenda target := setProgress_agenda held rfl
    have same := kept.trans (agenda_congr journal (held.trans running.symm))
    exact same ▸ List.prefix_rfl
  cases program with
  | finish outcome =>
    cases outcome with
    | ok =>
      cases stepped
      exact @nextTask_agenda World (machine.record (.returned target place (.ok ()))) target _
        running (place + 1) rest rfl
    | error error =>
      cases stepped
      exact @fail_agenda World (machine.record (.returned target place (.error error))) target _
        running error
  | suspend | act | observe =>
    cases stepped
    exact resumed _ _ running rfl
  | operate operation =>
    cases stepped
    exact resumed _ _ ((operate_progress? machine target operation).trans running)
      (elsewhere_operate machine target operation).started
  | start other =>
    cases stepped
    exact resumed _ _ (start_held running other) (elsewhere_start machine target other).started
  | await other =>
    simp only [work?] at stepped
    split at stepped
    · cases stepped
      exact start_agenda running other ▸ List.prefix_rfl
    next outcome _ =>
      cases stepped
      exact resumed (machine.record (.delivered target other outcome)) _ running rfl
    · cases stepped

/-- Once it has begun, a target only ever starts what it has taken, in turn. -/
theorem advance_agenda {target : String} (begun : machine.progress? target ≠ some .begun)
    (stepped : machine.advance? target = some next) :
    next.agenda target <+: machine.agenda target := by
  unfold advance? at stepped
  split at stepped
  · cases stepped
  · cases stepped
  next running => exact (begun running).elim
  next tasks running =>
    cases stepped
    exact nextTask_agenda running rfl
  next subtarget rest tasks running =>
    split at stepped
    · cases stepped
      exact fail_agenda running _
    · split at stepped
      · cases stepped
        exact start_agenda running subtarget ▸ List.prefix_rfl
      next outcome _ =>
        have told : (machine.record (.delivered target subtarget outcome)).progress? target =
          some (.depending (subtarget :: rest) tasks) := running
        cases outcome with
        | ok =>
          cases stepped
          have kept : ((machine.record (.delivered target subtarget (.ok ()))).setProgress target
              (.depending rest tasks)).agenda target = machine.agenda target :=
            setProgress_agenda told rfl
          exact kept ▸ List.prefix_rfl
        | error error =>
          cases stepped
          exact fail_agenda told error
      · cases stepped
  next running => exact work_agenda running stepped

/-- A target that can only come to a failure: it has not begun or has failed already, or it waits for a
doomed target and hands on its failure. -/
def Fated (machine : Machine World) (doomed : String → Prop) (target : String) : Prop :=
  match machine.progress? target with
  | none | some .begun => True
  | some (.depending [] _) => False
  | some (.depending (subtarget :: _) _) => doomed subtarget
  | some (.working _ program _) => program.Fails doomed
  | some (.finished outcome) => outcome ≠ .ok ()

/-- Each of the doomed targets is fated to fail, given that the others are. -/
def Condemned (machine : Machine World) (doomed : String → Prop) : Prop :=
  ∀ target, doomed target → machine.Fated doomed target

theorem Fated.of_progress {before after : Machine World} {doomed : String → Prop} {target : String}
    (fated : before.Fated doomed target)
    (same : after.progress? target = before.progress? target) : after.Fated doomed target := by
  rw [Fated, same]
  exact fated

theorem Fated.elsewhere {before after : Machine World} {doomed : String → Prop} {target : String}
    (fated : before.Fated doomed target) (elsewhere : Elsewhere target before after) :
    after.Fated doomed target := by
  rcases elsewhere.progress with same | ⟨_, begun⟩
  · exact fated.of_progress same
  · rw [Fated, begun]
    trivial

/-- A fated target stays so, and starts no task. -/
structure Idles (doomed : String → Prop) (target : String) (before after : Machine World) : Prop where
  fated : after.Fated doomed target
  started : started target after.journal = started target before.journal

section Idles

variable {doomed : String → Prop} {target : String} {current progress : Progress World}
  (running : machine.progress? target = some current)
include running

theorem idles_fail (error : TaskError) : Idles doomed target machine (machine.fail target error) := by
  have ended : (machine.fail target error).progress? target = some (.finished (.error error)) :=
    @setProgress_held World { machine with graph := { machine.graph with status := .errored } }
      target current _ running
  refine ⟨?_, rfl⟩
  rw [Fated, ended]
  exact nofun

theorem idles_resume {place : Nat} {program : Program World} {rest : List (Program World)}
    (fails : program.Fails doomed) :
    Idles doomed target machine (machine.setProgress target (.working place program rest)) := by
  refine ⟨?_, rfl⟩
  rw [Fated, setProgress_held running]
  exact fails

end Idles

theorem Condemned.work {doomed : String → Prop} (condemned : machine.Condemned doomed)
    {target : String} {place : Nat} {program : Program World} {rest : List (Program World)}
    (running : machine.progress? target = some (.working place program rest))
    (fated : machine.Fated doomed target)
    (stepped : machine.work? target place program rest = some next) :
    Idles doomed target machine next := by
  have fails : program.Fails doomed := by
    rw [Fated, running] at fated
    exact fated
  cases program with
  | finish outcome =>
    cases outcome with
    | ok => exact (fails rfl).elim
    | error error =>
      cases stepped
      have failed := @idles_fail World (machine.record (.returned target place (.error error)))
        doomed target _ running error
      exact ⟨failed.fated, failed.started⟩
  | suspend following =>
    cases stepped
    exact idles_resume running (show following.Fails doomed from fails)
  | act change following =>
    cases stepped
    have resumed := @idles_resume World { machine with world := change machine.world } doomed target _
      running place _ rest (fails machine.world)
    exact ⟨resumed.fated, resumed.started⟩
  | operate operation following =>
    cases stepped
    have held := (operate_progress? machine target operation).trans running
    have resumed := @idles_resume World (machine.operate operation).1 doomed target _ held place _
      rest (fails (machine.operate operation).2)
    exact ⟨resumed.fated, resumed.started.trans (elsewhere_operate machine target operation).started⟩
  | observe following =>
    cases stepped
    exact idles_resume running (fails machine.graph.view)
  | start other following =>
    cases stepped
    have resumed := @idles_resume World (machine.start other) doomed target _
      (start_held running other) place following rest fails
    exact ⟨resumed.fated, resumed.started.trans (elsewhere_start machine target other).started⟩
  | await other following =>
    simp only [work?] at stepped
    split at stepped
    · cases stepped
      exact ⟨fated.of_progress ((start_held running other).trans running.symm),
        (elsewhere_start machine target other).started⟩
    next outcome ended =>
      cases stepped
      have bad : outcome ≠ .ok () := by
        have awaited := condemned other fails.1
        rw [Fated, ended] at awaited
        exact awaited
      cases outcome with
      | ok => exact (bad rfl).elim
      | error error =>
        have resumed := @idles_resume World (machine.record (.delivered target other (.error error)))
          doomed target _ running place _ rest (fails.2 error)
        exact ⟨resumed.fated, resumed.started⟩
    · cases stepped

theorem Condemned.advance {doomed : String → Prop} (condemned : machine.Condemned doomed)
    (alive : machine.graph.isDropped = false) (errored : machine.graph.status = .errored)
    {target : String} (fate : doomed target) (stepped : machine.advance? target = some next) :
    Idles doomed target machine next := by
  have fated := condemned target fate
  by_cases begun : machine.progress? target = some .begun
  · rw [advance_refused alive (.inr errored) begun] at stepped
    cases stepped
    exact idles_fail begun _
  unfold advance? at stepped
  split at stepped
  · cases stepped
  · cases stepped
  next running => exact (begun running).elim
  next tasks running =>
    rw [Fated, running] at fated
    exact fated.elim
  next subtarget rest tasks running =>
    have waited : doomed subtarget := by
      rw [Fated, running] at fated
      exact fated
    split at stepped
    · cases stepped
      exact idles_fail running _
    · split at stepped
      · cases stepped
        exact ⟨fated.of_progress ((start_held running subtarget).trans running.symm),
          (elsewhere_start machine target subtarget).started⟩
      next outcome ended =>
        have bad : outcome ≠ .ok () := by
          have failed := condemned subtarget waited
          rw [Fated, ended] at failed
          exact failed
        cases outcome with
        | ok => exact (bad rfl).elim
        | error error =>
          cases stepped
          have failed := @idles_fail World
            (machine.record (.delivered target subtarget (.error error))) doomed target _ running error
          exact ⟨failed.fated, failed.started⟩
      · cases stepped
  next running => exact condemned.work running fated stepped

/-- What a failed graph has come to later on: it is still failed, its targets have taken up no tasks, each
has started at most those it had taken, and what was condemned has started none. -/
structure Subsides (before after : Machine World) : Prop where
  errored : after.graph.status = .errored
  pending : ∀ target, after.graph.pending target = before.graph.pending target
  agenda : ∀ target, after.agenda target <+: before.agenda target
  condemned : ∀ doomed, before.Condemned doomed → after.Condemned doomed ∧
    ∀ target, doomed target → started target after.journal = started target before.journal

theorem Subsides.trans {before between after : Machine World} (first : before.Subsides between)
    (last : between.Subsides after) : before.Subsides after := by
  refine ⟨last.errored, fun target => (last.pending target).trans (first.pending target),
    fun target => (last.agenda target).trans (first.agenda target), fun doomed condemned => ?_⟩
  obtain ⟨between, kept⟩ := first.condemned doomed condemned
  obtain ⟨after, keptOn⟩ := last.condemned doomed between
  exact ⟨after, fun target fate => (keptOn target fate).trans (kept target fate)⟩

/-- What is started later on was ahead when the graph had failed, and is started in turn. -/
theorem Subsides.started {before after : Machine World} (subsides : before.Subsides after)
    (grown : before.journal <:+ after.journal) (target : String) :
    ∃ begun, started target after.journal = started target before.journal ++ begun ∧
      begun.map Prod.fst <+: before.ahead target := by
  obtain ⟨events, journal⟩ := grown
  obtain ⟨begun, split⟩ := started_prefix target events before.journal
  rw [journal] at split
  refine ⟨begun, split.symm, ?_⟩
  have within := subsides.agenda target
  rw [Machine.agenda, Machine.agenda, ← split, List.map_append, List.append_assoc] at within
  exact (List.prefix_append ..).trans ((List.prefix_append_right_inj _).mp within)

section Failed

variable (valid : machine.Valid) (truthful : machine.Truthful)
  (errored : machine.graph.status = .errored)
include errored

theorem move_pending (sorted : Graph.Sorted machine.graph.targets) {move : Move World}
    (held : move ≠ .drop) (target : String) :
    (machine.move move).graph.pending target = machine.graph.pending target := by
  have settled : machine.graph.Settled := .inr (by simp [errored])
  have change := move_changes machine held
  unfold Changes at change
  generalize (machine.move move).graph = after, failures (machine.move move).journal = told at change
  cases change with
  | kept | failed | orphaned => rfl
  | operated operation accepted =>
    exact (Graph.operate?_settled sorted settled accepted).pending target
  | opened name opening => simp [errored] at opening

theorem move_agenda (alive : machine.graph.isDropped = false) (move : Move World) (target : String) :
    (machine.move move).agenda target <+: machine.agenda target := by
  by_cases other : move ≠ .advance target
  · exact (move_elsewhere machine other).agenda ▸ List.prefix_rfl
  · cases Classical.not_not.mp other
    show ((machine.advance? target).getD machine).agenda target <+: _
    cases stepped : machine.advance? target with
    | none => exact List.prefix_rfl
    | some next =>
      by_cases begun : machine.progress? target = some .begun
      · rw [advance_refused alive (.inr errored) begun] at stepped
        cases stepped
        exact fail_agenda begun _
      · exact advance_agenda begun stepped

theorem Condemned.move {doomed : String → Prop} (condemned : machine.Condemned doomed)
    (alive : machine.graph.isDropped = false) (move : Move World) {target : String}
    (fate : doomed target) : Idles doomed target machine (machine.move move) := by
  by_cases other : move ≠ .advance target
  · have elsewhere := move_elsewhere machine other
    exact ⟨(condemned target fate).elsewhere elsewhere, elsewhere.started⟩
  · cases Classical.not_not.mp other
    show Idles doomed target machine ((machine.advance? target).getD machine)
    cases stepped : machine.advance? target with
    | none => exact ⟨condemned target fate, rfl⟩
    | some next => exact condemned.advance alive errored fate stepped

include valid truthful

theorem Valid.subsides_move {move : Move World} (held : move ≠ .drop) :
    machine.Subsides (machine.move move) := by
  refine ⟨?_, move_pending errored valid.sorted held, move_agenda errored truthful.alive move,
    fun doomed condemned => ⟨fun target fate => ?_, fun target fate => ?_⟩⟩
  · exact Status.errored_of_rank (errored ▸ (move_changes machine held).rank_le)
  · exact (condemned.move errored truthful.alive move fate).fated
  · exact (condemned.move errored truthful.alive move fate).started

theorem Valid.subsides {moves : List (Move World)} (held : .drop ∉ moves) :
    machine.Subsides (machine.moves moves) := by
  induction moves generalizing machine with
  | nil =>
    exact ⟨errored, fun _ => rfl, fun _ => List.prefix_rfl, fun _ condemned =>
      ⟨condemned, fun _ _ => rfl⟩⟩
  | cons move moves ih =>
    obtain ⟨first, rest⟩ := not_or.mp (mt List.mem_cons.mpr held)
    have subsides := valid.subsides_move truthful errored (Ne.symm first)
    exact subsides.trans (ih (valid.move move) (truthful.move (Ne.symm first)) subsides.errored rest)

end Failed

end Machine

end CompositeKeys.Tasks
