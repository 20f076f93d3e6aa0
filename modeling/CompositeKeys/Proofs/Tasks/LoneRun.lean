import CompositeKeys.Proofs.Tasks.Aftermath
import Mathlib.Data.List.Chain

/-! The run of one target and of what it leads to. Its targets wait for one another in a row, and only the
first of them can take a step. So when it fails, all others wait for a failure, and if each task hands on
the failures that it waits for, nothing is started any more. -/

namespace CompositeKeys.Tasks
open Journal

variable {World : Type}

def Progress.HandsOn : Progress World → Prop
  | .depending _ tasks => ∀ task ∈ tasks, task.HandsOn
  | .working _ program rest => program.HandsOn ∧ ∀ task ∈ rest, task.HandsOn
  | .begun | .finished _ => True

namespace Machine

variable {machine next : Machine World}

def UnderWay (machine : Machine World) (target : String) : Prop :=
  ∃ progress, machine.progress? target = some progress ∧ ∀ outcome, progress ≠ .finished outcome

/-- A target stands still until another one has come to an end. -/
def Waits (machine : Machine World) (target other : String) : Prop :=
  (∃ rest tasks, machine.progress? target = some (.depending (other :: rest) tasks) ∧
    (machine.graph.target? other).isSome = true) ∨
  ∃ place following rest, machine.progress? target = some (.working place (.await other following) rest)

theorem Waits.blocked {target other : String} (waits : machine.Waits target other)
    (busy : machine.UnderWay other) : machine.advance? target = none := by
  obtain ⟨progress, running, unfinished⟩ := busy
  rcases waits with ⟨rest, tasks, waiting, present⟩ | ⟨place, following, rest, waiting⟩
  · have found : (machine.graph.target? other).isNone = false := by
      rw [← Option.not_isSome, present]
      rfl
    simp only [advance?, waiting, found, running]
    cases progress with
    | finished outcome => exact (unfinished outcome rfl).elim
    | begun | depending | working => rfl
  · simp only [advance?, waiting, work?, running]

/-- All that is under way waits in a row, each for the one before it. The others have not begun or have come
to a good end, and all tasks that may still be started hand on failures. -/
structure Lone (machine : Machine World) (row : List String) : Prop where
  distinct : row.Nodup
  busy : ∀ target ∈ row, machine.UnderWay target
  others : ∀ target, target ∉ row →
    machine.progress? target = none ∨ machine.progress? target = some (.finished (.ok ()))
  waiting : row.IsChain fun first second => machine.Waits second first
  pending : ∀ target, ∀ task ∈ machine.graph.pending target, task.HandsOn
  handed : ∀ target progress, machine.progress? target = some progress → progress.HandsOn

/-- Every target is condemned or has come to a good end. -/
def Lost (machine : Machine World) : Prop :=
  ∃ doomed, machine.Condemned doomed ∧ ∀ target, doomed target ∨ machine.outcome? target = some (.ok ())

theorem Lone.record {row : List String} (lone : machine.Lone row) (event : Event World) :
    (machine.record event).Lone row :=
  ⟨lone.distinct, lone.busy, lone.others, lone.waiting, lone.pending, lone.handed⟩

theorem exists_before {α : Type} {relation : α → α → Prop} {first other : α} {row : List α}
    (chain : (first :: row).IsChain relation) (member : other ∈ row) :
    ∃ before ∈ first :: row, relation before other := by
  induction row generalizing first with
  | nil => cases member
  | cons second row ih =>
    obtain ⟨here, later⟩ := List.isChain_cons_cons.mp chain
    rcases List.mem_cons.mp member with rfl | member
    · exact ⟨first, .head _, here⟩
    · obtain ⟨before, among, found⟩ := ih later member
      exact ⟨before, .tail _ among, found⟩

section Turn

-- The first target of the row has taken a step, by which it has come to new progress of its own.

variable {target : String} {row : List String} {progress : Progress World}
  (lone : machine.Lone (target :: row))
  (runs : ∀ other, next.progress? other =
    if other = target then some progress else machine.progress? other)
include lone runs

theorem Lone.elsewhere {other : String} (member : other ∈ row) :
    other ≠ target ∧ next.progress? other = machine.progress? other := by
  have apart : other ≠ target := by
    rintro rfl
    exact (List.nodup_cons.mp lone.distinct).1 member
  exact ⟨apart, (runs other).trans (if_neg apart)⟩

theorem Lone.condemned {error : TaskError} (failed : progress = .finished (.error error)) : next.Lost := by
  have own : next.progress? target = some (.finished (.error error)) := by
    rw [runs, if_pos rfl, failed]
  -- nobody in the row has come to a good end
  have bad : ∀ other ∈ target :: row, next.outcome? other ≠ some (.ok ()) := by
    intro other member
    rw [ne_eq, outcome?_eq_some]
    rcases List.mem_cons.mp member with rfl | member
    · rw [own]
      simp
    · obtain ⟨current, running, unfinished⟩ := lone.busy other (.tail _ member)
      rw [(lone.elsewhere runs member).2, running]
      exact fun same => unfinished _ (Option.some.inj same)
  refine ⟨fun other => next.outcome? other ≠ some (.ok ()), fun other doomed => ?_,
    fun other => (Classical.em _).symm⟩
  by_cases here : other = target
  · subst here
    rw [Fated, own]
    rintro ⟨⟩
  by_cases member : other ∈ row
  · obtain ⟨before, among, waits⟩ := exists_before lone.waiting member
    rw [Fated, (lone.elsewhere runs member).2]
    rcases waits with ⟨rest, tasks, waiting, _⟩ | ⟨place, following, rest, waiting⟩
    · rw [waiting]
      exact bad before among
    · rw [waiting]
      have handsOn : (Program.await before following).HandsOn := (lone.handed other _ waiting).1
      exact ⟨bad before among, fun error => Program.Fails.mono (fun _ => False.elim) _ (handsOn.2 error)⟩
  · have same : next.progress? other = machine.progress? other := (runs other).trans (if_neg here)
    have outside : other ∉ target :: row := by simp [here, member]
    rcases lone.others other outside with fresh | ended
    · rw [Fated, same, fresh]
      trivial
    · exact (doomed (outcome?_eq_some.mpr (same.trans ended))).elim

variable (present : ∀ name, (machine.graph.target? name).isSome = true →
    (next.graph.target? name).isSome = true)
include present

theorem Lone.waiting_on {first second : String} (member : second ∈ row)
    (waits : machine.Waits second first) : next.Waits second first := by
  rw [Waits, (lone.elsewhere runs member).2]
  exact waits.imp_left fun ⟨rest, tasks, waiting, found⟩ => ⟨rest, tasks, waiting, present first found⟩

variable (pending : ∀ name, ∀ task ∈ next.graph.pending name, task ∈ machine.graph.pending name)
include pending

theorem Lone.turn (unfinished : ∀ outcome, progress ≠ .finished outcome) (handed : progress.HandsOn) :
    next.Lone (target :: row) := by
  refine ⟨lone.distinct, ?_, ?_, ?_, fun name task member => lone.pending name task (pending name task member),
    ?_⟩
  · intro other member
    rcases List.mem_cons.mp member with rfl | member
    · exact ⟨progress, (runs other).trans (if_pos rfl), unfinished⟩
    · rw [UnderWay, (lone.elsewhere runs member).2]
      exact lone.busy other (.tail _ member)
  · intro other outside
    have apart : other ≠ target := fun same => outside (same ▸ .head _)
    rw [runs, if_neg apart]
    exact lone.others other outside
  · exact lone.waiting.imp_of_mem_tail_imp fun first second _ member =>
      lone.waiting_on runs present member
  · intro other current
    rw [runs]
    split
    · exact fun same => Option.some.inj same ▸ handed
    · exact lone.handed other current

theorem Lone.leave (ended : progress = .finished (.ok ())) : next.Lone row := by
  obtain ⟨first, distinct⟩ := List.nodup_cons.mp lone.distinct
  refine ⟨distinct, ?_, ?_, ?_, fun name task member => lone.pending name task (pending name task member),
    ?_⟩
  · intro other member
    rw [UnderWay, (lone.elsewhere runs member).2]
    exact lone.busy other (.tail _ member)
  · intro other outside
    rw [runs]
    split
    · exact .inr (congrArg some ended)
    next apart => exact lone.others other (by simp [apart, outside])
  · have tail : row.IsChain fun first second => machine.Waits second first := lone.waiting.tail
    exact tail.imp_of_mem_imp fun first second _ member =>
      lone.waiting_on runs present member
  · intro other current
    rw [runs]
    split
    · intro same
      rw [← Option.some.inj same, ended]
      trivial
    · exact lone.handed other current

end Turn

theorem Lone.enter {other : String} {row : List String} (lone : machine.Lone row)
    (fresh : machine.progress? other = none) (waits : ∀ first ∈ row.head?, machine.Waits first other) :
    (machine.start other).Lone (other :: row) := by
  have runs : ∀ name, (machine.start other).progress? name =
      if name = other then some .begun else machine.progress? name := by
    intro name
    rw [start_progress?, fresh]
    rfl
  have graph : (machine.start other).graph = machine.graph := by
    rw [start, fresh]
  have outside : other ∉ row := by
    intro member
    obtain ⟨progress, running, _⟩ := lone.busy other member
    cases fresh.symm.trans running
  have same : ∀ name ∈ row, (machine.start other).progress? name = machine.progress? name := by
    intro name member
    have apart : name ≠ other := by
      rintro rfl
      exact outside member
    rw [runs, if_neg apart]
  have kept : ∀ first, ∀ second ∈ row, machine.Waits second first →
      (machine.start other).Waits second first := by
    intro first second member waiting
    rw [Waits, same second member, graph]
    exact waiting
  refine ⟨List.nodup_cons.mpr ⟨outside, lone.distinct⟩, ?_, ?_, ?_, graph ▸ lone.pending, ?_⟩
  · intro name member
    rcases List.mem_cons.mp member with rfl | member
    · exact ⟨.begun, (runs name).trans (if_pos rfl), nofun⟩
    · rw [UnderWay, same name member]
      exact lone.busy name member
  · intro name absent
    obtain ⟨apart, absent⟩ := not_or.mp (mt List.mem_cons.mpr absent)
    rw [runs, if_neg apart]
    exact lone.others name absent
  · refine List.isChain_cons.mpr ⟨fun first member => ?_, ?_⟩
    · exact kept other first (List.mem_of_mem_head? member) (waits first member)
    · exact lone.waiting.imp_of_mem_imp fun first second _ member => kept first second member
  · intro name current
    rw [runs]
    split
    · exact fun same => Option.some.inj same ▸ trivial
    · exact lone.handed name current

theorem Lone.descend {target other : String} {row : List String} (lone : machine.Lone (target :: row))
    (fresh : machine.progress? other = none) (waits : machine.Waits target other) :
    (machine.start other).Lone (other :: target :: row) :=
  lone.enter fresh fun _ member => Option.some.inj member ▸ waits

/-- As long as no target fails, all that is under way waits in a row, and then everything is lost. -/
def Alone (machine : Machine World) : Prop :=
  (∃ row, machine.Lone row) ∨ machine.graph.status = .errored ∧ machine.Lost

section Step

variable {target : String} {row : List String} {current : Progress World}
  (lone : machine.Lone (target :: row)) (running : machine.progress? target = some current)
include lone running

theorem Lone.fail (error : TaskError) : (machine.fail target error).Alone := by
  refine .inr ⟨rfl, @Lone.condemned World machine _ target row _ lone (fun other => ?_) error rfl⟩
  exact setProgress_progress? { machine with graph := { machine.graph with status := .errored } }
    target other _ running

theorem Lone.setProgress {progress : Progress World}
    (unfinished : ∀ outcome, progress ≠ .finished outcome) (handed : progress.HandsOn) :
    (machine.setProgress target progress).Lone (target :: row) :=
  lone.turn (fun other => machine.setProgress_progress? target other _ running) (fun _ => id)
    (fun _ _ => id) unfinished handed

theorem Lone.nextTask {place : Nat} {tasks : List (Program World)}
    (handed : ∀ task ∈ tasks, task.HandsOn) : (machine.nextTask target place tasks).Alone := by
  cases tasks with
  | nil =>
    have left : (machine.setProgress target (.finished (.ok ()))).Lone row :=
      lone.leave (fun other => machine.setProgress_progress? target other _ running) (fun _ => id)
        (fun _ _ => id) rfl
    exact .inl ⟨row, left.record _⟩
  | cons task rest =>
    have handsOn : (Progress.working place task rest).HandsOn := List.forall_mem_cons.mp handed
    have working : (machine.setProgress target (.working place task rest)).Lone (target :: row) :=
      lone.setProgress running nofun handsOn
    exact .inl ⟨target :: row, working.record _⟩

end Step

/-- A change of the graph that adds no task, and of the world. -/
theorem Lone.within {row : List String} (lone : machine.Lone row) {graph : Graph (Program World)}
    {world : World}
    (present : ∀ name, (machine.graph.target? name).isSome = true → (graph.target? name).isSome = true)
    (pending : ∀ name, ∀ task ∈ graph.pending name, task ∈ machine.graph.pending name) :
    Lone { machine with graph, world } row := by
  refine ⟨lone.distinct, lone.busy, lone.others, ?_,
    fun name task member => lone.pending name task (pending name task member), lone.handed⟩
  exact lone.waiting.imp fun first second waits =>
    waits.imp_left fun ⟨rest, tasks, waiting, found⟩ => ⟨rest, tasks, waiting, present first found⟩

theorem Lone.operate {row : List String} (lone : machine.Lone row) (valid : machine.Valid)
    (settled : machine.graph.Settled) (operation : Operation (Program World)) :
    (machine.operate operation).1.Lone row := by
  unfold Machine.operate
  cases accepted : machine.graph.operate? operation with
  | error => exact lone
  | ok graph =>
    have extended := Graph.operate?_settled valid.sorted settled accepted
    have operated : Lone { machine with graph } row := by
      refine lone.within (fun name found => ?_) fun name task member => extended.pending name ▸ member
      obtain ⟨node, there⟩ := Option.isSome_iff_exists.mp found
      have kept := extended.declared settled name node.subtargets (by rw [Graph.declared, there]; rfl)
      obtain ⟨node, there, _⟩ := Option.map_eq_some_iff.mp kept
      rw [there]
      rfl
    cases operation with
    | addTask target task => exact operated.record _
    | _ => exact operated

theorem Lone.begin {target : String} {row : List String} (lone : machine.Lone (target :: row))
    (alive : machine.graph.isDropped = false) (running : machine.progress? target = some .begun) :
    (machine.begin target).Alone := by
  unfold Machine.begin
  rw [alive, if_neg Bool.false_ne_true]
  dsimp only
  generalize graphed : (if target = rootName ∧ machine.graph.status ∈ [.notStarted, .ready] then
    { machine.graph with status := .running } else machine.graph) = graph
  have found : graph.target? = machine.graph.target? := by
    rw [← graphed]
    split <;> rfl
  split
  · exact lone.fail running _
  · split
    · exact lone.fail running _
    next node here =>
      have pending : ∀ name, (graph.updateTarget target Target.emptied).pending name =
          if name = target then [] else graph.pending name := by
        intro name
        rw [Graph.pending, Graph.updateTarget_target?]
        split
        · cases graph.target? target <;> rfl
        · rfl
      have taken : Lone { machine with graph := graph.updateTarget target Target.emptied }
          (target :: row) := by
        refine lone.within (fun name there => ?_) fun name task member => ?_
        · exact (Graph.updateTarget_isSome name).trans (found ▸ there)
        · rw [pending] at member
          split at member
          · cases member
          · rw [Graph.pending, ← found]
            exact member
      refine .inl ⟨target :: row, taken.setProgress running (by simp) fun task member => ?_⟩
      refine lone.pending target task ?_
      rw [Graph.pending, ← found, here]
      exact member

theorem Lone.work {target : String} {row : List String} {place : Nat} {program : Program World}
    {rest : List (Program World)} (lone : machine.Lone (target :: row)) (valid : machine.Valid)
    (running : machine.progress? target = some (.working place program rest))
    (stepped : machine.work? target place program rest = some next) : next.Alone := by
  obtain ⟨handsOn, others⟩ : program.HandsOn ∧ ∀ task ∈ rest, task.HandsOn :=
    lone.handed target _ running
  have settled := valid.settled running (by simp)
  cases program with
  | finish outcome =>
    have returned := lone.record (.returned target place outcome)
    cases outcome with
    | ok =>
      cases stepped
      exact returned.nextTask running others
    | error error =>
      cases stepped
      exact returned.fail running error
  | suspend following =>
    cases stepped
    exact .inl ⟨_, lone.setProgress running (by simp) ⟨handsOn, others⟩⟩
  | act change following =>
    cases stepped
    have changed : Lone { machine with world := change machine.world } (target :: row) :=
      lone.within (fun _ => id) fun _ _ => id
    exact .inl ⟨_, changed.setProgress running (by simp) ⟨handsOn machine.world, others⟩⟩
  | operate operation following =>
    cases stepped
    have operated := lone.operate valid settled operation
    exact .inl ⟨_, operated.setProgress ((operate_progress? machine target operation).trans running)
      (by simp) ⟨handsOn (machine.operate operation).2, others⟩⟩
  | observe following =>
    cases stepped
    exact .inl ⟨_, lone.setProgress running (by simp) ⟨handsOn machine.graph.view, others⟩⟩
  | start other following => exact handsOn.elim
  | await other following =>
    have waits : machine.Waits target other := .inr ⟨place, following, rest, running⟩
    simp only [work?] at stepped
    split at stepped
    next fresh =>
      cases stepped
      exact .inl ⟨other :: target :: row, lone.descend fresh waits⟩
    next outcome _ =>
      cases stepped
      exact .inl ⟨_, (lone.record (.delivered target other outcome)).setProgress running (by simp)
        ⟨handsOn.1 outcome, others⟩⟩
    · cases stepped

/-- Only the first target of the row takes steps, and they lead to a row again or to the end of
everything. -/
theorem Lone.advance {row : List String} (lone : machine.Lone row) (valid : machine.Valid)
    (alive : machine.graph.isDropped = false) {target : String}
    (stepped : machine.advance? target = some next) : next.Alone := by
  cases row with
  | nil =>
    rcases lone.others target List.not_mem_nil with fresh | ended
    · rw [advance?, fresh] at stepped
      cases stepped
    · rw [advance?, ended] at stepped
      cases stepped
  | cons first row =>
    by_cases outside : target ∉ first :: row
    · rcases lone.others target outside with fresh | ended
      · rw [advance?, fresh] at stepped
        cases stepped
      · rw [advance?, ended] at stepped
        cases stepped
    rcases List.mem_cons.mp (Classical.not_not.mp outside) with rfl | member
    · unfold advance? at stepped
      split at stepped
      · cases stepped
      · cases stepped
      next running =>
        cases stepped
        exact lone.begin alive running
      next tasks running =>
        cases stepped
        exact lone.nextTask running (lone.handed target _ running)
      next subtarget rest tasks running =>
        have handed : ∀ task ∈ tasks, task.HandsOn := lone.handed target _ running
        split at stepped
        · cases stepped
          exact lone.fail running _
        next found =>
          have present : (machine.graph.target? subtarget).isSome = true := by
            rw [← Option.not_isNone, Bool.eq_false_iff.mpr found]
            rfl
          split at stepped
          next fresh =>
            cases stepped
            exact .inl ⟨_, lone.descend fresh (.inl ⟨rest, tasks, running, present⟩)⟩
          next outcome _ =>
            have told := lone.record (.delivered target subtarget outcome)
            cases outcome with
            | ok =>
              cases stepped
              exact .inl ⟨_, told.setProgress running (by simp) handed⟩
            | error error =>
              cases stepped
              exact told.fail running error
          · cases stepped
      next running => exact lone.work valid running stepped
    · obtain ⟨before, among, waits⟩ := exists_before lone.waiting member
      cases stepped.symm.trans (waits.blocked (lone.busy before among))

section Run

variable (valid : machine.Valid) (truthful : machine.Truthful)
include valid

/-- A target that has come to an end starts nothing more. -/
theorem Valid.started_ended {target : String} {outcome : Outcome}
    (ended : machine.outcome? target = some outcome) (moves : List (Move World)) :
    started target (machine.moves moves).journal = started target machine.journal := by
  induction moves generalizing machine with
  | nil => rfl
  | cons move moves ih =>
    have still : (machine.move move).outcome? target = some outcome := valid.outcome_moves ended [move]
    refine (ih (valid.move move) still).trans ?_
    by_cases other : move ≠ .advance target
    · exact (move_elsewhere machine other).started
    · cases Classical.not_not.mp other
      have stuck : machine.advance? target = none := by
        rw [advance?, outcome?_eq_some.mp ended]
      show started target ((machine.advance? target).getD machine).journal = _
      rw [stuck]
      rfl

include truthful

theorem Alone.advance (alone : machine.Alone) (target : String) :
    (machine.move (.advance target)).Alone := by
  rcases alone with ⟨row, lone⟩ | ⟨errored, doomed, condemned, covered⟩
  · show ((machine.advance? target).getD machine).Alone
    cases stepped : machine.advance? target with
    | none => exact .inl ⟨row, lone⟩
    | some next => exact lone.advance valid truthful.alive stepped
  · have subsides : machine.Subsides (machine.move (.advance target)) :=
      valid.subsides_move truthful errored nofun
    refine .inr ⟨subsides.errored, doomed, (subsides.condemned doomed condemned).1, fun name => ?_⟩
    exact (covered name).imp_right fun ended => valid.outcome_moves ended [.advance target]

theorem Alone.run (alone : machine.Alone) (targets : List String) :
    (machine.moves (targets.map .advance)).Alone := by
  induction targets generalizing machine with
  | nil => exact alone
  | cons target targets ih =>
    exact ih (valid.move _) (truthful.move nofun) (alone.advance valid truthful target)

end Run

section Declaring

theorem lone_initial (world : World) : Lone { world } [] := by
  refine ⟨List.nodup_nil, nofun, fun _ _ => .inl rfl, .nil, fun target task member => ?_, nofun⟩
  have idle := (valid_initial world).account target
  cases idle with
  | none idle => exact (List.not_mem_nil (idle.pending ▸ member)).elim

theorem Lone.declare (lone : machine.Lone []) (valid : machine.Valid)
    {operation : Operation (Program World)}
    (handsOn : ∀ target task, operation = .addTask target task → task.HandsOn) :
    (machine.operate operation).1.Lone [] := by
  unfold Machine.operate
  cases accepted : machine.graph.operate? operation with
  | error => exact lone
  | ok graph =>
    have pending : ∀ name, ∀ task ∈ graph.pending name, task.HandsOn := by
      intro name task member
      cases operation with
      | addTask target added =>
        obtain ⟨_, present, rfl⟩ := Graph.addTask_ok accepted
        obtain ⟨node, found⟩ := Option.isSome_iff_exists.mp present
        rw [Graph.pending, Graph.updateTarget_target?] at member
        split at member
        · rw [found] at member
          rcases List.mem_append.mp member with earlier | last
          · refine lone.pending target task ?_
            rw [Graph.pending, found]
            exact earlier
          · exact List.mem_singleton.mp last ▸ handsOn target added rfl
        · exact lone.pending name task member
      | create | markReady | markClosed | describe | depend =>
        have extended := Graph.operate?_extends valid.sorted accepted (by simp)
        exact lone.pending name task (extended.pending name ▸ member)
    have operated : Lone { machine with graph } [] :=
      ⟨List.nodup_nil, List.forall_mem_nil _, lone.others, .nil, pending, lone.handed⟩
    cases operation with
    | addTask target task => exact operated.record _
    | _ => exact operated

theorem Lone.declares (lone : machine.Lone []) (valid : machine.Valid)
    {declarations : List (Operation (Program World))}
    (handsOn : ∀ target task, .addTask target task ∈ declarations → task.HandsOn) :
    (machine.moves (declarations.map .operate)).Lone [] := by
  induction declarations generalizing machine with
  | nil => exact lone
  | cons operation declarations ih =>
    have declared : (machine.operate operation).1.Lone [] :=
      lone.declare valid fun target task same => handsOn target task (same ▸ .head _)
    exact ih declared (valid.operate operation) fun target task member =>
      handsOn target task (.tail _ member)

theorem Lone.start (lone : machine.Lone []) (first : String) : (machine.start first).Alone := by
  cases progress : machine.progress? first with
  | none => exact .inl ⟨[first], lone.enter progress nofun⟩
  | some =>
    have same : machine.start first = machine := by rw [Machine.start, progress]
    rw [same]
    exact .inl ⟨[], lone⟩

/-- Where one target is run with nothing besides, it and what it leads to wait for one another in a row. -/
theorem alone_of_single (world : World) {declarations : List (Operation (Program World))}
    (first : String) (steps : List String)
    (handsOn : ∀ target task, .addTask target task ∈ declarations → task.HandsOn) :
    (({ world } : Machine World).moves
      (declarations.map .operate ++ .start first :: steps.map .advance)).Alone := by
  have declared : (({ world } : Machine World).moves (declarations.map .operate)).Lone [] :=
    (lone_initial world).declares (valid_initial world) handsOn
  have valid := (valid_initial world).moves (declarations.map .operate)
  have truthful : (({ world } : Machine World).moves (declarations.map .operate)).Truthful :=
    (truthful_initial world).moves (by simp)
  have launched := truthful.move (show Move.start first ≠ .drop by simp)
  rw [moves_append]
  exact (declared.start first).run (valid.start first) launched steps

end Declaring

theorem Lone.unfailed {row : List String} (lone : machine.Lone row) (valid : machine.Valid)
    (truthful : machine.Truthful) : machine.graph.status ≠ .errored := by
  intro errored
  obtain ⟨target, error, failed⟩ := (truthful.errored_iff_outcome valid).mp errored
  have failed := outcome?_eq_some.mp failed
  by_cases member : target ∈ row
  · obtain ⟨progress, running, unfinished⟩ := lone.busy target member
    exact unfinished _ (Option.some.inj (running.symm.trans failed))
  · rcases lone.others target member with fresh | ended
    · cases fresh.symm.trans failed
    · cases ended.symm.trans failed

/-- What a failed graph still starts. A target starts only what it had taken before the failure, in turn,
and takes nothing more; the status of the graph does not keep it from that. Those that wait for a failure
and hand it on start nothing and fail. If one target is run with nothing besides, and each task waits for
all that it starts and hands on failures, then nothing is started after the failure. -/
theorem started_after_failure (world : World) (moves more : List (Move World))
    (held : .drop ∉ moves ++ more) :
    let machine := ({ world } : Machine World).moves moves
    let later := machine.moves more
    machine.graph.status = .errored →
      (∀ target, later.graph.pending target = machine.graph.pending target ∧
        ∃ begun, started target later.journal = started target machine.journal ++ begun ∧
          begun.map Prod.fst <+: machine.ahead target) ∧
      (∀ doomed, machine.Condemned doomed → ∀ target, doomed target →
        started target later.journal = started target machine.journal ∧
          later.outcome? target ≠ some (.ok ())) ∧
      ∀ (declarations : List (Operation (Program World))) (first : String) (steps : List String),
        moves = declarations.map .operate ++ .start first :: steps.map .advance →
        (∀ target task, .addTask target task ∈ declarations → task.HandsOn) →
        ∀ target, started target later.journal = started target machine.journal := by
  intro machine later errored
  obtain ⟨heldBefore, heldAfter⟩ := not_or.mp (mt List.mem_append.mpr held)
  have truthful : machine.Truthful := (truthful_initial world).moves heldBefore
  have valid : machine.Valid := (valid_initial world).moves moves
  have subsides : machine.Subsides later := valid.subsides truthful errored heldAfter
  refine ⟨fun target => ⟨subsides.pending target, ?_⟩, fun doomed condemned target fate => ?_, ?_⟩
  · exact subsides.started (moves_journal machine more) target
  · obtain ⟨still, kept⟩ := subsides.condemned doomed condemned
    refine ⟨kept target fate, fun good => ?_⟩
    have fated := still target fate
    rw [Fated, outcome?_eq_some.mp good] at fated
    exact fated rfl
  · intro declarations first steps split handsOn target
    have alone : machine.Alone := by
      show (({ world } : Machine World).moves moves).Alone
      rw [split]
      exact alone_of_single world first steps handsOn
    rcases alone with ⟨row, lone⟩ | ⟨_, doomed, condemned, covered⟩
    · exact (lone.unfailed valid truthful errored).elim
    · rcases covered target with fate | ended
      · exact (subsides.condemned doomed condemned).2 target fate
      · exact valid.started_ended ended more

/-- An engine that fails, and a car with two tasks, of which the first waits for the engine. -/
def declaresFailure (waiting : Program Unit) : List (Operation (Program Unit)) :=
  [.create "car", .create "engine", .addTask "engine" (.finish (.error (.unknownTarget "fuel"))),
    .addTask "car" waiting, .addTask "car" (.finish (.ok ())), .markReady, .depend rootName "car"]

/-- The steps by which the engine fails. -/
def failsEngine : List String :=
  [rootName, rootName, "car", "car", "car", "engine", "engine", "engine"]

def runsUntilFailure (waiting : Program Unit) : List (Move Unit) :=
  (declaresFailure waiting).map .operate ++ .start rootName :: failsEngine.map .advance

def failedCar (waiting : Program Unit) : Machine Unit :=
  ({ world := () } : Machine Unit).moves (runsUntilFailure waiting)

/-- Where the car hands on the failure of the engine, its second task is not started. -/
theorem started_after_failure_handed_on :
    (failedCar (.await "engine" .finish)).graph.status = .errored ∧
      ∀ target, started target ((failedCar (.await "engine" .finish)).moves
          [.advance "car", .advance "car", .advance rootName]).journal =
        started target (failedCar (.await "engine" .finish)).journal := by
  have errored : (failedCar (.await "engine" .finish)).graph.status = .errored := by decide +kernel
  have handsOn : ∀ target task,
      .addTask target task ∈ declaresFailure (.await "engine" .finish) → task.HandsOn := by
    intro target task member
    simp only [declaresFailure, List.mem_cons, reduceCtorEq, Operation.addTask.injEq, List.not_mem_nil,
      or_false, false_or] at member
    rcases member with ⟨_, rfl⟩ | ⟨_, rfl⟩ | ⟨_, rfl⟩
    · trivial
    · exact ⟨fun _ => trivial, fun _ => nofun⟩
    · trivial
  obtain ⟨_, _, alone⟩ := started_after_failure () (runsUntilFailure (.await "engine" .finish))
    [.advance "car", .advance "car", .advance rootName] (by simp [runsUntilFailure]) errored
  exact ⟨errored, alone (declaresFailure (.await "engine" .finish)) rootName failsEngine rfl handsOn⟩

/-- Where the car passes over the failure of the engine, its second task is started in a failed graph. -/
theorem started_after_failure_passed_over :
    ¬ ∀ (moves more : List (Move Unit)), .drop ∉ moves ++ more →
      (({ world := () } : Machine Unit).moves moves).graph.status = .errored →
      ∀ target, started target ((({ world := () } : Machine Unit).moves moves).moves more).journal =
        started target (({ world := () } : Machine Unit).moves moves).journal := by
  intro claim
  have same : started "car" ((failedCar (.await "engine" fun _ => .finish (.ok ()))).moves
        [.advance "car", .advance "car"]).journal =
      started "car" (failedCar (.await "engine" fun _ => .finish (.ok ()))).journal :=
    claim (runsUntilFailure (.await "engine" fun _ => .finish (.ok ())))
      [.advance "car", .advance "car"] (by simp [runsUntilFailure]) (by decide +kernel) "car"
  have longer : (started "car" ((failedCar (.await "engine" fun _ => .finish (.ok ()))).moves
      [.advance "car", .advance "car"]).journal).length = 2 := by decide +kernel
  rw [same] at longer
  exact absurd longer (by decide +kernel)

end Machine

end CompositeKeys.Tasks
