import CompositeKeys.Proofs.Tasks.Account

/-! Execution keeps its accounts. Each step of a target, each operation and each new wait for a target
takes a graph that is accounted for to one that is, so any sequence of moves does. -/

namespace CompositeKeys.Tasks.Machine
open Journal

variable {World : Type} {machine : Machine World} (valid : machine.Valid)
include valid

section Outside

/-- Targets of a graph that has not settled have nothing done yet. -/
theorem Valid.idle (unsettled : ¬ machine.graph.Settled) (target : String) :
    machine.Idle target ∧
      (machine.progress? target = none ∨ machine.progress? target = some .begun) := by
  have account := valid.account target
  cases current : machine.progress? target with
  | none =>
    rw [current] at account
    cases account with
    | none idle => exact ⟨idle, .inl rfl⟩
  | some progress =>
    cases (valid.early unsettled).2 target progress current
    rw [current] at account
    cases account with
    | begun idle => exact ⟨idle, .inr rfl⟩

theorem Valid.withGraph {next : Graph (Program World)} (extended : machine.graph.Extends next) :
    Valid { machine with graph := next } := by
  have spares : ∀ target, machine.Spares { machine with graph := next } target :=
    fun target => ⟨extended.pending target, rfl, rfl, List.Subset.refl _⟩
  by_cases settled : machine.graph.Settled
  · have kept := extended.declared settled
    exact ⟨extended.sorted, fun target => (valid.account target).spared (spares target) kept,
      valid.finished, valid.orderly.mono kept, fun unsettled => (unsettled (extended.settled settled)).elim⟩
  · refine ⟨extended.sorted, fun target => ?_, valid.finished,
      .of_added (valid.early settled).1, fun _ => valid.early settled⟩
    obtain ⟨idle, none | begun⟩ := valid.idle settled target
    · exact none ▸ .none (idle.spared (spares target))
    · exact begun ▸ .begun (idle.spared (spares target))

theorem Valid.drop : Valid { machine with graph := { machine.graph with isDropped := true } } :=
  valid.withGraph (Graph.extends_of_targets valid.sorted rfl fun _ => .inl rfl)

theorem Valid.start (target : String) : (machine.start target).Valid := by
  unfold Machine.start
  cases current : machine.progress? target with
  | some => exact valid
  | none =>
    dsimp only
    have runs : ∀ other, progress? { machine with runs := (target, .begun) :: machine.runs } other =
        if other = target then some .begun else machine.progress? other :=
      fun other => lookup_cons machine.runs target other .begun
    have spares : ∀ other, machine.Spares
        { machine with runs := (target, .begun) :: machine.runs } other :=
      fun other => ⟨rfl, rfl, rfl, List.Subset.refl _⟩
    refine ⟨valid.sorted, fun other => ?_, fun other outcome => ?_, valid.orderly, fun unsettled => ?_⟩
    · rw [runs other]
      have account := valid.account other
      split
      next same =>
        rw [same, current] at account
        cases account with
        | none idle => exact .begun (same ▸ idle.spared (spares target))
      · exact account.spared (spares other) fun _ _ => id
    · rw [runs other]
      refine (valid.finished other outcome).trans ?_
      split
      next same => simp [same, current]
      · rfl
    · refine ⟨(valid.early unsettled).1, fun other progress => ?_⟩
      rw [runs other]
      split
      · exact fun same => (Option.some.inj same).symm
      · exact (valid.early unsettled).2 other progress

theorem Valid.addTask {target : String} {task : Program World} {next : Graph (Program World)}
    (added : machine.graph.addTask target task = .ok next) :
    (record { machine with graph := next } (.added target task)).Valid := by
  obtain ⟨unsettled, present, changed⟩ := Graph.addTask_ok added
  have early := valid.early unsettled
  have only : ∀ event ∈ Event.added target task :: machine.journal,
      ∃ target task, event = .added target task := by
    intro event member
    rcases List.mem_cons.mp member with rfl | earlier
    · exact ⟨target, task, rfl⟩
    · exact early.1 event earlier
  refine ⟨changed ▸ Graph.updateTarget_sorted _ _ valid.sorted, fun other => ?_,
    fun other outcome => ?_, .of_added only, fun _ => ⟨only, early.2⟩⟩
  · obtain ⟨idle, current⟩ := valid.idle unsettled other
    have kept : Idle (record { machine with graph := next } (.added target task)) other := by
      refine ⟨?_, idle.started⟩
      have pending := idle.pending
      simp only [Graph.pending, record, changed, Graph.updateTarget_target?, Journal.added]
        at pending ⊢
      by_cases same : other = target
      · subst same
        obtain ⟨held, found⟩ := Option.isSome_iff_exists.mp present
        simpa [found] using pending
      · simpa [same, Ne.symm same] using pending
    rcases current with none | begun
    · exact none ▸ .none kept
    · exact begun ▸ .begun kept
  · simp only [record, List.mem_cons, reduceCtorEq, false_or]
    exact valid.finished other outcome

theorem Valid.operate (operation : Operation (Program World)) :
    (machine.operate operation).1.Valid := by
  unfold Machine.operate
  cases accepted : machine.graph.operate? operation with
  | error => exact valid
  | ok next =>
    cases operation with
    | addTask target task => exact valid.addTask accepted
    | _ => exact valid.withGraph (Graph.operate?_extends valid.sorted accepted nofun)

end Outside

section Inside

variable {target : String} {current : Progress World}
  (running : machine.progress? target = some current)
  (unfinished : ∀ outcome, current ≠ .finished outcome)
include running unfinished

theorem Valid.not_finished (outcome : Outcome) : .finished target outcome ∉ machine.journal := by
  intro member
  have done := (valid.finished target outcome).mp member
  rw [running] at done
  exact unfinished outcome (Option.some.inj done)

/-- A target that is under way goes on without anything to tell. -/
theorem Valid.setProgress {progress : Progress World} (settled : machine.graph.Settled)
    (other : ∀ outcome, progress ≠ .finished outcome)
    (account : machine.Account target (some progress)) :
    (machine.setProgress target progress).Valid := by
  refine valid.step target progress [] settled valid.sorted (fun _ _ => rfl) (fun _ _ => id)
    (fun name => machine.setProgress_progress? target name progress running) rfl nofun
    (account.spared ⟨rfl, rfl, rfl, List.Subset.refl _⟩ fun _ _ => id) (fun outcome => ?_) id
  exact ⟨fun member => (valid.not_finished running unfinished outcome member).elim,
    fun same => (other outcome same).elim⟩

/-- An event that neither starts nor finishes anything comes in where it is due. -/
theorem Valid.record {event : Event World} (settled : machine.graph.Settled)
    (own : event.Of target) (due : event.Due machine.graph.declared machine.journal)
    (quiet : started target (event :: machine.journal) = started target machine.journal)
    (unsettled : ∀ outcome, event ≠ .finished target outcome) : (machine.record event).Valid := by
  have events : ∀ one ∈ [event], one.Of target := fun one member =>
    List.mem_singleton.mp member ▸ own
  refine valid.step target current [event] settled valid.sorted (fun _ _ => rfl) (fun _ _ => id)
    (fun name => ?_) rfl events ?_ (fun outcome => ?_) fun orderly => ⟨due, orderly⟩
  · split
    next same => exact same ▸ running
    · rfl
  · exact (running ▸ valid.account target).spared
      ⟨rfl, added_append events target machine.journal, quiet, List.subset_cons_self ..⟩
      fun _ _ => id
  · refine ⟨fun member => ?_, fun same => (unfinished outcome same).elim⟩
    rcases List.mem_cons.mp member with same | earlier
    · exact (unsettled outcome same.symm).elim
    · exact (valid.not_finished running unfinished outcome earlier).elim

/-- A target comes to an end, in a graph whose targets are the same. -/
theorem Valid.finish {graph : Graph (Program World)} {outcome : Outcome}
    (targets : graph.targets = machine.graph.targets) (settled : graph.Settled)
    (complete : outcome = .ok () → ∃ place, machine.Reached target place place []) :
    (Machine.finish { machine with graph } target outcome).Valid := by
  have found : ∀ name, graph.target? name = machine.graph.target? name := fun name => by
    rw [Graph.target?, targets, Graph.target?]
  have kept : ∀ name subtargets, machine.graph.declared name = some subtargets →
      graph.declared name = some subtargets := fun name subtargets declared => by
    rw [Graph.declared, found]
    exact declared
  have pending : ∀ name, graph.pending name = machine.graph.pending name := fun name => by
    simp only [Graph.pending, found]
  have spares : machine.Spares (Machine.finish { machine with graph } target outcome) target :=
    ⟨pending target, rfl, rfl, List.subset_cons_self ..⟩
  refine valid.step target (.finished outcome) [.finished target outcome] settled
    (targets ▸ valid.sorted) (fun name _ => pending name) kept
    (fun name => machine.setProgress_progress? target name _ running) rfl ?_ ?_ (fun other => ?_)
    fun orderly => ⟨⟨fun other => valid.not_finished running unfinished other, ?_⟩, orderly⟩
  · simp [Event.Of]
  · cases outcome with
    | ok =>
      obtain ⟨place, reached⟩ := complete rfl
      exact .completed (reached.spared spares kept)
    | error => exact .failed (valid.account target).in_order
  · refine List.mem_cons.trans ⟨fun either => ?_, fun same => ?_⟩
    · rcases either with same | earlier
      · cases same
        rfl
      · exact (valid.not_finished running unfinished other earlier).elim
    · cases same
      exact .inl rfl
  · intro good
    obtain ⟨place, reached⟩ := complete good
    refine ⟨reached.prepared.mono kept (List.Subset.refl _), ?_⟩
    exact reached.completed

theorem Valid.fail (error : TaskError) : (machine.fail target error).Valid :=
  valid.finish running unfinished rfl (.inr (by simp)) nofun

/-- The next task is started once all those before it have come to a good end, and the target ends
when none is left. -/
theorem Valid.nextTask {place : Nat} {tasks : List (Program World)}
    (settled : machine.graph.Settled) (reached : machine.Reached target place place tasks) :
    (machine.nextTask target place tasks).Valid := by
  cases tasks with
  | nil => exact valid.finish running unfinished rfl settled fun _ => ⟨place, reached⟩
  | cons task rest =>
    have here : (added target machine.journal)[place]? = some task := by
      have first := congrArg (·[0]?) reached.remaining
      simpa [List.getElem?_drop] using first.symm
    have own : ∀ event ∈ [Event.started target place task], event.Of target := by simp [Event.Of]
    have grown : machine.journal ⊆ .started target place task :: machine.journal :=
      List.subset_cons_self ..
    have account : (machine.nextTask target place (task :: rest)).Account target
        (some (.working place task rest)) := by
      refine .working ⟨reached.prepared.mono (fun _ _ => id) grown, ?_, ?_,
        reached.returned.mono grown⟩
      · refine (if_pos rfl).trans ?_
        show started target machine.journal ++ [(task, place)] =
          (added target machine.journal).zipIdx.take (place + 1)
        rw [reached.started, List.take_add_one, List.getElem?_zipIdx, here]
        simp
      · have tail := congrArg List.tail reached.remaining
        rw [List.tail_drop] at tail
        exact tail
    refine valid.step target (.working place task rest) [.started target place task] settled
      valid.sorted (fun _ _ => rfl) (fun _ _ => id)
      (fun name => machine.setProgress_progress? target name _ running) rfl own account
      (fun outcome => ⟨fun member => ?_, nofun⟩)
      fun orderly => ⟨⟨reached.prepared, reached.returned⟩, orderly⟩
    exact (valid.not_finished running unfinished outcome
      ((List.mem_cons.mp member).resolve_left nofun)).elim

/-- A target begins by taking its tasks out of a graph that runs. -/
theorem Valid.take {graph : Graph (Program World)} {node : Target (Program World)}
    (idle : machine.Idle target) (targets : graph.targets = machine.graph.targets)
    (settled : graph.Settled) (found : graph.target? target = some node) :
    (Machine.setProgress
      { machine with graph := graph.updateTarget target fun node => { node with tasks := [] } }
      target (.depending node.subtargets node.tasks)).Valid := by
  have same : ∀ name, graph.target? name = machine.graph.target? name := fun name => by
    rw [Graph.target?, targets, Graph.target?]
  have kept : ∀ name subtargets, machine.graph.declared name = some subtargets →
      (graph.updateTarget target fun node => { node with tasks := [] }).declared name =
        some subtargets := by
    intro name subtargets declared
    simp only [Graph.declared, Graph.updateTarget_target?, same, Option.map_eq_some_iff]
      at declared ⊢
    obtain ⟨held, present, rfl⟩ := declared
    by_cases here : name = target
    · subst here
      exact ⟨{ held with tasks := [] }, by simp [present], rfl⟩
    · exact ⟨held, by simp [here, present], rfl⟩
  have held : machine.graph.target? target = some node := same target ▸ found
  have pending : ∀ name, name ≠ target →
      (graph.updateTarget target fun node => { node with tasks := [] }).pending name =
        machine.graph.pending name := fun name apart => by
    simp only [Graph.pending, Graph.updateTarget_target?, apart, if_false, same]
  have taken : node.tasks = added target machine.journal := by
    simpa [Graph.pending, held] using idle.pending
  have declared : machine.graph.declared target = some ([] ++ node.subtargets) := by
    simp [Graph.declared, held]
  exact valid.step target _ [] settled
    (Graph.updateTarget_sorted _ _ (targets ▸ valid.sorted)) pending kept
    (fun name => machine.setProgress_progress? target name _ running) rfl (by simp)
    (.depending taken idle.started (kept _ _ declared) (by simp))
    (fun outcome => ⟨fun member => (valid.not_finished running unfinished outcome member).elim,
      by simp⟩) id

end Inside

section Steps

variable {target : String}

theorem Valid.begin (running : machine.progress? target = some .begun) :
    (machine.begin target).Valid := by
  have idle : machine.Idle target := by
    have account := valid.account target
    rw [running] at account
    cases account with
    | begun idle => exact idle
  unfold Machine.begin
  split
  next dropped => exact valid.finish running nofun rfl (.inl dropped) nofun
  · dsimp only
    generalize graphed : (if target = rootName ∧ machine.graph.status ∈ [.notStarted, .ready] then
      { machine.graph with status := .running } else machine.graph) = graph
    have targets : graph.targets = machine.graph.targets := by
      rw [← graphed]
      split <;> rfl
    split
    · exact valid.fail running nofun _
    next ran =>
      have settled : graph.Settled := .inr (by simp [Classical.not_not.mp ran])
      split
      · exact valid.fail running nofun _
      next found => exact valid.take running nofun idle targets settled found

/-- One target that it depends on has come to a good end, so a target goes on to the next one. -/
theorem Valid.proceed {subtarget : String} {rest : List String} {tasks : List (Program World)}
    (running : machine.progress? target = some (.depending (subtarget :: rest) tasks))
    (done : .finished subtarget (.ok ()) ∈ machine.journal) :
    (machine.setProgress target (.depending rest tasks)).Valid := by
  refine valid.setProgress running nofun (valid.settled running nofun) nofun ?_
  have account := valid.account target
  rw [running] at account
  cases account with
  | @depending before _ _ taken started declared finished =>
    refine .depending taken started (declared.trans (by rw [← List.append_cons])) ?_
    intro name member
    rcases List.mem_append.mp member with earlier | last
    · exact finished name earlier
    · exact List.mem_singleton.mp last ▸ done

/-- A task goes on after a request. -/
theorem Valid.resume {place : Nat} {program next : Program World} {rest : List (Program World)}
    (running : machine.progress? target = some (.working place program rest)) :
    (machine.setProgress target (.working place next rest)).Valid := by
  refine valid.setProgress running nofun (valid.settled running nofun) nofun ?_
  have account := valid.account target
  rw [running] at account
  cases account with
  | working reached => exact .working reached

theorem Valid.deliver {current : Progress World} {other : String} {outcome : Outcome}
    (running : machine.progress? target = some current) (busy : current ≠ .begun)
    (unfinished : ∀ outcome, current ≠ .finished outcome)
    (ended : machine.progress? other = some (.finished outcome)) :
    (machine.record (.delivered target other outcome)).Valid :=
  valid.record running unfinished (valid.settled running busy) rfl
    ((valid.finished other outcome).mpr ended) rfl nofun

theorem Valid.work {place : Nat} {program : Program World} {rest : List (Program World)}
    {next : Machine World}
    (running : machine.progress? target = some (.working place program rest))
    (stepped : machine.work? target place program rest = some next) : next.Valid := by
  have settled := valid.settled running nofun
  cases program with
  | finish outcome =>
    have returned : (machine.record (.returned target place outcome)).Valid :=
      valid.record running nofun settled rfl trivial rfl nofun
    cases outcome with
    | error error =>
      cases stepped
      exact returned.fail running nofun error
    | ok =>
      cases stepped
      refine returned.nextTask running nofun settled ?_
      have account := returned.account target
      rw [show (machine.record _).progress? target = _ from running] at account
      cases account with
      | working reached =>
        refine ⟨reached.prepared, reached.started, reached.remaining, fun before below => ?_⟩
        rcases Nat.lt_succ_iff_lt_or_eq.mp below with earlier | rfl
        · exact reached.returned before earlier
        · exact .head _
  | suspend => exact Option.some.inj stepped ▸ valid.resume running
  | act change =>
    have changed : Valid { machine with world := change machine.world } :=
      ⟨valid.sorted, fun name => (valid.account name).spared ⟨rfl, rfl, rfl, List.Subset.refl _⟩
        fun _ _ => id, valid.finished, valid.orderly, valid.early⟩
    exact Option.some.inj stepped ▸ changed.resume running
  | operate operation =>
    exact Option.some.inj stepped ▸
      (valid.operate operation).resume (machine.operate_progress? target operation ▸ running)
  | observe => exact Option.some.inj stepped ▸ valid.resume running
  | start other later =>
    have kept : (machine.start other).progress? target =
        some (.working place (.start other later) rest) := by
      rw [start_progress?]
      split
      next same =>
        have held : machine.progress? other = some (.working place (.start other later) rest) :=
          same ▸ running
        rw [held, Option.getD_some]
      · exact running
    exact Option.some.inj stepped ▸ (valid.start other).resume kept
  | await other =>
    simp only [work?] at stepped
    split at stepped
    · exact Option.some.inj stepped ▸ valid.start other
    next ended =>
      exact Option.some.inj stepped ▸ (valid.deliver running nofun nofun ended).resume running
    · cases stepped

theorem Valid.advance {next : Machine World} (stepped : machine.advance? target = some next) :
    next.Valid := by
  unfold advance? at stepped
  split at stepped
  · cases stepped
  · cases stepped
  next running => exact Option.some.inj stepped ▸ valid.begin running
  next tasks running =>
    have settled := valid.settled running nofun
    refine Option.some.inj stepped ▸ valid.nextTask running nofun settled ?_
    have account := valid.account target
    rw [running] at account
    cases account with
    | @depending done _ _ taken started declared finished =>
      exact ⟨⟨done, by simpa using declared, finished⟩, by simpa using started, taken, nofun⟩
  next subtarget rest tasks running =>
    split at stepped
    · exact Option.some.inj stepped ▸ valid.fail running nofun _
    · split at stepped
      · exact Option.some.inj stepped ▸ valid.start subtarget
      next outcome ended =>
        have delivered := valid.deliver running nofun nofun ended
        cases outcome with
        | ok =>
          exact Option.some.inj stepped ▸
            delivered.proceed running (.tail _ ((valid.finished subtarget _).mpr ended))
        | error error => exact Option.some.inj stepped ▸ delivered.fail running nofun error
      · cases stepped
  next running => exact valid.work running stepped

theorem Valid.move (move : Move World) : (machine.move move).Valid := by
  cases move with
  | operate operation => exact valid.operate operation
  | start target => exact valid.start target
  | advance target =>
    show ((machine.advance? target).getD machine).Valid
    cases stepped : machine.advance? target with
    | none => exact valid
    | some next => exact valid.advance stepped
  | drop => exact valid.drop

theorem Valid.moves (moves : List (Move World)) : (machine.moves moves).Valid := by
  induction moves generalizing machine with
  | nil => exact valid
  | cons move moves ih => exact ih (valid.move move)

end Steps

omit valid

theorem valid_initial (world : World) : Valid { world } := by
  have extended := @Graph.create_extends (Program World) {} .nil rootName
  refine ⟨extended.sorted, fun target => .none ⟨extended.pending target, rfl⟩,
    fun _ _ => ⟨nofun, nofun⟩, trivial, fun _ => ⟨nofun, nofun⟩⟩

section Growth

-- The journal is only ever added to.

variable (machine) (target : String)

theorem nextTask_journal (place : Nat) (tasks : List (Program World)) :
    machine.journal <:+ (machine.nextTask target place tasks).journal := by
  cases tasks <;> exact List.suffix_cons ..

theorem operate_journal (operation : Operation (Program World)) :
    machine.journal <:+ (machine.operate operation).1.journal := by
  unfold operate
  split
  · exact List.suffix_rfl
  · split
    · exact List.suffix_cons ..
    · exact List.suffix_rfl

theorem start_journal : (machine.start target).journal = machine.journal := by
  unfold start
  split <;> rfl

theorem begin_journal : machine.journal <:+ (machine.begin target).journal := by
  unfold begin
  split
  · exact List.suffix_cons ..
  · dsimp only
    generalize (if target = rootName ∧ machine.graph.status ∈ [.notStarted, .ready] then
      { machine.graph with status := .running } else machine.graph) = graph
    split
    · exact List.suffix_cons ..
    · split
      · exact List.suffix_cons ..
      · exact List.suffix_rfl

variable {machine target}

theorem work_journal {place : Nat} {program : Program World} {rest : List (Program World)}
    {next : Machine World} (stepped : machine.work? target place program rest = some next) :
    machine.journal <:+ next.journal := by
  cases program with
  | finish outcome =>
    have returned := List.suffix_cons (.returned target place outcome) machine.journal
    cases outcome with
    | ok =>
      exact Option.some.inj stepped ▸ returned.trans
        (nextTask_journal (machine.record _) target (place + 1) rest)
    | error => exact Option.some.inj stepped ▸ returned.trans (List.suffix_cons ..)
  | operate operation => exact Option.some.inj stepped ▸ operate_journal machine operation
  | suspend | act | observe => exact Option.some.inj stepped ▸ List.suffix_rfl
  | start other =>
    cases stepped
    exact (start_journal machine other).symm ▸ List.suffix_rfl
  | await other =>
    simp only [work?] at stepped
    split at stepped
    · cases stepped
      exact (start_journal machine other).symm ▸ List.suffix_rfl
    · exact Option.some.inj stepped ▸ List.suffix_cons ..
    · cases stepped

theorem advance_journal {next : Machine World} (stepped : machine.advance? target = some next) :
    machine.journal <:+ next.journal := by
  unfold advance? at stepped
  split at stepped
  · cases stepped
  · cases stepped
  · exact Option.some.inj stepped ▸ begin_journal machine target
  · exact Option.some.inj stepped ▸ nextTask_journal machine target 0 _
  next subtarget _ _ _ =>
    split at stepped
    · exact Option.some.inj stepped ▸ List.suffix_cons ..
    · split at stepped
      · cases stepped
        exact (start_journal machine subtarget).symm ▸ List.suffix_rfl
      next outcome _ =>
        have told := List.suffix_cons (.delivered target subtarget outcome) machine.journal
        cases outcome with
        | ok => exact Option.some.inj stepped ▸ told
        | error => exact Option.some.inj stepped ▸ told.trans (List.suffix_cons ..)
      · cases stepped
  · exact work_journal stepped

theorem move_journal (machine : Machine World) (move : Move World) :
    machine.journal <:+ (machine.move move).journal := by
  cases move with
  | operate operation => exact operate_journal machine operation
  | start target => exact (start_journal machine target).symm ▸ List.suffix_rfl
  | advance target =>
    show machine.journal <:+ ((machine.advance? target).getD machine).journal
    cases stepped : machine.advance? target with
    | none => exact List.suffix_rfl
    | some => exact advance_journal stepped
  | drop => exact List.suffix_rfl

theorem moves_journal (machine : Machine World) (moves : List (Move World)) :
    machine.journal <:+ (machine.moves moves).journal := by
  induction moves generalizing machine with
  | nil => exact List.suffix_rfl
  | cons move moves ih => exact (move_journal machine move).trans (ih (machine.move move))

end Growth

end CompositeKeys.Tasks.Machine
