import CompositeKeys.Proofs.Collection.Declared
import CompositeKeys.Proofs.Generation.Completion

/-! Generators that are run at the same time. The first call launches the run and all calls wait for what it
comes to, while others may poll it or enter more generators. However the calls are interleaved, the jobs
are done in the order of the claims up to the first that fails, and all calls are answered alike. -/

namespace CompositeKeys.Generation
open Files Tasks Emission

namespace GenerationRun

/-- Launches a run, without waiting for it. -/
def begin (run : GenerationRun) : GenerationRun :=
  match operateAll run.machine (.markReady :: fixedTargets.map (.depend rootName)) with
  | (machine, .ok ()) => { run with machine := machine.start rootName }
  | (machine, .error error) => { run with machine, outcome := some (.error error) }

/-- Notes what a run has come to, once its root target is at its end. -/
def settle (run : GenerationRun) : GenerationRun :=
  match run.outcome, run.machine.outcome? rootName with
  | none, some ended =>
    let (machine, outcome) := conclude run.machine ended
    { run with machine, outcome := some outcome }
  | _, _ => run

def poll (run : GenerationRun) (target : String) : GenerationRun :=
  { run with machine := run.machine.move (.advance target) }

/-- Polls a run until it is over. -/
def wait (run : GenerationRun) : GenerationRun :=
  { run with machine := run.machine.settle (stepLimit run.machine.graph) }

end GenerationRun

/-- Completing a run is launching it and waiting for it alone. -/
theorem Prepared.complete_eq {root : FilePath} {checker : CheckerSettings} {workspace : Workspace}
    {orders : List ModuleOrder} {run : GenerationRun}
    (prepared : Prepared root checker workspace orders run) (files : FileTree) :
    let last := (run.given files).begin.wait.settle
    ∃ outcome, last.outcome = some outcome ∧
      run.complete files = (last, last.machine.world.files, outcome) := by
  have given := prepared.given files
  obtain ⟨graph, closed, outcome, operated, ended, concluded, _⟩ := given.concludes
  have same : (Machine.start { (run.given files).machine with graph } rootName).graph = graph := by
    unfold Machine.start
    split <;> rfl
  have executed := (@execute_eq { (run.given files).machine with graph } _ ended).trans concluded
  have last : (run.given files).begin.wait.settle =
      { run.given files with machine := closed, outcome := some outcome } := by
    simp only [GenerationRun.begin, operated, GenerationRun.wait, same, GenerationRun.settle,
      given.outcome, ended, concluded]
  refine ⟨outcome, congrArg GenerationRun.outcome last, ?_⟩
  rw [last]
  unfold GenerationRun.given at operated executed
  simp only [GenerationRun.complete, prepared.outcome, GenerationRun.launch, operated]
  rw [executed]
  rfl

/-- A generator with what it has been made from. -/
structure Entry where
  builder : Builder
  options : CompileOptions
  generator : Generator

/-- A call that runs the generator at a place, and what it has been answered. -/
structure Call where
  place : Nat
  answer : Option (Except GenerationError String) := none
  deriving DecidableEq

structure Session where
  run : GenerationRun
  entries : List Entry := []
  opened : Bool := false
  calls : List Call := []

inductive Deed where
  | register (builder : Builder) (output : FilePath) (options : CompileOptions)
  | call (place : Nat)
  | poll (target : String)
  | answer (call : Nat)

namespace Session

/-- A session over the given files. -/
def start (root : FilePath) (checker : CheckerSettings) (files : FileTree) : Session :=
  { run := (GenerationRun.create root checker).given files }

def register (session : Session) (builder : Builder) (output : FilePath) (options : CompileOptions) :
    Session :=
  match Generator.register builder output options session.run with
  | (run, .error _) => { session with run }
  | (run, .ok generator) =>
    { session with run, entries := session.entries ++ [{ builder, options, generator }] }

def call (session : Session) (place : Nat) : Session :=
  if session.entries.length ≤ place then session
  else
    { session with
      run := if session.opened then session.run else session.run.begin
      opened := true
      calls := session.calls ++ [{ place }] }

/-- Answers a call, if the run is at its end. -/
def answer (session : Session) (index : Nat) : Session :=
  match session.calls[index]? with
  | none => session
  | some call =>
    let run := session.run.settle
    match run.outcome, session.entries[call.place]? with
    | some outcome, some entry =>
      { session with
        run
        entries := session.entries.set call.place
          { entry with generator := entry.generator.settled outcome }
        calls := session.calls.set index
          { call with answer := some (entry.generator.result outcome) } }
    | _, _ => session

def act (session : Session) : Deed → Session
  | .register builder output options => session.register builder output options
  | .call place => session.call place
  | .poll target => { session with run := session.run.poll target }
  | .answer index => session.answer index

def acts (session : Session) (deeds : List Deed) : Session := deeds.foldl act session

/-- The modules to be written, in the order in which their paths have been claimed. -/
def ordersOf (root : FilePath) (entries : List Entry) : List ModuleOrder :=
  (entries.filter (·.generator.ownsTarget)).map fun entry =>
    orderOf root entry.builder entry.options entry.generator.output

end Session

/-- How far a run has come that does the jobs of some modules. -/
inductive Course (root : FilePath) (checker : CheckerSettings) (workspace : Workspace)
    (orders : List ModuleOrder) : Bool → GenerationRun → Prop where
  | prepared {run : GenerationRun} (prepared : Prepared root checker workspace orders run) :
      Course root checker workspace orders false run
  | underWay {run : GenerationRun} {graph : Tasks.Graph (Program Workspace)}
      (launched : Launched graph root checker orders) (underWay : UnderWay graph workspace run.machine)
      (unknown : run.outcome = none) : Course root checker workspace orders true run
  | ended {run : GenerationRun} {outcome : Outcome}
      (upshot : Over (jobsOf root checker orders) workspace run.machine outcome)
      (known : run.outcome = some outcome) (still : ∀ target, run.machine.advance? target = none) :
      Course root checker workspace orders true run

section Course

variable {root : FilePath} {checker : CheckerSettings} {workspace : Workspace}
  {orders : List ModuleOrder} {run : GenerationRun} {opened : Bool}

theorem Course.started_prefix (course : Course root checker workspace orders opened run) :
    Journal.starts run.machine.journal <+:
      (Job.runAll (jobsOf root checker orders) workspace).1.map fun job => (job.target, job.task) := by
  cases course with
  | prepared prepared =>
    rw [prepared.unstarted]
    exact List.nil_prefix
  | underWay launched underWay =>
    obtain ⟨position, stands⟩ := underWay.stands
    exact (launched.arranged.report workspace).1 ▸ stands.started_prefix
  | ended upshot => exact upshot.started ▸ List.prefix_rfl

theorem Prepared.begins (prepared : Prepared root checker workspace orders run) :
    Course root checker workspace orders true run.begin := by
  obtain ⟨graph, operated, launched, underWay⟩ := prepared.launches
  have begun : run.begin =
      { run with machine := Machine.start { run.machine with graph } rootName } := by
    simp only [GenerationRun.begin, operated]
  rw [begun]
  exact .underWay launched underWay prepared.outcome

theorem Course.poll (course : Course root checker workspace orders opened run) (target : String) :
    Course root checker workspace orders opened (run.poll target) := by
  cases stepped : run.machine.advance? target with
  | none =>
    have same : run.poll target = run := by
      simp only [GenerationRun.poll, Machine.move, stepped, Option.getD_none]
    exact same.symm ▸ course
  | some next =>
    have polled : run.poll target = { run with machine := next } := by
      simp only [GenerationRun.poll, Machine.move, stepped, Option.getD_some]
    rw [polled]
    cases course with
    | prepared prepared =>
      rw [Machine.advance?, Machine.progress?, prepared.unrun] at stepped
      cases stepped
    | underWay launched underWay unknown =>
      obtain ⟨position, stands⟩ := underWay.stands
      obtain ⟨later, standing, _⟩ := stands.step launched.launchable stepped
      obtain ⟨brisk, less⟩ := underWay.brisk.advance stepped
      have within := Nat.le_trans (Nat.le_of_lt less) underWay.within
      exact .underWay launched ⟨⟨later, standing⟩, brisk, within⟩ unknown
    | ended upshot known still => cases (still target).symm.trans stepped

/-- Once the root target is at its end, nobody can take a step any more. -/
theorem UnderWay.rested {graph : Tasks.Graph (Program Workspace)} {machine : Machine Workspace}
    (underWay : UnderWay graph workspace machine) {outcome : Outcome}
    (ended : machine.outcome? rootName = some outcome) (target : String) :
    machine.progress? target = none ∨
      ∃ outcome, machine.progress? target = some (.finished outcome) := by
  have finished := Machine.outcome?_eq_some.mp ended
  obtain ⟨position, stands⟩ := underWay.stands
  rcases stands.waiting.root_mem with top | behind
  · have here := stands.here
    rw [← top, finished] at here
    by_cases same : target = position.top
    · rw [same, ← top]
      exact .inr ⟨outcome, finished⟩
    · have alone : target ∉ position.waiters := by
        have apt := stands.apt
        rcases position with ⟨top, progress, waiters, agenda, entered, failure⟩
        cases Option.some.inj here
        cases apt
        exact List.not_mem_nil
      exact (stands.others target same alone).imp_right fun ⟨outcome, last, _⟩ => ⟨outcome, last⟩
  · obtain ⟨_, _, _, depending, _⟩ := stands.waiting.blocked rootName behind
    cases finished.symm.trans depending

theorem Course.settles (course : Course root checker workspace orders true run) :
    Course root checker workspace orders true run.settle ∧
      ((∀ target, run.machine.advance? target = none) → ∃ outcome, run.settle.outcome = some outcome) := by
  cases course with
  | ended upshot known still =>
    have same : run.settle = run := by simp only [GenerationRun.settle, known]
    rw [same]
    exact ⟨.ended upshot known still, fun _ => ⟨_, known⟩⟩
  | underWay launched underWay unknown =>
    obtain ⟨position, stands⟩ := underWay.stands
    cases ended : run.machine.outcome? rootName with
    | none =>
      have same : run.settle = run := by simp only [GenerationRun.settle, unknown, ended]
      rw [same]
      refine ⟨.underWay launched underWay unknown, fun stuck => ?_⟩
      obtain ⟨outcome, last⟩ := stands.ended launched.launchable fun run _ => stuck run.1
      cases ended.symm.trans last
    | some outcome =>
      obtain ⟨closed, concluded, runs, upshot⟩ := launched.concludes ended (stands.ran ended)
      have settled : run.settle = { run with machine := closed, outcome := some outcome } := by
        simp only [GenerationRun.settle, unknown, ended, concluded]
      rw [settled]
      refine ⟨.ended upshot rfl fun target => ?_, fun _ => ⟨outcome, rfl⟩⟩
      have rested : closed.progress? target = none ∨
          ∃ outcome, closed.progress? target = some (.finished outcome) := by
        rw [Machine.progress?, runs]
        exact underWay.rested ended target
      rcases rested with fresh | ⟨outcome, finished⟩
      · rw [Machine.advance?, fresh]
      · rw [Machine.advance?, finished]

theorem Course.late (course : Course root checker workspace orders true run) :
    run.status ≠ .notStarted := by
  cases course with
  | underWay launched underWay =>
    obtain ⟨position, stands⟩ := underWay.stands
    have status : run.status = position.status .ready :=
      (congrArg Graph.status stands.taken).trans (congrArg position.status launched.ready)
    rw [status, Position.status]
    split
    · exact nofun
    · split <;> exact nofun
    · exact nofun
  | ended upshot =>
    have status : run.status = _ := upshot.status
    rw [status]
    split <;> exact nofun

theorem Course.concluded (course : Course root checker workspace orders opened run) {outcome : Outcome}
    (known : run.outcome = some outcome) :
    Over (jobsOf root checker orders) workspace run.machine outcome := by
  cases course with
  | prepared prepared => cases known.symm.trans prepared.outcome
  | underWay _ _ unknown => cases known.symm.trans unknown
  | ended upshot same =>
    cases known.symm.trans same
    exact upshot

theorem still_advances {machine next : Machine Workspace} {targets : List String}
    (still : ∀ target, machine.advance? target = none)
    (taken : machine.advances? targets = some next) : targets = [] := by
  cases targets with
  | nil => rfl
  | cons target targets =>
    rw [Machine.advances?, List.foldlM_cons, still target] at taken
    cases taken

/-- Only so many steps can be taken, whoever takes them. -/
theorem Course.bounded (course : Course root checker workspace orders opened run) :
    ∃ limit, ∀ targets next, run.machine.advances? targets = some next → targets.length ≤ limit := by
  cases course with
  | prepared prepared =>
    have still : ∀ target, run.machine.advance? target = none := by
      intro target
      rw [Machine.advance?, Machine.progress?, prepared.unrun]
      rfl
    refine ⟨0, fun targets next taken => ?_⟩
    rw [still_advances still taken]
    exact Nat.le_refl 0
  | underWay _ underWay =>
    refine ⟨run.machine.budget, fun targets next taken => ?_⟩
    have spent := (underWay.brisk.steps taken).2
    omega
  | ended _ _ still =>
    refine ⟨0, fun targets next taken => ?_⟩
    rw [still_advances still taken]
    exact Nat.le_refl 0

/-- A run that has been launched takes no more modules. -/
theorem register_late (late : run.status ≠ .notStarted) (builder : Builder) (output : FilePath)
    (options : CompileOptions) :
    (Generator.register builder output options run).1 = run ∧
      ∀ generator, (Generator.register builder output options run).2 = .ok generator →
        generator.ownsTarget = false ∧ generator.stage = .notStarted := by
  unfold Generator.register
  split
  · exact ⟨rfl, by simp⟩
  split
  · exact ⟨rfl, by simp⟩
  cases known : run.claim? output with
  | some claim =>
    simp only [GenerationRun.claim, known]
    refine ⟨trivial, fun generator same => ?_⟩
    cases same
    exact ⟨rfl, rfl⟩
  | none =>
    simp only [GenerationRun.claim, known, late, ne_eq, not_false_eq_true, if_true]
    exact ⟨trivial, by simp⟩

end Course

namespace Session

variable {root : FilePath} {checker : CheckerSettings} {workspace : Workspace} {session : Session}

theorem ordersOf_append (entries : List Entry) (entry : Entry) :
    ordersOf root (entries ++ [entry]) = ordersOf root entries ++
      if entry.generator.ownsTarget then
        [orderOf root entry.builder entry.options entry.generator.output] else [] := by
  rw [ordersOf, List.filter_append, List.map_append, ordersOf]
  cases owns : entry.generator.ownsTarget <;> simp [owns]

theorem ordersOf_settled {entries : List Entry} {place : Nat} {entry : Entry}
    (found : entries[place]? = some entry) (outcome : Outcome) :
    ordersOf root (entries.set place { entry with generator := entry.generator.settled outcome }) =
      ordersOf root entries := by
  induction entries generalizing place with
  | nil => rfl
  | cons first rest ih =>
    cases place with
    | zero =>
      cases found
      rw [List.set_cons_zero]
      unfold ordersOf
      rw [List.filter_cons, List.filter_cons]
      cases owns : entry.generator.ownsTarget <;> simp [Generator.settled, owns]
    | succ place =>
      have rest := @ih place found
      unfold ordersOf at rest ⊢
      rw [List.set_cons_succ, List.filter_cons, List.filter_cons]
      split
      · rw [List.map_cons, List.map_cons, rest]
      · exact rest

/-- What holds of a session at any time. -/
structure Sound (root : FilePath) (checker : CheckerSettings) (workspace : Workspace)
    (session : Session) : Prop where
  course : Course root checker workspace (ordersOf root session.entries) session.opened session.run
  opened : session.opened = true ↔ session.calls ≠ []
  placed : ∀ call ∈ session.calls, call.place < session.entries.length
  answered : ∀ call ∈ session.calls, ∀ result, call.answer = some result → ∃ outcome entry,
    session.run.outcome = some outcome ∧ session.entries[call.place]? = some entry ∧
      result = entry.generator.result outcome ∧
      entry.generator.stage = if outcome.isOk then .completed else .aborted
  idle : ∀ place entry, session.entries[place]? = some entry → entry.generator.stage = .notStarted ∨
    ∃ call ∈ session.calls, call.place = place ∧ call.answer.isSome = true

/-- A session as it is before the first call. -/
theorem Sound.uncalled (sound : session.Sound root checker workspace) (closed : session.opened = false) :
    session.calls = [] := by
  by_contra called
  cases closed.symm.trans (sound.opened.mpr called)

theorem Sound.enter (sound : session.Sound root checker workspace) {next : GenerationRun} {entry : Entry}
    (fresh : entry.generator.stage = .notStarted) (same : next.outcome = session.run.outcome)
    (course : Course root checker workspace (ordersOf root (session.entries ++ [entry]))
      session.opened next) :
    Sound root checker workspace { session with run := next, entries := session.entries ++ [entry] } := by
  refine ⟨course, sound.opened, fun call member => ?_, fun call member result given => ?_,
    fun place other found => ?_⟩
  · have below := sound.placed call member
    rw [List.length_append]
    exact Nat.lt_add_right 1 below
  · obtain ⟨outcome, other, known, found, rest⟩ := sound.answered call member result given
    refine ⟨outcome, other, same.trans known, ?_, rest⟩
    exact (List.getElem?_append_left (sound.placed call member)).trans found
  · by_cases below : place < session.entries.length
    · rw [List.getElem?_append_left below] at found
      exact sound.idle place other found
    · have last : other ∈ [entry] := by
        rw [List.getElem?_append_right (Nat.not_lt.mp below)] at found
        exact List.mem_of_getElem? found
      rw [List.mem_singleton.mp last]
      exact .inl fresh

theorem Sound.register (sound : session.Sound root checker workspace) (builder : Builder)
    (output : FilePath) (options : CompileOptions) :
    (session.register builder output options).Sound root checker workspace := by
  cases phase : session.opened with
  | true =>
    -- A run that has been launched takes no new path: what is accepted now shares one.
    have late := (phase ▸ sound.course).late
    obtain ⟨same, only⟩ := register_late late builder output options
    unfold Session.register
    split
    next run error refused =>
      have kept : run = session.run := by rw [← same, refused]
      subst kept
      exact sound
    next run generator accepted =>
      have kept : run = session.run := by rw [← same, accepted]
      subst kept
      obtain ⟨shared, fresh⟩ := only generator (by rw [accepted])
      refine sound.enter fresh rfl ?_
      rw [ordersOf_append, shared]
      exact (List.append_nil _).symm ▸ sound.course
  | false =>
    have uncalled := sound.uncalled phase
    have course := sound.course
    rw [phase] at course
    cases course with
    | prepared prepared =>
      have entered := prepared.register builder options output
      unfold Session.register
      generalize Generator.register builder output options session.run = registered at entered
      cases entered with
      | refused error later =>
        refine ⟨?_, sound.opened, sound.placed, ?_, sound.idle⟩
        · rw [phase]
          exact .prepared later
        · rw [uncalled]
          exact nofun
      | shares owner =>
        refine sound.enter rfl rfl ?_
        rw [ordersOf_append, phase]
        exact (List.append_nil _).symm ▸ .prepared prepared
      | owns _ later =>
        refine sound.enter rfl (later.outcome.trans prepared.outcome.symm) ?_
        rw [ordersOf_append, phase]
        exact .prepared later

theorem Sound.call (sound : session.Sound root checker workspace) (place : Nat) :
    (session.call place).Sound root checker workspace := by
  unfold Session.call
  split
  · exact sound
  next within =>
  have course := sound.course
  refine ⟨?_, iff_of_true rfl (List.append_ne_nil_of_right_ne_nil _ (List.cons_ne_nil _ _)),
    fun call member => ?_, fun call member result given => ?_, fun other entry found => ?_⟩
  · cases phase : session.opened with
    | true =>
      rw [phase] at course
      exact course
    | false =>
      rw [phase] at course
      cases course with
      | prepared prepared => exact prepared.begins
  · rcases List.mem_append.mp member with earlier | last
    · exact sound.placed call earlier
    · rw [List.mem_singleton.mp last]
      exact Nat.not_le.mp within
  · rcases List.mem_append.mp member with earlier | last
    · rw [if_pos (sound.opened.mpr (List.ne_nil_of_mem earlier))]
      exact sound.answered call earlier result given
    · rw [List.mem_singleton.mp last] at given
      cases given
  · rcases sound.idle other entry found with fresh | ⟨call, member, rest⟩
    · exact .inl fresh
    · exact .inr ⟨call, List.mem_append_left _ member, rest⟩

theorem Sound.poll (sound : session.Sound root checker workspace) (target : String) :
    Sound root checker workspace { session with run := session.run.poll target } :=
  ⟨sound.course.poll target, sound.opened, sound.placed, sound.answered, sound.idle⟩

theorem settle_known {run : GenerationRun} {outcome : Outcome} (known : run.outcome = some outcome) :
    run.settle = run := by
  simp only [GenerationRun.settle, known]

theorem Sound.answer (sound : session.Sound root checker workspace) (index : Nat) :
    (session.answer index).Sound root checker workspace := by
  unfold Session.answer
  cases called : session.calls[index]? with
  | none => exact sound
  | some call =>
  dsimp only
  split
  rotate_left
  · exact sound
  next outcome entry known found =>
  have member := List.mem_of_getElem? called
  have opened := sound.opened.mpr (List.ne_nil_of_mem member)
  have course := (opened ▸ sound.course).settles.1
  have entries : ∀ place, (session.entries.set call.place
      { entry with generator := entry.generator.settled outcome })[place]? =
        if call.place = place then some { entry with generator := entry.generator.settled outcome }
        else session.entries[place]? := by
    intro place
    rw [List.getElem?_set, if_pos (sound.placed call member)]
  have asked : ∀ other, other ∈ session.calls.set index other :=
    List.mem_set (List.getElem?_eq_some_iff.mp called).1
  refine ⟨?_, iff_of_true opened (List.ne_nil_of_mem (asked _)), fun other within => ?_, fun other within result given => ?_,
    fun place other there => ?_⟩
  · rw [ordersOf_settled found, opened]
    exact course
  · rw [List.length_set]
    rcases List.mem_or_eq_of_mem_set within with earlier | rfl
    · exact sound.placed other earlier
    · exact sound.placed call member
  · rw [entries]
    rcases List.mem_or_eq_of_mem_set within with earlier | rfl
    · obtain ⟨past, given, before, standing, same, stage⟩ := sound.answered other earlier result given
      -- The run was over when that call was answered, so it still is, with the same outcome.
      rw [settle_known before] at known ⊢
      cases before.symm.trans known
      refine ⟨outcome, ?_⟩
      split
      next here =>
        cases found.symm.trans (here ▸ standing)
        exact ⟨_, known, rfl, same, rfl⟩
      · exact ⟨given, known, standing, same, stage⟩
    · cases given
      exact ⟨outcome, _, known, if_pos rfl, rfl, rfl⟩
  · rw [entries] at there
    split at there
    next here =>
      exact .inr ⟨_, asked _, here, rfl⟩
    next apart =>
      refine (sound.idle place other there).imp_right fun ⟨past, earlier, elsewhere, rest⟩ => ?_
      obtain ⟨spot, stood⟩ := List.getElem?_of_mem earlier
      -- This answer goes to another place than the one that is asked for.
      have moved : index ≠ spot := by
        rintro rfl
        cases called.symm.trans stood
        exact apart elsewhere
      refine ⟨past, List.mem_iff_getElem?.mpr ⟨spot, ?_⟩, elsewhere, rest⟩
      exact (List.getElem?_set_ne moved).trans stood

theorem sound_start (root : FilePath) (checker : CheckerSettings) (files : FileTree) :
    (start root checker files).Sound root checker { files } := by
  have prepared := (prepared_create root checker).given files
  unfold start
  generalize GenerationRun.given _ files = run at prepared ⊢
  refine ⟨.prepared prepared, ⟨fun opened => ?_, (absurd rfl ·)⟩, fun call member => ?_, fun call member => ?_,
    fun place entry found => ?_⟩
  · cases opened
  · cases member
  · cases member
  · cases found

theorem Sound.acts (sound : session.Sound root checker workspace) (deeds : List Deed) :
    (session.acts deeds).Sound root checker workspace := by
  induction deeds generalizing session with
  | nil => exact sound
  | cons deed deeds ih =>
    refine ih ?_
    cases deed with
    | register builder output options => exact sound.register builder output options
    | call place => exact sound.call place
    | poll target => exact sound.poll target
    | answer index => exact sound.answer index

/-- When nobody can take a step any more, each call can be answered. -/
theorem Sound.answers (sound : session.Sound root checker workspace)
    (still : ∀ target, session.run.machine.advance? target = none) {index : Nat} {call : Call}
    (called : session.calls[index]? = some call) :
    ∃ result, (session.answer index).calls[index]? = some { call with answer := some result } := by
  have member := List.mem_of_getElem? called
  have opened := sound.opened.mpr (List.ne_nil_of_mem member)
  obtain ⟨outcome, known⟩ := (opened ▸ sound.course).settles.2 still
  have within := sound.placed call member
  have found := List.getElem?_eq_getElem within
  refine ⟨session.entries[call.place].generator.result outcome, ?_⟩
  simp only [Session.answer, called, known, found]
  exact List.getElem?_set_self (List.getElem?_eq_some_iff.mp called).1

/-- A pairing that bears the name of the map it is made from, and that map, both called before the run is
over. -/
def namesakes : List Deed :=
  let owners : Builder := Builder.performAll ⟨⟨.map, .start⟩, .empty "CarOwners" (.map .weak)⟩
    [.addMapKey "car" "The car." true {}, .addMapKey "owner" "The owner." false {}, .lock]
  let pairs : Builder := Builder.performAll ⟨⟨.oneToOne, .start⟩, .empty "CarOwners" .oneToOne⟩
    [.configurePairing (.builder owners) "car" none, .lock]
  let round : List Deed := [.poll rootName, .poll GenerationRun.modulesTarget, .poll "pairs.mjs"]
  [.register pairs ⟨"pairs.mjs"⟩ {}, .register owners ⟨"owners.mjs"⟩ {}, .call 0, .call 1] ++
    (List.replicate 8 round).flatten ++ [.answer 1, .answer 0]

end Session

end CompositeKeys.Generation
