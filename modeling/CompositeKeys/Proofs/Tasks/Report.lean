import CompositeKeys.Proofs.Tasks.Steps
import CompositeKeys.Proofs.Tasks.Tour

/-! What a run of the root target is to do, told without its execution. The tasks of a target are due when
the tour leaves it. They are carried out in order; the first failure ends everything, and so does the
first name that no target has. -/

namespace CompositeKeys.Tasks

section Taken

variable {Task : Type}

theorem lookup_map_entries {Entry : Type} (entries : List (String × Entry))
    (change : String → Entry → Entry) (name : String) :
    (entries.map fun (key, value) => (key, change key value)).lookup name =
      (entries.lookup name).map (change name) := by
  induction entries with
  | nil => rfl
  | cons entry rest ih =>
    rw [List.map_cons, lookup_cons, ih]
    rcases entry with ⟨key, value⟩
    rw [lookup_cons]
    split
    next same => rw [same, Option.map_some]
    · rfl

namespace Graph

/-- A graph whose tasks have been taken out of some of its targets. -/
def taken (graph : Graph Task) (status : Status) (entered : List String) : Graph Task :=
  { graph with
    status
    targets := graph.targets.map fun (name, target) =>
      (name, if name ∈ entered then target.emptied else target) }

variable {graph : Graph Task} {status : Status} {entered : List String}

theorem taken_target? (name : String) : (graph.taken status entered).target? name =
    (graph.target? name).map fun target => if name ∈ entered then target.emptied else target :=
  lookup_map_entries graph.targets (fun key target => if key ∈ entered then target.emptied else target) name

theorem taken_isSome (name : String) :
    ((graph.taken status entered).target? name).isSome = (graph.target? name).isSome := by
  rw [taken_target?, Option.isSome_map]

theorem taken_of_fresh {name : String} (fresh : name ∉ entered) :
    (graph.taken status entered).target? name = graph.target? name := by
  rw [taken_target?]
  simp only [fresh, if_false]
  exact Option.map_id'

theorem taken_nil : graph.taken graph.status [] = graph := by
  have same : graph.targets.map (fun (name, target) =>
      (name, if name ∈ [] then target.emptied else target)) = graph.targets := by
    simp
  rw [taken, same]

/-- Beginning a target takes its tasks out of the graph. -/
theorem taken_update (name : String) : (graph.taken status entered).updateTarget name Target.emptied =
    graph.taken status (name :: entered) := by
  unfold updateTarget taken
  dsimp only
  rw [List.map_map]
  congr 1
  refine List.map_congr_left fun entry _ => ?_
  rcases entry with ⟨key, target⟩
  by_cases here : key = name
  · subst here
    by_cases known : key ∈ entered <;> simp [known, Target.emptied]
  · simp [here]

end Graph

end Taken

section Report

variable {World : Type}

namespace Program

/-- A task that does not touch the graph, though it may look at it. -/
def Detached : Program World → Prop
  | .finish _ => True
  | .suspend next => next.Detached
  | .act _ next => ∀ world, (next world).Detached
  | .observe next => ∀ view, (next view).Detached
  | .operate .. | .start .. | .await .. => False

/-- What a detached task comes to, and what it makes of the world, while the graph looks the same. -/
def perform (view : GraphView) : Program World → World → Outcome × World
  | .finish outcome, world => (outcome, world)
  | .suspend next, world => next.perform view world
  | .act change next, world => (next world).perform view (change world)
  | .observe next, world => (next view).perform view world
  | .operate .., world | .start .., world | .await .., world => (.ok (), world)

def steps (view : GraphView) : Program World → World → Nat
  | .finish _, _ => 0
  | .suspend next, world => next.steps view world + 1
  | .act change next, world => (next world).steps view (change world) + 1
  | .observe next, world => (next view).steps view world + 1
  | .operate .., _ | .start .., _ | .await .., _ => 0

end Program

inductive Duty (World : Type) where
  | enter (target : String)
  | perform (target : String) (task : Program World)

def Duty.task? : Duty World → Option (String × Program World)
  | .enter _ => none
  | .perform target task => some (target, task)

/-- What has been done in a run: the targets entered, the latest one first, the tasks started in their
order, and what has become of the world. -/
structure Tally (World : Type) where
  entered : List String := []
  started : List (String × Program World) := []
  world : World

/-- Goes on after a task, unless it has failed. -/
def Tally.unlessFailed (tally : Tally World) (rest : Tally World → Tally World × Outcome) :
    Outcome × World → Tally World × Outcome
  | (.ok (), world) => rest { tally with world }
  | (.error error, world) => ({ tally with world }, .error error)

theorem Tally.unlessFailed_world (tally : Tally World) (world : World)
    (rest : Tally World → Tally World × Outcome) (result : Outcome × World) :
    ({ tally with world } : Tally World).unlessFailed rest result = tally.unlessFailed rest result := by
  rcases result with ⟨outcome, left⟩
  cases outcome <;> rfl

theorem Tally.unlessFailed_grows {tally : Tally World}
    {rest : Tally World → Tally World × Outcome}
    (grows : ∀ world, tally.started <+: (rest { tally with world }).1.started)
    (result : Outcome × World) : tally.started <+: (tally.unlessFailed rest result).1.started := by
  rcases result with ⟨outcome, world⟩
  cases outcome with
  | ok => exact grows world
  | error => exact List.prefix_rfl

namespace Graph

variable (graph : Graph (Program World))

/-- What is due at a stop. The tasks of a target are due when it is left. -/
def duties : Stop → List (Duty World)
  | .enter name => [.enter name]
  | .leave name => (graph.pending name).map (.perform name)

/-- Does what is due, in order, up to the first task that fails or the first target that is missing. -/
def carryOut : List (Duty World) → Tally World → Tally World × Outcome
  | [], tally => (tally, .ok ())
  | .enter name :: rest, tally =>
    if (graph.target? name).isSome then carryOut rest { tally with entered := name :: tally.entered }
    else (tally, .error (.unknownTarget name))
  | .perform name task :: rest, tally =>
    { tally with started := tally.started ++ [(name, task)] }.unlessFailed (carryOut rest)
      (task.perform (graph.taken .running tally.entered).view tally.world)

/-- What is due from what is on the agenda on. -/
def ahead (entered : List String) (agenda : List Stop) : List (Duty World) :=
  (graph.tour entered agenda).flatMap graph.duties

/-- What a run of the root target does and comes to. -/
def report (world : World) : Tally World × Outcome :=
  graph.carryOut (graph.ahead [] [.enter rootName]) { world }

/-- All tasks of all targets that can be reached, in the order in which they are due. -/
def dueTasks : List (String × Program World) :=
  graph.postOrder.flatMap fun name => (graph.pending name).map (name, ·)

variable {graph}

section Ahead

variable {entered : List String} {agenda : List Stop} {name : String}

theorem ahead_nil : graph.ahead entered [] = [] := by
  rw [ahead, tour_nil, List.flatMap_nil]

theorem ahead_leave : graph.ahead entered (.leave name :: agenda) =
    (graph.pending name).map (.perform name) ++ graph.ahead entered agenda := by
  rw [ahead, tour_leave, List.flatMap_cons]
  rfl

theorem ahead_known (known : name ∈ entered) :
    graph.ahead entered (.enter name :: agenda) = graph.ahead entered agenda := by
  rw [ahead, tour_known known, ahead]

theorem ahead_enter (fresh : name ∉ entered) : graph.ahead entered (.enter name :: agenda) =
    .enter name :: graph.ahead (name :: entered)
      ((graph.subtargets name).map .enter ++ .leave name :: agenda) := by
  rw [ahead, tour_enter fresh, List.flatMap_cons]
  rfl

end Ahead

theorem carryOut_grows (duties : List (Duty World)) (tally : Tally World) :
    tally.started <+: (graph.carryOut duties tally).1.started := by
  induction duties generalizing tally with
  | nil => exact List.prefix_rfl
  | cons duty rest ih =>
    cases duty with
    | enter name =>
      unfold carryOut
      split
      · exact ih { tally with entered := name :: tally.entered }
      · exact List.prefix_rfl
    | perform name task =>
      have first : tally.started <+: tally.started ++ [(name, task)] := List.prefix_append ..
      refine first.trans (@Tally.unlessFailed_grows World
        { tally with started := tally.started ++ [(name, task)] } _ (fun world => ?_) _)
      exact ih { tally with started := tally.started ++ [(name, task)], world }

theorem carryOut_started (duties : List (Duty World)) (tally : Tally World) :
    (graph.carryOut duties tally).1.started <+: tally.started ++ duties.filterMap Duty.task? ∧
      ((graph.carryOut duties tally).2 = .ok () →
        (graph.carryOut duties tally).1.started = tally.started ++ duties.filterMap Duty.task?) := by
  induction duties generalizing tally with
  | nil =>
    rw [List.filterMap_nil, List.append_nil]
    exact ⟨List.prefix_rfl, fun _ => rfl⟩
  | cons duty rest ih =>
    cases duty with
    | enter name =>
      unfold carryOut
      split
      · exact ih { tally with entered := name :: tally.entered }
      · exact ⟨List.prefix_append .., nofun⟩
    | perform name task =>
      have split : tally.started ++ (Duty.perform name task :: rest).filterMap Duty.task? =
          tally.started ++ [(name, task)] ++ rest.filterMap Duty.task? := by
        rw [List.append_assoc]
        rfl
      rw [split]
      unfold carryOut
      cases task.perform (graph.taken .running tally.entered).view tally.world with
      | mk outcome world =>
        cases outcome with
        | error error => exact ⟨List.prefix_append .., nofun⟩
        | ok => exact ih { tally with started := tally.started ++ [(name, task)], world }

/-- What ends a run is a name that no target has, or the task that has been started last. -/
theorem carryOut_error {error : TaskError} (duties : List (Duty World)) (tally : Tally World)
    (ended : (graph.carryOut duties tally).2 = .error error) :
    (∃ name, .enter name ∈ duties ∧ graph.target? name = none ∧ error = .unknownTarget name) ∨
      ∃ name task view world,
        (graph.carryOut duties tally).1.started.getLast? = some (name, task) ∧
          (task.perform view world).1 = .error error := by
  induction duties generalizing tally with
  | nil => cases ended
  | cons duty rest ih =>
    cases duty with
    | enter name =>
      unfold carryOut at ended ⊢
      split at ended
      next present =>
        rw [if_pos present]
        refine (ih _ ended).imp_left ?_
        rintro ⟨other, listed, absent, same⟩
        exact ⟨other, .tail _ listed, absent, same⟩
      next absent =>
        cases ended
        exact .inl ⟨name, .head _, Option.not_isSome_iff_eq_none.mp absent, rfl⟩
    | perform name task =>
      unfold carryOut at ended ⊢
      cases done : task.perform (graph.taken .running tally.entered).view tally.world with
      | mk outcome world =>
        rw [done] at ended
        cases outcome with
        | error other =>
          cases ended
          exact .inr ⟨name, task, _, _, List.getLast?_concat, congrArg Prod.fst done⟩
        | ok =>
          refine (ih _ ended).imp_left ?_
          rintro ⟨other, listed, absent, same⟩
          exact ⟨other, .tail _ listed, absent, same⟩

theorem duties_tasks (stops : List Stop) : (stops.flatMap graph.duties).filterMap Duty.task? =
    (stops.filterMap Stop.left?).flatMap fun name => (graph.pending name).map (name, ·) := by
  induction stops with
  | nil => rfl
  | cons stop rest ih =>
    rw [List.flatMap_cons, List.filterMap_append, ih]
    cases stop with
    | enter name => rfl
    | leave name =>
      have here : (graph.duties (.leave name)).filterMap Duty.task? =
          (graph.pending name).map (name, ·) := by
        simp [duties, Duty.task?, Function.comp_def]
      rw [here]
      rfl

/-- The tasks that a run starts are those that are due, up to where it is cut off. -/
theorem report_started (world : World) : (graph.report world).1.started <+: graph.dueTasks ∧
    ((graph.report world).2 = .ok () → (graph.report world).1.started = graph.dueTasks) := by
  have due : (graph.ahead [] [.enter rootName]).filterMap Duty.task? = graph.dueTasks :=
    duties_tasks _
  have started := @carryOut_started World graph (graph.ahead [] [.enter rootName]) { world }
  rw [List.nil_append, due] at started
  exact started

/-- A run that fails has come to a target that is missing, or the last task it has started has failed. -/
theorem report_error {world : World} {error : TaskError}
    (ended : (graph.report world).2 = .error error) :
    (∃ name, graph.Reachable rootName name ∧ graph.target? name = none ∧
      error = .unknownTarget name) ∨
    ∃ name task view before, (graph.report world).1.started.getLast? = some (name, task) ∧
      (task.perform view before).1 = .error error := by
  refine (carryOut_error _ _ ended).imp_left ?_
  rintro ⟨name, due, absent, same⟩
  refine ⟨name, ?_, absent, same⟩
  obtain ⟨stop, toured, duty⟩ := List.mem_flatMap.mp due
  cases stop with
  | enter other =>
    cases List.mem_singleton.mp duty
    refine reachable_of_entered (fun other aim => ?_) name (List.mem_filterMap.mpr ⟨_, toured, rfl⟩)
    cases List.mem_singleton.mp aim
    exact .refl
  | leave other =>
    obtain ⟨task, _, different⟩ := List.mem_map.mp duty
    cases different

end Graph

end Report

end CompositeKeys.Tasks
