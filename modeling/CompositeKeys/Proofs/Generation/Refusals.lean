import CompositeKeys.Proofs.Collection.Declared
import CompositeKeys.Proofs.Generation.Registration

/-! What a refused generator leaves behind. A claim takes several operations, and the last of them can be
refused when the first have been done: the path then has a described target that nobody has claimed, and
whoever asks again is told of the description. All other refusals leave a run as it was. -/

namespace CompositeKeys.Generation
open Files Tasks Emission

section Graph

variable {graph : Tasks.Graph (Program Workspace)} {target : String}

/-- A graph in which a target has been made sure of and has been described. -/
def entered (graph : Tasks.Graph (Program Workspace)) (target className : String) :
    Tasks.Graph (Program Workspace) :=
  (graph.create target).updateTarget target fun node =>
    { node with description := some s!"Generate {className}" }

def description? (graph : Tasks.Graph (Program Workspace)) (target : String) : Option String :=
  (graph.target? target).bind Target.description

/-- Why a target cannot be put under that of the modules, if it is not that target itself. -/
def barrier? (graph : Tasks.Graph (Program Workspace)) (target : String) : Option TaskError :=
  if target = rootName then some (.rootDependency GenerationRun.modulesTarget)
  else if target ∈ graph.subtargets GenerationRun.modulesTarget then
    some (.duplicateDependency GenerationRun.modulesTarget target)
  else if graph.dependsOn target GenerationRun.modulesTarget then
    some (.dependencyCycle GenerationRun.modulesTarget target)
  else none

/-- What holds of the graph of a run, whatever is done to it. -/
structure Founded (graph : Tasks.Graph (Program Workspace)) : Prop where
  layered : graph.Layered
  described : (description? graph GenerationRun.modulesTarget).isSome = true

theorem present_of_described (described : (description? graph target).isSome = true) :
    ∃ node, graph.target? target = some node ∧ node.description.isSome = true := by
  obtain ⟨text, told⟩ := Option.isSome_iff_exists.mp described
  obtain ⟨node, found, same⟩ := Option.bind_eq_some_iff.mp told
  exact ⟨node, found, same ▸ rfl⟩

theorem insertTarget_of_present {targets : List (String × Target (Program Workspace))}
    (sorted : Graph.Sorted targets) (present : target ∈ targets.map Prod.fst) :
    Graph.insertTarget target targets = targets := by
  induction targets with
  | nil => cases present
  | cons entry targets ih =>
    obtain ⟨least, sorted⟩ := List.pairwise_cons.mp sorted
    unfold Graph.insertTarget
    split
    · rfl
    next other =>
      have listed := (List.mem_cons.mp present).resolve_left other
      obtain ⟨later, member, same⟩ := List.mem_map.mp listed
      have above : entry.1 < target := same ▸ least later member
      rw [if_neg (String.lt_asymm above), ih sorted listed]

theorem create_of_present (sorted : Graph.Sorted graph.targets)
    (present : (graph.target? target).isSome = true) : graph.create target = graph := by
  unfold Graph.create
  split
  · rfl
  · rw [insertTarget_of_present sorted (Graph.mem_targetNames present)]

section Entered

variable (sorted : Graph.Sorted graph.targets) (alive : graph.isDropped = false) (className : String)
include sorted alive

theorem entered_target? (name : String) :
    (entered graph target className).target? name =
      if name = target then
        some { (graph.target? target).getD {} with description := some s!"Generate {className}" }
      else graph.target? name := by
  have created := Graph.create_target? sorted alive target
  rw [entered, Graph.updateTarget_target?, created, created, if_pos rfl]
  split <;> rfl

/-- A target that has been entered is known and described, and all else is as it was. -/
theorem entered_subtargets (name : String) :
    (entered graph target className).subtargets name = graph.subtargets name := by
  rw [Graph.subtargets, Graph.subtargets, entered_target? sorted alive]
  split
  next same =>
    rw [same]
    cases graph.target? target <;> rfl
  · rfl

theorem entered_pending (name : String) :
    (entered graph target className).pending name = graph.pending name := by
  rw [Graph.pending, Graph.pending, entered_target? sorted alive]
  split
  next same =>
    rw [same]
    cases graph.target? target <;> rfl
  · rfl

end Entered

theorem entered_layered (layered : graph.Layered) (target className : String) :
    (entered graph target className).Layered :=
  (layered.create target).update fun _ => rfl

theorem entered_same (graph : Tasks.Graph (Program Workspace)) (target className : String) :
    (entered graph target className).status = graph.status ∧
      (entered graph target className).isDropped = graph.isDropped := by
  unfold entered Graph.create
  split <;> exact ⟨rfl, rfl⟩

end Graph

section Claim

variable {machine : Machine Workspace} {target className : String}

theorem operate_addTask (alive : machine.graph.isDropped = false)
    (early : machine.graph.status = .notStarted) (present : (machine.graph.target? target).isSome = true)
    (task : Program Workspace) :
    ∃ next, machine.operate (.addTask target task) = (next, .ok ()) := by
  obtain ⟨node, found⟩ := Option.isSome_iff_exists.mp present
  have held := Graph.held_ok.mpr ⟨alive, found⟩
  have added : machine.graph.operate? (.addTask target task) = .ok (machine.graph.updateTarget target
      fun node => { node with tasks := node.tasks ++ [task] }) := by
    simp only [Graph.operate?, Graph.addTask, held, Graph.requireStatus_ok.mpr early, bind, Except.bind]
    rfl
  rw [Machine.operate, added]
  exact ⟨_, rfl⟩

section Founded

variable (founded : Founded machine.graph) (early : machine.graph.status = .notStarted)
include founded early

theorem claim_described (alive : machine.graph.isDropped = false)
    (described : (description? machine.graph target).isSome = true) :
    operateAll machine (GenerationRun.claimOperations target className) =
      (machine, .error (.descriptionAlreadySet target)) := by
  obtain ⟨node, found, told⟩ := present_of_described described
  have present : (machine.graph.target? target).isSome = true := by
    rw [found]
    rfl
  have created := create_of_present founded.layered.sorted present
  have refused : (machine.graph.create target).operate? (.describe target s!"Generate {className}") =
      .error (.descriptionAlreadySet target) := by
    rw [created]
    exact describe_refused alive early found _ told
  rw [claims_undescribed refused, created]

theorem depend_entered (alive : machine.graph.isDropped = false)
    (other : target ≠ GenerationRun.modulesTarget) :
    (entered machine.graph target className).operate? (.depend GenerationRun.modulesTarget target) =
      match barrier? machine.graph target with
      | some barrier => .error barrier
      | none => .ok ((entered machine.graph target className).updateTarget GenerationRun.modulesTarget
          (Target.needing target)) := by
  have sorted := founded.layered.sorted
  have layered := entered_layered founded.layered target className
  obtain ⟨status, dropped⟩ := entered_same machine.graph target className
  obtain ⟨node, found, _⟩ := present_of_described founded.described
  have kept : (entered machine.graph target className).target? GenerationRun.modulesTarget = some node := by
    rw [entered_target? sorted alive, if_neg other.symm]
    exact found
  have needs : (entered machine.graph target className).Reachable = machine.graph.Reachable := by
    unfold Graph.Reachable
    congr 1
    funext name subtarget
    rw [Graph.Needs, Graph.Needs, entered_subtargets sorted alive]
  have leads : (entered machine.graph target className).dependsOn target GenerationRun.modulesTarget =
      machine.graph.dependsOn target GenerationRun.modulesTarget := by
    rw [Bool.eq_iff_iff, Graph.dependsOn_iff layered.sorted, Graph.dependsOn_iff sorted, needs]
  have held : (entered machine.graph target className).held GenerationRun.modulesTarget = .ok node :=
    Graph.held_ok.mpr ⟨dropped.trans alive, kept⟩
  have unstarted : (entered machine.graph target className).requireStatus .notStarted = .ok () :=
    Graph.requireStatus_ok.mpr (status.trans early)
  by_cases root : target = rootName
  · rw [barrier?, if_pos root, root]
    rfl
  by_cases listed : target ∈ machine.graph.subtargets GenerationRun.modulesTarget
  · rw [barrier?, if_neg root, if_pos listed]
    rw [Graph.subtargets_of_target? found] at listed
    simp only [Graph.operate?, Graph.depend, other, root, if_false, held, bind, Except.bind,
      show GenerationRun.modulesTarget ≠ rootName by decide, unstarted, listed, if_true]
    rfl
  · rw [barrier?, if_neg root, if_neg listed, ← leads]
    rw [Graph.subtargets_of_target? found] at listed
    have decided := Graph.depend_of_held (dropped.trans alive) kept
      ((status.trans early).trans (if_neg (by decide)).symm) other root listed
    refine decided.trans ?_
    cases (entered machine.graph target className).dependsOn target GenerationRun.modulesTarget <;> rfl

/-- All that the operations of a claim can come to. -/
theorem claimOperations_eq :
    operateAll machine (GenerationRun.claimOperations target className) =
      if machine.graph.isDropped then (machine, .error (.graphDropped target))
      else if (description? machine.graph target).isSome then
        (machine, .error (.descriptionAlreadySet target))
      else match barrier? machine.graph target with
        | some barrier =>
          ({ machine with graph := entered machine.graph target className }, .error barrier)
        | none =>
          ({ machine with
              graph := (entered machine.graph target className).updateTarget GenerationRun.modulesTarget
                (Target.needing target) }, .ok ()) := by
  split
  next dropped =>
    have created : machine.graph.create target = machine.graph := by simp [Graph.create, dropped]
    have refused : (machine.graph.create target).operate? (.describe target s!"Generate {className}") =
        .error (.graphDropped target) := by
      simp only [created, Graph.operate?, Graph.describe, Graph.held, dropped, if_true, bind, Except.bind]
    rw [claims_undescribed refused, created]
  next held =>
  have alive : machine.graph.isDropped = false := Bool.eq_false_iff.mpr held
  split
  next described => exact claim_described founded early alive described
  next undescribed =>
  have sorted := founded.layered.sorted
  have other : target ≠ GenerationRun.modulesTarget := by
    rintro rfl
    exact undescribed founded.described
  have accepted : (machine.graph.create target).operate? (.describe target s!"Generate {className}") =
      .ok (entered machine.graph target className) := by
    have created := holds_create founded.layered alive early target
    have found : (machine.graph.create target).target? target =
        some ((machine.graph.target? target).getD {}) := by
      rw [created.target?, if_pos rfl]
    have bare : ((machine.graph.target? target).getD {}).description = none := by
      have none := Option.not_isSome_iff_eq_none.mp undescribed
      unfold description? at none
      cases node : machine.graph.target? target with
      | none => rfl
      | some node => rwa [node] at none
    have held : (machine.graph.create target).held target = .ok ((machine.graph.target? target).getD {}) :=
      Graph.held_ok.mpr ⟨created.alive, found⟩
    simp only [Graph.operate?, Graph.describe, held, Graph.requireStatus_ok.mpr created.early, bind,
      Except.bind, bare]
    rfl
  have present : ((entered machine.graph target className).target? GenerationRun.modulesTarget).isSome =
      true := by
    obtain ⟨node, found, _⟩ := present_of_described founded.described
    rw [entered_target? sorted alive, if_neg other.symm, found]
    rfl
  have again := create_of_present (entered_layered founded.layered target className).sorted present
  have decided := @depend_entered machine target className founded early alive other
  rw [claims_described accepted, again]
  cases blocked : barrier? machine.graph target with
  | some barrier =>
    rw [blocked] at decided
    exact operateAll_error decided []
  | none =>
    rw [blocked] at decided
    exact operateAll_ok decided (by simp) []

end Founded

end Claim

namespace GenerationRun

/-- A run in which the path of a module has been entered as a target, and no more. -/
def marked (run : GenerationRun) (builder : Builder) (output : FilePath) : GenerationRun :=
  { run with
    machine := { run.machine with graph := entered run.machine.graph output.text builder.className } }

/-- When a generator is refused with its claim half made: nobody has claimed or described its path, but
the path cannot be put under the target of the modules. -/
structure HalfClaims (run : GenerationRun) (builder : Builder) (output : FilePath) (barrier : TaskError) :
    Prop where
  locked : builder.isLocked = true
  named : output.fileName?.isSome = true
  unclaimed : run.claim? output = none
  early : run.status = .notStarted
  alive : run.machine.graph.isDropped = false
  undescribed : description? run.machine.graph output.text = none
  barred : barrier? run.machine.graph output.text = some barrier

end GenerationRun

section Register

variable {run next : GenerationRun} {builder : Builder} {output : FilePath} {options : CompileOptions}
  {error : GenerationError}

theorem register_of_claim_error (locked : builder.isLocked = true)
    (named : output.fileName?.isSome = true)
    (claimed : run.claim output builder.className = (next, .error error)) :
    Generator.register builder output options run = (next, .error error) := by
  have unnamed : output.fileName?.isNone = false := by
    rw [Option.isNone_eq_false_iff]
    exact named
  simp only [Generator.register, locked, unnamed, claimed]
  rfl

theorem Founded.stays {graph : Tasks.Graph (Program Workspace)} (founded : Founded graph)
    (alive : graph.isDropped = false) (target className : String) :
    Founded (entered graph target className) := by
  refine ⟨entered_layered founded.layered target className, ?_⟩
  rw [description?, entered_target? founded.layered.sorted alive]
  split
  · rfl
  · exact founded.described

variable (founded : Founded run.machine.graph)
include founded

section HalfClaims

variable {barrier : TaskError} (half : run.HalfClaims builder output barrier)
include half

theorem Founded.half_claims :
    Generator.register builder output options run =
      (run.marked builder output, .error (.task barrier)) := by
  obtain ⟨locked, named, unclaimed, early, alive, undescribed, barred⟩ := half
  have operated := @claimOperations_eq run.machine output.text builder.className founded early
  rw [alive, undescribed, barred] at operated
  refine register_of_claim_error locked named ?_
  simp only [GenerationRun.claim, unclaimed, early, ne_eq, not_true_eq_false, if_false, operated]
  rfl

/-- What has been entered and described is refused again, for its description. -/
theorem Founded.marked_described :
    Generator.register builder output options (run.marked builder output) =
      (run.marked builder output, .error (.task (.descriptionAlreadySet output.text))) := by
  obtain ⟨locked, named, unclaimed, early, alive, _, _⟩ := half
  obtain ⟨status, dropped⟩ := entered_same run.machine.graph output.text builder.className
  have still : (run.marked builder output).status = .notStarted := status.trans early
  have described : description? (run.marked builder output).machine.graph output.text =
      some s!"Generate {builder.className}" := by
    show description? (entered run.machine.graph output.text builder.className) output.text = _
    rw [description?, entered_target? founded.layered.sorted alive, if_pos rfl]
    rfl
  have operated := @claim_described (run.marked builder output).machine output.text builder.className
    (founded.stays alive _ _) still (dropped.trans alive) (by rw [described]; rfl)
  refine register_of_claim_error locked named ?_
  have unknown : (run.marked builder output).claim? output = none := unclaimed
  simp only [GenerationRun.claim, unknown, still, ne_eq, not_true_eq_false, if_false, operated]

end HalfClaims

/-- What a claim can come to. -/
inductive Claimed (run : GenerationRun) (output : FilePath) (className : String) :
    GenerationRun × Except GenerationError (Claim × Bool) → Prop where
  | known (claim : Claim) (found : run.claim? output = some claim) :
      Claimed run output className (run, .ok (claim, false))
  | refused (error : GenerationError) : Claimed run output className (run, .error error)
  | halved (barrier : TaskError) (unclaimed : run.claim? output = none) (early : run.status = .notStarted)
      (alive : run.machine.graph.isDropped = false)
      (undescribed : description? run.machine.graph output.text = none)
      (barred : barrier? run.machine.graph output.text = some barrier) :
      Claimed run output className
        ({ run with machine := { run.machine with graph := entered run.machine.graph output.text className } },
          .error (.task barrier))
  | owned (unclaimed : run.claim? output = none) (early : run.status = .notStarted)
      (alive : run.machine.graph.isDropped = false)
      (undescribed : description? run.machine.graph output.text = none) :
      Claimed run output className
        ({ run with
            machine := { run.machine with
              graph := (entered run.machine.graph output.text className).updateTarget
                GenerationRun.modulesTarget (Target.needing output.text) }
            known := insertPath output ⟨className, output.text⟩ run.known },
          .ok (⟨className, output.text⟩, true))

theorem Founded.claimed (output : FilePath) (className : String) :
    Claimed run output className (run.claim output className) := by
  unfold GenerationRun.claim
  split
  next claim found => exact .known claim found
  next unclaimed =>
  split
  · exact .refused _
  next unstarted =>
  have early : run.machine.graph.status = .notStarted := Classical.not_not.mp unstarted
  rw [claimOperations_eq founded early]
  cases alive : run.machine.graph.isDropped with
  | true => exact .refused _
  | false =>
    cases undescribed : description? run.machine.graph output.text with
    | some text => exact .refused _
    | none =>
      cases barred : barrier? run.machine.graph output.text with
      | some barrier => exact .halved barrier unclaimed early alive undescribed barred
      | none => exact .owned unclaimed early alive undescribed

/-- A claimed path takes the task of writing it. -/
theorem Founded.claimed_adds {claim : Claim} (claimed : run.claim output builder.className =
    (next, .ok (claim, true))) (task : Program Workspace) :
    ∃ machine, next.machine.operate (.addTask claim.target task) = (machine, .ok ()) := by
  have outcome := founded.claimed output builder.className
  rw [claimed] at outcome
  cases outcome with
  | owned unclaimed early alive undescribed =>
    obtain ⟨status, dropped⟩ := entered_same run.machine.graph output.text builder.className
    refine operate_addTask (dropped.trans alive) (status.trans early) ?_ task
    rw [Graph.updateTarget_isSome, entered_target? founded.layered.sorted alive, if_pos rfl]
    rfl

theorem Founded.refused (refused : Generator.register builder output options run = (next, .error error)) :
    next = run ∨ ∃ barrier, run.HalfClaims builder output barrier := by
  unfold Generator.register at refused
  split at refused
  · cases refused
    exact .inl rfl
  next locked =>
  split at refused
  · cases refused
    exact .inl rfl
  next named =>
  split at refused
  next claimed =>
    cases refused
    have outcome := founded.claimed output builder.className
    rw [claimed] at outcome
    cases outcome with
    | refused => exact .inl rfl
    | halved barrier unclaimed early alive undescribed barred =>
      refine .inr ⟨barrier, ?_, ?_, unclaimed, early, alive, undescribed, barred⟩
      · simpa using locked
      · simpa [← Option.isSome_iff_ne_none] using named
  · cases refused
  next claimed =>
    obtain ⟨machine, added⟩ := founded.claimed_adds claimed _
    dsimp only at refused
    rw [added] at refused
    cases refused

end Register

section Founded

variable {graph next : Tasks.Graph (Program Workspace)} {target : String}

theorem described_update {name : String} {change : Target (Program Workspace) → Target (Program Workspace)}
    (kept : ∀ node, node.description.isSome = true → (change node).description.isSome = true)
    (described : (description? graph target).isSome = true) :
    (description? (graph.updateTarget name change) target).isSome = true := by
  obtain ⟨node, found, told⟩ := present_of_described described
  rw [description?, Graph.updateTarget_target?]
  split
  next same =>
    rw [← same, found]
    exact kept node told
  · exact described

theorem described_of_targets (same : next.targets = graph.targets)
    (described : (description? graph target).isSome = true) :
    (description? next target).isSome = true := by
  rw [description?, Graph.target?, same]
  exact described

theorem Founded.operate {operation : Operation (Program Workspace)} (founded : Founded graph)
    (accepted : graph.operate? operation = .ok next) : Founded next := by
  refine ⟨founded.layered.operate accepted, ?_⟩
  have described := founded.described
  cases operation with
  | create name =>
    cases accepted
    cases alive : graph.isDropped with
    | true =>
      have same : graph.create name = graph := by simp [Graph.create, alive]
      rw [same]
      exact described
    | false =>
      obtain ⟨node, found, told⟩ := present_of_described described
      rw [description?, Graph.create_target? founded.layered.sorted alive]
      split
      next same =>
        rw [← same, found]
        exact told
      · exact described
  | markReady =>
    obtain ⟨_, _, same⟩ := bind_eq_ok.mp accepted
    cases pure_eq_ok.mp same
    exact described
  | markClosed =>
    simp only [Graph.operate?, Graph.markClosed] at accepted
    split at accepted
    · cases accepted
    · cases accepted
      exact described
  | describe name text =>
    obtain ⟨_, _, accepted⟩ := bind_eq_ok.mp accepted
    obtain ⟨_, _, accepted⟩ := bind_eq_ok.mp accepted
    obtain ⟨_, accepted⟩ := next_of_refused accepted
    cases pure_eq_ok.mp accepted
    exact described_update (fun _ _ => rfl) described
  | depend name subtarget =>
    obtain ⟨_, _, _, _, _, _, rfl⟩ := Graph.depend_ok accepted
    exact described_update (fun _ => id) described
  | addTask name task =>
    obtain ⟨_, _, rfl⟩ := Graph.addTask_ok accepted
    exact described_update (fun _ => id) described

theorem Founded.change {told later : List (String × TaskError)} (founded : Founded graph)
    (change : Change graph told next later) : Founded next := by
  refine ⟨change.layered founded.layered, ?_⟩
  cases change with
  | kept | orphaned | failed => exact founded.described
  | operated operation accepted => exact (founded.operate accepted).described
  | opened name =>
    exact described_update (fun _ => id) (described_of_targets rfl founded.described)

variable {machine : Machine Workspace}

theorem Founded.move (founded : Founded machine.graph) (move : Machine.Move Workspace) :
    Founded (machine.move move).graph := by
  by_cases drop : move = .drop
  · subst drop
    exact ⟨founded.layered.of_targets rfl, founded.described⟩
  · exact founded.change (Machine.move_changes machine drop)

theorem Founded.operates {after : Machine Workspace} {operation : Operation (Program Workspace)}
    {outcome : Outcome} (founded : Founded machine.graph)
    (operated : machine.operate operation = (after, outcome)) : Founded after.graph := by
  have moved := founded.move (.operate operation)
  simp only [Machine.move, operated] at moved
  exact moved

theorem Founded.moves (founded : Founded machine.graph) (moves : List (Machine.Move Workspace)) :
    Founded (machine.moves moves).graph := by
  induction moves generalizing machine with
  | nil => exact founded
  | cons move moves ih => exact ih (founded.move move)

theorem Founded.operateAll (founded : Founded machine.graph)
    (operations : List (Operation (Program Workspace))) :
    Founded (operateAll machine operations).1.graph := by
  induction operations generalizing machine with
  | nil => exact founded
  | cons operation rest ih =>
    unfold Generation.operateAll
    split
    next next accepted => exact ih (founded.operates accepted)
    next refused => exact founded.move (.operate operation)

theorem Founded.waitFor (founded : Founded machine.graph) (target : String) (limit : Nat) :
    Founded (machine.waitFor target limit).1.graph := by
  obtain ⟨steps, settled⟩ := Machine.settle_eq_moves limit (machine.start target)
  show Founded ((machine.start target).settle limit).graph
  rw [settled]
  exact (founded.move (.start target)).moves steps

theorem Founded.execute (founded : Founded machine.graph) :
    Founded (GenerationRun.execute machine).1.graph := by
  have waited := founded.waitFor rootName (GenerationRun.stepLimit machine.graph)
  unfold GenerationRun.execute
  split
  next ended =>
    rw [ended] at waited
    exact waited.move (.operate .markClosed)
  next ended =>
    rw [ended] at waited
    exact waited
  next ended =>
    rw [ended] at waited
    exact waited

theorem Founded.launch (founded : Founded machine.graph) :
    Founded (GenerationRun.launch machine).1.graph := by
  have operated := founded.operateAll (.markReady :: GenerationRun.fixedTargets.map (.depend rootName))
  unfold GenerationRun.launch
  split
  next ready accepted =>
    rw [accepted] at operated
    exact operated.execute
  next refused => exact operated

theorem founded_create (root : FilePath) (checker : CheckerSettings) :
    Founded (GenerationRun.create root checker).machine.graph := by
  refine ⟨(planned_create root checker).layered, ?_⟩
  obtain ⟨text, gathers⟩ := (planned_create root checker).gathers
  rw [description?, gathers]
  rfl

end Founded

namespace GenerationRun

/-- What is done to a run from outside: a generator enters it, its graph is worked with, or it is
completed. -/
inductive Act where
  | register (builder : Builder) (output : FilePath) (options : CompileOptions)
  | move (move : Machine.Move Workspace)
  | complete (files : FileTree)

def act (run : GenerationRun) : Act → GenerationRun
  | .register builder output options => (Generator.register builder output options run).1
  | .move move => { run with machine := run.machine.move move }
  | .complete files => (run.complete files).1

def after (run : GenerationRun) (acts : List Act) : GenerationRun := acts.foldl act run

variable {run : GenerationRun}

theorem founded_claim (founded : Founded run.machine.graph) (output : FilePath) (className : String) :
    Founded (run.claim output className).1.machine.graph := by
  have operated := founded.operateAll (claimOperations output.text className)
  unfold claim
  split
  · exact founded
  split
  · exact founded
  split
  next machine error refused =>
    rw [refused] at operated
    exact operated
  next machine accepted =>
    rw [accepted] at operated
    exact operated

theorem founded_register (founded : Founded run.machine.graph) (builder : Builder) (output : FilePath)
    (options : CompileOptions) :
    Founded (Generator.register builder output options run).1.machine.graph := by
  have kept := founded_claim founded output builder.className
  unfold Generator.register
  split
  · exact founded
  split
  · exact founded
  split
  next claimed =>
    rw [claimed] at kept
    exact kept
  next claimed =>
    rw [claimed] at kept
    exact kept
  next claimed =>
    rw [claimed] at kept
    dsimp only
    split
    next machine added =>
      exact kept.operates added
    · exact kept

theorem founded_act (founded : Founded run.machine.graph) (act : Act) :
    Founded (run.act act).machine.graph := by
  cases act with
  | register builder output options => exact founded_register founded builder output options
  | move move => exact founded.move move
  | complete files =>
    show Founded (run.complete files).1.machine.graph
    unfold complete
    split
    · exact founded
    · exact @Founded.launch { run.machine with world := { run.machine.world with files } } founded

theorem founded_after (founded : Founded run.machine.graph) (acts : List Act) :
    Founded (run.after acts).machine.graph := by
  induction acts generalizing run with
  | nil => exact founded
  | cons act acts ih => exact ih (founded_act founded act)

/-- What a refusal never touches. -/
structure Keeps (before after : GenerationRun) : Prop where
  known : after.known = before.known
  status : after.status = before.status
  subtargets : ∀ name, after.machine.graph.subtargets name = before.machine.graph.subtargets name
  pending : ∀ name, after.machine.graph.pending name = before.machine.graph.pending name

theorem HalfClaims.keeps {builder : Builder} {output : FilePath} {barrier : TaskError}
    (half : run.HalfClaims builder output barrier) (sorted : Graph.Sorted run.machine.graph.targets) :
    run.Keeps (run.marked builder output) := by
  refine ⟨rfl, (entered_same _ _ _).1, ?_, ?_⟩
  · exact entered_subtargets sorted half.alive builder.className
  · exact entered_pending sorted half.alive builder.className

/-- Whatever has been done to a run, a generator that it refuses changes neither the known paths nor
the status, nor what any target depends on or has to do. It leaves the run as it was, and is refused
again in the same way, unless its claim stops half way: then its path has a target with a description
that it did not have before, and the generator is refused for another reason from then on. -/
theorem refused_generator_keeps (root : FilePath) (checker : CheckerSettings) (acts : List Act)
    (builder : Builder) (output : FilePath) (options : CompileOptions) :
    let run := (create root checker).after acts
    (∀ next error, Generator.register builder output options run = (next, .error error) →
      run.Keeps next ∧ (next = run ∨ ∃ barrier, run.HalfClaims builder output barrier)) ∧
    ∀ barrier, run.HalfClaims builder output barrier →
      Generator.register builder output options run =
          (run.marked builder output, .error (.task barrier)) ∧
        description? (run.marked builder output).machine.graph output.text =
          some s!"Generate {builder.className}" ∧
        (∀ name, name ≠ output.text → (run.marked builder output).machine.graph.target? name =
          run.machine.graph.target? name) ∧
        barrier ≠ .descriptionAlreadySet output.text ∧
        Generator.register builder output options (run.marked builder output) =
          (run.marked builder output, .error (.task (.descriptionAlreadySet output.text))) := by
  intro run
  have founded : Founded run.machine.graph := founded_after (founded_create root checker) acts
  have sorted := founded.layered.sorted
  refine ⟨fun next error refused => ?_, fun barrier half => ?_⟩
  · rcases founded.refused refused with rfl | ⟨barrier, half⟩
    · exact ⟨⟨rfl, rfl, fun _ => rfl, fun _ => rfl⟩, .inl rfl⟩
    · cases refused.symm.trans (founded.half_claims half)
      exact ⟨half.keeps sorted, .inr ⟨barrier, half⟩⟩
  · have held := @entered_target? run.machine.graph output.text sorted half.alive builder.className
    refine ⟨founded.half_claims half, ?_, fun name other => (held name).trans (if_neg other), ?_,
      founded.marked_described half⟩
    · exact (congrArg (Option.bind · Target.description) (held output.text)).trans (by rw [if_pos rfl]; rfl)
    · rintro rfl
      have barred := half.barred
      unfold barrier? at barred
      repeat' split at barred
      all_goals cases barred

theorem refused_generator_keeps_cars :
    let cars : Builder := Builder.performAll ⟨⟨.map, .start⟩, .empty "Cars" (.map .strong)⟩
      [.addMapKey "car" "The car." false {}, .lock]
    let run := create ⟨"out"⟩ {}
    run.HalfClaims cars ⟨"main"⟩ (.rootDependency modulesTarget) ∧
      run.Keeps (run.marked cars ⟨"main"⟩) ∧
      (Generator.register cars ⟨"main"⟩ {} (run.marked cars ⟨"main"⟩)).2 =
        .error (.task (.descriptionAlreadySet "main")) := by
  intro cars run
  have half : run.HalfClaims cars ⟨"main"⟩ (.rootDependency modulesTarget) := by
    constructor <;> decide +kernel
  obtain ⟨refusals, halved⟩ := refused_generator_keeps ⟨"out"⟩ {} [] cars ⟨"main"⟩ {}
  obtain ⟨refused, _, _, _, again⟩ := halved _ half
  exact ⟨half, (refusals _ _ refused).1, congrArg Prod.snd again⟩

/-- Cars that are to be written into the path of the root target are refused twice, and not alike. -/
theorem refused_cars_described :
    let cars : Builder := Builder.performAll ⟨⟨.map, .start⟩, .empty "Cars" (.map .strong)⟩
      [.addMapKey "car" "The car." false {}, .lock]
    let run := create ⟨"out"⟩ {}
    let (first, refused) := Generator.register cars ⟨"main"⟩ {} run
    let (_, again) := Generator.register cars ⟨"main"⟩ {} first
    refused = .error (.task (.rootDependency modulesTarget)) ∧
      again = .error (.task (.descriptionAlreadySet rootName)) ∧
      description? run.machine.graph rootName = none ∧
      description? first.machine.graph rootName = some "Generate Cars" := by
  decide +kernel

end GenerationRun

end CompositeKeys.Generation
