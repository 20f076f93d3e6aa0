import CompositeKeys.Proofs.Tasks.Reachability
import CompositeKeys.Proofs.Tasks.Steps

/-! Dependencies never form a cycle. Every graph that moves can lead to is layered: one target is only
ever made to depend on another if no path leads back, and this is the only reason for which a
dependency is refused as a cycle. -/

namespace CompositeKeys.Tasks
open Relation

/-- Makes a target depend on one more. -/
def Target.needing {Task : Type} (subtarget : String) (target : Target Task) : Target Task :=
  { target with subtargets := target.subtargets ++ [subtarget] }

namespace Graph

variable {Task : Type} {graph next : Graph Task}

/-- What holds of the dependencies of any graph. -/
structure Layered (graph : Graph Task) : Prop where
  sorted : Sorted graph.targets
  rooted : (graph.target? rootName).isSome = true
  acyclic : ∀ name, ¬ TransGen graph.Needs name name
  rootless : ∀ name, rootName ∉ graph.subtargets name
  distinct : ∀ name, (graph.subtargets name).Nodup

/-- A change that leaves all dependencies as they are. -/
theorem Layered.of_same (layered : graph.Layered) (sorted : Sorted next.targets)
    (held : ∀ name, (graph.target? name).isSome = true → (next.target? name).isSome = true)
    (same : ∀ name, next.subtargets name = graph.subtargets name) : next.Layered := by
  have needs : next.Needs = graph.Needs := by
    funext name subtarget
    exact congrArg (subtarget ∈ ·) (same name)
  refine ⟨sorted, held rootName layered.rooted, ?_, ?_, ?_⟩
  · exact needs ▸ layered.acyclic
  · exact fun name => same name ▸ layered.rootless name
  · exact fun name => same name ▸ layered.distinct name

theorem Layered.of_targets (layered : graph.Layered) (same : next.targets = graph.targets) :
    next.Layered := by
  have found : next.target? = graph.target? := by
    funext name
    rw [target?, target?, same]
  refine layered.of_same (same ▸ layered.sorted) (fun name => found ▸ id) fun name => ?_
  rw [subtargets, subtargets, found]

theorem updateTarget_isSome {name : String} {change : Target Task → Target Task} (other : String) :
    ((graph.updateTarget name change).target? other).isSome = (graph.target? other).isSome := by
  rw [updateTarget_target?]
  split
  next same => rw [same, Option.isSome_map]
  · rfl

theorem updateTarget_targetNames (name : String) (change : Target Task → Target Task) :
    (graph.updateTarget name change).targetNames = graph.targetNames := by
  unfold targetNames updateTarget
  rw [List.map_map]
  refine List.map_congr_left fun entry _ => ?_
  show (if entry.1 = name then (name, _) else entry).1 = entry.1
  split
  next same => exact same.symm
  · rfl

theorem updateTarget_subtargets {name : String} {change : Target Task → Target Task}
    (kept : ∀ target, (change target).subtargets = target.subtargets) (other : String) :
    (graph.updateTarget name change).subtargets other = graph.subtargets other := by
  rw [subtargets, subtargets, updateTarget_target?]
  split
  next same =>
    subst same
    cases graph.target? other <;> simp [kept]
  · rfl

theorem Layered.update (layered : graph.Layered) {name : String}
    {change : Target Task → Target Task}
    (kept : ∀ target, (change target).subtargets = target.subtargets) :
    (graph.updateTarget name change).Layered :=
  layered.of_same (updateTarget_sorted name change layered.sorted)
    (fun other present => (updateTarget_isSome other).trans present) (updateTarget_subtargets kept)

theorem create_target? (sorted : Sorted graph.targets) (alive : graph.isDropped = false)
    (name other : String) :
    (graph.create name).target? other =
      if other = name then some ((graph.target? name).getD {}) else graph.target? other := by
  simp only [create, alive, Bool.false_eq_true, if_false]
  exact insertTarget_lookup sorted other

theorem Layered.create (layered : graph.Layered) (name : String) : (graph.create name).Layered := by
  cases alive : graph.isDropped with
  | true =>
    have same : graph.create name = graph := by simp [Graph.create, alive]
    exact same.symm ▸ layered
  | false =>
    have found := create_target? layered.sorted alive name
    refine layered.of_same (create_extends layered.sorted name).sorted ?_ ?_
    · intro other present
      rw [found]
      split
      · rfl
      · exact present
    · intro other
      rw [subtargets, subtargets, found]
      split
      next same =>
        subst same
        cases graph.target? other <;> rfl
      · rfl

/-- One target depends on one more, and nothing else has changed. -/
structure Adds (graph next : Graph Task) (name subtarget : String) : Prop where
  status : next.status = graph.status
  isDropped : next.isDropped = graph.isDropped
  targetNames : next.targetNames = graph.targetNames
  target? : ∀ other, next.target? other =
    if other = name then (graph.target? name).map (Target.needing subtarget)
    else graph.target? other

section Depend

variable {name subtarget : String} {target : Target Task}

theorem adds_needing : graph.Adds (graph.updateTarget name (Target.needing subtarget)) name subtarget := by
  exact ⟨rfl, rfl, updateTarget_targetNames name _, fun other => updateTarget_target? name other _⟩

/-- Where nothing else speaks against a dependency, it is refused only if it would close a cycle. -/
theorem depend_of_held (alive : graph.isDropped = false) (found : graph.target? name = some target)
    (status : graph.status = if name = rootName then .ready else .notStarted)
    (other : subtarget ≠ name) (plain : subtarget ≠ rootName)
    (fresh : subtarget ∉ target.subtargets) :
    graph.depend name subtarget =
      if graph.dependsOn subtarget name then .error (.dependencyCycle name subtarget)
      else .ok (graph.updateTarget name (Target.needing subtarget)) := by
  have held : graph.held name = .ok target := held_ok.mpr ⟨alive, found⟩
  have early : graph.requireStatus (if name = rootName then .ready else .notStarted) = .ok () :=
    requireStatus_ok.mpr status
  simp only [depend, other, plain, if_false, held, early, bind, Except.bind, fresh]
  cases graph.dependsOn subtarget name <;> rfl

theorem depend_ok (accepted : graph.depend name subtarget = .ok next) :
    subtarget ≠ name ∧ subtarget ≠ rootName ∧
      ∃ target, graph.target? name = some target ∧ subtarget ∉ target.subtargets ∧
        graph.dependsOn subtarget name = false ∧
        next = graph.updateTarget name (Target.needing subtarget) := by
  unfold depend at accepted
  obtain ⟨other, accepted⟩ := next_of_refused accepted
  obtain ⟨plain, accepted⟩ := next_of_refused accepted
  obtain ⟨target, held, accepted⟩ := bind_eq_ok.mp accepted
  obtain ⟨_, _, accepted⟩ := bind_eq_ok.mp accepted
  obtain ⟨fresh, accepted⟩ := next_of_refused accepted
  obtain ⟨apart, accepted⟩ := next_of_refused accepted
  refine ⟨other, plain, target, (held_ok.mp held).2, fresh, ?_, (pure_eq_ok.mp accepted).symm⟩
  exact Bool.eq_false_iff.mpr apart

theorem needing_subtargets (found : graph.target? name = some target) (subtarget other : String) :
    (graph.updateTarget name (Target.needing subtarget)).subtargets other =
      if other = name then graph.subtargets name ++ [subtarget] else graph.subtargets other := by
  rw [subtargets, updateTarget_target?]
  split
  · simp [Target.needing, found, subtargets]
  · rfl

theorem Layered.depend (layered : graph.Layered) (accepted : graph.depend name subtarget = .ok next) :
    next.Layered := by
  obtain ⟨other, plain, target, found, fresh, unreached, rfl⟩ := depend_ok accepted
  have listed := needing_subtargets found subtarget
  have needs : (graph.updateTarget name (Target.needing subtarget)).Needs =
      fun one another => graph.Needs one another ∨ one = name ∧ another = subtarget := by
    funext one another
    unfold Needs
    rw [listed]
    by_cases here : one = name <;> simp [here]
  have apart : ¬ graph.Reachable subtarget name := by
    rw [← dependsOn_iff layered.sorted, unreached]
    exact Bool.false_ne_true
  refine ⟨updateTarget_sorted _ _ layered.sorted, ?_, ?_, fun one => ?_, fun one => ?_⟩
  · exact (updateTarget_isSome rootName).trans layered.rooted
  · rw [needs]
    exact acyclic_of_edge layered.acyclic apart
  · rw [listed]
    split
    · simp [layered.rootless name, Ne.symm plain]
    · exact layered.rootless one
  · rw [listed]
    split
    · have unlisted : subtarget ∉ graph.subtargets name := by
        rw [subtargets_of_target? found]
        exact fresh
      rw [List.nodup_append]
      refine ⟨layered.distinct name, List.nodup_singleton subtarget, fun one member another last => ?_⟩
      rintro rfl
      exact unlisted (List.mem_singleton.mp last ▸ member)
    · exact layered.distinct one

end Depend

theorem Layered.operate {operation : Operation Task} (layered : graph.Layered)
    (accepted : graph.operate? operation = .ok next) : next.Layered := by
  cases operation with
  | create name =>
    cases accepted
    exact layered.create name
  | markReady =>
    obtain ⟨_, _, same⟩ := bind_eq_ok.mp accepted
    cases pure_eq_ok.mp same
    exact layered.of_targets rfl
  | markClosed =>
    simp only [operate?, markClosed] at accepted
    split at accepted
    · cases accepted
    · cases accepted
      exact layered.of_targets rfl
  | describe name text =>
    obtain ⟨_, _, accepted⟩ := bind_eq_ok.mp accepted
    obtain ⟨_, _, accepted⟩ := bind_eq_ok.mp accepted
    obtain ⟨_, accepted⟩ := next_of_refused accepted
    cases pure_eq_ok.mp accepted
    exact layered.update fun _ => rfl
  | depend name subtarget => exact layered.depend accepted
  | addTask name task =>
    obtain ⟨_, _, rfl⟩ := addTask_ok accepted
    exact layered.update fun _ => rfl

end Graph

theorem Graph.layered_empty {Task : Type} : (Graph.empty : Graph Task).Layered := by
  have targets : (Graph.empty : Graph Task).targets = [(rootName, {})] := rfl
  have needs : ∀ name, (Graph.empty : Graph Task).subtargets name = [] := by
    intro name
    rw [Graph.subtargets, Graph.target?, targets, lookup_cons]
    split <;> rfl
  refine ⟨List.pairwise_singleton .., rfl, fun name cycle => ?_, fun name => ?_, fun name => ?_⟩
  · obtain ⟨other, step, _⟩ := TransGen.head'_iff.mp cycle
    rw [Graph.Needs, needs] at step
    exact List.not_mem_nil step
  · rw [needs]
    exact List.not_mem_nil
  · rw [needs]
    exact List.nodup_nil

theorem Change.layered {Task : Type} {graph next : Graph Task}
    {told later : List (String × TaskError)} (change : Change graph told next later)
    (layered : graph.Layered) : next.Layered := by
  cases change with
  | kept | orphaned => exact layered
  | operated operation accepted => exact layered.operate accepted
  | opened target =>
    have running : Graph.Layered { graph with status := .running } := layered.of_targets rfl
    exact running.update fun _ => rfl
  | failed => exact layered.of_targets rfl

namespace Machine

variable {World : Type}

theorem move_layered {machine : Machine World} (layered : machine.graph.Layered)
    (move : Move World) : (machine.move move).graph.Layered := by
  by_cases drop : move = .drop
  · subst drop
    exact layered.of_targets rfl
  · exact (move_changes machine drop).layered layered

theorem moves_layered {machine : Machine World} (layered : machine.graph.Layered)
    (moves : List (Move World)) : (machine.moves moves).graph.Layered := by
  induction moves generalizing machine with
  | nil => exact layered
  | cons move moves ih => exact ih (move_layered layered move)

/-- No sequence of moves makes a target depend on itself, through whatever others, or on the root
target, or twice on another one. Where nothing else speaks against a dependency, it is refused
exactly if the target can be reached from the one that it would depend on. -/
theorem dependencies_acyclic (world : World) (moves : List (Move World)) :
    let machine := ({ world } : Machine World).moves moves
    (∀ name, ¬ TransGen machine.graph.Needs name name) ∧
    (∀ name, name ∉ machine.graph.subtargets name ∧ rootName ∉ machine.graph.subtargets name ∧
      (machine.graph.subtargets name).Nodup) ∧
    ∀ name subtarget, machine.graph.isDropped = false →
      (machine.graph.target? name).isSome = true →
      (machine.graph.status = if name = rootName then .ready else .notStarted) →
      subtarget ≠ name → subtarget ≠ rootName → subtarget ∉ machine.graph.subtargets name →
      ((machine.operate (.depend name subtarget)).2 = .error (.dependencyCycle name subtarget) ↔
        machine.graph.Reachable subtarget name) ∧
      (machine.graph.Reachable subtarget name →
        (machine.operate (.depend name subtarget)).1 = machine) ∧
      (¬ machine.graph.Reachable subtarget name → ∃ graph,
        machine.operate (.depend name subtarget) = ({ machine with graph }, .ok ()) ∧
          machine.graph.Adds graph name subtarget) := by
  intro machine
  have layered : machine.graph.Layered := moves_layered Graph.layered_empty moves
  refine ⟨layered.acyclic, fun name => ?_, ?_⟩
  · have other : name ∉ machine.graph.subtargets name :=
      fun listed => layered.acyclic name (.single listed)
    exact ⟨other, layered.rootless name, layered.distinct name⟩
  · intro name subtarget alive present status other plain fresh
    obtain ⟨target, found⟩ := Option.isSome_iff_exists.mp present
    rw [Graph.subtargets_of_target? found] at fresh
    have decided := Graph.depend_of_held alive found status other plain fresh
    rw [← Graph.dependsOn_iff layered.sorted]
    cases back : machine.graph.dependsOn subtarget name with
    | true =>
      have refused : machine.graph.operate? (.depend name subtarget) =
          .error (.dependencyCycle name subtarget) := decided.trans (if_pos back)
      simp [operate, refused]
    | false =>
      have accepted : machine.graph.operate? (.depend name subtarget) =
          .ok (machine.graph.updateTarget name (Target.needing subtarget)) :=
        decided.trans (if_neg (by simp [back]))
      have operated : machine.operate (.depend name subtarget) =
          ({ machine with graph := machine.graph.updateTarget name (Target.needing subtarget) },
            .ok ()) := by
        simp [operate, accepted]
      rw [operated]
      exact ⟨by simp, by simp, fun _ => ⟨_, rfl, Graph.adds_needing⟩⟩

def declaresCar : List (Move Unit) :=
  [.operate (.create "car"), .operate (.create "engine"), .operate (.depend "car" "engine")]

/-- An engine cannot depend on the car that depends on it. -/
theorem dependencies_acyclic_car :
    (({ world := () } : Machine Unit).moves declaresCar).graph.Reachable "car" "engine" ∧
      ((({ world := () } : Machine Unit).moves declaresCar).operate (.depend "engine" "car")).2 =
        .error (.dependencyCycle "engine" "car") := by
  have listed : (({ world := () } : Machine Unit).moves declaresCar).graph.subtargets "car" =
      ["engine"] := by decide +kernel
  have path : (({ world := () } : Machine Unit).moves declaresCar).graph.Reachable "car" "engine" :=
    .single (show "engine" ∈ _ from listed ▸ .head _)
  obtain ⟨refused, _⟩ := (dependencies_acyclic () declaresCar).2.2 "engine" "car" (by decide +kernel)
    (by decide +kernel) (by decide +kernel) (by decide) (by decide) (by decide +kernel)
  exact ⟨path, refused.mpr path⟩

end Machine

end CompositeKeys.Tasks
