import CompositeKeys.Proofs.Refusal
import CompositeKeys.Tasks.Graph

/-! What operations do to the targets of a graph. Once a graph has been set running, has ended or has
been dropped, no operation changes what a target depends on or has to do. -/

namespace CompositeKeys.Tasks

variable {Entry : Type}

theorem lookup_cons (entries : List (String × Entry)) (key name : String) (value : Entry) :
    ((key, value) :: entries).lookup name =
      if name = key then some value else entries.lookup name := by
  rw [List.lookup_cons]
  by_cases same : name = key
  · simp [same]
  · simp [same, beq_false_of_ne same]

theorem lookup_map_update (entries : List (String × Entry)) (name other : String)
    (change : Entry → Entry) :
    (entries.map fun entry => if entry.1 = name then (name, change entry.2) else entry).lookup
        other =
      if other = name then (entries.lookup name).map change else entries.lookup other := by
  induction entries with
  | nil => simp
  | cons entry entries ih =>
    rcases entry with ⟨key, value⟩
    rw [List.map_cons]
    by_cases here : key = name
    · subst here
      by_cases found : other = key <;> simp [lookup_cons, ih, found]
    · by_cases sought : other = name
      · subst sought
        simp [lookup_cons, ih, here, Ne.symm here]
      · simp [lookup_cons, ih, here, sought]

namespace Graph

variable {Task : Type} {graph next : Graph Task}

/-- Targets stand in the order of their names, which are distinct. -/
def Sorted (targets : List (String × Target Task)) : Prop :=
  targets.Pairwise fun first second => first.1 < second.1

/-- The tasks of a target that have not been taken out of the graph. -/
def pending (graph : Graph Task) (name : String) : List Task :=
  ((graph.target? name).map Target.tasks).getD []

/-- What a target has been made to depend on. -/
def declared (graph : Graph Task) (name : String) : Option (List String) :=
  (graph.target? name).map Target.subtargets

/-- Whether declaring is over for good. -/
def Settled (graph : Graph Task) : Prop :=
  graph.isDropped = true ∨ graph.status ∉ [.notStarted, .ready]

theorem updateTarget_target? (name other : String) (change : Target Task → Target Task) :
    (graph.updateTarget name change).target? other =
      if other = name then (graph.target? name).map change else graph.target? other :=
  lookup_map_update graph.targets name other change

theorem updateTarget_sorted (name : String) (change : Target Task → Target Task)
    (sorted : Sorted graph.targets) : Sorted (graph.updateTarget name change).targets := by
  unfold Sorted updateTarget
  rw [List.pairwise_map]
  refine sorted.imp fun {first second} before => ?_
  split <;> split <;> simp_all

theorem insertTarget_sorted {name : String} {targets : List (String × Target Task)}
    (sorted : Sorted targets) : Sorted (insertTarget name targets) ∧
      ∀ entry ∈ insertTarget name targets, entry.1 = name ∨ entry ∈ targets := by
  induction targets with
  | nil => exact ⟨List.pairwise_singleton .., by simp [insertTarget]⟩
  | cons first rest ih =>
    obtain ⟨least, sortedRest⟩ := List.pairwise_cons.mp sorted
    obtain ⟨inserted, members⟩ := ih sortedRest
    unfold insertTarget
    split
    · exact ⟨sorted, fun entry member => .inr member⟩
    next other =>
      split
      next before =>
        refine ⟨List.pairwise_cons.mpr ⟨?_, sorted⟩, ?_⟩
        · intro entry member
          rcases List.mem_cons.mp member with rfl | later
          · exact before
          · exact String.lt_trans before (least entry later)
        · intro entry member
          exact (List.mem_cons.mp member).imp_left fun same => by rw [same]
      next after =>
        have above : first.1 < name := String.not_le.mp fun below =>
          other (String.le_antisymm below (String.not_lt.mp after))
        refine ⟨List.pairwise_cons.mpr ⟨?_, inserted⟩, ?_⟩
        · intro entry member
          rcases members entry member with same | later
          · exact same ▸ above
          · exact least entry later
        · intro entry member
          rcases List.mem_cons.mp member with rfl | later
          · exact .inr (.head _)
          · exact (members entry later).imp_right (.tail _)

/-- Looking up a name after it has been entered finds what was there, or an empty target. -/
theorem insertTarget_lookup {name : String} {targets : List (String × Target Task)}
    (sorted : Sorted targets) (other : String) :
    (insertTarget name targets).lookup other =
      if other = name then some ((targets.lookup name).getD {}) else targets.lookup other := by
  induction targets with
  | nil => simp [insertTarget, lookup_cons]
  | cons first rest ih =>
    rcases first with ⟨key, target⟩
    obtain ⟨least, sortedRest⟩ := List.pairwise_cons.mp sorted
    unfold insertTarget
    split
    next same =>
      subst same
      by_cases found : other = name <;> simp [lookup_cons, found]
    next apart =>
      split
      next before =>
        have absent : ((key, target) :: rest).lookup name = none := by
          rw [List.lookup_eq_none_iff]
          intro entry member
          rw [bne_iff_ne]
          rcases List.mem_cons.mp member with rfl | later
          · exact apart
          · exact String.ne_of_lt (String.lt_trans before (least entry later))
        rw [absent, lookup_cons]
        rfl
      · by_cases found : other = name
        · subst found
          simp [lookup_cons, ih sortedRest, show other ≠ key from apart]
        · simp [lookup_cons, ih sortedRest, found]

/-- A graph after a change that takes no task away and, once declaring is over, changes nothing of
what has been declared. -/
structure Extends (graph next : Graph Task) : Prop where
  sorted : Sorted next.targets
  pending : ∀ name, next.pending name = graph.pending name
  settled : graph.Settled → next.Settled
  declared : graph.Settled → ∀ name subtargets, graph.declared name = some subtargets →
    next.declared name = some subtargets

theorem extends_of_targets (sorted : Sorted graph.targets) (same : next.targets = graph.targets)
    (settled : graph.Settled → next.Settled) : graph.Extends next := by
  have found : ∀ name, next.target? name = graph.target? name := by
    intro name
    rw [target?, same, target?]
  refine ⟨same ▸ sorted, fun name => ?_, settled, fun _ name subtargets => ?_⟩
  · simp only [pending, found]
  · simp only [declared, found]
    exact id

theorem create_extends (sorted : Sorted graph.targets) (name : String) :
    graph.Extends (graph.create name) := by
  unfold create
  split
  · exact extends_of_targets sorted rfl id
  · have found : ∀ other, target? { graph with targets := insertTarget name graph.targets } other =
        if other = name then some ((graph.target? name).getD {}) else graph.target? other :=
      insertTarget_lookup sorted
    refine ⟨(insertTarget_sorted sorted).1, fun other => ?_, id, fun _ other subtargets held => ?_⟩
    · simp only [pending, found]
      split
      next same =>
        subst same
        cases graph.target? other <;> rfl
      · rfl
    · simp only [declared, found] at held ⊢
      split
      next same =>
        subst same
        cases present : graph.target? other with
        | none => simp [present] at held
        | some target => simpa [present] using held
      · exact held

theorem update_extends {name : String} {change : Target Task → Target Task}
    (sorted : Sorted graph.targets) (tasks : ∀ target, (change target).tasks = target.tasks)
    (unsettled : ¬ graph.Settled) : graph.Extends (graph.updateTarget name change) := by
  refine ⟨updateTarget_sorted name change sorted, fun other => ?_, (unsettled · |>.elim),
    (unsettled · |>.elim)⟩
  simp only [pending, updateTarget_target?]
  split
  next same =>
    subst same
    cases graph.target? other <;> simp [tasks]
  · rfl

theorem requireStatus_ok {expected : Status} :
    graph.requireStatus expected = .ok () ↔ graph.status = expected := by
  unfold requireStatus
  split <;> simp [*]

theorem held_ok {name : String} {target : Target Task} :
    graph.held name = .ok target ↔ graph.isDropped = false ∧ graph.target? name = some target := by
  unfold held
  cases graph.isDropped <;> cases graph.target? name <;> simp

/-- Tasks are added before a graph is ready, and to a target that is there. -/
theorem addTask_ok {name : String} {task : Task} (added : graph.addTask name task = .ok next) :
    ¬ graph.Settled ∧ (graph.target? name).isSome = true ∧
      next = graph.updateTarget name fun target => { target with tasks := target.tasks ++ [task] } := by
  obtain ⟨target, found, rest⟩ := bind_eq_ok.mp added
  obtain ⟨_, early, same⟩ := bind_eq_ok.mp rest
  obtain ⟨kept, present⟩ := held_ok.mp found
  refine ⟨?_, by simp [present], (pure_eq_ok.mp same).symm⟩
  simp [Settled, kept, requireStatus_ok.mp early]

private theorem open_of_status {name : String} {target : Target Task} {expected : Status}
    (found : graph.held name = .ok target) (early : graph.requireStatus expected = .ok ())
    (declaring : expected ∈ [.notStarted, .ready]) : ¬ graph.Settled := by
  obtain ⟨kept, _⟩ := held_ok.mp found
  rintro (dropped | past)
  · cases kept.symm.trans dropped
  · exact past (requireStatus_ok.mp early ▸ declaring)

theorem operate?_extends {operation : Operation Task} (sorted : Sorted graph.targets)
    (accepted : graph.operate? operation = .ok next)
    (other : ∀ name task, operation ≠ .addTask name task) : graph.Extends next := by
  cases operation with
  | create name =>
    cases accepted
    exact create_extends sorted name
  | markReady =>
    obtain ⟨_, early, same⟩ := bind_eq_ok.mp accepted
    cases pure_eq_ok.mp same
    refine extends_of_targets sorted rfl ?_
    rintro (dropped | past)
    · exact .inl dropped
    · simp [requireStatus_ok.mp early] at past
  | markClosed =>
    simp only [operate?, markClosed] at accepted
    split at accepted
    · cases accepted
    · cases accepted
      exact extends_of_targets sorted rfl fun _ => .inr (by simp)
  | describe name text =>
    obtain ⟨target, found, rest⟩ := bind_eq_ok.mp accepted
    obtain ⟨_, early, last⟩ := bind_eq_ok.mp rest
    split at last
    · cases last
    · cases pure_eq_ok.mp last
      exact update_extends sorted (fun _ => rfl) (open_of_status found early (by simp))
  | depend name subtarget =>
    simp only [operate?, depend] at accepted
    split at accepted
    · cases accepted
    split at accepted
    · cases accepted
    obtain ⟨target, found, rest⟩ := bind_eq_ok.mp accepted
    obtain ⟨_, early, last⟩ := bind_eq_ok.mp rest
    split at last
    · cases last
    split at last
    · cases last
    cases pure_eq_ok.mp last
    refine update_extends sorted (fun _ => rfl) (open_of_status found early ?_)
    split <;> simp
  | addTask name task => exact (other name task rfl).elim

end Graph

end CompositeKeys.Tasks
