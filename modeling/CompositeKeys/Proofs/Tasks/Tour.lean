import CompositeKeys.Proofs.Tasks.Reachability

/-! The depth-first order of a graph. A tour enters each target that can be reached once, and leaves it
behind all that it depends on. -/

namespace CompositeKeys.Tasks
open Relation

inductive Stop where
  | enter (target : String)
  | leave (target : String)

namespace Stop

def entered? : Stop → Option String
  | .enter target => some target
  | .leave _ => none

def left? : Stop → Option String
  | .enter _ => none
  | .leave target => some target

def target : Stop → String
  | .enter target | .leave target => target

def weight : List Stop → Nat
  | [] => 0
  | .enter _ :: rest => 2 + weight rest
  | .leave _ :: rest => 1 + weight rest

theorem weight_enters (names : List String) (agenda : List Stop) :
    weight (names.map .enter ++ agenda) = 2 * names.length + weight agenda := by
  induction names with
  | nil => exact (Nat.zero_add _).symm
  | cons name rest ih =>
    rw [List.map_cons, List.cons_append, weight, ih, List.length_cons]
    omega

theorem enters_left (names : List String) : (names.map Stop.enter).filterMap left? = [] := by
  induction names with
  | nil => rfl
  | cons name rest ih => exact ih

theorem length_below (rest : List String) (target : String) (agenda : List Stop) :
    (rest.map Stop.enter ++ .leave target :: agenda).length = rest.length + (agenda.length + 1) := by
  rw [List.length_append, List.length_map, List.length_cons]

end Stop

namespace Graph

variable {Task : Type} (graph : Graph Task)

/-- The number of edges that lead away from targets that have not been entered. -/
def openEdges (entered : List String) : List (String × Target Task) → Nat
  | [] => 0
  | (name, target) :: rest =>
    (if name ∈ entered then 0 else target.subtargets.length) + openEdges entered rest

theorem openEdges_enter {entered : List String} {name : String} (fresh : name ∉ entered)
    (targets : List (String × Target Task)) :
    openEdges (name :: entered) targets +
        (((targets.lookup name).map Target.subtargets).getD []).length ≤
      openEdges entered targets := by
  induction targets with
  | nil => exact Nat.le_refl _
  | cons entry rest ih =>
    rcases entry with ⟨key, target⟩
    rw [lookup_cons]
    by_cases same : name = key
    · subst same
      simp only [openEdges, List.mem_cons, true_or, if_true, fresh, if_false, Option.map_some,
        Option.getD_some]
      omega
    · simp only [openEdges, List.mem_cons, Ne.symm same, false_or, if_neg same]
      omega

/-- The stops of a depth-first tour that are still ahead, from what is on the agenda on. To enter a
target is to enter all that it depends on, in order, and then to leave it. What has been entered is
passed over. -/
def tour (entered : List String) (agenda : List Stop) : List Stop :=
  match agenda with
  | [] => []
  | .leave name :: rest => .leave name :: tour entered rest
  | .enter name :: rest =>
    if _known : name ∈ entered then tour entered rest
    else .enter name ::
      tour (name :: entered) ((graph.subtargets name).map .enter ++ .leave name :: rest)
termination_by Stop.weight agenda + 2 * openEdges entered graph.targets
decreasing_by
  · rw [Stop.weight]
    omega
  · rw [Stop.weight]
    omega
  · have fewer := openEdges_enter _known graph.targets
    have listed : (graph.subtargets name).length =
        (((graph.targets.lookup name).map Target.subtargets).getD []).length := rfl
    rw [Stop.weight_enters, Stop.weight, Stop.weight]
    omega

/-- The targets that can be reached from the root target, each behind all that it depends on. -/
def postOrder : List String := (graph.tour [] [.enter rootName]).filterMap Stop.left?

variable {graph} {entered : List String} {agenda : List Stop} {name : String}

theorem tour_nil : graph.tour entered [] = [] := by
  rw [tour]

theorem tour_leave :
    graph.tour entered (.leave name :: agenda) = .leave name :: graph.tour entered agenda := by
  rw [tour]

theorem tour_known (known : name ∈ entered) :
    graph.tour entered (.enter name :: agenda) = graph.tour entered agenda := by
  rw [tour, dif_pos known]

theorem tour_enter (fresh : name ∉ entered) :
    graph.tour entered (.enter name :: agenda) = .enter name :: graph.tour (name :: entered)
      ((graph.subtargets name).map .enter ++ .leave name :: agenda) := by
  rw [tour, dif_neg fresh]

/-- Everything that is entered is left, and nothing else but what was to be left anyway. -/
theorem tour_left_perm : List.Perm ((graph.tour entered agenda).filterMap Stop.left?)
    ((graph.tour entered agenda).filterMap Stop.entered? ++ agenda.filterMap Stop.left?) := by
  fun_induction tour graph entered agenda with
  | case1 => exact .refl _
  | case2 entered name rest ih =>
    exact (ih.cons name).trans List.perm_middle.symm
  | case3 entered name rest known ih => exact ih
  | case4 entered name rest fresh ih =>
    rw [List.filterMap_append, Stop.enters_left] at ih
    exact ih.trans List.perm_middle

theorem tour_entered_nodup : ((graph.tour entered agenda).filterMap Stop.entered?).Nodup ∧
    ∀ name ∈ (graph.tour entered agenda).filterMap Stop.entered?, name ∉ entered := by
  fun_induction tour graph entered agenda with
  | case1 => exact ⟨List.nodup_nil, nofun⟩
  | case2 entered name rest ih => exact ih
  | case3 entered name rest known ih => exact ih
  | case4 entered name rest fresh ih =>
    obtain ⟨distinct, apart⟩ := ih
    constructor
    · refine List.nodup_cons.mpr ⟨fun again => ?_, distinct⟩
      exact apart name again (.head _)
    · intro other member
      rcases List.mem_cons.mp member with rfl | later
      · exact fresh
      · exact fun known => apart other later (.tail _ known)

theorem reachable_of_entered {source : String}
    (aims : ∀ name, .enter name ∈ agenda → graph.Reachable source name) :
    ∀ name ∈ (graph.tour entered agenda).filterMap Stop.entered?, graph.Reachable source name := by
  fun_induction tour graph entered agenda with
  | case1 => exact nofun
  | case2 entered name rest ih => exact ih fun other member => aims other (.tail _ member)
  | case3 entered name rest known ih => exact ih fun other member => aims other (.tail _ member)
  | case4 entered name rest fresh ih =>
    have here : graph.Reachable source name := aims name (.head _)
    refine List.forall_mem_cons.mpr ⟨here, ih fun other member => ?_⟩
    rcases List.mem_append.mp member with below | later
    · obtain ⟨_, listed, same⟩ := List.mem_map.mp below
      cases same
      exact here.tail listed
    · rcases List.mem_cons.mp later with left | later
      · cases left
      · exact aims other (.tail _ later)

variable (graph) in
/-- What has been entered by the end of a tour. -/
def Toured (entered : List String) (agenda : List Stop) (name : String) : Prop :=
  name ∈ entered ∨ name ∈ (graph.tour entered agenda).filterMap Stop.entered?

theorem enter_mem_leave {other : String} :
    .enter other ∈ .leave name :: agenda ↔ .enter other ∈ agenda := by
  simp

theorem toured_leave {other : String} :
    graph.Toured entered (.leave name :: agenda) other ↔ graph.Toured entered agenda other := by
  rw [Toured, tour_leave]
  exact .rfl

theorem toured_known (known : name ∈ entered) {other : String} :
    graph.Toured entered (.enter name :: agenda) other ↔ graph.Toured entered agenda other := by
  rw [Toured, tour_known known]
  exact .rfl

theorem toured_enter (fresh : name ∉ entered) {other : String} :
    graph.Toured entered (.enter name :: agenda) other ↔ graph.Toured (name :: entered)
      ((graph.subtargets name).map .enter ++ .leave name :: agenda) other := by
  rw [Toured, tour_enter fresh]
  show other ∈ entered ∨ other ∈ name :: _ ↔ other ∈ name :: entered ∨ _
  rw [List.mem_cons, List.mem_cons]
  exact or_left_comm.trans or_assoc.symm

/-- A tour does not end before it has entered all that is on its agenda and all that the entered
targets depend on. -/
theorem tour_closed (queued : ∀ name ∈ entered, ∀ subtarget ∈ graph.subtargets name,
      subtarget ∈ entered ∨ .enter subtarget ∈ agenda) :
    (∀ name, .enter name ∈ agenda → graph.Toured entered agenda name) ∧
    ∀ name, graph.Toured entered agenda name → ∀ subtarget ∈ graph.subtargets name,
      graph.Toured entered agenda subtarget := by
  fun_induction tour graph entered agenda with
  | case1 entered =>
    refine ⟨nofun, fun name toured subtarget listed => ?_⟩
    have known : name ∈ entered := by simpa [Toured, tour_nil] using toured
    exact .inl ((queued name known subtarget listed).resolve_right nofun)
  | case2 entered name rest ih =>
    simp only [toured_leave]
    simp only [enter_mem_leave] at queued ⊢
    exact ih queued
  | case3 entered name rest known ih =>
    simp only [toured_known known]
    obtain ⟨aims, closed⟩ := ih fun other member subtarget listed => by
      rcases queued other member subtarget listed with seen | later
      · exact .inl seen
      · rcases List.mem_cons.mp later with same | later
        · cases same
          exact .inl known
        · exact .inr later
    refine ⟨fun other member => ?_, closed⟩
    rcases List.mem_cons.mp member with same | later
    · cases same
      exact .inl known
    · exact aims other later
  | case4 entered name rest fresh ih =>
    simp only [toured_enter fresh]
    obtain ⟨aims, closed⟩ := ih fun other member subtarget listed => by
      rcases List.mem_cons.mp member with rfl | earlier
      · exact .inr (List.mem_append_left _ (List.mem_map.mpr ⟨subtarget, listed, rfl⟩))
      · rcases queued other earlier subtarget listed with seen | later
        · exact .inl (.tail _ seen)
        · rcases List.mem_cons.mp later with same | later
          · cases same
            exact .inl (.head _)
          · exact .inr (List.mem_append_right _ (.tail _ later))
    refine ⟨fun other member => ?_, closed⟩
    rcases List.mem_cons.mp member with same | later
    · cases same
      exact .inl (.head _)
    · exact aims other (List.mem_append_right _ (.tail _ later))

section Order

variable (graph) in
/-- Whether all that a target depends on has been entered or is entered ahead of leaving it. -/
def Covered (entered : List String) : List Stop → Prop
  | [] => True
  | .enter name :: rest => Covered (name :: entered) rest
  | .leave name :: rest =>
    (∀ subtarget ∈ graph.subtargets name, subtarget ∈ entered) ∧ Covered entered rest

theorem Covered.mono {more : List String} (covered : graph.Covered entered agenda)
    (grown : entered ⊆ more) : graph.Covered more agenda := by
  induction agenda generalizing entered more with
  | nil => trivial
  | cons stop rest ih =>
    cases stop with
    | enter name => exact ih covered (List.cons_subset_cons name grown)
    | leave name =>
      exact ⟨fun subtarget listed => grown (covered.1 subtarget listed), ih covered.2 grown⟩

theorem covered_enters (names : List String) (covered : graph.Covered (names ++ entered) agenda) :
    graph.Covered entered (names.map .enter ++ agenda) := by
  induction names generalizing entered with
  | nil => exact covered
  | cons name rest ih =>
    refine ih (covered.mono fun other member => ?_)
    rcases List.mem_cons.mp member with rfl | later
    · exact List.mem_append_right _ (.head _)
    · rcases List.mem_append.mp later with below | earlier
      · exact List.mem_append_left _ below
      · exact List.mem_append_right _ (.tail _ earlier)

variable (graph) in
/-- What stands on an agenda ahead of leaving a target is what that target depends on. -/
def Nested (agenda : List Stop) : Prop :=
  agenda.Pairwise fun first second => ∀ name, second = .leave name → TransGen graph.Needs name first.target

theorem Nested.enter (nested : graph.Nested (.enter name :: agenda)) :
    graph.Nested ((graph.subtargets name).map .enter ++ .leave name :: agenda) := by
  obtain ⟨above, nestedRest⟩ := List.pairwise_cons.mp nested
  refine List.pairwise_append.mpr ⟨?_, List.pairwise_cons.mpr ⟨above, nestedRest⟩, ?_⟩
  · refine List.pairwise_map.mpr (List.pairwise_of_forall fun first second other same => ?_)
    cases same
  · intro first below second later other same
    obtain ⟨subtarget, listed, rfl⟩ := List.mem_map.mp below
    rcases List.mem_cons.mp later with rfl | behind
    · cases same
      exact .single listed
    · exact (above second behind other same).tail listed

/-- Nothing is left behind a target that depends on it. -/
theorem tour_ordered (acyclic : ∀ name, ¬ TransGen graph.Needs name name)
    (nested : graph.Nested agenda) (covered : graph.Covered entered agenda) :
    ((graph.tour entered agenda).filterMap Stop.left?).Pairwise
      fun first second => ¬ graph.Needs first second := by
  fun_induction tour graph entered agenda with
  | case1 => exact .nil
  | case2 entered name rest ih =>
    obtain ⟨above, nestedRest⟩ := List.pairwise_cons.mp nested
    -- What is left later is either entered later or waits on the agenda, because it depends on this one.
    refine List.pairwise_cons.mpr ⟨fun other left needed => ?_, ih nestedRest covered.2⟩
    rcases List.mem_append.mp (tour_left_perm.mem_iff.mp left) with fresh | waiting
    · exact tour_entered_nodup.2 other fresh (covered.1 other needed)
    · obtain ⟨stop, listed, same⟩ := List.mem_filterMap.mp waiting
      cases stop with
      | enter => cases same
      | leave =>
        cases same
        exact acyclic name (.head needed (above _ listed other rfl))
  | case3 entered name rest known ih =>
    refine ih (List.pairwise_cons.mp nested).2 (Covered.mono covered ?_)
    exact List.cons_subset.mpr ⟨known, List.Subset.refl _⟩
  | case4 entered name rest fresh ih =>
    refine ih nested.enter (covered_enters _ ⟨fun subtarget listed => ?_, ?_⟩)
    · exact List.mem_append_left _ listed
    · exact Covered.mono covered (List.subset_append_right ..)

end Order

theorem postOrder_perm : List.Perm graph.postOrder
    ((graph.tour [] [.enter rootName]).filterMap Stop.entered?) := by
  have perm := @tour_left_perm Task graph [] [.enter rootName]
  rw [show [Stop.enter rootName].filterMap Stop.left? = [] from rfl, List.append_nil] at perm
  exact perm

theorem postOrder_nodup : graph.postOrder.Nodup :=
  postOrder_perm.nodup_iff.mpr tour_entered_nodup.1

theorem postOrder_ordered (acyclic : ∀ name, ¬ TransGen graph.Needs name name) :
    graph.postOrder.Pairwise fun first second => ¬ graph.Needs first second :=
  tour_ordered acyclic (List.pairwise_singleton ..) trivial

theorem mem_postOrder : name ∈ graph.postOrder ↔ graph.Reachable rootName name := by
  rw [postOrder_perm.mem_iff]
  constructor
  · intro member
    refine reachable_of_entered (fun other aim => ?_) name member
    cases List.mem_singleton.mp aim
    exact .refl
  · intro path
    obtain ⟨aims, closed⟩ := @tour_closed Task graph [] [.enter rootName] nofun
    have toured : graph.Toured [] [.enter rootName] name := by
      induction path with
      | refl => exact aims rootName (.head _)
      | tail _ step ih => exact closed _ ih _ step
    exact toured.resolve_left nofun

end Graph

end CompositeKeys.Tasks
