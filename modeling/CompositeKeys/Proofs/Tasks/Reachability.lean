import CompositeKeys.Proofs.Tasks.Graph
import Mathlib.Data.List.Nodup
import Mathlib.Logic.Relation

/-! What targets depend on, directly and through others. The search for a target follows each edge once
and still finds exactly what some path leads to. -/

namespace CompositeKeys.Tasks
open Relation

/-- A path either never leaves from a pivot or can be cut behind the last time it does. -/
theorem avoids_or_leaves {Vertex : Type} {leads : Vertex → Vertex → Prop}
    {source goal : Vertex} (pivot : Vertex) (path : ReflTransGen leads source goal) :
    ReflTransGen (fun one other => leads one other ∧ one ≠ pivot) source goal ∨
      ∃ next, leads pivot next ∧
        ReflTransGen (fun one other => leads one other ∧ one ≠ pivot) next goal := by
  induction path using ReflTransGen.head_induction_on with
  | refl => exact .inl .refl
  | @head one other step _ ih =>
    rcases ih with avoids | leaves
    · by_cases here : one = pivot
      · exact .inr ⟨other, here ▸ step, avoids⟩
      · exact .inl (avoids.head ⟨step, here⟩)
    · exact .inr leaves

section Edge

variable {Vertex : Type} {leads : Vertex → Vertex → Prop} {left right : Vertex}

/-- A path over one more edge either avoids that edge or comes to it and goes on behind it. -/
theorem avoids_or_crosses {source goal : Vertex}
    (path : ReflTransGen (fun one other => leads one other ∨ one = left ∧ other = right) source goal) :
    ReflTransGen leads source goal ∨ ReflTransGen leads source left ∧ ReflTransGen leads right goal := by
  induction path with
  | refl => exact .inl .refl
  | tail _ step ih =>
    rcases step with old | ⟨rfl, rfl⟩
    · exact ih.imp (·.tail old) fun crossed => ⟨crossed.1, crossed.2.tail old⟩
    · rcases ih with avoids | crosses
      · exact .inr ⟨avoids, .refl⟩
      · exact .inr ⟨crosses.1, .refl⟩

/-- One more edge closes a cycle only if a path leads back over it. -/
theorem acyclic_of_edge (acyclic : ∀ vertex, ¬ TransGen leads vertex vertex)
    (apart : ¬ ReflTransGen leads right left) (vertex : Vertex) :
    ¬ TransGen (fun one other => leads one other ∨ one = left ∧ other = right) vertex vertex := by
  intro cycle
  obtain ⟨next, step, path⟩ := TransGen.head'_iff.mp cycle
  rcases step with old | ⟨rfl, rfl⟩
  · rcases avoids_or_crosses path with avoids | ⟨before, behind⟩
    · exact acyclic vertex (.head' old avoids)
    · exact apart (behind.trans (.head old before))
  · rcases avoids_or_crosses path with avoids | ⟨before, _⟩
    · exact apart avoids
    · exact apart before

end Edge

section Search

/-- Whether one of some edges leads from a name to another. -/
def Leads (edges : List (String × List String)) (source target : String) : Prop :=
  ∃ edge ∈ edges, edge.1 = source ∧ target ∈ edge.2

variable {edges : List (String × List String)} {edge : String × List String}

theorem leads_from (distinct : (edges.map Prod.fst).Nodup) (member : edge ∈ edges)
    {target : String} : Leads edges edge.1 target ↔ target ∈ edge.2 := by
  constructor
  · rintro ⟨other, held, same, found⟩
    exact List.inj_on_of_nodup_map distinct held member same ▸ found
  · intro found
    exact ⟨edge, member, rfl, found⟩

theorem leads_erase {source target : String} (leads : Leads edges source target)
    (apart : source ≠ edge.1) : Leads (edges.erase edge) source target := by
  obtain ⟨other, held, same, found⟩ := leads
  have different : other ≠ edge := by
    rintro rfl
    exact apart same.symm
  exact ⟨other, (List.mem_erase_of_ne different).mpr held, same, found⟩

theorem Leads.of_erase {source target : String} (leads : Leads (edges.erase edge) source target) :
    Leads edges source target := by
  obtain ⟨other, held, found⟩ := leads
  exact ⟨other, List.mem_of_mem_erase held, found⟩

/-- The search finds a name exactly if a path leads to it from the queue. An edge that has been
followed need not be followed again: a path can be cut behind the last time that it goes there. -/
theorem reaches_iff {goal : String} {queue : List String}
    (distinct : (edges.map Prod.fst).Nodup) :
    reaches goal edges queue = true ↔ ∃ name ∈ queue, ReflTransGen (Leads edges) name goal := by
  fun_induction reaches goal edges queue with
  | case1 edges => simp
  | case2 edges rest =>
    exact iff_of_true rfl ⟨goal, .head _, .refl⟩
  | case3 edges name rest other unfound ih =>
    rw [ih distinct]
    have stuck : ¬ ReflTransGen (Leads edges) name goal := by
      intro path
      rcases path.cases_head with same | ⟨_, ⟨edge, member, same, _⟩, _⟩
      · exact other same
      · exact List.find?_eq_none.mp unfound edge member (by simpa using same)
    simp [stuck]
  | case4 edges name rest other edge found ih =>
    have member : edge ∈ edges := List.mem_of_find?_eq_some found
    have same : edge.1 = name := by simpa using List.find?_some found
    rw [ih (distinct.sublist ((List.erase_sublist).map Prod.fst))]
    constructor
    · rintro ⟨start, queued, path⟩
      have kept : ReflTransGen (Leads edges) start goal :=
        ReflTransGen.mono (fun _ _ => Leads.of_erase) _ _ path
      rcases List.mem_append.mp queued with early | late
      · exact ⟨start, .tail _ early, kept⟩
      · exact ⟨name, .head _, kept.head (same ▸ (leads_from distinct member).mpr late)⟩
    · rintro ⟨start, queued, path⟩
      have unfollowed : ∀ one two, Leads edges one two ∧ one ≠ name →
          Leads (edges.erase edge) one two :=
        fun one two step => leads_erase step.1 (same ▸ step.2)
      rcases avoids_or_leaves name path with avoids | ⟨next, step, behind⟩
      · rcases List.mem_cons.mp queued with rfl | later
        · rcases avoids.cases_head with here | ⟨_, step, _⟩
          · exact (other here).elim
          · exact (step.2 rfl).elim
        · exact ⟨start, List.mem_append_left _ later, ReflTransGen.mono unfollowed _ _ avoids⟩
      · have listed : next ∈ edge.2 := (leads_from distinct member).mp (same ▸ step)
        exact ⟨next, List.mem_append_right _ listed, ReflTransGen.mono unfollowed _ _ behind⟩

end Search

theorem lookup_eq_some {Entry : Type} {entries : List (String × Entry)} {name : String}
    {value : Entry} (distinct : (entries.map Prod.fst).Nodup) :
    entries.lookup name = some value ↔ (name, value) ∈ entries := by
  induction entries with
  | nil => simp
  | cons entry rest ih =>
    rcases entry with ⟨key, first⟩
    obtain ⟨absent, distinctRest⟩ := List.nodup_cons.mp distinct
    rw [lookup_cons, List.mem_cons]
    split
    next same =>
      subst same
      have elsewhere : (name, value) ∉ rest := fun member =>
        absent (List.mem_map.mpr ⟨_, member, rfl⟩)
      simp [elsewhere, eq_comm]
    next apart => simp [ih distinctRest, apart]

namespace Graph

variable {Task : Type} {graph next : Graph Task}

/-- What a target depends on directly. A target that is not there depends on nothing. -/
def subtargets (graph : Graph Task) (name : String) : List String :=
  ((graph.target? name).map Target.subtargets).getD []

def Needs (graph : Graph Task) (name subtarget : String) : Prop := subtarget ∈ graph.subtargets name

/-- Whether a target is another one or depends on it, directly or through others. -/
def Reachable (graph : Graph Task) : String → String → Prop := ReflTransGen graph.Needs

theorem subtargets_of_target? {name : String} {target : Target Task}
    (found : graph.target? name = some target) : graph.subtargets name = target.subtargets := by
  simp [subtargets, found]

theorem names_nodup (sorted : Sorted graph.targets) : graph.targetNames.Nodup := by
  unfold targetNames List.Nodup
  rw [List.pairwise_map]
  exact sorted.imp String.ne_of_lt

theorem target?_eq_some (sorted : Sorted graph.targets) {name : String} {target : Target Task} :
    graph.target? name = some target ↔ (name, target) ∈ graph.targets :=
  lookup_eq_some (names_nodup sorted)

theorem leads_edges (sorted : Sorted graph.targets) (name subtarget : String) :
    Leads graph.edges name subtarget ↔ graph.Needs name subtarget := by
  unfold Needs
  constructor
  · rintro ⟨edge, member, rfl, listed⟩
    obtain ⟨⟨key, target⟩, held, rfl⟩ := List.mem_map.mp member
    rw [subtargets_of_target? ((target?_eq_some sorted).mpr held)]
    exact listed
  · intro listed
    cases found : graph.target? name with
    | none => simp [subtargets, found] at listed
    | some target =>
      rw [subtargets_of_target? found] at listed
      have held := (target?_eq_some sorted).mp found
      exact ⟨(name, target.subtargets), List.mem_map.mpr ⟨_, held, rfl⟩, rfl, listed⟩

theorem dependsOn_iff (sorted : Sorted graph.targets) {target goal : String} :
    graph.dependsOn target goal = true ↔ graph.Reachable target goal := by
  have names : graph.edges.map Prod.fst = graph.targetNames := List.map_map
  have same : Leads graph.edges = graph.Needs := by
    funext name subtarget
    exact propext (leads_edges sorted name subtarget)
  rw [dependsOn, reaches_iff (names ▸ names_nodup sorted), same]
  simp [Reachable]

end Graph

end CompositeKeys.Tasks
