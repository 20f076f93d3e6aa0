import CompositeKeys.Tasks.Graph

/-! A task is a program over a world of its own. It may stop and let others go on, change the world,
operate on the graph, look at it, and start other targets or wait for them. -/

namespace CompositeKeys.Tasks

/-- What a task sees of a target. -/
structure TargetView where
  name : String
  description : Option String
  subtargets : List String
  pendingTasks : Nat
  deriving DecidableEq, Repr

/-- What a task sees of the graph. -/
structure GraphView where
  status : Status
  targets : List TargetView
  deriving DecidableEq, Repr

/-- The program of a task. What follows a change of the world sees the world before the change. -/
inductive Program (World : Type) where
  | finish (outcome : Outcome)
  | suspend (next : Program World)
  | act (change : World → World) (next : World → Program World)
  | operate (operation : Operation (Program World)) (next : Outcome → Program World)
  | observe (next : GraphView → Program World)
  | start (target : String) (next : Program World)
  | await (target : String) (next : Outcome → Program World)

def Target.view {Task : Type} (name : String) (target : Target Task) : TargetView :=
  { name
    description := target.description
    subtargets := target.subtargets
    pendingTasks := target.tasks.length }

def Graph.view {Task : Type} (graph : Graph Task) : GraphView :=
  { status := graph.status, targets := graph.targets.map fun (name, target) => target.view name }

end CompositeKeys.Tasks
