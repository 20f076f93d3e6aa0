/-! A task graph is a set of named targets under one status. A target lists the targets that it
depends on and the tasks to run after them. Targets are declared until the graph is made ready; the
root target then takes its dependencies, and the graph runs, fails or is closed. -/

namespace CompositeKeys.Tasks

inductive Status where
  | notStarted
  | ready
  | running
  | errored
  | closed
  deriving DecidableEq, Repr, Inhabited

def Status.name : Status → String
  | .notStarted => "not started"
  | .ready => "ready"
  | .running => "running"
  | .errored => "errored"
  | .closed => "closed"

inductive TaskError where
  | status (expected actual : Status)
  | descriptionAlreadySet (target : String)
  | selfDependency (target : String)
  | rootDependency (target : String)
  | duplicateDependency (target subtarget : String)
  | dependencyCycle (target subtarget : String)
  | unknownTarget (target : String)
  | graphDropped (target : String)
  | failed (target message : String)
  deriving DecidableEq, Repr

def TaskError.message : TaskError → String
  | .status expected actual =>
    s!"Task graph is {actual.name}, but the operation requires it to be {expected.name}"
  | .descriptionAlreadySet target => s!"Target \"{target}\" already has a description"
  | .selfDependency target => s!"Target \"{target}\" cannot have a dependency on itself"
  | .rootDependency target =>
    s!"Target \"{target}\" cannot have a dependency on the root target \"main\""
  | .duplicateDependency target subtarget =>
    s!"Target \"{target}\" already has a dependency on \"{subtarget}\""
  | .dependencyCycle target subtarget =>
    s!"\"{subtarget}\" already has a dependency on \"{target}\""
  | .unknownTarget target => s!"Unknown target \"{target}\""
  | .graphDropped target => s!"Task graph for target \"{target}\" no longer exists"
  | .failed target message => s!"Target \"{target}\" failed: {message}"

/-- What a task, a target or an operation comes to. -/
abbrev Outcome := Except TaskError Unit

/-- The name of the target that stands for the whole graph. -/
def rootName : String := "main"

structure Target (Task : Type) where
  description : Option String := none
  subtargets : List String := []
  tasks : List Task := []

/-- A graph with its targets in the order of their names. A dropped graph has no owner any more,
though its targets may still be held. -/
structure Graph (Task : Type) where
  status : Status := .notStarted
  isDropped : Bool := false
  targets : List (String × Target Task) := []

/-- The number of edges, which are given with all the names that they lead to from one. -/
def edgeCount : List (String × List String) → Nat
  | [] => 0
  | edge :: rest => edge.2.length + edgeCount rest

theorem edgeCount_erase {edge : String × List String} {edges : List (String × List String)}
    (member : edge ∈ edges) :
    edgeCount edges = edge.2.length + edgeCount (edges.erase edge) := by
  induction edges with
  | nil => cases member
  | cons first rest ih =>
    by_cases same : first = edge
    · subst same
      rw [List.erase_cons_head, edgeCount]
    · rw [List.erase_cons_tail (by simpa using same), edgeCount, edgeCount]
      have found : edge ∈ rest := (List.mem_cons.mp member).resolve_left (Ne.symm same)
      have counted := ih found
      omega

/-- The names reachable from those in the queue through the edges that have not been followed. -/
def reaches (goal : String) (edges : List (String × List String)) (queue : List String) : Bool :=
  match queue with
  | [] => false
  | name :: rest =>
    if name = goal then true
    else match _found : edges.find? fun edge => edge.1 = name with
      | none => reaches goal edges rest
      | some edge => reaches goal (edges.erase edge) (rest ++ edge.2)
termination_by queue.length + edgeCount edges
decreasing_by
  · simp only [List.length_cons]; omega
  · have counted := edgeCount_erase (List.mem_of_find?_eq_some _found)
    simp only [List.length_append, List.length_cons]
    omega

/-- The operations on a graph, each on a target that exists. -/
inductive Operation (Task : Type) where
  | create (target : String)
  | markReady
  | markClosed
  | describe (target text : String)
  | depend (target subtarget : String)
  | addTask (target : String) (task : Task)

namespace Graph
variable {Task : Type}

def target? (graph : Graph Task) (name : String) : Option (Target Task) :=
  graph.targets.lookup name

def targetNames (graph : Graph Task) : List String := graph.targets.map Prod.fst

/-- Enters a target at its place, unless there is one of that name. -/
def insertTarget (name : String) : List (String × Target Task) → List (String × Target Task)
  | [] => [(name, {})]
  | entry :: rest =>
    if name = entry.1 then entry :: rest
    else if name < entry.1 then (name, {}) :: entry :: rest
    else entry :: insertTarget name rest

/-- Makes sure that a target exists. Nothing is entered into a dropped graph. -/
def create (graph : Graph Task) (name : String) : Graph Task :=
  if graph.isDropped then graph else { graph with targets := insertTarget name graph.targets }

def updateTarget (graph : Graph Task) (name : String) (change : Target Task → Target Task) :
    Graph Task :=
  { graph with
    targets := graph.targets.map fun entry =>
      if entry.1 = name then (name, change entry.2) else entry }

/-- A graph with nothing but its root target. -/
def empty : Graph Task := create {} rootName

def edges (graph : Graph Task) : List (String × List String) :=
  graph.targets.map fun (name, target) => (name, target.subtargets)

/-- Whether a target is another one or depends on it, directly or through others. -/
def dependsOn (graph : Graph Task) (target goal : String) : Bool :=
  reaches goal graph.edges [target]

def requireStatus (graph : Graph Task) (expected : Status) : Outcome :=
  if graph.status = expected then .ok () else .error (.status expected graph.status)

/-- The target of an operation, in a graph that still exists. -/
def held (graph : Graph Task) (name : String) : Except TaskError (Target Task) :=
  if graph.isDropped then .error (.graphDropped name)
  else match graph.target? name with
    | some target => .ok target
    | none => .error (.unknownTarget name)

def markReady (graph : Graph Task) : Except TaskError (Graph Task) := do
  graph.requireStatus .notStarted
  return { graph with status := .ready }

/-- Closes a graph in any status but that of failure. -/
def markClosed (graph : Graph Task) : Except TaskError (Graph Task) :=
  if graph.status = .errored then .error (.status .running .errored)
  else .ok { graph with status := .closed }

def describe (graph : Graph Task) (name text : String) : Except TaskError (Graph Task) := do
  let target ← graph.held name
  graph.requireStatus .notStarted
  if target.description.isSome then throw (.descriptionAlreadySet name)
  return graph.updateTarget name fun target => { target with description := some text }

/-- Makes a target depend on another one, which need not exist yet. The root target takes its
dependencies once the graph is ready, every other target before that. -/
def depend (graph : Graph Task) (name subtarget : String) : Except TaskError (Graph Task) := do
  if subtarget = name then throw (.selfDependency name)
  if subtarget = rootName then throw (.rootDependency name)
  let target ← graph.held name
  graph.requireStatus (if name = rootName then .ready else .notStarted)
  if subtarget ∈ target.subtargets then throw (.duplicateDependency name subtarget)
  if graph.dependsOn subtarget name then throw (.dependencyCycle name subtarget)
  return graph.updateTarget name fun target =>
    { target with subtargets := target.subtargets ++ [subtarget] }

def addTask (graph : Graph Task) (name : String) (task : Task) :
    Except TaskError (Graph Task) := do
  let _ ← graph.held name
  graph.requireStatus .notStarted
  return graph.updateTarget name fun target => { target with tasks := target.tasks ++ [task] }

/-- What an operation makes of a graph, unless it is refused. -/
def operate? (graph : Graph Task) : Operation Task → Except TaskError (Graph Task)
  | .create target => .ok (graph.create target)
  | .markReady => graph.markReady
  | .markClosed => graph.markClosed
  | .describe target text => graph.describe target text
  | .depend target subtarget => graph.depend target subtarget
  | .addTask target task => graph.addTask target task

end Graph

end CompositeKeys.Tasks
