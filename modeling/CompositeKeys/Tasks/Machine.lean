import CompositeKeys.Tasks.Program

/-! The execution of a task graph in single steps. A target is executed from the first time that
somebody waits for it: first the targets that it depends on, one after another, and then its tasks.
Any target that is under way may take the next step, so that the sequences of steps are all the ways
in which executions can interleave. The journal tells what has happened. -/

namespace CompositeKeys.Tasks

/-- How far the execution of a target has come. A target that has finished keeps what it came to;
the task at work is given with its place among the tasks of the target. -/
inductive Progress (World : Type) where
  | begun
  | depending (subtargets : List String) (tasks : List (Program World))
  | working (place : Nat) (program : Program World) (rest : List (Program World))
  | finished (outcome : Outcome)

/-- What has happened. An outcome is delivered to a target that has waited for another one. -/
inductive Event (World : Type) where
  | added (target : String) (task : Program World)
  | started (target : String) (place : Nat) (task : Program World)
  | returned (target : String) (place : Nat) (outcome : Outcome)
  | finished (target : String) (outcome : Outcome)
  | delivered (waiting target : String) (outcome : Outcome)

/-- A graph under execution. The runs and the journal have their latest entry first. -/
structure Machine (World : Type) where
  graph : Graph (Program World) := .empty
  world : World
  runs : List (String × Progress World) := []
  journal : List (Event World) := []

namespace Machine
variable {World : Type}

def progress? (machine : Machine World) (target : String) : Option (Progress World) :=
  machine.runs.lookup target

/-- What a target came to, once it has finished. -/
def outcome? (machine : Machine World) (target : String) : Option Outcome :=
  match machine.progress? target with
  | some (.finished outcome) => some outcome
  | _ => none

def record (machine : Machine World) (event : Event World) : Machine World :=
  { machine with journal := event :: machine.journal }

/-- Operates on the graph. A refused operation changes nothing. -/
def operate (machine : Machine World) (operation : Operation (Program World)) :
    Machine World × Outcome :=
  match machine.graph.operate? operation with
  | .error error => (machine, .error error)
  | .ok graph =>
    let operated := { machine with graph }
    match operation with
    | .addTask target task => (operated.record (.added target task), .ok ())
    | _ => (operated, .ok ())

/-- Waits for a target, whose execution begins if nobody has waited for it before. -/
def start (machine : Machine World) (target : String) : Machine World :=
  match machine.progress? target with
  | some _ => machine
  | none => { machine with runs := (target, .begun) :: machine.runs }

def setProgress (machine : Machine World) (target : String) (progress : Progress World) :
    Machine World :=
  { machine with
    runs := machine.runs.map fun run => if run.1 = target then (target, progress) else run }

def finish (machine : Machine World) (target : String) (outcome : Outcome) : Machine World :=
  (machine.setProgress target (.finished outcome)).record (.finished target outcome)

/-- Ends a target in failure, and with it the graph. -/
def fail (machine : Machine World) (target : String) (error : TaskError) : Machine World :=
  finish { machine with graph := { machine.graph with status := .errored } } target (.error error)

/-- Goes on to the next task, or to the end. -/
def nextTask (machine : Machine World) (target : String) (place : Nat)
    (tasks : List (Program World)) : Machine World :=
  match tasks with
  | [] => machine.finish target (.ok ())
  | task :: rest => (machine.setProgress target (.working place task rest)).record
      (.started target place task)

/-- Begins a target, which takes a running graph. The root target sets the graph running and every
target takes its tasks out of the graph before anything else happens. -/
def begin (machine : Machine World) (name : String) : Machine World :=
  if machine.graph.isDropped then machine.finish name (.error (.graphDropped name))
  else
    let graph :=
      if name = rootName ∧ machine.graph.status ∈ [.notStarted, .ready] then
        { machine.graph with status := .running }
      else machine.graph
    if graph.status ≠ .running then machine.fail name (.status .running graph.status)
    else match graph.target? name with
      | none => machine.fail name (.unknownTarget name)
      | some target =>
        let taken := graph.updateTarget name fun target => { target with tasks := [] }
        setProgress { machine with graph := taken } name (.depending target.subtargets target.tasks)

/-- Takes one step of the task at work, if it does not wait for a target under way. -/
def work? (machine : Machine World) (target : String) (place : Nat) (program : Program World)
    (rest : List (Program World)) : Option (Machine World) :=
  let resume := fun (machine : Machine World) next =>
    machine.setProgress target (.working place next rest)
  match program with
  | .finish outcome =>
    let returned := machine.record (.returned target place outcome)
    match outcome with
    | .ok () => some (returned.nextTask target (place + 1) rest)
    | .error error => some (returned.fail target error)
  | .suspend next => some (resume machine next)
  | .act change next =>
    some (resume { machine with world := change machine.world } (next machine.world))
  | .operate operation next =>
    let (operated, outcome) := machine.operate operation
    some (resume operated (next outcome))
  | .observe next => some (resume machine (next machine.graph.view))
  | .start other next => some (resume (machine.start other) next)
  | .await other next =>
    match machine.progress? other with
    | none => some (machine.start other)
    | some (.finished outcome) =>
      some (resume (machine.record (.delivered target other outcome)) (next outcome))
    | some _ => none

/-- Takes the next step of a target, if it is under way and does not wait for another one. -/
def advance? (machine : Machine World) (target : String) : Option (Machine World) :=
  match machine.progress? target with
  | none | some (.finished _) => none
  | some .begun => some (machine.begin target)
  | some (.depending [] tasks) => some (machine.nextTask target 0 tasks)
  | some (.depending (subtarget :: rest) tasks) =>
    if (machine.graph.target? subtarget).isNone then
      some (machine.fail target (.unknownTarget subtarget))
    else match machine.progress? subtarget with
      | none => some (machine.start subtarget)
      | some (.finished outcome) =>
        let delivered := machine.record (.delivered target subtarget outcome)
        match outcome with
        | .ok () => some (delivered.setProgress target (.depending rest tasks))
        | .error error => some (delivered.fail target error)
      | some _ => none
  | some (.working place program rest) => machine.work? target place program rest

/-- What may happen next to a graph, from outside and from within. -/
inductive Move (World : Type) where
  | operate (operation : Operation (Program World))
  | start (target : String)
  | advance (target : String)
  | drop

/-- Makes a move. A step of a target that cannot take one changes nothing. -/
def move (machine : Machine World) : Move World → Machine World
  | .operate operation => (machine.operate operation).1
  | .start target => machine.start target
  | .advance target => (machine.advance? target).getD machine
  | .drop => { machine with graph := { machine.graph with isDropped := true } }

def moves (machine : Machine World) (sequence : List (Move World)) : Machine World :=
  sequence.foldl move machine

/-- Takes steps, each one of the target begun last among those that can take one. -/
def settle : Nat → Machine World → Machine World
  | 0, machine => machine
  | fuel + 1, machine =>
    match machine.runs.findSome? fun run => machine.advance? run.1 with
    | some next => settle fuel next
    | none => machine

/-- Waits for a target for at most a number of steps. A target that waits for itself, directly or
through others, comes to nothing. -/
def waitFor (machine : Machine World) (target : String) (limit : Nat) :
    Machine World × Option Outcome :=
  let settled := (machine.start target).settle limit
  (settled, settled.outcome? target)

end Machine

end CompositeKeys.Tasks
