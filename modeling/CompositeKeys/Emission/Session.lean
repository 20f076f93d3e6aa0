import CompositeKeys.Emission.Defaults

/-! Documentation in use. Entries and dimensions come in while entries and blocks are asked for, in any
order. What is there is filled in when something is asked for, whatever it is, but only if anything has
come in since that was last done. -/

namespace CompositeKeys.Emission

structure DocumentationSession where
  documentation : Documentation
  /-- Something has come in since entries were last filled in. -/
  stale : Bool := false
  deriving DecidableEq, Repr, Inhabited

namespace DocumentationSession

inductive Call where
  | addDimension (dimension : Dimension)
  | add (name : String) (entry : Entry)
  | entry (name : String)
  | block (name indent : String)
  deriving DecidableEq, Repr

inductive Answer where
  | done
  | entry (entry : Entry)
  | block (text : String)
  deriving DecidableEq, Repr

def addDimension (session : DocumentationSession) (dimension : Dimension) : DocumentationSession :=
  { documentation := session.documentation.addDimension dimension, stale := true }

def add (session : DocumentationSession) (name : String) (entry : Entry) :
    Except EmissionError DocumentationSession := do
  return { documentation := ← session.documentation.add name entry, stale := true }

/-- Fills in what has not been filled in yet, unless nothing has come in. -/
def refreshed (session : DocumentationSession) : DocumentationSession :=
  if session.stale then { documentation := session.documentation.filled, stale := false } else session

/-- What a call leaves behind, and its answer. -/
def perform (session : DocumentationSession) :
    Call → DocumentationSession × Except EmissionError Answer
  | .addDimension dimension => (session.addDimension dimension, .ok .done)
  | .add name entry =>
    match session.add name entry with
    | .ok next => (next, .ok .done)
    | .error error => (session, .error error)
  | .entry name =>
    let next := session.refreshed
    (next, (next.documentation.entry name).map .entry)
  | .block name indent =>
    let next := session.refreshed
    (next, (next.documentation.block name indent).map .block)

def performAll (session : DocumentationSession) (calls : List Call) : DocumentationSession :=
  calls.foldl (fun session call => (session.perform call).1) session

/-- A session over the table of a flavor. -/
def ofFlavor (flavor : Flavor) (className : String) (checkedTypes : Bool) :
    Except EmissionError DocumentationSession :=
  flavor.entries.foldlM (fun session (name, entry) => session.add name entry)
    { documentation := { className, checkedTypes } }

end DocumentationSession

end CompositeKeys.Emission
