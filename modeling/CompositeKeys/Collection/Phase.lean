/-! The phases of a declaration. Every call names the phase that it leads to, and is accepted only
if the order chosen for the shape of the collection lists that phase after the current one. -/

namespace CompositeKeys

inductive Phase where
  | start
  | overview
  | importText
  | mapKeys
  | setElements
  | valueType
  | pairing
  | locked
  | errored
  deriving DecidableEq, Repr, Inhabited

namespace Phase

def name : Phase → String
  | .start => "start"
  | .overview => "overview"
  | .importText => "importText"
  | .mapKeys => "mapKeys"
  | .setElements => "setElements"
  | .valueType => "valueType"
  | .pairing => "pairing"
  | .locked => "locked"
  | .errored => "errored"

def all : List Phase :=
  [.start, .overview, .importText, .mapKeys, .setElements, .valueType, .pairing, .locked, .errored]

def ofName? (text : String) : Option Phase :=
  all.find? fun phase => phase.name = text

/-- The name of the call that leads to a phase. -/
def call : Phase → String
  | .overview => "setFileOverview"
  | .importText => "importLines"
  | .mapKeys => "addMapKey"
  | .setElements => "addSetElement"
  | .valueType => "setValueType"
  | .pairing => "configureOneToOne"
  | .locked => "lock"
  | .start => "start"
  | .errored => "fail"

end Phase

/-- The orders of declaration, one for each kind of shape. -/
inductive Order where
  | map
  | set
  | mapOfSets
  | oneToOne
  deriving DecidableEq, Repr, Inhabited

namespace Order

def name : Order → String
  | .map => "Map"
  | .set => "Set"
  | .mapOfSets => "MapOfSets"
  | .oneToOne => "OneToOne"

def all : List Order := [.map, .set, .mapOfSets, .oneToOne]

def ofName? (text : String) : Option Order :=
  all.find? fun order => order.name = text

/-- The phase that follows the texts at the head of a declaration. -/
def opening : Order → Phase
  | .map | .mapOfSets => .mapKeys
  | .set => .setElements
  | .oneToOne => .pairing

/-- The phases that may follow a phase. Nothing follows the end of a declaration or a failure. -/
def successors (order : Order) : Phase → List Phase
  | .start => [.overview, .importText, order.opening]
  | .overview => [.importText, order.opening]
  | .importText => [order.opening]
  | .mapKeys =>
    match order with
    | .map => [.mapKeys, .valueType, .locked]
    | .mapOfSets => [.mapKeys, .setElements]
    | .set | .oneToOne => []
  | .setElements =>
    match order with
    | .set | .mapOfSets => [.setElements, .locked]
    | .map | .oneToOne => []
  | .valueType => if order = .map then [.locked] else []
  | .pairing => if order = .oneToOne then [.locked] else []
  | .locked | .errored => []

end Order

/-- How far a declaration has come. -/
structure Lifecycle where
  order : Order
  phase : Phase := .start
  deriving DecidableEq, Repr, Inhabited

namespace Lifecycle

/-- Enters a phase if it may follow the current one. -/
def enter? (lifecycle : Lifecycle) (next : Phase) : Option Lifecycle :=
  if next ∈ lifecycle.order.successors lifecycle.phase then some { lifecycle with phase := next }
  else none

def isLocked (lifecycle : Lifecycle) : Bool := lifecycle.phase = .locked

def isErrored (lifecycle : Lifecycle) : Bool := lifecycle.phase = .errored

/-- What a failure leaves behind. A locked declaration has nothing left to spoil. -/
def failed (lifecycle : Lifecycle) : Lifecycle :=
  if lifecycle.isLocked then lifecycle else { lifecycle with phase := .errored }

end Lifecycle

end CompositeKeys
