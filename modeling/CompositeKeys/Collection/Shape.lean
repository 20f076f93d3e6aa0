/-! The shape of a collection: the outer and inner structure it is declared with, and the family
those two select. A solo family is the form of a family for exactly one key. -/

namespace CompositeKeys

/-- Whether an object is kept alive by the collection that holds it. -/
inductive Retention where
  | strong
  | weak
  deriving DecidableEq, Repr, Inhabited

inductive OuterShape where
  | map
  | weakMap
  | set
  | weakSet
  | oneToOne
  deriving DecidableEq, Repr, Inhabited

inductive InnerShape where
  | set
  | weakSet
  deriving DecidableEq, Repr, Inhabited

/-- A text that names no shape. -/
inductive ShapeError where
  | unknownOuter (text : String)
  | unknownInner (text : String)
  deriving DecidableEq, Repr

def ShapeError.message : ShapeError → String
  | .unknownOuter text => s!"Unknown outer shape \"{text}\""
  | .unknownInner text => s!"Unknown inner shape \"{text}\""

namespace OuterShape

def name : OuterShape → String
  | .map => "Map"
  | .weakMap => "WeakMap"
  | .set => "Set"
  | .weakSet => "WeakSet"
  | .oneToOne => "OneToOne"

def all : List OuterShape := [.map, .weakMap, .set, .weakSet, .oneToOne]

def ofName (text : String) : Except ShapeError OuterShape :=
  match all.find? fun shape => shape.name = text with
  | some shape => .ok shape
  | none => .error (.unknownOuter text)

end OuterShape

namespace InnerShape

def name : InnerShape → String
  | .set => "Set"
  | .weakSet => "WeakSet"

def all : List InnerShape := [.set, .weakSet]

def ofName (text : String) : Except ShapeError InnerShape :=
  match all.find? fun shape => shape.name = text with
  | some shape => .ok shape
  | none => .error (.unknownInner text)

end InnerShape

inductive Family where
  | map (retention : Retention)
  | set (retention : Retention)
  | mapOfSets (retention : Retention)
  | oneToOne
  | soloMap (retention : Retention)
  | soloSet (retention : Retention)
  deriving DecidableEq, Repr, Inhabited

namespace Family

def name : Family → String
  | .map .strong => "Strong/Map"
  | .map .weak => "Weak/Map"
  | .set .strong => "Strong/Set"
  | .set .weak => "Weak/Set"
  | .mapOfSets .strong => "Strong/MapOfStrongSets"
  | .mapOfSets .weak => "Weak/MapOfStrongSets"
  | .oneToOne => "OneToOne/Map"
  | .soloMap .strong => "Solo/StrongMap"
  | .soloMap .weak => "Solo/WeakMap"
  | .soloSet .strong => "Solo/StrongSet"
  | .soloSet .weak => "Solo/WeakSet"

def all : List Family :=
  [.map .strong, .map .weak, .set .strong, .set .weak, .mapOfSets .strong, .mapOfSets .weak,
    .oneToOne, .soloMap .strong, .soloMap .weak, .soloSet .strong, .soloSet .weak]

def ofName? (text : String) : Option Family :=
  all.find? fun family => family.name = text

/-- Whether one value is stored under each full key. -/
def isMap : Family → Bool
  | .map _ | .soloMap _ => true
  | _ => false

def isSet : Family → Bool
  | .set _ | .soloSet _ => true
  | _ => false

def isMapOfSets : Family → Bool
  | .mapOfSets _ => true
  | _ => false

def isOneToOne : Family → Bool
  | .oneToOne => true
  | _ => false

def isSolo : Family → Bool
  | .soloMap _ | .soloSet _ => true
  | _ => false

/-- Whether at least one dimension has to be held weakly. -/
def isWeak : Family → Bool
  | .map retention | .set retention | .mapOfSets retention | .soloMap retention
  | .soloSet retention => retention = .weak
  | .oneToOne => false

def allowsWeakMapKeys : Family → Bool
  | .map .weak | .mapOfSets .weak => true
  | _ => false

def allowsWeakSetElements : Family → Bool
  | .set .weak => true
  | _ => false

def declaresMapKeys (family : Family) : Bool := family.isMap || family.isMapOfSets

def declaresSetElements (family : Family) : Bool := family.isSet || family.isMapOfSets

/-- The form of the family for exactly one key. -/
def solo? : Family → Option Family
  | .map retention => some (.soloMap retention)
  | .set retention => some (.soloSet retention)
  | _ => none

end Family

end CompositeKeys
