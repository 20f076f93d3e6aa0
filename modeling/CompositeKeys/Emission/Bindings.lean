import CompositeKeys.Collection.Configuration
import CompositeKeys.Emission.Documentation
import CompositeKeys.Emission.Writer

/-! The names and the checks that a configuration gives to the templates. -/

namespace CompositeKeys.Emission

/-- A test on one dimension that a key or a value has to pass. -/
inductive Check where
  | isObject (name : String)
  | satisfies (expression : String)
  deriving DecidableEq, Repr

/-- The statement that leaves with `false` when the test fails. -/
def Check.statement : Check → String
  | .isObject name => "if (Object(" ++ name ++ ") !== " ++ name ++ ") return false;"
  | .satisfies expression => "if (!(" ++ expression ++ ")) return false;"

/-- The tests in order, each ended by a line feed. -/
def checkText (checks : List Check) : String :=
  String.join (checks.map fun check => check.statement ++ "\n")

/-- A dimension that is held weakly has to be an object, whatever else its validator asks for. -/
def checksOf (dimension : Dimension) : List Check :=
  (if dimension.role.isWeak then [.isObject dimension.name] else []) ++
    (dimension.validator.map Check.satisfies).toList

structure ValueBindings where
  type : String
  description : String
  checks : List Check
  deriving DecidableEq, Repr

/-- Where the class of a base is found. -/
inductive BaseSource where
  | builtin
  | inline
  | imported (path : String)
  deriving DecidableEq, Repr

/-- The name that the identity shared by two partners has among the arguments of the base. -/
def identityName : String := "__key__"

structure PairingBindings where
  reservedKey : String
  baseClassName : String
  baseSource : BaseSource
  sources : List String
  baseArguments : List String
  checks : List Check
  deriving DecidableEq, Repr

namespace PairingBindings

/-- Whether the base has no key but the reserved one. -/
def isSingle (pairing : PairingBindings) : Bool := pairing.sources.isEmpty

def initial (pairing : PairingBindings) : String :=
  match pairing.baseSource with
  | .builtin => "WeakMap"
  | .inline | .imported _ => pairing.baseClassName

/-- The arguments of the base, with a mark on every source. -/
def baseArgumentsWith (pairing : PairingBindings) (mark : String) : List String :=
  pairing.baseArguments.map fun name => if name = identityName then name else name ++ mark

end PairingBindings

structure Bindings where
  className : String
  arguments : List String
  mapKeys : List String
  setElements : List String
  partition : Partition
  checks : List Check
  mapChecks : List Check
  setChecks : List Check
  firstType : String
  value : Option ValueBindings
  importText : Option String
  pairing : Option PairingBindings
  deriving DecidableEq, Repr

def PairingBindings.ofLink (link : Link) (base : Configuration) : PairingBindings :=
  let sources := link.sources base
  { reservedKey := link.reservedKey
    baseClassName := base.className
    baseSource :=
      match link.origin, link.modulePath with
      | .builtinWeakMap, _ => .builtin
      | _, some path => .imported path
      | _, none => .inline
    sources := sources.map Dimension.name
    baseArguments := base.own.dimensions.map fun dimension =>
      if dimension.name = link.reservedKey then identityName else dimension.name
    checks := sources.flatMap checksOf }

namespace Bindings

/-- The bindings of a configuration; a paired collection has to have its base. -/
def ofConfiguration (configuration : Configuration) : Except EmissionError Bindings :=
  let own := configuration.own
  let pairing := configuration.pairing?.map fun (link, base) => PairingBindings.ofLink link base
  if pairing.isNone && own.family.isOneToOne then .error (.pairingMissing own.className)
  else .ok {
    className := own.className
    arguments := own.argumentNames
    mapKeys := own.mapKeys.map Dimension.name
    setElements := own.setElements.map Dimension.name
    partition := own.partition
    checks := own.dimensions.flatMap checksOf
    mapChecks := own.mapKeys.flatMap checksOf
    setChecks := own.setElements.flatMap checksOf
    firstType := (own.dimensions.head?.map Dimension.documentType).getD ""
    value := own.value.map fun value =>
      { type := value.documentType, description := value.description, checks := checksOf value }
    importText := own.importText
    pairing }

def valueChecks (bindings : Bindings) : List Check :=
  (bindings.value.map ValueBindings.checks).getD []

def hasChecks (bindings : Bindings) : Bool := !bindings.checks.isEmpty

def hasMapChecks (bindings : Bindings) : Bool := !bindings.mapChecks.isEmpty

def hasSetChecks (bindings : Bindings) : Bool := !bindings.setChecks.isEmpty

/-- The bindings as texts under their names. -/
def table (bindings : Bindings) : List (String × String) :=
  let partition := bindings.partition
  let counted := fun key count names => [(key, arrayLiteral names), (count, s!"{names.length}")]
  [("className", bindings.className), ("argList", arrayLiteral bindings.arguments),
    ("argNameList", nameList bindings.arguments),
    ("argCount", s!"{bindings.arguments.length}")] ++
  counted "mapKeys" "mapCount" bindings.mapKeys ++
  counted "setKeys" "setCount" bindings.setElements ++
  counted "weakMapKeys" "weakMapCount" partition.weakMapKeys ++
  counted "strongMapKeys" "strongMapCount" partition.strongMapKeys ++
  counted "weakSetElements" "weakSetCount" partition.weakSetElements ++
  counted "strongSetElements" "strongSetCount" partition.strongSetElements ++
  [("validateArguments", checkText bindings.checks),
    ("validateMapArguments", checkText bindings.mapChecks),
    ("validateSetArguments", checkText bindings.setChecks),
    ("keyFirstType", bindings.firstType)] ++
  (match bindings.value with
    | some value => [("valueType", value.type), ("valueDesc", value.description),
        ("validateValue", checkText value.checks)]
    | none => []) ++
  (match bindings.importText with
    | some text => [("importLines", text)]
    | none => []) ++
  (match bindings.pairing with
    | some pairing => [("baseClassName", pairing.baseClassName),
        ("baseArgList", nameList pairing.baseArguments),
        ("sourceArgList", nameList pairing.sources)]
    | none => [])

end Bindings

end CompositeKeys.Emission
