import CompositeKeys.Collection.Dimension

/-! A configuration is what a collection has been declared to be. Texts, the value and the pairing
are written once, and dimension names are distinct; nothing else is checked here. A refused
operation yields no configuration, so the one at hand stays as it was. -/

namespace CompositeKeys

/-- The fields of a configuration that are written once. -/
inductive Field where
  | overview
  | importText
  | value
  | pairing
  deriving DecidableEq, Repr

def Field.label : Field → String
  | .overview => "file overview"
  | .importText => "import text"
  | .value => "value type"
  | .pairing => "one-to-one base"

inductive ConfigurationError where
  | alreadySet (field : Field)
  | duplicateDimension (name : String)
  | misplacedDimension (name : String) (role : Role)
  deriving DecidableEq, Repr

def ConfigurationError.message : ConfigurationError → String
  | .alreadySet field => s!"The {field.label} has already been set"
  | .duplicateDimension name => s!"Argument name \"{name}\" has already been defined!"
  | .misplacedDimension name role =>
    s!"Descriptor \"{name}\" has kind {role.title}, which does not belong here"

/-- The names of the keys by role, each list in the order of declaration. -/
structure Partition where
  weakMapKeys : List String := []
  strongMapKeys : List String := []
  weakSetElements : List String := []
  strongSetElements : List String := []
  deriving DecidableEq, Repr, Inhabited

namespace Partition

def names (partition : Partition) : Role → List String
  | .mapKey .weak => partition.weakMapKeys
  | .mapKey .strong => partition.strongMapKeys
  | .setElement .weak => partition.weakSetElements
  | .setElement .strong => partition.strongSetElements
  | .value => []

/-- Enters a name under the role of a key; a value has no place here. -/
def insert (partition : Partition) (name : String) : Role → Partition
  | .mapKey .weak => { partition with weakMapKeys := partition.weakMapKeys ++ [name] }
  | .mapKey .strong => { partition with strongMapKeys := partition.strongMapKeys ++ [name] }
  | .setElement .weak => { partition with weakSetElements := partition.weakSetElements ++ [name] }
  | .setElement .strong =>
    { partition with strongSetElements := partition.strongSetElements ++ [name] }
  | .value => partition

end Partition

/-- What one collection declares for itself. -/
structure Declaration where
  className : String
  family : Family
  overview : Option String := none
  importText : Option String := none
  dimensions : List Dimension := []
  partition : Partition := {}
  value : Option Dimension := none
  deriving DecidableEq, Repr, Inhabited

namespace Declaration

def dimension? (declaration : Declaration) (name : String) : Option Dimension :=
  declaration.dimensions.find? fun dimension => dimension.name = name

def hasDimension (declaration : Declaration) (name : String) : Bool :=
  (declaration.dimension? name).isSome

/-- The names of the keys in the order of declaration, which is the order of arguments. -/
def argumentNames (declaration : Declaration) : List String :=
  declaration.dimensions.map Dimension.name

def mapKeys (declaration : Declaration) : List Dimension :=
  declaration.dimensions.filter fun dimension => dimension.role.isMapKey

def setElements (declaration : Declaration) : List Dimension :=
  declaration.dimensions.filter fun dimension => dimension.role.isSetElement

def setOverview (declaration : Declaration) (text : String) :
    Except ConfigurationError Declaration :=
  if declaration.overview.isSome then .error (.alreadySet .overview)
  else .ok { declaration with overview := some text }

def setImportText (declaration : Declaration) (text : String) :
    Except ConfigurationError Declaration :=
  if declaration.importText.isSome then .error (.alreadySet .importText)
  else .ok { declaration with importText := some text }

/-- Appends a key. A value is out of place even under a name that is taken. -/
def addDimension (declaration : Declaration) (dimension : Dimension) :
    Except ConfigurationError Declaration :=
  if dimension.role = .value then .error (.misplacedDimension dimension.name dimension.role)
  else if declaration.hasDimension dimension.name then
    .error (.duplicateDimension dimension.name)
  else .ok { declaration with
    dimensions := declaration.dimensions ++ [dimension]
    partition := declaration.partition.insert dimension.name dimension.role }

def setValue (declaration : Declaration) (dimension : Dimension) :
    Except ConfigurationError Declaration :=
  if dimension.role ≠ .value then .error (.misplacedDimension dimension.name dimension.role)
  else if declaration.value.isSome then .error (.alreadySet .value)
  else .ok { declaration with value := some dimension }

end Declaration

/-- Where the base of a paired collection comes from. -/
inductive Origin where
  | builtinWeakMap
  | wellKnown (name : String)
  | declared
  deriving DecidableEq, Repr, Inhabited

/-- How a paired collection uses its base: the key of the base that holds the identity shared by
both partners, and the module to import the base from instead of writing it inline. -/
structure Link where
  reservedKey : String
  origin : Origin
  modulePath : Option String := none
  deriving DecidableEq, Repr, Inhabited

/-- A declaration, and for a paired collection the base it is paired over. -/
inductive Configuration where
  | plain (own : Declaration)
  | paired (own : Declaration) (link : Link) (base : Configuration)
  deriving DecidableEq, Repr, Inhabited

namespace Configuration

def own : Configuration → Declaration
  | .plain own | .paired own _ _ => own

/-- The same pairing around another declaration. -/
def withOwn : Configuration → Declaration → Configuration
  | .plain _, own => .plain own
  | .paired _ link base, own => .paired own link base

def pairing? : Configuration → Option (Link × Configuration)
  | .plain _ => none
  | .paired _ link base => some (link, base)

def empty (className : String) (family : Family) : Configuration :=
  .plain { className, family }

def className (configuration : Configuration) : String := configuration.own.className

def family (configuration : Configuration) : Family := configuration.own.family

def setFamily (configuration : Configuration) (family : Family) : Configuration :=
  configuration.withOwn { configuration.own with family }

/-- Applies an operation on the declaration. -/
def declaring (configuration : Configuration)
    (operation : Declaration → Except ConfigurationError Declaration) :
    Except ConfigurationError Configuration :=
  (operation configuration.own).map configuration.withOwn

def setOverview (configuration : Configuration) (text : String) :
    Except ConfigurationError Configuration :=
  configuration.declaring (·.setOverview text)

def setImportText (configuration : Configuration) (text : String) :
    Except ConfigurationError Configuration :=
  configuration.declaring (·.setImportText text)

def addDimension (configuration : Configuration) (dimension : Dimension) :
    Except ConfigurationError Configuration :=
  configuration.declaring (·.addDimension dimension)

def setValue (configuration : Configuration) (dimension : Dimension) :
    Except ConfigurationError Configuration :=
  configuration.declaring (·.setValue dimension)

def setPairing (configuration : Configuration) (link : Link) (base : Configuration) :
    Except ConfigurationError Configuration :=
  match configuration with
  | .plain own => .ok (.paired own link base)
  | .paired _ _ _ => .error (.alreadySet .pairing)

end Configuration

/-- The keys of the base other than the reserved one. -/
def Link.sources (link : Link) (base : Configuration) : List Dimension :=
  base.own.dimensions.filter fun dimension => dimension.name ≠ link.reservedKey

/-- Whether the base has a single key, the reserved one of a checked pairing. -/
def Link.isSingle (_ : Link) (base : Configuration) : Bool :=
  base.own.dimensions.length = 1

end CompositeKeys
