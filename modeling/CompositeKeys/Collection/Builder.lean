import CompositeKeys.Collection.Naming
import CompositeKeys.Collection.WellKnown

/-! A builder takes the calls that declare a collection. A refused call leaves the configuration as
it was; it also ends the declaration for good, unless that has been locked already. -/

namespace CompositeKeys

/-- What may be said about a dimension beside its name, its role and its description. -/
structure DimensionOptions where
  documentType : Option String := none
  checkedType : Option String := none
  validator : Option String := none
  deriving DecidableEq, Repr, Inhabited

structure Builder where
  lifecycle : Lifecycle
  configuration : Configuration
  deriving DecidableEq, Repr, Inhabited

/-- The base that a paired collection asks for. -/
inductive BaseChoice where
  | builder (base : Builder)
  | wellKnown (name : String)
  deriving DecidableEq, Repr, Inhabited

/-- The calls on a builder. -/
inductive Call where
  | setOverview (text : String)
  | setImportText (text : String)
  | addMapKey (name description : String) (holdWeak : Bool) (options : DimensionOptions)
  | addSetElement (name description : String) (holdWeak : Bool) (options : DimensionOptions)
  | setValue (description : String) (options : DimensionOptions)
  | configurePairing (base : BaseChoice) (reservedKey : String) (modulePath : Option String)
  | lock
  deriving DecidableEq, Repr, Inhabited

/-- The phase that a call leads to. -/
def Call.phase : Call → Phase
  | .setOverview _ => .overview
  | .setImportText _ => .importText
  | .addMapKey .. => .mapKeys
  | .addSetElement .. => .setElements
  | .setValue .. => .valueType
  | .configurePairing .. => .pairing
  | .lock => .locked

/-- The family of a pair of shapes. -/
def Family.ofShapes : OuterShape → Option InnerShape → Except BuildError Family
  | _, some .weakSet => .error .weakInnerSet
  | .map, none => .ok (.map .strong)
  | .weakMap, none => .ok (.map .weak)
  | .set, none => .ok (.set .strong)
  | .weakSet, none => .ok (.set .weak)
  | .oneToOne, none => .ok .oneToOne
  | .map, some .set => .ok (.mapOfSets .strong)
  | .weakMap, some .set => .ok (.mapOfSets .weak)
  | outer, some inner => .error (.unsupportedShape outer inner)

/-- The order of declaration of a family. -/
def Family.order (family : Family) : Order :=
  if family.isMapOfSets then .mapOfSets
  else if family.isMap then .map
  else if family.isSet then .set
  else .oneToOne

/-- Checks what is said about a dimension and puts it together. -/
def Dimension.describe (name : String) (role : Role) (description : String)
    (options : DimensionOptions) : Except BuildError Dimension := do
  checkText "description" description
  options.documentType.forM (checkText "jsDoc type")
  options.checkedType.forM (checkText "type annotation")
  let validator ← options.validator.mapM fun source =>
    (Validator.parse name source).mapError (.validator name)
  return {
    name, role, description, validator
    documentType := options.documentType.getD role.documentType
    checkedType := options.checkedType.getD role.checkedType }

namespace Configuration

/-- Carries a refusal of the configuration into the builder. -/
def lifted : Except ConfigurationError Configuration → Except BuildError Configuration
  | .ok configuration => .ok configuration
  | .error error => .error (.configuration error)

def declareKey (configuration : Configuration) (name description : String) (role : Role)
    (weakAllowed : Bool) (options : DimensionOptions) : Except BuildError Configuration := do
  checkDimensionName name (!configuration.family.isSet)
  if role.isWeak ∧ !weakAllowed then throw (.weakNotAllowed name configuration.family)
  lifted (configuration.addDimension (← Dimension.describe name role description options))

/-- The configuration and the origin of a base, which has to be a locked weak map. -/
def baseOf : BaseChoice → Except BuildError (Configuration × Origin)
  | .wellKnown name => WellKnown.resolve name
  | .builder base =>
    if !base.lifecycle.isLocked then .error (.baseNotLocked base.configuration.className)
    else if base.configuration.family ∈ [.map .weak, .soloMap .weak] then
      .ok (base.configuration, .declared)
    else .error (.baseNotWeakMap base.configuration.className)

def pairOver (configuration : Configuration) (choice : BaseChoice) (reservedKey : String)
    (modulePath : Option String) : Except BuildError Configuration := do
  let (base, origin) ← baseOf choice
  unless (base.own.dimension? reservedKey).any fun key => key.role = .mapKey .weak do
    throw (.reservedKeyNotWeak reservedKey base.className)
  lifted (configuration.setPairing { reservedKey, origin, modulePath } base)

/-- Checks that a weak collection holds a key weakly, and gives a collection of one key its solo
form. -/
def settle (configuration : Configuration) : Except BuildError Configuration :=
  let family := configuration.family
  let partition := configuration.own.partition
  let weakKeys := if family.isSet then partition.weakSetElements else partition.weakMapKeys
  if family.isWeak ∧ weakKeys = [] then .error (.missingWeakKey family)
  else match family.solo? with
    | some solo =>
      .ok (if configuration.own.dimensions.length = 1 then configuration.setFamily solo
        else configuration)
    | none => .ok configuration

/-- What a call makes of a configuration when it comes in its turn. -/
def perform (configuration : Configuration) : Call → Except BuildError Configuration
  | .setOverview text => do
    checkText "file overview" text
    lifted (configuration.setOverview text)
  | .setImportText text =>
    if Text.isBlankText text then .error (.emptyText "import text")
    else lifted (configuration.setImportText text)
  | .addMapKey name description holdWeak options =>
    configuration.declareKey name description (.ofKey true holdWeak)
      configuration.family.allowsWeakMapKeys options
  | .addSetElement name description holdWeak options =>
    configuration.declareKey name description (.ofKey false holdWeak)
      configuration.family.allowsWeakSetElements options
  | .setValue description options => do
    lifted (configuration.setValue (← Dimension.describe valueName .value description options))
  | .configurePairing base reservedKey modulePath =>
    configuration.pairOver base reservedKey modulePath
  | .lock => configuration.settle

end Configuration

namespace Lifecycle

/-- Enters a phase, or says why it may not be entered. -/
def advance (lifecycle : Lifecycle) (next : Phase) : Except BuildError Lifecycle :=
  match lifecycle.enter? next with
  | some advanced => .ok advanced
  | none =>
    if lifecycle.isLocked then .error .locked else .error (.wrongPhase next lifecycle.phase)

/-- Runs an operation that moves a declaration along. A failure puts everything back and ends the
declaration, unless that is locked; nothing runs after the end. -/
def guarded {σ : Type} (operation : Lifecycle × σ → Except BuildError (Lifecycle × σ))
    (state : Lifecycle × σ) : (Lifecycle × σ) × Except BuildError Unit :=
  if state.1.isErrored then (state, .error .dead)
  else match operation state with
    | .ok next => (next, .ok ())
    | .error error => ((state.1.failed, state.2), .error error)

end Lifecycle

namespace Builder

/-- Begins the declaration of a class with the given shapes. -/
def create (className : String) (outer : OuterShape) (inner : Option InnerShape) :
    Except BuildError Builder := do
  checkClassName className
  let family ← Family.ofShapes outer inner
  return { lifecycle := { order := family.order }, configuration := .empty className family }

def className (builder : Builder) : String := builder.configuration.className

def family (builder : Builder) : Family := builder.configuration.family

def phase (builder : Builder) : Phase := builder.lifecycle.phase

def isLocked (builder : Builder) : Bool := builder.lifecycle.isLocked

def isDead (builder : Builder) : Bool := builder.lifecycle.isErrored

/-- Checks that a call comes in its turn, and then what it says. -/
def attempt (call : Call) (state : Lifecycle × Configuration) :
    Except BuildError (Lifecycle × Configuration) := do
  let advanced ← state.1.advance call.phase
  return (advanced, ← state.2.perform call)

/-- Takes a call. Locking a locked builder again has no effect. -/
def perform (builder : Builder) (call : Call) : Builder × Except BuildError Unit :=
  if call = .lock ∧ builder.isLocked then (builder, .ok ())
  else
    let (state, result) :=
      Lifecycle.guarded (attempt call) (builder.lifecycle, builder.configuration)
    ({ lifecycle := state.1, configuration := state.2 }, result)

end Builder

end CompositeKeys
