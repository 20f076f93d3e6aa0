import CompositeKeys.Collection.Dimension
import CompositeKeys.Text.Lines
import CompositeKeys.Text.Substitution

/-! Documentation of methods. Every method has an entry, which names the dimensions that it lists as
parameters beside fixed rows of its own. Entries are written with placeholders, which are filled in
once, when a block is asked for after the entry came in. Parameters stand in a table whose columns
are as wide as their widest cell, counted in code points. -/

namespace CompositeKeys.Emission
open Text

/-- The declared dimensions that an entry lists. -/
inductive ListedArguments where
  | none
  | value
  | all
  | mapOnly
  | setOnly
  | exceptValue
  deriving DecidableEq, Repr, Inhabited

structure ParameterRow where
  typeName : String
  name : String
  description : String
  deriving DecidableEq, Repr, Inhabited

structure Entry where
  description : String
  listed : ListedArguments := .none
  headers : List String := []
  footers : List String := []
  rowsBefore : List ParameterRow := []
  rowsAfter : List ParameterRow := []
  resultType : Option String := none
  resultDescription : Option String := none
  isGenerator : Bool := false
  isTypeDefinition : Bool := false
  isProperty : Bool := false
  returnsNothing : Bool := false
  deriving DecidableEq, Repr, Inhabited

/-- What makes an entry unusable. -/
inductive EntryFault where
  | definitionListsArguments
  | definitionWithoutHeader
  | resultMissing
  deriving DecidableEq, Repr

def EntryFault.reason : EntryFault → String
  | .definitionListsArguments => "a type definition must not include arguments"
  | .definitionWithoutHeader => "a type definition needs header lines"
  | .resultMissing => "a non-void method needs a return type and description"

/-- The reasons to refuse generation. -/
inductive EmissionError where
  | invalidEntry (name : String) (fault : EntryFault)
  | missingEntry (name : String)
  | pairingMissing (className : String)
  | baseMissing (className : String)
  | noDimensions (className : String)
  | sameBaseName (className : String)
  deriving DecidableEq, Repr

def EmissionError.message : EmissionError → String
  | .invalidEntry name fault => s!"Invalid doc template \"{name}\": {fault.reason}"
  | .missingEntry name => s!"No doc template for method \"{name}\""
  | .pairingMissing className =>
    s!"Unreachable: one-to-one configuration \"{className}\" has no pairing base"
  | .baseMissing className => s!"Unreachable: paired collection \"{className}\" has no base"
  | .noDimensions className => s!"Unreachable: collection \"{className}\" has no key dimensions"
  | .sameBaseName className =>
    s!"The base class name \"{className}\" must differ from the paired class name!"

namespace Entry

def check (name : String) (entry : Entry) : Except EmissionError Unit :=
  if entry.isTypeDefinition then
    if entry.listed ≠ .none then .error (.invalidEntry name .definitionListsArguments)
    else if entry.headers = [] then .error (.invalidEntry name .definitionWithoutHeader)
    else .ok ()
  else if !entry.returnsNothing && !entry.isProperty &&
      (entry.resultType.isNone || entry.resultDescription.isNone) then
    .error (.invalidEntry name .resultMissing)
  else .ok ()

/-- Fills in every text of an entry except the names of its rows. -/
def fill (entry : Entry) (text : String → String) : Entry :=
  let row := fun row : ParameterRow =>
    { row with typeName := text row.typeName, description := text row.description }
  { entry with
    description := text entry.description
    headers := entry.headers.map text
    footers := entry.footers.map text
    rowsBefore := entry.rowsBefore.map row
    rowsAfter := entry.rowsAfter.map row
    resultType := entry.resultType.map text
    resultDescription := entry.resultDescription.map text }

end Entry

/-- What the placeholders stand for. -/
structure Placeholders where
  className : String
  valueType : String
  valueDescription : String
  arguments : String
  deriving DecidableEq, Repr, Inhabited

def Placeholders.fill (values : Placeholders) (text : String) : String :=
  replace "__argList__" values.arguments <|
  replace "__valueDesc__" values.valueDescription <|
  replace "__valueType__" values.valueType <|
  replace "__className__" values.className text

/-- The entries and the dimensions of one class. An entry remembers whether it has been filled. -/
structure Documentation where
  className : String
  checkedTypes : Bool
  entries : List (String × Entry × Bool) := []
  arguments : List Dimension := []
  value : Option Dimension := none
  deriving DecidableEq, Repr, Inhabited

namespace ParameterRow

def padded (width : Nat) (text : String) : String :=
  text ++ String.ofList (List.replicate (width - text.length) ' ')

/-- The width of the widest text. -/
def widest (texts : List String) : Nat := (texts.map String.length).foldl max 0

def braced (row : ParameterRow) : String := "\x7b" ++ row.typeName ++ "\x7d"

/-- The table of the rows, with the further lines of a description under its first one. -/
def table (rows : List ParameterRow) : List String :=
  let typeWidth := widest (rows.map typeName) + 2
  let nameWidth := widest (rows.map name)
  let further := padded ("@param ".length + typeWidth + 1 + nameWidth + 1) ""
  rows.flatMap fun row =>
    let first := fun text =>
      " * @param " ++ padded typeWidth row.braced ++ " " ++ padded nameWidth row.name ++ " " ++ text
    match lines row.description with
    | [] => [first ""]
    | text :: rest => first text :: rest.map fun text => " * " ++ further ++ text

end ParameterRow

namespace Documentation

def has (documentation : Documentation) (name : String) : Bool :=
  documentation.entries.any fun entry => entry.1 = name

/-- Enters a checked entry under a name, in place of the one that was there. -/
def add (documentation : Documentation) (name : String) (entry : Entry) :
    Except EmissionError Documentation := do
  entry.check name
  let added := (name, entry, false)
  return { documentation with
    entries :=
      if documentation.has name then
        documentation.entries.map fun existing => if existing.1 = name then added else existing
      else documentation.entries ++ [added] }

/-- Registers a dimension; of several values the last one counts. -/
def addDimension (documentation : Documentation) (dimension : Dimension) : Documentation :=
  if dimension.role = .value then { documentation with value := some dimension }
  else { documentation with arguments := documentation.arguments ++ [dimension] }

def typeOf (documentation : Documentation) (dimension : Dimension) : String :=
  if documentation.checkedTypes then dimension.checkedType else dimension.documentType

def placeholders (documentation : Documentation) : Placeholders :=
  { className := documentation.className
    valueType := (documentation.value.map documentation.typeOf).getD "*"
    valueDescription := (documentation.value.map Dimension.description).getD "The value."
    arguments := ", ".intercalate (documentation.arguments.map Dimension.name) }

/-- Fills in the entries that have not been filled yet. -/
def filled (documentation : Documentation) : Documentation :=
  { documentation with
    entries := documentation.entries.map fun (name, entry, done) =>
      (name, if done then entry else entry.fill documentation.placeholders.fill, true) }

def entry (documentation : Documentation) (name : String) : Except EmissionError Entry :=
  match documentation.entries.find? fun entry => entry.1 = name with
  | some (_, entry, _) => .ok entry
  | none => .error (.missingEntry name)

def listed (documentation : Documentation) : ListedArguments → List Dimension
  | .none => []
  | .value => documentation.value.toList
  | .all => documentation.arguments ++ documentation.value.toList
  | .mapOnly => documentation.arguments.filter fun dimension => dimension.role.isMapKey
  | .setOnly => documentation.arguments.filter fun dimension => dimension.role.isSetElement
  | .exceptValue => documentation.arguments

/-- The rows of the table of an entry. -/
def rows (documentation : Documentation) (entry : Entry) : List ParameterRow :=
  let declared := (documentation.listed entry.listed).map fun dimension =>
    { typeName := documentation.typeOf dimension
      name := dimension.name
      description := dimension.description }
  entry.rowsBefore ++ declared ++ entry.rowsAfter

/-- Lines under an empty line of their own, or nothing. -/
def underBlank (lines : List String) : List String :=
  if lines = [] then [] else " *" :: lines

def resultLine (entry : Entry) : List String :=
  match entry.resultType, entry.resultDescription with
  | some typeName, some description =>
    let tag := if entry.isGenerator then "@yields" else "@returns"
    [" * " ++ tag ++ " \x7b" ++ typeName ++ "\x7d " ++ description]
  | _, _ => []

/-- The lines of a block above its last one, without indentation. -/
def leadLines (documentation : Documentation) (entry : Entry) : List String :=
  ["/**"] ++ (lines entry.description).map (" * " ++ ·) ++
    underBlank (entry.headers.map (" * " ++ ·)) ++
    underBlank (ParameterRow.table (documentation.rows entry)) ++
    underBlank (resultLine entry) ++
    underBlank (entry.footers.map (" * " ++ ·))

/-- Drops the lines at the end that hold a star at their margin and nothing else. -/
def withoutStars (lines : List String) : List String :=
  (lines.reverse.dropWhile fun line => trimEnd line = "*").reverse

/-- The lines of a block without indentation. -/
def blockLines (documentation : Documentation) (entry : Entry) : List String :=
  withoutStars (documentation.leadLines entry) ++ [" */"]

/-- The block of a filled entry. -/
def block (documentation : Documentation) (name indent : String) : Except EmissionError String := do
  let entry ← documentation.entry name
  return String.join ((documentation.blockLines entry).map fun line =>
    indent ++ trimEnd line ++ "\n")

end Documentation

end CompositeKeys.Emission
