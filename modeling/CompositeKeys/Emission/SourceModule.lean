import CompositeKeys.Emission.Defaults
import CompositeKeys.Emission.Variant
import CompositeKeys.Text.Layout

/-! A generated module: what it says about itself, its imports, the class of an inline base ahead of
the class that uses it, and the export of the latter. -/

namespace CompositeKeys.Emission
open Text

/-- What every module of a run is generated with. -/
structure CompileOptions where
  licenseText : String := ""
  license : String := ""
  author : String := ""
  copyright : String := ""
  disableSpecialization : Bool := false
  checkedTypes : Bool := false
  deriving DecidableEq, Repr, Inhabited

/-- A class that has been written, with the documentation that its blocks come from. -/
structure ClassDefinition where
  outline : ClassOutline
  documentation : Documentation
  text : String
  deriving DecidableEq, Repr

/-- What a configuration brings into a module: the classes of its bases, innermost first, and its
own class, with all that they import. -/
structure Contribution where
  variant : Variant
  helpers : HelperUse := {}
  imports : List String := []
  classes : List ClassDefinition
  deriving DecidableEq, Repr

/-- The table that the class with these bindings is documented from. -/
def Flavor.ofBindings (bindings : Bindings) : Flavor :=
  match bindings.pairing with
  | some pairing => if pairing.isSingle then .pairedSingle else .pairedDouble
  | none => .collection

/-- The documentation of the class of a configuration. -/
def Documentation.ofConfiguration (configuration : Configuration) (bindings : Bindings)
    (checkedTypes : Bool) : Except EmissionError Documentation := do
  let flavor := Flavor.ofBindings bindings
  let documentation ← ofFlavor flavor configuration.className checkedTypes
  match configuration.pairing? with
  | none =>
    let own := configuration.own
    return (own.dimensions ++ own.value.toList).foldl addDimension documentation
  | some (link, base) =>
    if flavor = .pairedSingle then return documentation
    else
      let sources := link.sources base
      let bound ← documentation.add "bindOneToOne" (.binding sources checkedTypes)
      return sources.foldl addDimension bound

/-- Writes the class of a configuration. -/
def ClassDefinition.ofConfiguration (configuration : Configuration) (bindings : Bindings)
    (template : Template) (checkedTypes : Bool) : Except EmissionError ClassDefinition := do
  let documentation ← Documentation.ofConfiguration configuration bindings checkedTypes
  let outline ← template.outline bindings
  let listed ← if template.yieldsKeys then documentation.add "values" Entry.keySets
    else pure documentation
  let filled := listed.filled
  let strokes ← outline.strokes fun name => filled.block name (indentation 1)
  return { outline, documentation := filled, text := (Writer.writeAll {} strokes).written }

/-- The statements of an import text, one to a line. -/
def importsOf (text : String) : List String :=
  ((lines text).map trim).filter (· ≠ "")

namespace Contribution

/-- Adds the class of a configuration to what its base brings in. -/
def extend (options : CompileOptions) (configuration : Configuration) (bindings : Bindings)
    (imports : List String) (helpers : HelperUse) (bases : List ClassDefinition) :
    Except EmissionError Contribution := do
  let variant := Variant.select configuration.own options.disableSpecialization
  let definition ← ClassDefinition.ofConfiguration configuration bindings variant.template
    options.checkedTypes
  return {
    variant
    helpers := helpers.union (variant.template.helpers bindings)
    imports := (imports ++ (bindings.importText.map importsOf).getD []).eraseDups
    classes := bases ++ [definition] }

def ofConfiguration (options : CompileOptions) :
    Configuration → Except EmissionError Contribution
  | .plain own => do
    let bindings ← Bindings.ofConfiguration (.plain own)
    extend options (.plain own) bindings [] {} []
  | .paired own link base => do
    let bindings ← Bindings.ofConfiguration (.paired own link base)
    match (PairingBindings.ofLink link base).baseSource with
    | .builtin => extend options (.paired own link base) bindings [] {} []
    | .imported path =>
      let statement := "import " ++ base.className ++ " from " ++ quoted path ++ ";"
      extend options (.paired own link base) bindings [statement] {} []
    | .inline =>
      let inner ← ofConfiguration options base
      extend options (.paired own link base) bindings inner.imports inner.helpers inner.classes

end Contribution

structure SourceModule where
  className : String
  overview : Option String
  options : CompileOptions
  helperDirectory : String
  contribution : Contribution
  deriving DecidableEq, Repr

namespace SourceModule

/-- A paired class needs a base of another name, and any other class needs a key. -/
def check (configuration : Configuration) : Except EmissionError Unit :=
  if configuration.family.isOneToOne then
    match configuration.pairing? with
    | none => .error (.baseMissing configuration.className)
    | some (_, base) =>
      if base.className = configuration.className then .error (.sameBaseName base.className)
      else .ok ()
  else if configuration.own.dimensions = [] then .error (.noDimensions configuration.className)
  else .ok ()

/-- Where the key library is looked for unless something else is said. -/
def defaultHelperDirectory : String := "./keys"

/-- The module of a configuration, with the key library found in `helperDirectory`. -/
def ofConfiguration (configuration : Configuration) (options : CompileOptions)
    (helperDirectory : String) : Except EmissionError SourceModule := do
  check configuration
  let contribution ← Contribution.ofConfiguration options configuration
  return {
    className := configuration.className
    overview := configuration.own.overview
    options
    helperDirectory
    contribution }

def helpers (source : SourceModule) : HelperUse := source.contribution.helpers

def imports (source : SourceModule) : List String := source.contribution.imports

/-- A tag of the header, left out when its text is blank. -/
def tag (name text : String) : List String :=
  if isBlankText text then [] else ["@" ++ name ++ " " ++ text]

def headerLines (source : SourceModule) : List String :=
  (match source.overview with
    | some overview => "@file" :: lines overview
    | none => []) ++
  tag "license" source.options.license ++
  tag "author" source.options.author ++
  tag "copyright" source.options.copyright

def header (source : SourceModule) : String :=
  if source.headerLines = [] then ""
  else "/**\n" ++ String.join (source.headerLines.map (" * " ++ · ++ "\n")) ++ " */\n\n"

def helperImports (source : SourceModule) : List String :=
  (if source.helpers.hasher then
    ["import KeyHasher from \"" ++ source.helperDirectory ++ "/Hasher.mjs\";"] else []) ++
  (if source.helpers.composer then
    ["import WeakKeyComposer from \"" ++ source.helperDirectory ++ "/Composite.mjs\";"] else [])

/-- The license text as a comment of its own. -/
def licenseComment (options : CompileOptions) : String :=
  if isBlankText options.licenseText then ""
  else "/*\n" ++ trimEnd options.licenseText ++ "\n*/\n\n"

/-- The text of the module in normal form. -/
def text (source : SourceModule) : String :=
  tidy <|
    (if source.options.checkedTypes then "// @ts-check\n\n" else "") ++
    licenseComment source.options ++ source.header ++
    String.join ((source.helperImports ++ source.imports).map (· ++ "\n")) ++ "\n" ++
    String.join (source.contribution.classes.map fun definition => definition.text ++ "\n") ++
    "export default " ++ source.className ++ ";\n"

end SourceModule

end CompositeKeys.Emission
