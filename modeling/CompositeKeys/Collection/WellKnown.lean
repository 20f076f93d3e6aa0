import CompositeKeys.Collection.BuildError

/-! The bases that a paired collection may name instead of declaring. -/

namespace CompositeKeys.WellKnown

def names : List String := ["WeakMap", "WeakStrongMap", "WeakWeakMap"]

def declaration (className : String) (family : Family) (keys : List Dimension) :
    Except ConfigurationError Configuration := do
  let keyed ← keys.foldlM Configuration.addDimension (.empty className family)
  keyed.setValue { name := "value", role := .value, description := "The value." }

def weakKey (name description : String) : Dimension :=
  { name, role := .mapKey .weak, description }

def strongKey (name description : String) : Dimension :=
  { name, role := .mapKey .strong, description }

/-- The configuration and the origin of the base of a name. -/
def resolve (name : String) : Except BuildError (Configuration × Origin) :=
  match name with
  | "WeakMap" => of .builtinWeakMap (.soloMap .weak) [weakKey "key" "The key."]
  | "WeakStrongMap" => of (.wellKnown name) (.map .weak)
      [weakKey "weakKey" "The weakly held key.", strongKey "strongKey" "The strongly held key."]
  | "WeakWeakMap" => of (.wellKnown name) (.map .weak)
      [weakKey "weakKey1" "The first key.", weakKey "weakKey2" "The second key."]
  | _ => .error (.unknownBase name)
where
  of (origin : Origin) (family : Family) (keys : List Dimension) :
      Except BuildError (Configuration × Origin) :=
    match declaration name family keys with
    | .ok configuration => .ok (configuration, origin)
    | .error error => .error (.configuration error)

end CompositeKeys.WellKnown
