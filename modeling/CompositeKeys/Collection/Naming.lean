import CompositeKeys.Collection.BuildError
import CompositeKeys.Collection.Identifier

/-! The checks on names and on texts of documentation. -/

namespace CompositeKeys
open Text

def checkIdentifier (name : String) : Except BuildError Unit :=
  if trim name ≠ name then .error (.whitespace name)
  else if !isIdentifier name.toList then .error (.identifier name)
  else .ok ()

def checkClassName (name : String) : Except BuildError Unit := do
  checkIdentifier name
  if name ∈ reservedClassNames ∨ isReservedName name.toList then throw (.reserved name)

/-- Checks the name of a key, which may be that of the value only where there is none. -/
def checkDimensionName (name : String) (valueReserved : Bool) : Except BuildError Unit := do
  checkIdentifier name
  if isReservedName name.toList ∨ (valueReserved ∧ name = valueName) then throw (.reserved name)

/-- Checks a text of documentation. -/
def checkText (field text : String) : Except BuildError Unit :=
  if isBlankText text then .error (.emptyText field)
  else if containsReservedName text.toList then .error (.reservedText field text)
  else .ok ()

end CompositeKeys
