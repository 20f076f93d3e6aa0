import CompositeKeys.Collection.Configuration
import CompositeKeys.Collection.Phase
import CompositeKeys.Collection.Validator

/-! The reasons to refuse a declaration. Messages quote the text or the name at fault. -/

namespace CompositeKeys

inductive BuildError where
  | identifier (name : String)
  | whitespace (name : String)
  | reserved (name : String)
  | emptyText (field : String)
  | reservedText (field text : String)
  | wrongPhase (wanted current : Phase)
  | locked
  | dead
  | validator (name : String) (fault : Validator.Fault)
  | weakNotAllowed (name : String) (family : Family)
  | missingWeakKey (family : Family)
  | unsupportedShape (outer : OuterShape) (inner : InnerShape)
  | weakInnerSet
  | unknownBase (name : String)
  | baseNotLocked (name : String)
  | baseNotWeakMap (name : String)
  | reservedKeyNotWeak (key base : String)
  | configuration (error : ConfigurationError)
  deriving DecidableEq, Repr

namespace BuildError

def message : BuildError → String
  | .identifier name => s!"\"{name}\" is not a valid identifier!"
  | .whitespace name => s!"\"{name}\" must not have leading or trailing whitespace!"
  | .reserved name => s!"\"{name}\" is a reserved name!"
  | .emptyText field => s!"The {field} must be a non-empty string!"
  | .reservedText field text =>
    s!"The {field} \"{text}\" must not contain a reserved __name__ token!"
  | .wrongPhase wanted current =>
    s!"You may not call .{wanted.call}() from the \"{current.name}\" state!"
  | .locked => "You have already locked this configuration!"
  | .dead => "This configuration is dead due to a previous error!"
  | .validator name fault => s!"Validator for \"{name}\" is invalid: {fault.reason}"
  | .weakNotAllowed name family =>
    s!"\"{name}\" cannot be held weakly in a {family.name} collection!"
  | .missingWeakKey family => s!"A {family.name} collection must have at least one weak key!"
  | .unsupportedShape outer inner => s!"Unsupported shape: \"{outer.name}\" of \"{inner.name}\""
  | .weakInnerSet => "Sets of weakly held elements are not supported as an inner shape!"
  | .unknownBase name => s!"Unknown one-to-one base \"{name}\""
  | .baseNotLocked name => s!"The one-to-one base \"{name}\" must be locked first!"
  | .baseNotWeakMap name => s!"The one-to-one base \"{name}\" must be a weak map!"
  | .reservedKeyNotWeak key base =>
    s!"\"{key}\" is not a weak key of the one-to-one base \"{base}\"!"
  | .configuration error => error.message

end BuildError

end CompositeKeys
