import CompositeKeys.Emission.Bindings
import CompositeKeys.Emission.KeyPlan

/-! A class before it is written: its private fields and its members, each with the name of the
entry that documents it, the head that it is called by and the strokes of its body. -/

namespace CompositeKeys.Emission

inductive MemberKind where
  | method
  | accessor
  | generator
  deriving DecidableEq, Repr, Inhabited

structure Head where
  kind : MemberKind := .method
  name : String
  parameters : Phrase := []
  deriving DecidableEq, Repr

namespace Head

/-- The parameters one after another; a list that declares no name leaves its place empty. -/
def joined : Phrase → Phrase
  | [] => []
  | [last] => [last]
  | parameter :: rest => parameter :: .own ", " :: joined rest

def phrase (head : Head) : Phrase :=
  let opening := match head.kind with
    | .method => ""
    | .accessor => "get "
    | .generator => "* "
  (joined head.parameters).between (opening ++ head.name ++ "(") ")"

/-- The names of the parameters. -/
def parameterNames (head : Head) : List String :=
  head.parameters.flatMap fun
    | .own name => [name]
    | .names declared | .literals declared => declared

end Head

structure Member where
  documentedAs : Option String := none
  head : Head
  body : List Stroke
  deriving DecidableEq, Repr

structure ClassOutline where
  name : String
  fields : List Variable
  members : List Member
  deriving DecidableEq, Repr

namespace Member

/-- A member under the entry of its own name. -/
def method (name : String) (parameters : Phrase) (body : List Stroke) : Member :=
  { documentedAs := some name, head := { name, parameters }, body }

def generator (name : String) (parameters : Phrase) (body : List Stroke) : Member :=
  { documentedAs := some name, head := { kind := .generator, name, parameters }, body }

def accessor (name : String) (body : List Stroke) : Member :=
  { documentedAs := some name, head := { kind := .accessor, name }, body }

def iterator (body : List Stroke) : Member :=
  { documentedAs := some "iterator", head := { name := "[Symbol.iterator]" }, body }

/-- A member that no caller sees. -/
def hidden (name : String) (parameters : Phrase) (body : List Stroke) : Member :=
  { head := { name, parameters }, body }

def toStringTag (className : String) : Member :=
  { documentedAs := some "toStringTag"
    head := { kind := .accessor, name := "[Symbol.toStringTag]" }
    body := [.line ["return \"", .names [className], "\";"]] }

/-- Whether a caller of the class sees the member. -/
def isPublic (member : Member) : Bool := member.head.name.toList.head? ≠ some '#'

/-- The lines of a member at its place in a class, under its block of documentation. -/
def strokes (member : Member) (block : List Stroke) : List Stroke :=
  .blank :: block ++ .opening member.head.phrase :: member.body ++ [.close]

end Member

/-- Leaves a method when its arguments do not pass a check. -/
def guard (guarded : Bool) (check : String) (arguments : Phrase) (missing : String) :
    List Stroke :=
  if guarded then [.line (arguments.between ("if (!this." ++ check ++ "(") (")) " ++ missing))]
  else []

/-- Throws when arguments do not pass a check. -/
def refuse (guarded : Bool) (check : String) (arguments : Phrase) (error : String) : List Stroke :=
  if guarded then
    [.line (arguments.between ("if (!this." ++ check ++ "(") "))"),
      .line ["  throw new Error(\"", .own error, "\");"]]
  else []

def invalidKey : String := "The ordered key set is not valid!"

def invalidValue : String := "The value is not valid!"

/-- The body of a check. -/
def testing (checks : String) : List Stroke :=
  [.passage checks, .line ["return true;"]]

/-- Freezes a class that has been written. -/
def freezing (className : String) : List Stroke :=
  [.blank, .line ["Object.freeze(", .names [className], ");"],
    .line ["Object.freeze(", .names [className], ".prototype);"]]

namespace ClassOutline

/-- The strokes of a class, with a block for every documented member. -/
def strokes (outline : ClassOutline) (block : String → Except EmissionError String) :
    Except EmissionError (List Stroke) := do
  let members ← outline.members.mapM fun member => do
    let page ← member.documentedAs.mapM block
    return member.strokes (page.map Stroke.page).toList
  return .opening ["class ", .names [outline.name]] :: outline.fields.map Variable.stroke ++
    members.flatten ++ .close :: freezing outline.name

/-- The parts of the key library that the fields are made of. -/
def helpers (outline : ClassOutline) : HelperUse :=
  { hasher := outline.fields.any fun field => field.initial = .hasher
    composer := outline.fields.any fun field =>
      match field.initial with
      | .composer _ _ => true
      | _ => false }

end ClassOutline

end CompositeKeys.Emission
