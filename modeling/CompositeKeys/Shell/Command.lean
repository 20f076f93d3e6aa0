/-! Scripts of commands, as they are read. A word keeps what it takes from its spelling apart from
what it takes from parameters and from other commands, and each part knows whether it is quoted. -/

namespace CompositeKeys.Shell

/-- What a parameter does for a word where it has no value. -/
inductive Fallback where
  | replace
  | assign
  | fail
  | invert
  deriving DecidableEq, Repr

/-- What is done to the file of a descriptor. -/
inductive Access where
  | read
  | write
  | overwrite
  | append
  | update
  | duplicate
  | here
  deriving DecidableEq, Repr

mutual

inductive Part where
  | text (letters : List Char) (isQuoted : Bool)
  | parameter (name : String) (form : Form) (isQuoted : Bool)
  | output (body : List Command) (isQuoted : Bool)
  | arithmetic (expression : List Part) (isQuoted : Bool)

/-- How the value of a parameter is used. The value may be empty where `orEmpty` does not hold. -/
inductive Form where
  | plain
  | size
  | malformed
  | without (orEmpty : Bool) (fallback : Fallback) (word : List Part)
  | trimmed (atEnd isLongest : Bool) (pattern : List Part)

inductive Redirection where
  | mk (descriptor : Nat) (access : Access) (target : List Part) (document : Nat)

/-- A command. A simple command has the number of its line. -/
inductive Command where
  | nothing
  | simple (line : Nat) (assignments : List (String × List Part)) (words : List (List Part))
      (redirections : List Redirection)
  | redirected (line : Nat) (body : Command) (redirections : List Redirection)
  | subshell (body : Command)
  | negated (body : Command)
  | both (first second : Command)
  | either (first second : Command)
  | sequence (first second : Command)
  | background (body : Command)
  | pipe (stages : List Command)
  | branch (condition onSuccess onFailure : Command)
  | loop (untilSuccess : Bool) (condition body : Command)
  | each (line : Nat) (name : String) (words : List (List Part)) (body : Command)
  | choice (line : Nat) (word : List Part) (cases : List (List (List Part) × Command))
  | define (line : Nat) (name : String) (body : Command)

end

instance : Inhabited Command := ⟨.nothing⟩

abbrev Word := List Part

/-- The descriptor that an access is for, unless another one is named. -/
def Access.descriptor : Access → Nat
  | .write | .overwrite | .append => 1
  | _ => 0

/-- A command that ends a line, or all that is read of one that is not well formed. -/
inductive Line where
  | command (body : Command) (documents : List (Nat × Word))
  | error (line : Nat) (message : String)

end CompositeKeys.Shell
