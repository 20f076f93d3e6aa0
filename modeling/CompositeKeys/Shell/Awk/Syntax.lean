import CompositeKeys.Shell.Matching

/-! A language for records of text: a program says what is done with records that a condition holds
for, and what is done before and after all of them. -/

namespace CompositeKeys.Shell.Awk

inductive Calculation where
  | add
  | subtract
  | multiply
  | divide
  | remainder
  | power
  deriving DecidableEq

inductive Comparison where
  | less
  | lessOrEqual
  | equal
  | different
  | greater
  | greaterOrEqual
  deriving DecidableEq

/-- What the language provides. -/
inductive Function where
  | length
  | substring
  | index
  | split
  | replaceFirst
  | replaceAll
  | match
  | format
  | sine
  | cosine
  | arcTangent
  | exponential
  | logarithm
  | squareRoot
  | truncate
  | random
  | seed
  | execute
  | close
  | flush
  | lower
  | upper
  | time
  | formatTime
  | makeTime
  deriving DecidableEq

/-- The functions by their names, with the least and the greatest number of their arguments. -/
def Function.all : List (String × Function × Nat × Nat) :=
  [("length", .length, 0, 1), ("substr", .substring, 2, 3), ("index", .index, 2, 2),
    ("split", .split, 2, 3), ("sub", .replaceFirst, 2, 3), ("gsub", .replaceAll, 2, 3),
    ("match", .match, 2, 2), ("sprintf", .format, 1, 255), ("sin", .sine, 1, 1),
    ("cos", .cosine, 1, 1), ("atan2", .arcTangent, 2, 2), ("exp", .exponential, 1, 1),
    ("log", .logarithm, 1, 1), ("sqrt", .squareRoot, 1, 1), ("int", .truncate, 1, 1),
    ("rand", .random, 0, 0), ("srand", .seed, 0, 1), ("system", .execute, 1, 1),
    ("close", .close, 1, 1), ("fflush", .flush, 0, 1), ("tolower", .lower, 1, 1),
    ("toupper", .upper, 1, 1), ("systime", .time, 0, 0), ("strftime", .formatTime, 0, 3),
    ("mktime", .makeTime, 1, 1)]

/-- A name of a variable: one of the program, or one of the function that is read. -/
inductive Variable where
  | shared (name : String)
  | own (index : Nat)
  deriving DecidableEq

mutual

inductive Expression where
  | number (value : Float)
  | text (letters : String)
  | matcher (matcher : Matcher)
  | place (place : Place)
  | assign (calculation : Option Calculation) (place : Place) (value : Expression)
  | step (isBefore increases : Bool) (place : Place)
  | choose (condition first second : Expression)
  | either (first second : Expression)
  | both (first second : Expression)
  | member (subscripts : List Expression) (table : Variable)
  | matches (isNegated : Bool) (text pattern : Expression)
  | compare (comparison : Comparison) (first second : Expression)
  | joined (first second : Expression)
  | calculate (calculation : Calculation) (first second : Expression)
  | not (value : Expression)
  | minus (value : Expression)
  | plus (value : Expression)
  | call (name : String) (arguments : List Expression)
  | apply (function : Function) (arguments : List Expression)
  | read (source : Source) (target : Option Place)

/-- What can be assigned to. -/
inductive Place where
  | variable (name : Variable)
  | element (table : Variable) (subscripts : List Expression)
  | field (number : Expression)

/-- Where a record is read from. -/
inductive Source where
  | records
  | file (path : Expression)
  | command (text : Expression)

end

/-- Where output goes that does not go to the output of the program. -/
inductive Direction where
  | file
  | append
  | command
  deriving DecidableEq

inductive Statement where
  | evaluate (value : Expression)
  | print (isFormatted : Bool) (values : List Expression)
      (target : Option (Direction × Expression))
  | branch (condition : Expression) (onSuccess onFailure : Statement)
  | loop (condition : Expression) (body : Statement)
  | loopAfter (body : Statement) (condition : Expression)
  | iterate (start : Option Expression) (condition : Option Expression)
      (next : Option Expression) (body : Statement)
  | each (name : Variable) (table : Variable) (body : Statement)
  | block (statements : List Statement)
  | nextRecord
  | nextFile
  | exit (status : Option Expression)
  | return (value : Option Expression)
  | leave
  | again
  | erase (table : Variable) (subscripts : Option (List Expression))

instance : Inhabited Statement := ⟨.block []⟩

/-- When something is done. -/
inductive Condition where
  | always
  | when (condition : Expression)
  | between (start finish : Expression)

structure Definition where
  name : String
  parameters : List String
  body : Statement

structure Program where
  atStart : List Statement := []
  rules : List (Condition × Statement) := []
  atEnd : List Statement := []
  functions : List Definition := []

end CompositeKeys.Shell.Awk
