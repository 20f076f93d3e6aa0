import CompositeKeys.Shell.Matching

/-! Scripts that edit a text line by line. A script is a row of instructions, each of which may be
for some lines only; groups and jumps lead to other places in the row. -/

namespace CompositeKeys.Shell.Editing

/-- Which lines an instruction is for, or begins to be. No expression is the one used last. -/
inductive Address where
  | line (number : Nat)
  | every (first step : Nat)
  | last
  | matching (expression : Option Matcher)

/-- Up to which line an instruction goes on to be used. -/
inductive Limit where
  | address (value : Address)
  | after (count : Nat)
  | multiple (count : Nat)

/-- How letters that follow in a replacement are written: all of them, or the first one. -/
inductive Letters where
  | asTheyAre
  | allUpper
  | allLower
  | firstUpper
  | firstLower
  deriving DecidableEq, Repr

/-- What takes the place of a match. -/
inductive Piece where
  | text (letters : List Char)
  | group (number : Nat)
  | letters (change : Letters)
  deriving DecidableEq, Repr

/-- How matches are replaced: from which one on, whether all of them, and what is done then. -/
structure Substitution where
  expression : Option Matcher
  replacement : List Piece
  which : Nat := 1
  isGlobal : Bool := false
  prints : Nat := 0
  executes : Bool := false
  path : Option String := none

/-- What is done to a line. -/
inductive Edit where
  | group (finish : Nat)
  | nothing
  | append (text : String)
  | insert (text : String)
  | change (text : String)
  | delete
  | deleteFirst
  | execute (command : String)
  | showName
  | takeHeld
  | addHeld
  | hold
  | addToHeld
  | exchange
  | spell (width : Option Nat)
  | next
  | addNext
  | print
  | printFirst
  | quit (status : Nat)
  | leave (status : Nat)
  | readFile (path : String)
  | readLineOf (path : String)
  | writeTo (path : String)
  | writeFirstTo (path : String)
  | substitute (how : Substitution)
  | jump (label : String)
  | jumpIfChanged (label : String)
  | jumpUnlessChanged (label : String)
  | translate (pairs : List (Char × Char))
  | clear
  | showNumber

/-- An edit with the lines it is for. -/
structure Instruction where
  first : Option Address := none
  limit : Option Limit := none
  isNegated : Bool := false
  edit : Edit

/-- A whole script, with the places that labels stand for. -/
structure Script where
  instructions : Array Instruction
  labels : List (String × Nat)
  isQuiet : Bool := false

end CompositeKeys.Shell.Editing
