import CompositeKeys.Text.Lines
import CompositeKeys.Text.Quoted

/-! Generated code is written stroke by stroke. What a line takes from the template and what it
takes from the declaration stay apart until the line is written. -/

namespace CompositeKeys.Emission
open Text

/-- Joins names the way arguments are joined. -/
def nameList (names : List String) : String := ", ".intercalate names

def arrayLiteral (names : List String) : String := "[" ++ nameList names ++ "]"

/-- Names that end in a mark. -/
def suffixed (names : List String) (mark : String) : List String := names.map (· ++ mark)

/-- A part of a line: text of the template, a list of declared names, or a list of declared names
as string literals. -/
inductive Fragment where
  | own (text : String)
  | names (names : List String)
  | literals (names : List String)
  deriving DecidableEq, Repr

instance : Coe String Fragment := ⟨.own⟩

def Fragment.text : Fragment → String
  | .own text => text
  | .names declared => nameList declared
  | .literals declared => nameList (declared.map quoted)

/-- The parts of one line. -/
abbrev Phrase := List Fragment

namespace Phrase

def text (phrase : Phrase) : String := String.join (phrase.map Fragment.text)

/-- A phrase between two texts of the template. -/
def between (start : String) (phrase : Phrase) (ending : String) : Phrase :=
  .own start :: phrase ++ [.own ending]

end Phrase

/-- One stroke of writing. A block is opened by its head and closed by its last line; a passage is
written line by line as it stands; a page is finished text that brings its own indentation. -/
inductive Stroke where
  | line (phrase : Phrase)
  | passage (text : String)
  | opening (head : Phrase)
  | closing (last : String)
  | page (text : String)
  deriving DecidableEq, Repr

namespace Stroke

def blank : Stroke := .line []

def close : Stroke := .closing "\x7d"

end Stroke

structure Writer where
  written : String := ""
  depth : Nat := 0
  deriving DecidableEq, Repr, Inhabited

/-- The indentation at a depth of blocks. -/
def indentation (depth : Nat) : String := String.join (List.replicate depth "  ")

namespace Writer

def indent (writer : Writer) : String := indentation writer.depth

/-- An empty line is not indented. -/
def line (writer : Writer) (text : String) : Writer :=
  if text = "" then { writer with written := writer.written ++ "\n" }
  else { writer with written := writer.written ++ writer.indent ++ text ++ "\n" }

def write (writer : Writer) : Stroke → Writer
  | .line phrase => writer.line phrase.text
  | .passage text => (lines text).foldl line writer
  | .opening head =>
    let opened := writer.line (head.text ++ " \x7b")
    { opened with depth := opened.depth + 1 }
  | .closing last => line { writer with depth := writer.depth - 1 } last
  | .page text => { writer with written := writer.written ++ text }

def writeAll (writer : Writer) (strokes : List Stroke) : Writer :=
  strokes.foldl write writer

end Writer

end CompositeKeys.Emission
