import CompositeKeys.Text.Blank

/-! A text is read line by line at its line feeds. One carriage return before a line feed belongs
to the line end; any other carriage return is part of its line. -/

namespace CompositeKeys.Text

/-- The pieces between line feeds, of which there is one more than there are line feeds. -/
def pieces : List Char → List (List Char)
  | [] => [[]]
  | letter :: rest =>
    if letter = '\n' then [] :: pieces rest
    else match pieces rest with
      | [] => [[letter]]
      | first :: others => (letter :: first) :: others

/-- A line without the carriage return that stood before its line feed. -/
def withoutReturn (line : List Char) : List Char :=
  if line.getLast? = some '\r' then line.dropLast else line

/-- The lines of a text; after a final line feed no line begins. -/
def linesOf (letters : List Char) : List (List Char) :=
  let parts := pieces letters
  let ended := parts.dropLast.map withoutReturn
  match parts.getLast? with
  | none | some [] => ended
  | some last => ended ++ [last]

def lines (text : String) : List String :=
  (linesOf text.toList).map String.ofList

end CompositeKeys.Text
