import CompositeKeys.Records.Value
import CompositeKeys.Text.Quoted

/-! The written form of a document of sections. Text is written in the plainest kind of quotes that
can hold it; an array of more than one item takes a line for each of them. -/

namespace CompositeKeys.Toml
open Records

/-- The kinds of quotes. -/
inductive Quotes where
  | basic
  | literal
  | longBasic
  | longLiteral
  deriving DecidableEq, Repr

/-- The length of the longest run of a letter. -/
def longestRun (quote : Char) (letters : List Char) : Nat :=
  (letters.foldl (fun (longest, current) letter =>
    if letter = quote then (max longest (current + 1), current + 1) else (longest, 0)) (0, 0)).1

/-- The kind of quotes for a text. Long quotes hold up to two quotes in a row, and only basic quotes
hold control characters, as escapes. -/
def Quotes.for (letters : List Char) : Quotes :=
  let hasLineFeed := letters.contains '\n'
  let hasControl := letters.any fun letter =>
    letter ≠ '\t' && letter ≠ '\n' && (letter.toNat < 0x20 || letter.toNat = 0x7f)
  let hasBackslash := letters.contains '\\'
  let double := longestRun '"' letters
  let single := longestRun '\'' letters
  if !hasControl && !hasBackslash && double = 0 && !hasLineFeed then .basic
  else if !hasControl && single = 0 && !hasLineFeed then .literal
  else if !hasControl && !hasBackslash && double ≤ 2 then .longBasic
  else if !hasControl && single ≤ 2 then .longLiteral
  else if hasLineFeed then .longBasic
  else .basic

def upperHexDigit (value : Nat) : Char := (Text.hexDigit value).toUpper

/-- The spelling of a character between basic quotes, other than a double quote. -/
def basicEscape (isLong : Bool) (letter : Char) : List Char :=
  if letter = '\\' then ['\\', '\\']
  else if letter = '\x08' then ['\\', 'b']
  else if letter = '\t' then ['\\', 't']
  else if letter = '\n' then if isLong then ['\n'] else ['\\', 'n']
  else if letter = '\x0c' then ['\\', 'f']
  else if letter = '\r' then ['\\', 'r']
  else if letter.toNat < 0x20 ∨ letter.toNat = 0x7f then
    ['\\', 'u', '0', '0', upperHexDigit (letter.toNat / 16), upperHexDigit letter.toNat]
  else [letter]

/-- The spelling of a text between basic quotes. Of a run of quotes every one is escaped that would
make it longer than allowed. -/
def basicEscapes (isLong : Bool) (allowed run : Nat) : List Char → List Char
  | [] => []
  | letter :: rest =>
    if letter = '"' then
      if run < allowed then '"' :: basicEscapes isLong allowed (run + 1) rest
      else '\\' :: '"' :: basicEscapes isLong allowed 0 rest
    else basicEscape isLong letter ++ basicEscapes isLong allowed 0 rest

/-- A text in quotes. In long quotes, a text of several lines begins on a line of its own. -/
def quotation (text : String) : String :=
  let letters := text.toList
  let lineEnd := if letters.contains '\n' then "\n" else ""
  match Quotes.for letters with
  | .basic => "\"" ++ .ofList (basicEscapes false 0 0 letters) ++ "\""
  | .literal => "'" ++ text ++ "'"
  | .longBasic => "\"\"\"" ++ lineEnd ++ .ofList (basicEscapes true 2 0 letters) ++ "\"\"\""
  | .longLiteral => "'''" ++ lineEnd ++ text ++ "'''"

/-- A value on one line. -/
def inline : Value → String
  | .nothing => ""
  | .text value => quotation value
  | .integer value => toString value
  | .fraction spelling | .moment spelling => spelling
  | .boolean value => if value then "true" else "false"
  | .array items => "[" ++ ", ".intercalate (inlineItems items) ++ "]"
  | .table entries => "\x7b " ++ ", ".intercalate (inlineEntries entries) ++ " \x7d"
where
  inlineItems : List Value → List String
    | [] => []
    | item :: rest => inline item :: inlineItems rest
  inlineEntries : List (String × Value) → List String
    | [] => []
    | (key, value) :: rest => (key ++ " = " ++ inline value) :: inlineEntries rest

/-- A value after its key. -/
def spread : Value → String
  | .array (first :: second :: rest) =>
    "[\n" ++ String.join ((first :: second :: rest).map fun item => "    " ++ inline item ++ ",\n")
      ++ "]"
  | value => inline value

/-- A section: a header and one assignment for each entry. -/
def sectionText (name : String) (entries : List (String × Value)) : String :=
  s!"[{name}]\n" ++ String.join (entries.map fun (key, value) => s!"{key} = {spread value}\n")

/-- A document of sections, with an empty line between them. -/
def document (sections : List (String × List (String × Value))) : String :=
  "\n".intercalate (sections.map fun (name, entries) => sectionText name entries)

end CompositeKeys.Toml
