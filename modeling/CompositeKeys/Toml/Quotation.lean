/-! The four kinds of quoted text: basic text with escapes and literal text without, each on one
line or on several. Readers take the letters after the opening quotes and leave those after the
closing ones. -/

namespace CompositeKeys.Toml

/-- A character that may not stand in a document as itself. -/
def isControl (letter : Char) : Bool :=
  letter ≠ '\t' && (letter.toNat < 0x20 || letter.toNat = 0x7f)

def isSpacing (letter : Char) : Bool := letter = ' ' || letter = '\t'

def hexValue? (letter : Char) : Option Nat :=
  if '0' ≤ letter ∧ letter ≤ '9' then some (letter.toNat - '0'.toNat)
  else if 'a' ≤ letter ∧ letter ≤ 'f' then some (letter.toNat - 'a'.toNat + 10)
  else if 'A' ≤ letter ∧ letter ≤ 'F' then some (letter.toNat - 'A'.toNat + 10)
  else none

/-- The character whose code point is given by hexadecimal digits. -/
def ofHex? (digits : List Char) : Option Char := do
  let code ← digits.foldlM (fun code letter => (hexValue? letter).map (16 * code + ·)) 0
  if code.isValidChar then some (.ofNat code) else none

/-- Reads `count` hexadecimal digits. -/
def codePoint? (count : Nat) (letters : List Char) : Option (Char × List Char) :=
  if letters.length < count then none
  else (ofHex? (letters.take count)).map fun letter => (letter, letters.drop count)

/-- Reads what follows a backslash. -/
def escape? : List Char → Option (Char × List Char)
  | 'b' :: rest => some ('\x08', rest)
  | 't' :: rest => some ('\t', rest)
  | 'n' :: rest => some ('\n', rest)
  | 'f' :: rest => some ('\x0c', rest)
  | 'r' :: rest => some ('\r', rest)
  | '"' :: rest => some ('"', rest)
  | '\\' :: rest => some ('\\', rest)
  | 'u' :: rest => codePoint? 4 rest
  | 'U' :: rest => codePoint? 8 rest
  | _ => none

/-- Puts a letter in front of what is read after it. -/
def prepend (letters : List Char) (read : Option (List Char × List Char)) :
    Option (List Char × List Char) :=
  read.map fun (text, rest) => (letters ++ text, rest)

/-- Reads basic text on one line. -/
def basicText : Nat → List Char → Option (List Char × List Char)
  | 0, _ | _, [] => none
  | fuel + 1, letter :: rest =>
    if letter = '"' then some ([], rest)
    else if letter = '\\' then
      (escape? rest).bind fun (value, after) => prepend [value] (basicText fuel after)
    else if isControl letter then none
    else prepend [letter] (basicText fuel rest)

/-- Reads literal text on one line. -/
def literalText : List Char → Option (List Char × List Char)
  | [] => none
  | letter :: rest =>
    if letter = '\'' then some ([], rest)
    else if isControl letter then none
    else prepend [letter] (literalText rest)

/-- Drops a line end, if there is one. -/
def withoutLineEnd : List Char → List Char
  | '\n' :: rest | '\r' :: '\n' :: rest => rest
  | letters => letters

/-- Drops spacing and line ends. -/
def withoutGap : Nat → List Char → List Char
  | fuel + 1, '\n' :: rest | fuel + 1, '\r' :: '\n' :: rest => withoutGap fuel rest
  | fuel + 1, letter :: rest =>
    if isSpacing letter then withoutGap fuel rest else letter :: rest
  | _, letters => letters

/-- Whether nothing but spacing stands before the next line end. -/
def endsLine (letters : List Char) : Bool :=
  match letters.dropWhile isSpacing with
  | '\n' :: _ | '\r' :: '\n' :: _ => true
  | _ => false

/-- Reads text on several lines up to three quotes; one or two more quotes belong to the text. Line
ends stay as they are. Where there are escapes, a backslash at the end of a line takes the gap up to
the next letter with it. -/
def longText (quote : Char) (escapes : Bool) : Nat → List Char → Option (List Char × List Char)
  | 0, _ | _, [] => none
  | fuel + 1, letter :: rest =>
    if letter = quote then
      let run := (letter :: rest).takeWhile (· = quote)
      let after := (letter :: rest).dropWhile (· = quote)
      if run.length < 3 then prepend run (longText quote escapes fuel after)
      else if run.length ≤ 5 then some (run.drop 3, after)
      else some (run.take 2, run.drop 5 ++ after)
    else if letter = '\\' ∧ escapes then
      if endsLine rest then longText quote escapes fuel (withoutGap rest.length rest)
      else (escape? rest).bind fun (value, after) =>
        prepend [value] (longText quote escapes fuel after)
    else if letter = '\n' then prepend [letter] (longText quote escapes fuel rest)
    else if letter = '\r' ∧ rest.head? = some '\n' then
      prepend [letter] (longText quote escapes fuel rest)
    else if isControl letter then none
    else prepend [letter] (longText quote escapes fuel rest)

/-- Reads a quoted text on one line, opening quotes included. -/
def shortQuotation? : List Char → Option (List Char × List Char)
  | '"' :: rest => basicText (rest.length + 1) rest
  | '\'' :: rest => literalText rest
  | _ => none

/-- Reads a quoted text of any kind, opening quotes included. A line end right after three quotes
does not belong to the text. -/
def quotation? : List Char → Option (List Char × List Char)
  | '"' :: '"' :: '"' :: rest => longText '"' true (rest.length + 1) (withoutLineEnd rest)
  | '\'' :: '\'' :: '\'' :: rest => longText '\'' false (rest.length + 1) (withoutLineEnd rest)
  | letters => shortQuotation? letters

end CompositeKeys.Toml
