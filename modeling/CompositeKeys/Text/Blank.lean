/-! Blank characters are the twenty-five characters with the Unicode property White_Space.
The byte order mark, the zero-width space and the separators below U+0020 are not blank. -/

namespace CompositeKeys.Text

/-- The characters with the property White_Space, as ranges of code points. -/
def blankRanges : List (Nat × Nat) :=
  [(0x09, 0x0d), (0x20, 0x20), (0x85, 0x85), (0xa0, 0xa0), (0x1680, 0x1680), (0x2000, 0x200a),
    (0x2028, 0x2029), (0x202f, 0x202f), (0x205f, 0x205f), (0x3000, 0x3000)]

def isBlank (c : Char) : Bool :=
  blankRanges.any fun range => range.1 ≤ c.toNat && c.toNat ≤ range.2

/-- Drops the blanks at the front. -/
def unindented (letters : List Char) : List Char :=
  letters.dropWhile isBlank

/-- Drops the blanks at the end. -/
def unpadded (letters : List Char) : List Char :=
  (letters.reverse.dropWhile isBlank).reverse

/-- Drops the blanks at both ends. -/
def stripped (letters : List Char) : List Char :=
  unpadded (unindented letters)

def trimStart (text : String) : String := .ofList (unindented text.toList)

def trimEnd (text : String) : String := .ofList (unpadded text.toList)

def trim (text : String) : String := .ofList (stripped text.toList)

/-- A text of blanks only, the empty text among them. -/
def isBlankText (text : String) : Bool := text.toList.all isBlank

/-- What follows a given beginning, if the text begins that way. -/
def after? (start : List Char) (letters : List Char) : Option (List Char) :=
  if start.isPrefixOf letters then some (letters.drop start.length) else none

/-- What precedes a given ending, if the text ends that way. -/
def before? (ending : List Char) (letters : List Char) : Option (List Char) :=
  if ending.isSuffixOf letters then some (letters.take (letters.length - ending.length)) else none

end CompositeKeys.Text
