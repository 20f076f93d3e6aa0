import CompositeKeys.Text.Blank
import CompositeKeys.Text.Substitution

/-! Identifiers of generated code are ASCII words that are not reserved. Names between double
underscores are kept for the generator's own use: no declared name has that form, and no text of
documentation may contain such a name. -/

namespace CompositeKeys
open Text

/-- The words that the language of generated code, read as a strict module, keeps for itself. -/
def reservedWords : List (List Char) :=
  ["await", "break", "case", "catch", "class", "const", "continue", "debugger", "default",
    "delete", "do", "else", "enum", "export", "extends", "false", "finally", "for", "function",
    "if", "implements", "import", "in", "instanceof", "interface", "let", "new", "null",
    "package", "private", "protected", "public", "return", "static", "super", "switch", "this",
    "throw", "true", "try", "typeof", "var", "void", "while", "with", "yield"].map String.toList

/-- The letters that a word may begin with; ASCII only. -/
def isWordStart (letter : Char) : Bool :=
  letter.isAlpha || letter = '_' || letter = '$'

/-- The letters that a word may go on with; ASCII only. -/
def isWordPart (letter : Char) : Bool :=
  letter.isAlphanum || letter = '_' || letter = '$'

def isWord : List Char → Bool
  | [] => false
  | first :: rest => isWordStart first && rest.all isWordPart

def isIdentifier (letters : List Char) : Bool :=
  isWord letters && letters ∉ reservedWords

/-- Whether a name on one line begins and ends with two underscores of its own. -/
def isReservedName (letters : List Char) : Bool :=
  4 ≤ letters.length && ['_', '_'].isPrefixOf letters && ['_', '_'].isSuffixOf letters &&
    '\n' ∉ letters

/-- Whether a word between double underscores begins a text. -/
def beginsReservedName (letters : List Char) : Bool :=
  match after? ['_', '_'] letters with
  | some inner => occursIn ['_', '_'] (inner.takeWhile isWordPart).tail
  | none => false

/-- Whether a word between double underscores occurs in a text. -/
def containsReservedName : List Char → Bool
  | [] => false
  | letter :: rest => beginsReservedName (letter :: rest) || containsReservedName rest

/-- The names of built-in collections, which no class may take. -/
def reservedClassNames : List String := ["Map", "Set", "WeakMap", "WeakSet"]

/-- The name of the value in collections that have one. -/
def valueName : String := "value"

end CompositeKeys
