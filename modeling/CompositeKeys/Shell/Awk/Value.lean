import CompositeKeys.Shell.Formatting

/-! Values of a language for records of text. A text that was read, and that spells a number, counts
as a number as well as a text. -/

namespace CompositeKeys.Shell.Awk

inductive Value where
  | nothing
  | number (value : Float)
  | text (letters : String)
  | numeral (letters : String) (value : Float)
  deriving Inhabited

/-- The integer that a finite number is, if it is one. -/
def integer? (value : Float) : Option Int :=
  match Floating.ofFloat value with
  | .finite isNegative mantissa exponent =>
    let scaled := if 0 ≤ exponent then some (mantissa * Nat.pow 2 exponent.toNat)
      else
        let unit := Nat.pow 2 (-exponent).toNat
        if mantissa % unit = 0 then some (mantissa / unit) else none
    scaled.map fun size => if isNegative then -(size : Int) else size
  | _ => none

/-- A number without its fraction, between two bounds. -/
def truncated (value : Float) (least most : Int) : Int :=
  match Floating.ofFloat value with
  | .finite isNegative mantissa exponent =>
    let size : Nat := if 0 ≤ exponent then mantissa * Nat.pow 2 exponent.toNat
      else mantissa / Nat.pow 2 (-exponent).toNat
    max least (min most (if isNegative then -(size : Int) else size))
  | .infinite isNegative => if isNegative then least else most
  | .undefined _ => least

/-- The greatest number of a word. -/
def wordLimit : Int := Nat.pow 2 63 - 1

/-- A number that is laid out. The sign of what is no number is shown. -/
def laidOut (layout : Formatting.Layout) (letter : Char) (value : Float) : List Char :=
  if "di".contains letter && value < 9223372036854775808.0 then
    layout.signed (truncated value (-wordLimit) wordLimit)
  else if "dioxXu".contains letter then
    let bits := if value < 0.0 then truncated value (-wordLimit) wordLimit
      else truncated value 0 (Nat.pow 2 64 - 1)
    let base := if letter = 'o' then 8 else if letter.toLower = 'x' then 16 else 10
    layout.unsigned base (letter = 'X') bits
  else
    let found := Floating.ofFloat value
    layout.floating .double letter (if found matches .undefined _ then .undefined true else found)

/-- The flags, the width and the precision at the front of letters, with what is left of them. -/
def layoutAtFront (letters : List Char) : Formatting.Layout × List Char :=
  let flags := letters.takeWhile ("-+ #0".contains ·)
  let number := fun letters : List Char =>
    let digits := letters.takeWhile Char.isDigit
    (Arithmetic.inBase? 10 digits, letters.drop digits.length)
  let (width, rest) := number (letters.drop flags.length)
  let width := width.getD 0
  match rest with
  | '.' :: rest =>
    let (precision, rest) := number rest
    ({ flags, width, precision := some (precision.getD 0) }, rest)
  | _ => ({ flags, width }, rest)

/-- A number under a format that has one directive. -/
def formatted : List Char → Float → List Char
  | [], _ => []
  | '%' :: '%' :: rest, value => '%' :: formatted rest value
  | '%' :: rest, value =>
    let (layout, after) := layoutAtFront rest
    match after with
    | letter :: after => laidOut layout letter value ++ after
    | [] => []
  | letter :: rest, value => letter :: formatted rest value

/-- The text of a number. An integer shows all its digits, and others are formatted. -/
def numberText (format : String) (value : Float) : String :=
  let bound : Int := Nat.pow 2 63
  let limit : Int := Nat.pow 2 64
  match (integer? value).filter fun whole => -bound ≤ whole && whole ≤ limit with
  | some whole => toString (min whole (limit - 1))
  | none => .ofList (formatted format.toList value)

/-- The number that a text begins with, or zero. -/
def numberOf (text : String) : Float :=
  ((Floating.atFront? .double text.toList).map fun found => found.1.toFloat).getD 0.0

def isBlank (letter : Char) : Bool := letter = ' ' || ('\t' ≤ letter && letter ≤ '\r')

/-- The number that a text is, between blanks. -/
def numeral? (text : String) : Option Float :=
  let letters := text.toList.dropWhile isBlank
  let unsigned := match letters with
    | '-' :: rest | '+' :: rest => rest
    | _ => letters
  let isPlain := unsigned.head?.any fun letter => letter.isDigit || letter = '.'
  if isPlain && (unsigned.drop 1).head?.all (fun letter => letter ≠ 'x' && letter ≠ 'X') then
    match Floating.atFront? .double letters with
    | some (value, rest) =>
      let rest := if rest.head?.any ("eE".contains ·) then rest.drop 1 else rest
      if rest.all isBlank then some value.toFloat else none
    | none => none
  else none

namespace Value

/-- A text that has been read. -/
def read (text : String) : Value :=
  match numeral? text with
  | some value => .numeral text value
  | none => .text text

def toNumber : Value → Float
  | .nothing => 0.0
  | .number value | .numeral _ value => value
  | .text letters => numberOf letters

def toText (format : String) : Value → String
  | .nothing => ""
  | .number value => numberText format value
  | .text letters | .numeral letters _ => letters

def holds : Value → Bool
  | .nothing => false
  | .number value | .numeral _ value => value != 0.0
  | .text letters => letters != ""

def ofBool (value : Bool) : Value := .number (if value then 1.0 else 0.0)

def ofNat (value : Nat) : Value := .number (Float.ofNat value)

def ofInt (value : Int) : Value := .number (Float.ofInt value)

def isText : Value → Bool
  | .text _ => true
  | _ => false

/-- How two values compare: as texts if one of them is nothing else, and as numbers otherwise. The
answer is missing where a number is undefined. -/
def compare (format : String) (first second : Value) : Option Ordering :=
  if first.isText || second.isText then
    some (Ord.compare (first.toText format) (second.toText format))
  else
    let left := first.toNumber
    let right := second.toNumber
    if left < right then some .lt
    else if right < left then some .gt
    else if left == right then some .eq
    else none

end Value

end CompositeKeys.Shell.Awk
