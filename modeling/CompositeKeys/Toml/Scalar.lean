import CompositeKeys.Records.Value
import CompositeKeys.Toml.Quotation

/-! The values that are written without quotes: booleans, numbers and points in time. -/

namespace CompositeKeys.Toml
open Records

def isDecimal (letter : Char) : Bool := '0' ≤ letter && letter ≤ '9'

/-- The value of digits in a base, which may be grouped by single underscores between digits. -/
def digits? (base : Nat) (letters : List Char) : Option Nat :=
  match letters with
  | [] => none
  | first :: rest =>
    let digit? := fun letter => (hexValue? letter).filter (· < base)
    let rec go (value : Nat) : List Char → Option Nat
      | [] => some value
      | '_' :: letter :: rest => (digit? letter).bind fun digit => go (base * value + digit) rest
      | letter :: rest => (digit? letter).bind fun digit => go (base * value + digit) rest
    (digit? first).bind fun digit => go digit rest

/-- The value of a decimal number without a sign, which begins with a zero only if it is zero. -/
def decimal? (letters : List Char) : Option Nat :=
  if letters.head? = some '0' ∧ 1 < letters.length then none else digits? 10 letters

/-- Takes a sign off. -/
def unsigned : List Char → List Char
  | '+' :: rest | '-' :: rest => rest
  | letters => letters

def integer? : List Char → Option Int
  | '0' :: 'x' :: rest => (digits? 16 rest).map .ofNat
  | '0' :: 'o' :: rest => (digits? 8 rest).map .ofNat
  | '0' :: 'b' :: rest => (digits? 2 rest).map .ofNat
  | '-' :: rest => (decimal? rest).map fun value => -(value : Int)
  | letters => (decimal? (unsigned letters)).map .ofNat

/-- Whether an integer can be held: by 128 bits with a sign, or by as many without one. -/
def fits (value : Int) : Bool :=
  -170141183460469231731687303715884105728 ≤ value
    && value ≤ 340282366920938463463374607431768211455

def isExponentMark (letter : Char) : Bool := letter = 'e' || letter = 'E'

/-- A number without its sign, as it is written: the digits before the point, those after it, and
the power of ten that it is multiplied by. -/
structure Decimal where
  whole : List Char
  part : List Char := []
  exponent : Int := 0
  deriving DecidableEq, Repr

/-- The digits of a number, without the underscores that group them. -/
def ungrouped (letters : List Char) : List Char := letters.filter (· ≠ '_')

/-- Reads a number with a fraction, an exponent or both. -/
def decimalFraction? (letters : List Char) : Option Decimal := do
  let mantissa := letters.takeWhile (!isExponentMark ·)
  let power := letters.drop mantissa.length
  let whole := mantissa.takeWhile (· ≠ '.')
  let part := mantissa.drop whole.length
  let _ ← decimal? whole
  if part = [] ∧ power = [] then none
  if part ≠ [] then let _ ← digits? 10 (part.drop 1)
  let size ← if power = [] then pure 0 else digits? 10 (unsigned (power.drop 1))
  return {
    whole := ungrouped whole
    part := ungrouped (part.drop 1)
    exponent := if power[1]? = some '-' then -(size : Int) else size }

/-- Half a unit more than the greatest finite number of 64 bits. -/
def floatBound : Nat := (Nat.pow 2 54 - 1) * Nat.pow 2 970

/-- Whether a number is too great for a floating-point number of 64 bits, which cannot be when it
has less than 300 digits before the point, and has to be when it has more than 310. -/
def Decimal.overflows (number : Decimal) : Bool :=
  let digits := (number.whole ++ number.part).dropWhile (· = '0')
  let power := number.exponent - number.part.length
  let size := digits.length + power
  if digits = [] ∨ size < 300 then false
  else if 310 < size then true
  else
    let value := (digits? 10 digits).getD 0
    if power < 0 then floatBound * Nat.pow 10 power.natAbs ≤ value
    else floatBound ≤ value * Nat.pow 10 power.natAbs

/-- Whether the letters are a number that is no integer: one that is not finite, or one with a
fraction or an exponent, which has to be one of 64 bits. -/
def isFraction (letters : List Char) : Bool :=
  let body := unsigned letters
  body = "inf".toList || body = "nan".toList || (decimalFraction? body).any (!·.overflows)

def isLeapYear (year : Nat) : Bool := year % 4 = 0 && (year % 100 ≠ 0 || year % 400 = 0)

def daysOf (year month : Nat) : Nat :=
  if month = 2 then if isLeapYear year then 29 else 28
  else if month ∈ [4, 6, 9, 11] then 30 else 31

/-- The value of exactly `count` decimal digits, and what follows them. -/
def padded? (count : Nat) (letters : List Char) : Option (Nat × List Char) :=
  let digits := letters.take count
  if digits.length = count ∧ digits.all isDecimal then
    some (digits.foldl (fun value letter => 10 * value + (letter.toNat - '0'.toNat)) 0,
      letters.drop count)
  else none

/-- Reads a date. -/
def date? (letters : List Char) : Option (List Char) := do
  let (year, '-' :: rest) ← padded? 4 letters | none
  let (month, '-' :: rest) ← padded? 2 rest | none
  let (day, rest) ← padded? 2 rest
  if 1 ≤ month ∧ month ≤ 12 ∧ 1 ≤ day ∧ day ≤ daysOf year month then some rest else none

/-- Reads a time of day. -/
def time? (letters : List Char) : Option (List Char) := do
  let (hour, ':' :: rest) ← padded? 2 letters | none
  let (minute, ':' :: rest) ← padded? 2 rest | none
  let (second, rest) ← padded? 2 rest
  if 23 < hour ∨ 59 < minute ∨ 60 < second then none
  else match rest with
    | '.' :: more =>
      if more.head?.any isDecimal then some (more.dropWhile isDecimal) else none
    | _ => some rest

/-- Whether the letters are the distance from universal time. -/
def isOffset : List Char → Bool
  | ['Z'] | ['z'] => true
  | '+' :: rest | '-' :: rest =>
    match padded? 2 rest with
    | some (hours, ':' :: rest) =>
      match padded? 2 rest with
      | some (minutes, []) => hours ≤ 23 && minutes ≤ 59
      | _ => false
    | _ => false
  | _ => false

/-- A date, a time of day, or both with or without an offset. -/
def isMoment (letters : List Char) : Bool :=
  match date? letters with
  | some [] => true
  | some (mark :: rest) =>
    (mark = 'T' || mark = 't' || mark = ' ')
      && (time? rest).any fun offset => offset = [] || isOffset offset
  | none => time? letters = some []

def isBareValue (letter : Char) : Bool :=
  letter.isAlphanum || letter ∈ ['+', '-', '_', '.', ':']

/-- The letters of an unquoted value and what follows them. A date takes a time after one space
with it. -/
def bareValue (letters : List Char) : List Char × List Char :=
  let word := letters.takeWhile isBareValue
  let rest := letters.dropWhile isBareValue
  match date? word, rest with
  | some [], ' ' :: digit :: more =>
    if isDecimal digit then
      (word ++ ' ' :: (digit :: more).takeWhile isBareValue, (digit :: more).dropWhile isBareValue)
    else (word, rest)
  | _, _ => (word, rest)

/-- The value of a word that stands without quotes. -/
def scalar? (word : List Char) : Option Value :=
  if word = "true".toList then some (.boolean true)
  else if word = "false".toList then some (.boolean false)
  else match integer? word with
    | some value => if fits value then some (.integer value) else none
    | none =>
      if isFraction word then some (.fraction (.ofList word))
      else if isMoment word then some (.moment (.ofList word))
      else none

end CompositeKeys.Toml
