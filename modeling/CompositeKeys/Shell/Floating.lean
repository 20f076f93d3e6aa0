import CompositeKeys.Shell.Arithmetic

/-! Numbers with fractions. A number is an integer times a power of two, so that what it is in
decimal can be told exactly, and is rounded only where it is read and where it is written. -/

namespace CompositeKeys.Shell

inductive Floating where
  | finite (isNegative : Bool) (mantissa : Nat) (exponent : Int)
  | infinite (isNegative : Bool)
  | undefined (isNegative : Bool)
  deriving DecidableEq, Repr, Inhabited

/-- How precise numbers are: how many bits a mantissa has, the exponent of the least bit that there
can be, and of the first that is too great. -/
structure Precision where
  bits : Nat
  least : Int
  greatest : Int

namespace Precision

def double : Precision := { bits := 53, least := -1074, greatest := 1024 }

def extended : Precision := { bits := 64, least := -16445, greatest := 16384 }

end Precision

namespace Floating

/-- The integer that is nearest to a fraction, an even one if there are two. -/
def nearest (numerator denominator : Nat) : Nat :=
  let quotient := numerator / denominator
  let twice := 2 * (numerator % denominator)
  if denominator < twice ∨ (twice = denominator ∧ quotient % 2 = 1) then quotient + 1
  else quotient

/-- The integer that is nearest to a fraction divided by a power of a base. -/
def nearestShifted (base numerator denominator : Nat) (exponent : Int) : Nat :=
  if 0 ≤ exponent then nearest numerator (denominator * Nat.pow base exponent.toNat)
  else nearest (numerator * Nat.pow base (-exponent).toNat) denominator

/-- The number that is nearest to a fraction. -/
def ofRatio (precision : Precision) (isNegative : Bool) (numerator denominator : Nat) : Floating :=
  if numerator = 0 then .finite isNegative 0 0
  else
    let size : Int := (numerator.log2 : Int) - denominator.log2
    let high := size - precision.bits + 1
    let isFull := if 0 ≤ high
      then Nat.pow 2 (precision.bits - 1) * (denominator * Nat.pow 2 high.toNat) ≤ numerator
      else Nat.pow 2 (precision.bits - 1) * denominator ≤ numerator * Nat.pow 2 (-high).toNat
    let exponent := max precision.least (if isFull then high else high - 1)
    let mantissa := nearestShifted 2 numerator denominator exponent
    if mantissa ≠ 0 ∧ precision.greatest ≤ exponent + mantissa.log2 then .infinite isNegative
    else .finite isNegative mantissa exponent

/-- The number that is nearest to an integer times a power of ten. -/
def ofDecimal (precision : Precision) (isNegative : Bool) (digits : Nat) (exponent : Int) :
    Floating :=
  let magnitude := exponent + (Nat.toDigits 10 digits).length
  if digits = 0 ∨ magnitude < -5200 then .finite isNegative 0 0
  else if 5200 < magnitude then .infinite isNegative
  else if 0 ≤ exponent then ofRatio precision isNegative (digits * Nat.pow 10 exponent.toNat) 1
  else ofRatio precision isNegative digits (Nat.pow 10 (-exponent).toNat)

def isNegative : Floating → Bool
  | .finite isNegative _ _ | .infinite isNegative | .undefined isNegative => isNegative

/-- The digits at the front of letters in a base, as a number, with how many there are. -/
def digitsAtFront (base : Nat) (letters : List Char) : Nat × Nat :=
  let digits := letters.takeWhile fun letter =>
    ((Arithmetic.digitValue? letter).filter (· < base)).isSome
  ((Arithmetic.inBase? base digits).getD 0, digits.length)

/-- An exponent at the front of letters, with how many letters it takes. It is nothing without a
digit. -/
def exponentAtFront (mark : Char) (letters : List Char) : Int × Nat :=
  match letters with
  | letter :: rest =>
    if letter.toLower ≠ mark then (0, 0)
    else
      let (isNegative, count, digits) := match rest with
        | '-' :: digits => (true, 2, digits)
        | '+' :: digits => (false, 2, digits)
        | _ => (false, 1, rest)
      let (value, size) := digitsAtFront 10 digits
      let value := min value 100000
      if size = 0 then (0, 0) else (if isNegative then -value else value, count + size)
  | [] => (0, 0)

/-- The number at the front of letters, without a sign, in a base, with how many letters it takes.
-/
def unsignedAtFront? (precision : Precision) (isNegative : Bool) (base : Nat)
    (letters : List Char) : Option (Floating × Nat) :=
  let (_, wholeSize) := digitsAtFront base letters
  let (places, point) := match letters.drop wholeSize with
    | '.' :: rest => ((digitsAtFront base rest).2, 1)
    | _ => (0, 0)
  if wholeSize + places = 0 then none
  else
    let digits := letters.take wholeSize ++ (letters.drop (wholeSize + point)).take places
    let mantissa := (Arithmetic.inBase? base digits).getD 0
    let size := wholeSize + point + places
    let (exponent, more) := exponentAtFront (if base = 16 then 'p' else 'e') (letters.drop size)
    let value :=
      if base = 16 then
        let exponent := exponent - 4 * places
        let clamped := max (-20000) (min 20000 exponent)
        if 0 ≤ clamped then ofRatio precision isNegative (mantissa * Nat.pow 2 clamped.toNat) 1
        else ofRatio precision isNegative mantissa (Nat.pow 2 (-clamped).toNat)
      else ofDecimal precision isNegative mantissa (exponent - places)
    some (value, size + more)

/-- The number at the front of letters, with what is left of them. -/
def atFront? (precision : Precision) (letters : List Char) : Option (Floating × List Char) :=
  let letters := letters.dropWhile fun letter => letter.isWhitespace || letter = '\x0b' ||
    letter = '\x0c'
  let (isNegative, rest) := match letters with
    | '-' :: rest => (true, rest)
    | '+' :: rest => (false, rest)
    | _ => (false, letters)
  let beginsWith := fun word : String =>
    (rest.take word.length).map Char.toLower = word.toList
  if beginsWith "infinity" then some (.infinite isNegative, rest.drop 8)
  else if beginsWith "inf" then some (.infinite isNegative, rest.drop 3)
  else if beginsWith "nan" then some (.undefined isNegative, rest.drop 3)
  else
    let hexadecimal? := if beginsWith "0x" then
        unsignedAtFront? precision isNegative 16 (rest.drop 2)
      else none
    match hexadecimal? with
    | some (value, size) => some (value, rest.drop (size + 2))
    | none => (unsignedAtFront? precision isNegative 10 rest).map fun (value, size) =>
      (value, rest.drop size)

/-- A mantissa times a power of two, times a power of ten, rounded to an integer. -/
def scaled (mantissa : Nat) (exponent power : Int) : Nat :=
  let numerator := (if 0 ≤ exponent then mantissa * Nat.pow 2 exponent.toNat else mantissa) *
    (if 0 ≤ power then Nat.pow 10 power.toNat else 1)
  let denominator := (if exponent < 0 then Nat.pow 2 (-exponent).toNat else 1) *
    (if power < 0 then Nat.pow 10 (-power).toNat else 1)
  nearest numerator denominator

/-- Whether a mantissa times a power of two is at least a power of ten. -/
def reaches (mantissa : Nat) (exponent power : Int) : Bool :=
  let left := (if 0 ≤ exponent then mantissa * Nat.pow 2 exponent.toNat else mantissa) *
    (if power < 0 then Nat.pow 10 (-power).toNat else 1)
  let right := (if exponent < 0 then Nat.pow 2 (-exponent).toNat else 1) *
    (if 0 ≤ power then Nat.pow 10 power.toNat else 1)
  right ≤ left

/-- The power of ten that the first digit stands for. -/
def decimalExponent (mantissa : Nat) (exponent : Int) : Int :=
  if mantissa = 0 then 0
  else
    let guess := ((mantissa.log2 + exponent) * 30103).fdiv 100000
    if reaches mantissa exponent (guess + 1) then guess + 1
    else if reaches mantissa exponent guess then guess
    else guess - 1

/-- So many digits from the first one on, with the power of ten that the first one stands for. -/
def significant (mantissa : Nat) (exponent : Int) (count : Nat) : List Char × Int :=
  let power := decimalExponent mantissa exponent
  let digits := Nat.toDigits 10 (scaled mantissa exponent (count - 1 - power))
  if mantissa = 0 then (List.replicate count '0', 0)
  else if count < digits.length then (digits.take count, power + 1)
  else (digits, power)

/-- How a number is written: with a fixed number of places, with an exponent, or as is shorter. -/
inductive Style where
  | fixed
  | exponential
  | general
  deriving DecidableEq, Repr

def withPoint (needsPoint : Bool) (whole places : List Char) : List Char :=
  whole ++ (if places ≠ [] || needsPoint then ['.'] else []) ++ places

def fixedText (mantissa : Nat) (exponent : Int) (places : Nat) (needsPoint : Bool) : List Char :=
  let digits := Nat.toDigits 10 (scaled mantissa exponent places)
  let digits := List.replicate (places + 1 - digits.length) '0' ++ digits
  let whole := digits.length - places
  withPoint needsPoint (digits.take whole) (digits.drop whole)

def exponentText (exponent : Int) : List Char :=
  let digits := Nat.toDigits 10 exponent.natAbs
  ['e', if exponent < 0 then '-' else '+'] ++ List.replicate (2 - digits.length) '0' ++ digits

def withoutZeros (digits : List Char) : List Char := (digits.reverse.dropWhile (· = '0')).reverse

/-- A number without its sign. -/
def text (style : Style) (precision : Nat) (isMarked : Bool) (value : Floating) : List Char :=
  match value with
  | .infinite _ => "inf".toList
  | .undefined _ => "nan".toList
  | .finite _ mantissa exponent =>
    match style with
    | .fixed => fixedText mantissa exponent precision isMarked
    | .exponential =>
      let (digits, power) := significant mantissa exponent (precision + 1)
      withPoint isMarked (digits.take 1) (digits.drop 1) ++ exponentText power
    | .general =>
      let count := max precision 1
      let (digits, power) := significant mantissa exponent count
      let kept := fun places : List Char => if isMarked then places else withoutZeros places
      if power < -4 || (count : Int) ≤ power then
        withPoint isMarked (digits.take 1) (kept (digits.drop 1)) ++ exponentText power
      else
        let places := (count - 1 - power).toNat
        let whole := fixedText mantissa exponent places false
        withPoint isMarked (whole.takeWhile (· ≠ '.'))
          (kept ((whole.dropWhile (· ≠ '.')).drop 1))

/-- A number without its sign in base sixteen, with a digit before the point. The digits behind it
are as many as there are whole ones in the bits that are kept of a number, and the first digit is
for those bits that are left over. -/
def hexadecimalText (kept : Precision) (precision : Option Nat) (isMarked : Bool)
    (value : Floating) : List Char :=
  match value with
  | .infinite _ => "inf".toList
  | .undefined _ => "nan".toList
  | .finite _ mantissa exponent =>
    let top := kept.bits - 1
    let limit := top / 4
    let spare := (top : Int) - mantissa.log2
    let bits := mantissa * Nat.pow 2 spare.toNat / Nat.pow 2 (-spare).toNat
    let places := min limit (precision.getD limit)
    let digits := nearest bits (Nat.pow 16 (limit - places))
    let all := Nat.toDigits 16 digits
    let isCarried := places + 1 < all.length
    let power := if mantissa = 0 then 0
      else exponent + 4 * limit - spare + (if isCarried then 4 else 0)
    let all := List.replicate (places + 1 - all.length) '0' ++ all
    let fraction := (all.drop 1).take places
    let fraction := match precision with
      | none => withoutZeros fraction
      | some count => fraction ++ List.replicate (count - limit) '0'
    "0x".toList ++ withPoint isMarked (all.take 1) fraction ++
      ['p', if power < 0 then '-' else '+'] ++ Nat.toDigits 10 power.natAbs

def ofFloat (value : Float) : Floating :=
  let bits := value.toBits.toNat
  let isNegative := Nat.pow 2 63 ≤ bits
  let exponent : Nat := bits / Nat.pow 2 52 % 2048
  let fraction : Nat := bits % Nat.pow 2 52
  if exponent = 2047 then if fraction = 0 then .infinite isNegative else .undefined isNegative
  else if exponent = 0 then .finite isNegative fraction (-1074)
  else .finite isNegative (Nat.pow 2 52 + fraction) ((exponent : Int) - 1075)

def toFloat (value : Floating) : Float :=
  let sign := if value.isNegative then Nat.pow 2 63 else 0
  let bits := match value with
    | .infinite _ => 2047 * Nat.pow 2 52
    | .undefined _ => 2047 * Nat.pow 2 52 + Nat.pow 2 51
    | .finite _ mantissa exponent =>
      let rounded := if 0 ≤ exponent
        then ofRatio .double false (mantissa * Nat.pow 2 exponent.toNat) 1
        else ofRatio .double false mantissa (Nat.pow 2 (-exponent).toNat)
      match rounded with
      | .finite _ mantissa exponent =>
        let spare := if mantissa = 0 then 0 else min (52 - mantissa.log2) (exponent + 1074).toNat
        let mantissa := mantissa * Nat.pow 2 spare
        if mantissa < Nat.pow 2 52 then mantissa
        else mantissa - Nat.pow 2 52 + (exponent - spare + 1075).toNat * Nat.pow 2 52
      | _ => 2047 * Nat.pow 2 52
  Float.ofBits (UInt64.ofNat (sign + bits))

end Floating

end CompositeKeys.Shell
