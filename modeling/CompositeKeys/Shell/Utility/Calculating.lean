import CompositeKeys.Shell.Utility.Viewing

/-! Utilities that calculate: one evaluates an expression whose operands and operators are words,
others count from one number to another and take numbers apart. -/

namespace CompositeKeys.Shell.Utility
open Procedure

/-- What is wrong with an expression of words. -/
inductive WordError where
  | syntaxError (reason : String)
  | expression (reason : String)
  | notInteger
  | divisionByZero
  deriving DecidableEq, Repr

def WordError.message : WordError → String
  | .syntaxError reason => s!"syntax error: {reason}"
  | .expression reason => reason
  | .notInteger => "non-integer argument"
  | .divisionByZero => "division by zero"

/-- The words that are left, and the last one that has been read. -/
structure Words where
  left : List String
  last : String := ""

abbrev Calculation := StateT Words (Except WordError)

/-- Takes the next word, which has to be there. -/
def nextWord : Calculation String := do
  match (← get).left with
  | [] => throw (.syntaxError s!"missing argument after {quotedWord (← get).last}")
  | word :: words =>
    set ({ left := words, last := word } : Words)
    return word

/-- The operators by their levels, the weakest first. -/
def wordLevels : List (List String) :=
  [["|"], ["&"], ["<", "<=", "=", "==", "!=", ">=", ">"], ["+", "-"], ["*", "/", "%"], [":"]]

/-- The integer that a whole text spells. -/
def integer? (text : String) : Option Int :=
  match text.toList with
  | '-' :: digits => (number? (.ofList digits)).map fun value => -(value : Int)
  | _ => (number? text).map Int.ofNat

def isNothing (value : String) : Bool := value = "" || integer? value = some 0

/-- What a regular expression at the front of a text stands for: its first group if it has one, or
else the number of its letters. -/
def matchedFront (text expression : String) : Except WordError String := do
  let regex ← (Regex.parse .basic expression).mapError .expression
  let letters := text.toList.toArray
  match (regex.matcher { endsAtLines := true }).at? letters 0 with
  | none => return if 0 < regex.groupCount then "" else "0"
  | some found =>
    if 0 < regex.groupCount then return .ofList (found.group letters 1)
    else return toString found.finish

def operateOn (operator first second : String) : Except WordError String := do
  let integer := fun text : String =>
    match integer? text with
    | some value => Except.ok value
    | none => .error WordError.notInteger
  let compared := match integer? first, integer? second with
    | some first, some second => compare first second
    | _, _ => compare first second
  let ofBool := fun value : Bool => if value then "1" else "0"
  match operator with
  | "|" => return if !isNothing first then first else if isNothing second then "0" else second
  | "&" => return if isNothing first || isNothing second then "0" else first
  | "<" => return ofBool (compared = .lt)
  | "<=" => return ofBool (compared ≠ .gt)
  | "=" | "==" => return ofBool (compared = .eq)
  | "!=" => return ofBool (compared ≠ .eq)
  | ">=" => return ofBool (compared ≠ .lt)
  | ">" => return ofBool (compared = .gt)
  | "+" => return toString ((← integer first) + (← integer second))
  | "-" => return toString ((← integer first) - (← integer second))
  | "*" => return toString ((← integer first) * (← integer second))
  | ":" => matchedFront first second
  | _ =>
    let left ← integer first
    let right ← integer second
    if right = 0 then throw .divisionByZero
    return toString (if operator = "/" then left.tdiv right else left.tmod right)

/-- The part of a text from a position on, which is counted from one. -/
def partOf (text position size : String) : String :=
  match integer? position, integer? size with
  | some position, some size =>
    if position ≤ 0 ∨ size ≤ 0 then ""
    else .ofList ((text.toList.drop (position.toNat - 1)).take size.toNat)
  | _, _ => ""

mutual

/-- The value of operands and operators of some levels. What does not count is read, but nothing is
made of it. -/
def operandOf (counts : Bool) (levels : List (List String)) : Nat → Calculation String
  | 0 => throw (.syntaxError "too deep")
  | fuel + 1 => do
    match levels with
    | [] => primaryOf counts fuel
    | level :: rest => furtherOf counts level rest (← operandOf counts rest fuel) fuel
termination_by structural fuel => fuel

def furtherOf (counts : Bool) (level : List String) (rest : List (List String)) (first : String) :
    Nat → Calculation String
  | 0 => throw (.syntaxError "too deep")
  | fuel + 1 => do
    match (← get).left with
    | operator :: _ =>
      if level.contains operator then
        let _ ← nextWord
        let countsNext := counts && (if operator = "|" then isNothing first
          else operator ≠ "&" || !isNothing first)
        let second ← operandOf countsNext rest fuel
        let value ← if !counts then pure ""
          else if operator = "|" && !isNothing first then pure first
          else if operator = "&" && isNothing first then pure "0"
          else operateOn operator first second
        furtherOf counts level rest value fuel
      else return first
    | [] => return first
termination_by structural fuel => fuel

def primaryOf (counts : Bool) : Nat → Calculation String
  | 0 => throw (.syntaxError "too deep")
  | fuel + 1 => do
    match ← nextWord with
    | "(" =>
      let value ← operandOf counts wordLevels fuel
      match (← get).left with
      | ")" :: _ => let _ ← nextWord; return value
      | [] => throw (.syntaxError s!"expecting ')' after {quotedWord (← get).last}")
      | word :: _ => throw (.syntaxError s!"expecting ')' instead of {quotedWord word}")
    | ")" => throw (.syntaxError "unexpected ')'")
    | "+" => nextWord
    | "length" => return toString (← primaryOf counts fuel).length
    | "match" =>
      let text ← primaryOf counts fuel
      let expression ← primaryOf counts fuel
      if counts then matchedFront text expression else return ""
    | "index" =>
      let text ← primaryOf counts fuel
      let letters ← primaryOf counts fuel
      return toString (((text.toList.findIdx? letters.toList.contains).map (· + 1)).getD 0)
    | "substr" =>
      let text ← primaryOf counts fuel
      let position ← primaryOf counts fuel
      return partOf text position (← primaryOf counts fuel)
    | word => return word
termination_by structural fuel => fuel

end

def calculate (name : String) (words : List String) : Procedure Unit := do
  let words := if words.head? = some "--" then words.drop 1 else words
  if words = [] then suggestHelp name "missing operand" 2
  else
    let work := do
      let value ← operandOf true wordLevels (20 * (words.length + 1))
      match (← get).left with
      | [] => return value
      | word :: _ => throw (WordError.syntaxError s!"unexpected argument {quotedWord word}")
    match (work : Calculation String).run { left := words } with
    | .error error =>
      complain name error.message
      setStatus 2
    | .ok (value, _) =>
      emit (value ++ "\n")
      setStatus (if isNothing value then 1 else 0)

/-- A number in decimal: an integer in units of its last place. -/
structure Decimal where
  units : Int
  places : Nat
  width : Nat := 0

namespace Decimal

/-- The same number in units of a later place. -/
def unitsAt (places : Nat) (number : Decimal) : Int :=
  number.units * Nat.pow 10 (places - number.places)

/-- The number that a text spells. -/
def ofText? (text : String) : Option Decimal :=
  let letters := text.toList.dropWhile Char.isWhitespace
  let (isNegative, body) := match letters with
    | '-' :: rest => (true, rest)
    | '+' :: rest => (false, rest)
    | _ => (false, letters)
  let signed := fun value : Nat => if isNegative then -(value : Int) else value
  let whole := body.takeWhile Char.isDigit
  let rest := body.drop whole.length
  let (places, rest) := match rest with
    | '.' :: after => (after.takeWhile Char.isDigit, after.dropWhile Char.isDigit)
    | _ => ([], rest)
  let value := (Arithmetic.inBase? 10 (whole ++ places)).getD 0
  match body, rest with
  | '0' :: mark :: digits, _ =>
    if mark = 'x' || mark = 'X' then
      (Arithmetic.inBase? 16 digits).bind fun value =>
        if digits = [] then none else some { units := signed value, places := 0 }
    else decimal signed whole places rest value
  | _, _ => decimal signed whole places rest value
where
  decimal (signed : Nat → Int) (whole places rest : List Char) (value : Nat) : Option Decimal :=
    if whole = [] && places = [] then none
    else match rest with
      | [] => some { units := signed value, places := places.length }
      | mark :: exponent =>
        if mark = 'e' || mark = 'E' then
          let (isNegative, digits) := match exponent with
            | '-' :: digits => (true, digits)
            | '+' :: digits => (false, digits)
            | digits => (false, digits)
          let isSmall := digits.length < 4
          ((number? (.ofList digits)).filter fun _ => isSmall).map fun power =>
            let count : Int := if isNegative then (places.length : Int) + power
              else (places.length : Int) - power
            { units := signed (value * Nat.pow 10 (-count).toNat), places := count.toNat }
        else none

def text (number : Decimal) : String :=
  let digits := Nat.toDigits 10 number.units.natAbs
  let digits := List.replicate (number.places + 1 - digits.length) '0' ++ digits
  let sign := if number.units < 0 then ['-'] else []
  let point := if number.places = 0 then [] else ['.']
  let whole := digits.take (digits.length - number.places)
  .ofList (sign ++ whole ++ point ++ digits.drop whole.length)

/-- The number as one that can be laid out. -/
def floating (number : Decimal) : Floating :=
  .ofDecimal .extended (number.units < 0) number.units.natAbs (-(number.places : Int))

end Decimal

/-- A format for one number: what is before and after it, and how it is laid out. -/
structure NumberFormat where
  front : List Char
  layout : Formatting.Layout
  letter : Char
  back : List Char

namespace NumberFormat

/-- The letters up to a directive, in which two percent signs are one, and what is left with it. -/
def plainFront : List Char → List Char × List Char
  | '%' :: '%' :: rest => let (front, after) := plainFront rest; ('%' :: front, after)
  | [] => ([], [])
  | '%' :: rest => ([], '%' :: rest)
  | letter :: rest => let (front, after) := plainFront rest; (letter :: front, after)

def ofText (text : String) : Except String NumberFormat := do
  let (front, rest) := plainFront text.toList
  if rest = [] then throw s!"format {quotedWord text} has no % directive"
  let flags := (rest.drop 1).takeWhile ("-+#0 '".contains ·)
  let after := rest.drop (1 + flags.length)
  let width := after.takeWhile Char.isDigit
  let after := after.drop width.length
  let (precision, after) := match after with
    | '.' :: after => (some (after.takeWhile Char.isDigit), after.dropWhile Char.isDigit)
    | _ => (none, after)
  let after := if after.head? = some 'L' then after.drop 1 else after
  let value := fun digits : List Char => (Arithmetic.inBase? 10 digits).getD 0
  match after with
  | [] => throw s!"format {quotedWord text} ends in %"
  | letter :: after =>
    unless "efgaEFGA".contains letter do
      throw s!"format {quotedWord text} has unknown %{letter} directive"
    let (back, rest) := plainFront after
    unless rest = [] do throw s!"format {quotedWord text} has too many % directives"
    return { front, layout := { flags, width := value width, precision := precision.map value },
             letter, back }

def apply (format : NumberFormat) (number : Decimal) : String :=
  .ofList (format.front ++ format.layout.floating .extended format.letter number.floating ++ format.back)

end NumberFormat

/-- The numbers from one to another. -/
def numbersFrom (step last : Int) : Nat → Int → List Int
  | 0, _ => []
  | fuel + 1, value =>
    if (0 < step ∧ last < value) ∨ (step < 0 ∧ value < last) then []
    else value :: numbersFrom step last fuel (value + step)

/-- Whether a word is a negative number, which is no option. -/
def isNegativeNumber (word : String) : Bool :=
  match word.toList with
  | '-' :: next :: _ => next.isDigit || next = '.'
  | _ => false

/-- The greatest count of numbers that are told. -/
def sequenceLimit : Nat := 200000

/-- Shows the numbers from one to another. -/
def showSequence (given : Given) (format : Option NumberFormat) (first step : Decimal)
    (last : Option Decimal) : Procedure Unit := do
  let shownPlaces := max first.places step.places
  let places := max shownPlaces ((last.map (·.places)).getD 0)
  let from' := first.unitsAt places
  let by' := step.unitsAt places
  let to' := (last.map (·.unitsAt places)).getD (from' + by' * sequenceLimit)
  let count := ((to' - from').tdiv by').toNat + 1
  let values := numbersFrom by' to' (min count sequenceLimit) from'
  let numbers := values.map fun units : Int =>
    ({ units := units / Nat.pow 10 (places - shownPlaces), places := shownPlaces } : Decimal)
  let width := ((numbers.map (·.text.length)) ++
    (last.map fun last =>
      let units : Int := last.unitsAt places / Nat.pow 10 (places - shownPlaces)
      ({ units, places := shownPlaces } : Decimal).text.length).toList).foldl max 0
  let texts := numbers.map fun number =>
    match format with
    | some format => format.apply number
    | none =>
      if given.has 'w' then
        let text := number.text.toList
        let (sign, digits) := if number.units < 0 then (['-'], text.drop 1) else ([], text)
        String.ofList (sign ++ List.replicate (width - text.length) '0' ++ digits)
      else number.text
  let separator := (given.value? 's').getD "\n"
  unless texts.isEmpty do emit (separator.intercalate texts ++ "\n")
  if last.isNone || sequenceLimit < count then
    let _ ← release
    throw .timeUp

def sequence (name : String) (words : List String) : Procedure Unit := do
  let isOption := fun word : String => word.startsWith "-" && word ≠ "-" && !isNegativeNumber word
  let (options, operands) := splitWords isOption (words.length + 1) words
  withGiven name 1
    { plain := "w", valued := "sf", stopsAtOperand := true
      long := [("separator", 's'), ("format", 'f'), ("equal-width", 'w')] } options
    fun given => do
      let operands := given.operands ++ operands
      match operands with
      | [] => missingOperand name
      | _ :: _ :: _ :: extra :: _ => extraOperand name extra
      | _ =>
        let format := (given.value? 'f').map NumberFormat.ofText
        let isEndless := fun word : String => ["inf", "+inf", "infinity"].contains word.toLower
        let lastWord := operands.getLast?.getD ""
        let others := if isEndless lastWord then operands.dropLast else operands
        match format, others.find? fun word => (Decimal.ofText? word).isNone with
        | some (.error message), _ =>
          complain name message
          setStatus 1
        | _, some wrong =>
          if ["nan", "-nan", "+nan"].contains wrong.toLower then
            suggestHelp name s!"invalid 'not-a-number' argument: {quotedWord wrong}"
          else suggestHelp name s!"invalid floating point argument: {quotedWord wrong}"
        | format, none =>
          let one : Decimal := { units := 1, places := 0 }
          let numbers := others.filterMap Decimal.ofText?
          let last := if isEndless lastWord then none else numbers.getLast?
          let first := if 1 < operands.length then numbers.headD one else one
          let step := if 2 < operands.length then numbers.getD 1 one else one
          if format.isSome && given.has 'w' then
            suggestHelp name
              "format string may not be specified when printing equal width strings"
          else if step.units = 0 then
            let increment := operands.getD 1 ""
            suggestHelp name s!"invalid Zero increment value: {quotedWord increment}"
          else showSequence given (format.bind Except.toOption) first step last
where
  /-- Options with their values, and the words after them. -/
  splitWords (isOption : String → Bool) : Nat → List String → List String × List String
    | 0, words => ([], words)
    | _, [] => ([], [])
    | _, "--" :: rest => ([], rest)
    | fuel + 1, word :: rest =>
      if isOption word then
        if ["-s", "-f", "--separator", "--format"].contains word then
          let (options, operands) := splitWords isOption fuel (rest.drop 1)
          (word :: rest.take 1 ++ options, operands)
        else
          let (options, operands) := splitWords isOption fuel rest
          (word :: options, operands)
      else ([], word :: rest)

/-- The prime factors of a number, from a candidate on. -/
def factorsFrom : Nat → Nat → Nat → List Nat
  | 0, _, number => if 1 < number then [number] else []
  | fuel + 1, candidate, number =>
    if number < candidate * candidate then if 1 < number then [number] else []
    else if number % candidate = 0 then candidate :: factorsFrom fuel candidate (number / candidate)
    else factorsFrom fuel (if candidate = 2 then 3 else candidate + 2) number

/-- A number with its factors. -/
def factored (showsPowers : Bool) (number : Nat) : String :=
  let factors := factorsFrom (number.sqrt + 64) 2 number
  let shown := if showsPowers then
      (factors.splitBy (· == ·)).map fun run =>
        let factor := run.headD 0
        if 1 < run.length then s!" {factor}^{run.length}" else s!" {factor}"
    else factors.map fun factor => s!" {factor}"
  let entries := "".intercalate shown
  s!"{number}:{entries}\n"

def factorize (name : String) (words : List String) : Procedure Unit :=
  withGiven name 1 { plain := "h", long := [("exponents", 'h')] } words fun given => do
    let words ← if given.operands = [] then do
        let text := (← readAll 0).getD ""
        pure ((text.toList.splitBy fun first second =>
          !(first.isWhitespace || second.isWhitespace)).filterMap fun piece =>
            if piece.any Char.isWhitespace then none else some (String.ofList piece))
      else pure given.operands
    for word in words do
      let digits := word.toList.dropWhile (· = ' ')
      let digits := if digits.head? = some '+' then digits.drop 1 else digits
      match number? (.ofList digits) with
      | some number => emit (factored (given.has 'h') number)
      | none =>
        complain name s!"{quotedWord word} is not a valid positive integer"
        setStatus 1

end CompositeKeys.Shell.Utility
