/-! Arithmetic on integers of 64 bits, over variables whose values are texts. -/

namespace CompositeKeys.Shell

inductive Operator where
  | multiply
  | divide
  | remainder
  | add
  | subtract
  | shiftLeft
  | shiftRight
  | less
  | lessOrEqual
  | greater
  | greaterOrEqual
  | equal
  | different
  | bitAnd
  | bitXor
  | bitOr
  deriving DecidableEq, Repr

inductive Expression where
  | number (value : Int)
  | variable (name : String)
  | negate (body : Expression)
  | complement (body : Expression)
  | invert (body : Expression)
  | binary (operator : Operator) (first second : Expression)
  | both (first second : Expression)
  | either (first second : Expression)
  | choose (condition first second : Expression)
  | assign (name : String) (operator : Option Operator) (value : Expression)
  deriving Repr, Inhabited

/-- What is wrong with an expression. -/
inductive ArithmeticError where
  | malformed (reason : String)
  | number (text : String)
  deriving DecidableEq, Repr

namespace Arithmetic

/-- The integer of 64 bits that is equal to another one but for what does not fit. -/
def wrap (value : Int) : Int := Int.bmod value 18446744073709551616

def digitValue? (letter : Char) : Option Nat :=
  if '0' ≤ letter ∧ letter ≤ '9' then some (letter.toNat - '0'.toNat)
  else if 'a' ≤ letter ∧ letter ≤ 'f' then some (letter.toNat - 'a'.toNat + 10)
  else if 'A' ≤ letter ∧ letter ≤ 'F' then some (letter.toNat - 'A'.toNat + 10)
  else none

def inBase? (base : Nat) (letters : List Char) : Option Nat :=
  if letters = [] then none
  else letters.foldlM (fun value letter =>
    ((digitValue? letter).filter (· < base)).map (base * value + ·)) 0

/-- The value of a constant, which may be octal or hexadecimal. -/
def constant? : List Char → Option Nat
  | '0' :: 'x' :: rest | '0' :: 'X' :: rest => inBase? 16 rest
  | '0' :: rest => if rest = [] then some 0 else inBase? 8 rest
  | letters => inBase? 10 letters

/-- The value of a text, which may have a sign. -/
def value? (text : String) : Option Int :=
  let letters := (text.toList.dropWhile Char.isWhitespace).reverse.dropWhile Char.isWhitespace
  match letters.reverse with
  | [] => some 0
  | '-' :: rest => (constant? rest).map fun value => -(value : Int)
  | '+' :: rest => (constant? rest).map Int.ofNat
  | letters => (constant? letters).map Int.ofNat

/-- The operators by their levels, the weakest first. Longer spellings come before shorter ones. -/
def levels : List (List (String × Operator)) := [
  [("|", .bitOr)], [("^", .bitXor)], [("&", .bitAnd)],
  [("==", .equal), ("!=", .different)],
  [("<=", .lessOrEqual), (">=", .greaterOrEqual), ("<", .less), (">", .greater)],
  [("<<", .shiftLeft), (">>", .shiftRight)],
  [("+", .add), ("-", .subtract)],
  [("*", .multiply), ("/", .divide), ("%", .remainder)]]

/-- The operators that an assignment may have. -/
def assignable : List (String × Operator) :=
  [("*", .multiply), ("/", .divide), ("%", .remainder), ("+", .add), ("-", .subtract),
    ("<<", .shiftLeft), (">>", .shiftRight), ("&", .bitAnd), ("^", .bitXor), ("|", .bitOr)]

abbrev Reading := StateT (List Char) (Except ArithmeticError)

def skip : Reading Unit := modify (·.dropWhile Char.isWhitespace)

/-- Takes a spelling, unless other letters after it make it another one. -/
def takes (spelling : String) (notBefore : List Char := []) : Reading Bool := do
  skip
  let letters := spelling.toList
  let rest := (← get).drop letters.length
  if letters.isPrefixOf (← get) && !rest.head?.any notBefore.contains then
    set rest
    return true
  else return false

def beginsName (letter : Char) : Bool := letter.isAlpha || letter = '_'

def continuesName (letter : Char) : Bool := letter.isAlphanum || letter = '_'

/-- The operator of an assignment that stands next. -/
def assignment? : Reading (Option (Option Operator)) := do
  if ← takes "=" ['='] then return some none
  for (spelling, operator) in assignable do
    if ← takes (spelling ++ "=") then return some (some operator)
  return none

/-- The operator of a level that stands next. -/
def operator? (level : List (String × Operator)) : Reading (Option Operator) := do
  for (spelling, operator) in level do
    let others := if spelling.length = 2 then ['='] else
      ['='] ++ (if ["|", "&", "<", ">"].contains spelling then spelling.toList else [])
    let allowed := if ["==", "!=", "<=", ">="].contains spelling then [] else others
    if ← takes spelling allowed then return some operator
  return none

mutual

def expression : Nat → Reading Expression
  | 0 => throw (.malformed "expecting primary")
  | fuel + 1 => do
    let condition ← disjunction fuel
    if ← takes "?" then
      let first ← expression fuel
      unless ← takes ":" do throw (.malformed "expecting ':'")
      return .choose condition first (← expression fuel)
    return condition

def disjunction : Nat → Reading Expression
  | 0 => throw (.malformed "expecting primary")
  | fuel + 1 => do
    let first ← conjunction fuel
    if ← takes "||" then return .either first (← disjunction fuel)
    return first

def conjunction : Nat → Reading Expression
  | 0 => throw (.malformed "expecting primary")
  | fuel + 1 => do
    let first ← operand levels fuel
    if ← takes "&&" then return .both first (← conjunction fuel)
    return first

/-- Reads operands between operators of the given levels. -/
def operand (levels : List (List (String × Operator))) : Nat → Reading Expression
  | 0 => throw (.malformed "expecting primary")
  | fuel + 1 => do
    match levels with
    | [] => primary fuel
    | level :: rest => further level rest (← operand rest fuel) fuel

/-- Reads what else stands on a level, from the left. -/
def further (level : List (String × Operator)) (rest : List (List (String × Operator)))
    (first : Expression) : Nat → Reading Expression
  | 0 => throw (.malformed "expecting primary")
  | fuel + 1 => do
    match ← operator? level with
    | none => return first
    | some operator => further level rest (.binary operator first (← operand rest fuel)) fuel

def primary : Nat → Reading Expression
  | 0 => throw (.malformed "expecting primary")
  | fuel + 1 => do
    skip
    match ← get with
    | '(' :: rest =>
      set rest
      let inner ← expression fuel
      unless ← takes ")" do throw (.malformed "expecting ')'")
      return inner
    | '-' :: rest => set rest; return .negate (← primary fuel)
    | '+' :: rest => set rest; primary fuel
    | '~' :: rest => set rest; return .complement (← primary fuel)
    | '!' :: rest => set rest; return .invert (← primary fuel)
    | letters@(letter :: _) =>
      let word := letters.takeWhile continuesName
      if letter.isDigit then
        set (letters.drop word.length)
        match constant? word with
        | some value => return .number value
        | none => throw (.malformed "expecting EOF")
      else if beginsName letter then
        set (letters.drop word.length)
        let name := String.ofList word
        match ← assignment? with
        | some operator => return .assign name operator (← expression fuel)
        | none => return .variable name
      else throw (.malformed "expecting primary")
    | [] => throw (.malformed "expecting primary")

end

/-- Reads a whole expression. Nothing is zero. -/
def parse (text : String) : Except ArithmeticError Expression := do
  let letters := text.toList
  if letters.all Char.isWhitespace then return .number 0
  let (found, rest) ← (expression (20 * (letters.length + 2))).run letters
  if rest.all Char.isWhitespace then return found else throw (.malformed "expecting EOF")

def ofBool (value : Bool) : Int := if value then 1 else 0

/-- An operation on the bits of integers. -/
def bitwise (operation : Nat → Nat → Nat) (first second : Int) : Int :=
  let bits := fun value : Int => (value % 18446744073709551616).toNat
  wrap (operation (bits first) (bits second))

def apply (operator : Operator) (first second : Int) : Except ArithmeticError Int :=
  let count := (second % 64).toNat
  match operator with
  | .multiply => .ok (wrap (first * second))
  | .divide =>
    if second = 0 then .error (.malformed "division by zero") else .ok (wrap (first.tdiv second))
  | .remainder =>
    if second = 0 then .error (.malformed "division by zero") else .ok (wrap (first.tmod second))
  | .add => .ok (wrap (first + second))
  | .subtract => .ok (wrap (first - second))
  | .shiftLeft => .ok (wrap (first * (Nat.pow 2 count : Nat)))
  | .shiftRight => .ok (first.fdiv (Nat.pow 2 count : Nat))
  | .less => .ok (ofBool (first < second))
  | .lessOrEqual => .ok (ofBool (first ≤ second))
  | .greater => .ok (ofBool (second < first))
  | .greaterOrEqual => .ok (ofBool (second ≤ first))
  | .equal => .ok (ofBool (first = second))
  | .different => .ok (ofBool (first ≠ second))
  | .bitAnd => .ok (bitwise Nat.land first second)
  | .bitXor => .ok (bitwise Nat.xor first second)
  | .bitOr => .ok (bitwise Nat.lor first second)

abbrev Variables := List (String × String)

def valueOf (bindings : Variables) (name : String) : Except ArithmeticError Int :=
  let text := (bindings.lookup name).getD ""
  match value? text with
  | some value => .ok (wrap value)
  | none => .error (.number text)

/-- Evaluates an expression. Of two alternatives only the one chosen is evaluated. -/
def evaluate : Expression → Variables → Except ArithmeticError (Int × Variables)
  | .number value, bindings => .ok (wrap value, bindings)
  | .variable name, bindings => (valueOf bindings name).map (·, bindings)
  | .negate body, bindings => do
    let (value, after) ← evaluate body bindings
    return (wrap (-value), after)
  | .complement body, bindings => do
    let (value, after) ← evaluate body bindings
    return (-value - 1, after)
  | .invert body, bindings => do
    let (value, after) ← evaluate body bindings
    return (ofBool (value = 0), after)
  | .binary operator first second, bindings => do
    let (left, middle) ← evaluate first bindings
    let (right, after) ← evaluate second middle
    return (← apply operator left right, after)
  | .both first second, bindings => do
    let (left, middle) ← evaluate first bindings
    if left = 0 then return (0, middle)
    let (right, after) ← evaluate second middle
    return (ofBool (right ≠ 0), after)
  | .either first second, bindings => do
    let (left, middle) ← evaluate first bindings
    if left ≠ 0 then return (1, middle)
    let (right, after) ← evaluate second middle
    return (ofBool (right ≠ 0), after)
  | .choose condition first second, bindings => do
    let (chosen, after) ← evaluate condition bindings
    if chosen ≠ 0 then evaluate first after else evaluate second after
  | .assign name operator value, bindings => do
    let (right, after) ← evaluate value bindings
    let result ← match operator with
      | none => pure right
      | some operator => apply operator (← valueOf after name) right
    return (result, (name, toString result) :: after.filter (·.1 ≠ name))

end Arithmetic

def ArithmeticError.message (text : String) : ArithmeticError → String
  | .malformed reason => s!"arithmetic expression: {reason}: \"{text}\""
  | .number given => s!"Illegal number: {given}"

end CompositeKeys.Shell
