import CompositeKeys.Shell.Pattern

/-! Regular expressions, and how they are spelled. The spellings differ in which letters are operators
by themselves and which are after a backslash, and in what they make of operators that have nothing
to operate on. -/

namespace CompositeKeys.Shell

/-- What has to hold at a position for a match to go on there. -/
inductive Assertion where
  | lineStart
  | lineFinish
  | textStart
  | textFinish
  | wordStart
  | wordFinish
  | wordEdge
  | notWordEdge
  | notAfterWord
  | notBeforeWord
  deriving DecidableEq, Repr

inductive Regex where
  | empty
  | any
  | exactly (value : Char)
  | set (isNegated : Bool) (ranges : List (Char × Char))
  | assertion (kind : Assertion)
  | group (number : Nat) (body : Regex)
  | again (number : Nat)
  | sequence (first second : Regex)
  | either (first second : Regex)
  | repeated (body : Regex) (least : Nat) (most : Option Nat)
  deriving DecidableEq, Repr, Inhabited

/-- A spelling: whether operators are so by themselves, what becomes of operators that have nothing
in front of them and of parentheses that are not opened, and whether a backslash protects letters in
brackets. -/
structure Dialect where
  isExtended : Bool
  refusesLonely : Bool := false
  refusesClosing : Bool := true
  keepsBraces : Bool := false
  protectsInBrackets : Bool := false

namespace Dialect

def basic : Dialect := { isExtended := false, refusesLonely := true }

def extended : Dialect := { isExtended := true, refusesLonely := true }

def basicSearch : Dialect := { isExtended := false }

def extendedSearch : Dialect :=
  { isExtended := true, keepsBraces := true, refusesClosing := false }

def program : Dialect :=
  { isExtended := true, keepsBraces := true, protectsInBrackets := true }

end Dialect

namespace Regex

/-- The number of groups. -/
def groupCount : Regex → Nat
  | .group number body => max number body.groupCount
  | .sequence first second | .either first second => max first.groupCount second.groupCount
  | .repeated body _ _ => body.groupCount
  | _ => 0

/-- Whether a group has to be matched again. -/
def refersBack : Regex → Bool
  | .again _ => true
  | .group _ body | .repeated body _ _ => body.refersBack
  | .sequence first second | .either first second => first.refersBack || second.refersBack
  | _ => false

/-- What is left of an expression to be read, the number of groups so far, those that are closed,
and how many are open. -/
structure Spelling where
  letters : List Char
  groups : Nat := 0
  closed : List Nat := []
  depth : Nat := 0

abbrev Reading := StateT Spelling (Except String)

/-- What stands next in a spelling, as operators and letters. -/
inductive Token where
  | letter (value : Char)
  | any
  | bracket
  | start
  | finish
  | star
  | plus
  | question
  | brace
  | bar
  | opening
  | closing
  | again (number : Nat)
  | class (isNegated : Bool) (ranges : List (Char × Char))
  | assertion (kind : Assertion)
  | stray
  deriving DecidableEq, Repr

def wordRanges : List (Char × Char) := [('a', 'z'), ('A', 'Z'), ('0', '9'), ('_', '_')]

def spaceRanges : List (Char × Char) := [(' ', ' '), ('\t', '\r')]

/-- What letters after a backslash stand for. -/
def escaped : List (Char × Token) :=
  [('w', .class false wordRanges), ('W', .class true wordRanges),
    ('s', .class false spaceRanges), ('S', .class true spaceRanges),
    ('<', .assertion .wordStart), ('>', .assertion .wordFinish), ('b', .assertion .wordEdge),
    ('B', .assertion .notWordEdge), ('\x60', .assertion .textStart),
    ('\'', .assertion .textFinish)]

/-- The token at the front of letters, with the letters that it takes. -/
def token? (dialect : Dialect) : List Char → Option (Token × Nat)
  | [] => none
  | ['\\'] => some (.stray, 1)
  | '\\' :: letter :: _ =>
    let operator? := [('+', Token.plus), ('?', .question), ('|', .bar), ('(', .opening),
      (')', .closing), ('\x7b', .brace)].lookup letter
    match operator?.filter fun _ => !dialect.isExtended with
    | some operator => some (operator, 2)
    | none =>
      if dialect.protectsInBrackets then some (.letter letter, 2)
      else if '1' ≤ letter ∧ letter ≤ '9' then some (.again (letter.toNat - '0'.toNat), 2)
      else some ((escaped.lookup letter).getD (.letter letter), 2)
  | letter :: _ =>
    let usual := [('.', Token.any), ('[', .bracket), ('*', .star), ('^', .start), ('$', .finish)]
    let more := if dialect.isExtended then
        [('+', Token.plus), ('?', .question), ('|', .bar), ('(', .opening), (')', .closing),
          ('\x7b', .brace)]
      else []
    some (((usual ++ more).lookup letter).getD (.letter letter), 1)

def drop (count : Nat) : Reading Unit :=
  modify fun spelling => { spelling with letters := spelling.letters.drop count }

def digitsAt (letters : List Char) : Option Nat × Nat :=
  let digits := letters.takeWhile Char.isDigit
  let value := digits.foldl (fun value digit => 10 * value + (digit.toNat - '0'.toNat)) 0
  (if digits = [] then none else some value, digits.length)

/-- The greatest number of repetitions. -/
def repeatLimit : Nat := 32767

/-- The least and the greatest count in braces. It is nothing where the brace is to be taken for a
letter. -/
def counts (dialect : Dialect) : Reading (Option (Nat × Option Nat)) := do
  let letters := (← get).letters
  let (least, count) := digitsAt letters
  let (most, rest, hasComma) := match letters.drop count with
    | ',' :: rest =>
      let (most, count) := digitsAt rest
      (most, rest.drop count, true)
    | rest => (least, rest, false)
  let ending := if dialect.isExtended then ['\x7d'] else ['\\', '\x7d']
  let isWhole := ending.isPrefixOf rest
  let isEmpty := least.isNone && !hasComma
  if !isWhole || isEmpty then
    if dialect.keepsBraces then return none
    else if rest = [] then throw "Unmatched \\\x7b"
    else throw "Invalid content of \\\x7b\\\x7d"
  else
    let low := least.getD 0
    if most.any (· < low) then throw "Invalid content of \\\x7b\\\x7d"
    if repeatLimit < max low (most.getD 0) then throw "Regular expression too big"
    modify ({ · with letters := rest.drop ending.length })
    return some (low, if hasComma then most else some low)

def bracketFault : String := "Unmatched [, [^, [:, [., or [="

/-- A letter or a class in brackets, with what is left. -/
def bracketItem (dialect : Dialect) (letters : List Char) :
    Except String (Option Char × List (Char × Char) × List Char) :=
  match letters with
  | [] => .error bracketFault
  | '[' :: mark :: rest =>
    if mark = ':' || mark = '=' || mark = '.' then
      let name := rest.takeWhile (· ≠ mark)
      match rest.drop name.length with
      | _ :: ']' :: after =>
        if mark = ':' then
          match classRanges (.ofList name) with
          | [] => .error "Invalid character class name"
          | ranges => .ok (none, ranges, after)
        else match name with
          | [letter] => .ok (if mark = '.' then some letter else none, [(letter, letter)], after)
          | _ => .error "Invalid collation character"
      | _ => .error bracketFault
    else .ok (some '[', [('[', '[')], mark :: rest)
  | '\\' :: letter :: rest =>
    if dialect.protectsInBrackets then .ok (some letter, [(letter, letter)], rest)
    else .ok (some '\\', [('\\', '\\')], letter :: rest)
  | letter :: rest => .ok (some letter, [(letter, letter)], rest)

/-- Reads what stands in brackets up to the one that closes them. -/
def bracketItems (dialect : Dialect) (isFirst : Bool) (before : List (Char × Char)) :
    Nat → List Char → Except String (List (Char × Char) × List Char)
  | 0, _ => .error bracketFault
  | fuel + 1, letters => do
    if !isFirst && letters.head? = some ']' then return (before, letters.drop 1)
    let (letter, ranges, rest) ← bracketItem dialect letters
    match letter, rest with
    | some low, '-' :: next :: after =>
      if next = ']' then bracketItems dialect false (before ++ ranges) fuel rest
      else
        let (high, _, left) ← bracketItem dialect (next :: after)
        match high with
        | none => throw "Invalid range end"
        | some high =>
          if high < low then throw "Invalid range end"
          bracketItems dialect false (before ++ [(low, high)]) fuel left
    | _, _ => bracketItems dialect false (before ++ ranges) fuel rest

/-- Reads a set after its opening bracket. -/
def bracket (dialect : Dialect) : Reading Regex := do
  let letters := (← get).letters
  let (isNegated, rest) := match letters with
    | '^' :: rest => (true, rest)
    | _ => (false, letters)
  if rest = [] then throw "Invalid regular expression"
  let (ranges, after) ← bracketItems dialect true [] (rest.length + 1) rest
  modify ({ · with letters := after })
  return .set isNegated ranges

/-- What becomes of an operator that has nothing in front of it. -/
def lonely (dialect : Dialect) (letter : Char) : Except String Regex :=
  let isBrace := letter = '\x7b'
  if dialect.refusesLonely && (dialect.isExtended || isBrace) then
    .error "Invalid preceding regular expression"
  else .ok (if dialect.isExtended && !isBrace then .empty else .exactly letter)

mutual

def alternatives (dialect : Dialect) : Nat → Reading Regex
  | 0 => throw "Regular expression too big"
  | fuel + 1 => do
    let first ← pieces dialect true .empty fuel
    match token? dialect (← get).letters with
    | some (.bar, count) =>
      drop count
      return .either first (← alternatives dialect fuel)
    | _ => return first
termination_by structural fuel => fuel

/-- Reads pieces one after another. At the beginning, and after an anchor, a star is a letter in the
basic spelling. -/
def pieces (dialect : Dialect) (isFirst : Bool) (before : Regex) : Nat → Reading Regex
  | 0 => throw "Regular expression too big"
  | fuel + 1 => do
    let spelling ← get
    let isExtended := dialect.isExtended
    match token? dialect spelling.letters with
    | none | some (.bar, _) => return before
    | some (token, count) =>
      if token = .closing && 0 < spelling.depth then return before
      drop count
      let rest := (← get).letters
      let next := (token? dialect rest).map Prod.fst
      let isLast := next = none || next = some .bar || (next = some .closing && 0 < spelling.depth)
      let atom ← match token with
        | .any => pure Regex.any
        | .bracket => bracket dialect
        | .start => pure (if isExtended || isFirst then .assertion .lineStart else .exactly '^')
        | .finish => pure (if isExtended || isLast then .assertion .lineFinish else .exactly '$')
        | .opening =>
          let number := spelling.groups + 1
          modify fun spelling =>
            { spelling with groups := number, depth := spelling.depth + 1 }
          let body ← alternatives dialect fuel
          match token? dialect (← get).letters with
          | some (.closing, count) =>
            drop count
            modify fun spelling =>
              { spelling with depth := spelling.depth - 1, closed := number :: spelling.closed }
            pure (.group number body)
          | _ => throw "Unmatched ( or \\("
        | .again number =>
          unless spelling.closed.contains number do throw "Invalid back reference"
          pure (.again number)
        | .class isNegated ranges => pure (.set isNegated ranges)
        | .assertion kind => pure (.assertion kind)
        | .letter value => pure (.exactly value)
        | .star => if isExtended then lonely dialect '*' else pure (.exactly '*')
        | .plus => lonely dialect '+'
        | .question => lonely dialect '?'
        | .brace =>
          if dialect.keepsBraces then pure (.exactly '\x7b') else lonely dialect '\x7b'
        | .closing =>
          if dialect.refusesClosing then throw "Unmatched ) or \\)" else pure (.exactly ')')
        | .bar => pure .empty
        | .stray => throw "Trailing backslash"
      let isAnchor := atom matches .assertion _
      let piece ← if isAnchor then pure atom else suffixed dialect atom fuel
      let isFirst := isAnchor && atom = .assertion .lineStart && isFirst
      pieces dialect isFirst (if before = .empty then piece else .sequence before piece) fuel
termination_by structural fuel => fuel

/-- Reads the repetitions of a piece. -/
def suffixed (dialect : Dialect) (piece : Regex) : Nat → Reading Regex
  | 0 => throw "Regular expression too big"
  | fuel + 1 => do
    match token? dialect (← get).letters with
    | some (.star, count) => drop count; suffixed dialect (.repeated piece 0 none) fuel
    | some (.plus, count) => drop count; suffixed dialect (.repeated piece 1 none) fuel
    | some (.question, count) => drop count; suffixed dialect (.repeated piece 0 (some 1)) fuel
    | some (.brace, count) =>
      let before ← get
      drop count
      match ← counts dialect with
      | some (least, most) => suffixed dialect (.repeated piece least most) fuel
      | none => modify fun _ => before; return piece
    | _ => return piece
termination_by structural fuel => fuel

end

/-- Reads a whole expression. -/
def parse (dialect : Dialect) (text : String) : Except String Regex := do
  let fuel := 10 * (text.length + 2)
  let (regex, _) ← (alternatives dialect fuel).run { letters := text.toList }
  return regex

/-- The expression that stands for a text itself. -/
def literal (text : String) : Regex :=
  text.toList.foldr (fun letter rest => .sequence (.exactly letter) rest) .empty

end Regex

end CompositeKeys.Shell
