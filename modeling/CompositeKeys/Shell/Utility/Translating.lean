import CompositeKeys.Shell.Utility.Viewing

/-! A utility that exchanges letters for others, leaves letters out, or keeps one of many. -/

namespace CompositeKeys.Shell.Utility
open Files Procedure

/-- What a set of letters is spelled with: letters, those between two of them, those of a class or
like a letter, and a letter as often as it takes. -/
inductive Glyphs where
  | single (value : Char)
  | range (first last : Char)
  | kind (name : String)
  | alike (value : Char)
  | repeated (value : Char) (count : Nat)
  deriving DecidableEq, Repr

namespace Glyphs

/-- A letter at the front, where a backslash begins an escape, with what is left. Whether the
letter has been protected goes with it. -/
def letterAtFront : List Char → Option (Char × Bool × List Char)
  | [] => none
  | '\\' :: [] => some ('\\', false, [])
  | '\\' :: letter :: rest =>
    let digits := ((letter :: rest).take 3).takeWhile fun digit => '0' ≤ digit && digit ≤ '7'
    let value := fun digits : List Char =>
      digits.foldl (fun value digit => 8 * value + (digit.toNat - '0'.toNat)) 0
    let digits := if 255 < value digits then digits.take 2 else digits
    if digits ≠ [] then
      some (Char.ofNat (value digits), true, (letter :: rest).drop digits.length)
    else
      let known := [('a', '\x07'), ('b', '\x08'), ('f', '\x0c'), ('n', '\n'), ('r', '\r'),
        ('t', '\t'), ('v', '\x0b')]
      some ((known.lookup letter).getD letter, true, rest)
  | letter :: rest => some (letter, false, rest)

/-- The letters with their escapes replaced, each with whether it has been protected. -/
def unescaped : Nat → List Char → List (Char × Bool)
  | 0, _ => []
  | fuel + 1, letters =>
    match letterAtFront letters with
    | none => []
    | some (letter, isProtected, rest) => (letter, isProtected) :: unescaped fuel rest

/-- The count in a repetition, where zero and none stand for as often as it takes. -/
def countOf (digits : List Char) : Option Nat :=
  if digits.head? = some '0' then Arithmetic.inBase? 8 digits
  else if digits = [] then some 0 else Arithmetic.inBase? 10 digits

/-- What stands in brackets, with what is left after them. -/
def bracketed? (letters : List (Char × Bool)) :
    Except String (Option (Glyphs × List (Char × Bool))) :=
  let isPlain := fun (wanted : Char) (entry : Char × Bool) => entry = (wanted, false)
  let upTo := fun (mark : Char) (rest : List (Char × Bool)) =>
    let count := (List.range rest.length).find? fun index =>
      (rest[index]?).any (isPlain mark) && (rest[index + 1]?).any (isPlain ']')
    count.map fun count => (rest.take count, rest.drop (count + 2))
  match letters with
  | (mark, false) :: rest =>
    if mark = ':' then
      match upTo ':' rest with
      | none => .ok none
      | some (name, after) =>
        let name := String.ofList (name.map Prod.fst)
        if name = "" then .error "missing character class name '[::]'"
        else if classRanges name = [] then .error s!"invalid character class {quotedWord name}"
        else .ok (some (.kind name, after))
    else if mark = '=' then
      match upTo '=' rest with
      | none => .ok none
      | some ([(value, _)], after) => .ok (some (.alike value, after))
      | some ([], _) => .error "missing equivalence class character '[==]'"
      | some (text, _) =>
        let text := String.ofList (text.map Prod.fst)
        .error s!"{text}: equivalence class operand must be a single character"
    else repetition? letters
  | _ => repetition? letters
where
  repetition? (letters : List (Char × Bool)) :
      Except String (Option (Glyphs × List (Char × Bool))) :=
    match letters with
    | (value, _) :: ('*', false) :: rest =>
      let digits := rest.takeWhile fun entry => entry ≠ (']', false)
      if digits.length = rest.length then .ok none
      else
        let spelled := digits.map Prod.fst
        match (if spelled.all Char.isDigit then countOf spelled else none) with
        | none =>
          .error s!"invalid repeat count {quotedWord (.ofList spelled)} in [c*n] construct"
        | some count => .ok (some (.repeated value count, rest.drop (digits.length + 1)))
    | _ => .ok none

/-- Reads a set of letters. -/
def ofLetters : Nat → List (Char × Bool) → Except String (List Glyphs)
  | 0, _ => .ok []
  | _, [] => .ok []
  | fuel + 1, (letter, isProtected) :: rest => do
    let special ← if letter = '[' && !isProtected then bracketed? rest else pure none
    match special, rest with
    | some (glyphs, after), _ => return glyphs :: (← ofLetters fuel after)
    | none, ('-', false) :: (last, _) :: after =>
      if last < letter then
        throw <| s!"range-endpoints of '{letter}-{last}' are in reverse collating sequence order"
      return .range letter last :: (← ofLetters fuel after)
    | none, _ => return .single letter :: (← ofLetters fuel rest)

def ofText (text : String) : Except String (List Glyphs) :=
  let letters := unescaped (text.length + 1) text.toList
  ofLetters (letters.length + 1) letters

/-- All letters. -/
def allLetters : List Char := (List.range 256).map Char.ofNat

/-- The letters that glyphs stand for, with those that are as many as it takes left out. -/
def letters : Glyphs → List Char
  | .single value | .alike value => [value]
  | .range first last =>
    ((List.range (last.toNat + 1)).drop first.toNat).map Char.ofNat
  | .kind name =>
    let ranges := classRanges name
    allLetters.filter fun letter => ranges.any fun (low, high) => low ≤ letter && letter ≤ high
  | .repeated value count => List.replicate count value

def isCase : Glyphs → Bool
  | .kind name => name = "upper" || name = "lower"
  | _ => false

def isOpen : Glyphs → Bool
  | .repeated _ 0 => true
  | _ => false

end Glyphs

/-- The letters of the second set, which has to be as long as the first one, if it can be. -/
def secondLetters (size : Nat) (second : List Glyphs) : List Char :=
  let fixed := (second.map fun glyphs => glyphs.letters.length).foldl (· + ·) 0
  second.flatMap fun
    | .repeated value 0 => List.replicate (size - fixed) value
    | other => other.letters

/-- Pairs of letters to be exchanged, where classes of capital and small letters in the same place
stand for all of those. -/
def exchangeOf (isComplement truncates : Bool) (first second : List Glyphs) :
    Except String (List (Char × Char)) := do
  if 1 < (second.filter Glyphs.isOpen).length then
    throw "only one [c*] repeat construct may appear in string2"
  if second.any fun glyphs => glyphs matches .alike _ then
    throw "[=c=] expressions may not appear in string2 when translating"
  let spelled := first.flatMap Glyphs.letters
  let source := if isComplement then
      Glyphs.allLetters.filter fun letter => !spelled.contains letter
    else spelled
  let hasKind := fun glyphs : Glyphs => glyphs matches .kind _
  if second.any fun glyphs => hasKind glyphs && !glyphs.isCase then
    throw <| "when translating, the only character classes that may appear in\n" ++
      "string2 are 'upper' and 'lower'"
  let target := secondLetters source.length second
  let starts := fun glyphs : List Glyphs => (List.range glyphs.length).filterMap fun index =>
    if (glyphs[index]?).any Glyphs.isCase then
      some (((glyphs.take index).flatMap Glyphs.letters).length) else none
  let reached := (starts second).filter (· ≤ source.length)
  unless isComplement || reached.all (starts first).contains do
    throw "misaligned [:upper:] and/or [:lower:] construct"
  let isShort := target.length < source.length
  if isShort && !truncates then
    if target = [] then throw "when not truncating set1, string2 must be non-empty"
    if second.getLast?.any hasKind then
      throw <| "when translating with string1 longer than string2,\n" ++
        "the latter string must not end with a character class"
  if isComplement && first.any hasKind then
    unless target.all (some · = target.head?) && !(isShort && truncates) do
      throw <| "when translating with complemented character classes,\n" ++
        "string2 must map all characters in the domain to one"
  let source := if truncates then source.take target.length else source
  let filler := target.getLast?.getD '\x00'
  return (source.zipIdx.map fun (letter, index) => (letter, (target[index]?).getD filler)).reverse

/-- Keeps one of letters that are repeated and are to be squeezed. -/
def squeezed (isSqueezed : Char → Bool) (letters : List Char) : List Char :=
  (letters.foldl (fun done letter =>
    if isSqueezed letter && done.head? = some letter then done else letter :: done) []).reverse

/-- What is to be done with letters. -/
def translationOf (given : Given) (first : List Glyphs) (second : Option (List Glyphs)) :
    Except String (List Char → List Char) := do
  if first.any Glyphs.isOpen then
    throw "the [c*] repeat construct may not appear in string1"
  let isComplement := given.hasAny "cC"
  let spelled := first.flatMap Glyphs.letters
  let isChosen := fun letter : Char => spelled.contains letter != isComplement
  let table : Array Bool := (Glyphs.allLetters.map isChosen).toArray
  let isChosen := fun letter : Char => table.getD letter.toNat false
  match second with
  | none =>
    if given.has 'd' then return fun letters => letters.filter (!isChosen ·)
    else return squeezed isChosen
  | some second =>
    if given.has 'd' then
      if second.any Glyphs.isOpen then
        throw "the [c*] construct may appear in string2 only when translating"
      let kept := second.flatMap Glyphs.letters
      return fun letters => squeezed kept.contains (letters.filter (!isChosen ·))
    else
      let pairs ← exchangeOf isComplement (given.has 't') first second
      let exchange : Array Char :=
        (Glyphs.allLetters.map fun letter => (pairs.lookup letter).getD letter).toArray
      let kept := pairs.map Prod.snd ++ second.flatMap Glyphs.letters
      return fun letters =>
        let changed := letters.map fun letter => exchange.getD letter.toNat letter
        if given.has 's' then squeezed kept.contains changed else changed

def translate (name : String) (words : List String) : Procedure Unit :=
  withGiven name 1
    { plain := "dscCt", stopsAtOperand := true
      long := [("delete", 'd'), ("squeeze-repeats", 's'), ("complement", 'c'),
        ("truncate-set1", 't')] }
    words fun given => do
      let deletes := given.has 'd'
      let squeezes := given.has 's'
      let least := if deletes == squeezes then 2 else 1
      let most := if deletes && !squeezes then 1 else 2
      match given.operands with
      | [] => missingOperand name
      | first :: rest =>
        let count := rest.length + 1
        if count < least then
          let purpose := if squeezes then "both deleting and squeezing repeats" else "translating"
          suggestHelp name <| s!"missing operand after {quotedWord first}\n" ++
            s!"Two strings must be given when {purpose}."
        else if most < count then
          let extra := rest.getD (most - 1) ""
          let reason := if most = 1 && count = 2 then
              "\nOnly one string may be given when deleting without squeezing repeats."
            else ""
          suggestHelp name s!"extra operand {quotedWord extra}{reason}"
        else
          for text in given.operands do
            if (text.toList.reverse.takeWhile (· = '\\')).length % 2 = 1 then
              complain name "warning: an unescaped backslash at end of string is not portable"
          let work := do
            let first ← Glyphs.ofText first
            let second ← rest.head?.mapM Glyphs.ofText
            translationOf given first second
          match (work : Except String (List Char → List Char)) with
          | .error message =>
            complain name message
            setStatus 1
          | .ok change =>
            let text := (← contentsSoFar "-").toOption.getD ""
            emit (.ofList (change text.toList))

end CompositeKeys.Shell.Utility
