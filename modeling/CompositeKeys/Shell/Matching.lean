import CompositeKeys.Shell.Regex

/-! How regular expressions are matched. Of all matches the ones that begin first are looked at, and
of these the longest one is taken. It decides what the groups stand for: an alternative goes before
those after it, and going on with a repetition before leaving it, as far as they lead to that end. -/

namespace CompositeKeys.Shell

/-- How letters and lines are told apart. -/
structure Manner where
  ignoresCase : Bool := false
  endsAtLines : Bool := false

namespace Manner

def same (manner : Manner) (first second : Char) : Bool :=
  first = second || (manner.ignoresCase && first.toLower = second.toLower)

def isIn (manner : Manner) (ranges : List (Char × Char)) (letter : Char) : Bool :=
  let within := fun letter : Char => ranges.any fun (low, high) => low ≤ letter && letter ≤ high
  within letter || (manner.ignoresCase && (within letter.toLower || within letter.toUpper))

end Manner

def isWordLetter (letter : Char) : Bool := letter.isAlphanum || letter = '_'

/-- Whether an assertion holds at a position. -/
def Assertion.holds (manner : Manner) (text : Array Char) (position : Nat) :
    Assertion → Bool
  | .textStart => position = 0
  | .textFinish => position = text.size
  | .lineStart =>
    position = 0 || (manner.endsAtLines && text[position - 1]? = some '\n')
  | .lineFinish =>
    position = text.size || (manner.endsAtLines && text[position]? = some '\n')
  | .wordStart => !isBefore && isAfter
  | .wordFinish => isBefore && !isAfter
  | .wordEdge => isBefore != isAfter
  | .notWordEdge => isBefore == isAfter
  | .notAfterWord => !isBefore
  | .notBeforeWord => !isAfter
where
  isBefore : Bool := 0 < position && (text[position - 1]?).any isWordLetter
  isAfter : Bool := (text[position]?).any isWordLetter

/-- What is to be done to match an expression, one thing after another. -/
inductive Instruction where
  | letter (value : Char)
  | any
  | set (isNegated : Bool) (ranges : List (Char × Char))
  | assertion (kind : Assertion)
  | again (number : Nat)
  | start (number : Nat)
  | finish (number : Nat)
  | fork (first second : Nat)
  | jump (target : Nat)
  deriving Inhabited

namespace Regex

/-- The instructions for an expression, the first of which has the given number. -/
def compile : Regex → Nat → List Instruction
  | .empty, _ => []
  | .any, _ => [.any]
  | .exactly value, _ => [.letter value]
  | .set isNegated ranges, _ => [.set isNegated ranges]
  | .assertion kind, _ => [.assertion kind]
  | .again number, _ => [.again number]
  | .group number body, base =>
    .start number :: body.compile (base + 1) ++ [.finish number]
  | .sequence first second, base =>
    let front := first.compile base
    front ++ second.compile (base + front.length)
  | .either first second, base =>
    let front := first.compile (base + 1)
    let middle := base + front.length + 2
    let back := second.compile middle
    .fork (base + 1) middle :: front ++ .jump (middle + back.length) :: back
  | .repeated body least most, base =>
    let front := (List.range least).foldl (fun code _ =>
      code ++ body.compile (base + code.length)) []
    match most with
    | none =>
      let loop := base + front.length
      let inner := body.compile (loop + 1)
      front ++ .fork (loop + 1) (loop + inner.length + 2) :: inner ++ [.jump loop]
    | some most =>
      let size := (body.compile 0).length + 1
      let finish := base + front.length + size * (most - least)
      (List.range (most - least)).foldl (fun code _ =>
        let here := base + code.length
        code ++ .fork (here + 1) finish :: body.compile (here + 1)) front

end Regex

/-- An expression that is ready to be matched. -/
structure Matcher where
  code : Array Instruction
  groups : Nat
  refersBack : Bool
  manner : Manner

def Regex.matcher (regex : Regex) (manner : Manner := {}) : Matcher :=
  { code := (regex.compile 0).toArray
    groups := regex.groupCount
    refersBack := regex.refersBack
    manner }

/-- What groups stand for: where they begin, and where they end. -/
abbrev Groups := List (Nat × Nat × Nat)

/-- A match in a text: where it begins and ends, and the groups. -/
structure Match where
  start : Nat
  finish : Nat
  groups : Groups := []

namespace Matcher

/-- Whether an instruction takes a letter. -/
def admits (matcher : Matcher) (letter : Char) : Instruction → Bool
  | .any => true
  | .letter value => matcher.manner.same value letter
  | .set isNegated ranges => isNegated != matcher.manner.isIn ranges letter
  | _ => false

/-- The instructions that are due, with a mark on each that has been looked at. -/
structure Threads where
  marks : Array Bool
  due : List Nat := []

/-- Follows the instructions that take no letter. -/
def follow (matcher : Matcher) (text : Array Char) (position : Nat) :
    Nat → Threads → Nat → Threads
  | 0, threads, _ => threads
  | fuel + 1, threads, number =>
    if threads.marks.getD number true then threads
    else
      let threads := { threads with marks := threads.marks.setIfInBounds number true }
      match matcher.code[number]? with
      | none => { threads with due := number :: threads.due }
      | some (.assertion kind) =>
        if kind.holds matcher.manner text position
        then matcher.follow text position fuel threads (number + 1) else threads
      | some (.start _) | some (.finish _) =>
        matcher.follow text position fuel threads (number + 1)
      | some (.fork first second) =>
        matcher.follow text position fuel (matcher.follow text position fuel threads first) second
      | some (.jump target) => matcher.follow text position fuel threads target
      | some _ => { threads with due := number :: threads.due }

def fresh (matcher : Matcher) : Threads :=
  { marks := Array.replicate (matcher.code.size + 1) false }

/-- The end of the longest match that is going on, given the end of the longest one so far. -/
def longest (matcher : Matcher) (text : Array Char) :
    Nat → Nat → List Nat → Option Nat → Option Nat
  | 0, _, _, found => found
  | fuel + 1, position, due, found =>
    let found := if due.contains matcher.code.size then some position else found
    match text[position]? with
    | none => found
    | some letter =>
      let next := due.foldl (fun threads number =>
        match matcher.code[number]? with
        | some instruction =>
          if matcher.admits letter instruction
          then matcher.follow text (position + 1) (matcher.code.size + 2) threads (number + 1)
          else threads
        | none => threads) matcher.fresh
      if next.due.isEmpty then found
      else matcher.longest text fuel (position + 1) next.due found

/-- The end of the longest match from a position on. -/
def finish? (matcher : Matcher) (text : Array Char) (start : Nat) : Option Nat :=
  let first := matcher.follow text start (matcher.code.size + 2) matcher.fresh 0
  if first.due.isEmpty then none
  else matcher.longest text (text.size + 2) start first.due none

/-- Looks for the groups of a match that ends at a given position. Where an instruction has failed
at a position it is not tried there again. -/
def groupsTo (matcher : Matcher) (text : Array Char) (finish : Nat) :
    Nat → Nat → Nat → Groups → StateM (Array Bool) (Option Groups)
  | 0, _, _, _ => return none
  | fuel + 1, number, position, groups => do
    let mark := number * (text.size + 1) + position
    if (← get).getD mark true then return none
    modify (·.setIfInBounds mark true)
    match matcher.code[number]? with
    | none => return if position = finish then some groups else none
    | some (.assertion kind) =>
      if kind.holds matcher.manner text position
      then matcher.groupsTo text finish fuel (number + 1) position groups else return none
    | some (.start group) =>
      matcher.groupsTo text finish fuel (number + 1) position ((group, position, position) :: groups)
    | some (.finish group) =>
      let start := ((groups.lookup group).map Prod.fst).getD position
      matcher.groupsTo text finish fuel (number + 1) position ((group, start, position) :: groups)
    | some (.fork first second) =>
      match ← matcher.groupsTo text finish fuel first position groups with
      | some found => return some found
      | none => matcher.groupsTo text finish fuel second position groups
    | some (.jump target) => matcher.groupsTo text finish fuel target position groups
    | some instruction =>
      match text[position]? with
      | some letter =>
        if position < finish && matcher.admits letter instruction
        then matcher.groupsTo text finish fuel (number + 1) (position + 1) groups
        else return none
      | none => return none

/-- The longest match that goes on, with the groups of the first one of that length. It looks at all
matches, as far as the effort that is left goes: what a group stands for decides what can follow. -/
def explore (matcher : Matcher) (text : Array Char) :
    Nat → List Nat → Nat → Nat → Groups → StateM (Nat × Option (Nat × Groups)) Unit
  | 0, _, _, _, _ => pure ()
  | fuel + 1, seen, number, position, groups => do
    let (effort, best) ← get
    if effort = 0 || seen.contains number then return
    modify fun state => (state.1 - 1, state.2)
    match matcher.code[number]? with
    | none =>
      if best.all fun other => other.1 < position then
        modify fun state => (state.1, some (position, groups))
    | some (.assertion kind) =>
      if kind.holds matcher.manner text position then
        matcher.explore text fuel (number :: seen) (number + 1) position groups
    | some (.start group) =>
      matcher.explore text fuel (number :: seen) (number + 1) position
        ((group, position, position) :: groups)
    | some (.finish group) =>
      let start := ((groups.lookup group).map Prod.fst).getD position
      matcher.explore text fuel (number :: seen) (number + 1) position
        ((group, start, position) :: groups)
    | some (.fork first second) =>
      matcher.explore text fuel (number :: seen) first position groups
      matcher.explore text fuel (number :: seen) second position groups
    | some (.jump target) => matcher.explore text fuel (number :: seen) target position groups
    | some (.again group) =>
      if let some (start, finish) := groups.lookup group then
        let size := finish - start
        let isSame := (List.range size).all fun offset =>
          match text[start + offset]?, text[position + offset]? with
          | some first, some second => matcher.manner.same first second
          | _, _ => false
        if isSame then
          let seen := if size = 0 then number :: seen else []
          matcher.explore text fuel seen (number + 1) (position + size) groups
    | some instruction =>
      if let some letter := text[position]? then
        if matcher.admits letter instruction then
          matcher.explore text fuel [] (number + 1) (position + 1) groups

/-- The match that begins at a position. -/
def at? (matcher : Matcher) (text : Array Char) (start : Nat) : Option Match :=
  let size := (matcher.code.size + 1) * (text.size + 1)
  if matcher.refersBack then
    let (_, _, found) := (matcher.explore text size [] 0 start []).run (100000, none)
    found.map fun (finish, groups) => { start, finish, groups }
  else
    (matcher.finish? text start).map fun finish =>
      if matcher.groups = 0 then { start, finish }
      else
        let found := (matcher.groupsTo text finish (size + 1) 0 start []).run
          (Array.replicate size false)
        { start, finish, groups := found.1.getD [] }

def searchFrom (matcher : Matcher) (text : Array Char) : Nat → Nat → Option Match
  | 0, _ => none
  | fuel + 1, start =>
    (matcher.at? text start).or (matcher.searchFrom text fuel (start + 1))

/-- The first match at or after a position. -/
def search (matcher : Matcher) (text : Array Char) (start : Nat) : Option Match :=
  matcher.searchFrom text (text.size + 1 - start) start

def isFound (matcher : Matcher) (text : Array Char) : Bool := (matcher.search text 0).isSome

/-- All matches, none of which overlap, and none of which is an empty one at the end of another. -/
def allFrom (matcher : Matcher) (text : Array Char) (last : Option Nat) :
    Nat → Nat → List Match
  | 0, _ => []
  | fuel + 1, start =>
    match matcher.search text start with
    | none => []
    | some found =>
      if found.start = found.finish then
        let rest := if text.size ≤ found.finish then []
          else matcher.allFrom text last fuel (found.finish + 1)
        if last = some found.start then rest else found :: rest
      else found :: matcher.allFrom text (some found.finish) fuel found.finish

def all (matcher : Matcher) (text : Array Char) : List Match :=
  matcher.allFrom text none (2 * text.size + 2) 0

end Matcher

/-- The letters between two positions. -/
def lettersBetween (text : Array Char) (start finish : Nat) : List Char :=
  (text.extract start finish).toList

/-- What a group stands for. -/
def Match.group (found : Match) (text : Array Char) (number : Nat) : List Char :=
  if number = 0 then lettersBetween text found.start found.finish
  else match found.groups.lookup number with
    | some (start, finish) => lettersBetween text start finish
    | none => []

end CompositeKeys.Shell
