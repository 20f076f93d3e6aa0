import Std.Data.HashMap
import CompositeKeys.Shell.Utility.Arguments

/-! The utility that puts names in an order in which each one comes after those that it waits for. -/

namespace CompositeKeys.Shell.Utility
open Files Procedure

/-- A name, how many others it still waits for, and those that wait for it, the last one first. -/
structure Waiting where
  name : String
  count : Nat := 0
  followers : List Nat := []
  isDone : Bool := false
  deriving Inhabited

/-- Names in the order of their letters. -/
abbrev Succession := Array Waiting

namespace Succession

/-- The pairs of words. It is nothing if there is one word too many. -/
def pairs? : List String → Option (List (String × String))
  | [] => some []
  | [_] => none
  | first :: second :: rest => (pairs? rest).map ((first, second) :: ·)

/-- What pairs of names ask for: the first one is to come before the second one. -/
def ofPairs (pairs : List (String × String)) : Succession :=
  let names := ((pairs.flatMap fun (first, second) => [first, second]).mergeSort).eraseReps.toArray
  let numbers : Std.HashMap String Nat := .ofList names.toList.zipIdx
  let number := fun name : String => (numbers.get? name).getD 0
  pairs.foldl (fun items (first, second) =>
    if first = second then items
    else
      let items := items.modify (number second) fun item => { item with count := item.count + 1 }
      items.modify (number first) fun item =>
        { item with followers := number second :: item.followers }) (names.map ({ name := · }))

/-- Lets one wait that less. Those that no longer wait are told. -/
def release (items : Succession) : List Nat → Succession × List Nat
  | [] => (items, [])
  | number :: rest =>
    let items := items.modify number fun item => { item with count := item.count - 1 }
    let (after, free) := release items rest
    (after, if (items.getD number default).count = 0 then number :: free else free)

/-- Takes those that wait for nothing, and those that then wait for nothing. -/
def advance (items : Succession) : Nat → List Nat → Succession × List String
  | 0, _ | _, [] => (items, [])
  | fuel + 1, number :: queue =>
    let item := items.getD number default
    let (items, free) := release (items.modify number ({ · with isDone := true })) item.followers
    let (items, names) := advance items fuel (queue ++ free)
    (items, item.name :: names)

def ready (items : Succession) : List Nat :=
  (List.range items.size).filter fun number =>
    let item := items.getD number default
    item.count = 0 && !item.isDone

/-- A way back through names that wait for each other: the one it has come to, and where it has come
to each of them from. -/
structure Trail where
  last : Nat
  origins : List (Nat × Nat) := []

/-- The names from one to another along a trail. -/
def Trail.between (trail : Trail) (finish : Nat) : Nat → Nat → List Nat
  | 0, _ => []
  | fuel + 1, start =>
    if start = finish then [start]
    else start :: ((trail.origins.lookup start).map (trail.between finish fuel)).getD []

/-- Follows a trail back until it meets itself. What has to go for it to end is told: who no longer
waits for whom. -/
def follow (items : Succession) : List Nat → Option Trail → Trail ⊕ (List Nat × Nat × Nat)
  | [], trail => .inl (trail.getD { last := 0 })
  | number :: rest, trail =>
    let item := items.getD number default
    match trail with
    | none =>
      if item.count = 0 then follow items rest none else follow items rest (some { last := number })
    | some trail =>
      if item.count = 0 || !item.followers.contains trail.last then follow items rest (some trail)
      else if (trail.origins.lookup number).isSome then
        .inr (trail.between number (items.size + 1) trail.last, number, trail.last)
      else
        let origins := (number, trail.last) :: trail.origins
        follow items rest (some { last := number, origins })

/-- Looks for names that wait for each other in a circle, and opens it. -/
def openCircle (items : Succession) : Nat → Option Trail → Succession × List String
  | 0, _ => (items, [])
  | fuel + 1, trail =>
    match follow items (List.range items.size) trail with
    | .inl trail => openCircle items fuel (some trail)
    | .inr (circle, first, second) =>
      let items := items.modify first fun item =>
        { item with followers := item.followers.erase second }
      let items := items.modify second fun item => { item with count := item.count - 1 }
      (items, circle.map fun number => (items.getD number default).name)

/-- Writes all names in their order. Circles are opened and complained of. -/
def write (name source : String) : Nat → Succession → Procedure Unit
  | 0, _ => pure ()
  | fuel + 1, items => do
    let (items, names) := items.advance (items.size + 1) items.ready
    emit (ofLines names)
    if items.any (!·.isDone) then
      let (items, circle) := items.openCircle (items.size + 2) none
      complain name s!"{source}: input contains a loop:"
      for other in circle do complain name other
      setStatus 1
      write name source fuel items

end Succession

/-- Puts the names of a file in an order. -/
def succession (name : String) (words : List String) : Procedure Unit :=
  withGiven name 1 {} words fun given => do
    match given.operands with
    | _ :: extra :: _ => extraOperand name extra
    | _ =>
      let source := given.operands.headD "-"
      let refuse := fun message : String => do
        complain name s!"{quotedIfNeeded source}: {message}"
        setStatus 1
      match ← contents source with
      | .error error =>
        let start := if error = .isDirectory then "read error: " else ""
        refuse (start ++ error.reason)
      | .ok text =>
        let pieces := (text.toList.splitBy fun first second => isGap first == isGap second).filter
          fun piece => !piece.head?.any isGap
        match Succession.pairs? (pieces.map String.ofList) with
        | none => refuse "input contains an odd number of tokens"
        | some pairs =>
          (Succession.ofPairs pairs).write name (quotedIfNeeded source) (pairs.length + 1)
where
  isGap (letter : Char) : Bool := " \t\n".contains letter

end CompositeKeys.Shell.Utility
