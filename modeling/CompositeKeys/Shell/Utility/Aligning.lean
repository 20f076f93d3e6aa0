import Std.Data.HashMap

/-! How the lines of two texts are told to be the same ones: the least number of lines is taken to be
changed, and of equally good ways the one that a search from both ends meets first. Lines that can
hardly be told are left out of the search. Lines are given as numbers, the same ones for lines that
are alike. -/

namespace CompositeKeys.Shell.Utility

/-- Lines of one text that have come in the place of lines of another one, told by the numbers of the
lines in front of them and of the last ones. -/
structure Change where
  oldStart : Nat
  oldFinish : Nat
  newStart : Nat
  newFinish : Nat
  deriving DecidableEq, Repr, Inhabited

namespace Aligning

/-- Marks of lines. There are none in front of the first line and after the last one. -/
structure Marks where
  flags : Array Bool

namespace Marks

def none (count : Nat) : Marks := { flags := Array.replicate count false }

def has (marks : Marks) (line : Int) : Bool := 0 ≤ line && marks.flags.getD line.toNat false

def set (marks : Marks) (line : Int) (flag : Bool) : Marks :=
  if line < 0 then marks else { flags := marks.flags.setIfInBounds line.toNat flag }

/-- The first line without a mark, from a line on. -/
def after (marks : Marks) : Nat → Int → Int
  | 0, line => line
  | fuel + 1, line => if marks.has line then marks.after fuel (line + 1) else line

/-- The last line without a mark, up to a line. -/
def before (marks : Marks) : Nat → Int → Int
  | 0, line => line
  | fuel + 1, line => if marks.has line then marks.before fuel (line - 1) else line

def freeAfter (marks : Marks) (line : Int) : Int := marks.after (marks.flags.size + 1) line

def freeBefore (marks : Marks) (line : Int) : Int := marks.before (marks.flags.size + 1) line

end Marks

/-- How far a search has come on each diagonal. -/
structure Reach where
  cells : Array Int
  shift : Int

def Reach.at (reach : Reach) (diagonal : Int) : Int :=
  reach.cells.getD (diagonal + reach.shift).toNat 0

def Reach.set (reach : Reach) (diagonal value : Int) : Reach :=
  { reach with cells := reach.cells.setIfInBounds (diagonal + reach.shift).toNat value }

/-- A part of both texts: lines from one on up to another one. -/
structure Window where
  oldStart : Int
  oldFinish : Int
  newStart : Int
  newFinish : Int

def Window.size (window : Window) : Nat :=
  (window.oldFinish - window.oldStart + window.newFinish - window.newStart).toNat

/-- Which lines of two texts are alike. -/
abbrev Likeness := Int → Int → Bool

/-- Goes on as long as lines are alike. -/
def slideDown (isSame : Likeness) (window : Window) : Nat → Int → Int → Int
  | 0, old, _ => old
  | fuel + 1, old, new =>
    if old < window.oldFinish && new < window.newFinish && isSame old new then
      slideDown isSame window fuel (old + 1) (new + 1)
    else old

/-- Goes back as long as lines are alike. -/
def slideUp (isSame : Likeness) (window : Window) : Nat → Int → Int → Int
  | 0, old, _ => old
  | fuel + 1, old, new =>
    if window.oldStart < old && window.newStart < new && isSame (old - 1) (new - 1) then
      slideUp isSame window fuel (old - 1) (new - 1)
    else old

/-- A search from both ends: how far it has come, and between which diagonals. -/
structure Search where
  down : Reach
  up : Reach
  downLow : Int
  downHigh : Int
  upLow : Int
  upHigh : Int

/-- A number that is greater than that of any line. -/
def beyond : Int := 1000000000

/-- Takes another step down on a diagonal. The search is over if the other end has come as far. -/
def Search.stepDown (isSame : Likeness) (window : Window) (meets : Bool) (search : Search)
    (diagonal : Int) : Except (Int × Int) Search :=
  let low := search.down.at (diagonal - 1)
  let high := search.down.at (diagonal + 1)
  let start := if low < high then high else low + 1
  let old := slideDown isSame window (window.size + 1) start (start - diagonal)
  let isMet := meets && search.upLow ≤ diagonal && diagonal ≤ search.upHigh &&
    search.up.at diagonal ≤ old
  if isMet then .error (old, old - diagonal)
  else .ok { search with down := search.down.set diagonal old }

/-- Takes another step up on a diagonal. -/
def Search.stepUp (isSame : Likeness) (window : Window) (meets : Bool) (search : Search)
    (diagonal : Int) : Except (Int × Int) Search :=
  let low := search.up.at (diagonal - 1)
  let high := search.up.at (diagonal + 1)
  let start := if low < high then low else high - 1
  let old := slideUp isSame window (window.size + 1) start (start - diagonal)
  let isMet := meets && search.downLow ≤ diagonal && diagonal ≤ search.downHigh &&
    old ≤ search.down.at diagonal
  if isMet then .error (old, old - diagonal)
  else .ok { search with up := search.up.set diagonal old }

/-- Every other diagonal from the highest one down. -/
def everyOther (high low : Int) : List Int :=
  (List.range (((high - low) / 2).toNat + 1)).filterMap fun (index : Nat) =>
    let diagonal := high - 2 * index
    if low ≤ diagonal then some diagonal else none

/-- Where searches from both ends of a window meet. -/
def Search.meeting (isSame : Likeness) (window : Window) : Nat → Search → Int × Int
  | 0, _ => (window.oldFinish, window.newFinish)
  | fuel + 1, search =>
    let least := window.oldStart - window.newFinish
    let greatest := window.oldFinish - window.newStart
    let isOdd := (window.oldStart - window.newStart - window.oldFinish + window.newFinish) % 2 ≠ 0
    let round : Except (Int × Int) Search := do
      let search := if least < search.downLow then
          { search with
            downLow := search.downLow - 1
            down := search.down.set (search.downLow - 2) (-1) }
        else { search with downLow := search.downLow + 1 }
      let search := if search.downHigh < greatest then
          { search with
            downHigh := search.downHigh + 1
            down := search.down.set (search.downHigh + 2) (-1) }
        else { search with downHigh := search.downHigh - 1 }
      let search ← (everyOther search.downHigh search.downLow).foldlM
        (stepDown isSame window isOdd) search
      let search := if least < search.upLow then
          { search with
            upLow := search.upLow - 1
            up := search.up.set (search.upLow - 2) beyond }
        else { search with upLow := search.upLow + 1 }
      let search := if search.upHigh < greatest then
          { search with
            upHigh := search.upHigh + 1
            up := search.up.set (search.upHigh + 2) beyond }
        else { search with upHigh := search.upHigh - 1 }
      (everyOther search.upHigh search.upLow).foldlM (stepUp isSame window !isOdd) search
    match round with
    | .error found => found
    | .ok search => meeting isSame window fuel search

/-- A point on the way from one end of a window to the other. -/
def middle (isSame : Likeness) (window : Window) : Int × Int :=
  let shift := window.newFinish - window.oldStart + 2
  let reach : Reach := { cells := Array.replicate (window.size + 5) 0, shift }
  let top := window.oldStart - window.newStart
  let bottom := window.oldFinish - window.newFinish
  Search.meeting isSame window (window.size + 2)
    { down := reach.set top window.oldStart
      up := reach.set bottom window.oldFinish
      downLow := top, downHigh := top, upLow := bottom, upHigh := bottom }

/-- Lines from one on up to another one, marked as changed. -/
def marked (marks : Marks) (start finish : Int) : Marks :=
  (List.range (finish - start).toNat).foldl (fun (marks : Marks) (index : Nat) =>
    marks.set (start + index) true) marks

/-- Marks the lines of a window that are changed, in both texts. -/
def compare (isSame : Likeness) : Nat → Window → Marks × Marks → Marks × Marks
  | 0, _, marks => marks
  | fuel + 1, window, (old, new) =>
    let start := slideDown isSame window (window.size + 1) window.oldStart window.newStart
    let window := { window with
      oldStart := start, newStart := window.newStart + (start - window.oldStart) }
    let finish := slideUp isSame window (window.size + 1) window.oldFinish window.newFinish
    let window := { window with
      oldFinish := finish, newFinish := window.newFinish - (window.oldFinish - finish) }
    if window.oldStart = window.oldFinish || window.newStart = window.newFinish then
      (marked old window.oldStart window.oldFinish, marked new window.newStart window.newFinish)
    else
      let (oldMiddle, newMiddle) := middle isSame window
      let marks := compare isSame fuel
        { window with oldFinish := oldMiddle, newFinish := newMiddle } (old, new)
      compare isSame fuel { window with oldStart := oldMiddle, newStart := newMiddle } marks

/-- What becomes of a line before the search: it takes part, it has been told to be changed, or it
may be left out as it is like too many others. -/
inductive Fate where
  | takesPart
  | isChanged
  | isDoubtful
  deriving DecidableEq, Inhabited

/-- The square root of a number, roughly, as a power of two. -/
def roughRoot : Nat → Nat → Nat
  | 0, _ => 1
  | fuel + 1, number => if number / 4 = 0 then 1 else 2 * roughRoot fuel (number / 4)

/-- The lines that a run begins with, up to where doubtful ones may stay so. -/
def settled : Nat → Nat → List Fate → List Fate
  | _, _, [] => []
  | place, row, fate :: rest =>
    if 8 ≤ place && fate = .isChanged then fate :: rest
    else match fate with
      | .isDoubtful => .takesPart :: settled (place + 1) 0 rest
      | .takesPart => fate :: settled (place + 1) 0 rest
      | .isChanged => if row = 2 then fate :: rest else fate :: settled (place + 1) (row + 1) rest

/-- A run of lines that begins and ends with changed ones. Doubtful lines among them stay so only
where they are few. -/
def settledRun (run : List Fate) : List Fate :=
  let count := run.length
  let confirmed := fun fate : Fate => if fate = .isDoubtful then .takesPart else fate
  if count < 4 * run.count .isDoubtful then run.map confirmed
  else
    let most := roughRoot count (count / 4) + 1
    let pieces := (run.splitBy (· = ·)).map fun piece =>
      if most ≤ piece.length then piece.map confirmed else piece
    let run := settled 0 0 pieces.flatten
    (settled 0 0 run.reverse).reverse

/-- Doubtful lines stay so only between changed ones. -/
def settledAll : Nat → List Fate → List Fate
  | 0, fates => fates
  | _, [] => []
  | fuel + 1, .isChanged :: rest =>
    let run := .isChanged :: rest.takeWhile (· ≠ .takesPart)
    let trailing := (run.reverse.takeWhile (· = .isDoubtful)).length
    let kept := run.take (run.length - trailing)
    settledRun kept ++ settledAll fuel (List.replicate trailing .takesPart ++
      rest.drop (run.length - 1))
  | fuel + 1, _ :: rest => .takesPart :: settledAll fuel rest

/-- What becomes of the lines of a text, given how often there are lines like them in the other
one. -/
def fates (lines : Array Nat) (others : Std.HashMap Nat Nat) : Array Fate :=
  let many := 5 * roughRoot lines.size (lines.size / 64)
  let first := lines.toList.map fun line =>
    let count := (others.get? line).getD 0
    if count = 0 then Fate.isChanged else if many < count then .isDoubtful else .takesPart
  (settledAll (2 * lines.size + 1) first).toArray

def countsOf (lines : Array Nat) : Std.HashMap Nat Nat :=
  lines.foldl (fun counts line => counts.insert line ((counts.get? line).getD 0 + 1)) {}

/-- Moving a run of changed lines in one text up and down, along with the place in the other one. -/
structure Shift where
  own : Marks
  start : Int
  finish : Int
  other : Int
  matching : Int

namespace Shift

/-- Moves the run up by a line, and up to the place in the other text that goes with it. -/
def raised (others : Marks) (shift : Shift) : Shift :=
  { shift with
    own := (shift.own.set (shift.start - 1) true).set (shift.finish - 1) false
    start := shift.start - 1
    finish := shift.finish - 1
    other := others.freeBefore (shift.other - 1) }

/-- Moves the run up as long as the line in front of it is like its last one. -/
def up (lines : Array Nat) (others : Marks) : Nat → Shift → Shift
  | 0, shift => shift
  | fuel + 1, shift =>
    let line := fun place : Int => lines.getD place.toNat 0
    if 0 < shift.start && line (shift.start - 1) = line (shift.finish - 1) then
      let moved := shift.raised others
      up lines others fuel { moved with start := moved.own.freeBefore (moved.start - 1) + 1 }
    else shift

/-- Moves the run up as it is to where it goes with a change in the other text. -/
def align (others : Marks) : Nat → Shift → Shift
  | 0, shift => shift
  | fuel + 1, shift =>
    if shift.matching < shift.finish then align others fuel (shift.raised others) else shift

/-- Moves the run down as long as the line after it is like its first one. -/
def down (lines : Array Nat) (others : Marks) : Nat → Shift → Shift
  | 0, shift => shift
  | fuel + 1, shift =>
    let line := fun place : Int => lines.getD place.toNat 0
    if shift.finish < lines.size && line shift.start = line shift.finish then
      let own := (shift.own.set shift.start false).set shift.finish true
      let finish := own.freeAfter (shift.finish + 1)
      let other := others.freeAfter (shift.other + 1)
      let matching := if other = shift.other + 1 then shift.matching else finish
      down lines others fuel { own, start := shift.start + 1, finish, other, matching }
    else shift

/-- Moves the run up and down until it no longer grows into others. -/
def settle (lines : Array Nat) (others : Marks) : Nat → Shift → Shift
  | 0, shift => shift
  | fuel + 1, shift =>
    let count := shift.finish - shift.start
    let shift := shift.up lines others (lines.size + 1)
    let matching : Int := if others.has (shift.other - 1) then shift.finish else lines.size
    let shift := { shift with matching }.down lines others (lines.size + 1)
    if shift.finish - shift.start = count then shift else settle lines others fuel shift

end Shift

/-- Moves the runs of changed lines in one text to where they stand best, from a line on: next to
changes in the other one, or else as far down as can be. -/
def shifted (lines : Array Nat) (others : Marks) : Nat → Int → Int → Marks → Marks
  | 0, _, _, own => own
  | fuel + 1, line, other, own =>
    if lines.size ≤ line then own
    else if !own.has line then
      shifted lines others fuel (line + 1) (others.freeAfter other + 1) own
    else
      let shift : Shift :=
        { own, start := line, finish := own.freeAfter (line + 1), other := others.freeAfter other
          matching := 0 }
      let shift := shift.settle lines others (lines.size + 1)
      let shift := shift.align others (lines.size + 1)
      shifted lines others fuel shift.finish shift.other shift.own

/-- The changes that marks in both texts stand for, from lines on. -/
def changesFrom (old new : Marks) (oldSize newSize : Nat) : Nat → Int → Int → List Change
  | 0, _, _ => []
  | fuel + 1, oldLine, newLine =>
    if oldSize ≤ oldLine && newSize ≤ newLine then []
    else
      let oldFinish := old.freeAfter oldLine
      let newFinish := new.freeAfter newLine
      let rest := changesFrom old new oldSize newSize fuel (oldFinish + 1) (newFinish + 1)
      if oldFinish = oldLine && newFinish = newLine then rest
      else ⟨oldLine.toNat, oldFinish.toNat, newLine.toNat, newFinish.toNat⟩ :: rest

/-- The changes between two rows of lines. -/
def changes (old new : Array Nat) : List Change :=
  let oldFates := fates old (countsOf new)
  let newFates := fates new (countsOf old)
  let places := fun fates : Array Fate =>
    ((List.range fates.size).filter fun place => fates.getD place default = .takesPart).toArray
  let oldPlaces := places oldFates
  let newPlaces := places newFates
  let isSame : Likeness := fun first second =>
    old.getD (oldPlaces.getD first.toNat 0) 0 = new.getD (newPlaces.getD second.toNat 0) 0
  let window : Window := ⟨0, oldPlaces.size, 0, newPlaces.size⟩
  let (oldFound, newFound) := compare isSame (window.size + 2) window
    (.none oldPlaces.size, .none newPlaces.size)
  let marksOf := fun (fates : Array Fate) (places : Array Nat) (found : Marks) =>
    let start : Marks := { flags := fates.map (· ≠ .takesPart) }
    (List.range places.size).foldl (fun (marks : Marks) (index : Nat) =>
      if found.has index then marks.set (places.getD index 0) true else marks) start
  let oldMarks := marksOf oldFates oldPlaces oldFound
  let newMarks := marksOf newFates newPlaces newFound
  let oldMarks := shifted old newMarks (old.size + 1) 0 0 oldMarks
  let newMarks := shifted new oldMarks (new.size + 1) 0 0 newMarks
  changesFrom oldMarks newMarks old.size new.size (old.size + new.size + 1) 0 0

end Aligning

/-- The changes between the lines of two texts, which are compared by what a function makes of them.
Lines at the beginning and at the end that are the same do not take part, but for some that stand
next to the others. -/
def changesBetween (context : Nat) (compared : String → String) (first second : List String) :
    List Change :=
  let alike := fun first second : List String =>
    ((first.zip second).takeWhile fun (line, other) => line == other).length
  let front := alike first second - context
  let isEnded := fun lines : List String => lines.getLast?.all fun line => line.endsWith "\n"
  let back := if isEnded first = isEnded second then
      alike (first.drop front).reverse (second.drop front).reverse
    else 0
  let inner := fun lines : List String =>
    ((lines.drop front).take (lines.length - front - (back - context))).map compared
  let numbers := (inner first ++ inner second).foldl
    (fun (numbers : Std.HashMap String Nat) line => numbers.insertIfNew line numbers.size) {}
  let numbered := fun lines : List String =>
    ((inner lines).map fun line => (numbers.get? line).getD 0).toArray
  (Aligning.changes (numbered first) (numbered second)).map fun change =>
    ⟨change.oldStart + front, change.oldFinish + front, change.newStart + front,
      change.newFinish + front⟩

end CompositeKeys.Shell.Utility
