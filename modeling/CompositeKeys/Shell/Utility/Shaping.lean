import CompositeKeys.Shell.Utility.Viewing

/-! Utilities that change how lines are laid out: how long they are, and how blanks in them are
spelled. -/

namespace CompositeKeys.Shell.Utility
open Files Procedure

/-- Letters followed by those of a list, the last of which comes first. -/
def finished (done : List Char) : List Char := done.reverse

/-- The column after a letter. -/
def columnAfter (countsBytes : Bool) (column : Nat) (letter : Char) : Nat :=
  if countsBytes then column + 1
  else match letter with
    | '\x08' => column - 1
    | '\r' => 0
    | '\t' => column / 8 * 8 + 8
    | _ => column + 1

def columnOf (countsBytes : Bool) (letters : List Char) : Nat :=
  letters.foldl (columnAfter countsBytes) 0

/-- The letters of a line up to the last blank in it, and those after it. -/
def splitAtBlank (line : List Char) : List Char × List Char :=
  let isBlank := fun letter : Char => letter = ' ' || letter = '\t'
  let rest := (line.reverse.takeWhile (!isBlank ·)).reverse
  (line.take (line.length - rest.length), rest)

/-- Breaks lines that are longer than a width. The line so far is kept backwards. -/
def folded (countsBytes atBlanks : Bool) (width : Nat) :
    Nat → List Char → List Char → List Char → List Char
  | 0, _, line, done => finished (line ++ done)
  | _, [], line, done => finished (line ++ done)
  | fuel + 1, letter :: rest, line, done =>
    if letter = '\n' then folded countsBytes atBlanks width fuel rest [] ('\n' :: line ++ done)
    else
      let column := columnAfter countsBytes (columnOf countsBytes line.reverse) letter
      if column ≤ width then folded countsBytes atBlanks width fuel rest (letter :: line) done
      else
        let (front, back) := splitAtBlank line.reverse
        if atBlanks && !front.isEmpty then
          folded countsBytes atBlanks width fuel (letter :: rest) back.reverse
            ('\n' :: front.reverse ++ done)
        else if line.isEmpty then folded countsBytes atBlanks width fuel rest [letter] done
        else folded countsBytes atBlanks width fuel (letter :: rest) [] ('\n' :: line ++ done)

/-- Reads a first option that is no more than a number as the value of another one. -/
def withNumber (letter : Char) (words : List String) : List String :=
  words.map fun word =>
    match word.toList with
    | '-' :: digit :: digits =>
      if digit.isDigit && digits.all fun letter => letter.isDigit || letter = ',' then
        .ofList ('-' :: letter :: digit :: digits)
      else word
    | _ => word

def fold (name : String) (words : List String) : Procedure Unit :=
  withGiven name 1
    { plain := "bs", valued := "w", long := [("bytes", 'b'), ("spaces", 's'), ("width", 'w')] }
    (withNumber 'w' words)
    fun given => do
      let text := (given.value? 'w').getD "80"
      match number? text with
      | none =>
        complain name s!"invalid number of columns: {quotedWord text}"
        setStatus 1
      | some 0 =>
        complain name s!"invalid number of columns: {quotedWord text}: Numerical result out of range"
        setStatus 1
      | some width =>
        for operand in given.sources do
          if let some text ← read? name 1 operand true then
            let letters := text.toList
            emit (.ofList
              (folded (given.has 'b') (given.has 's') width (3 * letters.length + 1) letters [] []))

/-- Where tabs stop: at some columns, and after them at all multiples of a size, which count from
the last column if they go on from there. -/
structure TabStops where
  columns : List Nat
  size : Nat
  goesOn : Bool := false

namespace TabStops

/-- The next column at which a tab stops, if there is one. -/
def next? (stops : TabStops) (column : Nat) : Option Nat :=
  match stops.columns.find? (column < ·) with
  | some stop => some stop
  | none =>
    if stops.size = 0 then none
    else
      let base := if stops.goesOn then stops.columns.getLast?.getD 0 else 0
      some (base + (column - base) / stops.size * stops.size + stops.size)

/-- The stops that a list spells. -/
def ofText (text : String) : Except String TabStops := do
  let words := ((text.splitOn ",").flatMap (·.splitOn " ")).filter (· ≠ "")
  let numbers ← words.mapM fun word => do
    let digits := match word.toList with
      | '/' :: rest | '+' :: rest => rest
      | letters => letters
    let wrong := digits.dropWhile Char.isDigit
    unless wrong = [] do
      throw s!"tab size contains invalid character(s): {quotedWord (.ofList wrong)}"
    return (word.toList.head?.getD '0', (number? (.ofList digits)).getD 0)
  let isPlain := fun entry : Char × Nat => entry.1 ≠ '/' && entry.1 ≠ '+'
  let columns := (numbers.filter isPlain).map Prod.snd
  let last := numbers.find? (!isPlain ·)
  if columns.contains 0 then throw "tab size cannot be 0"
  if !(columns.zip (columns.drop 1)).all fun (first, second) => first < second then
    throw "tab sizes must be ascending"
  match columns, last with
  | [], none => return { columns := [], size := 8 }
  | [size], none => return { columns := [], size }
  | columns, none => return { columns, size := 0 }
  | columns, some (mark, size) => return { columns, size, goesOn := mark = '+' }

def ofGiven (given : Given) : Except String TabStops :=
  match given.values 't' with
  | [] => .ok { columns := [], size := 8 }
  | texts => ofText (",".intercalate texts)

end TabStops

/-- Writes tabs as spaces. -/
def withoutTabs (stops : TabStops) (onlyFirst : Bool) :
    List Char → Nat → Bool → List Char → List Char
  | [], _, _, done => finished done
  | letter :: rest, column, isFront, done =>
    let isActive := isFront || !onlyFirst
    match letter with
    | '\n' => withoutTabs stops onlyFirst rest 0 true ('\n' :: done)
    | '\t' =>
      if isActive then
        let stop := (stops.next? column).getD (column + 1)
        withoutTabs stops onlyFirst rest stop isFront (List.replicate (stop - column) ' ' ++ done)
      else withoutTabs stops onlyFirst rest column isFront ('\t' :: done)
    | '\x08' => withoutTabs stops onlyFirst rest (column - 1) isFront ('\x08' :: done)
    | letter => withoutTabs stops onlyFirst rest (column + 1) (isFront && letter = ' ')
      (letter :: done)

def tabOptions : Options :=
  { plain := "aif", valued := "t"
    long := [("tabs", 't'), ("initial", 'i'), ("all", 'a'), ("first-only", 'f')] }

/-- Changes the tabs of files. -/
def changeTabs (name : String) (words : List String)
    (change : Given → TabStops → List Char → List Char) : Procedure Unit :=
  withGiven name 1 tabOptions (withNumber 't' words) fun given => do
    match TabStops.ofGiven given with
    | .error message =>
      complain name message
      setStatus 1
    | .ok stops =>
      for operand in given.sources do
        if let some text ← read? name 1 operand true then
          emit (.ofList (change given stops text.toList))

def expand (name : String) (words : List String) : Procedure Unit :=
  changeTabs name words fun given stops letters =>
    withoutTabs stops (given.has 'i') letters 0 true []

/-- Blanks from one column to another with as many tabs as there can be. A space alone in front of a
stop stays as it is, unless tabs come after it. -/
def blanksBetween (stops : TabStops) (first last : Nat) : Nat → List Char
  | 0 => []
  | fuel + 1 =>
    match stops.next? first with
    | none => List.replicate (last - first) ' '
    | some stop =>
      if last < stop then List.replicate (last - first) ' '
      else if stop = first + 1 && last = stop then [' ']
      else '\t' :: blanksBetween stops stop last fuel

/-- Writes blanks as tabs where that can be. -/
def withTabs (stops : TabStops) (onlyFirst : Bool) (line : List Char) :
    Nat → Nat → Bool → List Char → List Char
  | 0, _, _, done => finished done
  | fuel + 1, column, isFront, done =>
    let isBlank := fun letter : Char => letter = ' ' || letter = '\t'
    match line with
    | [] => finished done
    | letter :: rest =>
      if isBlank letter && (isFront || !onlyFirst) then
        let blanks := line.takeWhile isBlank
        let last := blanks.foldl (fun column letter =>
          if letter = '\t' then (stops.next? column).getD (column + 1) else column + 1) column
        let text := if blanks.contains '\t' && blanks.length = 1 then ['\t']
          else blanksBetween stops column last (blanks.length + last)
        withTabs stops onlyFirst (line.drop blanks.length) fuel last isFront (text.reverse ++ done)
      else withTabs stops onlyFirst rest fuel (column + 1) false (letter :: done)

def unexpand (name : String) (words : List String) : Procedure Unit :=
  changeTabs name words fun given stops letters =>
    let onlyFirst := given.has 'f' || !given.hasAny "at"
    let lines := (String.ofList letters).splitOn "\n"
    ("\n".intercalate (lines.map fun line =>
      String.ofList (withTabs stops onlyFirst line.toList (line.length + 1) 0 true []))).toList

end CompositeKeys.Shell.Utility
