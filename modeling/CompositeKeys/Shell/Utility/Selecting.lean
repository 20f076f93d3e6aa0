import CompositeKeys.Shell.Utility.Viewing

/-! Utilities that take parts of lines, or choose among lines by those next to them. -/

namespace CompositeKeys.Shell.Utility
open Files Procedure

/-- The positions from one to another, or to the end. -/
structure Span where
  first : Nat
  last : Option Nat

namespace Span

def contains (span : Span) (position : Nat) : Bool :=
  span.first ≤ position && span.last.all (position ≤ ·)

/-- The positions in a piece of a list. -/
def ofPiece (isField : Bool) (letters : List Char) : Except String Span := do
  let first := letters.takeWhile Char.isDigit
  let rest := letters.drop first.length
  let zero := if isField then "fields are numbered from 1"
    else "byte/character positions are numbered from 1"
  let value := fun digits : List Char => (Arithmetic.inBase? 10 digits).getD 0
  let isLarge := fun digits : List Char => 18446744073709551615 < value digits
  let tooLarge := fun digits : List Char =>
    let thing := if isField then "field number" else "byte/character offset"
    s!"{thing} {quotedWord (.ofList digits)} is too large"
  if isLarge first then throw (tooLarge first)
  match rest with
  | [] =>
    if value first = 0 then throw zero
    return { first := value first, last := some (value first) }
  | '-' :: rest =>
    if first ≠ [] && value first = 0 then throw zero
    let second := rest.takeWhile Char.isDigit
    if isLarge second then throw (tooLarge second)
    match rest.drop second.length with
    | [] =>
      let low := max 1 (value first)
      if first = [] && second = [] then throw "invalid range with no endpoint: -"
      if second = [] then return { first := low, last := none }
      if value second < low then throw "invalid decreasing range"
      return { first := low, last := some (value second) }
    | '-' :: _ =>
      throw (if isField then "invalid field range" else "invalid byte or character range")
    | other => throw (wrong other)
  | other => throw (wrong other)
where
  wrong (letters : List Char) : String :=
    let thing := if isField then "field value" else "byte/character position"
    s!"invalid {thing} {quotedWord (.ofList letters)}"

/-- Joins positions that overlap, given that they are in order. -/
def merged : List Span → List Span
  | [] => []
  | span :: rest =>
    match merged rest with
    | [] => [span]
    | next :: others =>
      if span.last.all (next.first ≤ ·) then
        let last := match span.last, next.last with
          | some last, some other => some (max last other)
          | _, _ => none
        { first := span.first, last } :: others
      else span :: next :: others

/-- The positions that are left out. -/
def complement : Nat → List Span → List Span
  | start, [] => [{ first := start, last := none }]
  | start, span :: rest =>
    let front := if start < span.first then [{ first := start, last := some (span.first - 1) }]
      else []
    match span.last with
    | none => front
    | some last => front ++ complement (last + 1) rest

/-- The positions that a list spells. Its pieces are set apart by commas or blanks. -/
def ofList (isField : Bool) (text : String) : Except String (List Span) := do
  let pieces := text.toList.splitBy fun first second =>
    !(separates first || separates second)
  let words := pieces.filter fun piece => !piece.all separates
  let empty := if isField then "fields are numbered from 1"
    else "byte/character positions are numbered from 1"
  let marks := (text.toList.filter separates).length
  if words.length ≠ marks + 1 then throw empty
  let spans ← words.mapM (ofPiece isField)
  return merged (spans.mergeSort fun first second => first.first ≤ second.first)
where
  separates (letter : Char) : Bool := letter = ',' || letter = ' ' || letter = '\t'

end Span

/-- The things whose positions are wanted, counted from one, in runs that were next to one
another. -/
def chosenFrom {α : Type} (spans : List Span) (things : List α) : List (List α) :=
  let numbered := things.zipIdx 1
  (spans.map fun span => (numbered.filter fun (_, place) => span.contains place).map Prod.fst).filter
    fun chosen => !chosen.isEmpty

/-- What is asked of lines of which parts are taken. -/
structure Cutting where
  isField : Bool
  spans : List Span
  delimiter : Char
  between : Option String
  keepsWhole : Bool

/-- What is left of a line. -/
def Cutting.apply (cutting : Cutting) (line : String) : Option String :=
  if cutting.isField then
    let fields := line.splitOn (.singleton cutting.delimiter)
    if fields.length < 2 then if cutting.keepsWhole then some line else none
    else
      let chosen := (chosenFrom cutting.spans fields).flatten
      some ((cutting.between.getD (.singleton cutting.delimiter)).intercalate chosen)
  else
    let chosen := (chosenFrom cutting.spans line.toList).map String.ofList
    some ((cutting.between.getD "").intercalate chosen)

/-- Reads what is asked for. -/
def Cutting.ofGiven (given : Given) : Except String Cutting := do
  let lists := given.options.filter fun option => "bcf".contains option.1
  if 1 < lists.length then throw "only one list may be specified"
  if (given.value? 'd').any (1 < ·.length) then throw "the delimiter must be a single character"
  match lists with
  | [] => throw "you must specify a list of bytes, characters, or fields"
  | (letter, list) :: _ =>
    let isField := letter = 'f'
    if !isField && given.has 'd' then
      throw "an input delimiter may be specified only when operating on fields"
    if !isField && given.has 's' then
      throw "suppressing non-delimited lines makes sense\n\tonly when operating on fields"
    let spans ← Span.ofList isField list
    return {
      isField
      spans := if given.has 'C' then Span.complement 1 spans else spans
      delimiter := match given.value? 'd' with
        | none => '\t'
        | some text => (text.toList.head?).getD '\x00'
      between := given.value? 'O'
      keepsWhole := !given.has 's' }

def cut (name : String) (words : List String) : Procedure Unit :=
  withGiven name 1
    { plain := "snzC", valued := "dfcbO"
      long := [("delimiter", 'd'), ("fields", 'f'), ("characters", 'c'), ("bytes", 'b'),
        ("only-delimited", 's'), ("zero-terminated", 'z'), ("complement", 'C'),
        ("output-delimiter", 'O')] } words
    fun given => do
      match Cutting.ofGiven given with
      | .error message => suggestHelp name message
      | .ok cutting =>
        let ending := if given.has 'z' then '\x00' else '\n'
        for operand in given.sources do
          if let some text ← read? name 1 operand true then
            for line in recordsIn ending text do
              if let some left := cutting.apply line then emit (left.push ending)

/-- The runs of lines that are alike. -/
def runsOf (isAlike : String → String → Bool) (lines : List String) : List (List String) :=
  lines.splitBy isAlike

/-- The part of a line that is compared with others. -/
def comparedPart (given : Given) (fields letters : Nat) (limit : Option Nat) (line : String) :
    List Char :=
  let isBlank := fun letter : Char => letter = ' ' || letter = '\t'
  let withoutField := fun letters : List Char =>
    (letters.dropWhile isBlank).dropWhile (!isBlank ·)
  let rest := (fields.repeat withoutField line.toList).drop letters
  let rest := (limit.map rest.take).getD rest
  if given.has 'i' then rest.map Char.toLower else rest

/-- Where blank lines stand among the runs of lines that are alike. -/
structure Grouping where
  leads : Bool := false
  parts : Bool := false
  trails : Bool := false

def Grouping.named : String → Grouping
  | "prepend" => { leads := true, parts := true }
  | "append" => { parts := true, trails := true }
  | "both" => { leads := true, parts := true, trails := true }
  | "separate" => { parts := true }
  | _ => {}

/-- Chooses among the runs of lines that are alike. -/
def showRuns (given : Given) (grouping : Grouping) (ending : Char) (runs : List (List String)) :
    Procedure Unit := do
  let line := fun text : String => text.push ending
  if given.hasAny "GD" then
    let runs := if given.has 'G' then runs else runs.filter (1 < ·.length)
    let texts := runs.map fun run => "".intercalate (run.map line)
    let gap := fun isThere : Bool => if isThere && runs ≠ [] then line "" else ""
    emit <| gap grouping.leads ++ (gap grouping.parts).intercalate texts ++ gap grouping.trails
  else
    for run in runs do
      let count := run.length
      if (!given.has 'd' || 1 < count) && (!given.has 'u' || count = 1) then
        emit ((if given.has 'c' then column 7 count ++ " " else "") ++ line (run.headD ""))

/-- The numbers after a first option that is no more than that. -/
def withSkips (words : List String) : List String :=
  words.map fun word =>
    match word.toList with
    | '-' :: digits => if digits ≠ [] && digits.all Char.isDigit then "-f" ++ .ofList digits else word
    | '+' :: digits => if digits ≠ [] && digits.all Char.isDigit then "-s" ++ .ofList digits else word
    | _ => word

def unique (name : String) (words : List String) : Procedure Unit :=
  withGiven name 1
    { plain := "cduiz", valued := "fsw", optional := "DG"
      long := [("count", 'c'), ("repeated", 'd'), ("unique", 'u'), ("ignore-case", 'i'),
        ("skip-fields", 'f'), ("skip-chars", 's'), ("check-chars", 'w'), ("all-repeated", 'D'),
        ("group", 'G'), ("zero-terminated", 'z')] } (withSkips words)
    fun given => do
      let kinds := [('f', "fields to skip"), ('s', "bytes to skip"), ('w', "bytes to compare")]
      let wrong := given.options.findSome? fun (letter, value) =>
        (kinds.lookup letter).bind fun things =>
          if (number? value).isSome then none else some s!"{value}: invalid number of {things}"
      let natural := fun letter : Char => (given.value? letter).bind number?
      match wrong, given.operands with
      | some message, _ =>
        complain name message
        setStatus 1
      | none, _ :: _ :: extra :: _ => extraOperand name extra
      | none, operands =>
        let chosen : Except String String := do
          let chosen ← match given.value? 'G', given.value? 'D' with
            | some "", _ => pure "separate"
            | some text, _ => choiceOf "--group" ["prepend", "append", "separate", "both"] text
            | none, some "" => pure "none"
            | none, some text => choiceOf "--all-repeated" ["none", "prepend", "separate"] text
            | none, none => pure "none"
          if given.has 'G' && given.hasAny "cdDu" then
            throw "--group is mutually exclusive with -c/-d/-D/-u"
          if given.has 'D' && given.has 'c' then
            throw "printing all duplicated lines and repeat counts is meaningless"
          return chosen
        match chosen with
        | .error message => suggestHelp name message
        | .ok chosen =>
          let source := operands.headD "-"
          match ← contentsSoFar source with
          | .error error =>
            let message := if error = .isDirectory then
                s!"error reading {quoted source}: Is a directory"
              else s!"{quotedIfNeeded source}: {error.reason}"
            complain name message
            setStatus 1
          | .ok text =>
            let ending := if given.has 'z' then '\x00' else '\n'
            let part := comparedPart given ((natural 'f').getD 0) ((natural 's').getD 0) (natural 'w')
            let runs := runsOf (fun first second => part first == part second)
              (recordsIn ending text)
            showRuns given (.named chosen) ending runs
            if let some path := (operands[1]?).filter (· ≠ "-") then
              let output := "".intercalate (← get).held.reverse
              modify ({ · with held := [] })
              if let some error := ← writeFile path output then
                complain name s!"{quotedIfNeeded path}: {error.reason}"
                setStatus 1

/-- What stands between lines that are put side by side, one after another. It is wrong if it ends
in a backslash. -/
def delimitersOf : List Char → Option (List String)
  | [] => some []
  | ['\\'] => none
  | '\\' :: letter :: rest =>
    let known := [('b', "\x08"), ('f', "\x0c"), ('n', "\n"), ('r', "\r"), ('t', "\t"),
      ('v', "\x0b"), ('0', ""), ('\\', "\\")]
    (delimitersOf rest).map (((known.lookup letter).getD (.singleton letter)) :: ·)
  | letter :: rest => (delimitersOf rest).map (.singleton letter :: ·)

/-- Pieces with delimiters between them, which are used over and over again. -/
def interleaved (delimiters : List String) (pieces : List String) : String :=
  "".intercalate <| pieces.zipIdx.map fun (piece, index) =>
    if index = 0 then piece
    else (delimiters[(index - 1) % max 1 delimiters.length]?).getD "" ++ piece

/-- Takes the next line for each of the operands. Operands that are alike and are the input share
its lines. -/
def takeLines (operands : List String) (lines : List (String × List String)) :
    List (Option String) × List (String × List String) :=
  let (taken, left) := operands.foldl (fun (taken, lines) operand =>
    match lines.lookup operand with
    | some (line :: rest) =>
      (some line :: taken, (operand, rest) :: lines.filter fun entry => entry.1 != operand)
    | _ => (none :: taken, lines)) ([], lines)
  (taken.reverse, left)

/-- The rows of lines that stand side by side, up to the last one in which there is a line. -/
def rowsOf (operands : List String) :
    Nat → List (String × List String) → List (List String)
  | 0, _ => []
  | fuel + 1, lines =>
    let (row, left) := takeLines operands lines
    if row.all Option.isNone then []
    else row.map (·.getD "") :: rowsOf operands fuel left

def paste (name : String) (words : List String) : Procedure Unit :=
  withGiven name 1
    { plain := "sz", valued := "d"
      long := [("delimiters", 'd'), ("serial", 's'), ("zero-terminated", 'z')] } words
    fun given => do
      let list := (given.value? 'd').getD "\t"
      match delimitersOf list.toList with
      | none =>
        complain name s!"delimiter list ends with an unescaped backslash: {list}"
        setStatus 1
      | some delimiters =>
        let ending := if given.has 'z' then '\x00' else '\n'
        let mut all := []
        for operand in given.sources.eraseDups do
          match ← contentsSoFar operand with
          | .ok text => all := (operand, recordsIn ending text) :: all
          | .error .isDirectory =>
            complain name s!"{operand}: Is a directory"
            setStatus 1
            all := (operand, []) :: all
          | .error error =>
            complain name s!"{quotedIfNeeded operand}: {error.reason}"
            setStatus 1
        if given.has 's' then
          for operand in given.sources do
            if let some lines := all.lookup operand then
              emit ((interleaved delimiters lines).push ending)
        else if all.length = given.sources.eraseDups.length then
          let sources := given.sources.zipIdx.map fun (operand, index) =>
            if operand = "-" then operand else s!"{index}:{operand}"
          let lines := (given.sources.zip sources).map fun (operand, source) =>
            (source, (all.lookup operand).getD [])
          let count := (lines.map fun entry => entry.2.length).foldl max 0
          for row in rowsOf sources (count + 1) lines do
            emit ((interleaved delimiters row).push ending)

end CompositeKeys.Shell.Utility
