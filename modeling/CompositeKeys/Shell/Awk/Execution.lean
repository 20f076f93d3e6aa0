import CompositeKeys.Shell.Awk.Machine
import CompositeKeys.Shell.Utility.Reporting

/-! How programs for records of text are executed. -/

namespace CompositeKeys.Shell.Awk
open Files Procedure Utility

/-- The remainder of a division that drops the fraction, with the sign of what is divided. -/
def remainderOf (first second : Float) : Float :=
  match Floating.ofFloat first, Floating.ofFloat second with
  | .finite isNegative left leftPower, .finite _ right rightPower =>
    if right = 0 then 0.0 / 0.0
    else
      let least := min leftPower rightPower
      let scaled := fun (mantissa : Nat) (power : Int) => mantissa * Nat.pow 2 (power - least).toNat
      (Floating.finite isNegative (scaled left leftPower % scaled right rightPower) least).toFloat
  | .finite .., .infinite _ => first
  | _, _ => 0.0 / 0.0

def Calculation.apply : Calculation → Float → Float → Float
  | .add, first, second => first + second
  | .subtract, first, second => first - second
  | .multiply, first, second => first * second
  | .divide, first, second => first / second
  | .remainder, first, second => remainderOf first second
  | .power, first, second => Float.pow first second

def Comparison.holds : Comparison → Option Ordering → Bool
  | .different, order => order != some .eq
  | _, none => false
  | .less, some order => order == .lt
  | .lessOrEqual, some order => order != .gt
  | .equal, some order => order == .eq
  | .greater, some order => order == .gt
  | .greaterOrEqual, some order => order != .lt

/-- What stands in the place of a match. An ampersand stands for the match. -/
def replacement (found : List Char) : List Char → List Char
  | '\\' :: '&' :: rest => '&' :: replacement found rest
  | '\\' :: '\\' :: '&' :: rest => '\\' :: found ++ replacement found rest
  | '&' :: rest => found ++ replacement found rest
  | letter :: rest => letter :: replacement found rest
  | [] => []

/-- A text with matches replaced, and how many there have been. -/
def withReplacements (matcher : Matcher) (replaces : List Char) (isGlobal : Bool) (text : String) :
    String × Nat :=
  let letters := text.toList.toArray
  let found := if isGlobal then matcher.all letters else (matcher.search letters 0).toList
  let (done, position) := found.foldl (fun (done, position) found =>
    (done ++ lettersBetween letters position found.start ++
      replacement (found.group letters 0) replaces, found.finish)) (([] : List Char), 0)
  (.ofList (done ++ lettersBetween letters position letters.size), found.length)

/-- The part of a text from a position on, of so many letters. Positions before the first one make
it longer. -/
def substring (text : String) (start : Float) (count : Option Float) : String :=
  let least : Int := -1000000000
  let first := truncated start least 1000000000
  let count := (count.map fun count => truncated count least 1000000000).getD 1000000000
  let count := if first < 0 then count - first else count
  .ofList ((text.toList.drop (max first 1 - 1).toNat).take count.toNat)

/-- The position of a text in another one, or zero. -/
def position (text sought : String) : Nat :=
  let letters := text.toList.toArray
  let start? := ((Regex.literal sought).matcher.search letters 0).map Match.start
  (start?.map (· + 1)).getD 0

/-- What a format comes to so far, and what is wrong with it or with its values. -/
def laidOutAll (format : String) (title : String) (text : Value → String) :
    Nat → Nat → List Char → List Value → List Char × Option String
  | 0, _, _, _ | _, _, [], _ => ([], none)
  | fuel + 1, number, '%' :: rest, values =>
    let more := fun (written : List Char) number rest values =>
      let (after, fault) := laidOutAll format title text fuel number rest values
      (written ++ after, fault)
    let missing := ([], some s!"not enough arguments passed to {title}(\"{format}\")")
    if rest.head? = some '%' then more ['%'] number (rest.drop 1) values
    else
      let flags := rest.takeWhile ("-+ #0".contains ·)
      let afterFlags := rest.drop flags.length
      let (width, afterWidth, values) := match afterFlags, values with
        | '*' :: after, value :: values =>
          (truncated value.toNumber (-10000) 10000, after, values)
        | letters, values =>
          let digits := letters.takeWhile Char.isDigit
          (((Arithmetic.inBase? 10 digits).getD 0 : Nat), letters.drop digits.length, values)
      let (precision, after, values) := match afterWidth, values with
        | '.' :: '*' :: after, value :: values =>
          (some (truncated value.toNumber 0 10000).toNat, after, values)
        | '.' :: after, values =>
          let digits := after.takeWhile Char.isDigit
          (some ((Arithmetic.inBase? 10 digits).getD 0), after.drop digits.length, values)
        | letters, values => (none, letters, values)
      let after := after.dropWhile ("hlLqjzt".contains ·)
      let layout : Formatting.Layout :=
        { flags := if width < 0 then '-' :: flags else flags, width := width.natAbs, precision }
      match after, values with
      | _, [] => missing
      | letter :: after, value :: values =>
        if letter = 'c' then
          let shown := match value with
            | .number code | .numeral _ code =>
              [Char.ofNat ((truncated code (-Nat.pow 2 31) (Nat.pow 2 31)) % 256).toNat]
            | value => [(text value).toList.headD '\x00']
          more (layout.pad shown) (number + 1) after values
        else if letter = 's' then
          let letters := (text value).toList
          more (layout.pad ((precision.map letters.take).getD letters)) (number + 1) after values
        else if "dioxXueEfFgGaA".contains letter then
          more (laidOut layout letter value.toNumber) (number + 1) after values
        else ([], some s!"improper conversion(number {number}) in {title}(\"{format}\")")
      | [], _ => ([], some s!"improper conversion(number {number}) in {title}(\"{format}\")")
  | fuel + 1, number, letter :: rest, values =>
    let (after, fault) := laidOutAll format title text fuel number rest values
    (letter :: after, fault)

/-- The moment that words tell: a year, a month, a day, and a time of it. -/
def momentOf (text : String) : Float :=
  match (wordsOf text).map fun word => truncated (numberOf word) (-1000000) 1000000 with
  | year :: month :: day :: hour :: minute :: second :: _ =>
    let days := Moment.dayNumber (year + (month - 1) / 12) ((month - 1) % 12 + 1) 1 + day - 1
    Float.ofInt (days * 86400 + hour * 3600 + minute * 60 + second)
  | _ => -1.0
where
  wordsOf (text : String) : List String := Running.wordsBetween text.toList

namespace Running

/-- Numbers by chance, of which one follows from the other. -/
def nextChance : Running Value := do
  let chance := ((← get).chance * 1103515245 + 12345) % 2147483648
  modify ({ · with chance })
  return .number (Float.ofNat chance / 2147483648.0)

/-- Values under the format that comes first, as far as there is nothing wrong with it. -/
def underFormat (title : String) (values : List Value) : Running (String × Option String) := do
  let format ← text (values.headD .nothing)
  let textOf := Value.toText (← textFormat)
  let (letters, fault) :=
    laidOutAll format title textOf (format.length + 1) 1 format.toList (values.drop 1)
  return (.ofList letters, fault)

/-- Takes a record that has been read from a file or from a command. -/
def takeFrom (stream : Stream) (keep : Stream → Running Unit) (take : String → Running Unit) :
    Running Value := do
  match ← recordFrom (← text (← plain "RS")) stream with
  | some (found, stream) =>
    keep stream
    take found
    return .number 1.0
  | none => return .number 0.0

mutual

def evaluate (program : Program) (launcher : Launcher) (expression : Expression) :
    Nat → Running Value
  | 0 => onSession (throw .timeUp)
  | fuel + 1 => do
    match expression with
    | .number value => return .number value
    | .text letters => return .text letters
    | .matcher matcher =>
      return .ofBool (matcher.isFound (← text (← record)).toList.toArray)
    | .place place => (← spotOf program launcher place fuel).value
    | .assign calculation place value =>
      let spot ← spotOf program launcher place fuel
      if let .element .. := spot then let _ ← spot.value
      let found ← evaluate program launcher value fuel
      let after ← match calculation with
        | none => pure found
        | some calculation =>
          pure (.number (calculation.apply (← spot.value).toNumber found.toNumber))
      spot.set after
      return after
    | .step isBefore increases place =>
      let spot ← spotOf program launcher place fuel
      let before := (← spot.value).toNumber
      let after := before + (if increases then 1.0 else -1.0)
      spot.set (.number after)
      return .number (if isBefore then after else before)
    | .choose condition first second =>
      if (← evaluate program launcher condition fuel).holds then
        evaluate program launcher first fuel
      else evaluate program launcher second fuel
    | .either first second =>
      if (← evaluate program launcher first fuel).holds then return .number 1.0
      return .ofBool (← evaluate program launcher second fuel).holds
    | .both first second =>
      if (← evaluate program launcher first fuel).holds then
        return .ofBool (← evaluate program launcher second fuel).holds
      return .number 0.0
    | .member subscripts name =>
      let key ← subscript program launcher subscripts fuel
      let number ← tableOf name
      let found := (← table number).find false key
      setTable number found
      return .ofBool (found.contains key)
    | .matches isNegated value pattern =>
      let letters := (← text (← evaluate program launcher value fuel)).toList.toArray
      let matcher ← matcherFor program launcher pattern fuel
      return .ofBool (matcher.isFound letters != isNegated)
    | .compare comparison first second =>
      let left ← evaluate program launcher first fuel
      let right ← evaluate program launcher second fuel
      return .ofBool (comparison.holds (left.compare (← textFormat) right))
    | .joined first second =>
      let left ← text (← evaluate program launcher first fuel)
      let right ← text (← evaluate program launcher second fuel)
      if sizeLimit < left.length + right.length then refuse "out of memory"
      return .text (left ++ right)
    | .calculate calculation first second =>
      let left ← evaluate program launcher first fuel
      let right ← evaluate program launcher second fuel
      return .number (calculation.apply left.toNumber right.toNumber)
    | .not value => return .ofBool !(← evaluate program launcher value fuel).holds
    | .minus value => return .number (-(← evaluate program launcher value fuel).toNumber)
    | .plus value => return .number (← evaluate program launcher value fuel).toNumber
    | .call name arguments => call program launcher name arguments fuel
    | .apply function arguments => apply program launcher function arguments fuel
    | .read source target => read program launcher source target fuel
termination_by structural fuel => fuel

def evaluateAll (program : Program) (launcher : Launcher) (expressions : List Expression) :
    Nat → Running (List Value)
  | 0 => onSession (throw .timeUp)
  | fuel + 1 => do
    match expressions with
    | [] => return []
    | first :: rest =>
      let value ← evaluate program launcher first fuel
      return value :: (← evaluateAll program launcher rest fuel)
termination_by structural fuel => fuel

/-- How an element of a table is looked up. More than one subscript make one text. -/
def subscript (program : Program) (launcher : Launcher) (subscripts : List Expression) :
    Nat → Running Key
  | 0 => onSession (throw .timeUp)
  | fuel + 1 => do
    match subscripts with
    | [single] => keyOf (← evaluate program launcher single fuel)
    | _ =>
      let values ← evaluateAll program launcher subscripts fuel
      let format ← textFormat
      let separator ← text (← plain "SUBSEP")
      return .text (separator.intercalate (values.map (·.toText format)))
termination_by structural fuel => fuel

/-- The matcher that an expression stands for where one is wanted. -/
def matcherFor (program : Program) (launcher : Launcher) (expression : Expression) :
    Nat → Running Matcher
  | 0 => onSession (throw .timeUp)
  | fuel + 1 => do
    match expression with
    | .matcher matcher => return matcher
    | _ => matcherOf (← text (← evaluate program launcher expression fuel))
termination_by structural fuel => fuel

def spotOf (program : Program) (launcher : Launcher) (place : Place) : Nat → Running Spot
  | 0 => onSession (throw .timeUp)
  | fuel + 1 => do
    match place with
    | .variable name => return .variable name
    | .element name subscripts =>
      let key ← subscript program launcher subscripts fuel
      return .element (← tableOf name) key
    | .field number => return .field (← fieldNumber (← evaluate program launcher number fuel))
termination_by structural fuel => fuel

/-- What a function of the program is given: a value, or a table if a name alone stands for one. -/
def argumentsOf (program : Program) (launcher : Launcher) (arguments : List Expression) :
    Nat → Running (List Slot)
  | 0 => onSession (throw .timeUp)
  | fuel + 1 => do
    match arguments with
    | [] => return []
    | first :: rest =>
      let given ← match first with
        | .place (.variable name) =>
          match ← slot name with
          | .unset none =>
            if name = .shared "NF" then pure (.value (← valueOf name))
            else
              let number := (← get).tables.size
              modify fun machine => { machine with tables := machine.tables.push {} }
              setSlot name (.unset (some number))
              pure (.unset (some number))
          | .value _ => pure (Slot.value (← valueOf name))
          | found => pure found
        | _ => pure (.value (← evaluate program launcher first fuel))
      return given :: (← argumentsOf program launcher rest fuel)
termination_by structural fuel => fuel

/-- Does what a function of the program does. -/
def call (program : Program) (launcher : Launcher) (name : String) (arguments : List Expression) :
    Nat → Running Value
  | 0 => onSession (throw .timeUp)
  | fuel + 1 => do
    match program.functions.find? (·.name = name) with
    | none => refuse s!"function {name} never defined"
    | some found =>
      onSession step
      let given ← argumentsOf program launcher arguments fuel
      let before := (← get).own
      let missing := List.replicate (found.parameters.length - given.length) (Slot.unset none)
      modify ({ · with own := (given ++ missing).toArray })
      let ended ← outcome (execute program launcher found.body fuel)
      modify ({ · with own := before })
      match ended with
      | .ok () => return .nothing
      | .error (.return value) => return value
      | .error other => throw other
termination_by structural fuel => fuel

/-- Reads a record from somewhere. It tells whether there has been one. -/
def read (program : Program) (launcher : Launcher) (source : Source) (target : Option Place) :
    Nat → Running Value
  | 0 => onSession (throw .timeUp)
  | fuel + 1 => do
    let take := fun found : String => do
      match target with
      | none => setRecord (.read found)
      | some place => (← spotOf program launcher place fuel).set (.read found)
    match source with
    | .records =>
      match ← nextRecord ((← get).operand + 1000000) with
      | some found =>
        take found
        return .number 1.0
      | none => return .number 0.0
    | .file path =>
      let path ← text (← evaluate program launcher path fuel)
      let keep := fun stream : Stream => modify fun machine : Machine =>
        { machine with files := (path, stream) :: machine.files.filter (·.1 ≠ path) }
      match (← get).files.lookup path with
      | some stream => takeFrom stream keep take
      | none =>
        match ← openStream path with
        | .ok stream =>
          keep stream
          takeFrom stream keep take
        | .error _ => return .number (-1.0)
    | .command command =>
      let command ← text (← evaluate program launcher command fuel)
      let keep := fun stream : Stream => modify fun machine : Machine =>
        { machine with commands := (command, stream) :: machine.commands.filter (·.1 ≠ command) }
      match (← get).commands.lookup command with
      | some stream => takeFrom stream keep take
      | none =>
        let stream ← commandStream launcher command
        keep stream
        takeFrom stream keep take
termination_by structural fuel => fuel

/-- Does what a function of the language does. -/
def apply (program : Program) (launcher : Launcher) (function : Function)
    (arguments : List Expression) : Nat → Running Value
  | 0 => onSession (throw .timeUp)
  | fuel + 1 => do
    match function, arguments with
    | .length, [] => return .ofNat (← text (← record)).length
    | .length, [.place (.variable name)] =>
      match ← slot name with
      | .table number | .unset (some number) => return .ofNat (← table number).size
      | _ => return .ofNat (← text (← valueOf name)).length
    | .split, value :: .place (.variable name) :: separators =>
      let whole ← text (← evaluate program launcher value fuel)
      let found ← match separators with
        | [.matcher matcher] =>
          pure (if whole = "" then [] else partsBetween matcher whole.toList)
        | separator :: _ =>
          parts (← text (← evaluate program launcher separator fuel)) whole false
        | [] => parts (← text (← plain "FS")) whole false
      let number ← tableOf name
      setTable number (.ofParts (found.map Value.read))
      return .ofNat found.length
    | .replaceFirst, pattern :: value :: targets | .replaceAll, pattern :: value :: targets =>
      let matcher ← matcherFor program launcher pattern fuel
      let replaces := (← text (← evaluate program launcher value fuel)).toList
      let isGlobal := function = .replaceAll
      match targets.headD (.place (.field (.number 0.0))) with
      | .place place =>
        let spot ← spotOf program launcher place fuel
        let (after, count) := withReplacements matcher replaces isGlobal (← text (← spot.value))
        if 0 < count then spot.set (.text after)
        return .ofNat count
      | target =>
        let before ← text (← evaluate program launcher target fuel)
        return .ofNat (withReplacements matcher replaces isGlobal before).2
    | .match, [value, pattern] =>
      let letters := (← text (← evaluate program launcher value fuel)).toList.toArray
      let matcher ← matcherFor program launcher pattern fuel
      let (start, size) : Int × Int := match matcher.search letters 0 with
        | some found => (found.start + 1, found.finish - found.start)
        | none => (0, -1)
      setPlain "RSTART" (.ofInt start)
      setPlain "RLENGTH" (.ofInt size)
      return .ofInt start
    | _, _ =>
      let values ← evaluateAll program launcher arguments fuel
      let textFormat ← textFormat
      let textAt := fun index : Nat => (values.getD index .nothing).toText textFormat
      let numberAt := fun index : Nat => (values.getD index .nothing).toNumber
      match function with
      | .length => return .ofNat (textAt 0).length
      | .substring =>
        return .text (substring (textAt 0) (numberAt 1)
          (if 2 < values.length then some (numberAt 2) else none))
      | .index => return .ofNat (position (textAt 0) (textAt 1))
      | .format =>
        match ← underFormat "sprintf" values with
        | (made, none) => return .text made
        | (_, some message) => refuse message
      | .sine => return .number (numberAt 0).sin
      | .cosine => return .number (numberAt 0).cos
      | .arcTangent => return .number (Float.atan2 (numberAt 0) (numberAt 1))
      | .exponential => return .number (numberAt 0).exp
      | .logarithm => return .number (numberAt 0).log
      | .squareRoot => return .number (numberAt 0).sqrt
      | .truncate =>
        let value := numberAt 0
        return .number (if value < 0.0 then value.ceil else value.floor)
      | .random => nextChance
      | .seed =>
        let before := (← get).seed
        let seed := (values.head?).getD (.number 1700000000.0)
        modify ({ · with
          seed, chance := (truncated seed.toNumber 0 2147483647).toNat })
        return before
      | .execute =>
        flush
        return .ofNat (← onSession (executed launcher "sh" (textAt 0) none))
      | .close => return .ofInt (← close launcher (textAt 0))
      | .flush => flush; return .number 0.0
      | .lower => return .text ((textAt 0).map Char.toLower)
      | .upper => return .text ((textAt 0).map Char.toUpper)
      | .time => return .number 1700000000.0
      | .formatTime =>
        let spelled := if values.isEmpty then "%c" else textAt 0
        let seconds := if values.length < 2 then 1700000000 else
          truncated (numberAt 1) (-1000000000000) 1000000000000
        let moment : Moment := { seconds }
        return .text (moment.format (2 * spelled.length + 2) spelled.toList)
      | .makeTime => return .number (momentOf (textAt 0))
      | _ => return .nothing
termination_by structural fuel => fuel

/-- Writes values, formatted or one after another. -/
def print (program : Program) (launcher : Launcher) (isFormatted : Bool) (values : List Expression)
    (target : Option (Direction × Expression)) : Nat → Running Unit
  | 0 => onSession (throw .timeUp)
  | fuel + 1 => do
    let found ← evaluateAll program launcher values fuel
    let write : String → Running Unit ← match target with
      | none => pure fun text => onSession (emit text)
      | some (direction, name) =>
        let name ← text (← evaluate program launcher name fuel)
        pure (redirect direction name)
    if isFormatted then
      let (made, fault) ← underFormat "printf" found
      write made
      if let some message := fault then refuse message
    else
      let found ← if values.isEmpty then pure [← record] else pure found
      let format := (← plain "OFMT").toText "%.6g"
      let separator ← text (← plain "OFS")
      let ending ← text (← plain "ORS")
      write (separator.intercalate (found.map (·.toText format)) ++ ending)
termination_by structural fuel => fuel

def execute (program : Program) (launcher : Launcher) (statement : Statement) :
    Nat → Running Unit
  | 0 => onSession (throw .timeUp)
  | fuel + 1 => do
    match statement with
    | .evaluate value =>
      let _ ← evaluate program launcher value fuel
    | .print isFormatted values target => print program launcher isFormatted values target fuel
    | .branch condition onSuccess onFailure =>
      if (← evaluate program launcher condition fuel).holds then
        execute program launcher onSuccess fuel
      else execute program launcher onFailure fuel
    | .loop condition body => loop program launcher (some condition) none body fuel
    | .loopAfter body condition =>
      if ← round program launcher body fuel then
        loop program launcher (some condition) none body fuel
    | .iterate start condition next body =>
      if let some start := start then
        let _ ← evaluate program launcher start fuel
      loop program launcher condition next body fuel
    | .each name tableName body =>
      let number ← tableOf tableName
      let (names, found) := (← table number).names
      setTable number found
      each program launcher name names body fuel
    | .block statements => executeAll program launcher statements fuel
    | .nextRecord => throw .nextRecord
    | .nextFile => throw .nextFile
    | .exit status =>
      if let some status := status then
        let value ← evaluate program launcher status fuel
        let code := truncated value.toNumber (-2147483648) 2147483647
        modify ({ · with status := (code % 256).toNat })
      throw .exit
    | .return value =>
      match value with
      | some value => throw (.return (← evaluate program launcher value fuel))
      | none => throw (.return .nothing)
    | .leave => throw .leave
    | .again => throw .again
    | .erase name subscripts =>
      let number ← tableOf name
      match subscripts with
      | none => setTable number {}
      | some subscripts =>
        let key ← subscript program launcher subscripts fuel
        setTable number ((← table number).erase key)
termination_by structural fuel => fuel

def executeAll (program : Program) (launcher : Launcher) (statements : List Statement) :
    Nat → Running Unit
  | 0 => onSession (throw .timeUp)
  | fuel + 1 => do
    match statements with
    | [] => pure ()
    | first :: rest =>
      execute program launcher first fuel
      executeAll program launcher rest fuel
termination_by structural fuel => fuel

/-- Does a round of a loop. It is false if the loop has been left. -/
def round (program : Program) (launcher : Launcher) (body : Statement) : Nat → Running Bool
  | 0 => onSession (throw .timeUp)
  | fuel + 1 => do
    onSession step
    match ← outcome (execute program launcher body fuel) with
    | .ok () | .error .again => return true
    | .error .leave => return false
    | .error other => throw other
termination_by structural fuel => fuel

def loop (program : Program) (launcher : Launcher) (condition next : Option Expression)
    (body : Statement) : Nat → Running Unit
  | 0 => onSession (throw .timeUp)
  | fuel + 1 => do
    let holds ← match condition with
      | none => pure true
      | some condition => pure (← evaluate program launcher condition fuel).holds
    if holds then
      if ← round program launcher body fuel then
        if let some next := next then
          let _ ← evaluate program launcher next fuel
        loop program launcher condition next body fuel
termination_by structural fuel => fuel

/-- Does something for each name of a table. -/
def each (program : Program) (launcher : Launcher) (name : Variable) (names : List String)
    (body : Statement) : Nat → Running Unit
  | 0 => onSession (throw .timeUp)
  | fuel + 1 => do
    match names with
    | [] => pure ()
    | first :: rest =>
      setVariable name (.text first)
      if ← round program launcher body fuel then each program launcher name rest body fuel
termination_by structural fuel => fuel

end

/-- Whether something is to be done for the record. -/
def applies (program : Program) (launcher : Launcher) (fuel index : Nat) (condition : Condition) :
    Running Bool := do
  match condition with
  | .always => return true
  | .when condition => return (← evaluate program launcher condition fuel).holds
  | .between start finish =>
    let isInside := (← get).begun.contains index
    let begins ← if isInside then pure true
      else pure (← evaluate program launcher start fuel).holds
    if begins then
      let ends := (← evaluate program launcher finish fuel).holds
      modify fun machine =>
        let others := machine.begun.filter (· ≠ index)
        { machine with begun := if ends then others else index :: others }
    return begins

/-- Does what is done for the records that are left. -/
def eachRecord (program : Program) (launcher : Launcher) (fuel : Nat) : Nat → Running Unit
  | 0 => onSession (throw .timeUp)
  | count + 1 => do
    match ← nextRecord ((← get).operand + 1000000) with
    | none => pure ()
    | some found =>
      onSession step
      setRecord (.read found)
      let work : Running Unit := do
        for ((condition, body), index) in program.rules.zipIdx do
          if ← applies program launcher fuel index condition then
            execute program launcher body fuel
      match ← outcome work with
      | .ok () | .error .nextRecord => pure ()
      | .error .nextFile => modify ({ · with records := none })
      | .error other => throw other
      eachRecord program launcher fuel count

/-- Executes a program from its start to its end. -/
def executeProgram (program : Program) (launcher : Launcher) (fuel : Nat) : Running Unit := do
  let started ← outcome (executeAll program launcher program.atStart fuel)
  let ended ← match started with
    | .ok () =>
      if program.rules.isEmpty && program.atEnd.isEmpty then pure (.ok ())
      else outcome (eachRecord program launcher fuel fuel)
    | other => pure other
  match ended with
  | .ok () | .error .exit => executeAll program launcher program.atEnd fuel
  | .error other => throw other

end Running

/-- The values that variables start with. -/
def initialVariables (name : String) (operands : List String) (given : List (String × String)) :
    Machine :=
  let words := (name :: operands).map Value.read
  let arguments : Table := (words.zipIdx).foldl (fun table (word, index) =>
    (table.find true (.number index)).set (.number index) word) {}
  let environment : Table := given.foldl (fun table (name, value) =>
    (table.find true (.text name)).set (.text name) (.read value)) {}
  let plain : List (String × Value) :=
    [("NR", .number 0.0), ("FNR", .number 0.0), ("NF", .number 0.0), ("FS", .text " "),
      ("OFS", .text " "), ("RS", .text "\n"), ("ORS", .text "\n"), ("SUBSEP", .text "\x1c"),
      ("CONVFMT", .text "%.6g"), ("OFMT", .text "%.6g"), ("RSTART", .number 0.0),
      ("RLENGTH", .number (-1.0)), ("FILENAME", .nothing), ("ARGC", .ofNat words.length)]
  let slots := plain.map (fun (name, value) => (name, Slot.value value)) ++
    [("ARGV", .table 0), ("ENVIRON", .table 1)]
  { shared := .ofList slots, tables := #[arguments, environment] }

/-- Executes a program on operands, with variables that have been given values. It tells the status.
-/
def Program.run (program : Program) (launcher : Launcher) (name : String)
    (operands assignments : List String) (fuel : Nat) : Procedure Nat := do
  let given ← exported
  let machine := initialVariables name operands given
  let work : Running Unit := do
    for word in assignments do Running.assignWord word
    let ended ← Running.outcome (Running.executeProgram program launcher fuel)
    if let .error (.fault message) := ended then
      let _ ← Running.onSession (write 2 s!"{name}: {message}\n")
      modify ({ · with status := 2 })
    Running.closeAll launcher
  let (_, machine) ← work.run.run machine
  return machine.status

end CompositeKeys.Shell.Awk
