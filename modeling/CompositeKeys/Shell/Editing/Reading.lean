import CompositeKeys.Shell.Arithmetic
import CompositeKeys.Shell.Editing.Script

/-! How scripts are read. What is wrong with a script is said with the place up to which it has been
read. -/

namespace CompositeKeys.Shell.Editing

/-- The letters of a script that are left, and what has been read. Each part of a script that has been
given for itself is counted for itself; so are the lines of a file. -/
structure Source where
  letters : List Char
  taken : Nat := 0
  part : Nat := 1
  ends : List Nat := []
  file : Option String := none
  isExtended : Bool := false
  instructions : Array Instruction := #[]
  labels : List (String × Nat) := []
  groups : List Nat := []

abbrev Reader := StateT Source (Except String)

/-- Refuses a script with a message. -/
def refuseAt {α : Type} (place : Nat) (message : String) : Reader α := do
  let source ← get
  match source.file with
  | some file => throw s!"file {file} line {source.part}: {message}"
  | none => throw s!"-e expression #{source.part}, char {place}: {message}"

/-- How many letters of a part have been read. -/
def position : Reader Nat := return (← get).taken

def refuse {α : Type} (message : String) : Reader α := do refuseAt (← position) message

/-- Takes a letter. The end of a part begins the next one. -/
def take? : Reader (Option Char) := do
  let source ← get
  match source.letters with
  | [] => return none
  | letter :: rest =>
    let isEnd := source.file.isSome && letter = '\n' || source.ends.contains rest.length
    if isEnd && letter = '\n' then
      set { source with letters := rest, taken := 0, part := source.part + 1 }
    else set { source with letters := rest, taken := source.taken + 1 }
    return some letter

def peek? : Reader (Option Char) := return (← get).letters.head?

def isBlank (letter : Char) : Bool := letter = ' ' || letter = '\t'

def isSpace (letter : Char) : Bool := letter = ' ' || ('\t' ≤ letter && letter ≤ '\r')

/-- Skips letters of a kind. -/
def skip (kind : Char → Bool) : Nat → Reader Unit
  | 0 => pure ()
  | fuel + 1 => do
    if (← peek?).any kind then
      let _ ← take?
      skip kind fuel

def remainingCount : Reader Nat := return (← get).letters.length

def skipBlanks : Reader Unit := do skip isBlank ((← remainingCount) + 1)

/-- Takes letters of a kind. -/
def takeWhile (kind : Char → Bool) : Nat → Reader (List Char)
  | 0 => return []
  | fuel + 1 => do
    if (← peek?).any kind then
      let letter ← take?
      return letter.toList ++ (← takeWhile kind fuel)
    else return []

/-- The number at this place, which is zero if there is none. -/
def integer : Reader Nat := do
  let digits ← takeWhile Char.isDigit ((← remainingCount) + 1)
  return (Arithmetic.inBase? 10 digits).getD 0

/-- Where in an expression a reader is: outside of brackets, at their beginning, inside of them, or in
a class inside of them that a mark ends. -/
inductive Bracket where
  | outside
  | opening
  | first
  | inside
  | kind (mark : Char)
  deriving DecidableEq

/-- Takes the letters up to a delimiter. Brackets protect it, as a backslash does. -/
def untilDelimiter (delimiter : Char) (isExpression : Bool) :
    Nat → Bracket → List Char → Reader (Option (List Char))
  | 0, _, _ => return none
  | fuel + 1, bracket, before => do
    let again := untilDelimiter delimiter isExpression fuel
    match ← take? with
    | none => return none
    | some letter =>
      if bracket = .outside then
        if letter = delimiter then return some before.reverse
        else if letter = '\n' && isExpression then return none
        else if letter = '\\' then
          match ← take? with
          | none => return none
          | some next =>
            if next = 'n' && isExpression && delimiter ≠ 'n' then again .outside ('\n' :: before)
            else if next = '\n' && !isExpression then again .outside ('\n' :: '\\' :: before)
            else if next = delimiter && (isExpression || next ≠ '&') then
              again .outside (next :: before)
            else again .outside (next :: '\\' :: before)
        else if letter = '\n' then return none
        else again (if letter = '[' && isExpression then .opening else .outside) (letter :: before)
      else
        if letter = '\n' then return none
        let next ← peek?
        let bracket' := match bracket with
          | .opening => if letter = '^' then .first else if letter = ']' then .inside else .inside
          | .kind mark => if letter = mark && next = some ']' then .first else .kind mark
          | .first => .inside
          | _ => if letter = ']' then .outside else .inside
        let bracket' := if letter = '[' && bracket' = .inside then
            (match next with
              | some ':' => .kind ':'
              | some '.' => .kind '.'
              | some '=' => .kind '='
              | _ => .inside)
          else bracket'
        if letter = '\\' && next = some 'n' then
          let _ ← take?
          again bracket' ('\n' :: before)
        else again bracket' (letter :: before)

/-- The letter that digits in a base stand for, with what is left. -/
def numbered? (base most : Nat) (letters : List Char) : Option (Char × List Char) :=
  let isDigit := fun letter : Char =>
    (Arithmetic.inBase? base [letter]).isSome
  let digits := (letters.take most).takeWhile isDigit
  if digits = [] then none
  else (Arithmetic.inBase? base digits).map fun value =>
    (Char.ofNat (value % 256), letters.drop digits.length)

/-- The letter that an escape stands for, given what comes after its backslash. -/
def escape? (letters : List Char) : Option (Char × List Char) :=
  let known := [('a', '\x07'), ('f', '\x0c'), ('v', '\x0b'), ('r', '\r'), ('t', '\t')]
  match letters with
  | 'd' :: rest => numbered? 10 3 rest
  | 'o' :: rest => numbered? 8 3 rest
  | 'x' :: rest => numbered? 16 2 rest
  | 'c' :: letter :: rest => some (Char.ofNat (letter.toUpper.toNat ^^^ 64), rest)
  | letter :: rest => (known.lookup letter).map (·, rest)
  | [] => none

/-- An expression with its escapes replaced. -/
def withEscapes : Nat → List Char → List Char
  | 0, letters => letters
  | _, [] => []
  | fuel + 1, '\\' :: rest =>
    match escape? rest with
    | some (letter, after) => letter :: withEscapes fuel after
    | none => '\\' :: rest.take 1 ++ withEscapes fuel (rest.drop 1)
  | fuel + 1, letter :: rest => letter :: withEscapes fuel rest

/-- Makes an expression ready. An empty one is the one used last. -/
def expression (letters : List Char) (manner : Manner) : Reader (Option Matcher × Nat) := do
  if letters = [] then return (none, 9)
  let dialect := if (← get).isExtended then Dialect.extended else .basic
  match Regex.parse dialect (.ofList (withEscapes letters.length letters)) with
  | .ok regex => return (some (regex.matcher manner), regex.groupCount)
  | .error message => refuse message

/-- Reads the marks after the expression of an address. -/
def addressManner : Nat → Manner → Reader Manner
  | 0, manner => return manner
  | fuel + 1, manner => do
    skipBlanks
    match ← peek? with
    | some 'I' => let _ ← take?; addressManner fuel { manner with ignoresCase := true }
    | some 'M' => let _ ← take?; addressManner fuel { manner with endsAtLines := true }
    | _ => return manner

/-- An address, if there is one at this place. -/
def address? : Reader (Option Limit) := do
  match ← peek? with
  | some '$' => let _ ← take?; return some (.address .last)
  | some '+' => let _ ← take?; skipBlanks; return some (.after (← integer))
  | some '~' => let _ ← take?; skipBlanks; return some (.multiple (← integer))
  | some letter =>
    if letter = '/' || letter = '\\' then
      let _ ← take?
      let delimiter ← if letter = '\\' then take? else pure (some '/')
      match ← untilDelimiter (delimiter.getD '/') true ((← remainingCount) + 1) .outside [] with
      | none => refuse "unterminated address regex"
      | some text =>
        let manner ← addressManner ((← remainingCount) + 1) {}
        return some (.address (.matching (← expression text manner).1))
    else if letter.isDigit then
      let first ← integer
      skipBlanks
      if (← peek?) = some '~' then
        let _ ← take?
        skipBlanks
        let step ← integer
        return some (.address (if 0 < step then .every first step else .line first))
      else return some (.address (.line first))
    else return none
  | none => return none

/-- The addresses of an instruction. -/
def addresses : Reader (Option Address × Option Limit) := do
  match ← address? with
  | none => return (none, none)
  | some (.address first) =>
    skipBlanks
    let limit ← if (← peek?) = some ',' then do
        let _ ← take?
        skipBlanks
        match ← address? with
        | none =>
          let _ ← take?
          refuse "unexpected \x60,'"
        | limit => pure limit
      else pure none
    let isLimitExpression := match limit with
      | some (.address (.matching _)) => true
      | _ => false
    skipBlanks
    if let .line 0 := first then
      unless isLimitExpression do
        let _ ← take?
        refuse "invalid usage of line address 0"
    return (some first, limit)
  | some _ => refuse "invalid usage of +N or ~N as first address"

/-- Reads the end of an instruction. -/
def endOfInstruction : Reader Unit := do
  skipBlanks
  match ← peek? with
  | none | some '#' | some '\x7d' => pure ()
  | some letter =>
    let _ ← take?
    unless letter = '\n' || letter = ';' do refuse "extra characters after command"

/-- The text up to the end of a line. -/
def restOfLine : Reader String := do
  let letters ← takeWhile (· ≠ '\n') ((← remainingCount) + 1)
  let _ ← take?
  return .ofList letters

def path : Reader String := do
  skipBlanks
  let before ← get
  let text ← restOfLine
  if text = "" then
    set before
    refuse "missing filename in r/R/w/W commands"
  return text

/-- A label, which a semicolon ends. -/
def label : Reader String := do
  skipBlanks
  let letters ← takeWhile (fun letter => !isSpace letter && letter ≠ ';' && letter ≠ '\x7d')
    ((← remainingCount) + 1)
  return .ofList letters

/-- The text of an instruction, whose lines but the last one end in a backslash. -/
def textLines : Nat → List Char → Reader (List Char)
  | 0, before => return before.reverse
  | fuel + 1, before => do
    match ← take? with
    | none => return before.reverse
    | some '\n' => return ('\n' :: before).reverse
    | some '\\' =>
      match (← get).letters with
      | [] => return before.reverse
      | next :: _ =>
        match escape? (← get).letters with
        | some (letter, after) =>
          let count := (← get).letters.length - after.length
          let _ ← takeCount count
          textLines fuel (letter :: before)
        | none =>
          let _ ← take?
          textLines fuel ((if next = 'n' then '\n' else next) :: before)
    | some letter => textLines fuel (letter :: before)
where
  takeCount : Nat → Reader Unit
    | 0 => pure ()
    | count + 1 => do
      let _ ← take?
      takeCount count

/-- The text that is added or put in place of others. Blanks in front of it do not count, unless a
backslash comes before them. -/
def text : Reader String := do
  skipBlanks
  match ← peek? with
  | none => refuse "expected \\ after \x60a', \x60c' or \x60i'"
  | some '\\' =>
    let _ ← take?
    let source ← get
    match source.letters.dropWhile isBlank with
    | [] => return ""
    | '\n' :: rest =>
      skipBlanks
      let _ ← take?
      if rest = [] then return "\n"
    | _ => pure ()
  | some _ => pure ()
  let letters ← textLines ((← remainingCount) + 1) []
  if letters = [] then return ""
  return .ofList (if letters.getLast? = some '\n' then letters else letters ++ ['\n'])

/-- What takes the place of a match. -/
def replacement (groups : Nat) : Nat → List Char → Reader (List Piece)
  | 0, _ => return []
  | fuel + 1, letters => do
    let plain := letters.takeWhile fun letter => letter ≠ '\\' && letter ≠ '&'
    if plain ≠ [] then
      return .text plain :: (← replacement groups fuel (letters.drop plain.length))
    match letters with
    | [] => return []
    | '&' :: rest => return .group 0 :: (← replacement groups fuel rest)
    | '\\' :: letter :: rest =>
      let changes := [('L', Letters.allLower), ('U', .allUpper), ('l', .firstLower),
        ('u', .firstUpper), ('E', .asTheyAre)]
      if letter.isDigit then
        let number := letter.toNat - '0'.toNat
        if groups < number then refuse s!"invalid reference \\{number} on \x60s' command's RHS"
        return .group number :: (← replacement groups fuel rest)
      else match changes.lookup letter, escape? (letter :: rest) with
        | some change, _ => return .letters change :: (← replacement groups fuel rest)
        | none, some (letter, after) => return .text [letter] :: (← replacement groups fuel after)
        | none, none =>
          let letter := if letter = 'n' then '\n' else letter
          return .text [letter] :: (← replacement groups fuel rest)
    | letter :: rest => return .text [letter] :: (← replacement groups fuel rest)

/-- Reads the marks after a replacement. -/
def marks (how : Substitution) (manner : Manner) (hasNumber : Bool) :
    Nat → Reader (Substitution × Manner)
  | 0 => return (how, manner)
  | fuel + 1 => do
    match ← peek? with
    | none | some '#' | some '\x7d' => return (how, manner)
    | some letter =>
      if letter.isDigit then
        let which ← integer
        if hasNumber then refuse "multiple number options to \x60s' command"
        if which = 0 then refuse "number option to \x60s' command may not be zero"
        return ← marks { how with which } manner true fuel
      let _ ← take?
      match letter with
      | 'i' | 'I' => marks how { manner with ignoresCase := true } hasNumber fuel
      | 'm' | 'M' => marks how { manner with endsAtLines := true } hasNumber fuel
      | 'e' => marks { how with executes := true } manner hasNumber fuel
      | 'p' =>
        if how.prints ≠ 0 then refuse "multiple \x60p' options to \x60s' command"
        marks { how with prints := if how.executes then 2 else 1 } manner hasNumber fuel
      | 'g' =>
        if how.isGlobal then refuse "multiple \x60g' options to \x60s' command"
        marks { how with isGlobal := true } manner hasNumber fuel
      | 'w' => return ({ how with path := some (← path) }, manner)
      | '\n' | ';' => return (how, manner)
      | letter =>
        if isBlank letter then marks how manner hasNumber fuel
        else refuse "unknown option to \x60s'"

def substitution : Reader Substitution := do
  let fault := "unterminated \x60s' command"
  match ← take? with
  | none => refuse fault
  | some delimiter =>
    let some old ← untilDelimiter delimiter true ((← remainingCount) + 1) .outside []
      | refuse fault
    let some new ← untilDelimiter delimiter false ((← remainingCount) + 1) .outside []
      | refuse fault
    let (how, manner) ← marks { expression := none, replacement := [] } {} false
      ((← remainingCount) + 1)
    let (matcher, groups) ← expression old manner
    return { how with
      expression := matcher, replacement := ← replacement groups (new.length + 1) new }

/-- The letters that are exchanged for others. -/
def exchanged : Nat → List Char → Reader (List Char)
  | 0, _ => return []
  | fuel + 1, letters => do
    match letters with
    | [] => return []
    | '\\' :: rest =>
      match escape? rest, rest with
      | some (letter, after), _ => return letter :: (← exchanged fuel after)
      | none, '\\' :: after => return '\\' :: (← exchanged fuel after)
      | none, 'n' :: after => return '\n' :: (← exchanged fuel after)
      | none, after => return '\\' :: (← exchanged fuel after)
    | letter :: rest => return letter :: (← exchanged fuel rest)

def translation : Reader (List (Char × Char)) := do
  let fault := "unterminated \x60y' command"
  match ← take? with
  | none => refuse fault
  | some delimiter =>
    let some old ← untilDelimiter delimiter false ((← remainingCount) + 1) .outside []
      | refuse fault
    let some new ← untilDelimiter delimiter false ((← remainingCount) + 1) .outside []
      | refuse fault
    let first ← exchanged (old.length + 1) old
    let second ← exchanged (new.length + 1) new
    if first.length ≠ second.length then
      refuse "strings for \x60y' command are different lengths"
    endOfInstruction
    return first.zip second

/-- An edit that is no more than a letter. -/
def plainEdits : List (Char × Edit) :=
  [('=', .showNumber), ('d', .delete), ('D', .deleteFirst), ('F', .showName), ('g', .takeHeld),
    ('G', .addHeld), ('h', .hold), ('H', .addToHeld), ('n', .next), ('N', .addNext), ('p', .print),
    ('P', .printFirst), ('x', .exchange), ('z', .clear)]

/-- Reads the edit that a letter begins. -/
def edit (letter : Char) (limit : Option Limit) : Reader Edit := do
  if let some edit := plainEdits.lookup letter then
    endOfInstruction
    return edit
  match letter with
  | 'a' => return .append (← text)
  | 'i' => return .insert (← text)
  | 'c' => return .change (← text)
  | 'e' =>
    skipBlanks
    return .execute (← restOfLine)
  | 'l' | 'L' =>
    skipBlanks
    let hasWidth := (← peek?).any Char.isDigit
    let width ← integer
    endOfInstruction
    return .spell (if hasWidth then some width else none)
  | 'q' | 'Q' =>
    if limit.isSome then refuse "command only uses one address"
    skipBlanks
    let status ← integer
    endOfInstruction
    return if letter = 'q' then .quit status else .leave status
  | 'r' => return .readFile (← path)
  | 'R' => return .readLineOf (← path)
  | 'w' => return .writeTo (← path)
  | 'W' => return .writeFirstTo (← path)
  | 's' => return .substitute (← substitution)
  | 'y' => return .translate (← translation)
  | 'b' => labelled .jump
  | 't' => labelled .jumpIfChanged
  | 'T' => labelled .jumpUnlessChanged
  | _ => refuse s!"unknown command: \x60{letter}'"
where
  labelled (make : String → Edit) : Reader Edit := do
    let name ← label
    endOfInstruction
    return make name

def addInstruction (instruction : Instruction) : Reader Unit :=
  modify fun source => { source with instructions := source.instructions.push instruction }

/-- Reads one instruction, given its addresses. -/
def instruction (first : Option Address) (limit : Option Limit) (isNegated : Bool) (letter : Char) :
    Reader Unit := do
  match letter with
  | '#' =>
    if first.isSome then refuse "comments don't accept any addresses"
    let _ ← restOfLine
  | ':' =>
    if first.isSome then refuse ": doesn't want any addresses"
    let name ← label
    if name = "" then refuse "\":\" lacks a label"
    modify fun source =>
      { source with labels := source.labels ++ [(name, source.instructions.size)] }
    if (← peek?) = some ';' then
      let _ ← take?
  | '\x7b' =>
    modify fun source => { source with groups := source.instructions.size :: source.groups }
    addInstruction { first, limit, isNegated, edit := .group 0 }
  | '\x7d' =>
    match (← get).groups with
    | [] => refuse "unexpected \x60\x7d'"
    | start :: groups =>
      if first.isSome then refuse "\x60\x7d' doesn't want any addresses"
      endOfInstruction
      modify fun source =>
        { source with
          groups
          instructions := source.instructions.modify start fun instruction =>
            { instruction with edit := .group source.instructions.size } }
  | 'v' =>
    let version ← label
    let digits := version.toList.takeWhile fun letter => letter ≠ '.'
    if 4 < (Arithmetic.inBase? 10 digits).getD 0 then refuse "expected newer version of sed"
    endOfInstruction
  | letter => addInstruction { first, limit, isNegated, edit := ← edit letter limit }

/-- Reads all instructions. -/
def instructions : Nat → Reader Unit
  | 0 => pure ()
  | fuel + 1 => do
    skip (fun letter => letter = ';' || isSpace letter) ((← remainingCount) + 1)
    if (← peek?).isNone then
      unless (← get).groups.isEmpty do refuseAt 0 "unmatched \x60\x7b'"
      return
    let (first, limit) ← addresses
    skipBlanks
    let isNegated := (← peek?) = some '!'
    if isNegated then
      let _ ← take?
      skipBlanks
      if (← peek?) = some '!' then
        let _ ← take?
        refuse "multiple \x60!'s"
    match ← take? with
    | none => refuse "missing command"
    | some letter =>
      instruction first limit isNegated letter
      instructions fuel

/-- Reads a script that has been given in parts. Labels that it jumps to have to be there. -/
def scriptOf (isExtended : Bool) (file : Option String) (parts : List String) :
    Except String Script := do
  let text := ("\n".intercalate parts).toList
  let ends := (List.range parts.length).map fun count =>
    (("\n".intercalate (parts.drop (count + 1))).length)
  let isQuiet := match text with
    | '#' :: 'n' :: rest => rest.head?.all (· = '\n')
    | _ => false
  let source : Source := { letters := text, isExtended, file, ends }
  let (_, source) ← (instructions (text.length + 2)).run source
  return { instructions := source.instructions, labels := source.labels, isQuiet }

/-- The first label that a script jumps to and that is not there. -/
def Script.missingLabel? (script : Script) : Option String :=
  script.instructions.toList.findSome? fun instruction =>
    match instruction.edit with
    | .jump name | .jumpIfChanged name | .jumpUnlessChanged name =>
      if name = "" || (script.labels.lookup name).isSome then none else some name
    | _ => none

end CompositeKeys.Shell.Editing
