import CompositeKeys.Shell.Condition
import CompositeKeys.Shell.Session

/-! How the words that a utility is given are read: options, wherever they stand among the others,
and operands. -/

namespace CompositeKeys.Shell.Utility
open Files Procedure

/-- The options that a utility knows: letters alone, letters with a value, letters with a value that
may be missing, and longer names. A utility that launches others has no options after the first
operand. -/
structure Options where
  plain : String := ""
  valued : String := ""
  optional : String := ""
  long : List (String × Char) := []
  stopsAtOperand : Bool := false

/-- What a utility has been given. -/
structure Given where
  options : List (Char × String) := []
  operands : List String := []

namespace Given

def has (given : Given) (letter : Char) : Bool := given.options.any (·.1 = letter)

def hasAny (given : Given) (letters : String) : Bool := letters.toList.any given.has

/-- The last value that an option has been given. -/
def value? (given : Given) (letter : Char) : Option String :=
  (given.options.filter (·.1 = letter)).getLast?.map Prod.snd

/-- All values that an option has been given. -/
def values (given : Given) (letter : Char) : List String :=
  (given.options.filter (·.1 = letter)).map Prod.snd

/-- The last one of some options that has been given. -/
def last? (given : Given) (letters : String) : Option Char :=
  ((given.options.map Prod.fst).filter (letters.contains ·)).getLast?

end Given

def withOption (letter : Char) (value : String) (rest : Except String Given) :
    Except String Given :=
  rest.map fun given => { given with options := (letter, value) :: given.options }

def withOperands (operands : List String) (rest : Except String Given) : Except String Given :=
  rest.map fun given => { given with operands := operands ++ given.operands }

/-- The longer name that a word begins. All that it can begin have to mean the same. -/
def Options.long? (known : Options) (name : String) : Except String (String × Char) :=
  let alike := known.long.filter (·.1.startsWith name)
  match (known.long.find? (·.1 = name)).or alike.head? with
  | none => .error s!"unrecognized option '--{name}'"
  | some (whole, letter) =>
    if whole = name || alike.all (·.2 = letter) then .ok (whole, letter)
    else
      let all := " ".intercalate (alike.map fun entry => s!"'--{entry.1}'")
      .error s!"option '--{name}' is ambiguous; possibilities: {all}"

/-- Reads the words of a utility. -/
def Options.readFrom (known : Options) : Nat → List String → Except String Given
  | 0, words => .ok { operands := words }
  | _, [] => .ok {}
  | fuel + 1, word :: rest =>
    match word.toList with
    | ['-', '-'] => .ok { operands := rest }
    | '-' :: '-' :: letters =>
      let name := String.ofList (letters.takeWhile (· ≠ '='))
      let value : Option String := if letters.contains '=' then
        some (.ofList ((letters.dropWhile (· ≠ '=')).drop 1)) else none
      match known.long? name with
      | .error message => .error message
      | .ok (whole, letter) =>
        if known.valued.contains letter then
          match value, rest with
          | some value, _ => withOption letter value (known.readFrom fuel rest)
          | none, value :: rest => withOption letter value (known.readFrom fuel rest)
          | none, [] => .error s!"option '--{whole}' requires an argument"
        else if value.isSome && !known.optional.contains letter then
          .error s!"option '--{whole}' doesn't allow an argument"
        else withOption letter (value.getD "") (known.readFrom fuel rest)
    | '-' :: letter :: letters =>
      if known.plain.contains letter then
        let rest := if letters = [] then rest else .ofList ('-' :: letters) :: rest
        withOption letter "" (known.readFrom fuel rest)
      else if known.optional.contains letter then
        withOption letter (.ofList letters) (known.readFrom fuel rest)
      else if known.valued.contains letter then
        match letters, rest with
        | _ :: _, _ => withOption letter (.ofList letters) (known.readFrom fuel rest)
        | [], value :: rest => withOption letter value (known.readFrom fuel rest)
        | [], [] => .error s!"option requires an argument -- '{letter}'"
      else .error s!"invalid option -- '{letter}'"
    | _ =>
      if known.stopsAtOperand then .ok { operands := word :: rest }
      else withOperands [word] (known.readFrom fuel rest)

def Options.parse (known : Options) (words : List String) : Except String Given :=
  known.readFrom ((words.map fun word => word.length + 1).foldl (· + ·) 1) words

/-- Whether a letter is written with an escape in messages. -/
def needsEscape (letter : Char) : Bool := letter.toNat < 32 || 126 < letter.toNat

/-- The escape for a letter. -/
def escapeOf (letter : Char) : String :=
  let names := [('\x07', "\\a"), ('\x08', "\\b"), ('\t', "\\t"), ('\n', "\\n"), ('\x0b', "\\v"),
    ('\x0c', "\\f"), ('\r', "\\r")]
  let octal := Nat.toDigits 8 letter.toNat
  (names.lookup letter).getD
    ("\\" ++ String.ofList (List.replicate (3 - octal.length) '0' ++ octal))

/-- Letters in quotes. Those that need an escape stand in quotes of another kind. -/
def quotedLetters (isEscaped : Bool) : List Char → String
  | [] => "'"
  | letter :: rest =>
    if needsEscape letter then
      (if isEscaped then "" else "'$'") ++ escapeOf letter ++ quotedLetters true rest
    else
      let start := if isEscaped then "''" else ""
      let shown := if letter = '\'' then "'\\''" else .singleton letter
      start ++ shown ++ quotedLetters false rest

/-- A text in quotes, as a shell would read it. -/
def quoted (text : String) : String :=
  let letters := text.toList
  if letters.contains '\'' && !letters.any (fun letter => "\"$\x60\\!".contains letter)
      && !letters.any needsEscape then
    "\"" ++ text ++ "\""
  else "'" ++ quotedLetters false letters

/-- A word in quotes, with escapes in it as they are in programs. -/
def quotedWord (text : String) : String :=
  let shown := fun letter : Char =>
    if letter = '\'' || letter = '\\' then "\\" ++ String.singleton letter
    else if needsEscape letter then escapeOf letter
    else .singleton letter
  "'" ++ "".intercalate (text.toList.map shown) ++ "'"

/-- A text, in quotes if a shell would not read it as it is. -/
def quotedIfNeeded (text : String) : String :=
  let isSpecial := fun letter : Char =>
    needsEscape letter || " !\"$&'()*;<=>?[\\^\x60|".contains letter
  let isSpecialFirst := text.startsWith "#" || text.startsWith "~" || text = "\x7b" ||
    text = "\x7d"
  if text = "" || isSpecialFirst || text.toList.any isSpecial then quoted text else text

/-- The choice that the value of an option begins. The first one stands for no value. -/
def choiceOf (option : String) (choices : List String) (text : String) : Except String String :=
  let alike := choices.filter (·.startsWith text)
  let refuse := fun kind : String => .error <| s!"{kind} argument {quotedWord text} for '{option}'\n" ++
    "\n".intercalate ("Valid arguments are:" :: choices.map fun choice => s!"  - '{choice}'")
  if choices.contains text then .ok text
  else match alike with
    | [only] => .ok only
    | [] => refuse "invalid"
    | _ => refuse "ambiguous"

/-- A message of a utility, after all that it has written before. -/
def complain (name message : String) : Procedure Unit := do
  let _ ← release
  let _ ← write 2 s!"{name}: {message}\n"

/-- Points to where help can be found, after a message, and fails. -/
def suggestHelp (name message : String) (status : Nat := 1) : Procedure Unit := do
  complain name s!"{message}\nTry '{name} --help' for more information."
  setStatus status

/-- Does what a utility does with what it has been given, unless this cannot be read. -/
def withGiven (name : String) (faultStatus : Nat) (known : Options) (words : List String)
    (action : Given → Procedure Unit) : Procedure Unit := do
  setStatus 0
  match known.parse words with
  | .ok given => action given
  | .error message => suggestHelp name message faultStatus

/-- Fails for want of an operand. -/
def missingOperand (name : String) : Procedure Unit := suggestHelp name "missing operand"

/-- Fails for an operand that there is no use for. -/
def extraOperand (name operand : String) : Procedure Unit :=
  suggestHelp name s!"extra operand {quotedWord operand}"

/-- What a device that never ends gives. -/
def zeros : String := .ofList (List.replicate 70000 '\x00')

/-- What can be read of an operand, and whether it goes on after that without an end. A hyphen is
the input. -/
def available (operand : String) : Procedure (Except FileError (String × Bool)) := do
  let ofDescriptor := fun descriptor : Nat => do
    match ← remaining descriptor with
    | none => return .ok ("", false)
    | some (letters, goesOn) =>
      consume descriptor letters.length
      return .ok (.ofList letters, goesOn)
  if operand = "-" || operand = "/dev/stdin" || operand = "/dev/fd/0" then ofDescriptor 0
  else if operand = Condition.sink then return .ok ("", false)
  else if operand = "/dev/zero" then return .ok (zeros, true)
  else return ((← get).files.read (pathOf operand)).map fun text => (Text.bytesOf text, false)

/-- What can be read of an operand, up to its end. -/
def contents (operand : String) : Procedure (Except FileError String) := do
  match ← available operand with
  | .ok (_, true) => throw .timeUp
  | .ok (text, false) => return .ok text
  | .error error => return .error error

/-- What can be read of an operand so far, for a filter that writes while it still reads. If there is
no end to it, the filter does not end either. -/
def contentsSoFar (operand : String) : Procedure (Except FileError String) := do
  match ← available operand with
  | .ok (text, goesOn) =>
    if goesOn then modify ({ · with hasEndlessInput := true })
    return .ok text
  | .error error => return .error error

/-- What can be read of an operand, or so far for a filter. If it cannot, a message tells why. -/
def read? (name : String) (faultStatus : Nat) (operand : String) (isFilter : Bool := false) :
    Procedure (Option String) := do
  match ← if isFilter then contentsSoFar operand else contents operand with
  | .ok text => return some text
  | .error error =>
    complain name s!"{quotedIfNeeded operand}: {error.reason}"
    setStatus faultStatus
    return none

/-- The operands of a filter, which is the input if there are none. -/
def Given.sources (given : Given) : List String :=
  if given.operands = [] then ["-"] else given.operands

/-- The lines of a text, without the letters that end them. -/
def linesIn (text : String) : List String :=
  let lines := text.splitOn "\n"
  if lines.getLast? = some "" then lines.dropLast else lines

/-- The records of a text that a letter ends. -/
def recordsIn (ending : Char) (text : String) : List String :=
  let records := text.splitOn (.singleton ending)
  if records.getLast? = some "" then records.dropLast else records

/-- The text of lines, each of which is ended. -/
def ofLines (lines : List String) : String := "".intercalate (lines.map (· ++ "\n"))

/-- Writes to the output what is kept back until the utility ends. -/
def emit (text : String) : Procedure Unit := hold text

/-- Writes to the output at once. -/
def emitNow (text : String) : Procedure Unit := do
  let _ ← write 1 text

/-- The lines of all that can be read of operands. -/
def linesOfAll (name : String) (faultStatus : Nat) (operands : List String) :
    Procedure (List String) := do
  let mut lines := []
  for operand in operands do
    if let some text ← read? name faultStatus operand true then
      lines := lines ++ linesIn text
  return lines

/-- The number that digits spell, with the unit after them. -/
def sized? (text : String) : Option Nat :=
  let letters := text.toList
  let digits := letters.takeWhile Char.isDigit
  let units := [("", 1), ("b", 512), ("K", 1024), ("k", 1024), ("KiB", 1024), ("kB", 1000),
    ("KB", 1000), ("M", 1048576), ("MiB", 1048576), ("MB", 1000000), ("G", 1073741824),
    ("GiB", 1073741824), ("GB", 1000000000)]
  if digits = [] then none
  else (Arithmetic.inBase? 10 digits).bind fun value =>
    (units.lookup (.ofList (letters.drop digits.length))).map (value * ·)

/-- A number that is all digits. -/
def number? (text : String) : Option Nat :=
  if text ≠ "" && text.toList.all Char.isDigit then Arithmetic.inBase? 10 text.toList else none

end CompositeKeys.Shell.Utility
