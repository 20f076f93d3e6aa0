import CompositeKeys.Shell.Floating

/-! Texts made from formats and from escapes. -/

namespace CompositeKeys.Shell.Formatting

/-- The letters that single letters after a backslash stand for. -/
def escapes : List (Char × Char) :=
  [('\\', '\\'), ('a', '\x07'), ('b', '\x08'), ('f', '\x0c'), ('n', '\n'), ('r', '\r'),
    ('t', '\t'), ('v', '\x0b'), ('e', '\x1b')]

def isOctal (letter : Char) : Bool := '0' ≤ letter && letter ≤ '7'

/-- The letter for up to three octal digits, and how many there are. -/
def octal (letters : List Char) : Char × Nat :=
  let digits := (letters.take 3).takeWhile isOctal
  (Char.ofNat (((Arithmetic.inBase? 8 digits).getD 0) % 256), digits.length)

/-- What stands after a backslash: the letters for it, and how many letters it takes. -/
def escape (letters : List Char) : List Char × Nat :=
  match letters with
  | [] => (['\\'], 0)
  | letter :: _ =>
    match escapes.lookup letter with
    | some value => ([value], 1)
    | none =>
      if isOctal letter then
        let (value, count) := octal letters
        ([value], count)
      else (['\\'], 0)

/-- A text with its escapes replaced. Octal digits may have a zero in front of them. What comes
after a `\c` is left out, and the second part tells so. -/
def unescaped : Nat → List Char → List Char × Bool
  | 0, _ | _, [] => ([], false)
  | fuel + 1, letter :: rest =>
    let more := fun (text : List Char) rest =>
      let (after, isCut) := unescaped fuel rest
      (text ++ after, isCut)
    if letter ≠ '\\' then more [letter] rest
    else match rest with
      | 'c' :: _ => ([], true)
      | '0' :: digits =>
        let (value, count) := octal digits
        more [value] (digits.drop count)
      | _ =>
        let (value, count) := escape rest
        more value (rest.drop count)

def unescape (text : String) : List Char × Bool := unescaped text.length text.toList

/-- The line of some words, which ends after a `\c` in them. -/
def line (ending : List Char) : List String → List Char
  | [] => ending
  | word :: rest =>
    let (text, isCut) := unescape word
    if isCut then text
    else text ++ (if rest.isEmpty then ending else ' ' :: line ending rest)

/-- What is written for the words of an `echo`. -/
def echo : List String → String
  | "-n" :: words => .ofList (line [] words)
  | words => .ofList (line ['\n'] words)

/-- How a value is laid out. -/
structure Layout where
  flags : List Char := []
  width : Nat := 0
  precision : Option Nat := none

def Layout.pad (layout : Layout) (text : List Char) : List Char :=
  let blanks := List.replicate (layout.width - text.length) ' '
  if layout.flags.contains '-' then text ++ blanks else blanks ++ text

/-- A number laid out by its sign and its digits. -/
def Layout.number (layout : Layout) (sign digits : List Char) : List Char :=
  let digits := List.replicate (layout.precision.getD 1 - digits.length) '0' ++ digits
  let size := sign.length + digits.length
  if layout.flags.contains '0' && !layout.flags.contains '-' && layout.precision.isNone then
    sign ++ List.replicate (layout.width - size) '0' ++ digits
  else layout.pad (sign ++ digits)

def Layout.signed (layout : Layout) (value : Int) : List Char :=
  let sign := if value < 0 then ['-'] else if layout.flags.contains '+' then ['+']
    else if layout.flags.contains ' ' then [' '] else []
  layout.number sign (if value = 0 ∧ layout.precision = some 0 then []
    else Nat.toDigits 10 value.natAbs)

/-- A number without a sign, in a base. -/
def Layout.unsigned (layout : Layout) (base : Nat) (isUpper : Bool) (value : Int) : List Char :=
  let bits := (value % 18446744073709551616).toNat
  let digits := if bits = 0 ∧ layout.precision = some 0 then [] else Nat.toDigits base bits
  let digits := if isUpper then digits.map Char.toUpper else digits
  let isMarked := layout.flags.contains '#'
  let mark := if isMarked && base = 16 && bits ≠ 0 then ['0', if isUpper then 'X' else 'x'] else []
  let needsZero := isMarked && base = 8 && digits.head? ≠ some '0'
  layout.number mark (if needsZero then '0' :: digits else digits)

/-- A number with a fraction, written as a letter asks for. -/
def Layout.floating (kept : Precision) (layout : Layout) (letter : Char) (value : Floating) :
    List Char :=
  let sign := if value.isNegative then ['-'] else if layout.flags.contains '+' then ['+']
    else if layout.flags.contains ' ' then [' '] else []
  let precision := layout.precision.getD 6
  let isMarked := layout.flags.contains '#'
  let body := match letter.toLower with
    | 'f' => value.text .fixed precision isMarked
    | 'e' => value.text .exponential precision isMarked
    | 'g' => value.text .general precision isMarked
    | _ => value.hexadecimalText kept layout.precision isMarked
  let body := if letter.isUpper then body.map Char.toUpper else body
  let isFinite := value matches .finite ..
  if layout.flags.contains '0' && !layout.flags.contains '-' && isFinite then
    let (sign, body) := if letter.toLower = 'a' then (sign ++ body.take 2, body.drop 2)
      else (sign, body)
    sign ++ List.replicate (layout.width - sign.length - body.length) '0' ++ body
  else layout.pad (sign ++ body)

/-- What is wrong with a format or with one of its arguments. Everyone who formats has words of
their own for most of it. -/
inductive FormatFault where
  | noNumber (argument : String)
  | notWhole (argument : String)
  | outOfRange (argument : String)
  | directive (spelled : String)
  | unfinished
  | stated (message : String)
  | warning (message : String)
  deriving DecidableEq, Repr

/-- What a shell says of a fault. -/
def FormatFault.message : FormatFault → String
  | .noNumber argument => s!"{argument}: expected numeric value"
  | .notWhole argument => s!"{argument}: not completely converted"
  | .outOfRange argument => s!"{argument}: Numerical result out of range"
  | .directive spelled => s!"{spelled}: invalid directive"
  | .unfinished => "missing format character"
  | .stated message | .warning message => message

/-- What has been written, the arguments that are left, and what is wrong with those taken. -/
structure State where
  written : List Char := []
  arguments : List String
  faults : List FormatFault := []
  fatal : Option FormatFault := none
  isCut : Bool := false

abbrev Printing := StateM State

def emit (text : List Char) : Printing Unit :=
  modify fun state => { state with written := state.written ++ text }

def next? : Printing (Option String) := do
  match (← get).arguments with
  | [] => return none
  | first :: rest => modify ({ · with arguments := rest }); return some first

def fault (value : FormatFault) : Printing Unit :=
  modify fun state => { state with faults := state.faults ++ [value] }

/-- Ends the text for what is wrong with the format. -/
def refuse (value : FormatFault) : Printing Unit :=
  modify ({ · with fatal := some value, isCut := true })

/-- The greatest piece at the front of letters that is an integer, with what is left. -/
def integerAtFront (letters : List Char) : Option (Int × List Char) :=
  let letters := letters.dropWhile Char.isWhitespace
  let (isNegative, rest) := match letters with
    | '-' :: rest => (true, rest)
    | '+' :: rest => (false, rest)
    | _ => (false, letters)
  let isDigit := fun base letter =>
    ((Arithmetic.digitValue? letter).filter fun value => value < base).isSome
  let (base, digits) := match rest with
    | '0' :: mark :: digits =>
      let isFollowed := fun base => (digits.head?.map (isDigit base)).getD false
      if (mark = 'x' || mark = 'X') && isFollowed 16 then (16, digits)
      else if (mark = 'b' || mark = 'B') && isFollowed 2 then (2, digits)
      else (8, rest)
    | '0' :: _ => (8, rest)
    | _ => (10, rest)
  let text := digits.takeWhile (isDigit base)
  (Arithmetic.inBase? base text).map fun value =>
    (if isNegative then -(value : Int) else value, digits.drop text.length)

/-- The nearest integer that there is room for. -/
def clamped (isSigned : Bool) (value : Int) : Int :=
  if isSigned then max (-9223372036854775808) (min 9223372036854775807 value)
  else if value.natAbs < 18446744073709551616 then value
  else 18446744073709551615

/-- Who formats: a shell, or a program that looks more closely. -/
inductive Dialect where
  | shell
  | program
  deriving DecidableEq, Repr

def Dialect.precision : Dialect → Precision
  | .shell => .double
  | .program => .extended

/-- The value of the letter that an argument names after a quote. -/
def named? (dialect : Dialect) (letters : List Char) : Printing (Option Nat) := do
  match letters with
  | quote :: letter :: rest =>
    if quote ≠ '\'' ∧ quote ≠ '"' then return none
    if dialect = .program ∧ rest ≠ [] then
      let rest := String.ofList rest
      fault (.warning s!"warning: {rest}: character(s) following character constant have been ignored")
    return some letter.toNat
  | [quote] =>
    return if dialect = .shell ∧ (quote = '\'' ∨ quote = '"') then some 0 else none
  | [] => return some 0

/-- The next argument as an integer. -/
def nextInteger (dialect : Dialect) (isSigned : Bool) : Printing Int := do
  let text := (← next?).getD ""
  if let some value ← named? dialect text.toList then return value
  match integerAtFront text.toList with
  | none => fault (.noNumber text); return 0
  | some (value, rest) =>
    if clamped isSigned value ≠ value ∧ (dialect = .program ∨ rest.isEmpty) then
      fault (.outOfRange text)
    else if !rest.isEmpty then fault (.notWhole text)
    return clamped isSigned value

/-- The next argument as a number with a fraction. -/
def nextFloating (dialect : Dialect) : Printing Floating := do
  let text := (← next?).getD ""
  if let some value ← named? dialect text.toList then return .finite false value 0
  match Floating.atFront? dialect.precision text.toList with
  | none => fault (.noNumber text); return .finite false 0 0
  | some (value, rest) =>
    let read := text.toList.take (text.length - rest.length)
    let digits := read.takeWhile fun letter => !(['e', 'p'].contains letter.toLower)
    let isTooGreat := value matches .infinite _ && !read.any (·.toLower = 'n')
    let isTooSmall := value matches .finite _ 0 _ &&
      digits.any fun letter => '1' ≤ letter && letter ≤ '9'
    if (isTooGreat || isTooSmall) && (dialect = .program || rest.isEmpty) then
      fault (.outOfRange text)
    else unless rest.isEmpty do fault (.notWhole text)
    return value

/-- The integer of thirty-two bits that agrees with another in these. -/
def narrowed (value : Int) : Int := (value + 2147483648) % 4294967296 - 2147483648

/-- A count in a layout, which may be taken from the arguments. -/
def count (letters : List Char) : Printing (Option Int × List Char) := do
  match letters with
  | '*' :: rest => return (some (narrowed (← nextInteger .shell true)), rest)
  | _ =>
    let digits := letters.takeWhile Char.isDigit
    let after := letters.dropWhile fun letter => letter.isDigit || letter = '*'
    return ((Arithmetic.inBase? 10 digits).map Int.ofNat, after)

/-- A layout of some flags, a width and a precision. Those below zero turn the text to the left and
leave the precision open. -/
def Layout.of (flags : List Char) (width : Int) (precision : Option Int) : Layout :=
  { flags := if width < 0 then '-' :: flags else flags
    width := width.natAbs
    precision := (precision.filter fun precision => 0 ≤ precision).map Int.toNat }

/-- Reads a layout, which stands after a percent sign. -/
def layout (letters : List Char) : Printing (Layout × List Char) := do
  let flags := letters.takeWhile ['-', '+', ' ', '#', '0'].contains
  let (width, rest) ← count (letters.drop flags.length)
  match rest with
  | '.' :: rest =>
    let (precision, rest) ← count rest
    return (.of flags (width.getD 0) (some (precision.getD 0)), rest)
  | _ => return (.of flags (width.getD 0) none, rest)

/-- Writes the next argument as a directive asks for. It is false if there is no such directive. -/
def directive (dialect : Dialect) (layout : Layout) (letter : Char) : Printing Bool := do
  let cut := fun text : List Char => (layout.precision.map text.take).getD text
  match letter with
  | 'd' | 'i' => emit (layout.signed (← nextInteger dialect true))
  | 'u' => emit (layout.unsigned 10 false (← nextInteger dialect false))
  | 'o' => emit (layout.unsigned 8 false (← nextInteger dialect false))
  | 'x' => emit (layout.unsigned 16 false (← nextInteger dialect false))
  | 'X' => emit (layout.unsigned 16 true (← nextInteger dialect false))
  | 's' => emit (layout.pad (cut ((← next?).getD "").toList))
  | 'c' => emit (layout.pad [((← next?).getD "").toList.headD '\x00'])
  | 'b' =>
    let (text, isCut) := unescape ((← next?).getD "")
    emit (layout.pad (cut text))
    modify ({ · with isCut })
  | _ =>
    if !(['f', 'e', 'g', 'a'].contains letter.toLower) then return false
    emit (layout.floating dialect.precision letter (← nextFloating dialect))
  return true

/-- Writes a format once. -/
def format : Nat → List Char → Printing Unit
  | 0, _ | _, [] => pure ()
  | fuel + 1, letter :: rest => do
    match letter, rest with
    | '\\', _ =>
      let (value, taken) := escape rest
      emit value
      format fuel (rest.drop taken)
    | '%', '%' :: rest => emit ['%']; format fuel rest
    | '%', _ =>
      let (layout, after) ← layout rest
      match after with
      | kind :: after =>
        if ← directive .shell layout kind then
          unless (← get).isCut do format fuel after
        else
          let spelled := String.ofList (rest.take (rest.length - after.length))
          refuse (.directive ("%" ++ spelled))
      | [] => refuse .unfinished
    | _, _ => emit [letter]; format fuel rest

/-- Writes a format as often as it takes to use up the arguments. -/
def repeated (once : Printing Unit) : Nat → Printing Unit
  | 0 => pure ()
  | fuel + 1 => do
    let before := (← get).arguments.length
    once
    let after ← get
    if after.arguments.length < before ∧ after.arguments ≠ [] ∧ !after.isCut then
      repeated once fuel

/-- What is written for a format and its arguments, and what is wrong with these and with the
format. -/
def printed (text : String) (arguments : List String) :
    String × List FormatFault × Option FormatFault :=
  let once := format text.length text.toList
  let (_, state) := (repeated once (arguments.length + 1)).run { arguments }
  (.ofList state.written, state.faults, state.fatal)

end CompositeKeys.Shell.Formatting
