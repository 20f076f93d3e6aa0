import CompositeKeys.Shell.Formatting
import CompositeKeys.Shell.Utility.Arguments

/-! The utility that writes its arguments as a format lays them out. It takes more escapes than a
shell does and refuses what has no use in a directive. -/

namespace CompositeKeys.Shell.Utility
open Formatting Procedure

namespace Composing

/-- The value of hexadecimal digits at the front of letters, up to so many, and how many there are. -/
def hexadecimal (limit : Nat) (letters : List Char) : Nat × Nat :=
  let isDigit := fun letter => ((Arithmetic.digitValue? letter).filter (· < 16)).isSome
  let digits := (letters.take limit).takeWhile isDigit
  ((Arithmetic.inBase? 16 digits).getD 0, digits.length)

/-- A value in hexadecimal digits, with zeros in front. -/
def hexadecimalText (isUpper : Bool) (size value : Nat) : String :=
  let digits := Nat.toDigits 16 value
  let digits := if isUpper then digits.map Char.toUpper else digits
  String.ofList (List.replicate (size - digits.length) '0' ++ digits)

/-- Writes the character of a number. The alphabet has no letters beyond seven bits, so those are
spelled as escapes. -/
def character (mark : Char) (value : Nat) : Printing Unit :=
  let size := if mark = 'u' then 4 else 8
  let isKept := value = 0x24 || value = 0x40 || value = 0x60
  if isKept then Formatting.emit [Char.ofNat value]
  else if value ≤ 0x9f || (0xd800 ≤ value && value ≤ 0xdfff) then
    let spelled := hexadecimalText false size value
    refuse (.stated ("invalid universal character name \\" ++ mark.toString ++ spelled))
  else
    let spelled := if value < 0x10000 then "\\u" ++ hexadecimalText true 4 value
      else "\\U" ++ hexadecimalText true 8 value
    Formatting.emit spelled.toList

/-- Writes what letters after a backslash stand for and gives those behind it. In an argument a zero
may stand in front of octal digits. The end of all output leaves no fault. -/
def escape (isArgument : Bool) (letters : List Char) : Printing (List Char) := do
  let noDigits := FormatFault.stated "missing hexadecimal number in escape"
  match letters with
  | [] => Formatting.emit ['\\']; return []
  | letter :: rest =>
    if letter = 'x' then
      let (value, count) := hexadecimal 2 rest
      if count = 0 then refuse noDigits else Formatting.emit [Char.ofNat value]
      return rest.drop count
    else if isOctal letter then
      let digits := if isArgument && letter = '0' then rest else letters
      let (value, count) := octal digits
      Formatting.emit [value]
      return digits.drop count
    else if letter = 'c' then modify ({ · with isCut := true }); return []
    else if letter = 'u' || letter = 'U' then
      let size := if letter = 'u' then 4 else 8
      let (value, count) := hexadecimal size rest
      if count < size then refuse noDigits else character letter value
      return rest.drop count
    else
      let named := ('"', '"') :: escapes
      Formatting.emit (((named.lookup letter).map ([·])).getD ['\\', letter])
      return rest

/-- Writes an argument with its escapes replaced. -/
def unescaped : Nat → List Char → Printing Unit
  | 0, _ | _, [] => pure ()
  | fuel + 1, letter :: rest => do
    let mut rest := rest
    if letter = '\\' then rest ← escape true rest else Formatting.emit [letter]
    unless (← get).isCut do unescaped fuel rest

/-- Tells whether a directive may have some flags and a precision. -/
def permits (flags : List Char) (hasPrecision : Bool) (letter : Char) : Bool :=
  let isGrouped := flags.contains '\'' || flags.contains 'I'
  "aAcdeEfFgGiosuxX".contains letter
    && !(isGrouped && "aAceEosxX".contains letter)
    && !(flags.contains '#' && "cdisu".contains letter)
    && !(flags.contains '0' && "cs".contains letter)
    && !(hasPrecision && letter = 'c')

/-- A width or a precision, which may be taken from the arguments. -/
def count (title : String) (letters : List Char) : Printing (Option Int × List Char) := do
  match letters with
  | '*' :: rest =>
    let shown := ((← get).arguments.head?).getD ""
    let value ← nextInteger .program true
    let isNarrow := title = "field width" && value < -2147483648
    if isNarrow || 2147483647 < value then
      refuse (.stated s!"invalid {title}: {quotedWord shown}")
    return (some value, rest)
  | _ =>
    let digits := letters.takeWhile Char.isDigit
    return ((Arithmetic.inBase? 10 digits).map Int.ofNat, letters.drop digits.length)

/-- Reads a layout and the letter of a directive, which stand after a percent sign, and writes the
next argument. What stands behind is given back. -/
def laidOut (letters : List Char) : Printing (List Char) := do
  let flags := letters.takeWhile ['-', '+', ' ', '#', '0', '\'', 'I'].contains
  let (width, rest) ← count "field width" (letters.drop flags.length)
  if (← get).isCut then return []
  let (precision, rest) ← match rest with
    | '.' :: rest =>
      let (precision, rest) ← count "precision" rest
      pure (some (precision.getD 0), rest)
    | _ => pure (none, rest)
  if (← get).isCut then return []
  match rest.dropWhile ['l', 'L', 'h', 'j', 't', 'z'].contains with
  | letter :: after =>
    let spelled := String.ofList ('%' :: letters.take (letters.length - after.length))
    if permits flags precision.isSome letter then
      let layout := Layout.of flags (width.getD 0) precision
      let isWritten ← directive .program layout letter
      unless isWritten do refuse (.directive spelled)
    else refuse (.directive spelled)
    return after
  | [] => refuse (.directive ("%" ++ .ofList letters)); return []

/-- Writes the next argument, if there is one, by a function of it. -/
def whole (written : String → Printing Unit) : Printing Unit := do
  if let some argument ← next? then written argument

/-- Writes a format once. -/
def format : Nat → List Char → Printing Unit
  | 0, _ | _, [] => pure ()
  | fuel + 1, letter :: rest => do
    let after ← match letter, rest with
      | '\\', _ => escape false rest
      | '%', '%' :: rest => Formatting.emit ['%']; pure rest
      | '%', 'b' :: rest => whole (fun text => unescaped text.length text.toList); pure rest
      | '%', 'q' :: rest => whole (fun text => Formatting.emit (quotedIfNeeded text).toList); pure rest
      | '%', _ => laidOut rest
      | _, _ => Formatting.emit [letter]; pure rest
    unless (← get).isCut do format fuel after

/-- What the program says of a fault. -/
def message : FormatFault → String
  | .noNumber argument => s!"{quotedWord argument}: expected a numeric value"
  | .notWhole argument => s!"{quotedWord argument}: value not completely converted"
  | .outOfRange argument => s!"{quotedWord argument}: Numerical result out of range"
  | .directive spelled => s!"{spelled}: invalid conversion specification"
  | .unfinished => "%: invalid conversion specification"
  | .stated message | .warning message => message

end Composing

/-- Writes words as a format lays them out. Words that the format has no use for are told of. -/
def printFormatted (name : String) (words : List String) : Procedure Unit := do
  match if words.head? = some "--" then words.drop 1 else words with
  | [] => missingOperand name
  | format :: arguments =>
    let once := Composing.format format.length format.toList
    let (_, state) := (repeated once (arguments.length + 1)).run { arguments }
    for fault in state.faults ++ state.fatal.toList do complain name (Composing.message fault)
    emit (.ofList state.written)
    let isEnded := state.isCut && state.fatal.isNone
    if !state.isCut then
      if let some first := state.arguments.head? then
        complain name s!"warning: ignoring excess arguments, starting with {quotedWord first}"
    let isWrong := fun fault => !(fault matches FormatFault.warning _)
    let hasFaults := state.faults.any isWrong || state.fatal.isSome
    setStatus (if hasFaults && !isEnded then 1 else 0)

end CompositeKeys.Shell.Utility
