import CompositeKeys.Shell.Builtin
import CompositeKeys.Shell.Process

/-! What words take from a shell: values of parameters, output of commands, numbers, and paths. -/

namespace CompositeKeys.Shell
open Files Procedure

/-- The value of a parameter, if it has one. -/
def parameter? (name : String) : Procedure (Option String) := do
  let session ← get
  match name with
  | "?" => return some (toString session.status)
  | "#" => return some (toString session.arguments.length)
  | "$" => return some (toString session.process)
  | "!" => return session.jobs.head?.map fun job => toString job.process
  | "-" =>
    let letters := (Builtin.optionNames.map Prod.fst).reverse
    return some (.ofList (letters.filter fun letter =>
      letter.isAlpha && session.options.contains letter))
  | "0" => return some session.name
  | "@" => return if session.arguments = [] then none else some (" ".intercalate session.arguments)
  | "*" =>
    let separator := match ← value? "IFS" with
      | none => " "
      | some separators => .ofList (separators.toList.take 1)
    return if session.arguments = [] then none else some (separator.intercalate session.arguments)
  | _ =>
    match Builtin.natural? name with
    | some number => return session.arguments[number - 1]?
    | none => return session.bindings.lookup name

/-- The home directory that a tilde with a name after it stands for. -/
def home? (name : String) : Procedure (Option String) := do
  if name = "" then value? "HOME"
  else return [("root", "/root"), ("daemon", "/usr/sbin"), ("bin", "/bin"), ("sys", "/dev"),
    ("sync", "/bin"), ("nobody", "/nonexistent")].lookup name

/-- Letters with the directory of a tilde in front of them. The name after the tilde has to be ended
by a letter if more than these letters follow it. -/
def tildeParts (isLast : Bool) (ends : Char → Bool) (letters : List Char) : Procedure Word := do
  match letters with
  | '~' :: rest =>
    let name := rest.takeWhile (!ends ·)
    let after := rest.drop name.length
    if after = [] && !isLast then return [.text letters false]
    match ← home? (.ofList name) with
    | some path => return [.text path.toList true, .text after false]
    | none => return [.text letters false]
  | _ => return [.text letters false]

/-- Letters of a value, in which there can be a tilde after each colon. -/
def tildePieces (isLast : Bool) : List (List Char) → Procedure Word
  | [] => return []
  | [letters] => tildeParts isLast (fun letter => letter = '/' || letter = ':') letters
  | letters :: rest => do
    let first ← tildeParts true (fun letter => letter = '/' || letter = ':') letters
    return first ++ [.text [':'] false] ++ (← tildePieces isLast rest)

/-- A word with the home directories that tildes at its front stand for. -/
def withHome : Word → Procedure Word
  | .text letters false :: rest =>
    return (← tildeParts rest.isEmpty (· = '/') letters) ++ rest
  | word => return word

/-- A value of a variable with the home directories that tildes in it stand for, at its front and
after colons. -/
def withHomes (isFront : Bool) : Word → Procedure Word
  | [] => return []
  | .text letters false :: rest => do
    let pieces := ((String.ofList letters).splitOn ":").map String.toList
    let found ← match pieces, isFront with
      | first :: second :: others, false =>
        pure (.text (first ++ [':']) false :: (← tildePieces rest.isEmpty (second :: others)))
      | _, false => pure [.text letters false]
      | _, true => tildePieces rest.isEmpty pieces
    return found ++ (← withHomes false rest)
  | part :: rest => return part :: (← withHomes false rest)

def isList (name : String) : Bool := name = "@" || name = "*"

/-- The pieces of the value of a parameter. -/
def valuePieces (name : String) (isQuoted : Bool) : Procedure (List Piece) := do
  if name = "@" || (isList name && !isQuoted) then
    let arguments := (← get).arguments
    let pieces := arguments.map (Field.piecesOf isQuoted true ·.toList)
    return [Piece.boundary].intercalate pieces
  else return Field.piecesOf isQuoted true ((← parameter? name).getD "").toList

/-- Takes it for a failure that a parameter has no value, if the shell does so. -/
def checkValue (name : String) : Procedure Unit := do
  let session ← get
  if session.options.contains 'u' && !isList name && (← parameter? name).isNone then
    fail s!"{name}: parameter not set"

/-- What takes the place of an action for what it writes. Line ends at the end are left out. -/
def substituted (action : Procedure Unit) : Procedure String := do
  let letters := (← written action).toList
  return .ofList ((letters.reverse.dropWhile (· = '\n')).reverse.filter (· ≠ '\x00'))

/-- Evaluates an arithmetic expression, which may change variables. -/
def arithmetic (text : String) : Procedure Int := do
  let before := (← get).bindings
  let result := (Arithmetic.parse text).bind fun expression =>
    Arithmetic.evaluate expression before
  match result with
  | .error error => fail (error.message text)
  | .ok (value, bindings) => modify ({ · with bindings }); return value

/-- The words that fields stand for, paths included unless the shell leaves them alone. -/
def wordsOf (pieces : List Piece) : Procedure (List String) := do
  let fields := Field.split (← Builtin.separators) pieces
  let session ← get
  if session.options.contains 'f' then
    return fields.map fun glyphs => .ofList (glyphs.map Glyph.letter)
  else return fields.flatMap (expandPaths session.files)

/-- The line that a shell shows for a command that it executes. -/
def trace (errors : Option Nat) (assignments : List (String × String)) (words : List String) :
    Procedure Unit := do
  if (← get).options.contains 'x' then
    let line := " ".intercalate
      ("+" :: assignments.map (fun (name, value) => name ++ "=" ++ value) ++ words)
    if let some number := errors then
      let _ ← writeTo number (line ++ "\n")

end CompositeKeys.Shell
