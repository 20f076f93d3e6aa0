import CompositeKeys.Shell.Builtin
import CompositeKeys.Shell.Program
import CompositeKeys.Shell.Utility.Blocks
import CompositeKeys.Shell.Utility.Calculating
import CompositeKeys.Shell.Utility.Comparing
import CompositeKeys.Shell.Utility.Composing
import CompositeKeys.Shell.Utility.Digesting
import CompositeKeys.Shell.Utility.Dumping
import CompositeKeys.Shell.Utility.Editing
import CompositeKeys.Shell.Utility.Encoding
import CompositeKeys.Shell.Utility.Filing
import CompositeKeys.Shell.Utility.Finding
import CompositeKeys.Shell.Utility.Merging
import CompositeKeys.Shell.Utility.Processing
import CompositeKeys.Shell.Utility.Reporting
import CompositeKeys.Shell.Utility.Searching
import CompositeKeys.Shell.Utility.Selecting
import CompositeKeys.Shell.Utility.Shaping
import CompositeKeys.Shell.Utility.Sorting
import CompositeKeys.Shell.Utility.Succession
import CompositeKeys.Shell.Utility.Translating

/-! The programs besides the shell, by their names. -/

namespace CompositeKeys.Shell.Utility
open Procedure

def sleep (name : String) (words : List String) : Procedure Unit :=
  withGiven name 1 {} words fun given => do
    if given.operands = [] then missingOperand name
    else if given.operands.contains "infinity" then throw .timeUp
    else
      let wrong := given.operands.filter fun word => (duration? word).isNone
      if wrong = [] then wait ((given.operands.filterMap duration?).foldl (· + ·) 0)
      else
        for word in wrong do complain name s!"invalid time interval '{word}'"
        let _ ← write 2 s!"Try '{name} --help' for more information.\n"
        setStatus 1

/-- Writes words as they are, or with their escapes replaced if asked to. -/
def echo (words : List String) : Procedure Unit := do
  let isOption := fun word : String =>
    word.startsWith "-" && word ≠ "-" && (word.toList.drop 1).all ['n', 'e', 'E'].contains
  let options := words.takeWhile isOption
  let has := fun letter : Char => options.any (·.toList.contains letter)
  let words := words.drop options.length
  let ending := if has 'n' then [] else ['\n']
  let text := if has 'e' then String.ofList (Formatting.line ending words)
    else " ".intercalate words ++ String.ofList ending
  emit text
  setStatus 0

/-- What a program says of the words of a condition. -/
def conditionMessage (count : Nat) : Condition.ConditionError → String
  | .unexpected word =>
    if count = 3 then s!"'{word}': binary operator expected"
    else if count = 2 then s!"'{word}': unary operator expected"
    else s!"extra argument '{word}'"
  | .noOperand operator => s!"missing argument after '{operator}'"
  | .unclosed => "')' expected"
  | .number text => s!"invalid integer '{text}'"

/-- Tells whether a condition holds. -/
def condition (needsBracket : Bool) (name : String) (words : List String) : Procedure Unit := do
  setStatus 2
  if needsBracket ∧ words.getLast? ≠ some "]" then complain name "missing ']'"
  else
    let words := if needsBracket then words.dropLast else words
    match Condition.holds (← get).files words with
    | .ok value => setStatus (if value then 0 else 1)
    | .error error =>
      let shown := match error with
        | .unexpected _ =>
          if words.length = 3 then Condition.ConditionError.unexpected (words.getD 1 "") else error
        | other => other
      complain name (conditionMessage words.length shown)

/-- Shows the working directory. -/
def showDirectory (_ : String) (_ : List String) : Procedure Unit := do
  emit ((← Builtin.workingDirectory) ++ "\n")
  setStatus 0

/-- What a shell writes that executes a command. -/
def outputOf (launcher : Launcher) (command : String) : Procedure String :=
  written do
    let _ ← launcher ["sh", "-c", command]

/-- What does what, by the names of the programs. Some of them launch others. -/
def table (launcher : Launcher) : List (String × (String → List String → Procedure Unit)) :=
  [("true", fun _ _ => setStatus 0), ("false", fun _ _ => setStatus 1),
    ("echo", fun _ words => echo words), ("printf", printFormatted), ("test", condition false),
    ("[", condition true), ("pwd", showDirectory), ("sleep", sleep), ("sync", fun _ _ => setStatus 0),
    ("cat", catenate), ("wc", countWords), ("head", head), ("tail", tail), ("tac", reversed),
    ("rev", mirrored), ("nl", numberLines), ("ls", list), ("stat", showStatistics),
    ("readlink", readLink), ("realpath", realPath), ("basename", baseName),
    ("dirname", directoryName), ("pathchk", checkPaths), ("chmod", changeMode),
    ("mkdir", makeDirectories), ("rmdir", removeDirectories), ("rm", remove), ("touch", touch),
    ("cp", transferAll false), ("mv", transferAll true), ("install", install), ("ln", link),
    ("link", linkOnly), ("unlink", unlink), ("tee", tee), ("truncate", truncate),
    ("mktemp", makeTemporary), ("split", split), ("dd", copyBlocks), ("grep", grep 'G'),
    ("egrep", fun _ => grep 'E' "grep"),
    ("fgrep", fun _ => grep 'F' "grep"), ("sed", edit (outputOf launcher)),
    ("awk", process launcher), ("mawk", process launcher), ("sort", sort),
    ("uniq", unique), ("cut", cut), ("paste", paste), ("comm", common), ("join", join),
    ("tsort", succession),
    ("tr", translate), ("fold", fold), ("expand", expand), ("unexpand", unexpand), ("od", dump),
    ("base64", encodeText .base64), ("base32", encodeText .base32), ("cksum", showCyclic),
    ("sum", showSums), ("cmp", compareBytes), ("diff", compareLines), ("seq", sequence),
    ("expr", calculate), ("factor", factorize), ("env", environ launcher), ("nice", nice launcher),
    ("nohup", detached launcher), ("timeout", limited launcher Builtin.signal?),
    ("xargs", withReadWords launcher), ("find", find launcher), ("printenv", printVariables),
    ("which", which), ("whoami", tell "root"), ("id", identity), ("uname", systemName),
    ("tty", terminal), ("nproc", processors), ("yes", repeatForever), ("date", tellTime)] ++
    digestKinds.map fun (name, kind) => (name, showDigests kind)

/-- Does what a program does under a name. What it has kept back is written at its end. -/
def perform (launcher : Launcher) (program name : String) (words : List String) :
    Procedure Unit := do
  match (table launcher).lookup program with
  | none => setStatus 0
  | some action =>
    modify ({ · with hasEndlessInput := false })
    action name words
    unless ← release do
      let _ ← write 2 s!"{name}: write error: Bad file descriptor\n"
      setStatus 1
    if (← get).hasEndlessInput then throw .timeUp

end CompositeKeys.Shell.Utility
