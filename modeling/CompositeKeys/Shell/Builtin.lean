import CompositeKeys.Shell.Condition
import CompositeKeys.Shell.Field
import CompositeKeys.Shell.Formatting
import CompositeKeys.Shell.Permissions
import CompositeKeys.Shell.Session

/-! The commands that a shell does by itself, without executing others. -/

namespace CompositeKeys.Shell.Builtin
open Files Procedure

/-- Commands after which a shell ends if they cannot be done. -/
def specialNames : List String :=
  [".", ":", "break", "continue", "eval", "exec", "exit", "export", "local", "readonly", "return",
    "set", "shift", "times", "trap", "unset"]

def isSpecial (name : String) : Bool := specialNames.contains name

/-- Commands whose words may be assignments, which are not split. -/
def takesAssignments (name : String) : Bool := ["export", "readonly", "local"].contains name

/-- Writes to the output. What cannot be written is a fault of the command. -/
def print (text : String) : Procedure Unit := do
  let command := (← get).current.getD ""
  if text = "" then setStatus 0
  else if ← write 1 text then setStatus 0
  else
    warn s!"{command}: I/O error"
    setStatus 1

def natural? (text : String) : Option Nat :=
  if text ≠ "" ∧ text.toList.all Char.isDigit then
    (Arithmetic.inBase? 10 text.toList).filter (· < 2147483648)
  else none

/-- A number among the words of a command. -/
def natural (text : String) : Procedure Nat :=
  match natural? text with
  | some value => return value
  | none => fail s!"Illegal number: {text}"

/-- A text in single quotes; a single quote in it is put between double quotes. -/
def quoted (text : String) : String :=
  "\"'\"".intercalate ((text.splitOn "'").map fun piece => "'" ++ piece ++ "'")

def isName (text : String) : Bool :=
  text.toList.head?.any Arithmetic.beginsName && text.toList.all Arithmetic.continuesName

/-- The name and the value of a word that may be an assignment. -/
def assignmentOf (word : String) : String × Option String :=
  let letters := word.toList
  let name := letters.takeWhile (· ≠ '=')
  (.ofList name,
    if name.length < letters.length then some (.ofList (letters.drop (name.length + 1))) else none)

/-- Variables with their values as a shell shows them. -/
def listing (title : String) (names : List String) : Procedure String := do
  let bindings := (← get).bindings
  let names := names.eraseDups.mergeSort fun first second => first ≤ second
  let lines := names.map fun name =>
    let value := ((bindings.lookup name).map fun value => "=" ++ quoted value).getD ""
    title ++ name ++ value ++ "\n"
  return "".intercalate lines

/-- Says something of the variables that are named, which may be given values. -/
def declare (words : List String) (title : String) (names : Session → List String)
    (mark : String → Session → Session) : Procedure Unit := do
  match words with
  | [] | ["-p"] => print (← listing title (names (← get)))
  | _ =>
    for word in words do
      let (name, value) := assignmentOf word
      unless isName name do fail s!"{word}: bad variable name"
      if let some value := value then setVariable name value
      modify (mark name)
    setStatus 0

def changeDirectory (words : List String) : Procedure Unit := do
  let before := (← value? "PWD").getD ""
  let words := if words.head? = some "--" then words.drop 1 else words
  let target ← match words with
    | [] => pure ((← value? "HOME").getD "")
    | "-" :: _ => pure ((← value? "OLDPWD").getD before)
    | word :: _ => pure word
  match ← find target with
  | .ok (place, .directory) =>
    modify fun session => { session with files.workingDirectory := place }
    setVariable "OLDPWD" before
    setVariable "PWD" ("/" ++ "/".intercalate (place.map Text.bytesOf))
    modify fun session => { session with isExported := "PWD" :: "OLDPWD" :: session.isExported }
    if words.head? = some "-" then print (target ++ "\n") else setStatus 0
  | _ => if target = "" then setStatus 0 else fail s!"can't cd to {target}"

def workingDirectory : Procedure String :=
  return "/" ++ "/".intercalate ((← get).files.workingDirectory.map Text.bytesOf)

/-- A line that is read: its glyphs, how many bytes it takes, and whether it is ended. A backslash
protects the next letter, unless the line is raw. -/
def lineAtFront (isRaw isProtected : Bool) : List Char → List Glyph × Nat × Bool
  | [] => ([], 0, false)
  | letter :: rest =>
    let more := fun (glyphs : List Glyph) (found : List Glyph × Nat × Bool) =>
      (glyphs ++ found.1, found.2.1 + 1, found.2.2)
    if isProtected then
      more (if letter = '\n' then [] else [{ letter }]) (lineAtFront isRaw false rest)
    else if letter = '\n' then ([], 1, true)
    else if letter = '\\' && !isRaw then more [] (lineAtFront isRaw true rest)
    else more [{ letter, isQuoted := false }] (lineAtFront isRaw false rest)

/-- Gives the parts of a line to variables, the last of which takes all that is left. -/
def distribute (separators : List Char) : List String → List Glyph → List (String × String)
  | [], _ => []
  | name :: names, glyphs =>
    let separates := fun glyph : Glyph => !glyph.isQuoted && separators.contains glyph.letter
    let isBlank := fun glyph => separates glyph && Field.isBlank glyph.letter
    let text := fun glyphs : List Glyph => String.ofList (glyphs.map Glyph.letter)
    let glyphs := glyphs.dropWhile isBlank
    if names = [] then [(name, text (glyphs.reverse.dropWhile isBlank).reverse)]
    else
      let first := glyphs.takeWhile (!separates ·)
      let rest := (glyphs.drop first.length).dropWhile isBlank
      let rest := match rest with
        | glyph :: after => if separates glyph then after else rest
        | [] => []
      (name, text first) :: distribute separators names rest

/-- What separates words, unless it has been said otherwise. -/
def separators : Procedure (List Char) :=
  return ((← value? "IFS").getD " \t\n").toList

def readLine (words : List String) : Procedure Unit := do
  let options := words.takeWhile fun word => word.startsWith "-" && word ≠ "--"
  let names := words.drop options.length
  let names := if names.head? = some "--" then names.drop 1 else names
  if names = [] then fail "arg count"
  let isRaw := options.any fun option => option.contains 'r'
  match ← remaining 0 with
  | none => setStatus 1
  | some (letters, goesOn) =>
    let (glyphs, count, isEnded) := lineAtFront isRaw false letters
    if goesOn && !isEnded then throw .timeUp
    consume 0 count
    for (name, value) in distribute (← separators) names glyphs do
      setVariable name value
    setStatus (if isEnded then 0 else 1)

/-- Takes the next option from arguments: a letter of the options that are known, which has a value
where a colon follows it. -/
def getOptions (words : List String) : Procedure Unit := do
  match words with
  | known :: name :: rest =>
    let session ← get
    let arguments := if rest = [] then session.arguments else rest
    let index := (natural? ((← value? "OPTIND").getD "1")).getD 1
    let offset := if session.optionOffset = 0 then 1 else session.optionOffset
    let letters := ((arguments[index - 1]?).getD "").toList
    let isSilent := known.startsWith ":"
    let finish := fun (letter : String) (index offset status : Nat) => do
      setVariable name letter
      setVariable "OPTIND" (toString index)
      modify ({ · with optionOffset := offset })
      setStatus status
    match letters.head?, letters[offset]? with
    | some '-', some letter =>
      if letters = ['-', '-'] then finish "?" (index + 1) 0 1
      else
        let isLast := offset + 1 = letters.length
        let (nextIndex, nextOffset) := if isLast then (index + 1, 0) else (index, offset + 1)
        match (known.toList.filter fun _ => letter ≠ ':').findIdx? (· = letter) with
        | none =>
          if isSilent then setVariable "OPTARG" (.singleton letter)
          else
            let _ ← write 2 s!"Illegal option -{letter}\n"
            unset "OPTARG"
          finish "?" nextIndex nextOffset 0
        | some place =>
          if known.toList[place + 1]? ≠ some ':' then
            setVariable "OPTARG" ""
            finish (.singleton letter) nextIndex nextOffset 0
          else if !isLast then
            setVariable "OPTARG" (.ofList (letters.drop (offset + 1)))
            finish (.singleton letter) (index + 1) 0 0
          else match arguments[index]? with
            | some value =>
              setVariable "OPTARG" value
              finish (.singleton letter) (index + 2) 0 0
            | none =>
              if isSilent then setVariable "OPTARG" (.singleton letter)
              else
                let _ ← write 2 s!"No arg for -{letter} option\n"
                unset "OPTARG"
              finish (if isSilent then ":" else "?") (index + 1) 0 0
    | _, _ => finish "?" index 0 1
  | _ => fail "usage: getopts optstring var [arg]"

/-- The options of a shell by their letters. Two of them can only be named. -/
def optionNames : List (Char × String) :=
  [('e', "errexit"), ('f', "noglob"), ('I', "ignoreeof"), ('i', "interactive"), ('m', "monitor"),
    ('n', "noexec"), ('s', "stdin"), ('x', "xtrace"), ('v', "verbose"), ('V', "vi"),
    ('E', "emacs"), ('C', "noclobber"), ('a', "allexport"), ('b', "notify"), ('u', "nounset"),
    ('p', "privileged"), ('\x01', "nolog"), ('\x02', "debug")]

def setOption (letter : Char) (isOn : Bool) : Procedure Unit :=
  modify fun session =>
    let others := session.options.filter (· ≠ letter)
    { session with options := if isOn then letter :: others else others }

/-- Shows the options, as words that set them or in a table. -/
def listOptions (asTable : Bool) : Procedure Unit := do
  let options := (← get).options
  let lines := optionNames.map fun (letter, name) =>
    let isOn := options.contains letter
    if asTable then
      name ++ String.ofList (List.replicate (16 - name.length) ' ') ++ (if isOn then "on" else "off")
    else (if isOn then "set -o " else "set +o ") ++ name
  let title := if asTable then ["Current option settings"] else []
  print ("".intercalate ((title ++ lines).map (· ++ "\n")))

def setOptions (isOn : Bool) : List Char → List String → Procedure (List String)
  | [], words => return words
  | 'o' :: letters, words => do
    match words with
    | name :: rest =>
      match optionNames.find? (·.2 = name) with
      | some (letter, _) => setOption letter isOn; setOptions isOn letters rest
      | none => fail s!"Illegal option -o {name}"
    | [] =>
      listOptions isOn
      setOptions isOn letters []
  | letter :: letters, words => do
    if (optionNames.lookup letter).isNone then
      fail s!"Illegal option -{letter}"
    setOption letter isOn
    setOptions isOn letters words

/-- Takes the options at the front of words. The words after them, if they can be arguments. -/
def optionsAtFront : Nat → List String → Procedure (Option (List String))
  | 0, words => return some words
  | fuel + 1, words => do
    match words with
    | [] => return none
    | "--" :: rest => return some rest
    | "-" :: rest => return if rest = [] then none else some rest
    | word :: rest =>
      match word.toList with
      | '-' :: letter :: letters =>
        optionsAtFront fuel (← setOptions true (letter :: letters) rest)
      | '+' :: letter :: letters =>
        optionsAtFront fuel (← setOptions false (letter :: letters) rest)
      | _ => return some words

def setCommand (words : List String) : Procedure Unit := do
  if words = [] then
    print (← listing "" ((← get).bindings.map Prod.fst))
  else
    if let some arguments ← optionsAtFront (words.length + 1) words then
      modify ({ · with arguments })
    setStatus 0

def shift (words : List String) : Procedure Unit := do
  let count ← match words with
    | [] => pure 1
    | word :: _ => natural word
  if (← get).arguments.length < count then fail "can't shift that many"
  modify fun session => { session with arguments := session.arguments.drop count }
  setStatus 0

def unsetCommand (words : List String) : Procedure Unit := do
  let isFunction := words.head? = some "-f"
  let names := if isFunction || words.head? = some "-v" then words.drop 1 else words
  for name in names do
    if isFunction then
      modify fun session => { session with functions := session.functions.filter (·.1 ≠ name) }
    else
      unless isName name do fail s!"{name}: bad variable name"
      unset name
      modify fun session => { session with isExported := session.isExported.filter (· ≠ name) }
  setStatus 0

/-- Makes variables that last as long as the function. -/
def makeLocal (words : List String) : Procedure Unit := do
  for word in words do
    let (name, value) := assignmentOf word
    unless isName name do fail s!"{name}: bad variable name"
    let before ← value? name
    modify fun session => { session with saved := (name, before) :: session.saved }
    if let some value := value then setVariable name value
  setStatus 0

/-- The names of the signals in the order of their numbers. Some have none but the number. -/
def signalNames : List String :=
  ["EXIT", "HUP", "INT", "QUIT", "ILL", "TRAP", "ABRT", "BUS", "FPE", "KILL", "USR1", "SEGV", "USR2",
    "PIPE", "ALRM", "TERM", "16", "CHLD", "CONT", "STOP", "TSTP", "TTIN", "TTOU", "URG", "XCPU",
    "XFSZ", "VTALRM", "PROF", "WINCH", "IO", "PWR", "SYS", "32", "33", "RTMIN"] ++
    (List.range 15).map (fun index => s!"RTMIN+{index + 1}") ++
    (List.range 14).map (fun index => s!"RTMAX-{14 - index}") ++ ["RTMAX"]

def signal? (text : String) : Option Nat :=
  (signalNames.findIdx? (· = text.toUpper)).or ((natural? text).filter (· < 65))

/-- The name of a signal. -/
def signalName (number : Nat) : String := (signalNames[number]?).getD (toString number)

/-- Signals that a process takes no notice of unless it is made to. -/
def harmlessSignals : List Nat := [17, 18, 23, 28]

/-- Signals that make a process stand still. -/
def stoppingSignals : List Nat := [19, 20, 21, 22]

/-- What a shell says of a process that a signal has ended. -/
def signalText (number : Nat) : String :=
  let texts := ["Hangup", "", "Quit", "Illegal instruction", "Trace/breakpoint trap", "Aborted",
    "Bus error", "Floating point exception", "Killed", "User defined signal 1",
    "Segmentation fault", "User defined signal 2", "", "Alarm clock", "Terminated", "Stack fault",
    "", "", "", "", "", "", "", "CPU time limit exceeded", "File size limit exceeded",
    "Virtual timer expired", "Profiling timer expired", "", "I/O possible", "Power failure",
    "Bad system call", "Unknown signal 32", "Unknown signal 33"]
  (texts[number - 1]?).getD s!"Real-time signal {number - 34}"

def setTrap (words : List String) : Procedure Unit := do
  let words := if words.head? = some "--" then words.drop 1 else words
  let without := fun (number : Nat) (session : Session) =>
    session.traps.filter (·.1 ≠ number)
  match words with
  | [] =>
    let traps := (← get).traps.mergeSort fun first second => first.1 ≤ second.1
    let lines := traps.map fun (number, action) =>
      s!"trap -- {quoted action} {signalName number}\n"
    print ("".intercalate lines)
  | action :: names =>
    setStatus 0
    let action? := if names = [] || action = "-" then none else some action
    for name in if names = [] then [action] else names do
      match signal? name with
      | none =>
        warn s!"{name}: bad trap"
        setStatus 1
      | some number =>
        modify fun session =>
          { session with
            traps := (action?.map fun action => (number, action)).toList ++
              without number session }

/-- Shows the name of a signal, or that of all of them. -/
def listSignals (words : List String) : Procedure Unit := do
  match words with
  | [] => print ("".intercalate ((("0" :: signalNames.drop 1)).map (· ++ "\n")))
  | word :: _ =>
    let number ← natural word
    let number := if 128 < number then number - 128 else number
    if 0 < number && number < 65 then print (signalName number ++ "\n")
    else fail s!"invalid signal number or exit status: {word}"

/-- Sends a signal to a process, which is this one or one that it has started. -/
def sendSignal (number process : Nat) : Procedure Unit := do
  let session ← get
  if session.process < process || process < 1000 then
    unless session.jobs.any (·.process = process) do
      warn "No such process\n"
      setStatus 1
  else if number = 0 then pure ()
  else if process = session.process && number ≠ 9 && number ≠ 19 &&
      (session.traps.lookup number).isSome then
    modify ({ · with pending := session.pending ++ [number] })
  else if harmlessSignals.contains number then pure ()
  else if stoppingSignals.contains number then wait session.limit
  else throw (.signal process number)

/-- The signal that words ask for and the words after it, with what is wrong with them. Nothing is
asked for where signals are to be shown. -/
def signalOption (words : List String) : Except String (Option Nat × List String) :=
  let named := fun (name : String) (rest : List String) =>
    match signal? name with
    | some number => .ok (some number, rest)
    | none => .error s!"invalid signal number or name: {name}"
  match words with
  | "--" :: rest => .ok (some 15, rest)
  | first :: rest =>
    match first.toList with
    | '-' :: letter :: letters =>
      match signal? (.ofList (letter :: letters)), letter, letters, rest with
      | some number, _, _, _ => .ok (some number, rest)
      | none, 'l', _, _ => .ok (none, rest)
      | none, 's', [], [] => .error "No arg for -s option"
      | none, 's', [], name :: rest => named name rest
      | none, 's', letters, _ => named (.ofList letters) rest
      | none, _, _, _ => .error s!"Illegal option -{letter}"
    | _ => .ok (some 15, words)
  | [] => .ok (some 15, words)

def kill (words : List String) : Procedure Unit := do
  match signalOption words with
  | .error message => fail message
  | .ok (none, rest) => listSignals rest
  | .ok (some number, targets) =>
    if targets = [] then
      fail "Usage: kill [-s sigspec | -signum | -sigspec] [pid | job]... or\nkill -l [exitstatus]"
    setStatus 0
    for target in targets do
      match natural? target with
      | none => fail s!"Illegal number: {target}"
      | some process => sendSignal number process

/-- Waits for processes. One that is not known has a status of its own. -/
def waitFor (words : List String) : Procedure Unit := do
  let session ← get
  let passTo := fun (time : Nat) => do
    let now := (← get).milliseconds
    wait (time - now)
  match words with
  | [] =>
    passTo ((session.jobs.map Job.ended).foldl max 0)
    modify ({ · with jobs := [] })
    setStatus 0
  | _ =>
    for word in words do
      match session.jobs.find? fun job => natural? word = some job.process with
      | none => setStatus 127
      | some job =>
        passTo job.ended
        modify fun session =>
          { session with jobs := session.jobs.filter (·.process ≠ job.process) }
        setStatus job.status

/-- How many loops a command leaves. -/
def loopCount (words : List String) : Procedure Nat := do
  match words with
  | [] => return 1
  | word :: _ =>
    match ← natural word with
    | 0 => fail s!"Illegal number: {word}"
    | count => return count

/-- Leaves loops, or goes on with the next round. Where there is no loop nothing is done. -/
def leaveLoops (words : List String) (interruption : Nat → Interruption) : Procedure Unit := do
  let count ← loopCount words
  setStatus 0
  let loops := (← get).loops
  if 0 < loops then throw (interruption (min count loops))

def endWith (words : List String) (interruption : Interruption) : Procedure Unit := do
  if let word :: _ := words then setStatus (← natural word)
  throw interruption

/-- Formats words, with a message for each that is not what the format asks for. -/
def printFormatted (words : List String) : Procedure Unit := do
  match if words.head? = some "--" then words.drop 1 else words with
  | [] => fail "usage: printf format [arg ...]"
  | format :: arguments =>
    let (text, faults, fatal) := Formatting.printed format arguments
    for fault in faults do warn fault.message
    print text
    unless faults.isEmpty do setStatus 1
    if let some fault := fatal then fail fault.message

def evaluateCondition (name : String) (words : List String) : Procedure Unit := do
  if name = "[" ∧ words.getLast? ≠ some "]" then fail "missing ]"
  let words := if name = "[" then words.dropLast else words
  match Condition.holds (← get).files words with
  | .ok value => setStatus (if value then 0 else 1)
  | .error error => fail error.message

/-- Sets the permissions that new files do not have, or shows them. -/
def setMask (words : List String) : Procedure Unit := do
  let isSymbolic := words.head? = some "-S"
  let words := if isSymbolic then words.drop 1 else words
  let mask := (← get).mask
  match words with
  | [] =>
    print ((if isSymbolic then modeClauses (0o777 ^^^ mask) else modeDigits mask) ++ "\n")
  | word :: _ =>
    if word.toList.head?.any Char.isDigit then
      match (Arithmetic.inBase? 8 word.toList).filter fun _ => word.toList.all Formatting.isOctal with
      | some value => modify ({ · with mask := value % 512 })
      | none => fail s!"Illegal number: {word}"
    else match modeFrom? word 0 false (0o777 ^^^ mask) with
      | some mode => modify ({ · with mask := 0o777 ^^^ (mode % 512) })
      | none => fail s!"Illegal mode: {word}"
    setStatus 0

/-- The place of a name in a table of so many. -/
def placeInTable (size : Nat) (name : String) : Nat :=
  let codes := name.toList.map Char.toNat
  (16 * codes.headD 0 + codes.foldl (· + ·) 0) % size

def aliasLine (entry : String × String) : String := entry.1 ++ "=" ++ quoted entry.2 ++ "\n"

/-- Gives names to texts that stand for them where a command begins, or shows the names. -/
def setAliases (words : List String) : Procedure Unit := do
  let place := fun entry : String × String => placeInTable 39 entry.1
  if words = [] then
    let sorted := (← get).aliases.mergeSort fun first second => place first ≤ place second
    print ("".intercalate (sorted.map aliasLine))
  else
    let mut text := ""
    let mut status := 0
    for word in words do
      let (name, value?) := assignmentOf word
      let aliases := (← get).aliases
      match value?.filter fun _ => name ≠ "", aliases.lookup word with
      | some value, _ =>
        let isKnown := (aliases.lookup name).isSome
        modify ({ · with
          aliases := if isKnown then
            aliases.map fun entry => if entry.1 = name then (name, value) else entry
          else aliases ++ [(name, value)] })
      | none, some value => text := text ++ aliasLine (word, value)
      | none, none =>
        let _ ← write 2 s!"alias: {word} not found\n"
        status := 1
    print text
    setStatus status

def unsetAliases (words : List String) : Procedure Unit := do
  setStatus 0
  if words.head? = some "-a" then modify ({ · with aliases := [] })
  else
    for name in words do
      let aliases := (← get).aliases
      if (aliases.lookup name).isNone then
        let _ ← write 2 s!"unalias: {name} not found\n"
        setStatus 1
      modify ({ · with aliases := aliases.filter (·.1 ≠ name) })

/-- The commands by their names. -/
def find? (name : String) : Option (List String → Procedure Unit) :=
  match name with
  | ":" | "true" | "jobs" => some fun _ => setStatus 0
  | "false" => some fun _ => setStatus 1
  | "echo" => some fun words => print (Formatting.echo words)
  | "printf" => some printFormatted
  | "test" | "[" => some (evaluateCondition name)
  | "cd" | "chdir" => some changeDirectory
  | "pwd" => some fun _ => do print ((← workingDirectory) ++ "\n")
  | "read" => some readLine
  | "set" => some setCommand
  | "shift" => some shift
  | "unset" => some unsetCommand
  | "export" => some fun words =>
    declare words "export " Session.isExported fun name session =>
      { session with isExported := name :: session.isExported }
  | "readonly" => some fun words =>
    declare words "readonly " Session.isReadOnly fun name session =>
      { session with isReadOnly := name :: session.isReadOnly }
  | "local" => some fun words => do
    if (← get).firstLine.isNone then fail "not in a function"
    makeLocal words
  | "trap" => some setTrap
  | "kill" => some kill
  | "break" => some fun words => leaveLoops words .leave
  | "continue" => some fun words => leaveLoops words .again
  | "exit" => some fun words => endWith words .exit
  | "return" => some fun words => endWith words .return
  | "umask" => some setMask
  | "alias" => some setAliases
  | "unalias" => some unsetAliases
  | "ulimit" => some fun words => if words = [] then print "unlimited\n" else setStatus 0
  | "times" => some fun _ =>
    print "0m0.000000s 0m0.000000s\n0m0.000000s 0m0.000000s\n"
  | "wait" => some waitFor
  | "getopts" => some getOptions
  | _ => none

/-- The commands that a shell does by executing others. -/
def executingNames : List String := [".", "command", "eval", "exec", "hash", "type"]

def isBuiltin (name : String) : Bool := (find? name).isSome || executingNames.contains name

end CompositeKeys.Shell.Builtin
