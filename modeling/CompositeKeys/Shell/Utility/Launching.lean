import CompositeKeys.Shell.Process
import CompositeKeys.Shell.Utility.Viewing

/-! Utilities that launch other programs: with other variables, with words that are read, or with
limits. -/

namespace CompositeKeys.Shell.Utility
open Files Procedure

/-- How a program is launched by its words. It tells why it could not be. -/
abbrev Launcher := List String → Procedure (Option FileError)

/-- The status for a program that could not be launched. -/
def launchStatus (error : FileError) : Nat :=
  if error = .notFound || error = .notDirectory then 127 else 126

/-- Launches a program after all that has been written so far. If it cannot be, a message tells why
and the status tells so. -/
def launchOr (launcher : Launcher) (words : List String) (message : FileError → Procedure Unit) :
    Procedure Unit := do
  let _ ← release
  if let some error := ← launcher words then
    message error
    setStatus (launchStatus error)

/-- The variables that programs are given. -/
def exported : Procedure (List (String × String)) := do
  let session ← get
  return session.bindings.filter fun entry => session.isExported.contains entry.1

/-- Does something with other variables. -/
def withVariables (given : List (String × String)) (action : Procedure Unit) :
    Procedure Unit := do
  let before ← get
  let kept := before.bindings.filter fun entry =>
    !before.isExported.contains entry.1 && (given.lookup entry.1).isNone
  modify fun session =>
    { session with bindings := given ++ kept, isExported := given.map Prod.fst }
  action.ensuring fun after =>
    { after with bindings := before.bindings, isExported := before.isExported }

/-- Variables with one that has been set. -/
def assigned (given : List (String × String)) (name value : String) : List (String × String) :=
  if given.any (·.1 = name) then
    given.map fun entry => if entry.1 = name then (name, value) else entry
  else given ++ [(name, value)]

/-- Words that are set apart by blanks, with quotes. -/
def splitQuoted (text : String) : List String :=
  let (words, current, _) := text.toList.foldl (fun (words, current, quote) letter =>
    match quote with
    | some mark =>
      if letter = mark then (words, current, none)
      else (words, (current.getD []) ++ [letter] |> some, some mark)
    | none =>
      if letter = '\'' || letter = '"' then (words, some (current.getD []), some letter)
      else if letter = ' ' || letter = '\t' || letter = '\n' then
        (words ++ (current.map String.ofList).toList, none, none)
      else (words, some ((current.getD []) ++ [letter]), none))
    (([] : List String), (none : Option (List Char)), (none : Option Char))
  words ++ (current.map String.ofList).toList

/-- Launches a program with other variables, or shows the variables. -/
def environ (launcher : Launcher) (name : String) (words : List String) : Procedure Unit :=
  let words := match words with
    | first :: rest =>
      if first.startsWith "-S" then splitQuoted (String.ofList (first.toList.drop 2)) ++ rest
      else words
    | [] => []
  withGiven name 125
    { plain := "i0v", valued := "uCS", stopsAtOperand := true
      long := [("ignore-environment", 'i'), ("null", '0'), ("unset", 'u'), ("chdir", 'C'),
        ("split-string", 'S'), ("debug", 'v')] } words
    fun given => do
      let operands := (given.values 'S').flatMap splitQuoted ++ given.operands
      let isBare := operands.head? = some "-"
      let operands := if isBare then operands.drop 1 else operands
      let assignments := operands.takeWhile (·.contains '=')
      let command := operands.drop assignments.length
      let all ← exported
      let start := if given.has 'i' || isBare then [] else all
      let kept := start.filter fun entry => !(given.values 'u').contains entry.1
      let values := assignments.foldl (fun values word =>
        let name := word.toList.takeWhile (· ≠ '=')
        assigned values (.ofList name) (.ofList (word.toList.drop (name.length + 1)))) kept
      let before := (← get).files.workingDirectory
      if command ≠ [] && given.has '0' then
        return ← suggestHelp name "cannot specify --null (-0) with command" 125
      if command = [] && given.has 'C' then
        return ← suggestHelp name "must specify command with --chdir (-C)" 125
      match given.value? 'C' with
      | some path =>
        match ← find path with
        | .ok (place, .directory) =>
          modify fun session => { session with files.workingDirectory := place }
        | .ok _ => chdirFault name path .notDirectory; return
        | .error error => chdirFault name path error; return
      | none => pure ()
      if command = [] then
        for (name, value) in values do
          emit (name ++ "=" ++ value ++ (if given.has '0' then "\x00" else "\n"))
      else
        withVariables values do
          launchOr launcher command fun error =>
            complain name (quoted (command.headD "") ++ ": " ++ error.reason)
      modify fun session => { session with files.workingDirectory := before }
where
  chdirFault (name path : String) (error : FileError) : Procedure Unit := do
    complain name s!"cannot change directory to {quoted path}: {error.reason}"
    setStatus 125

def nice (launcher : Launcher) (name : String) (words : List String) : Procedure Unit :=
  withGiven name 125
    { valued := "n", stopsAtOperand := true, long := [("adjustment", 'n')] } words
    fun given => do
      if given.operands = [] then emit "0\n"
      else
        launchOr launcher given.operands fun error =>
          complain name (quoted (given.operands.headD "") ++ ": " ++ error.reason)

/-- Launches a program that is not ended with the shell. -/
def detached (launcher : Launcher) (name : String) (words : List String) : Procedure Unit :=
  withGiven name 125 { stopsAtOperand := true } words fun given => do
    if given.operands = [] then suggestHelp name "missing operand" 125
    else
      launchOr launcher given.operands fun error => complain name <|
        "failed to run command " ++ quoted (given.operands.headD "") ++ ": " ++ error.reason

/-- The milliseconds that a text stands for, which is a number of seconds or of a longer unit. -/
def duration? (text : String) : Option Nat :=
  let letters := text.toList
  let body := letters.takeWhile fun letter => letter.isDigit || letter = '.'
  let unit? := match letters.drop body.length with
    | [] | ['s'] => some 1
    | ['m'] => some 60
    | ['h'] => some 3600
    | ['d'] => some 86400
    | _ => none
  let digits := fun letters : List Char => (Arithmetic.inBase? 10 letters).getD 0
  if !body.any Char.isDigit || 1 < body.count '.' then none
  else
    let whole := body.takeWhile (· ≠ '.')
    let places := ((body.dropWhile (· ≠ '.')).drop 1 ++ ['0', '0', '0']).take 3
    unit?.map fun unit => unit * (1000 * digits whole + digits places)

/-- Does something within a time. It is false if the time has not been enough. What has been done of
it until then is kept. -/
def within (milliseconds : Nat) (action : Procedure Unit) : Procedure Bool := do
  let before ← get
  let finish := before.milliseconds + milliseconds
  if milliseconds = 0 || before.limit ≤ finish then
    action
    return true
  let spare := before.steps / 2
  modify fun session => { session with limit := finish, steps := before.steps - spare }
  let ended ← outcome action
  match ended with
  | .error .timeUp =>
    modify before.resumed
    modify ({ · with milliseconds := finish, steps := spare })
    return false
  | _ =>
    modify fun session =>
      { session with limit := before.limit, steps := session.steps + spare }
    match ended with
    | .ok () => return true
    | .error other => throw other

/-- Launches a program that is stopped after some time. -/
def limited (launcher : Launcher) (signal? : String → Option Nat) (name : String)
    (words : List String) : Procedure Unit :=
  withGiven name 125
    { plain := "pvf", valued := "sk", stopsAtOperand := true
      long := [("preserve-status", 'p'), ("foreground", 'f'), ("signal", 's'), ("kill-after", 'k'),
        ("verbose", 'v')] } words
    fun given => do
      let signal := signal? ((given.value? 's').getD "TERM")
      match given.operands, signal with
      | _, none =>
        suggestHelp name (quotedWord ((given.value? 's').getD "") ++ ": invalid signal") 125
      | [], _ | [_], _ =>
        let _ ← write 2 s!"Try '{name} --help' for more information.\n"
        setStatus 125
      | time :: command, some signal =>
        match duration? time with
        | none => suggestHelp name s!"invalid time interval {quotedWord time}" 125
        | some milliseconds =>
          let isInTime ← within milliseconds do
            launchOr launcher command fun error => complain name <|
              "failed to run command " ++ quoted (command.headD "") ++ ": " ++ error.reason
          unless isInTime do
            setStatus (if signal = 9 then 137 else if given.has 'p' then 128 + signal else 124)

/-- The items in a text: words with quotes, or what a letter ends. With the items goes how many lines
have been ended before each of them; a blank at the end of a line goes on with it. -/
structure Items where
  done : List (String × Nat) := []
  current : Option (List Char) := none
  quote : Option Char := none
  isProtected : Bool := false
  line : Nat := 0
  hasItem : Bool := false
  last : Char := '\n'

def Items.next (wholeLines : Bool) (items : Items) (letter : Char) : Items :=
  let add := fun items : Items =>
    { items with current := some (letter :: items.current.getD []), last := letter }
  let close := fun items : Items =>
    match items.current with
    | none => items
    | some letters =>
      { items with
        done := (.ofList letters.reverse, items.line) :: items.done, current := none
        hasItem := true }
  if items.isProtected then { add items with isProtected := false }
  else match items.quote with
    | some mark => if letter = mark then { items with quote := none } else add items
    | none =>
      if letter = '\\' then { items with isProtected := true, current := some (items.current.getD []) }
      else if letter = '\'' || letter = '"' then
        { items with quote := some letter, current := some (items.current.getD []), last := letter }
      else if letter = '\n' then
        let closed := close items
        let endsLine := closed.hasItem && items.last ≠ ' ' && items.last ≠ '\t'
        { closed with
          line := if endsLine then items.line + 1 else items.line
          hasItem := if endsLine then false else closed.hasItem, last := '\n' }
      else if letter = ' ' || letter = '\t' then
        if wholeLines then if items.current.isSome then add items else items
        else { close items with last := letter }
      else add items

/-- Items in groups of so many, or of so many lines. -/
def grouped (count lines : Option Nat) (items : List (String × Nat)) : List (List String) :=
  match count, lines with
  | some count, _ =>
    ((items.zipIdx.splitBy fun first second => first.2 / count == second.2 / count)).map
      fun group => group.map fun entry => entry.1.1
  | none, some lines =>
    let numbers := (items.map Prod.snd).eraseDups
    let place := fun line : Nat => (numbers.findIdx (· = line)) / lines
    (items.splitBy fun first second => place first.2 == place second.2).map fun group =>
      group.map Prod.fst
  | none, none => if items.isEmpty then [] else [items.map Prod.fst]

/-- A text with all of a mark replaced by an item. -/
def withItem (mark item text : String) : String := item.intercalate (text.splitOn mark)

/-- Launches a program for groups of items. It stops if one of them asks for that. -/
def launchEach (launcher : Launcher) (given : Given) (name : String) (command : List String) :
    List (List String) → Procedure Unit
  | [] => pure ()
  | words :: rest => do
    if given.has 't' then
      let _ ← write 2 (" ".intercalate (words.map quotedIfNeeded) ++ "\n")
    let before := (← get).status
    let descriptors := (← get).descriptors
    let status ← (do
      let program := words.headD ""
      attach 0 .nowhere
      let _ ← release
      match ← launcher words with
      | some error =>
        complain name s!"{program}: {error.reason}"
        return (launchStatus error, true)
      | none =>
        let status := (← get).status
        if status = 255 then
          complain name s!"{program}: exited with status 255; aborting"
          return (124, true)
        else if 128 < status && status ≤ 192 then
          complain name s!"{program}: terminated by signal {status - 128}"
          return (125, true)
        else return (if status = 0 then before else 123, false) : Procedure (Nat × Bool)).ensuring
      ({ · with descriptors })
    setStatus status.1
    unless status.2 do launchEach launcher given name command rest

/-- Launches a program with words that are read. -/
def withReadWords (launcher : Launcher) (name : String) (words : List String) : Procedure Unit :=
  withGiven name 1
    { plain := "0rtpxo", valued := "nILdPsaE", optional := "iel", stopsAtOperand := true
      long := [("null", '0'), ("no-run-if-empty", 'r'), ("verbose", 't'), ("max-args", 'n'),
        ("replace", 'i'), ("max-lines", 'l'), ("delimiter", 'd'), ("max-procs", 'P'),
        ("max-chars", 's'), ("arg-file", 'a'), ("exit", 'x'), ("eof", 'e')] } words
    fun given => do
      let wrong := given.options.findSome? fun (letter, value) =>
        if letter = 'n' || letter = 'L' then
          match number? value with
          | none => some s!"invalid number \"{value}\" for -{letter} option"
          | some 0 => some s!"value 0 for -{letter} option should be >= 1"
          | _ => none
        else none
      match wrong with
      | some message => suggestHelp name message
      | none =>
        let source := (given.value? 'a').getD "-"
        match ← contents source with
        | .error error =>
          complain name s!"Cannot open input file {quoted source}: {error.reason}"
          setStatus 1
        | .ok text => readAndLaunch given text
where
  readAndLaunch (given : Given) (text : String) : Procedure Unit := do
    let mark := (given.value? 'I').or ((given.value? 'i').map fun text =>
      if text = "" then "\x7b\x7d" else text)
    let delimiter : Option Char := if given.has '0' then some '\x00'
      else (given.value? 'd').map fun text =>
        let escapes := [("\\n", '\n'), ("\\t", '\t'), ("\\0", '\x00'), ("\\\\", '\\')]
        (escapes.lookup text).getD (text.toList.headD '\x00')
    let found := text.toList.foldl (fun (items : Items) letter => items.next mark.isSome letter) {}
    let hasEnd := fun item : String => (given.value? 'E').any (· = item)
    let isOpen := delimiter.isNone && found.quote.isSome
    let items := match delimiter with
      | some letter => (recordsIn letter text).zipIdx
      | none => (found.next mark.isSome '\n').done.reverse.takeWhile fun entry => !hasEnd entry.1
    let command := if given.operands = [] then ["echo"] else given.operands
    if isOpen then
      let kind := if found.quote = some '\'' then "single" else "double"
      complain name <| s!"unmatched {kind} quote; by default quotes are special to xargs " ++
        "unless you use the -0 option"
      setStatus 1
    else
      let lines := ((given.value? 'L').bind number?).or
        ((given.value? 'l').map fun text => (number? text).getD 1)
      let groups := match mark with
        | some mark => items.map fun (item, _) =>
          command.take 1 ++ (command.drop 1).map (withItem mark item)
        | none => (grouped ((given.value? 'n').bind number?) lines items).map (command ++ ·)
      let runsEmpty := items.isEmpty && mark.isNone && !given.has 'r'
      launchEach launcher given name command (if runsEmpty then [command] else groups)

end CompositeKeys.Shell.Utility
