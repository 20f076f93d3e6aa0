import CompositeKeys.Shell.Naming
import CompositeKeys.Shell.Opening
import CompositeKeys.Shell.Parameter
import CompositeKeys.Shell.Process
import CompositeKeys.Shell.Utility

/-! How commands are executed. A command that is not the last word on whether something is done,
such as a condition, is tested: its failure does not end a shell that ends with the first failure.
-/

namespace CompositeKeys.Shell.Execution
open Files Procedure

/-- The options of a shell that is started: whether it is given a script, and the words after
them. -/
def startOptions (hasScript : Bool) : Nat → List String → Procedure (Bool × List String)
  | 0, words => return (hasScript, words)
  | fuel + 1, words => do
    match words with
    | [] => return (hasScript, [])
    | "-" :: rest | "--" :: rest => return (hasScript, rest)
    | word :: rest =>
      match word.toList with
      | sign :: letters =>
        if sign = '-' || sign = '+' then
          let others := letters.filter fun letter => letter ≠ 'c' && letter ≠ 'l'
          let rest ← Builtin.setOptions (sign = '-') others rest
          startOptions (hasScript || letters.contains 'c') fuel rest
        else return (hasScript, words)
      | [] => return (hasScript, words)

mutual

def expandPart (isValue : Bool) (part : Part) : Nat → Procedure (List Piece)
  | 0 => throw .timeUp
  | fuel + 1 => do
    match part with
    | .text letters isQuoted => return Field.piecesOf isQuoted isValue letters
    | .parameter name form isQuoted =>
      let mark := if isQuoted && name ≠ "@" then [Piece.quotes] else []
      match form with
      | .plain =>
        checkValue name
        valuePieces name isQuoted
      | .malformed => fail "Bad substitution"
      | .size =>
        checkValue name
        let size := ((← parameter? name).getD "").length
        return Field.piecesOf isQuoted true (toString size).toList
      | .trimmed atEnd isLongest pattern =>
        checkValue name
        let glyphs := Field.joined (← expandParts false pattern fuel)
        let value := ((← parameter? name).getD "").toList
        return Field.piecesOf isQuoted true (trim atEnd isLongest glyphs value)
      | .without orEmpty fallback word =>
        let value ← parameter? name
        let isSet := match value with
          | none => false
          | some text => !orEmpty || text ≠ ""
        match fallback with
        | .replace =>
          if isSet then valuePieces name isQuoted
          else
            let word ← if isQuoted then pure word else withHome word
            return mark ++ (← expandParts (!isQuoted) word fuel)
        | .invert =>
          let word ← if isQuoted then pure word else withHome word
          if isSet then return mark ++ (← expandParts (!isQuoted) word fuel) else return mark
        | .assign =>
          if isSet then valuePieces name isQuoted
          else
            let word ← if isQuoted then pure word else withHome word
            let text := Field.textOf (← expandParts false word fuel)
            unless Builtin.isName name do fail s!"{name}: bad variable name"
            setVariable name text
            return Field.piecesOf isQuoted true text.toList
        | .fail =>
          if isSet then valuePieces name isQuoted
          else
            let text := Field.textOf (← expandParts false word fuel)
            let usual := if orEmpty then "parameter not set or null" else "parameter not set"
            fail s!"{name}: {if word.isEmpty then usual else text}"
    | .output body isQuoted =>
      let text ← substituted (apart (script false · fuel) (executeAll false body fuel))
      modify fun session => { session with substituted := session.status }
      return Field.piecesOf isQuoted true text.toList
    | .arithmetic expression isQuoted =>
      let text := Field.textOf (← expandParts false expression fuel)
      return Field.piecesOf isQuoted true (toString (← arithmetic text)).toList
termination_by structural fuel => fuel

def expandParts (isValue : Bool) (word : Word) : Nat → Procedure (List Piece)
  | 0 => throw .timeUp
  | fuel + 1 => do
    match word with
    | [] => return []
    | part :: rest =>
      let first ← expandPart isValue part fuel
      return first ++ (← expandParts isValue rest fuel)
termination_by structural fuel => fuel

/-- The words of a command that words stand for. -/
def expandWords (mayAssign : Bool) (words : List Word) : Nat → Procedure (List String)
  | 0 => throw .timeUp
  | fuel + 1 => do
    match words with
    | [] => return []
    | word :: rest =>
      let first ← match (Reading.assignment? word).filter fun _ => mayAssign with
        | some (name, value) =>
          let pieces ← expandParts false (← withHomes true value) fuel
          pure [name ++ "=" ++ Field.textOf pieces]
        | none =>
          let pieces ← expandParts false (← withHome word) fuel
          wordsOf pieces
      return first ++ (← expandWords mayAssign rest fuel)
termination_by structural fuel => fuel

/-- What redirections lead to. -/
def expandOpenings (redirections : List Redirection) : Nat → Procedure (List Opening)
  | 0 => throw .timeUp
  | fuel + 1 => do
    match redirections with
    | [] => return []
    | .mk descriptor access target document :: rest =>
      let documents := (← get).documents
      let word ←
        if access = .here then pure ((documents.lookup document).getD []) else withHome target
      let target := Field.textOf (← expandParts false word fuel)
      return { descriptor, access, target } :: (← expandOpenings rest fuel)
termination_by structural fuel => fuel

/-- Gives variables their values, one after another. -/
def assignAll (assignments : List (String × Word)) : Nat → Procedure (List (String × String))
  | 0 => throw .timeUp
  | fuel + 1 => do
    match assignments with
    | [] => return []
    | (name, word) :: rest =>
      let value := Field.textOf (← expandParts false (← withHomes true word) fuel)
      setVariable name value
      return (name, value) :: (← assignAll rest fuel)
termination_by structural fuel => fuel

def executeAll (isTested : Bool) (commands : List Command) : Nat → Procedure Unit
  | 0 => throw .timeUp
  | fuel + 1 => do
    match commands with
    | [] => pure ()
    | command :: rest =>
      execute isTested command fuel
      executeAll isTested rest fuel
termination_by structural fuel => fuel

def execute (isTested : Bool) (command : Command) : Nat → Procedure Unit
  | 0 => throw .timeUp
  | fuel + 1 => do
    if (← get).options.contains 'n' then return
    match command with
    | .nothing => pure ()
    | .simple line assignments words redirections =>
      simple isTested line assignments words redirections fuel
      checkFailure isTested
      trapped (← get).pending fuel
    | .redirected line body redirections =>
      setLine line
      keepingDescriptors do
        if ← openAll (← expandOpenings redirections fuel) then execute isTested body fuel
        else checkFailure isTested
    | .subshell body =>
      apart (script false · fuel) (execute isTested body fuel)
      checkFailure isTested
    | .negated body =>
      execute true body fuel
      setStatus (if (← get).status = 0 then 1 else 0)
    | .both first second =>
      execute true first fuel
      if (← get).status = 0 then execute isTested second fuel
    | .either first second =>
      execute true first fuel
      if (← get).status ≠ 0 then execute isTested second fuel
    | .sequence first second =>
      execute isTested first fuel
      execute isTested second fuel
    | .background body =>
      let now := (← get).milliseconds
      keepingDescriptors do
        attach 0 .nowhere
        let before ← get
        match ← outcome (apart (script false · fuel) (execute false body fuel)) with
        | .error (.signal process number) => throw (.signal process number)
        | .error .timeUp => modify before.resumed
        | _ => pure ()
      modify fun session =>
        let number := session.processes
        { session with
          milliseconds := now
          processes := number + 1
          jobs := { process := 1000 + number, status := session.status,
                    ended := session.milliseconds } :: session.jobs }
      setStatus 0
    | .pipe stages =>
      let before ← get
      keepingDescriptors (pipe isTested false before before.milliseconds stages fuel)
      checkFailure isTested
    | .branch condition onSuccess onFailure =>
      execute true condition fuel
      if (← get).status = 0 then execute isTested onSuccess fuel
      else orSucceed onFailure (execute isTested onFailure fuel)
    | .loop untilSuccess condition body =>
      inLoop (loop isTested untilSuccess condition body 0 fuel)
    | .each line name words body =>
      setLine line
      let words ← expandWords false words fuel
      if words = [] then setStatus 0
      inLoop (each isTested name words body fuel)
    | .choice line word cases =>
      setLine line
      let text := Field.textOf (← expandParts false (← withHome word) fuel)
      choose isTested text.toList cases fuel
    | .define line name body =>
      modify fun session =>
        { session with
          functions := (name, line, body) :: session.functions.filter (·.1 ≠ name) }
      setStatus 0
termination_by structural fuel => fuel

/-- Does what signals are trapped for. -/
def trapped (signals : List Nat) : Nat → Procedure Unit
  | 0 => throw .timeUp
  | fuel + 1 => do
    match signals with
    | [] => pure ()
    | signal :: rest =>
      let session ← get
      modify ({ · with pending := rest })
      script false ((session.traps.lookup signal).getD "") fuel
      setStatus session.status
      trapped rest fuel
termination_by structural fuel => fuel

/-- Executes the stages of a pipe, all of which begin at the same time. -/
def pipe (isTested isStuck : Bool) (before : Session) (longest : Nat) (stages : List Command) :
    Nat → Procedure Unit
  | 0 => throw .timeUp
  | fuel + 1 => do
    match stages with
    | [] =>
      modify ({ · with milliseconds := longest })
      if isStuck then throw .timeUp
    | stage :: rest =>
      modify ({ · with milliseconds := before.milliseconds, status := before.status })
      let process := apart (script false · fuel) (execute isTested stage fuel)
      if rest.isEmpty then
        process
        pipe isTested isStuck before (max longest (← get).milliseconds) rest fuel
      else
        let flow ← flowing process
        attach 0 (.input flow.text.toList flow.goesOn)
        let now := (← get).milliseconds
        let finish := if flow.goesOn then longest else max longest now
        pipe isTested (isStuck || flow.isStuck) before finish rest fuel
termination_by structural fuel => fuel

def loop (isTested untilSuccess : Bool) (condition body : Command) (last : Nat) :
    Nat → Procedure Unit
  | 0 => throw .timeUp
  | fuel + 1 => do
    step
    match ← round (execute true condition fuel) with
    | .left => setStatus last
    | .again => loop isTested untilSuccess condition body last fuel
    | .completed =>
      if ((← get).status = 0) == untilSuccess then setStatus last
      else match ← round (execute isTested body fuel) with
        | .left => pure ()
        | _ => loop isTested untilSuccess condition body (← get).status fuel
termination_by structural fuel => fuel

/-- Executes a command for each of some words. -/
def each (isTested : Bool) (name : String) (words : List String) (body : Command) :
    Nat → Procedure Unit
  | 0 => throw .timeUp
  | fuel + 1 => do
    match words with
    | [] => pure ()
    | word :: rest =>
      setVariable name word
      match ← round (execute isTested body fuel) with
      | .left => pure ()
      | _ => each isTested name rest body fuel
termination_by structural fuel => fuel

/-- Executes the first of some cases that has a pattern for a text. -/
def choose (isTested : Bool) (text : List Char) (cases : List (List Word × Command)) :
    Nat → Procedure Unit
  | 0 => throw .timeUp
  | fuel + 1 => do
    match cases with
    | [] => setStatus 0
    | (patterns, body) :: rest =>
      if ← isAmong text patterns fuel then orSucceed body (execute isTested body fuel)
      else choose isTested text rest fuel
termination_by structural fuel => fuel

/-- Whether one of some patterns stands for a text. -/
def isAmong (text : List Char) (patterns : List Word) : Nat → Procedure Bool
  | 0 => throw .timeUp
  | fuel + 1 => do
    match patterns with
    | [] => return false
    | word :: rest =>
      let glyphs := Field.joined (← expandParts false (← withHome word) fuel)
      if isMatch (pattern glyphs) text then return true else isAmong text rest fuel
termination_by structural fuel => fuel

/-- Executes a simple command. What its words stand for is known before its files are opened, and
these are open before its variables have their values. -/
def simple (isTested : Bool) (line : Nat) (assignments : List (String × Word)) (words : List Word)
    (redirections : List Redirection) : Nat → Procedure Unit
  | 0 => throw .timeUp
  | fuel + 1 => do
    step
    setLine line
    modify ({ · with substituted := 0 })
    let errors := (← get).descriptors.lookup 2
    let mayAssign := ((words.head?.bind plainText?).map Builtin.takesAssignments).getD false
    let words ← expandWords mayAssign words fuel
    let openings ← expandOpenings redirections fuel
    match words with
    | [] =>
      if ← keepingDescriptors (openAll openings) then
        let values ← assignAll assignments fuel
        trace errors values []
        setStatus (← get).substituted
    | ["exec"] =>
      unless ← openAll openings do throw .failure
      let values ← assignAll assignments fuel
      trace errors values ["exec"]
      setStatus 0
    | name :: arguments =>
      let isSpecial := Builtin.isSpecial name
      let names := if isSpecial then [] else assignments.map Prod.fst
      keepingDescriptors do
        if ← openAll openings then
          keepingVariables names do
            let values ← assignAll assignments fuel
            modify fun session => { session with isExported := names ++ session.isExported }
            trace errors values (name :: arguments)
            invoke isTested true name arguments fuel
        else if isSpecial then throw .failure
termination_by structural fuel => fuel

/-- Does what the name of a command stands for. -/
def invoke (isTested mayBeFunction : Bool) (name : String) (arguments : List String) :
    Nat → Procedure Unit
  | 0 => throw .timeUp
  | fuel + 1 => do
    let session ← get
    let isSpecial := Builtin.isSpecial name
    match (session.functions.lookup name).filter fun _ => mayBeFunction && !isSpecial with
    | some (line, body) => inFunction line arguments (execute isTested body fuel)
    | none =>
      match name with
      | "command" =>
        match arguments with
        | "-v" :: name :: _ => locate name
        | "-V" :: names => describe names
        | "-p" :: name :: rest | "--" :: name :: rest | name :: rest =>
          tolerating (invoke isTested false name rest fuel)
        | [] => setStatus 0
      | "eval" => naming name (script isTested (" ".intercalate arguments) fuel)
      | "." => source isTested arguments fuel
      | "exec" =>
        naming name (external (arguments.headD "") (arguments.drop 1) fuel)
        throw .exit
      | "type" => describe arguments
      | "hash" => naming name (keepInMind arguments)
      | _ =>
        match Builtin.find? name with
        | some action =>
          if isSpecial then naming name (action arguments)
          else tolerating (naming name (action arguments))
        | none => external name arguments fuel
termination_by structural fuel => fuel

/-- Executes the commands in a file. -/
def source (isTested : Bool) (arguments : List String) : Nat → Procedure Unit
  | 0 => throw .timeUp
  | fuel + 1 => do
    match arguments with
    | [] => setStatus 0
    | path :: _ =>
      if path.contains '/' then
        match (← get).files.read (pathOf path) with
        | .error error => naming "." (fail (openingFault false path error))
        | .ok text =>
          match ← outcome <| naming path (script isTested (Text.bytesOf text) fuel) with
          | .ok () | .error .return => pure ()
          | .error other => throw other
      else naming "." (fail s!"{path}: not found")
termination_by structural fuel => fuel

/-- Executes a program, which is searched for by its name. -/
def external (name : String) (arguments : List String) : Nat → Procedure Unit
  | 0 => throw .timeUp
  | fuel + 1 => do
    let files := (← get).files
    let searchPath := (← value? "PATH").getD ""
    let (found, path) := lookUp files searchPath name
    let isSearched := !name.contains '/'
    let isUsable := found matches .program _ || found matches .script _
    if isSearched && !isUsable then
      let isDenied := found = .denied || hasDirectory files searchPath name
      let reason := if isDenied then "Permission denied" else "not found"
      warn s!"{name}: {reason}"
      setStatus 127
    else
      if isSearched then
        let _ ← locate? name
      modify fun session => { session with bindings := inTableOrder session.bindings }
      if let some error := ← perform found name path arguments fuel then
        let isMissing := error = .notFound || error = .notDirectory
        let reason := if isMissing then "not found" else error.reason
        warn s!"{name}: {reason}"
        setStatus (if isMissing || error = .manyLinks || error = .nameTooLong then 127 else 126)
termination_by structural fuel => fuel

/-- Executes what has been found at a path under a name, or tells why it cannot be executed. A
script is read by the program that it names, or else by a shell. -/
def perform (executable : Executable) (name path : String) (arguments : List String) :
    Nat → Procedure (Option FileError)
  | 0 => throw .timeUp
  | fuel + 1 => do
    match executable with
    | .missing error => return some error
    | .denied => return some .denied
    | .program program =>
      run name program arguments fuel
      return none
    | .script place =>
      match interpreter? (← bytesAt place) with
      | none => perform (.program "sh") "/bin/sh" "/bin/sh" (path :: arguments) fuel
      | some (program, words) =>
        let found := Executable.atPath (← get).files (pathOf program)
        perform found program program (words ++ path :: arguments) fuel
termination_by structural fuel => fuel

/-- Launches a program by its words, or tells why it cannot be launched. -/
def launchWords (words : List String) : Nat → Procedure (Option FileError)
  | 0 => throw .timeUp
  | fuel + 1 => do
    let session ← get
    let searchPath := (session.bindings.lookup "PATH").filter fun _ =>
      session.isExported.contains "PATH"
    let name := words.headD ""
    let (found, path) := lookUp session.files (searchPath.getD "/bin:/usr/bin") name
    perform found name path (words.drop 1) fuel
termination_by structural fuel => fuel

/-- Runs a program under a name. -/
def run (name program : String) (arguments : List String) : Nat → Procedure Unit
  | 0 => throw .timeUp
  | fuel + 1 => do
    if shellNames.contains program then
      apart (script false · fuel) do
        let session ← get
        let number := 1000 + session.processes
        let given := session.bindings.filter fun entry => session.isExported.contains entry.1
        modify fun session =>
          { session with
            name
            process := number
            processes := session.processes + 1
            arguments := []
            bindings := startingVariables session.files.workingDirectory given
            isReadOnly := []
            isExported := "PWD" :: given.map Prod.fst
            functions := []
            aliases := []
            options := []
            line := 0
            firstLine := none
            current := none
            loops := 0
            depth := 0
            saved := [] }
        match ← outcome (start arguments fuel) with
        | .error (.signal process signal) =>
          if process ≠ number || session.process = 0 then throw (.signal process signal)
          setStatus (128 + signal)
          let _ ← write 2 (Builtin.signalText signal ++ "\n")
        | .error other => throw other
        | .ok () => pure ()
    else Utility.perform (launchWords · fuel) program name arguments
termination_by structural fuel => fuel

/-- Starts a shell with its words. -/
def start (words : List String) : Nat → Procedure Unit
  | 0 => throw .timeUp
  | fuel + 1 => do
    setStatus 0
    match ← startOptions false (words.length + 1) words with
    | (true, []) => fail "-c requires an argument"
    | (true, text :: words) =>
      modify fun session =>
        { session with name := words.headD session.name, arguments := words.drop 1 }
      script false text fuel
    | (false, words) =>
      let session ← get
      match words with
      | file :: arguments =>
        if session.options.contains 's' then
          modify ({ · with arguments := words })
          script false ((← readAll 0).getD "") fuel
        else match session.files.read (pathOf file) with
          | .error .isDirectory => pure ()
          | .error error => fail (openingFault false file error)
          | .ok text =>
            modify ({ · with name := file, arguments })
            script false (Text.bytesOf text) fuel
      | [] => script false ((← readAll 0).getD "") fuel
termination_by structural fuel => fuel

/-- Executes the lines of a text, up to one that is not well formed. A line is read when those before
it have been executed. -/
def script (isTested : Bool) (text : String) : Nat → Procedure Unit
  | 0 => throw .timeUp
  | fuel + 1 => do
    let count := (← get).documents.foldl (fun count document => max count (document.1 + 1)) 0
    scriptLines isTested true { letters := text.toList, count } fuel
termination_by structural fuel => fuel

def scriptLines (isTested isFirst : Bool) (reader : Reader) : Nat → Procedure Unit
  | 0 => throw .timeUp
  | fuel + 1 => do
    let aliases := (← get).aliases
    match Reader.line? { reader with aliases } with
    | none => if isFirst then setStatus 0
    | some (.error line message, _) =>
      modify ({ · with line })
      fail message
    | some (.command body documents, rest) =>
      modify fun session => { session with documents := documents ++ session.documents }
      execute isTested body fuel
      scriptLines isTested false rest fuel
termination_by structural fuel => fuel

end

end CompositeKeys.Shell.Execution
