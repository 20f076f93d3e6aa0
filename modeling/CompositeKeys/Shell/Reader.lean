import CompositeKeys.Shell.Command

/-! How scripts are read. A script is read one line at a time, a line being a command with all that
it takes to complete it; what comes before a line that is not well formed can be executed. -/

namespace CompositeKeys.Shell

inductive Token where
  | ending
  | newline
  | semicolon
  | ampersand
  | both
  | either
  | bar
  | opening
  | closing
  | endCase
  | redirection (descriptor : Nat) (access : Access) (stripsTabs : Bool)
  | word (parts : Word)

/-- The words that mean something of their own where a command may begin. -/
def reservedWords : List String :=
  ["!", "case", "do", "done", "elif", "else", "esac", "fi", "for", "if", "in", "then", "until",
    "while", "\x7b", "\x7d"]

/-- The letters of a word that has nothing but them, unquoted. -/
def plainText? : Word → Option String
  | [.text letters false] => some (.ofList letters)
  | _ => none

namespace Token

def reserved? : Token → Option String
  | .word parts => (plainText? parts).filter reservedWords.contains
  | _ => none

/-- Whether a token is a reserved word. -/
def is (token : Token) (word : String) : Bool := token.reserved? = some word

/-- Whether a token ends a list of commands inside of another command. -/
def endsList : Token → Bool
  | .closing | .endCase | .ending => true
  | other => ["do", "done", "elif", "else", "esac", "fi", "then", "\x7d"].any other.is

/-- A token in messages; a reserved word shows as one only where it can be one. -/
def title (mayBeReserved : Bool) : Token → String
  | .ending => "end of file"
  | .newline => "newline"
  | .semicolon => "\";\""
  | .ampersand => "\"&\""
  | .both => "\"&&\""
  | .either => "\"||\""
  | .bar => "\"|\""
  | .opening => "\"(\""
  | .closing => "\")\""
  | .endCase => "\";;\""
  | .redirection .. => "redirection"
  | .word parts =>
    match (reserved? (.word parts)).filter fun _ => mayBeReserved with
    | some name => "\"" ++ name ++ "\""
    | none => "word"

end Token

/-- A text that stands on the lines after its command, up to a line of its own that ends it. -/
structure Due where
  number : Nat
  delimiter : String
  isLiteral : Bool
  stripsTabs : Bool

/-- What is left of a script, and what is known of the line that is being read. -/
structure Reader where
  letters : List Char
  line : Nat := 1
  held : Option Token := none
  due : List Due := []
  documents : List (Nat × Word) := []
  count : Nat := 0
  aliases : List (String × String) := []
  inUse : List (String × Nat) := []

abbrev Reading := StateT Reader (Except (Nat × String))

/-- Where a run of parts ends. -/
inductive Stop where
  | word
  | quote
  | brace
  | document
  | arithmetic
  deriving DecidableEq

namespace Reading

def refuse {α : Type} (message : String) : Reading α := do
  throw ((← get).line, "Syntax error: " ++ message)

/-- Refuses a token, in a place where a certain token may be wanted. -/
def unexpected {α : Type} (token : Token) (expected : Option String := none)
    (mayBeReserved : Bool := true) : Reading α :=
  let title := token.title mayBeReserved
  refuse (match expected with
    | some wanted => s!"{title} unexpected (expecting \"{wanted}\")"
    | none => s!"{title} unexpected")

/-- Drops letters that have been read. -/
def drop (count : Nat) : Reading Unit :=
  modify fun reader =>
    { reader with
      letters := reader.letters.drop count
      line := reader.line + (reader.letters.take count).count '\n' }

def endsWord (letter : Char) : Bool :=
  [' ', '\t', '\n', ';', '&', '|', '<', '>', '(', ')'].contains letter

def beginsName (letter : Char) : Bool := letter.isAlpha || letter = '_'

def continuesName (letter : Char) : Bool := letter.isAlphanum || letter = '_'

def isName (text : String) : Bool :=
  text.toList.head?.any beginsName && text.toList.all continuesName

def isSpecial (letter : Char) : Bool :=
  letter.isDigit || ['@', '*', '#', '?', '-', '$', '!'].contains letter

/-- Puts a part in front of others, joining texts. -/
def withPart (part : Part) (parts : Word) : Word :=
  match part, parts with
  | .text first isQuoted, .text second other :: rest =>
    if isQuoted = other then .text (first ++ second) isQuoted :: rest else part :: parts
  | _, _ => part :: parts

/-- Skips blanks, comments and joined lines in front of a token. -/
def skipBlanks : Nat → Reading Unit
  | 0 => pure ()
  | fuel + 1 => do
    match (← get).letters with
    | ' ' :: _ | '\t' :: _ => drop 1; skipBlanks fuel
    | '\\' :: '\n' :: _ => drop 2; skipBlanks fuel
    | '#' :: rest => drop (1 + (rest.takeWhile (· ≠ '\n')).length)
    | _ => pure ()

/-- Takes the letters up to a quote, which have no meaning of their own. -/
def singleQuoted : Reading Part := do
  let letters := (← get).letters
  let text := letters.takeWhile (· ≠ '\'')
  drop (text.length + 1)
  if text.length = letters.length then refuse "Unterminated quoted string"
  return .text text true

/-- The text between reversed quotes, without the backslashes that protect letters in it. -/
def reversedQuoted (isQuoted : Bool) : Nat → List Char → Option (List Char × Nat)
  | 0, _ | _, [] => none
  | fuel + 1, letter :: rest =>
    let more := fun (read : List Char) (count : Nat) rest =>
      (reversedQuoted isQuoted fuel rest).map fun (text, total) => (read ++ text, total + count)
    if letter = '\x60' then some ([], 1)
    else if letter = '\\' then
      match rest with
      | next :: after =>
        if ['\x60', '\\', '$'].contains next || (isQuoted && next = '"') then more [next] 2 after
        else more [letter] 1 rest
      | [] => more [letter] 1 rest
    else more [letter] 1 rest

/-- The operator that a letter is after the name of a parameter. -/
def fallback? : Char → Option Fallback
  | '-' => some .replace
  | '=' => some .assign
  | '?' => some .fail
  | '+' => some .invert
  | _ => none

/-- The name of a parameter. Only in braces has a number more than one digit. -/
def parameterName (inBraces : Bool) : Reading String := do
  let name : List Char := match (← get).letters with
    | letters@(first :: _) =>
      if beginsName first then letters.takeWhile continuesName
      else if inBraces && first.isDigit then letters.takeWhile Char.isDigit
      else if isSpecial first then [first]
      else []
    | [] => []
  drop name.length
  return .ofList name

/-- Reads the lines of a text that a command has been given. -/
def documentLines (due : Due) : Nat → Reading (List Char)
  | 0 => return []
  | fuel + 1 => do
    let letters := (← get).letters
    if letters = [] then return []
    let whole := letters.takeWhile (· ≠ '\n')
    drop (whole.length + 1)
    let line := if due.stripsTabs then whole.dropWhile (· = '\t') else whole
    if line = due.delimiter.toList then return []
    let ending := if whole.length < letters.length then ['\n'] else []
    return line ++ ending ++ (← documentLines due fuel)

/-- What a redirection is by its letters, and how many these are. -/
def access? : List Char → Option (Access × Bool × Nat)
  | '>' :: '>' :: _ => some (.append, false, 2)
  | '>' :: '&' :: _ | '<' :: '&' :: _ => some (.duplicate, false, 2)
  | '>' :: '|' :: _ => some (.overwrite, false, 2)
  | '>' :: _ => some (.write, false, 1)
  | '<' :: '<' :: '-' :: _ => some (.here, true, 3)
  | '<' :: '<' :: _ => some (.here, false, 2)
  | '<' :: '>' :: _ => some (.update, false, 2)
  | '<' :: _ => some (.read, false, 1)
  | _ => none

/-- The redirection at the front of letters. -/
def redirection? (letters : List Char) : Option (Token × Nat) :=
  let (digit, rest) := match letters with
    | first :: rest => if first.isDigit then (some first, rest) else (none, letters)
    | [] => (none, [])
  (access? rest).map fun (access, stripsTabs, count) =>
    let usual := if rest.head? = some '>' then 1 else access.descriptor
    (.redirection ((digit.map fun digit => digit.toNat - '0'.toNat).getD usual) access stripsTabs,
      count + if digit.isSome then 1 else 0)

/-- The name and the beginning of the value of an assignment. -/
def assignment? : Word → Option (String × Word)
  | .text letters false :: rest =>
    let name := letters.takeWhile (· ≠ '=')
    if isName (.ofList name) && name.length < letters.length then
      let value := letters.drop (name.length + 1)
      some (.ofList name, if value = [] then rest else .text value false :: rest)
    else none
  | _ => none

/-- Puts the text that a word stands for in front of what is left to be read, where it may stand for
one, and unless the word has come from that text. -/
def replaced (parts : Word) (mayBe : Bool) : Reading Bool := do
  if !mayBe then return false
  let reader ← get
  let count := reader.letters.length
  let inUse := reader.inUse.filter (·.2 < count)
  match (plainText? parts).bind fun name => (reader.aliases.lookup name).map (name, ·) with
  | none => return false
  | some (name, text) =>
    if (inUse.lookup name).isSome then return false
    set { reader with
      letters := text.toList ++ reader.letters
      inUse := (name, count) :: inUse }
    return true

def sequence : Command → Command → Command
  | .nothing, second => second
  | first, second => .sequence first second

mutual

/-- Reads the parts of a word or of a quoted text. -/
def parts (isQuoted : Bool) (stop : Stop) (depth : Nat) : Nat → Reading Word
  | 0 => refuse "too deep"
  | fuel + 1 => do
    let more := fun (part : Part) => return withPart part (← parts isQuoted stop depth fuel)
    match (← get).letters with
    | [] =>
      match stop with
      | .word | .document => return []
      | .quote => refuse "Unterminated quoted string"
      | .brace => refuse (if isQuoted then "Unterminated quoted string" else "Missing '\x7d'")
      | .arithmetic => refuse "Missing '))'"
    | letter :: rest =>
      if stop = .word && endsWord letter then return []
      drop 1
      if letter = '\\' then
        match rest with
        | [] => more (.text ['\\'] isQuoted)
        | '\n' :: _ => drop 1; parts isQuoted stop depth fuel
        | next :: _ =>
          let protects := !isQuoted || ['$', '\x60', '\\'].contains next
            || (next = '"' && stop ≠ .document) || (next = '\x7d' && stop = .brace)
          if protects then drop 1; more (.text [next] true)
          else more (.text ['\\'] isQuoted)
      else if letter = '$' then
        let found ← dollar isQuoted fuel
        return found.foldr withPart (← parts isQuoted stop depth fuel)
      else if letter = '\x60' then
        let some (text, count) := reversedQuoted isQuoted (rest.length + 1) rest
          | do drop rest.length; refuse "EOF in backquote substitution"
        drop count
        more (.output (← inner text fuel) isQuoted)
      else if letter = '"' then
        match stop, isQuoted with
        | .quote, _ => return []
        | .document, _ => more (.text ['"'] isQuoted)
        | .arithmetic, _ => parts isQuoted stop depth fuel
        | _, _ =>
          let found ← parts true .quote 0 fuel
          let whole := if found.isEmpty then [Part.text [] true] else found
          return whole.foldr withPart (← parts isQuoted stop depth fuel)
      else if letter = '\'' && !isQuoted then more (← singleQuoted)
      else if letter = '\x7d' && stop = .brace then return []
      else if stop = .arithmetic && letter = '(' then
        return withPart (.text ['('] isQuoted) (← parts isQuoted stop (depth + 1) fuel)
      else if stop = .arithmetic && letter = ')' then
        if 0 < depth then
          return withPart (.text [')'] isQuoted) (← parts isQuoted stop (depth - 1) fuel)
        else if rest.head? = some ')' then drop 1; return []
        else more (.text [')'] isQuoted)
      else more (.text [letter] isQuoted)
termination_by structural fuel => fuel

/-- Reads the commands in a text of their own. -/
def inner (text : List Char) : Nat → Reading (List Command)
  | 0 => refuse "too deep"
  | fuel + 1 => do
    let reader ← get
    set { reader with letters := text, held := none }
    let body ← list false true .nothing fuel
    let next ← token false fuel
    unless next matches .ending do unexpected next (some "end of file")
    modify fun done => { done with letters := reader.letters, line := reader.line, held := none }
    return [body]
termination_by structural fuel => fuel

/-- Reads what follows a dollar sign. -/
def dollar (isQuoted : Bool) : Nat → Reading Word
  | 0 => refuse "too deep"
  | fuel + 1 => do
    match (← get).letters with
    | '(' :: '(' :: _ => drop 2; return [.arithmetic (← parts true .arithmetic 0 fuel) isQuoted]
    | '(' :: _ =>
      drop 1
      let held := (← get).held
      modify ({ · with held := none })
      let body ← list false true .nothing fuel
      expectClosing true fuel
      modify ({ · with held })
      return [.output [body] isQuoted]
    | '\x7b' :: '#' :: '\x7d' :: _ => drop 3; return [.parameter "#" .plain isQuoted]
    | '\x7b' :: '#' :: next :: _ =>
      if beginsName next || (isSpecial next && !(['?', '-', '#'].contains next)) then
        drop 2
        let name ← parameterName true
        if (← get).letters.head? = some '\x7d' then
          drop 1
          return [.parameter name .size isQuoted]
        let _ ← parts isQuoted .brace 0 fuel
        return [.parameter name .malformed isQuoted]
      else
        drop 1
        braces isQuoted fuel
    | '\x7b' :: _ => drop 1; braces isQuoted fuel
    | _ =>
      let name ← parameterName false
      return [if name = "" then .text ['$'] isQuoted else .parameter name .plain isQuoted]
termination_by structural fuel => fuel

/-- Reads a parameter in braces. -/
def braces (isQuoted : Bool) : Nat → Reading Word
  | 0 => refuse "too deep"
  | fuel + 1 => do
    let name ← parameterName true
    let form := fun (form : Word → Form) => do
      let word ← parts isQuoted .brace 0 fuel
      return [Part.parameter name (form word) isQuoted]
    match (← get).letters with
    | '\x7d' :: _ =>
      drop 1
      return [.parameter name (if name = "" then .malformed else .plain) isQuoted]
    | ':' :: mark :: _ =>
      match fallback? mark with
      | some fallback => drop 2; form (.without true fallback)
      | none => form fun _ => .malformed
    | '%' :: '%' :: _ => drop 2; trimming name true true isQuoted fuel
    | '%' :: _ => drop 1; trimming name true false isQuoted fuel
    | '#' :: '#' :: _ => drop 2; trimming name false true isQuoted fuel
    | '#' :: _ => drop 1; trimming name false false isQuoted fuel
    | mark :: _ =>
      match fallback? mark with
      | some fallback => drop 1; form (.without false fallback)
      | none => form fun _ => .malformed
    | [] => form fun _ => .malformed
termination_by structural fuel => fuel

/-- Reads the pattern that is taken off the value of a parameter. Quotes around the parameter do not
quote the pattern. -/
def trimming (name : String) (atEnd isLongest isQuoted : Bool) : Nat → Reading Word
  | 0 => refuse "too deep"
  | fuel + 1 => do
    let pattern ← parts false .brace 0 fuel
    return [.parameter name (.trimmed atEnd isLongest pattern) isQuoted]
termination_by structural fuel => fuel

/-- Reads the texts that are due, where a line ends. -/
def dueDocuments : Nat → Reading Unit
  | 0 => refuse "too deep"
  | fuel + 1 => do
    match (← get).due with
    | [] => pure ()
    | due :: rest =>
      modify ({ · with due := rest })
      let text ← documentLines due ((← get).letters.length + 1)
      let document ←
        if due.isLiteral then pure [Part.text text true]
        else do
          let reader ← get
          set { reader with letters := text }
          let document ← parts true .document 0 fuel
          modify ({ · with letters := reader.letters, line := reader.line })
          pure document
      modify fun reader => { reader with documents := (due.number, document) :: reader.documents }
      dueDocuments fuel
termination_by structural fuel => fuel

/-- Reads a token, skipping line ends if asked to. -/
def token (skipsLines : Bool) : Nat → Reading Token
  | 0 => refuse "too deep"
  | fuel + 1 => do
    let reader ← get
    match reader.held with
    | some found =>
      set { reader with held := none }
      if skipsLines && found matches .newline then token skipsLines fuel else return found
    | none =>
      skipBlanks (reader.letters.length + 1)
      let letters := (← get).letters
      let take := fun (count : Nat) (found : Token) => do drop count; return found
      match letters with
      | [] => dueDocuments fuel; return .ending
      | '\n' :: _ =>
        drop 1
        dueDocuments fuel
        if skipsLines then token skipsLines fuel else return .newline
      | ';' :: ';' :: _ => take 2 .endCase
      | ';' :: _ => take 1 .semicolon
      | '&' :: '&' :: _ => take 2 .both
      | '&' :: _ => take 1 .ampersand
      | '|' :: '|' :: _ => take 2 .either
      | '|' :: _ => take 1 .bar
      | '(' :: _ => take 1 .opening
      | ')' :: _ => take 1 .closing
      | _ =>
        match redirection? letters with
        | some (found, count) => take count found
        | none => return .word (← parts false .word 0 fuel)
termination_by structural fuel => fuel

/-- Reads a parenthesis that has to close. -/
def expectClosing (mayBeReserved : Bool) : Nat → Reading Unit
  | 0 => refuse "too deep"
  | fuel + 1 => do
    let found ← token false fuel
    unless found matches .closing do unexpected found (some ")") mayBeReserved
termination_by structural fuel => fuel

/-- Reads a reserved word that has to stand next. -/
def expectWord (word : String) (skipsLines : Bool) : Nat → Reading Unit
  | 0 => refuse "too deep"
  | fuel + 1 => do
    let found ← token skipsLines fuel
    unless found.is word do unexpected found (some word)
termination_by structural fuel => fuel

/-- Reads commands up to the end of a line at the outermost level, and up to a token that ends them
inside of another command. -/
def list (isOutermost mayEnd : Bool) (before : Command) : Nat → Reading Command
  | 0 => refuse "too deep"
  | fuel + 1 => do
    let first ← token (!isOutermost) fuel
    match first with
    | .newline => return before
    | _ =>
      modify ({ · with held := some first })
      if first matches .ending then return before
      if !isOutermost && mayEnd && first.endsList then return before
      let command ← andOr fuel
      let next ← token false fuel
      match next with
      | .ampersand => list isOutermost true (sequence before (.background command)) fuel
      | .semicolon => list isOutermost true (sequence before command) fuel
      | .newline =>
        if isOutermost then return sequence before command
        else list isOutermost true (sequence before command) fuel
      | _ =>
        unless next matches .ending do
          if isOutermost then unexpected next
        modify ({ · with held := some next })
        return sequence before command
termination_by structural fuel => fuel

def andOr : Nat → Reading Command
  | 0 => refuse "too deep"
  | fuel + 1 => do
    let first ← pipeline false fuel
    andOrAfter first fuel
termination_by structural fuel => fuel

/-- Reads what else is done under the condition that a command succeeds or fails. -/
def andOrAfter (before : Command) : Nat → Reading Command
  | 0 => refuse "too deep"
  | fuel + 1 => do
    match ← token false fuel with
    | .both => andOrAfter (.both before (← pipeline true fuel)) fuel
    | .either => andOrAfter (.either before (← pipeline true fuel)) fuel
    | next => modify ({ · with held := some next }); return before
termination_by structural fuel => fuel

def pipeline (skipsLines : Bool) : Nat → Reading Command
  | 0 => refuse "too deep"
  | fuel + 1 => do
    let first ← token skipsLines fuel
    let isNegated := first.is "!"
    unless isNegated do modify ({ · with held := some first })
    let stage ← command fuel
    let stages ← stagesAfter fuel
    let whole := if stages.isEmpty then stage else .pipe (stage :: stages)
    return if isNegated then .negated whole else whole
termination_by structural fuel => fuel

def stagesAfter : Nat → Reading (List Command)
  | 0 => refuse "too deep"
  | fuel + 1 => do
    match ← token false fuel with
    | .bar =>
      let next ← token true fuel
      modify ({ · with held := some next })
      return (← command fuel) :: (← stagesAfter fuel)
    | next => modify ({ · with held := some next }); return []
termination_by structural fuel => fuel

/-- Reads the redirections after a command that is not a simple one. -/
def redirections : Nat → Reading (List Redirection)
  | 0 => refuse "too deep"
  | fuel + 1 => do
    match ← token false fuel with
    | .redirection descriptor access stripsTabs =>
      let found ← target descriptor access stripsTabs fuel
      return found :: (← redirections fuel)
    | next => modify ({ · with held := some next }); return []
termination_by structural fuel => fuel

/-- Reads what a redirection leads to. -/
def target (descriptor : Nat) (access : Access) (stripsTabs : Bool) : Nat → Reading Redirection
  | 0 => refuse "too deep"
  | fuel + 1 => do
    match ← token false fuel with
    | .word parts =>
      if access = .here then
        let number := (← get).count
        let letters := parts.flatMap fun
          | .text letters _ => letters
          | _ => []
        let isLiteral := parts.any fun
          | .text _ isQuoted => isQuoted
          | _ => false
        modify fun reader => { reader with
          count := number + 1
          due := reader.due ++ [{ number, delimiter := .ofList letters, isLiteral, stripsTabs }] }
        return .mk descriptor access parts number
      else return .mk descriptor access parts 0
    | found => unexpected found none false
termination_by structural fuel => fuel

def command : Nat → Reading Command
  | 0 => refuse "too deep"
  | fuel + 1 => do
    let line := (← get).line
    let first ← token false fuel
    let wrapped := fun (body : Command) => do
      match ← redirections fuel, body with
      | [], _ => return body
      | found, .redirected line (.subshell inner) _ =>
        return Command.redirected line (.subshell inner) found
      | found, _ => return Command.redirected line body found
    let word := match first with
      | .word parts => parts
      | _ => []
    if ← replaced word first.reserved?.isNone then return ← command fuel
    match first.reserved? with
    | some "if" => wrapped (← branches fuel)
    | some "while" => wrapped (← loop false fuel)
    | some "until" => wrapped (← loop true fuel)
    | some "for" => wrapped (← each line fuel)
    | some "case" => wrapped (← choice line fuel)
    | some "\x7b" =>
      let body ← list false false .nothing fuel
      expectWord "\x7d" false fuel
      wrapped body
    | some _ => unexpected first
    | none =>
      match first with
      | .opening =>
        let body ← list false false .nothing fuel
        expectClosing true fuel
        wrapped (.subshell body)
      | .word _ | .redirection .. =>
        modify ({ · with held := some first })
        simple line true [] [] [] fuel
      | _ => unexpected first
termination_by structural fuel => fuel

/-- Reads the rest of a conditional command. -/
def branches : Nat → Reading Command
  | 0 => refuse "too deep"
  | fuel + 1 => do
    let condition ← list false false .nothing fuel
    expectWord "then" false fuel
    let onSuccess ← list false false .nothing fuel
    let next ← token false fuel
    if next.is "elif" then return .branch condition onSuccess (← branches fuel)
    else if next.is "else" then
      let onFailure ← list false false .nothing fuel
      expectWord "fi" false fuel
      return .branch condition onSuccess onFailure
    else if next.is "fi" then return .branch condition onSuccess .nothing
    else unexpected next (some "fi")
termination_by structural fuel => fuel

def loop (untilSuccess : Bool) : Nat → Reading Command
  | 0 => refuse "too deep"
  | fuel + 1 => do
    let condition ← list false false .nothing fuel
    expectWord "do" false fuel
    let body ← list false false .nothing fuel
    expectWord "done" false fuel
    return .loop untilSuccess condition body
termination_by structural fuel => fuel

/-- Reads words up to the end of a line or a semicolon. -/
def wordList : Nat → Reading (List Word)
  | 0 => refuse "too deep"
  | fuel + 1 => do
    match ← token false fuel with
    | .word parts => return parts :: (← wordList fuel)
    | .newline | .semicolon => return []
    | found => unexpected found none false
termination_by structural fuel => fuel

def each (line : Nat) : Nat → Reading Command
  | 0 => refuse "too deep"
  | fuel + 1 => do
    let first ← token false fuel
    let variableName := match first with
      | .word parts => (plainText? parts).filter isName
      | _ => none
    let some name := variableName | refuse "Bad for loop variable"
    let next ← token true fuel
    let words ←
      if next.is "in" then wordList fuel
      else do
        unless next matches .semicolon do modify ({ · with held := some next })
        pure [[Part.parameter "@" .plain true]]
    expectWord "do" true fuel
    let body ← list false false .nothing fuel
    expectWord "done" false fuel
    return .each line name words body
termination_by structural fuel => fuel

/-- Reads the patterns of one case, between bars, up to the parenthesis after them. -/
def patterns (first : Token) : Nat → Reading (List Word)
  | 0 => refuse "too deep"
  | fuel + 1 => do
    match first with
    | .word pattern =>
      match ← token false fuel with
      | .bar => return pattern :: (← patterns (← token false fuel) fuel)
      | .closing => return [pattern]
      | found => unexpected found (some ")") false
    | found => unexpected found (some ")") false
termination_by structural fuel => fuel

def cases : Nat → Reading (List (List Word × Command))
  | 0 => refuse "too deep"
  | fuel + 1 => do
    let first ← token true fuel
    if first.is "esac" then return []
    let first ← if first matches .opening then token false fuel else pure first
    let patterns ← patterns first fuel
    let body ← list false true .nothing fuel
    let next ← token true fuel
    if next.is "esac" then return [(patterns, body)]
    unless next matches .endCase do unexpected next (some ";;")
    return (patterns, body) :: (← cases fuel)
termination_by structural fuel => fuel

def choice (line : Nat) : Nat → Reading Command
  | 0 => refuse "too deep"
  | fuel + 1 => do
    match ← token false fuel with
    | .word subject =>
      expectWord "in" true fuel
      return .choice line subject (← cases fuel)
    | found => refuse s!"{found.title false} unexpected (expecting word)"
termination_by structural fuel => fuel

/-- Reads a simple command, or the definition of a function. -/
def simple (line : Nat) (mayAssign : Bool) (assignments : List (String × Word))
    (words : List Word) (found : List Redirection) : Nat → Reading Command
  | 0 => refuse "too deep"
  | fuel + 1 => do
    match ← token false fuel with
    | .word parts =>
      match (assignment? parts).filter fun _ => mayAssign with
      | some assignment => simple line true (assignments ++ [assignment]) words found fuel
      | none =>
        if ← replaced parts (words.isEmpty && mayAssign && !assignments.isEmpty) then
          simple line true assignments words found fuel
        else simple line false assignments (words ++ [parts]) found fuel
    | .redirection descriptor access stripsTabs =>
      let next ← target descriptor access stripsTabs fuel
      simple line mayAssign assignments words (found ++ [next]) fuel
    | .opening =>
      match words, assignments, found with
      | [name], [], [] =>
        expectClosing false fuel
        let some name := (plainText? name).filter isName | refuse "Bad function name"
        let next ← token true fuel
        modify ({ · with held := some next })
        return .define line name (← command fuel)
      | _, _, _ =>
        modify ({ · with held := some .opening })
        return .simple line assignments words found
    | next =>
      modify ({ · with held := some next })
      return .simple line assignments words found
termination_by structural fuel => fuel

end

/-- Reads the next line of a script, unless it is at its end. -/
def line? : Reading (Option Command) := do
  modify ({ · with documents := [] })
  let reader ← get
  let added := (reader.aliases.map fun entry => entry.2.length + 1).foldl (· + ·) 0
  let fuel := 40 * (reader.letters.length + 10 * added + 4)
  let found ← list true false .nothing fuel
  match (← get).held with
  | some .ending => if found matches .nothing then return none else return some found
  | _ => return some found

end Reading

/-- The next line of a script, with what is left of it. There may be none. -/
def Reader.line? (reader : Reader) : Option (Line × Reader) :=
  match Reading.line?.run reader with
  | .error (line, message) => some (.error line message, reader)
  | .ok (none, _) => none
  | .ok (some body, rest) => some (.command body rest.documents, rest)

end CompositeKeys.Shell
