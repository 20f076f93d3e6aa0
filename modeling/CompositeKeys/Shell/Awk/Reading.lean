import CompositeKeys.Shell.Awk.Syntax
import CompositeKeys.Shell.Awk.Value

/-! How programs for records of text are read. The text is read token by token; whether a slash
begins an expression for letters is known only where it stands. -/

namespace CompositeKeys.Shell.Awk

inductive Token where
  | ending
  | newline
  | mark (text : String)
  | number (value : Float)
  | text (letters : String)
  | name (text : String)
  | called (text : String)
  | word (text : String)
  | function (name : String)
  deriving Inhabited

/-- A token in messages. -/
def Token.title : Token → String
  | .ending => "end of file"
  | .newline => "end of line"
  | .mark spelling | .name spelling | .called spelling | .word spelling | .function spelling =>
    spelling
  | .number value => numberText "%.6g" value
  | .text letters => "\"" ++ letters ++ "\""

/-- In which part of a program something stands. -/
inductive Part where
  | outside
  | rule
  | function
  deriving DecidableEq

/-- What is left of a program, and what is known of it so far. Names are known to be tables or not
once they have been used as such. -/
structure ProgramText where
  letters : List Char
  line : Nat := 1
  tokenLine : Nat := 1
  held : Option Token := none
  parentheses : Nat := 0
  braces : Nat := 0
  loops : Nat := 0
  part : Part := .outside
  parameters : List String := []
  kinds : List (String × Bool) := []
  ownKinds : List (String × Bool) := []
  calls : List (String × Nat × Nat) := []

/-- What reads a program, or tells what is wrong with it, line by line. -/
abbrev Reading := StateT ProgramText (Except (List String))

namespace Reading

def words : List String :=
  ["BEGIN", "END", "function", "print", "printf", "if", "else", "while", "for", "do", "break",
    "continue", "next", "nextfile", "exit", "return", "delete", "in", "getline"]

/-- The marks, longer ones first. -/
def marks : List String :=
  ["&&", "||", "++", "--", "+=", "-=", "*=", "/=", "%=", "^=", "==", "<=", ">=", "!=", "!~", ">>",
    "\x7b", "\x7d", "(", ")", "[", "]", ";", ",", "+", "-", "*", "/", "%", "^", "!", ">", "<", "|",
    "?", ":", "~", "$", "="]

def refuse {α : Type} (message : String) : Reading α := do
  throw [s!"line {(← get).tokenLine}: {message}"]

/-- Whether a token ends a statement. -/
def endsStatement : Token → Bool
  | .newline | .ending => true
  | .mark text => [";", "\x7d"].contains text
  | _ => false

/-- Refuses a token. What is missing is said instead if something has not been closed. -/
def unexpected {α : Type} (token : Token) : Reading α := do
  let source ← get
  if 0 < source.parentheses && endsStatement token then refuse s!"missing ) near {token.title}"
  else if source.parentheses = 0 && token matches .mark ")" then refuse "extra ')'"
  else if token matches .ending then
    refuse (if 0 < source.braces then "missing \x7d near end of file" else
      "unexpected end of file")
  else refuse s!"syntax error at or near {token.title}"

/-- Takes letters away. -/
def drop (count : Nat) : Reading Unit :=
  modify fun source =>
    { source with
      letters := source.letters.drop count
      line := source.line + (source.letters.take count).count '\n' }

/-- Takes blanks, comments and joined lines away. -/
def skipBlanks : Nat → Reading Unit
  | 0 => pure ()
  | fuel + 1 => do
    match (← get).letters with
    | '\\' :: '\n' :: _ => drop 2; skipBlanks fuel
    | '\\' :: '\r' :: '\n' :: _ => drop 3; skipBlanks fuel
    | '#' :: rest => drop (1 + (rest.takeWhile (· ≠ '\n')).length); skipBlanks fuel
    | letter :: _ =>
      if letter ≠ '\n' && isBlank letter then drop 1; skipBlanks fuel else pure ()
    | [] => pure ()

/-- The number at the front of letters, and how many letters it takes. -/
def numberAtFront (letters : List Char) : Float × Nat :=
  let whole := letters.takeWhile Char.isDigit
  let rest := letters.drop whole.length
  let places := match rest with
    | '.' :: rest => '.' :: rest.takeWhile Char.isDigit
    | _ => []
  let rest := rest.drop places.length
  let exponent := match rest with
    | mark :: rest =>
      if "eE".contains mark then
        let sign := (rest.take 1).filter ("+-".contains ·)
        let digits := (rest.drop sign.length).takeWhile Char.isDigit
        if digits = [] then [mark] else mark :: sign ++ digits
      else []
    | [] => []
  let all := whole ++ places ++ exponent
  (numberOf (.ofList all), all.length)

/-- What the letters after a backslash stand for in a text, and how many of them. -/
def escapeAtFront (letters : List Char) : List Char × Nat :=
  let named : List (Char × Char) :=
    [('"', '"'), ('\\', '\\'), ('a', '\x07'), ('b', '\x08'), ('f', '\x0c'),
      ('n', '\n'), ('r', '\r'), ('t', '\t'), ('v', '\x0b')]
  match letters with
  | [] => (['\\'], 0)
  | letter :: rest =>
    let octal := (letters.take 3).takeWhile Formatting.isOctal
    let hexadecimal := (rest.take 2).takeWhile fun letter =>
      letter.isDigit || ('a' ≤ letter.toLower && letter.toLower ≤ 'f')
    if octal ≠ [] then
      ([Char.ofNat (((Arithmetic.inBase? 8 octal).getD 0) % 256)], octal.length)
    else if letter = 'x' && hexadecimal ≠ [] then
      ([Char.ofNat ((Arithmetic.inBase? 16 hexadecimal).getD 0)], hexadecimal.length + 1)
    else match named.lookup letter with
      | some value => ([value], 1)
      | none => (['\\', letter], 1)

/-- A text with what its backslashes stand for. -/
def unescaped : Nat → List Char → List Char
  | 0, _ | _, [] => []
  | fuel + 1, '\\' :: '\n' :: rest => unescaped fuel rest
  | fuel + 1, '\\' :: rest =>
    let (letters, count) := escapeAtFront rest
    letters ++ unescaped fuel (rest.drop count)
  | fuel + 1, letter :: rest => letter :: unescaped fuel rest

/-- The letters up to a delimiter that no backslash protects. A line may not end before it. -/
def delimited (delimiter : Char) : Bool → List Char → Option (List Char)
  | _, [] => none
  | isProtected, letter :: rest =>
    if isProtected then (delimited delimiter false rest).map (letter :: ·)
    else if letter = delimiter then some []
    else if letter = '\n' then none
    else (delimited delimiter (letter = '\\') rest).map (letter :: ·)

/-- Reads the rest of a text in quotes. -/
def quoted : Reading Token := do
  let letters := (← get).letters
  match delimited '"' false letters with
  | none =>
    let shown := String.ofList ((letters.takeWhile (· ≠ '\n')).take 10)
    refuse s!"runaway string constant \"{shown} ..."
  | some text =>
    drop (text.length + 1)
    return .text (.ofList (unescaped text.length text))

/-- Reads the rest of an expression for letters, which may already have begun. -/
def matcher (start : List Char) : Reading Expression := do
  let letters := (← get).letters
  match delimited '/' false letters with
  | none =>
    let shown := String.ofList (start ++ (letters.takeWhile (· ≠ '\n')).take 10)
    refuse s!"runaway regular expression /{shown} ..."
  | some text =>
    drop (text.length + 1)
    let spelled := withSlashes (start ++ text)
    match Regex.parse .program (.ofList spelled) with
    | .ok regex => return .matcher regex.matcher
    | .error message =>
      refuse s!"regular expression compile failed ({message})\n{String.ofList spelled}"
where
  withSlashes : List Char → List Char
    | '\\' :: '/' :: rest => '/' :: withSlashes rest
    | letter :: rest => letter :: withSlashes rest
    | [] => []

def beginsName (letter : Char) : Bool := letter.isAlpha || letter = '_'

/-- Reads the next token. -/
def token : Reading Token := do
  let source ← get
  if let some held := source.held then
    set { source with held := none }
    return held
  skipBlanks (source.letters.length + 1)
  modify fun source => { source with tokenLine := source.line }
  let letters := (← get).letters
  match letters with
  | [] => return .ending
  | '\n' :: _ => drop 1; return .newline
  | '"' :: _ => drop 1; quoted
  | letter :: rest =>
    if letter.isDigit || (letter = '.' && rest.head?.any Char.isDigit) then
      let (value, count) := numberAtFront letters
      drop count
      return .number value
    else if beginsName letter then
      let name := letters.takeWhile fun letter => beginsName letter || letter.isDigit
      let text := String.ofList name
      drop name.length
      if words.contains text then return .word text
      else if (Function.all.lookup text).isSome then return .function text
      else if (← get).letters.head? = some '(' then return .called text
      else return .name text
    else match marks.find? fun mark => mark.toList.isPrefixOf letters with
      | some mark => drop mark.length; return .mark mark
      | none => throw [s!"{(← get).tokenLine}: unexpected character '{letter}'"]

def hold (token : Token) : Reading Unit := modify ({ · with held := some token })

def isMark (token : Token) (text : String) : Bool :=
  match token with
  | .mark found => found = text
  | _ => false

def isWord (token : Token) (text : String) : Bool :=
  match token with
  | .word found => found = text
  | _ => false

/-- Whether a mark or a word comes next, which is read if it does. -/
def takes (text : String) : Reading Bool := do
  let next ← token
  if isMark next text || isWord next text then return true
  hold next
  return false

def expect (text : String) : Reading Unit := do
  let next ← token
  unless isMark next text || isWord next text do unexpected next

/-- Skips the ends of lines, and semicolons if asked to. -/
def skipLines (withSemicolons : Bool) : Nat → Reading Unit
  | 0 => pure ()
  | fuel + 1 => do
    let next ← token
    if next matches .newline || (withSemicolons && isMark next ";") then
      skipLines withSemicolons fuel
    else hold next

def skipNewlines : Reading Unit := do skipLines false ((← get).letters.length + 2)

/-- Reads something in parentheses. -/
def inParentheses {α : Type} (reading : Reading α) : Reading α := do
  expect "("
  modify fun source => { source with parentheses := source.parentheses + 1 }
  let found ← reading
  expect ")"
  modify fun source => { source with parentheses := source.parentheses - 1 }
  return found

def variableOf (name : String) : Reading Variable := do
  match (← get).parameters.findIdx? (· = name) with
  | some index => return .own index
  | none => return .shared name

/-- Takes notice that a name is used as a table, or that it is not. -/
def noteKind (name : String) (isTable : Bool) : Reading Unit := do
  let source ← get
  let isOwn := source.parameters.contains name
  let known := if isOwn then source.ownKinds else source.kinds
  match known.lookup name with
  | some before =>
    if before ≠ isTable then
      let kind := if before then "array" else "variable"
      refuse s!"illegal reference to {kind} {name}"
  | none =>
    if isOwn then set { source with ownKinds := (name, isTable) :: source.ownKinds }
    else set { source with kinds := (name, isTable) :: source.kinds }

def tableNamed (name : String) : Reading Variable := do
  noteKind name true
  variableOf name

def calculationOf : String → Option Calculation
  | "+" | "+=" => some .add
  | "-" | "-=" => some .subtract
  | "*" | "*=" => some .multiply
  | "/" | "/=" => some .divide
  | "%" | "%=" => some .remainder
  | "^" | "^=" => some .power
  | _ => none

def comparisonOf : String → Option Comparison
  | "<" => some .less
  | "<=" => some .lessOrEqual
  | "==" => some .equal
  | "!=" => some .different
  | ">" => some .greater
  | ">=" => some .greaterOrEqual
  | _ => none

/-- Whether a token can begin a value that is joined to the one before it. -/
def beginsOperand : Token → Bool
  | .number _ | .text _ | .name _ | .called _ | .function _ => true
  | .mark text => ["$", "!", "(", "++", "--"].contains text
  | _ => false

/-- Levels of operators, the loosest first: alternatives, conjunctions, membership, matching,
comparisons, joining, sums, products. -/
def levelCount : Nat := 8

mutual

/-- Reads an expression. Where output can be redirected, marks for that do not belong to it. -/
def expression (isOutput : Bool) : Nat → Reading Expression
  | 0 => refuse "too deep"
  | fuel + 1 => do
    let condition ← chain isOutput 0 fuel
    if ← takes "?" then
      skipNewlines
      let first ← expression isOutput fuel
      skipNewlines
      expect ":"
      skipNewlines
      return .choose condition first (← expression isOutput fuel)
    else return condition
termination_by structural fuel => fuel

def chain (isOutput : Bool) (level : Nat) : Nat → Reading Expression
  | 0 => refuse "too deep"
  | fuel + 1 => do
    let first ← if level < levelCount then chain isOutput (level + 1) fuel else unary isOutput fuel
    further isOutput level first fuel
termination_by structural fuel => fuel

/-- Reads what operators of a level do with a value further. -/
def further (isOutput : Bool) (level : Nat) (first : Expression) : Nat → Reading Expression
  | 0 => refuse "too deep"
  | fuel + 1 => do
    let next ← token
    let nextOperand := chain isOutput (level + 1) fuel
    match level, next with
    | 0, .mark "||" =>
      skipNewlines
      further isOutput level (.either first (← nextOperand)) fuel
    | 1, .mark "&&" =>
      skipNewlines
      further isOutput level (.both first (← nextOperand)) fuel
    | 2, .word "in" =>
      match ← token with
      | .name name => further isOutput level (.member [first] (← tableNamed name)) fuel
      | other => unexpected other
    | 3, .mark "~" => further isOutput level (.matches false first (← nextOperand)) fuel
    | 3, .mark "!~" => further isOutput level (.matches true first (← nextOperand)) fuel
    | 4, .mark text =>
      match (comparisonOf text).filter fun _ => text ≠ ">" || !isOutput with
      | some comparison =>
        further isOutput level (.compare comparison first (← nextOperand)) fuel
      | none => hold next; return first
    | 5, .mark text =>
      match first with
      | .place place =>
        if text = "=" then return .assign none place (← expression isOutput fuel)
        else match (calculationOf text).filter fun _ => text.endsWith "=" with
          | some calculation =>
            return .assign (some calculation) place (← expression isOutput fuel)
          | none =>
            hold next
            if beginsOperand next then further isOutput level (.joined first (← nextOperand)) fuel
            else return first
      | _ =>
        hold next
        if beginsOperand next then further isOutput level (.joined first (← nextOperand)) fuel
        else return first
    | 5, _ =>
      hold next
      if beginsOperand next then further isOutput level (.joined first (← nextOperand)) fuel
      else return first
    | 6, .mark text | 7, .mark text =>
      let isOfLevel := if level = 6 then ["+", "-"].contains text else ["*", "/", "%"].contains text
      match (calculationOf text).filter fun _ => isOfLevel with
      | some calculation =>
        further isOutput level (.calculate calculation first (← nextOperand)) fuel
      | none => hold next; return first
    | _, _ => hold next; return first
termination_by structural fuel => fuel

def unary (isOutput : Bool) : Nat → Reading Expression
  | 0 => refuse "too deep"
  | fuel + 1 => do
    let next ← token
    match next with
    | .mark "!" => return .not (← unary isOutput fuel)
    | .mark "-" => return .minus (← unary isOutput fuel)
    | .mark "+" => return .plus (← unary isOutput fuel)
    | _ =>
      hold next
      let first ← power fuel
      if isOutput then return first else piped first fuel
termination_by structural fuel => fuel

/-- Reads what is read from a command. -/
def piped (first : Expression) : Nat → Reading Expression
  | 0 => refuse "too deep"
  | fuel + 1 => do
    if ← takes "|" then
      expect "getline"
      let target ← target? fuel
      piped (.read (.command first) target) fuel
    else return first
termination_by structural fuel => fuel

def power : Nat → Reading Expression
  | 0 => refuse "too deep"
  | fuel + 1 => do
    let first ← stepped fuel
    if ← takes "^" then
      let next ← token
      hold next
      let second ← match next with
        | .mark text =>
          if ["!", "-", "+"].contains text then unary true fuel else power fuel
        | _ => power fuel
      return .calculate .power first second
    else return first
termination_by structural fuel => fuel

/-- Reads a value that may be counted up or down after it has been used. -/
def stepped : Nat → Reading Expression
  | 0 => refuse "too deep"
  | fuel + 1 => do
    match ← operand fuel with
    | .place place =>
      if ← takes "++" then return .step false true place
      else if ← takes "--" then return .step false false place
      else return .place place
    | other => return other
termination_by structural fuel => fuel

/-- Reads a variable, an element of a table, or a field, if one comes next. -/
def target? : Nat → Reading (Option Place)
  | 0 => refuse "too deep"
  | fuel + 1 => do
    let next ← token
    hold next
    match next with
    | .name _ | .mark "$" =>
      match ← operand fuel with
      | .place place => return some place
      | _ => unexpected next
    | _ => return none
termination_by structural fuel => fuel

/-- Reads expressions between commas. -/
def list (isOutput : Bool) : Nat → Reading (List Expression)
  | 0 => refuse "too deep"
  | fuel + 1 => do
    let first ← expression isOutput fuel
    if ← takes "," then
      skipNewlines
      return first :: (← list isOutput fuel)
    else return [first]
termination_by structural fuel => fuel

/-- Reads the arguments of a function, of which there may be none. Names alone may be tables. -/
def arguments : Nat → Reading (List Expression)
  | 0 => refuse "too deep"
  | fuel + 1 => do
    let next ← token
    hold next
    if isMark next ")" then return []
    let source ← get
    let first ← match next with
      | .name name => do
        let _ ← token
        let after ← token
        if isMark after "," || isMark after ")" then
          hold after
          pure (Expression.place (.variable (← variableOf name)))
        else
          set source
          expression false fuel
      | _ => expression false fuel
    if ← takes "," then
      skipNewlines
      let after ← token
      if isMark after ")" then unexpected after
      hold after
      return first :: (← arguments fuel)
    else return [first]
termination_by structural fuel => fuel

def operand : Nat → Reading Expression
  | 0 => refuse "too deep"
  | fuel + 1 => do
    let next ← token
    match next with
    | .number value => return .number value
    | .text letters => return .text letters
    | .mark "/" => matcher []
    | .mark "/=" => matcher ['=']
    | .mark "(" =>
      hold next
      let found ← inParentheses (list false fuel)
      match found with
      | [single] => return single
      | _ =>
        expect "in"
        match ← token with
        | .name name => return .member found (← tableNamed name)
        | other => unexpected other
    | .mark "$" =>
      let after ← token
      hold after
      match after with
      | .mark text =>
        if ["!", "-", "+"].contains text then return .place (.field (← unary true fuel))
        else return .place (.field (← operand fuel))
      | _ => return .place (.field (← operand fuel))
    | .mark "++" | .mark "--" =>
      match ← operand fuel with
      | .place place => return .step true (isMark next "++") place
      | _ => unexpected (← token)
    | .name name =>
      if ← takes "[" then
        let subscripts ← list false fuel
        expect "]"
        return .place (.element (← tableNamed name) subscripts)
      else
        noteKind name false
        return .place (.variable (← variableOf name))
    | .called name =>
      let line := (← get).tokenLine
      let given ← inParentheses (arguments fuel)
      modify fun source => { source with calls := (name, given.length, line) :: source.calls }
      return .call name given
    | .function name => builtIn name fuel
    | .word "getline" =>
      let target ← target? fuel
      if ← takes "<" then return .read (.file (← power fuel)) target
      else return .read .records target
    | other => unexpected other
termination_by structural fuel => fuel

/-- Reads the arguments of a function that the language provides. -/
def builtIn (name : String) : Nat → Reading Expression
  | 0 => refuse "too deep"
  | fuel + 1 => do
    match Function.all.lookup name with
    | none => refuse s!"function {name} never defined"
    | some (function, least, most) =>
      let next ← token
      hold next
      if !isMark next "(" then
        if function = .length then return .apply function []
        else unexpected next
      else
        let given ← inParentheses (arguments fuel)
        if given.length < least || most < given.length then
          refuse s!"wrong number of arguments in call to {name}"
        return .apply function given
termination_by structural fuel => fuel

end

/-- Reads the end of a statement. -/
def statementEnd : Reading Unit := do
  let next ← token
  match next with
  | .newline | .mark ";" => pure ()
  | .mark "\x7d" | .ending => hold next
  | _ => unexpected next

def outputMarks : List String := [">", ">>", "|"]

/-- Whether a token ends what is printed. -/
def endsOutput (token : Token) : Bool := endsStatement token || outputMarks.any (isMark token)

/-- Reads what is printed. Parentheses around all of it do not belong to it. -/
def printed (fuel : Nat) : Reading (List Expression) := do
  let next ← token
  hold next
  if endsOutput next then return []
  let source ← get
  if isMark next "(" then
    let found ← inParentheses (list false fuel)
    let after ← token
    hold after
    if endsOutput after then return found
    set source
  list true fuel

/-- Reads where output goes. -/
def direction? (fuel : Nat) : Reading (Option (Direction × Expression)) := do
  if ← takes ">" then return some (.file, ← expression true fuel)
  else if ← takes ">>" then return some (.append, ← expression true fuel)
  else if ← takes "|" then return some (.command, ← expression true fuel)
  else return none

/-- Reads an expression unless a certain mark comes next. -/
def expressionBefore (mark : String) (fuel : Nat) : Reading (Option Expression) := do
  let next ← token
  hold next
  if isMark next mark then return none else return some (← expression false fuel)

/-- Reads an expression unless the statement ends. -/
def expressionAtEnd (fuel : Nat) : Reading (Option Expression) := do
  let next ← token
  hold next
  if endsStatement next then return none else return some (← expression false fuel)

/-- Reads something in a loop. -/
def inLoop {α : Type} (reading : Reading α) : Reading α := do
  modify fun source => { source with loops := source.loops + 1 }
  let found ← reading
  modify fun source => { source with loops := source.loops - 1 }
  return found

/-- Reads the names of a variable and of a table that it goes through, if this is what comes next. -/
def eachName? : Reading (Option (Variable × Variable)) := do
  let source ← get
  match ← token with
  | .name name =>
    if ← takes "in" then
      match ← token with
      | .name table =>
        if ← takes ")" then
          noteKind name false
          return some (← variableOf name, ← tableNamed table)
      | _ => pure ()
  | _ => pure ()
  set source
  return none

mutual

def statement : Nat → Reading Statement
  | 0 => refuse "too deep"
  | fuel + 1 => do
    let next ← token
    match next with
    | .mark "\x7b" =>
      modify fun source => { source with braces := source.braces + 1 }
      .block <$> statements fuel
    | .mark ";" => return .block []
    | .word "if" =>
      let condition ← inParentheses (expression false fuel)
      skipNewlines
      let onSuccess ← bodyStatement fuel
      let source ← get
      skipLines true (source.letters.length + 2)
      if ← takes "else" then
        skipNewlines
        return .branch condition onSuccess (← bodyStatement fuel)
      set source
      return .branch condition onSuccess (.block [])
    | .word "while" =>
      let condition ← inParentheses (expression false fuel)
      return .loop condition (← loopBody fuel)
    | .word "do" =>
      skipNewlines
      let body ← inLoop (statement fuel)
      skipLines true ((← get).letters.length + 2)
      expect "while"
      let condition ← inParentheses (expression false fuel)
      statementEnd
      return .loopAfter body condition
    | .word "for" => iteration fuel
    | .word "break" =>
      if (← get).loops = 0 then refuse "break statement outside of loop"
      statementEnd
      return .leave
    | .word "continue" =>
      if (← get).loops = 0 then refuse "continue statement outside of loop"
      statementEnd
      return .again
    | .word "next" =>
      if (← get).part = .outside then refuse "improper use of next"
      statementEnd
      return .nextRecord
    | .word "nextfile" =>
      if (← get).part = .outside then refuse "improper use of nextfile"
      statementEnd
      return .nextFile
    | .word "exit" =>
      let status ← expressionAtEnd fuel
      statementEnd
      return .exit status
    | .word "return" =>
      if (← get).part ≠ .function then refuse "return outside function body"
      let value ← expressionAtEnd fuel
      statementEnd
      return .return value
    | .word "delete" =>
      match ← token with
      | .name name =>
        let table ← tableNamed name
        let subscripts ←
          if ← takes "[" then do
            let found ← list false fuel
            expect "]"
            pure (some found)
          else pure none
        statementEnd
        return .erase table subscripts
      | other => unexpected other
    | .word "print" =>
      let values ← printed fuel
      let direction ← direction? fuel
      statementEnd
      return .print false values direction
    | .word "printf" =>
      let values ← printed fuel
      if values.isEmpty then refuse "no arguments in call to printf"
      let direction ← direction? fuel
      statementEnd
      return .print true values direction
    | _ =>
      hold next
      let value ← expression false fuel
      statementEnd
      return .evaluate value
termination_by structural fuel => fuel

/-- Reads a statement that another one is about. There is none before a brace that closes. -/
def bodyStatement : Nat → Reading Statement
  | 0 => refuse "too deep"
  | fuel + 1 => do
    let next ← token
    hold next
    if isMark next "\x7d" then return .block [] else statement fuel
termination_by structural fuel => fuel

def loopBody : Nat → Reading Statement
  | 0 => refuse "too deep"
  | fuel + 1 => do
    skipNewlines
    inLoop (bodyStatement fuel)
termination_by structural fuel => fuel

def iteration : Nat → Reading Statement
  | 0 => refuse "too deep"
  | fuel + 1 => do
    expect "("
    modify fun source => { source with parentheses := source.parentheses + 1 }
    let closed := modify fun source : ProgramText =>
      { source with parentheses := source.parentheses - 1 }
    match ← eachName? with
    | some (name, table) =>
      closed
      return .each name table (← loopBody fuel)
    | none =>
      let start ← expressionBefore ";" fuel
      expect ";"
      skipNewlines
      let condition ← expressionBefore ";" fuel
      expect ";"
      skipNewlines
      let next ← expressionBefore ")" fuel
      expect ")"
      closed
      return .iterate start condition next (← loopBody fuel)
termination_by structural fuel => fuel

/-- Reads statements up to the brace that closes them. -/
def statements : Nat → Reading (List Statement)
  | 0 => refuse "too deep"
  | fuel + 1 => do
    skipLines true ((← get).letters.length + 2)
    if ← takes "\x7d" then
      modify fun source => { source with braces := source.braces - 1 }
      return []
    let first ← statement fuel
    return first :: (← statements fuel)
termination_by structural fuel => fuel

end

/-- Reads statements in braces, in a part of a program. -/
def body (part : Part) (fuel : Nat) : Reading Statement := do
  expect "\x7b"
  modify fun source => { source with part, braces := 1, loops := 0 }
  .block <$> statements fuel

/-- Reads the names of parameters. -/
def parameters : Nat → Reading (List String)
  | 0 => refuse "too deep"
  | fuel + 1 => do
    match ← token with
    | .name name =>
      if ← takes "," then
        skipNewlines
        let rest ← parameters fuel
        if rest.contains name then refuse s!"{name} is duplicated in argument list"
        return name :: rest
      else return [name]
    | other => unexpected other

/-- Reads the definition of a function. -/
def definition (fuel : Nat) : Reading Definition := do
  match ← token with
  | .name name | .called name =>
    let parameters ← inParentheses do
      let next ← token
      hold next
      if isMark next ")" then pure [] else parameters fuel
    modify ({ · with parameters, ownKinds := [] })
    skipNewlines
    let body ← body .function fuel
    modify ({ · with parameters := [], ownKinds := [] })
    return { name, parameters, body }
  | other => unexpected other

/-- Reads a rule: a condition, statements, or both. -/
def rule (fuel : Nat) : Reading (Condition × Statement) := do
  let next ← token
  hold next
  if isMark next "\x7b" then return (.always, ← body .rule fuel)
  let start ← expression false fuel
  let condition ←
    if ← takes "," then do
      skipNewlines
      pure (Condition.between start (← expression false fuel))
    else pure (Condition.when start)
  let next ← token
  hold next
  if isMark next "\x7b" then return (condition, ← body .rule fuel)
  match next with
  | .newline | .ending | .mark ";" => return (condition, .print false [] none)
  | _ => unexpected next

/-- Reads the parts of a program. -/
def programParts (fuel : Nat) : Nat → Program → Reading Program
  | 0, _ => refuse "too deep"
  | count + 1, program => do
    skipLines true ((← get).letters.length + 2)
    let next ← token
    match next with
    | .ending => return program
    | .word "BEGIN" =>
      let body ← body .outside fuel
      programParts fuel count { program with atStart := program.atStart ++ [body] }
    | .word "END" =>
      let body ← body .outside fuel
      programParts fuel count { program with atEnd := program.atEnd ++ [body] }
    | .word "function" =>
      let found ← definition fuel
      programParts fuel count { program with functions := program.functions ++ [found] }
    | .mark "\x7d" =>
      let line := (← get).tokenLine
      let after ← token
      throw [s!"line {line}: extra '\x7d'",
        s!"line {line}: syntax error at or near {after.title}"]
    | _ =>
      hold next
      let found ← rule fuel
      programParts fuel count { program with rules := program.rules ++ [found] }

/-- Makes sure that all functions are there that are called, and that they take the arguments. -/
def checkCalls (program : Program) : Reading Unit := do
  let source ← get
  for (name, count, line) in source.calls.reverse do
    match program.functions.find? (·.name = name) with
    | none => throw [s!"line {source.line}: function {name} never defined"]
    | some found =>
      if found.parameters.length < count then
        throw [s!"line {line}: too many arguments in call to {name}"]

end Reading

/-- The program that a text spells, or what is wrong with it. -/
def Program.ofText (text : String) : Except (List String) Program := do
  let letters := text.toList ++ ['\n']
  let fuel := 40 * (letters.length + 10)
  let work : Reading Program := do
    let program ← Reading.programParts fuel fuel {}
    Reading.checkCalls program
    return program
  let (program, _) ← work.run { letters }
  return program

end CompositeKeys.Shell.Awk
