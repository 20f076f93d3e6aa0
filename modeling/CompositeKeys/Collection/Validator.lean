import CompositeKeys.Text.Blank
import CompositeKeys.Collection.Identifier

/-! A validator is written as an arrow function of one parameter, `car => car.ok`,
`(car) => car.ok` or `(car) => { return car.ok; }`. Only the expression is kept. It is later placed
inside other code, so it has to be a single closed expression without comments: brackets match,
strings and templates end, and no word of control flow occurs outside strings unless it names a
property. -/

namespace CompositeKeys.Validator
open Text

/-- Why a text is no validator. -/
inductive Fault where
  | asynchronous
  | functionKeyword
  | notArrow
  | parameterCount
  | parameterForm
  | parameterName (expected : String)
  | unbalanced
  | block
  | empty
  | comment
  | unterminated
  | statements
  | forbidden (word : String)
  deriving DecidableEq, Repr

def Fault.reason : Fault → String
  | .asynchronous => "it must not be asynchronous"
  | .functionKeyword => "it must be an arrow function, not a function or generator"
  | .notArrow => "it must be an arrow function"
  | .parameterCount => "it must take exactly one parameter"
  | .parameterForm => "its parameter must be a plain identifier"
  | .parameterName expected => s!"its parameter must be named \"{expected}\""
  | .unbalanced => "unbalanced brackets"
  | .block => "a block body must consist of a single return statement"
  | .empty => "the body is empty"
  | .comment => "comments are not allowed"
  | .unterminated => "unterminated string literal"
  | .statements => "it must be a single expression"
  | .forbidden word => s!"it must not contain \"{word}\""

/-- Words of control flow, which mean something else inside other code. -/
def forbiddenWords : List (List Char) :=
  ["throw", "return", "yield", "await", "break", "continue"].map String.toList

/-- What is open around a place in an expression. -/
inductive Opening where
  | parenthesis
  | bracket
  | brace
  | template
  | substitution
  deriving DecidableEq, Repr

/-- What the next character is read as. A slash and a dollar sign wait for the character after
them; a word carries its letters, last one first, and whether a dot stands before it. -/
inductive Reading where
  | code
  | slash
  | word (letters : List Char) (isProperty : Bool)
  | string (quote : Char)
  | stringEscape (quote : Char)
  | template
  | templateEscape
  | dollar
  deriving DecidableEq, Repr

/-- A place in an expression: the last character before it that is not blank, and the words read so
far that name no property, last one first. -/
structure Scan where
  reading : Reading := .code
  openings : List Opening := []
  previous : Option Char := none
  words : List (List Char) := []
  deriving DecidableEq, Repr

namespace Scan

/-- How reading goes on behind a bracket that has been closed. -/
def resumed : List Opening → Reading
  | .template :: _ => .template
  | _ => .code

/-- The opening that a bracket may close. -/
def closes : Char → Opening → Bool
  | ')', .parenthesis | ']', .bracket | '}', .brace | '}', .substitution => true
  | _, _ => false

def opens? : Char → Option Opening
  | '(' => some .parenthesis
  | '[' => some .bracket
  | '{' => some .brace
  | '\x60' => some .template
  | _ => none

/-- Reads a character of code. -/
def stepCode (scan : Scan) (letter : Char) : Except Fault Scan :=
  if letter = '/' then .ok { scan with reading := .slash }
  else if letter = '\'' ∨ letter = '"' then .ok { scan with reading := .string letter }
  else match opens? letter with
  | some opening =>
    .ok { scan with reading := resumed [opening], openings := opening :: scan.openings }
  | none =>
    if letter = ')' ∨ letter = ']' ∨ letter = '}' then
      match scan.openings with
      | opening :: rest =>
        if closes letter opening then .ok { scan with reading := resumed rest, openings := rest }
        else .error .unbalanced
      | [] => .error .unbalanced
    else if letter = ';' ∧ scan.openings = [] then .error .statements
    else if isWordStart letter then
      .ok { scan with reading := .word [letter] (scan.previous = some '.') }
    else .ok { scan with reading := .code }

/-- Reads a character of template text. -/
def stepTemplate (scan : Scan) (letter : Char) : Scan :=
  if letter = '\\' then { scan with reading := .templateEscape }
  else if letter = '\x60' then
    { scan with reading := resumed scan.openings.tail, openings := scan.openings.tail }
  else if letter = '$' then { scan with reading := .dollar }
  else { scan with reading := .template }

/-- Enters the word that has just ended, unless it names a property. -/
def endWord (scan : Scan) (letters : List Char) (isProperty : Bool) : Scan :=
  { scan with
    reading := .code
    words := if isProperty then scan.words else letters.reverse :: scan.words }

def read (scan : Scan) (letter : Char) : Except Fault Scan :=
  match scan.reading with
  | .code => scan.stepCode letter
  | .slash =>
    if letter = '/' ∨ letter = '*' then .error .comment else scan.stepCode letter
  | .word letters isProperty =>
    if isWordPart letter then .ok { scan with reading := .word (letter :: letters) isProperty }
    else (scan.endWord letters isProperty).stepCode letter
  | .string quote =>
    if letter = '\n' then .error .unterminated
    else if letter = '\\' then .ok { scan with reading := .stringEscape quote }
    else if letter = quote then .ok { scan with reading := .code }
    else .ok scan
  | .stringEscape quote => .ok { scan with reading := .string quote }
  | .template => .ok (scan.stepTemplate letter)
  | .templateEscape => .ok { scan with reading := .template }
  | .dollar =>
    if letter = '{' then
      .ok { scan with reading := .code, openings := .substitution :: scan.openings }
    else .ok (scan.stepTemplate letter)

def step (scan : Scan) (letter : Char) : Except Fault Scan :=
  (scan.read letter).map fun next =>
    if isBlank letter then next else { next with previous := some letter }

/-- The words that name no property, in order, once the expression has ended. -/
def finish (scan : Scan) : Except Fault (List (List Char)) :=
  match scan.reading with
  | .string _ | .stringEscape _ => .error .unterminated
  | .word letters isProperty => closed (scan.endWord letters isProperty)
  | _ => closed scan
where
  closed (scan : Scan) : Except Fault (List (List Char)) :=
    if scan.openings = [] then .ok scan.words.reverse else .error .unbalanced

end Scan

/-- The words of a closed expression that name no property. -/
def wordsOf (expression : List Char) : Except Fault (List (List Char)) := do
  let scan ← expression.foldlM Scan.step {}
  scan.finish

/-- Whether a text begins with a word that ends there. -/
def startsWithWord (word letters : List Char) : Bool :=
  match after? word letters with
  | some (letter :: _) => !isWordPart letter
  | some [] => true
  | none => false

/-- Splits the parameter from the rest of an arrow function. -/
def splitParameter? : List Char → Option (List Char × List Char)
  | '(' :: rest =>
    if ')' ∈ rest then
      some (stripped (rest.takeWhile (· ≠ ')')), (rest.dropWhile (· ≠ ')')).tail)
    else none
  | letters =>
    let ends := fun letter => isBlank letter || letter = '='
    if letters.any ends then
      some (letters.takeWhile fun letter => !ends letter,
        letters.dropWhile fun letter => !ends letter)
    else none

/-- The expression of a body: the body itself, or what a block of one statement returns. -/
def expressionOf (body : List Char) : Except Fault (List Char) :=
  match body with
  | '{' :: block => do
    let some inner := before? ['}'] block | throw .unbalanced
    let statement := stripped inner
    unless startsWithWord "return".toList statement do throw .block
    let returned := stripped (statement.drop "return".length)
    return stripped ((before? [';'] returned).getD returned)
  | _ => return body

/-- Reads the validator of a parameter and keeps its expression. -/
def parse (parameter source : String) : Except Fault String := do
  let letters := stripped source.toList
  if startsWithWord "async".toList letters then throw .asynchronous
  if startsWithWord "function".toList letters then throw .functionKeyword
  let some (declared, rest) := splitParameter? letters | throw .notArrow
  if ',' ∈ declared ∨ declared = [] then throw .parameterCount
  unless isIdentifier declared do throw .parameterForm
  unless declared = parameter.toList do throw (.parameterName parameter)
  let some body := after? "=>".toList (unindented rest) | throw .notArrow
  let expression ← expressionOf (stripped body)
  if expression = [] then throw .empty
  let words ← wordsOf expression
  match words.find? forbiddenWords.contains with
  | some word => throw (.forbidden (String.ofList word))
  | none => return String.ofList expression

end CompositeKeys.Validator
