import CompositeKeys.Files.Tree
import CompositeKeys.Shell.Arithmetic
import CompositeKeys.Text.Bytes

/-! Conditions on texts, numbers and files, as the words of a command spell them. Whether a word is
an operator depends on the words after it. -/

namespace CompositeKeys.Shell.Condition
open Files Text

inductive Kind where
  | unary
  | binary
  | conjunction
  | disjunction
  | negation
  | opening
  | closing
  deriving DecidableEq, Repr

def unaryWords : List String :=
  ["-r", "-w", "-x", "-e", "-f", "-d", "-c", "-b", "-p", "-u", "-g", "-k", "-s", "-t", "-z", "-n",
    "-h", "-O", "-G", "-L", "-S"]

def binaryWords : List String :=
  ["=", "==", "!=", "<", ">", "-eq", "-ne", "-ge", "-gt", "-le", "-lt", "-nt", "-ot", "-ef"]

def kind? (word : String) : Option Kind :=
  if unaryWords.contains word then some .unary
  else if binaryWords.contains word then some .binary
  else if word = "-a" then some .conjunction
  else if word = "-o" then some .disjunction
  else if word = "!" then some .negation
  else if word = "(" then some .opening
  else if word = ")" then some .closing
  else none

/-- What is wrong with the words of a condition. -/
inductive ConditionError where
  | unexpected (word : String)
  | noOperand (operator : String)
  | unclosed
  | number (text : String)
  deriving DecidableEq, Repr

def ConditionError.message : ConditionError → String
  | .unexpected word => if word = "" then "unexpected operator" else s!"{word}: unexpected operator"
  | .noOperand operator => s!"{operator}: argument expected"
  | .unclosed => "closing paren expected"
  | .number text => s!"Illegal number: {text}"

/-- The words of a condition, and the place that has been reached in them. -/
structure Words where
  words : Array String
  place : Nat := 0

abbrev Reading := StateT Words (Except ConditionError)

/-- Whether the word after a unary operator makes an operand of it. -/
def isOperand (words : Array String) (place : Nat) : Bool :=
  match words[place + 1]?, words[place + 2]? with
  | none, _ => true
  | some _, none => false
  | some next, some _ => kind? next = some .binary

/-- The kind of the word at a place. -/
def kindAt (words : Array String) (place : Nat) : Option Kind :=
  match (words[place]?).bind kind? with
  | some .unary => if isOperand words place then none else some .unary
  | some .opening => if place + 1 < words.size then some .opening else none
  | other => other

def word? (offset : Nat) : Reading (Option String) :=
  return (← get).words[(← get).place + offset]?

def kindHere (offset : Nat) : Reading (Option Kind) :=
  return kindAt (← get).words ((← get).place + offset)

def advance (count : Nat) : Reading Unit :=
  modify fun at_ => { at_ with place := at_.place + count }

def integer (text : String) : Except ConditionError Int :=
  let letters := text.toList.dropWhile Char.isWhitespace
  let letters := (letters.reverse.dropWhile Char.isWhitespace).reverse
  let number? := fun letters : List Char =>
    if letters ≠ [] ∧ letters.all Char.isDigit then Arithmetic.inBase? 10 letters else none
  let value? : Option Int := match letters with
    | '-' :: rest => (number? rest).map fun value => -(value : Int)
    | '+' :: rest => (number? rest).map Int.ofNat
    | _ => (number? letters).map Int.ofNat
  match value? with
  | some value => .ok value
  | none => .error (.number text)

/-- The device that swallows all that is written to it. -/
def sink : String := "/dev/null"

/-- What is asked of one word. -/
def unary (tree : FileTree) (operator operand : String) : Except ConditionError Bool := do
  let isSink := operand = sink
  let path : FilePath := ⟨keepingBytes operand⟩
  let found := (tree.find path).toOption
  let entry := found.map Prod.snd
  let isDirectory := entry = some .directory
  match operator with
  | "-z" => return operand = ""
  | "-n" => return operand ≠ ""
  | "-t" => let _ ← integer operand; return false
  | "-e" | "-r" | "-w" | "-O" | "-G" => return isSink || entry.isSome
  | "-f" => return entry.isSome && !isDirectory
  | "-d" => return isDirectory
  | "-x" => return found.any fun (place, _) => isDirectory || tree.isExecutable place
  | "-h" | "-L" =>
    return match tree.findHere path with
      | .ok (_, .link _) => true
      | _ => false
  | "-c" => return isSink
  | "-u" | "-g" | "-k" =>
    let bit := if operator = "-u" then 0o4000 else if operator = "-g" then 0o2000 else 0o1000
    return found.any fun (place, _) => tree.mode place &&& bit ≠ 0
  | "-s" =>
    return match entry with
      | some (.file text) => text ≠ ""
      | other => other.isSome
  | _ => return false

def binary (tree : FileTree) (first operator second : String) : Except ConditionError Bool := do
  let place := fun path : String => (tree.find ⟨keepingBytes path⟩).toOption.map Prod.fst
  let isNewer := fun first second : String =>
    match place first, place second with
    | some first, some second => tree.isNewer first second
    | first, second => first.isSome && second.isNone
  match operator with
  | "=" | "==" => return first = second
  | "!=" => return first ≠ second
  | "<" => return first < second
  | ">" => return second < first
  | "-eq" => return (← integer first) = (← integer second)
  | "-ne" => return (← integer first) ≠ (← integer second)
  | "-ge" => return (← integer second) ≤ (← integer first)
  | "-gt" => return (← integer second) < (← integer first)
  | "-le" => return (← integer first) ≤ (← integer second)
  | "-lt" => return (← integer first) < (← integer second)
  | "-ef" => return (place first).isSome && place first = place second
  | "-nt" => return isNewer first second
  | "-ot" => return isNewer second first
  | _ => return false

mutual

def disjunction (tree : FileTree) (kind : Option Kind) : Nat → Reading Bool
  | 0 => throw .unclosed
  | fuel + 1 => do
    let first ← conjunction tree kind fuel
    if (← kindHere 1) = some .disjunction then
      advance 2
      let second ← disjunction tree (← kindHere 0) fuel
      return first || second
    return first
termination_by structural fuel => fuel

def conjunction (tree : FileTree) (kind : Option Kind) : Nat → Reading Bool
  | 0 => throw .unclosed
  | fuel + 1 => do
    let first ← negation tree kind fuel
    if (← kindHere 1) = some .conjunction then
      advance 2
      let second ← conjunction tree (← kindHere 0) fuel
      return first && second
    return first
termination_by structural fuel => fuel

def negation (tree : FileTree) (kind : Option Kind) : Nat → Reading Bool
  | 0 => throw .unclosed
  | fuel + 1 => do
    if kind ≠ some .negation then primary tree kind fuel
    else
      if (← word? 1).isNone then return true
      advance 1
      return !(← negation tree (← kindHere 0) fuel)
termination_by structural fuel => fuel

def primary (tree : FileTree) (kind : Option Kind) : Nat → Reading Bool
  | 0 => throw .unclosed
  | fuel + 1 => do
    let some word ← word? 0 | return false
    match kind with
    | some .opening =>
      advance 1
      let next ← kindHere 0
      if next = some .closing then return false
      let inner ← disjunction tree next fuel
      advance 1
      unless (← kindHere 0) = some .closing do throw .unclosed
      return inner
    | some .unary =>
      advance 1
      let some operand ← word? 0 | throw (.noOperand word)
      unary tree word operand
    | _ =>
      if (← kindHere 1) = some .binary then
        let operator := (← word? 1).getD ""
        advance 2
        let some second ← word? 0 | throw (.noOperand operator)
        binary tree word operator second
      else return word ≠ ""
termination_by structural fuel => fuel

end

/-- Evaluates words from a kind on, all but one of which have to be read. -/
def evaluate (tree : FileTree) (words : Array String) (kind : Option Kind) :
    Except ConditionError Bool := do
  let (value, after) ← (disjunction tree kind (4 * words.size + 8)).run { words }
  match words[after.place]?, words[after.place + 1]? with
  | some word, some _ => throw (.unexpected word)
  | _, _ => return value

/-- Whether a condition holds, with few words also read by their number: three with an operator in
the middle are taken as such. -/
def check (tree : FileTree) (isNegated : Bool) : List String → Except ConditionError Bool
  | [] => .ok isNegated
  | first :: rest =>
    let words := (first :: rest).toArray
    let isShort := words.size = 3 || words.size = 4
    if words.size = 3 && rest.head?.bind kind? = some .binary then
      (evaluate tree words none).map (isNegated != ·)
    else if isShort && first = "(" && rest.getLast? = some ")" then
      let inner := rest.dropLast.toArray
      (evaluate tree inner (kindAt inner 0)).map (isNegated != ·)
    else if isShort && first = "!" then check tree true rest
    else (evaluate tree words (kindAt words 0)).map (isNegated != ·)

/-- Whether a condition holds. -/
def holds (tree : FileTree) (words : List String) : Except ConditionError Bool :=
  check tree false words

end CompositeKeys.Shell.Condition
