import CompositeKeys.Toml.Scalar
import CompositeKeys.Toml.Tree

/-! A document is a sequence of lines: assignments, and headers that say which table the assignments
below them belong to. Spacing and comments may surround either, and anything inside an array. -/

namespace CompositeKeys.Toml
open Records

/-- A reader takes letters from the front, or refuses them. -/
abbrev Reading := StateT (List Char) Option

namespace Reading

def skipSpacing : Reading Unit := modify (·.dropWhile isSpacing)

/-- Whether the next letter is the given one, which is taken then. -/
def takes (letter : Char) : Reading Bool := do
  match ← get with
  | first :: rest => if first = letter then set rest; return true else return false
  | [] => return false

def expect (letter : Char) : Reading Unit := do
  unless ← takes letter do failure

/-- Takes a comment, which reaches to the end of its line. -/
def skipComment : Reading Unit := do
  if (← get).head? = some '#' then modify (·.dropWhile (!isControl ·))

/-- Takes a line end, if there is one. -/
def takesLineEnd : Reading Bool := do
  match ← get with
  | '\n' :: rest | '\r' :: '\n' :: rest => set rest; return true
  | _ => return false

/-- Ends a line. -/
def endLine : Reading Unit := do
  skipSpacing
  skipComment
  unless ← takesLineEnd do
    unless (← get).isEmpty do failure

/-- Takes spacing, comments and line ends. -/
def skipGap : Nat → Reading Unit
  | 0 => failure
  | fuel + 1 => do
    skipSpacing
    skipComment
    if ← takesLineEnd then skipGap fuel

def isBareKey (letter : Char) : Bool := letter.isAlphanum || letter = '_' || letter = '-'

def simpleKey : Reading String := do
  match shortQuotation? (← get) with
  | some (key, rest) => set rest; return .ofList key
  | none =>
    let key := (← get).takeWhile isBareKey
    if key.isEmpty then failure
    modify (·.drop key.length)
    return .ofList key

/-- The number of keys that a key with dots may have, and the depth to which arrays and inline
tables may be nested. -/
def depthLimit : Nat := 80

/-- Reads a key with at most the given number of keys between dots: the keys before the last one,
and that one. -/
def dottedKey : Nat → Reading (List String × String)
  | 0 => failure
  | fuel + 1 => do
    skipSpacing
    let key ← simpleKey
    skipSpacing
    if ← takes '.' then
      let (parents, last) ← dottedKey fuel
      return (key :: parents, last)
    return ([], key)

mutual

/-- Reads a value in which arrays and inline tables are nested no deeper than `depth`. -/
def value (depth : Nat) : Nat → Reading Value
  | 0 => failure
  | fuel + 1 => do
    match ← get with
    | '[' :: rest =>
      if depth = 0 then failure
      set rest
      return .array (← items (depth - 1) fuel)
    | '\x7b' :: rest =>
      if depth = 0 then failure
      set rest
      skipSpacing
      let lines ← if ← takes '\x7d' then pure [] else inlineLines (depth - 1) fuel
      let some entries := assignAll lines [] | failure
      return .table (entriesValue entries)
    | letters =>
      if letters.head?.any fun letter => letter = '"' || letter = '\'' then
        let some (text, rest) := quotation? letters | failure
        set rest
        return .text (.ofList text)
      let (word, rest) := bareValue letters
      let some value := scalar? word | failure
      set rest
      return value

/-- Reads the items of an array up to its end; the last one may be followed by a comma. -/
def items (depth : Nat) : Nat → Reading (List Value)
  | 0 => failure
  | fuel + 1 => do
    skipGap ((← get).length + 1)
    if ← takes ']' then return []
    let item ← value depth fuel
    skipGap ((← get).length + 1)
    if ← takes ',' then return item :: (← items depth fuel)
    expect ']'
    return [item]

/-- Reads the assignments of a table on one line up to its end. -/
def inlineLines (depth : Nat) : Nat → Reading (List Assignment)
  | 0 => failure
  | fuel + 1 => do
    let line ← assignment depth fuel
    skipSpacing
    if ← takes ',' then return line :: (← inlineLines depth fuel)
    expect '\x7d'
    return [line]

/-- Reads a key and its value. -/
def assignment (depth : Nat) : Nat → Reading Assignment
  | 0 => failure
  | fuel + 1 => do
    let (parents, key) ← dottedKey depthLimit
    expect '='
    skipSpacing
    return { parents, key, value := ← value depth fuel }

end

def header : Reading Header := do
  let isItem ← takes '['
  let (parents, key) ← dottedKey depthLimit
  expect ']'
  if isItem then expect ']'
  return { parents, key, isItem }

/-- Reads the assignments up to the next header or the end. -/
def assignments : Nat → Reading (List Assignment)
  | 0 => failure
  | fuel + 1 => do
    skipGap ((← get).length + 1)
    if (← get).isEmpty || (← get).head? = some '[' then return []
    let line ← assignment depthLimit (2 * (← get).length + 3)
    endLine
    return line :: (← assignments fuel)

/-- Reads the sections up to the end. -/
def sections : Nat → Reading (List Section)
  | 0 => failure
  | fuel + 1 => do
    unless ← takes '[' do
      unless (← get).isEmpty do failure
      return []
    let header ← header
    endLine
    let lines ← assignments ((← get).length + 1)
    return { header, lines } :: (← sections fuel)

/-- Reads a whole document. A byte order mark may stand in front of it. -/
def document : Reading Value := do
  let _ ← takes '\ufeff'
  let length := (← get).length
  let lines ← assignments (length + 1)
  let sections ← sections (length + 1)
  let some entries := assignAll lines [] >>= fun root => sections.foldlM enter root | failure
  return .table (entriesValue entries)

end Reading

/-- The table that a document describes, if it is well formed. -/
def parse? (text : String) : Option Value :=
  (Reading.document.run text.toList).bind fun (value, rest) =>
    if rest.isEmpty then some value else none

end CompositeKeys.Toml
