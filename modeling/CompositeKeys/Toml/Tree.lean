import CompositeKeys.Records.Value

/-! The tree of a document while it is put together. Headers open tables and dotted keys reach into
them; which of the two has made a table decides what may still be added to it. -/

namespace CompositeKeys.Toml
open Records

/-- How a table has come to be: by a header of its own, by the longer header of a table within it,
or by a dotted key. -/
inductive Maker where
  | header
  | longerHeader
  | dottedKey
  deriving DecidableEq, Repr

inductive Node where
  | leaf (value : Value)
  | branch (maker : Maker) (entries : List (String × Node))
  | branches (items : List (List (String × Node)))

/-- The entries of a table, in the order in which their keys come up first. -/
abbrev Entries := List (String × Node)

/-- Changes what stands under a key, or enters it at the end. -/
def alter (key : String) (change : Option Node → Option Node) : Entries → Option Entries
  | [] => (change none).map fun node => [(key, node)]
  | entry :: rest =>
    if entry.1 = key then (change (some entry.2)).map fun node => (key, node) :: rest
    else (alter key change rest).map (entry :: ·)

/-- Enters a value under a dotted key, given as the keys of the tables that it reaches into and its
own. It does not reach into tables that have a header, but for the last table of an array. The
table that takes the value in has to be `open`: the one whose lines are read, or one that dotted
keys have made. -/
def assign (value : Value) (key : String) : Bool → List String → Entries → Option Entries
  | isOpen, [], entries =>
    if isOpen then alter key (fun
      | none => some (.leaf value)
      | some _ => none) entries
    else none
  | _, step :: rest, entries => alter step (fun
    | none => (assign value key true rest []).map (.branch .dottedKey)
    | some (.branch .header _) => none
    | some (.branch maker inner) =>
      (assign value key (maker = .dottedKey) rest inner).map (.branch maker)
    | some (.branches items) => do
      let last ← items.getLast?
      return .branches (items.dropLast ++ [← assign value key false rest last])
    | some (.leaf _) => none) entries

/-- One line of a table: the keys before the last one, that one, and the value. -/
structure Assignment where
  parents : List String
  key : String
  value : Value

def assignAll (assignments : List Assignment) (entries : Entries) : Option Entries :=
  assignments.foldlM
    (fun entries line => assign line.value line.key true line.parents entries) entries

/-- Opens a table, which has not been opened before. -/
def openTable (lines : List Assignment) : Option Node → Option Node
  | none => (assignAll lines []).map (.branch .header)
  | some (.branch .longerHeader entries) => (assignAll lines entries).map (.branch .header)
  | some _ => none

/-- Opens one more table of an array. -/
def openItem (lines : List Assignment) : Option Node → Option Node
  | none => (assignAll lines []).map fun item => .branches [item]
  | some (.branches items) => (assignAll lines []).map fun item => .branches (items ++ [item])
  | some _ => none

/-- Changes the node that a header names. On the way it passes through any table, and through the
last table of an array. -/
def within (key : String) (change : Option Node → Option Node) :
    List String → Entries → Option Entries
  | [], entries => alter key change entries
  | step :: rest, entries => alter step (fun
    | none => (within key change rest []).map (.branch .longerHeader)
    | some (.branch maker inner) => (within key change rest inner).map (.branch maker)
    | some (.branches items) => do
      let last ← items.getLast?
      return .branches (items.dropLast ++ [← within key change rest last])
    | some (.leaf _) => none) entries

/-- The header of a section: where it leads, and whether it opens one more table of an array. -/
structure Header where
  parents : List String
  key : String
  isItem : Bool

/-- A header with the lines below it. -/
structure Section where
  header : Header
  lines : List Assignment

def enter (entries : Entries) (part : Section) : Option Entries :=
  let change := if part.header.isItem then openItem part.lines else openTable part.lines
  within part.header.key change part.header.parents entries

mutual

def Node.value : Node → Value
  | .leaf value => value
  | .branch _ entries => .table (entriesValue entries)
  | .branches items => .array (itemsValue items)

def entriesValue : List (String × Node) → List (String × Value)
  | [] => []
  | (key, node) :: rest => (key, node.value) :: entriesValue rest

def itemsValue : List (List (String × Node)) → List Value
  | [] => []
  | item :: rest => .table (entriesValue item) :: itemsValue rest

end

end CompositeKeys.Toml
