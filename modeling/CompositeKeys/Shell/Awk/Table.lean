import Std.Data.HashMap
import CompositeKeys.Shell.Awk.Value

/-! Tables of values by names. A name may be looked up as a number or as a text. The order in which
the names are gone through follows from how they have been looked up before: they stand in rows by
their spelling, those that have been looked up last at the front, and names that have only been
numbers so far stand in rows of their own. -/

namespace CompositeKeys.Shell.Awk

/-- How a name is looked up. -/
inductive Key where
  | number (value : Int)
  | text (letters : String)

def Key.name : Key → String
  | .number value => toString value
  | .text letters => letters

/-- A table. As long as it is the parts of a text in their order, and as long as no name has been
looked up as a text, there are no rows by spelling. -/
structure Table where
  values : Std.HashMap String Value := {}
  isParts : Bool := false
  hasTexts : Bool := false
  rows : Nat := 64
  texts : Array (List String) := #[]
  numbers : Array (List Int) := #[]

instance : Inhabited Table := ⟨{}⟩

/-- The number of a spelling, from which its row follows. -/
def spellingNumber (name : String) : Nat :=
  name.toList.foldl (fun number letter => ((number ^^^ letter.toNat) * 16777619) % Nat.pow 2 32)
    2166136261

namespace Table

def size (table : Table) : Nat := table.values.size

def emptyRows {α : Type} (count : Nat) : Array (List α) := Array.replicate count []

def rowOfText (table : Table) (name : String) : Nat := spellingNumber name % table.rows

def rowOfNumber (table : Table) (number : Int) : Nat := (number % (table.rows : Int)).toNat

/-- Puts an item at the front of a row. -/
def atFront {α : Type} [BEq α] (rows : Array (List α)) (row : Nat) (item : α) : Array (List α) :=
  rows.modify row fun items => item :: items.erase item

/-- How many names there may be for each row. -/
def rowLimit : Nat := 12

/-- Rows twice as many as before. Items keep their order. -/
def spread {α : Type} (rows : Array (List α)) (belongs : Nat → α → Bool) : Array (List α) :=
  let count := rows.size
  rows.mapIdx (fun row items => items.filter (belongs row)) ++
    rows.mapIdx (fun row items => items.filter (belongs (count + row)))

/-- A table with more rows if there are too many names. -/
def grown (table : Table) : Table :=
  if table.size ≤ rowLimit * table.rows then table
  else
    let after := { table with rows := 2 * table.rows }
    { after with
      texts := spread table.texts fun row name => after.rowOfText name == row
      numbers := spread table.numbers fun row number => after.rowOfNumber number == row }

/-- The table of the parts of a text. -/
def ofParts (parts : List Value) : Table :=
  { values := .ofList ((parts.zipIdx).map fun (value, index) => (toString (index + 1), value))
    isParts := !parts.isEmpty }

/-- A table whose numbers stand in rows. -/
def withNumbers (table : Table) : Table :=
  if table.isParts then
    let count := table.size
    let rows := (List.range 40).foldl (fun rows _ =>
      if count ≤ rowLimit * rows then rows else 2 * rows) 64
    let empty := { table with isParts := false, rows, numbers := emptyRows rows }
    (List.range count).foldl (fun (table : Table) (index : Nat) =>
      let number := Int.ofNat (index + 1)
      { table with numbers := atFront table.numbers (table.rowOfNumber number) number }) empty
  else if table.numbers.isEmpty then { table with numbers := emptyRows table.rows }
  else table

/-- A table whose names all stand in rows by their spelling. -/
def withTexts (table : Table) : Table :=
  if table.hasTexts then table
  else
    let table := table.withNumbers
    let texts := table.numbers.foldl (fun texts numbers =>
      numbers.foldl (fun texts number =>
        let name := toString number
        texts.modify (table.rowOfText name) (name :: ·)) texts)
      (emptyRows table.rows)
    { table with hasTexts := true, texts }

/-- Looks a name up as a text. It is entered if it may be. -/
def findText (mayEnter : Bool) (name : String) (table : Table) : Table :=
  if !mayEnter && table.values.isEmpty then table
  else
    let table := table.withTexts
    let isKnown := table.values.contains name
    if !isKnown && !mayEnter then table
    else
      let table := if isKnown then table
        else { table with values := table.values.insert name .nothing }.grown
      { table with texts := atFront table.texts (table.rowOfText name) name }

/-- Looks a name up as a number. It is entered if it may be. -/
def findNumber (mayEnter : Bool) (number : Int) (table : Table) : Table :=
  let name := toString number
  let isKnown := table.values.contains name
  if table.isParts && isKnown then table
  else if !isKnown && !mayEnter then table
  else
    let table := table.withNumbers
    let stands := (table.numbers.getD (table.rowOfNumber number) []).contains number
    let table := if stands then table
      else if table.hasTexts then table.findText mayEnter name
      else if isKnown then table
      else { table with values := table.values.insert name .nothing }.grown
    { table with numbers := atFront table.numbers (table.rowOfNumber number) number }

def find (mayEnter : Bool) (key : Key) (table : Table) : Table :=
  match key with
  | .number value => table.findNumber mayEnter value
  | .text letters => table.findText mayEnter letters

def contains (table : Table) (key : Key) : Bool := table.values.contains key.name

def get (table : Table) (key : Key) : Value := (table.values.get? key.name).getD .nothing

/-- Gives a name that has been looked up a value. -/
def set (table : Table) (key : Key) (value : Value) : Table :=
  { table with values := table.values.insert key.name value }

def erase (table : Table) (key : Key) : Table :=
  if !table.contains key then table
  else
    let table := (table.find false key).withNumbers
    let name := key.name
    let values := table.values.erase name
    if values.isEmpty then {}
    else
      { table with
        values
        texts := table.texts.map (·.filter (· ≠ name))
        numbers := table.numbers.map (·.filter fun number => toString number ≠ name) }

/-- The names in the order in which they are gone through, and the table that knows it. -/
def names (table : Table) : List String × Table :=
  let table := table.withTexts
  (table.texts.toList.flatten, table)

end Table

end CompositeKeys.Shell.Awk
