import CompositeKeys.Proofs.Emission.Margins

/-! The columns of a table of parameters. They begin where the widest type and the widest name end,
whatever row a line belongs to, so types, names and descriptions can be cut out of the lines again. -/

namespace CompositeKeys.Emission
open Text

namespace ParameterRow

/-- The width of the widest of the texts, counted in code points. -/
def IsWidest (texts : List String) (width : Nat) : Prop :=
  (∀ text ∈ texts, text.length ≤ width) ∧ ∃ text ∈ texts, text.length = width

def cell (line : String) (start stop : Nat) : List Char := (line.toList.take stop).drop start

/-- A text and at least one space behind it. -/
def Spaced (text : String) (letters : List Char) : Prop :=
  ∃ count, letters = text.toList ++ List.replicate (count + 1) ' '

/-- The lines of a description, of which there is always one. -/
def described (row : ParameterRow) : List String :=
  if lines row.description = [] then [""] else lines row.description

/-- Where names and descriptions begin. -/
structure Columns where
  name : Nat
  description : Nat

namespace Columns

/-- The columns leave room for the widest type in its braces and for the widest name, and for nothing
else. -/
structure Fit (columns : Columns) (rows : List ParameterRow) : Prop where
  types : ∃ width, IsWidest (rows.map typeName) width ∧
    columns.name = " * @param ".length + (width + 2) + 1
  names : ∃ width, IsWidest (rows.map ParameterRow.name) width ∧
    columns.description = columns.name + width + 1

structure Heads (columns : Columns) (row : ParameterRow) (line : String) : Prop where
  mark : cell line 0 " * @param ".length = " * @param ".toList
  typeName : Spaced row.braced (cell line " * @param ".length columns.name)
  name : Spaced row.name (cell line columns.name columns.description)

/-- The lines of a row: the first one with its cells, and under it further ones that hold nothing but
the rest of the description. -/
structure Grouped (columns : Columns) (row : ParameterRow) (group : List String) : Prop where
  reach : ∀ line ∈ group, columns.description ≤ line.length
  described : group.map (fun line => line.toList.drop columns.description) =
    row.described.map String.toList
  headed : ∃ first further, group = first :: further ∧ columns.Heads row first ∧
    ∀ line ∈ further, Spaced " *" (cell line 0 columns.description)

end Columns

section Cells

theorem cell_of_parts {line : String} {start stop : Nat} (before inside after : List Char)
    (parts : line.toList = before ++ inside ++ after)
    (begins : before.length = start) (ends : start + inside.length = stop) :
    cell line start stop = inside := by
  subst begins ends
  rw [cell, parts, List.take_left' (by simp), List.drop_left]

theorem toList_padded (width : Nat) (text : String) :
    (padded width text).toList = text.toList ++ List.replicate (width - text.length) ' ' := by
  simp [padded]

theorem length_padded {width : Nat} {text : String} (fits : text.length ≤ width) :
    (padded width text).toList.length = width := by
  rw [toList_padded, List.length_append, List.length_replicate, String.length_toList]
  omega

theorem spaced_padded (width : Nat) (text : String) :
    Spaced text ((padded width text).toList ++ [' ']) :=
  ⟨width - text.length, by rw [toList_padded, List.append_assoc, List.replicate_succ']⟩

theorem isWidest_widest {texts : List String} (some : texts ≠ []) : IsWidest texts (widest texts) := by
  obtain ⟨width, greatest⟩ : ∃ width, (texts.map String.length).max? = .some width :=
    Option.ne_none_iff_exists'.mp fun none => some (by simpa using none)
  have same : widest texts = width := by
    rw [widest, List.foldl_max, greatest]
    simp
  obtain ⟨member, above⟩ := List.max?_eq_some_iff.mp greatest
  rw [same]
  exact ⟨fun text among => above _ (List.mem_map_of_mem among), List.mem_map.mp member⟩

end Cells

/-- The first line of a row in columns of given widths. -/
def firstLine (typeWidth nameWidth : Nat) (row : ParameterRow) (text : String) : String :=
  " * @param " ++ padded typeWidth row.braced ++ " " ++ padded nameWidth row.name ++ " " ++ text

/-- A further line of a description under columns of given widths. -/
def furtherLine (typeWidth nameWidth : Nat) (text : String) : String :=
  " * " ++ padded ("@param ".length + typeWidth + 1 + nameWidth + 1) "" ++ text

def rowLines (typeWidth nameWidth : Nat) (row : ParameterRow) : List String :=
  match row.described with
  | [] => []
  | text :: rest => firstLine typeWidth nameWidth row text :: rest.map (furtherLine typeWidth nameWidth)

theorem table_eq (rows : List ParameterRow) :
    table rows = (rows.map (rowLines (widest (rows.map typeName) + 2)
      (widest (rows.map ParameterRow.name)))).flatten := by
  rw [table, List.flatMap_def]
  congr 2
  funext row
  unfold rowLines described
  cases lines row.description with
  | nil => rfl
  | cons => rfl

theorem described_ne_nil (row : ParameterRow) : row.described ≠ [] := by
  unfold described
  split
  · exact List.cons_ne_nil _ _
  next some => exact some

theorem length_braced (row : ParameterRow) : row.braced.length = row.typeName.length + 2 := by
  have braces : "\x7b".length = 1 ∧ "\x7d".length = 1 := by decide
  rw [braced, String.length_append, String.length_append, braces.1, braces.2]
  omega

def columnsOf (typeWidth nameWidth : Nat) : Columns where
  name := " * @param ".length + typeWidth + 1
  description := " * @param ".length + typeWidth + 1 + nameWidth + 1

section Lines
variable (typeWidth nameWidth : Nat) (row : ParameterRow) (text : String)

theorem firstLine_heads (typed : row.braced.length ≤ typeWidth) (named : row.name.length ≤ nameWidth) :
    (columnsOf typeWidth nameWidth).Heads row (firstLine typeWidth nameWidth row text) ∧
      (columnsOf typeWidth nameWidth).description ≤ (firstLine typeWidth nameWidth row text).length ∧
      (firstLine typeWidth nameWidth row text).toList.drop (columnsOf typeWidth nameWidth).description =
        text.toList := by
  let mark := " * @param ".toList
  let typeCell := (padded typeWidth row.braced).toList ++ [' ']
  let nameCell := (padded nameWidth row.name).toList ++ [' ']
  have markSize : mark.length = " * @param ".length := String.length_toList
  have typeSize : typeCell.length = typeWidth + 1 := by simp [typeCell, length_padded typed]
  have nameSize : nameCell.length = nameWidth + 1 := by simp [nameCell, length_padded named]
  have parts : (firstLine typeWidth nameWidth row text).toList =
      mark ++ typeCell ++ nameCell ++ text.toList := by
    simp [firstLine, mark, typeCell, nameCell]
  have front : (mark ++ typeCell ++ nameCell).length = (columnsOf typeWidth nameWidth).description := by
    simp only [List.length_append, markSize, typeSize, nameSize, columnsOf]
    omega
  refine ⟨⟨?mark, ?type, ?name⟩, ?reach, ?rest⟩
  case mark =>
    apply cell_of_parts [] mark (typeCell ++ nameCell ++ text.toList)
    · simp [parts]
    · rfl
    · exact (Nat.zero_add _).trans markSize
  case type =>
    have cut : cell (firstLine typeWidth nameWidth row text) " * @param ".length
        (columnsOf typeWidth nameWidth).name = typeCell := by
      apply cell_of_parts mark typeCell (nameCell ++ text.toList)
      · rw [parts, List.append_assoc _ nameCell]
      · exact markSize
      · rw [typeSize]
        rfl
    rw [cut]
    exact spaced_padded typeWidth row.braced
  case name =>
    have cut : cell (firstLine typeWidth nameWidth row text) (columnsOf typeWidth nameWidth).name
        (columnsOf typeWidth nameWidth).description = nameCell := by
      apply cell_of_parts (mark ++ typeCell) nameCell text.toList parts
      · rw [List.length_append, markSize, typeSize]
        rfl
      · rw [nameSize]
        rfl
    rw [cut]
    exact spaced_padded nameWidth row.name
  case reach =>
    rw [← String.length_toList, parts, List.length_append, front]
    exact Nat.le_add_right _ _
  case rest => rw [parts, ← front, List.drop_left]

theorem furtherLine_continues :
    Spaced " *" (cell (furtherLine typeWidth nameWidth text) 0
        (columnsOf typeWidth nameWidth).description) ∧
      (columnsOf typeWidth nameWidth).description ≤ (furtherLine typeWidth nameWidth text).length ∧
      (furtherLine typeWidth nameWidth text).toList.drop (columnsOf typeWidth nameWidth).description =
        text.toList := by
  let width := "@param ".length + typeWidth + 1 + nameWidth + 1
  let margin := " *".toList ++ List.replicate (width + 1) ' '
  have parts : (furtherLine typeWidth nameWidth text).toList = margin ++ text.toList := by
    simp [furtherLine, margin, width, toList_padded, List.replicate_succ]
  -- Both kinds of lines count their margin for themselves, and it comes to the same.
  have front : margin.length = (columnsOf typeWidth nameWidth).description := by
    have marks : " * @param ".length = 10 ∧ "@param ".length = 7 ∧ " *".length = 2 := by decide
    simp only [margin, width, List.length_append, List.length_replicate, String.length_toList, marks,
      columnsOf]
    omega
  refine ⟨?margin, ?reach, ?rest⟩
  case margin =>
    have cut : cell (furtherLine typeWidth nameWidth text) 0
        (columnsOf typeWidth nameWidth).description = margin :=
      cell_of_parts [] margin text.toList parts rfl ((Nat.zero_add _).trans front)
    exact cut ▸ ⟨width, rfl⟩
  case reach =>
    rw [← String.length_toList, parts, List.length_append, front]
    exact Nat.le_add_right _ _
  case rest => rw [parts, ← front, List.drop_left]

theorem rowLines_grouped (typed : row.braced.length ≤ typeWidth) (named : row.name.length ≤ nameWidth) :
    (columnsOf typeWidth nameWidth).Grouped row (rowLines typeWidth nameWidth row) := by
  have further := furtherLine_continues typeWidth nameWidth
  unfold rowLines
  cases read : row.described with
  | nil => exact absurd read row.described_ne_nil
  | cons text rest =>
    obtain ⟨heads, reach, said⟩ := firstLine_heads typeWidth nameWidth row text typed named
    refine ⟨?reach, ?described, ?headed⟩
    case reach =>
      refine List.forall_mem_cons.mpr ⟨reach, ?_⟩
      exact List.forall_mem_map.mpr fun text _ => (further text).2.1
    case described =>
      rw [read, List.map_cons, List.map_cons, said, List.map_map]
      exact congrArg _ (List.map_congr_left fun text _ => (further text).2.2)
    case headed =>
      exact ⟨_, _, rfl, heads, List.forall_mem_map.mpr fun text _ => (further text).1⟩

end Lines

/-- A table lists its rows one after another in common columns: types, names and the lines of every
description, the first one and the further ones, begin where the widest type and the widest name leave
room for them. -/
theorem table_aligned {rows : List ParameterRow} (some : rows ≠ [])
    (oneLine : ∀ row ∈ rows, OneLine row.typeName ∧ OneLine row.name) :
    ∃ columns : Columns, columns.Fit rows ∧
      (∃ groups, table rows = groups.flatten ∧ List.Forall₂ columns.Grouped rows groups) ∧
      ∀ line ∈ table rows, OneLine line := by
  let typeWidth := widest (rows.map typeName)
  let nameWidth := widest (rows.map ParameterRow.name)
  have types : IsWidest (rows.map typeName) typeWidth :=
    isWidest_widest (by simpa using some)
  have names : IsWidest (rows.map ParameterRow.name) nameWidth :=
    isWidest_widest (by simpa using some)
  refine ⟨columnsOf (typeWidth + 2) nameWidth, ⟨⟨typeWidth, types, rfl⟩, ⟨nameWidth, names, rfl⟩⟩,
    ⟨_, table_eq rows, ?_⟩, table_oneLine oneLine⟩
  rw [List.forall₂_map_right_iff, List.forall₂_same]
  intro row member
  apply rowLines_grouped
  · rw [length_braced]
    exact Nat.add_le_add_right (types.1 _ (List.mem_map_of_mem member)) 2
  · exact names.1 _ (List.mem_map_of_mem member)

/-- Letters outside ASCII take one column each. -/
theorem accented_table_aligned :
    let rows : List ParameterRow := [⟨"Café", "prix", "Le prix.\nEn euros."⟩, ⟨"*", "x", ""⟩]
    (∃ columns : Columns, columns.Fit rows ∧
      (∃ groups, table rows = groups.flatten ∧ List.Forall₂ columns.Grouped rows groups) ∧
      ∀ line ∈ table rows, OneLine line) ∧
    table rows = [" * @param \x7bCafé\x7d prix Le prix.", " *                    En euros.",
      " * @param \x7b*\x7d    x    "] :=
  ⟨table_aligned (by decide) (by decide), by decide +kernel⟩

end ParameterRow

end CompositeKeys.Emission
