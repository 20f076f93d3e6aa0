import CompositeKeys.Emission.Defaults
import CompositeKeys.Proofs.Collection.Naming
import CompositeKeys.Proofs.Text.Comment
import CompositeKeys.Proofs.Text.Substitution

/-! The words of documentation. The texts of the tables hold at most one placeholder each, apart from
other words, and a legal text holds none, so what a filled text says is what the placeholder stands
for between the words of the table. -/

namespace CompositeKeys.Emission
open Text

/-- The placeholders as they are written. -/
def marks : List String := ["__className__", "__valueType__", "__valueDesc__", "__argList__"]

def Unmarked (text : String) : Prop := ∀ mark ∈ marks, ¬ mark.toList <:+: text.toList

instance (text : String) : Decidable (Unmarked text) := inferInstanceAs (Decidable (∀ _ ∈ _, _))

/-- A text that documentation can say in a comment: it has no placeholders and ends no comment. -/
@[mk_iff]
structure Sayable (text : String) : Prop where
  unmarked : Unmarked text
  clear : Clear text.toList

theorem byte_mem {text : String} {letter : Char} {byte : UInt8} (member : letter ∈ text.toList)
    (inside : byte ∈ String.utf8EncodeChar letter) : byte ∈ text.toByteArray.data.toList := by
  rw [← String.utf8Encode_toList, List.utf8Encode, List.toList_data_toByteArray]
  exact List.mem_flatMap.mpr ⟨letter, member, inside⟩

/-- A text without underscores and slashes, byte by byte. -/
def Plain (text : String) : Prop :=
  text.toByteArray.data.toList.all (fun byte => byte ≠ 0x5f ∧ byte ≠ 0x2f) = true

instance (text : String) : Decidable (Plain text) := inferInstanceAs (Decidable (_ = true))

/-- A placeholder needs underscores, and the end of a comment a slash. -/
theorem sayable_of_plain {text : String} (plain : Plain text) : Sayable text := by
  have bytes : ∀ letter ∈ text.toList, ∀ byte ∈ String.utf8EncodeChar letter,
      byte ≠ 0x5f ∧ byte ≠ 0x2f := by
    intro letter member byte inside
    rw [Plain, List.all_eq_true] at plain
    simpa using plain byte (byte_mem member inside)
  have underscored : ∀ mark ∈ marks, '_' ∈ mark.toList := by decide
  refine ⟨fun mark member inside => ?_, fun inside => ?_⟩
  · have underscore : '_' ∈ text.toList := inside.subset (underscored mark member)
    exact (bytes '_' underscore 0x5f (by decide)).1 rfl
  · have slash : '/' ∈ text.toList := inside.subset (by decide)
    exact (bytes '/' slash 0x2f (by decide)).2 rfl

-- Most texts of the tables are plain, and looking at their bytes is fast.
instance (text : String) : Decidable (Sayable text) :=
  if plain : Plain text then .isTrue (sayable_of_plain plain)
  else decidable_of_iff _ (sayable_iff text).symm

theorem hasToken_of_isInfix {part whole : List Char} (token : HasToken part)
    (inside : part <:+: whole) : HasToken whole := by
  obtain ⟨before, word, after, filled, worded, rfl⟩ := token
  obtain ⟨front, back, rfl⟩ := inside
  exact ⟨front ++ before, word, after ++ back, filled, worded, by simp⟩

theorem unmarked_of_legal {text : String} (legal : LegalText text) : Unmarked text := by
  have tokens : ∀ mark ∈ marks, containsReservedName mark.toList = true := by decide
  exact fun mark member inside =>
    legal.tokenless (hasToken_of_isInfix (containsReservedName_iff.mp (tokens mark member)) inside)

namespace Placeholders
variable (values : Placeholders)

def fillLetters (letters : List Char) : List Char :=
  replacing "__argList__".toList values.arguments.toList 0 <|
  replacing "__valueDesc__".toList values.valueDescription.toList 0 <|
  replacing "__valueType__".toList values.valueType.toList 0 <|
  replacing "__className__".toList values.className.toList 0 letters

theorem toList_fill (text : String) : (values.fill text).toList = values.fillLetters text.toList := by
  simp [fill, replace, fillLetters]

theorem fillLetters_unmarked {letters : List Char}
    (unmarked : ∀ mark ∈ marks, ¬ mark.toList <:+: letters) :
    values.fillLetters letters = letters := by
  simp only [marks, List.forall_mem_cons] at unmarked
  obtain ⟨className, valueType, valueDescription, arguments, -⟩ := unmarked
  rw [fillLetters, replacing_of_absent className, replacing_of_absent valueType,
    replacing_of_absent valueDescription, replacing_of_absent arguments]

theorem fill_unmarked {text : String} (unmarked : Unmarked text) : values.fill text = text := by
  rw [← String.toList_inj, toList_fill, fillLetters_unmarked values unmarked]

theorem fillLetters_cut {letter : Char} (apart : ∀ mark ∈ marks, letter ∉ mark.toList)
    (first second : List Char) : values.fillLetters (first ++ letter :: second) =
      values.fillLetters first ++ letter :: values.fillLetters second := by
  simp only [marks, List.forall_mem_cons] at apart
  obtain ⟨className, valueType, valueDescription, arguments, -⟩ := apart
  simp only [fillLetters]
  rw [replacing_cut (by decide) className, replacing_cut (by decide) valueType,
    replacing_cut (by decide) valueDescription, replacing_cut (by decide) arguments]

/-- On both sides of a letter that no placeholder has, words are filled in apart. -/
theorem toList_fill_cut (first : String) (letter : Char) (second : String) {text : String}
    (parts : text.toList = first.toList ++ letter :: second.toList)
    (apart : ∀ mark ∈ marks, letter ∉ mark.toList) :
    (values.fill text).toList = (values.fill first).toList ++ letter :: (values.fill second).toList := by
  rw [toList_fill, toList_fill, toList_fill, parts, fillLetters_cut values apart]

/-- What stands for the placeholders can be said in a comment, and so can the name of the class once
placeholders in it have been filled in. -/
structure Sayable (values : Placeholders) : Prop where
  className : Clear (values.fill "__className__").toList
  valueType : Emission.Sayable values.valueType
  valueDescription : Emission.Sayable values.valueDescription

theorem fill_valueType (unmarked : Unmarked values.valueType) :
    values.fill "__valueType__" = values.valueType := by
  have other : ¬ "__className__".toList <:+: "__valueType__".toList := by decide
  simp only [Unmarked, marks, List.forall_mem_cons] at unmarked
  obtain ⟨-, -, valueDescription, arguments, -⟩ := unmarked
  rw [← String.toList_inj, toList_fill, fillLetters, replacing_of_absent other,
    replacing_self (by decide), replacing_of_absent valueDescription, replacing_of_absent arguments]

theorem fill_valueDescription (unmarked : Unmarked values.valueDescription) :
    values.fill "__valueDesc__" = values.valueDescription := by
  have className : ¬ "__className__".toList <:+: "__valueDesc__".toList := by decide
  have valueType : ¬ "__valueType__".toList <:+: "__valueDesc__".toList := by decide
  simp only [Unmarked, marks, List.forall_mem_cons] at unmarked
  obtain ⟨-, -, -, arguments, -⟩ := unmarked
  rw [← String.toList_inj, toList_fill, fillLetters, replacing_of_absent className,
    replacing_of_absent valueType, replacing_self (by decide), replacing_of_absent arguments]

/-- What is said of the result of `get`. -/
theorem fill_result (type : Unmarked values.valueType)
    (description : Unmarked values.valueDescription) :
    values.fill "__valueType__ | undefined" = values.valueType ++ " | undefined" ∧
      values.fill "__valueDesc__ Undefined if it isn't in the collection." =
        values.valueDescription ++ " Undefined if it isn't in the collection." := by
  constructor
  · rw [← String.toList_inj, values.toList_fill_cut "__valueType__" ' ' "| undefined"
      (by decide +kernel) (by decide +kernel), values.fill_valueType type,
      values.fill_unmarked (by decide +kernel)]
    simp
  · rw [← String.toList_inj, values.toList_fill_cut "__valueDesc__" ' '
      "Undefined if it isn't in the collection." (by decide +kernel) (by decide +kernel),
      values.fill_valueDescription description, values.fill_unmarked (by decide +kernel)]
    simp

theorem clear_fill_cut (first : String) (letter : Char) (second : String) {text : String}
    (parts : text.toList = first.toList ++ letter :: second.toList)
    (apart : ∀ mark ∈ marks, letter ∉ mark.toList) (other : letter ∉ terminator)
    (one : Clear (values.fill first).toList) (two : Clear (values.fill second).toList) :
    Clear (values.fill text).toList := by
  rw [values.toList_fill_cut first letter second parts apart]
  exact one.cut two other

theorem clear_fill_sayable {text : String} (sayable : Emission.Sayable text) :
    Clear (values.fill text).toList := by
  rw [values.fill_unmarked sayable.unmarked]
  exact sayable.clear

end Placeholders

def markedTexts : List String :=
  ["Create a new __className__.", "__className__", "__valueType__", "__valueType__ | undefined",
    "__valueDesc__", "__valueDesc__ Undefined if it isn't in the collection."]

/-- A text that can be said, or one of the tables that can be said once it has been filled in. -/
def Worded (text : String) : Prop := Sayable text ∨ text ∈ markedTexts

instance (text : String) : Decidable (Worded text) := inferInstanceAs (Decidable (_ ∨ _))

theorem Worded.fill_clear {values : Placeholders} {text : String} (worded : Worded text)
    (sayable : values.Sayable) : Clear (values.fill text).toList := by
  have valueType := sayable.valueType.clear
  rw [← values.fill_valueType sayable.valueType.unmarked] at valueType
  have valueDescription := sayable.valueDescription.clear
  rw [← values.fill_valueDescription sayable.valueDescription.unmarked] at valueDescription
  rcases worded with plain | marked
  · exact values.clear_fill_sayable plain
  · simp only [markedTexts, List.mem_cons, List.not_mem_nil, or_false] at marked
    -- A placeholder of the tables stands alone, or a blank or a full stop cuts it off from the rest.
    rcases marked with rfl | rfl | rfl | rfl | rfl | rfl
    · have created : Clear (values.fill "Create a new __className__").toList :=
        values.clear_fill_cut "Create a new" ' ' "__className__" (by decide +kernel)
          (by decide +kernel) (by decide +kernel) (values.clear_fill_sayable (by decide +kernel))
          sayable.className
      exact values.clear_fill_cut "Create a new __className__" '.' "" (by decide +kernel)
        (by decide +kernel) (by decide +kernel) created (values.clear_fill_sayable (by decide +kernel))
    · exact sayable.className
    · exact valueType
    · exact values.clear_fill_cut "__valueType__" ' ' "| undefined" (by decide +kernel)
        (by decide +kernel) (by decide +kernel) valueType (values.clear_fill_sayable (by decide +kernel))
    · exact valueDescription
    · exact values.clear_fill_cut "__valueDesc__" ' ' "Undefined if it isn't in the collection."
        (by decide +kernel) (by decide +kernel) (by decide +kernel) valueDescription
        (values.clear_fill_sayable (by decide +kernel))

end CompositeKeys.Emission
