import CompositeKeys.Collection.Naming
import CompositeKeys.Proofs.Refusal

/-! What the checks on names and texts let through, said without the functions that check. Names in
reserved form begin and end with two underscores of their own; a token is a word between such. -/

namespace CompositeKeys
open Text

def underscores : List Char := ['_', '_']

/-- The form `__x__`. -/
def ReservedForm (letters : List Char) : Prop :=
  ∃ inner, letters = underscores ++ inner ++ underscores

/-- A word between two double underscores, anywhere in a text. -/
def HasToken (letters : List Char) : Prop :=
  ∃ before word after, word ≠ [] ∧ (∀ letter ∈ word, isWordPart letter = true) ∧
    letters = before ++ (underscores ++ word ++ underscores ++ after)

/-- A name that a class or a dimension may take. -/
structure LegalName (name : String) : Prop where
  identifier : isIdentifier name.toList = true
  unreserved : ¬ ReservedForm name.toList

def Filled (text : String) : Prop :=
  ∃ letter ∈ text.toList, isBlank letter = false

/-- A text that documentation may quote. -/
structure LegalText (text : String) : Prop where
  filled : Filled text
  tokenless : ¬ HasToken text.toList

theorem isReservedName_iff {letters : List Char} :
    isReservedName letters = true ↔ ReservedForm letters ∧ '\n' ∉ letters := by
  have suffix : ∀ rest : List Char, 2 ≤ rest.length →
      (underscores <:+ '_' :: '_' :: rest ↔ ∃ inner, rest = inner ++ underscores) := by
    intro rest long
    constructor
    · rintro ⟨front, same⟩
      have shorter := congrArg List.length same
      simp only [List.length_append, List.length_cons, underscores, List.length_nil] at shorter
      match front with
      | [] | [_] => simp only [List.length_nil, List.length_singleton] at shorter; omega
      | _ :: _ :: inner =>
        simp only [List.cons_append, List.cons.injEq] at same
        exact ⟨inner, same.2.2.symm⟩
    · rintro ⟨inner, rfl⟩
      exact ⟨'_' :: '_' :: inner, rfl⟩
  simp only [isReservedName, Bool.and_eq_true, decide_eq_true_eq, List.isPrefixOf_iff_prefix,
    List.isSuffixOf_iff_suffix]
  constructor
  · rintro ⟨⟨⟨long, rest, rfl⟩, ending⟩, oneLine⟩
    simp only [List.cons_append, List.nil_append, List.length_cons] at long ending
    obtain ⟨inner, rfl⟩ := (suffix rest (by omega)).mp ending
    exact ⟨⟨inner, rfl⟩, oneLine⟩
  · rintro ⟨⟨inner, rfl⟩, oneLine⟩
    refine ⟨⟨⟨?_, inner ++ underscores, rfl⟩, ⟨'_' :: '_' :: inner, rfl⟩⟩, oneLine⟩
    simp only [underscores, List.length_append, List.length_cons, List.length_nil]
    omega

theorem occursIn_iff {pattern letters : List Char} :
    occursIn pattern letters = true ↔ pattern <:+: letters := by
  induction letters with
  | nil => simp [occursIn]
  | cons letter rest ih =>
    rw [occursIn, Bool.or_eq_true, ih, List.isPrefixOf_iff_prefix, List.infix_cons_iff]

theorem beginsReservedName_iff {letters : List Char} :
    beginsReservedName letters = true ↔
      ∃ word after, word ≠ [] ∧ (∀ letter ∈ word, isWordPart letter = true) ∧
        letters = underscores ++ word ++ underscores ++ after := by
  unfold beginsReservedName after?
  by_cases opened : underscores <+: letters
  · obtain ⟨inner, rfl⟩ := opened
    have found : ['_', '_'].isPrefixOf (underscores ++ inner) = true := rfl
    rw [if_pos found, occursIn_iff]
    change underscores <:+: (inner.takeWhile isWordPart).tail ↔ _
    constructor
    · rintro ⟨front, back, inside⟩
      have split := List.takeWhile_append_dropWhile (p := isWordPart) (l := inner)
      have worded := List.all_eq_true.mp (List.all_takeWhile (l := inner) (p := isWordPart))
      cases taken : inner.takeWhile isWordPart with
      | nil => simp [taken, underscores] at inside
      | cons first rest =>
        simp only [taken, List.tail_cons] at inside split worded
        subst inside
        refine ⟨first :: front, back ++ inner.dropWhile isWordPart, by simp, ?_, ?_⟩
        · intro letter member
          apply worded
          simp only [List.mem_cons, List.mem_append] at member ⊢
          exact member.elim Or.inl fun inFront => Or.inr (Or.inl (Or.inl inFront))
        · generalize inner.dropWhile isWordPart = others at split
          subst split
          simp [List.append_assoc]
    · rintro ⟨word, after, filled, worded, same⟩
      have inner_eq : inner = word ++ (underscores ++ after) := by
        simpa [List.append_assoc] using same
      obtain ⟨first, rest, rfl⟩ := List.exists_cons_of_ne_nil filled
      rw [inner_eq, List.takeWhile_append_of_pos worded, List.cons_append, List.tail_cons]
      exact ⟨rest, after.takeWhile isWordPart, by simp [underscores, isWordPart]⟩
  · have absent : ['_', '_'].isPrefixOf letters = false := by
      simpa [underscores, ← List.isPrefixOf_iff_prefix] using opened
    rw [absent]
    simp only [Bool.false_eq_true, if_false, false_iff]
    rintro ⟨word, after, _, _, rfl⟩
    exact opened ⟨word ++ underscores ++ after, by simp [List.append_assoc]⟩

theorem containsReservedName_iff {letters : List Char} :
    containsReservedName letters = true ↔ HasToken letters := by
  induction letters with
  | nil => simp [containsReservedName, HasToken, underscores]
  | cons letter rest ih =>
    rw [containsReservedName, Bool.or_eq_true, ih, beginsReservedName_iff]
    constructor
    · rintro (⟨word, after, filled, worded, same⟩ | ⟨before, word, after, filled, worded, rfl⟩)
      · exact ⟨[], word, after, filled, worded, same⟩
      · exact ⟨letter :: before, word, after, filled, worded, rfl⟩
    · rintro ⟨before, word, after, filled, worded, same⟩
      cases before with
      | nil => exact Or.inl ⟨word, after, filled, worded, same⟩
      | cons first before =>
        exact Or.inr ⟨before, word, after, filled, worded, (List.cons.inj same).2⟩

/-- No letter of a word is blank. -/
theorem isBlank_of_isWordPart {letter : Char} (part : isWordPart letter = true) :
    isBlank letter = false := by
  delta isWordPart Char.isAlphanum Char.isAlpha Char.isUpper Char.isLower Char.isDigit at part
  simp only [Bool.or_eq_true, Bool.and_eq_true, decide_eq_true_eq, ge_iff_le,
    UInt32.le_iff_toNat_le, Char.reduceVal, UInt32.reduceToNat] at part
  have code : letter.toNat = letter.val.toNat := rfl
  refine Bool.eq_false_iff.mpr fun blank => ?_
  simp only [isBlank, blankRanges, List.any_cons, List.any_nil, Bool.or_false, Bool.or_eq_true,
    Bool.and_eq_true, decide_eq_true_eq] at blank
  rcases part with ((((part | part) | part) | rfl) | rfl)
  · omega
  · omega
  · omega
  · revert blank; decide
  · revert blank; decide

theorem isIdentifier_words {letters : List Char} (legal : isIdentifier letters = true) :
    ∀ letter ∈ letters, isWordPart letter = true := by
  cases letters with
  | nil => exact nofun
  | cons first rest =>
    simp only [isIdentifier, isWord, Bool.and_eq_true, List.all_eq_true] at legal
    obtain ⟨⟨start, parts⟩, _⟩ := legal
    refine List.forall_mem_cons.mpr ⟨?_, parts⟩
    simp only [isWordStart, Bool.or_eq_true, or_assoc] at start
    simp only [isWordPart, Char.isAlphanum, Bool.or_eq_true, or_assoc]
    exact start.imp_right .inr

theorem isIdentifier_oneLine {letters : List Char} (legal : isIdentifier letters = true) :
    '\n' ∉ letters :=
  fun member => absurd (isIdentifier_words legal _ member) (by decide)

theorem checkIdentifier_ok {name : String} (passed : checkIdentifier name = .ok ()) :
    isIdentifier name.toList = true := by
  unfold checkIdentifier at passed
  split at passed
  · cases passed
  · split at passed
    · cases passed
    next legal => simpa using legal

theorem checkClassName_ok {name : String} (passed : checkClassName name = .ok ()) :
    LegalName name ∧ name ∉ reservedClassNames := by
  obtain ⟨_, identified, rest⟩ := bind_eq_ok.mp passed
  have identifier := checkIdentifier_ok identified
  split at rest
  · cases rest
  next free =>
    simp only [not_or] at free
    refine ⟨⟨identifier, ?_⟩, free.1⟩
    intro reserved
    exact free.2 (isReservedName_iff.mpr ⟨reserved, isIdentifier_oneLine identifier⟩)

/-- A name that is accepted for a dimension is legal, and is not that of the value where this is
reserved. -/
theorem checkDimensionName_ok {name : String} {valueReserved : Bool}
    (passed : checkDimensionName name valueReserved = .ok ()) :
    LegalName name ∧ (valueReserved = true → name ≠ valueName) := by
  obtain ⟨_, identified, rest⟩ := bind_eq_ok.mp passed
  have identifier := checkIdentifier_ok identified
  split at rest
  · cases rest
  next free =>
    simp only [not_or, not_and] at free
    refine ⟨⟨identifier, ?_⟩, free.2⟩
    intro reserved
    exact free.1 (isReservedName_iff.mpr ⟨reserved, isIdentifier_oneLine identifier⟩)

theorem isBlankText_iff {text : String} : isBlankText text = true ↔ ¬ Filled text := by
  simp [isBlankText, Filled]

theorem checkText_ok_iff {field text : String} : checkText field text = .ok () ↔ LegalText text := by
  unfold checkText
  constructor
  · intro passed
    split at passed
    · cases passed
    next blank =>
      split at passed
      · cases passed
      next tokenless =>
        exact ⟨Classical.not_not.mp fun empty => blank (isBlankText_iff.mpr empty),
          fun token => tokenless (containsReservedName_iff.mpr token)⟩
  · rintro ⟨nonblank, tokenless⟩
    rw [if_neg (fun blank => isBlankText_iff.mp blank nonblank),
      if_neg (fun found => tokenless (containsReservedName_iff.mp found))]

end CompositeKeys
