import CompositeKeys.Collection.Identifier
import CompositeKeys.Emission.ClassOutline

/-! The identifiers that templates use for themselves. The text that a template writes is read from
left to right, and what the declaration puts into it is passed over. Strings, the words of the
language and the names of members are no identifiers. -/

namespace CompositeKeys.Emission
open Text

/-- How far a text has been read: whether a string is open, the punctuation before the word under
way and that word, both last letter first, and the words found. -/
structure Reading where
  quoted : Bool := false
  behind : List Char := []
  word : List Char := []
  found : List (List Char) := []
  deriving DecidableEq, Repr

namespace Reading

/-- Whether a word behind this names a member. What follows the three dots of a spread does not. -/
def namesMember : List Char → Bool
  | '#' :: _ => true
  | '.' :: before => before.head? ≠ some '.'
  | _ => false

/-- Ends the word under way. Names of members, also of those in a literal, are left out. -/
def ended (reading : Reading) (next : Option Char) : Reading :=
  { reading with
    word := []
    found :=
      if reading.word = [] || namesMember reading.behind || next = some ':' then reading.found
      else reading.word.reverse :: reading.found }

def step (reading : Reading) (letter : Char) : Reading :=
  if reading.quoted then { reading with quoted := letter ≠ '"' }
  else if isWordPart letter then { reading with word := letter :: reading.word }
  else { reading.ended letter with
    quoted := letter = '"'
    behind := letter :: if reading.word = [] then reading.behind else [] }

/-- Reads a piece of a line, or passes over what the declaration puts there. -/
def piece (reading : Reading) : Option (List Char) → Reading
  | some letters => letters.foldl step reading
  | none => { reading.ended none with behind := [] }

end Reading

/-- The words in the pieces of a line. -/
def words (pieces : List (Option (List Char))) : List (List Char) :=
  ((pieces.foldl Reading.piece {}).ended none).found

/-- The identifiers in the pieces of a line. -/
def identifiers (pieces : List (Option (List Char))) : List String :=
  ((words pieces).filter fun letters => isIdentifier letters && letters ≠ ['o', 'f']).map
    String.ofList

def Fragment.own? : Fragment → Option (List Char)
  | .own text => some text.toList
  | .names _ | .literals _ => none

def Phrase.ownNames (phrase : Phrase) : List String := identifiers (phrase.map Fragment.own?)

/-- The identifiers of a stroke that are the template's own. Of the tests that keys have to pass it
is the one for an object that takes an identifier. -/
def Stroke.ownNames : Stroke → List String
  | .line phrase | .opening phrase => phrase.ownNames
  | .closing last => Phrase.ownNames [.own last]
  | .passage text => if occursIn "if (Object(".toList text.toList then ["Object"] else []
  | .page _ => []

/-- The identifiers that a member introduces or refers to for its own purposes. -/
def Member.ownNames (member : Member) : List String :=
  Phrase.ownNames (Head.joined member.head.parameters) ++ member.body.flatMap Stroke.ownNames

example :
    Phrase.ownNames
        ["  this.#root.set(__hash__, \x7b keys: [...", .names ["car"], ", value] \x7d);"] =
      ["value", "__hash__"] := by
  decide +kernel

/-- A name that a template may use for itself: one in reserved form, or one of a few others. -/
def Owned (allowed : List String) (name : String) : Prop :=
  isReservedName name.toList = true ∨ name ∈ allowed

def Reads (allowed : List String) (pieces : List (Option (List Char))) : Prop :=
  ∀ name ∈ identifiers pieces, Owned allowed name

def Stroke.Confined (allowed : List String) (stroke : Stroke) : Prop :=
  ∀ name ∈ stroke.ownNames, Owned allowed name

def Member.Confined (allowed : List String) (member : Member) : Prop :=
  ∀ name ∈ member.ownNames, Owned allowed name

/-- The words of the language that templates are written in, spelled out for the reading of every
line. -/
def spokenWords : List (List Char) :=
  [['c', 'o', 'n', 's', 't'], ['f', 'a', 'l', 's', 'e'], ['f', 'o', 'r'], ['i', 'f'],
    ['l', 'e', 't'], ['n', 'e', 'w'], ['o', 'f'], ['r', 'e', 't', 'u', 'r', 'n'],
    ['t', 'h', 'i', 's'], ['t', 'h', 'r', 'o', 'w'], ['t', 'r', 'u', 'e'],
    ['y', 'i', 'e', 'l', 'd']]

theorem spokenWords_unnamed :
    ∀ letters ∈ spokenWords, (isIdentifier letters && letters ≠ ['o', 'f']) = false := by
  decide

/-- Whether a word is one of the language, a number or a name that may be used. -/
def isExpected (allowed : List String) (letters : List Char) : Bool :=
  spokenWords.contains letters || !letters.head?.any isWordStart || isReservedName letters ||
    (allowed.map String.toList).contains letters

section Reads
variable {allowed : List String}

theorem reads_of_expected {pieces : List (Option (List Char))}
    (expected : (words pieces).all (isExpected allowed) = true) : Reads allowed pieces := by
  intro name found
  obtain ⟨letters, kept, rfl⟩ := List.mem_map.mp found
  obtain ⟨among, named⟩ := List.mem_filter.mp kept
  have expects := List.all_eq_true.mp expected letters among
  simp only [isExpected, Bool.or_eq_true, or_assoc] at expects
  rcases expects with spoken | number | reserved | known
  · have unnamed := spokenWords_unnamed letters (List.contains_iff_mem.mp spoken)
    exact nomatch named.symm.trans unnamed
  · cases letters with
    | nil => cases named
    | cons first rest =>
      have word : isWordStart first = false := by simpa using number
      simp [isIdentifier, isWord, word] at named
  · exact .inl (by simpa using reserved)
  · obtain ⟨name, allows, rfl⟩ := List.mem_map.mp (List.contains_iff_mem.mp known)
    exact .inr (by simpa using allows)

/-- Letters of words are gathered as they come. -/
theorem foldl_step_word {reading : Reading} {letters : List Char} (plain : reading.quoted = false)
    (parts : ∀ letter ∈ letters, isWordPart letter = true) :
    letters.foldl Reading.step reading =
      { reading with word := letters.reverse ++ reading.word } := by
  induction letters generalizing reading with
  | nil => rfl
  | cons letter rest ih =>
    rw [List.forall_mem_cons] at parts
    have step : reading.step letter = { reading with word := letter :: reading.word } := by
      simp [Reading.step, plain, parts.1]
    have rest := @ih { reading with word := letter :: reading.word } plain parts.2
    rw [List.foldl_cons, step, rest]
    simp

theorem digit_not_start {letter : Char} (digit : letter.isDigit = true) :
    isWordStart letter = false := by
  obtain ⟨least, greatest⟩ := Bool.and_eq_true_iff.mp digit
  have from0 : '0'.val ≤ letter.val := of_decide_eq_true least
  have to9 : letter.val ≤ '9'.val := of_decide_eq_true greatest
  refine Bool.eq_false_iff.mpr fun start => ?_
  simp only [isWordStart, Bool.or_eq_true, decide_eq_true_eq] at start
  rcases start with (alpha | rfl) | rfl
  · rcases (Bool.or_eq_true _ _).mp alpha with upper | lower
    · have fromA : 'A'.val ≤ letter.val := (of_decide_eq_true upper).1
      exact absurd (UInt32.le_trans fromA to9) (by decide)
    · have froma : 'a'.val ≤ letter.val :=
        of_decide_eq_true (Bool.and_eq_true_iff.mp lower).1
      exact absurd (UInt32.le_trans froma to9) (by decide)
  · exact absurd to9 (by decide)
  · exact absurd from0 (by decide)

/-- A number is no identifier. -/
theorem reads_length (count : Nat) :
    Reads allowed [some "if (__set__.length !== ".toList, some (toString count).toList,
      some ")".toList] := by
  have digits : ∀ letter ∈ (toString count).toList, letter.isDigit = true := by
    intro letter member
    change letter ∈ count.repr.toList at member
    rw [Nat.toList_repr] at member
    exact Nat.isDigit_of_mem_toDigits (by decide) (by decide) member
  -- The count is not known, so the line is read up to it and on from it.
  generalize (toString count).toList = letters at digits ⊢
  let start : Reading :=
    { behind := [' ', '=', '=', '!', ' ']
      found := [['_', '_', 's', 'e', 't', '_', '_'], ['i', 'f']] }
  have opened : "if (__set__.length !== ".toList.foldl Reading.step {} = start := by
    rw [String.toList_ofList]
    rfl
  have counted := @foldl_step_word start letters rfl
    fun letter member => by simp [isWordPart, Char.isAlphanum, digits letter member]
  have ended : ")".toList = [')'] ∧ isWordPart ')' = false := ⟨String.toList_ofList, by decide⟩
  have before : ∀ letters ∈ start.found, isExpected allowed letters = true := by
    refine List.forall_mem_cons.mpr ⟨?_, List.forall_mem_singleton.mpr ?_⟩
    · have reserved : isReservedName ['_', '_', 's', 'e', 't', '_', '_'] = true := by decide
      simp [isExpected, reserved]
    · have spoken : spokenWords.contains ['i', 'f'] = true := by decide
      simp only [isExpected, spoken, Bool.true_or]
  apply reads_of_expected
  simp only [words, List.foldl_cons, List.foldl_nil, Reading.piece, opened, counted, ended.1]
  cases letters with
  | nil => simpa [Reading.step, Reading.ended, ended.2, start] using before
  | cons digit rest =>
    have number : isExpected allowed (digit :: rest) = true := by
      simp [isExpected, digit_not_start (digits digit List.mem_cons_self)]
    simpa [Reading.step, Reading.ended, Reading.namesMember, ended.2, number, start] using before

theorem confined_line {phrase : Phrase} :
    (Stroke.line phrase).Confined allowed ↔ Reads allowed (phrase.map Fragment.own?) := Iff.rfl

theorem confined_opening {phrase : Phrase} :
    (Stroke.opening phrase).Confined allowed ↔ Reads allowed (phrase.map Fragment.own?) := Iff.rfl

theorem confined_blank : Stroke.blank.Confined allowed ↔ True := by
  have nameless : Stroke.blank.ownNames = [] := rfl
  simp [Stroke.Confined, nameless]

theorem confined_close : Stroke.close.Confined allowed ↔ True := by
  have closing : Stroke.close.Confined allowed ↔ Reads allowed [some "\x7d".toList] := Iff.rfl
  rw [closing, String.toList_ofList]
  exact iff_true_intro (reads_of_expected rfl)

theorem confined_testing (object : "Object" ∈ allowed) (checks : String) :
    (∀ stroke ∈ testing checks, stroke.Confined allowed) ↔ True := by
  refine iff_true_intro (List.forall_mem_cons.mpr ⟨?_, List.forall_mem_singleton.mpr ?_⟩)
  · intro name among
    dsimp only [Stroke.ownNames] at among
    split at among
    · obtain rfl := List.mem_singleton.mp among
      exact .inr object
    · cases among
  · rw [confined_line, List.map_singleton, Fragment.own?, String.toList_ofList]
    exact reads_of_expected rfl

theorem Member.confined_iff {member : Member} : member.Confined allowed ↔
    Reads allowed ((Head.joined member.head.parameters).map Fragment.own?) ∧
      ∀ stroke ∈ member.body, stroke.Confined allowed := by
  unfold Confined ownNames
  rw [List.forall_mem_append, List.forall_mem_flatMap]
  rfl

end Reads

end CompositeKeys.Emission
