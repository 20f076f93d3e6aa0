import CompositeKeys.Collection.Validator
import Mathlib.Data.List.Induction

/-! Closed expressions, said without the scanner. An expression is read from left to right as words,
symbols, strings, groups in brackets and templates; a word takes all the letters it can. Which words
may stand where is left to a rule on the word and on the text before it in its group. -/

namespace CompositeKeys.Validator
open Text

/-- The text of a string. A line feed, a backslash or the quote itself stands behind a backslash. -/
inductive Quoted (quote : Char) : List Char → Prop where
  | empty : Quoted quote []
  | letter {before letter} (quoted : Quoted quote before) (plain : letter ∉ ['\n', '\\', quote]) :
      Quoted quote (before ++ [letter])
  | escaped {before letter} (quoted : Quoted quote before) : Quoted quote (before ++ ['\\', letter])

def quotes : List Char := ['\'', '"']

def brackets : List (Char × Char) := [('(', ')'), ('[', ']'), ('{', '}')]

/-- The letters with a meaning of their own in code. -/
def delimiters : List Char := ['\'', '"', '\x60', '(', ')', '[', ']', '{', '}']

/-- What stands before a word in its group, and the word. -/
abbrev WordRule := List Char → List Char → Prop

/-- Where a text ends: in code, which may be outside all brackets and may have a word at its end, or
in the text of a template, which may have a dollar sign of its own at its end. -/
inductive Place where
  | code (bare ended : Bool)
  | template (dollar : Bool)
  deriving DecidableEq, Repr

/-- Text in which everything that is opened is closed again. -/
inductive Reads (allowed : WordRule) : Place → List Char → Prop where
  | code {bare} : Reads allowed (.code bare false) []
  | word {bare before word} (code : Reads allowed (.code bare false) before)
      (worded : isWord word = true) (rule : allowed before word) :
      Reads allowed (.code bare true) (before ++ word)
  | symbol {bare ended before letter} (code : Reads allowed (.code bare ended) before)
      (plain : letter ∉ delimiters) (wordless : isWordStart letter = false)
      (apart : ended = true → isWordPart letter = false) (single : bare = true → letter ≠ ';')
      (uncommented : letter ∈ ['/', '*'] → before.getLast? ≠ some '/') :
      Reads allowed (.code bare false) (before ++ [letter])
  | string {bare ended before quote body} (code : Reads allowed (.code bare ended) before)
      (marked : quote ∈ quotes) (quoted : Quoted quote body) :
      Reads allowed (.code bare false) (before ++ quote :: (body ++ [quote]))
  | group {bare ended before opening closing inner inside}
      (code : Reads allowed (.code bare ended) before) (pair : (opening, closing) ∈ brackets)
      (grouped : Reads allowed (.code false inner) inside) :
      Reads allowed (.code bare false) (before ++ opening :: (inside ++ [closing]))
  | quasi {bare ended before dollar inside} (code : Reads allowed (.code bare ended) before)
      (template : Reads allowed (.template dollar) inside) :
      Reads allowed (.code bare false) (before ++ '\x60' :: (inside ++ ['\x60']))
  | template : Reads allowed (.template false) []
  | letter {dollar before letter} (template : Reads allowed (.template dollar) before)
      (plain : letter ∉ ['\\', '\x60']) (apart : dollar = true → letter ≠ '{') :
      Reads allowed (.template (letter = '$')) (before ++ [letter])
  | escaped {dollar before letter} (template : Reads allowed (.template dollar) before) :
      Reads allowed (.template false) (before ++ ['\\', letter])
  | substitution {dollar before ended inside} (template : Reads allowed (.template dollar) before)
      (code : Reads allowed (.code false ended) inside) :
      Reads allowed (.template false) (before ++ '$' :: '{' :: (inside ++ ['}']))

/-- A closed expression, in which a semicolon stands only inside brackets. -/
def Closed (allowed : WordRule) (letters : List Char) : Prop :=
  ∃ ended, Reads allowed (.code true ended) letters

section Parts
variable {whole before rest opening inner closing : List Char}

private theorem part_before (part : before ++ rest <:+: whole) : before <:+: whole :=
  (List.prefix_append before rest).isInfix.trans part

private theorem part_inside (part : before ++ (opening ++ (inner ++ closing)) <:+: whole) :
    inner <:+: whole := by
  refine List.IsInfix.trans ⟨before ++ opening, closing, ?_⟩ part
  simp only [List.append_assoc]

end Parts

/-- What stands before a word is part of the whole text, so a rule has to hold only there. -/
theorem Reads.mono {allowed wider : WordRule} {place : Place} {letters whole : List Char}
    (reads : Reads allowed place letters) (part : letters <:+: whole)
    (implied : ∀ before word, before <:+: whole → allowed before word → wider before word) :
    Reads wider place letters := by
  induction reads with
  | code => exact .code
  | word _ worded rule ih =>
    exact .word (ih (part_before part)) worded (implied _ _ (part_before part) rule)
  | symbol _ plain wordless apart single uncommented ih =>
    exact .symbol (ih (part_before part)) plain wordless apart single uncommented
  | string _ marked quoted ih => exact .string (ih (part_before part)) marked quoted
  | @group _ _ _ opening _ _ _ _ pair _ ih innerIh =>
    exact .group (ih (part_before part)) pair (innerIh (@part_inside _ _ [opening] _ _ part))
  | quasi _ _ ih innerIh =>
    exact .quasi (ih (part_before part)) (innerIh (@part_inside _ _ ['\x60'] _ _ part))
  | template => exact .template
  | letter _ plain apart ih => exact .letter (ih (part_before part)) plain apart
  | escaped _ ih => exact .escaped (ih (part_before part))
  | substitution _ _ ih innerIh =>
    exact .substitution (ih (part_before part)) (innerIh (@part_inside _ _ ['$', '{'] _ _ part))

theorem isWordPart_of_start {letter : Char} (start : isWordStart letter = true) :
    isWordPart letter = true := by
  unfold isWordStart at start
  unfold isWordPart Char.isAlphanum
  grind

theorem isWord_parts {word : List Char} (worded : isWord word = true) :
    word ≠ [] ∧ ∀ letter ∈ word, isWordPart letter = true := by
  cases word with
  | nil => cases worded
  | cons first rest =>
    simp only [isWord, Bool.and_eq_true, List.all_eq_true] at worded
    refine ⟨by simp, ?_⟩
    intro letter member
    rcases List.mem_cons.mp member with rfl | later
    · exact isWordPart_of_start worded.1
    · exact worded.2 letter later

theorem isWord_front {first : Char} {rest more : List Char}
    (worded : isWord (first :: rest ++ more) = true) : isWord (first :: rest) = true := by
  simp only [List.cons_append, isWord, List.all_append, Bool.and_eq_true] at worded ⊢
  exact ⟨worded.1, worded.2.1⟩

section Ends
variable {allowed : WordRule} {bare ended : Bool} {front word : List Char} {letter : Char}

theorem quote_delimits : ∀ quote ∈ quotes, quote ∈ delimiters := by
  simp [quotes, delimiters]

theorem closing_delimits : ∀ pair ∈ brackets, pair.2 ∈ delimiters := by decide

theorem delimiter_apart : ∀ letter ∈ delimiters, isWordPart letter = false := by
  simpa using (by decide : delimiters.all (fun letter => !isWordPart letter) = true)

/-- Text in code that ends in no delimiter ends in a word or in a symbol. -/
theorem Reads.last_plain (reads : Reads allowed (.code bare ended) (front ++ [letter]))
    (plain : letter ∉ delimiters) :
    (ended = true ∧ ∃ before word, front ++ [letter] = before ++ word ∧ isWord word = true ∧
        allowed before word ∧ Reads allowed (.code bare false) before) ∨
      (ended = false ∧ isWordStart letter = false ∧ ∃ sooner,
        Reads allowed (.code bare sooner) front ∧ (sooner = true → isWordPart letter = false)) := by
  generalize same : front ++ [letter] = letters at reads
  have last : letters.getLast? = some letter := by simp [← same]
  cases reads with
  | code => cases last
  | word code worded rule => exact .inl ⟨rfl, _, _, rfl, worded, rule, code⟩
  | symbol code _ wordless apart =>
    obtain ⟨rfl, one⟩ := List.append_inj' same rfl
    obtain rfl := List.singleton_inj.mp one
    exact .inr ⟨rfl, wordless, _, code, apart⟩
  | string _ marked =>
    obtain rfl : _ = letter := by simpa [List.getLast?_append, List.getLast?_cons] using last
    exact absurd (quote_delimits _ marked) plain
  | group _ pair =>
    obtain rfl : _ = letter := by simpa [List.getLast?_append, List.getLast?_cons] using last
    exact absurd (closing_delimits _ pair) plain
  | quasi =>
    obtain rfl : _ = letter := by simpa [List.getLast?_append, List.getLast?_cons] using last
    exact absurd (by decide) plain

/-- A word is read to its end. -/
theorem Reads.word_ended (worded : isWord word = true) :
    ¬ Reads allowed (.code bare false) (front ++ word) := by
  induction word using List.reverseRecOn with
  | nil => cases worded
  | append_singleton word letter ih =>
    intro reads
    have part := (isWord_parts worded).2 letter (by simp)
    rw [← List.append_assoc] at reads
    have plain : letter ∉ delimiters := fun member => by simp [delimiter_apart letter member] at part
    obtain ⟨⟨⟩, _⟩ | ⟨_, wordless, sooner, code, apart⟩ := reads.last_plain plain
    cases sooner with
    | true => simp [apart rfl] at part
    | false =>
      refine ih ?_ code
      cases word with
      | nil => simp [isWord, wordless] at worded
      | cons first rest => exact isWord_front worded

/-- A word at the end, with no more letters before it, stands under the rule. -/
theorem Reads.last_word (reads : Reads allowed (.code bare ended) (front ++ word))
    (worded : isWord word = true) (apart : ∀ letter ∈ front.getLast?, isWordPart letter = false) :
    allowed front word ∧ Reads allowed (.code bare false) front := by
  obtain ⟨filled, parts⟩ := isWord_parts worded
  have part := parts _ (List.getLast_mem filled)
  have plain : word.getLast filled ∉ delimiters := fun member => by
    simp [delimiter_apart _ member] at part
  have whole : front ++ word.dropLast ++ [word.getLast filled] = front ++ word := by
    rw [List.append_assoc, List.dropLast_concat_getLast]
  rw [← whole] at reads
  obtain ⟨_, before, last, same, lastWorded, rule, code⟩ | ⟨rfl, _⟩ := reads.last_plain plain
  · rw [whole, List.append_eq_append_iff] at same
    obtain ⟨extra, rfl, rfl⟩ | ⟨extra, rfl, rfl⟩ := same
    · cases extra with
      | nil => simpa using And.intro rule code
      | cons first rest =>
        exact absurd code (Reads.word_ended (isWord_front worded))
    · cases ends : extra.getLast? with
      | none => simpa [List.getLast?_eq_none_iff.mp ends] using And.intro rule code
      | some letter =>
        have member := List.mem_of_getLast? ends
        have part := (isWord_parts lastWorded).2 letter (List.mem_append_left _ member)
        simp [apart letter (by simp [ends])] at part
  · rw [whole] at reads
    exact absurd reads (Reads.word_ended worded)

/-- What stands before a closing bracket holds the group that it closes. -/
theorem Reads.last_group {opening closing : Char}
    (reads : Reads allowed (.code bare ended) (front ++ [closing]))
    (pair : (opening, closing) ∈ brackets) :
    ∃ before inside inner, front = before ++ opening :: inside ∧
      Reads allowed (.code false inner) inside := by
  generalize same : front ++ [closing] = letters at reads
  have last : letters.getLast? = some closing := by simp [← same]
  have delimits := closing_delimits _ pair
  cases reads with
  | code => cases last
  | word _ worded =>
    obtain ⟨filled, parts⟩ := isWord_parts worded
    rw [List.getLast?_append, List.getLast?_eq_some_getLast filled] at last
    have part := parts _ (List.getLast_mem filled)
    obtain same : _ = closing := by simpa using last
    simp [same, delimiter_apart _ delimits] at part
  | symbol _ plain =>
    obtain rfl : _ = closing := by simpa using last
    exact absurd delimits plain
  | string _ marked =>
    obtain rfl : _ = closing := by simpa [List.getLast?_append, List.getLast?_cons] using last
    simp [quotes, brackets] at marked pair
    grind
  | @group _ _ before other _ inner inside _ paired grouped =>
    rw [← List.cons_append, ← List.append_assoc] at same
    obtain ⟨rfl, one⟩ := List.append_inj' same rfl
    obtain rfl := List.singleton_inj.mp one
    have only : other = opening := by simp [brackets] at paired pair; grind
    subst only
    exact ⟨before, inside, inner, rfl, grouped⟩
  | quasi =>
    obtain rfl : _ = closing := by simpa [List.getLast?_append, List.getLast?_cons] using last
    simp [brackets] at pair


end Ends

end CompositeKeys.Validator
