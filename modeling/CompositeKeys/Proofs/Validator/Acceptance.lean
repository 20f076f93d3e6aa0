import CompositeKeys.Proofs.Validator.Scanning

/-! What is accepted as a validator. It is a closed expression without blanks around it, in which
words of control flow stand behind a dot only. The last dot of a spread is such a dot too. -/

namespace CompositeKeys.Validator
open Text

theorem expressionOf_stripped {body expression : List Char} (trimmed : stripped body = body)
    (read : expressionOf body = .ok expression) : stripped expression = expression := by
  unfold expressionOf at read
  split at read
  next block =>
    split at read
    next inner _ =>
      obtain ⟨_, read⟩ := next_of_required read
      obtain rfl := pure_eq_ok.mp read
      exact stripped_stripped _
    · cases read
  next =>
    obtain rfl := pure_eq_ok.mp read
    exact trimmed

/-- What becomes of an expression that has been read: it is kept as it stands, or refused. -/
def keep (expression : List Char) : Except Fault String := do
  if expression = [] then throw .empty
  let words ← wordsOf expression
  match words.find? forbiddenWords.contains with
  | some word => throw (.forbidden (String.ofList word))
  | none => return String.ofList expression

theorem keep_eq_ok {expression : List Char} {text : String} :
    keep expression = .ok text ↔ expression ≠ [] ∧
      (∃ words, wordsOf expression = .ok words ∧ ∀ word ∈ words, word ∉ forbiddenWords) ∧
      String.ofList expression = text := by
  unfold keep
  constructor
  · intro kept
    obtain ⟨filled, kept⟩ := next_of_refused kept
    obtain ⟨words, scanned, kept⟩ := bind_eq_ok.mp kept
    split at kept
    · cases kept
    next absent => exact ⟨filled, ⟨words, scanned, by simpa using absent⟩, pure_eq_ok.mp kept⟩
  · rintro ⟨filled, ⟨words, scanned, absent⟩, rfl⟩
    rw [if_neg filled]
    refine bind_eq_ok.mpr ⟨words, scanned, ?_⟩
    have none : words.find? forbiddenWords.contains = none := by simpa using absent
    rw [none]
    rfl

/-- An accepted validator declares its parameter, and the expression of its body has been kept. -/
theorem kept_of_parse {parameter source expression : String}
    (accepted : parse parameter source = .ok expression) :
    isIdentifier parameter.toList = true ∧ ∃ body kept,
      expressionOf (stripped body) = .ok kept ∧ keep kept = .ok expression := by
  unfold parse at accepted
  extract_lets letters body later at accepted
  obtain ⟨_, accepted⟩ := next_of_refused accepted
  obtain ⟨_, accepted⟩ := next_of_refused accepted
  unfold body at accepted
  split at accepted
  next declared rest _ =>
    obtain ⟨_, accepted⟩ := next_of_refused accepted
    obtain ⟨legal, accepted⟩ := next_of_required accepted
    obtain ⟨same, accepted⟩ := next_of_required accepted
    split at accepted
    next body _ =>
      obtain ⟨kept, read, accepted⟩ := bind_eq_ok.mp accepted
      exact ⟨same ▸ legal, body, kept, read, accepted⟩
    · cases accepted
  · cases accepted

theorem checked_of_parse {parameter source expression : String}
    (accepted : parse parameter source = .ok expression) :
    expression ≠ "" ∧ trim expression = expression ∧
      ∃ words, wordsOf expression.toList = .ok words ∧ ∀ word ∈ words, word ∉ forbiddenWords := by
  obtain ⟨_, body, kept, read, accepted⟩ := kept_of_parse accepted
  obtain ⟨filled, ⟨words, scanned, absent⟩, rfl⟩ := keep_eq_ok.mp accepted
  have trimmed := expressionOf_stripped (stripped_stripped body) read
  exact ⟨by simpa using filled, by simp [trim, trimmed], words, by simpa, absent⟩

/-- Whether the last letter before a word that is not blank is a dot. -/
def BehindDot (before : List Char) : Prop := lastFilled before = some '.'

def spread : List Char := ['.', '.', '.']

/-- Whether a word is the name of a property: the dot before it is not the end of a spread. -/
def BehindAccess (before : List Char) : Prop := BehindDot before ∧ ¬ spread <:+ unpadded before

/-- Words of control flow stand at certain places only. -/
def Restrained (place : List Char → Prop) : WordRule := fun before word =>
  word ∈ forbiddenWords → place before

/-- An accepted expression is closed. Where it spreads nothing, its words of control flow are names
of properties. -/
theorem closed_of_parse {parameter source expression : String}
    (accepted : parse parameter source = .ok expression) :
    expression ≠ "" ∧ trim expression = expression ∧
      Closed (Restrained BehindDot) expression.toList ∧
      (¬ spread <:+: expression.toList → Closed (Restrained BehindAccess) expression.toList) := by
  obtain ⟨filled, trimmed, words, scanned, absent⟩ := checked_of_parse accepted
  obtain ⟨ended, reads⟩ := closed_of_wordsOf scanned
  have behindDot : ∀ before word, FoundOrBehindDot words before word →
      Restrained BehindDot before word := by
    rintro before word (found | behind) forbidden
    · exact absurd forbidden (absent word found)
    · exact behind
  refine ⟨filled, trimmed, ⟨ended, reads.mono List.infix_rfl fun before word _ => behindDot before word⟩,
    fun unspread => ⟨ended, reads.mono List.infix_rfl ?_⟩⟩
  intro before word part rule forbidden
  refine ⟨behindDot before word rule forbidden, fun ending => unspread ?_⟩
  exact (ending.isInfix.trans (unpadded_isInfix before)).trans part

/-- A property may bear the name of a word of control flow. -/
theorem closed_of_parse_property :
    parse "job" "job => { return job?.break; }" = .ok "job?.break" ∧
      Closed (Restrained BehindAccess) "job?.break".toList := by
  have accepted : parse "job" "job => { return job?.break; }" = .ok "job?.break" := by
    decide +kernel
  exact ⟨accepted, (closed_of_parse accepted).2.2.2 (by decide +kernel)⟩

/-- Behind a spread a word of control flow is accepted, though it is the name of no property. -/
theorem spread_accepted :
    parse "urls" "urls => [...await urls]" = .ok "[...await urls]" ∧
      ¬ Closed (Restrained BehindAccess) "[...await urls]".toList := by
  refine ⟨by decide +kernel, ?_⟩
  rintro ⟨ended, reads⟩
  have whole : "[...await urls]".toList = ['['] ++ "...await urls".toList ++ [']'] := by
    decide +kernel
  rw [whole] at reads
  have pair : ('[', ']') ∈ brackets := by decide
  obtain ⟨before, inside, inner, same, grouped⟩ := reads.last_group pair
  have once : '[' ∉ "...await urls".toList := by decide +kernel
  obtain rfl : "...await urls".toList = inside := by
    cases before with
    | nil => simpa using same
    | cons first rest =>
      have later : "...await urls".toList = rest ++ '[' :: inside := (List.cons.inj same).2
      simp [later] at once
  have parts : "...await urls".toList = spread ++ "await".toList ++ [' '] ++ "urls".toList := by
    decide +kernel
  rw [parts] at grouped
  obtain ⟨_, blank⟩ := grouped.last_word (by decide +kernel) (by simp [isWordPart])
  obtain ⟨⟨⟩, _⟩ | ⟨_, _, sooner, word, _⟩ := blank.last_plain (by decide)
  obtain ⟨rule, _⟩ := word.last_word (by decide +kernel) (by simp [spread, isWordPart])
  exact (rule (by decide +kernel)).2 (by decide)

end CompositeKeys.Validator
