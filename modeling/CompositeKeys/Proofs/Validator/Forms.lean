import CompositeKeys.Proofs.Collection.Naming
import CompositeKeys.Proofs.Validator.Acceptance

/-! The forms in which a validator is written. All of them come to the same, an expression or a
refusal, whatever the body is; only a parameter `async` without parentheses is taken for the word
that makes a function asynchronous. What has been kept of a validator can be written in these forms
again, and the same is kept of it. -/

namespace CompositeKeys.Validator
open Text

/-- The forms in which a validator may be written. -/
inductive Form where
  | bare
  | parenthesized
  | block
  deriving DecidableEq, Repr

def Form.write (form : Form) (parameter body : String) : String :=
  match form with
  | .bare => parameter ++ " => " ++ body
  | .parenthesized => "(" ++ parameter ++ ") => " ++ body
  | .block => "(" ++ parameter ++ ") => \x7b return " ++ body ++ "; \x7d"

/-! ### The parameter -/

theorem worded_of_all {word : String} (all : word.toList.all isWordPart = true) :
    ∀ letter ∈ word.toList, isWordPart letter = true := List.all_eq_true.mp all

theorem startsWithWord_iff {word name : List Char} (worded : ∀ letter ∈ word, isWordPart letter = true)
    (named : ∀ letter ∈ name, isWordPart letter = true) (rest : List Char) :
    startsWithWord word (name ++ ' ' :: rest) = true ↔ name = word := by
  induction word generalizing name with
  | nil =>
    cases name with
    | nil => simp [startsWithWord, after?, isWordPart]
    | cons letter name => simp [startsWithWord, after?, named letter List.mem_cons_self]
  | cons first word ih =>
    have blank : isWordPart ' ' = false := by decide
    cases name with
    | nil =>
      have apart : first ≠ ' ' := by
        rintro rfl
        cases blank.symm.trans (worded ' ' List.mem_cons_self)
      simp [startsWithWord, after?_cons, apart]
    | cons letter name =>
      rw [List.forall_mem_cons] at worded named
      have step := ih worded.2 named.2
      unfold startsWithWord at step ⊢
      rw [List.cons_append, after?_cons]
      by_cases same : first = letter
      · rw [if_pos same, step, same]
        simp
      · rw [if_neg same]
        simp [Ne.symm same]

section Parameter
variable {name : List Char} (named : ∀ letter ∈ name, isWordPart letter = true) (rest : List Char)

include named

theorem stripped_word : stripped name = name := by
  apply stripped_eq_self
  · intro first head
    exact isBlank_of_isWordPart (named first (List.mem_of_mem_head? head))
  · intro last ending
    exact isBlank_of_isWordPart (named last (List.mem_of_mem_getLast? ending))

theorem splitParameter?_parenthesized :
    splitParameter? ('(' :: (name ++ ')' :: rest)) = some (name, rest) := by
  have inside : ∀ letter ∈ name, decide (letter ≠ ')') = true := by
    intro letter member
    refine decide_eq_true ?_
    rintro rfl
    exact absurd (named _ member) (by decide)
  have closed : ')' ∈ name ++ ')' :: rest := List.mem_append_right name List.mem_cons_self
  change (if _ then some _ else none) = _
  rw [if_pos closed, List.takeWhile_append_of_pos inside, List.dropWhile_append_of_pos inside]
  simp [stripped_word named]

theorem splitParameter?_bare (filled : name ≠ []) :
    splitParameter? (name ++ ' ' :: rest) = some (name, ' ' :: rest) := by
  obtain ⟨first, name, rfl⟩ := List.exists_cons_of_ne_nil filled
  have open' : first ≠ '(' := by
    rintro rfl
    exact absurd (named _ List.mem_cons_self) (by decide)
  have word : ∀ letter ∈ first :: name, (!(isBlank letter || decide (letter = '='))) = true := by
    intro letter member
    have other : letter ≠ '=' := by
      rintro rfl
      exact absurd (named _ member) (by decide)
    simp [isBlank_of_isWordPart (named letter member), other]
  have ended : ((first :: name) ++ ' ' :: rest).any
      (fun letter => isBlank letter || decide (letter = '=')) = true :=
    List.any_eq_true.mpr ⟨' ', List.mem_append_right _ List.mem_cons_self, by decide⟩
  unfold splitParameter?
  split
  next _ same => exact absurd (List.cons.inj same).1 open'
  · dsimp only
    rw [if_pos ended, List.takeWhile_append_of_pos word, List.dropWhile_append_of_pos word]
    simp [isBlank, blankRanges]

end Parameter

/-! ### The body -/

/-- The statement of a block gives back what it returns. -/
theorem expressionOf_block (letters : List Char) :
    expressionOf ('{' :: (" return ".toList ++ letters ++ "; \x7d".toList)) =
      .ok (stripped letters) := by
  have closing : " return ".toList ++ letters ++ "; \x7d".toList =
      ' ' :: ("return".toList ++ ' ' :: (letters ++ [';']) ++ [' ']) ++ ['}'] := by simp
  have statement : stripped (' ' :: ("return".toList ++ ' ' :: (letters ++ [';']) ++ [' '])) =
      "return".toList ++ ' ' :: (letters ++ [';']) := by
    rw [stripped_cons_of_blank (by decide), stripped_append_of_blank (by decide)]
    apply stripped_eq_self
    · simp [isBlank, blankRanges]
    · simp [List.getLast?_append, List.getLast?_cons, isBlank, blankRanges]
  have returned : stripped (' ' :: (letters ++ [';'])) = unindented letters ++ [';'] := by
    rw [stripped_cons_of_blank (by decide), stripped, unindented_append_singleton (by decide),
      unpadded_append_singleton, if_neg (by decide)]
  have keyword : startsWithWord "return".toList
      ("return".toList ++ ' ' :: (letters ++ [';'])) = true :=
    (startsWithWord_iff (worded_of_all rfl) (worded_of_all rfl) _).mpr rfl
  have rest : ("return".toList ++ ' ' :: (letters ++ [';'])).drop "return".length =
      ' ' :: (letters ++ [';']) := List.drop_left' String.length_toList
  unfold expressionOf
  rw [closing]
  simp only [before?_append, statement, keyword, if_true, rest, returned, Option.getD_some,
    stripped_unindented]
  rfl

theorem after?_arrow (letters : List Char) :
    after? "=>".toList (unindented (' ' :: '=' :: '>' :: letters)) = some letters := by
  simp [unindented, isBlank, blankRanges, after?]

/-! ### Whole validators -/

theorem parse_declared {parameter source : String} {rest body : List Char}
    (legal : isIdentifier parameter.toList = true)
    (synchronous : startsWithWord "async".toList (stripped source.toList) = false)
    (arrow : startsWithWord "function".toList (stripped source.toList) = false)
    (declared : splitParameter? (stripped source.toList) = some (parameter.toList, rest))
    (follows : after? "=>".toList (unindented rest) = some body) :
    parse parameter source = expressionOf (stripped body) >>= keep := by
  have parts := isIdentifier_words legal
  have single : ¬ (',' ∈ parameter.toList ∨ parameter.toList = []) := by
    rintro (comma | empty)
    · exact absurd (parts ',' comma) (by decide)
    · simp [empty, isIdentifier, isWord] at legal
  unfold parse
  extract_lets letters body later
  rw [if_neg (ne_true_of_eq_false synchronous)]
  unfold later
  rw [if_neg (ne_true_of_eq_false arrow)]
  unfold body letters
  rw [declared]
  dsimp only
  rw [if_neg single, if_pos legal, if_pos rfl, follows]
  rfl

section Parse
variable {parameter : String} (legal : isIdentifier parameter.toList = true) (body : String)

include legal

theorem parse_parenthesized : parse parameter (Form.parenthesized.write parameter body) =
    expressionOf (stripped body.toList) >>= keep := by
  have named := isIdentifier_words legal
  have source : stripped (Form.parenthesized.write parameter body).toList =
      '(' :: (parameter.toList ++ ')' :: ' ' :: '=' :: '>' :: unpadded (' ' :: body.toList)) := by
    have front : (Form.parenthesized.write parameter body).toList =
        '(' :: (parameter.toList ++ ") =".toList) ++ '>' :: ' ' :: body.toList := by
      simp [Form.write]
    rw [front, List.cons_append, stripped_cons_of_filled (by decide), ← List.cons_append,
      unpadded_append_cons (by decide)]
    simp
  rw [← stripped_cons_of_blank (by decide : isBlank ' ' = true) body.toList,
    ← stripped_unpadded (' ' :: body.toList)]
  apply parse_declared legal
  · rw [source]
    rfl
  · rw [source]
    rfl
  · rw [source]
    exact splitParameter?_parenthesized named _
  · exact after?_arrow _

theorem stripped_bare : stripped (Form.bare.write parameter body).toList =
    parameter.toList ++ ' ' :: '=' :: '>' :: unpadded (' ' :: body.toList) := by
  have named := isIdentifier_words legal
  have front : (Form.bare.write parameter body).toList =
      (parameter.toList ++ " =".toList) ++ '>' :: ' ' :: body.toList := by
    simp [Form.write]
  rw [front]
  cases letters : parameter.toList with
  | nil => simp [letters, isIdentifier, isWord] at legal
  | cons first rest =>
    have filled : isBlank first = false := by
      apply isBlank_of_isWordPart
      exact named first (letters ▸ List.mem_cons_self)
    rw [List.cons_append, List.cons_append, stripped_cons_of_filled filled, ← List.cons_append,
      unpadded_append_cons (by decide)]
    simp

theorem parse_bare (other : parameter ≠ "async") :
    parse parameter (Form.bare.write parameter body) =
      expressionOf (stripped body.toList) >>= keep := by
  have named := isIdentifier_words legal
  have filled : parameter.toList ≠ [] := by
    intro empty
    simp [empty, isIdentifier, isWord] at legal
  have apart : ∀ word : String, (∀ letter ∈ word.toList, isWordPart letter = true) →
      parameter ≠ word →
      startsWithWord word.toList (stripped (Form.bare.write parameter body).toList) = false := by
    intro word worded different
    refine Bool.eq_false_iff.mpr fun begins => different ?_
    rw [stripped_bare legal, startsWithWord_iff worded named] at begins
    exact String.toList_inj.mp begins
  have unreserved : parameter ≠ "function" := by
    rintro rfl
    exact absurd legal (by decide)
  rw [← stripped_cons_of_blank (by decide : isBlank ' ' = true) body.toList,
    ← stripped_unpadded (' ' :: body.toList)]
  apply parse_declared legal
  · exact apart "async" (worded_of_all rfl) other
  · exact apart "function" (worded_of_all rfl) unreserved
  · rw [stripped_bare legal]
    exact splitParameter?_bare named _ filled
  · exact after?_arrow _

end Parse

theorem parse_bare_async (body : String) :
    parse "async" (Form.bare.write "async" body) = .error .asynchronous := by
  have legal : isIdentifier "async".toList = true := by decide
  have begins : startsWithWord "async".toList (stripped (Form.bare.write "async" body).toList) =
      true := by
    rw [stripped_bare legal]
    exact (startsWithWord_iff (worded_of_all rfl) (worded_of_all rfl) _).mpr rfl
  unfold parse
  extract_lets letters split later
  rw [if_pos begins]
  rfl

theorem parse_block {parameter : String} (legal : isIdentifier parameter.toList = true)
    (body : String) : parse parameter (Form.block.write parameter body) =
      keep (stripped body.toList) := by
  have block : Form.block.write parameter body =
      Form.parenthesized.write parameter ("\x7b return " ++ body ++ "; \x7d") := by
    simp only [Form.write, ← String.toList_inj, String.toList_append]
    simp
  have braced : ("\x7b return " ++ body ++ "; \x7d").toList =
      '{' :: (" return ".toList ++ body.toList ++ "; \x7d".toList) := by simp
  have trimmed : stripped ('{' :: (" return ".toList ++ body.toList ++ "; \x7d".toList)) =
      '{' :: (" return ".toList ++ body.toList ++ "; \x7d".toList) := by
    apply stripped_eq_self
    · simp [isBlank, blankRanges]
    · simp [List.getLast?_append, List.getLast?_cons, isBlank, blankRanges]
  rw [block, parse_parenthesized legal, braced, trimmed, expressionOf_block]
  rfl

theorem expressionOf_unbraced {letters : List Char} (unbraced : letters.head? ≠ some '{') :
    expressionOf letters = .ok letters := by
  unfold expressionOf
  split
  next => exact absurd rfl unbraced
  next => rfl

/-- What is kept of a validator can be written as a block again, and as a bare expression unless it
begins with a brace of its own; the same is kept of it. -/
theorem kept_parses_again {parameter source expression : String}
    (accepted : parse parameter source = .ok expression) :
    parse parameter (Form.block.write parameter expression) = .ok expression ∧
      (expression.toList.head? ≠ some '{' →
        parse parameter (Form.parenthesized.write parameter expression) = .ok expression) := by
  obtain ⟨legal, body, kept, read, again⟩ := kept_of_parse accepted
  obtain ⟨_, _, rfl⟩ := keep_eq_ok.mp again
  have trimmed : stripped (String.ofList kept).toList = kept := by
    rw [String.toList_ofList]
    exact expressionOf_stripped (stripped_stripped body) read
  constructor
  · rw [parse_block legal, trimmed]
    exact again
  · intro unbraced
    rw [String.toList_ofList] at unbraced
    rw [parse_parenthesized legal, trimmed, expressionOf_unbraced unbraced]
    exact again

theorem kept_parses_again_template :
    let source := "car => \x7b return car.parts.every(part => \x60$\x7bpart\x7d;\x60 !== \"\\\"\") ; \x7d"
    let expression := "car.parts.every(part => \x60$\x7bpart\x7d;\x60 !== \"\\\"\")"
    parse "car" source = .ok expression ∧
      parse "car" (Form.block.write "car" expression) = .ok expression ∧
      parse "car" (Form.parenthesized.write "car" expression) = .ok expression := by
  intro source expression
  have accepted : parse "car" source = .ok expression := by decide +kernel
  obtain ⟨block, plain⟩ := kept_parses_again accepted
  exact ⟨accepted, block, plain (by decide +kernel)⟩

/-! ### Agreement of the forms -/

/-- The faults that reading an expression may find. -/
def scanFaults : List Fault := [.unbalanced, .statements, .comment, .unterminated]

theorem Scan.step_fault {scan : Scan} {letter : Char} {fault : Fault}
    (refused : scan.step letter = .error fault) : fault ∈ scanFaults := by
  unfold step read stepCode at refused
  grind [Except.map, scanFaults]

theorem Scan.finish_fault {scan : Scan} {fault : Fault} (refused : scan.finish = .error fault) :
    fault ∈ scanFaults := by
  unfold finish finish.closed at refused
  grind [scanFaults]

theorem wordsOf_fault {expression : List Char} {fault : Fault}
    (refused : wordsOf expression = .error fault) : fault ∈ scanFaults := by
  have run : ∀ scan : Scan, (expression.foldlM Scan.step scan >>= Scan.finish) = .error fault →
      fault ∈ scanFaults := by
    clear refused
    induction expression with
    | nil => exact fun scan => Scan.finish_fault
    | cons letter rest ih =>
      intro scan refused
      rw [List.foldlM_cons] at refused
      cases stepped : scan.step letter with
      | error found =>
        rw [stepped] at refused
        cases refused
        exact Scan.step_fault stepped
      | ok next =>
        rw [stepped] at refused
        exact ih next refused
  exact run {} refused

/-- An expression by itself is never taken for an asynchronous function. -/
theorem keep_ne_asynchronous (expression : List Char) : keep expression ≠ .error .asynchronous := by
  intro refused
  unfold keep at refused
  split at refused
  · cases refused
  · cases scanned : wordsOf expression with
    | error fault =>
      rw [scanned] at refused
      cases refused
      exact absurd (wordsOf_fault scanned) (by decide)
    | ok words =>
      rw [scanned] at refused
      dsimp only [bind, Except.bind] at refused
      split at refused <;> cases refused

section Agreement
variable {parameter body : String} (legal : isIdentifier parameter.toList = true)
  (unbraced : (stripped body.toList).head? ≠ some '{')

include legal unbraced

theorem parse_write {form : Form} (taken : form = .bare → parameter ≠ "async") :
    parse parameter (form.write parameter body) = keep (stripped body.toList) := by
  have expression := expressionOf_unbraced unbraced
  cases form with
  | bare =>
    rw [parse_bare legal body (taken rfl), expression]
    rfl
  | parenthesized =>
    rw [parse_parenthesized legal, expression]
    rfl
  | block => exact parse_block legal body

/-- Whatever a body is, all forms lead to the same expression or to the same refusal, exactly if the
parameter is not named `async`. The two forms with parentheses always agree; without them that
parameter is taken for the word that makes a function asynchronous. -/
theorem forms_agree_iff :
    ((∀ form other : Form, parse parameter (form.write parameter body) =
        parse parameter (other.write parameter body)) ↔ parameter ≠ "async") ∧
      parse parameter (Form.parenthesized.write parameter body) =
        parse parameter (Form.block.write parameter body) ∧
      (parameter = "async" →
        parse parameter (Form.bare.write parameter body) = .error .asynchronous) := by
  have plain : parse parameter (Form.parenthesized.write parameter body) =
      keep (stripped body.toList) := parse_write legal unbraced nofun
  refine ⟨⟨?_, ?_⟩, ?_, ?_⟩
  · rintro agree rfl
    have bare := (agree .bare .parenthesized).symm.trans (parse_bare_async body)
    exact keep_ne_asynchronous _ (plain.symm.trans bare)
  · intro other form further
    rw [parse_write legal unbraced fun _ => other, parse_write legal unbraced fun _ => other]
  · rw [plain, parse_block legal]
  · rintro rfl
    exact parse_bare_async body

end Agreement

theorem forms_agree_car :
    (∀ form other : Form, parse "car" (form.write "car" " car?.ok\n") =
        parse "car" (other.write "car" " car?.ok\n")) ∧
      (∀ form other : Form, parse "car" (form.write "car" "car.ok; car.old;") =
        parse "car" (other.write "car" "car.ok; car.old;")) ∧
      parse "car" (Form.bare.write "car" " car?.ok\n") = .ok "car?.ok" ∧
      parse "car" (Form.bare.write "car" "car.ok; car.old;") = .error .statements := by
  have legal : isIdentifier "car".toList = true := by decide
  have other : "car" ≠ "async" := by decide
  exact ⟨(forms_agree_iff legal (by decide +kernel)).1.mpr other,
    (forms_agree_iff legal (by decide +kernel)).1.mpr other, by decide +kernel, by decide +kernel⟩

/-- A parameter named `async` is accepted in parentheses only, though it is a name like any other. -/
theorem async_refused_bare :
    checkDimensionName "async" true = .ok () ∧
      parse "async" (Form.bare.write "async" "async.ok") = .error .asynchronous ∧
      parse "async" (Form.parenthesized.write "async" "async.ok") = .ok "async.ok" ∧
      parse "async" (Form.block.write "async" "async.ok") = .ok "async.ok" := by
  decide +kernel

end CompositeKeys.Validator
