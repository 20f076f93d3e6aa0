import CompositeKeys.Collection.Phase
import Mathlib.Computability.RegularExpressions

/-! The phases that an order lets follow each other, as a language. What may still be requested
after a phase is an expression of its own, and entering a phase takes a letter off it. -/

namespace CompositeKeys

open RegularExpression (char)
open scoped Computability

namespace Order

def optional (phase : Phase) : RegularExpression Phase := 1 + char phase

def several (phase : Phase) : RegularExpression Phase := char phase * (char phase).star

/-- The phases between the texts at the head of a declaration and its end. -/
def content : Order → RegularExpression Phase
  | .map => several .mapKeys * optional .valueType
  | .set => several .setElements
  | .mapOfSets => several .mapKeys * several .setElements
  | .oneToOne => char .pairing

/-- The sequences of phases that make up a whole declaration. -/
def grammar (order : Order) : RegularExpression Phase :=
  optional .overview * optional .importText * order.content * char .locked

/-- What may still be requested after a phase. -/
def remaining (order : Order) : Phase → RegularExpression Phase
  | .start => order.grammar
  | .overview => optional .importText * order.content * char .locked
  | .importText => order.content * char .locked
  | .mapKeys =>
    match order with
    | .map => (char .mapKeys).star * optional .valueType * char .locked
    | .mapOfSets => (char .mapKeys).star * several .setElements * char .locked
    | .set | .oneToOne => 0
  | .setElements =>
    match order with
    | .set | .mapOfSets => (char .setElements).star * char .locked
    | .map | .oneToOne => 0
  | .valueType => if order = .map then char .locked else 0
  | .pairing => if order = .oneToOne then char .locked else 0
  | .locked => 1
  | .errored => 0

section Letters
variable {letter next : Phase} {rest : List Phase} {after : Language Phase}

theorem cons_mem_letter :
    next :: rest ∈ ({[letter]} : Language Phase) ↔ next = letter ∧ rest = [] :=
  Set.mem_singleton_iff.trans List.cons_eq_cons

theorem cons_mem_letter_mul : next :: rest ∈ {[letter]} * after ↔ next = letter ∧ rest ∈ after := by
  rw [Language.mem_mul]
  constructor
  · rintro ⟨_, rfl, later, member, same⟩
    obtain ⟨rfl, rfl⟩ := List.cons_eq_cons.mp same
    exact ⟨rfl, member⟩
  · rintro ⟨rfl, member⟩
    exact ⟨[next], rfl, rest, member, rfl⟩

theorem nil_notMem_letter_mul : [] ∉ {[letter]} * after := by
  rintro ⟨_, rfl, later, _, same⟩
  cases same

/-- A repeated letter comes once more or leaves the word to what stands after it. -/
theorem mem_letters_mul {word : List Phase} :
    word ∈ {[letter]}∗ * after ↔ word ∈ {[letter]} * ({[letter]}∗ * after) ∨ word ∈ after := by
  have unrolled := Language.one_add_self_mul_kstar_eq_kstar ({[letter]} : Language Phase)
  conv_lhs => rw [← unrolled, one_add_mul, mul_assoc, Language.mem_add, or_comm]

theorem cons_mem_letters_mul :
    next :: rest ∈ {[letter]}∗ * after ↔
      next = letter ∧ rest ∈ {[letter]}∗ * after ∨ next :: rest ∈ after :=
  mem_letters_mul.trans (or_congr_left cons_mem_letter_mul)

theorem nil_mem_letters_mul : [] ∈ {[letter]}∗ * after ↔ [] ∈ after :=
  mem_letters_mul.trans (or_iff_right nil_notMem_letter_mul)

theorem cons_mem_optional_mul :
    next :: rest ∈ (optional letter).matches' * after ↔
      next = letter ∧ rest ∈ after ∨ next :: rest ∈ after := by
  rw [optional, RegularExpression.matches'_add, RegularExpression.matches'_char,
    RegularExpression.matches'_epsilon, one_add_mul, Language.mem_add, cons_mem_letter_mul, or_comm]

theorem nil_mem_optional_mul : [] ∈ (optional letter).matches' * after ↔ [] ∈ after := by
  rw [optional, RegularExpression.matches'_add, RegularExpression.matches'_char,
    RegularExpression.matches'_epsilon, one_add_mul, Language.mem_add]
  exact or_iff_left nil_notMem_letter_mul

theorem nil_notMem_letter : [] ∉ ({[letter]} : Language Phase) := by
  rintro ⟨⟩

end Letters

theorem nil_mem_remaining {order : Order} {phase : Phase} :
    [] ∈ (order.remaining phase).matches' ↔ phase = .locked := by
  cases order <;> cases phase <;>
    simp [remaining, grammar, content, several, mul_assoc, nil_mem_optional_mul,
      nil_mem_letters_mul, nil_notMem_letter_mul, nil_notMem_letter, Language.mem_one]

section Steps
variable {order : Order} {phase next : Phase} {rest : List Phase}

theorem mem_remaining_of_successor (follows : next ∈ order.successors phase) :
    next :: rest ∈ (order.remaining phase).matches' ↔ rest ∈ (order.remaining next).matches' := by
  revert next
  cases order <;> cases phase <;>
    simp [successors, opening, remaining, grammar, content, several, mul_assoc,
      cons_mem_optional_mul, cons_mem_letters_mul, cons_mem_letter_mul, cons_mem_letter,
      Language.mem_one]

theorem successor_of_mem_remaining (accepted : next :: rest ∈ (order.remaining phase).matches') :
    next ∈ order.successors phase := by
  cases order <;> cases phase <;>
    simp [successors, opening, remaining, grammar, content, several, mul_assoc,
      cons_mem_optional_mul, cons_mem_letters_mul, cons_mem_letter_mul, cons_mem_letter]
      at accepted ⊢
  all_goals grind

theorem cons_mem_remaining :
    next :: rest ∈ (order.remaining phase).matches' ↔
      next ∈ order.successors phase ∧ rest ∈ (order.remaining next).matches' := by
  constructor
  · intro accepted
    have follows := successor_of_mem_remaining accepted
    exact ⟨follows, (mem_remaining_of_successor follows).mp accepted⟩
  · rintro ⟨follows, later⟩
    exact (mem_remaining_of_successor follows).mpr later

end Steps

/-- What may still be requested is what leads to the end. -/
theorem mem_remaining_iff {order : Order} {phase : Phase} {requests : List Phase} :
    requests ∈ (order.remaining phase).matches' ↔
      ∃ final, requests.foldlM Lifecycle.enter? ⟨order, phase⟩ = some final ∧
        final.phase = .locked := by
  -- Every request moves on to what remains after another phase, so the phase is generalized.
  induction requests generalizing phase with
  | nil => simp [nil_mem_remaining]
  | cons next rest ih =>
    rw [cons_mem_remaining, ih, List.foldlM_cons]
    by_cases follows : next ∈ order.successors phase
    · simp [Lifecycle.enter?, follows]
    · simp [Lifecycle.enter?, follows]

end Order

/-- Where requests lead is where the last of them leads. -/
theorem Lifecycle.phase_of_entered {lifecycle final : Lifecycle} {requests : List Phase}
    (entered : requests.foldlM enter? lifecycle = some final) :
    final.phase = requests.getLast?.getD lifecycle.phase := by
  induction requests generalizing lifecycle with
  | nil =>
    cases entered
    rfl
  | cons next rest ih =>
    rw [List.foldlM_cons] at entered
    obtain ⟨advanced, first, later⟩ := Option.bind_eq_some_iff.mp entered
    have reached : advanced.phase = next := by
      simp only [enter?] at first
      split at first <;> cases first
      rfl
    rw [ih later, List.getLast?_cons, reached]
    rfl

/-- All requests succeed from the start and the last one locks the declaration exactly if they are
a word of the grammar. -/
theorem Order.accepted_iff_mem_grammar (order : Order) (requests : List Phase) :
    ((requests.foldlM Lifecycle.enter? { order }).isSome = true ∧
      requests.getLast? = some .locked) ↔ requests ∈ order.grammar.matches' := by
  change _ ↔ requests ∈ (order.remaining .start).matches'
  rw [mem_remaining_iff, Option.isSome_iff_exists]
  constructor
  · rintro ⟨⟨final, entered⟩, last⟩
    refine ⟨final, entered, ?_⟩
    rw [Lifecycle.phase_of_entered entered, last]
    rfl
  · rintro ⟨final, entered, locked⟩
    refine ⟨⟨final, entered⟩, ?_⟩
    rw [Lifecycle.phase_of_entered entered] at locked
    cases last : requests.getLast? with
    | none => simp [last] at locked
    | some phase => simpa [last] using locked

example :
    [.overview, .mapKeys, .mapKeys, .setElements, .locked] ∈ Order.mapOfSets.grammar.matches' := by
  decide

end CompositeKeys
