import CompositeKeys.Proofs.Refusal
import CompositeKeys.Proofs.Text.Blank
import CompositeKeys.Proofs.Validator.Expression

/-! The scanner reads closed expressions only. At any place, what has been read are the texts that
lead up to the groups still open, one inside the other, and a part of the innermost group; every
letter takes such a place to another one. -/

namespace CompositeKeys.Validator
open Text

/-- Words that have been found may stand anywhere, all others behind a dot. -/
def FoundOrBehindDot (found : List (List Char)) : WordRule := fun before word =>
  word ∈ found ∨ lastFilled before = some '.'

namespace Scan

/-- What leads up to the innermost of the groups that are open. -/
inductive Around (allowed : WordRule) : List Opening → List Char → Prop where
  | outside : Around allowed [] []
  | group {openings outer ended before letter opening} (around : Around allowed openings outer)
      (inCode : openings.head? ≠ some .template)
      (code : Reads allowed (.code openings.isEmpty ended) before)
      (opens : (letter, opening) ∈ [('(', .parenthesis), ('[', .bracket), ('{', .brace)]) :
      Around allowed (opening :: openings) (outer ++ (before ++ [letter]))
  | template {openings outer ended before} (around : Around allowed openings outer)
      (inCode : openings.head? ≠ some .template)
      (code : Reads allowed (.code openings.isEmpty ended) before) :
      Around allowed (.template :: openings) (outer ++ (before ++ ['\x60']))
  | substitution {openings outer dollar before}
      (around : Around allowed (.template :: openings) outer)
      (body : Reads allowed (.template dollar) before) :
      Around allowed (.substitution :: .template :: openings) (outer ++ (before ++ ['$', '{']))

/-- A part of a group, by what comes next in it. -/
inductive Within (allowed : WordRule) (openings : List Opening) : Reading → List Char → Prop where
  | code {inside} (inCode : openings.head? ≠ some .template)
      (code : Reads allowed (.code openings.isEmpty false) inside)
      (apart : inside.getLast? ≠ some '/') : Within allowed openings .code inside
  | slash {inside} (inCode : openings.head? ≠ some .template)
      (code : Reads allowed (.code openings.isEmpty false) inside) :
      Within allowed openings .slash inside
  | word {before letters isProperty} (inCode : openings.head? ≠ some .template)
      (code : Reads allowed (.code openings.isEmpty false) before)
      (worded : isWord letters.reverse = true)
      (behind : isProperty = true → lastFilled before = some '.') :
      Within allowed openings (.word letters isProperty) (before ++ letters.reverse)
  | string {ended before quote body} (inCode : openings.head? ≠ some .template)
      (code : Reads allowed (.code openings.isEmpty ended) before) (marked : quote ∈ quotes)
      (quoted : Quoted quote body) :
      Within allowed openings (.string quote) (before ++ quote :: body)
  | stringEscape {ended before quote body} (inCode : openings.head? ≠ some .template)
      (code : Reads allowed (.code openings.isEmpty ended) before) (marked : quote ∈ quotes)
      (quoted : Quoted quote body) :
      Within allowed openings (.stringEscape quote) (before ++ quote :: (body ++ ['\\']))
  | template {inside} (inTemplate : openings.head? = some .template)
      (body : Reads allowed (.template false) inside) : Within allowed openings .template inside
  | templateEscape {dollar before} (inTemplate : openings.head? = some .template)
      (body : Reads allowed (.template dollar) before) :
      Within allowed openings .templateEscape (before ++ ['\\'])
  | dollar {dollar before} (inTemplate : openings.head? = some .template)
      (body : Reads allowed (.template dollar) before) :
      Within allowed openings .dollar (before ++ ['$'])

/-- A scan is at a place that the letters lead to. -/
structure Placed (allowed : WordRule) (scan : Scan) (letters : List Char) : Prop where
  intro ::
  place : ∃ outer inside, letters = outer ++ inside ∧ Around allowed scan.openings outer ∧
    Within allowed scan.openings scan.reading inside

variable {allowed : WordRule} {scan next : Scan} {letter : Char} {letters outer inside : List Char}

theorem Around.lastFilled_ne_dot {openings : List Opening} (around : Around allowed openings outer) :
    lastFilled outer ≠ some '.' := by
  have ending : ∀ front (letter : Char), isBlank letter = false → letter ≠ '.' →
      lastFilled (front ++ [letter]) ≠ some '.' := by
    intro front letter filled other
    simp [lastFilled_append_singleton, filled, other]
  cases around with
  | outside => simp [lastFilled, unpadded]
  | group _ _ _ opens =>
    rw [← List.append_assoc]
    simp only [List.mem_cons, Prod.mk.injEq, List.not_mem_nil, or_false] at opens
    rcases opens with ⟨rfl, _⟩ | ⟨rfl, _⟩ | ⟨rfl, _⟩
    · exact ending _ _ (by decide) (by decide)
    · exact ending _ _ (by decide) (by decide)
    · exact ending _ _ (by decide) (by decide)
  | template =>
    rw [← List.append_assoc]
    exact ending _ _ (by decide) (by decide)
  | @substitution _ outer _ before _ _ =>
    have split : outer ++ (before ++ ['$', '{']) = (outer ++ before ++ ['$']) ++ ['{'] := by simp
    rw [split]
    exact ending _ _ (by decide) (by decide)

/-- A word behind a dot stands behind it in its own group. -/
theorem Around.behind_dot {openings : List Opening} (around : Around allowed openings outer)
    (behind : lastFilled (outer ++ inside) = some '.') : lastFilled inside = some '.' := by
  rw [lastFilled_append] at behind
  cases last : lastFilled inside with
  | none =>
    rw [last, Option.none_or] at behind
    exact absurd behind around.lastFilled_ne_dot
  | some letter => simpa [last] using behind

theorem stepCode_kept (stepped : scan.stepCode letter = .ok next) :
    next.words = scan.words ∧ next.previous = scan.previous := by
  unfold stepCode at stepped
  grind

theorem read_previous (stepped : scan.read letter = .ok next) : next.previous = scan.previous := by
  unfold read stepTemplate at stepped
  have := @stepCode_kept
  grind [endWord]

theorem resumed_of_code {openings : List Opening} (inCode : openings.head? ≠ some .template) :
    resumed openings = .code := by
  unfold resumed
  split
  · simp at inCode
  · rfl

/-- A bracket that may close the innermost group closes it. -/
theorem Around.close {openings : List Opening} {opening : Opening} {ended : Bool}
    (around : Around allowed (opening :: openings) outer) (code : opening ≠ .template)
    (inner : Reads allowed (.code false ended) inside) (closing : closes letter opening = true) :
    ∃ outer' inside', outer ++ (inside ++ [letter]) = outer' ++ inside' ∧
      Around allowed openings outer' ∧ Within allowed openings (resumed openings) inside' := by
  cases around with
  | @group _ outer ended before letter' opening around inCode code opens =>
    refine ⟨outer, before ++ letter' :: (inside ++ [letter]), by simp, around, ?_⟩
    have pair : (letter', letter) ∈ brackets := by
      simp only [List.mem_cons, Prod.mk.injEq, List.not_mem_nil, or_false] at opens
      rcases opens with ⟨rfl, rfl⟩ | ⟨rfl, rfl⟩ | ⟨rfl, rfl⟩ <;> unfold closes at closing <;>
        split at closing <;> simp_all [brackets]
    rw [resumed_of_code inCode]
    refine .code inCode (.group code pair inner) ?_
    simp only [brackets, List.mem_cons, Prod.mk.injEq, List.not_mem_nil, or_false] at pair
    rcases pair with ⟨_, rfl⟩ | ⟨_, rfl⟩ | ⟨_, rfl⟩ <;> simp [List.getLast?_append, List.getLast?_cons]
  | template => exact absurd rfl code
  | @substitution openings outer dollar before around body =>
    have brace : letter = '}' := by
      unfold closes at closing
      split at closing <;> simp_all
    subst brace
    exact ⟨outer, before ++ '$' :: '{' :: (inside ++ ['}']), by simp, around,
      .template rfl (.substitution body inner)⟩

/-- Reading a letter of code, behind any part of a group in code. -/
theorem stepCode_placed {ended : Bool} (around : Around allowed scan.openings outer)
    (inCode : scan.openings.head? ≠ some .template)
    (code : Reads allowed (.code scan.openings.isEmpty ended) inside)
    (apart : ended = true → isWordPart letter = false)
    (uncommented : letter ∈ ['/', '*'] → inside.getLast? ≠ some '/')
    (previous : scan.previous = lastFilled (outer ++ inside))
    (stepped : scan.stepCode letter = .ok next) :
    Placed allowed next (outer ++ inside ++ [letter]) := by
  rw [List.append_assoc]
  -- One case for each kind of letter, in the order in which the scanner asks for them.
  unfold stepCode at stepped
  split at stepped
  next slash =>
    obtain rfl := Except.ok.inj stepped
    subst slash
    refine ⟨outer, inside ++ ['/'], rfl, around, .slash inCode ?_⟩
    exact .symbol code (by decide) (by decide) apart (by simp) uncommented
  next noSlash =>
  split at stepped
  next quote =>
    obtain rfl := Except.ok.inj stepped
    exact ⟨outer, inside ++ [letter], rfl, around, .string inCode code (by simpa [quotes]) .empty⟩
  next noQuote =>
  split at stepped
  next opening opened =>
    obtain rfl := Except.ok.inj stepped
    refine ⟨outer ++ (inside ++ [letter]), [], (List.append_nil _).symm, ?_, ?_⟩
    · unfold opens? at opened
      split at opened <;> cases opened
      · exact .group around inCode code (by decide)
      · exact .group around inCode code (by decide)
      · exact .group around inCode code (by decide)
      · exact .template around inCode code
    · unfold opens? at opened
      split at opened <;> cases opened
      · exact .code (by simp) .code (by simp)
      · exact .code (by simp) .code (by simp)
      · exact .code (by simp) .code (by simp)
      · exact .template rfl .template
  next noOpening =>
  split at stepped
  next closing =>
    split at stepped
    next opening rest opened =>
      split at stepped
      next closes =>
        obtain rfl := Except.ok.inj stepped
        rw [opened] at around inCode code
        exact ⟨around.close (by rintro rfl; exact inCode rfl) code closes⟩
      · cases stepped
    · cases stepped
  next noClosing =>
  split at stepped
  · cases stepped
  next single =>
  split at stepped
  next start =>
    obtain rfl := Except.ok.inj stepped
    have part := isWordPart_of_start start
    have fresh : ended = false := by
      cases ended with
      | false => rfl
      | true => simp [apart rfl] at part
    subst fresh
    refine ⟨outer, inside ++ [letter], rfl, around, .word inCode code (by simp [isWord, start]) ?_⟩
    intro behind
    rw [decide_eq_true_eq, previous] at behind
    exact around.behind_dot behind
  next noStart =>
    obtain rfl := Except.ok.inj stepped
    refine ⟨outer, inside ++ [letter], rfl, around, .code inCode ?_ (by simpa using noSlash)⟩
    refine .symbol code ?_ (by simpa using noStart) apart ?_ uncommented
    · unfold opens? at noOpening
      split at noOpening <;> simp_all [delimiters]
    · intro bare semicolon
      exact single ⟨semicolon, by simpa using bare⟩

theorem stepTemplate_placed {dollar : Bool} (around : Around allowed scan.openings outer)
    (inTemplate : scan.openings.head? = some .template)
    (body : Reads allowed (.template dollar) inside) (apart : dollar = true → letter ≠ '{') :
    Placed allowed (scan.stepTemplate letter) (outer ++ inside ++ [letter]) := by
  rw [List.append_assoc]
  unfold stepTemplate
  split
  next backslash =>
    subst backslash
    exact ⟨outer, inside ++ ['\\'], rfl, around, .templateEscape inTemplate body⟩
  next noBackslash =>
  split
  next backtick =>
    subst backtick
    obtain ⟨reading, _ | ⟨opening, openings⟩, previous, words⟩ := scan
    · cases inTemplate
    obtain rfl := Option.some.inj inTemplate
    cases around with
    | @template _ outer _ before around inCode code =>
      refine ⟨outer, before ++ '\x60' :: (inside ++ ['\x60']), by simp, around, ?_⟩
      simp only [List.tail_cons, resumed_of_code inCode]
      exact .code inCode (.quasi code body) (by simp [List.getLast?_append, List.getLast?_cons])
    | group _ _ _ opens => simp at opens
  next noBacktick =>
  split
  next isDollar =>
    subst isDollar
    exact ⟨outer, inside ++ ['$'], rfl, around, .dollar inTemplate body⟩
  next noDollar =>
    refine ⟨outer, inside ++ [letter], rfl, around, .template inTemplate ?_⟩
    have read := Reads.letter body (by simp [noBackslash, noBacktick]) apart
    simpa [noDollar] using read

theorem read_placed {found : List (List Char)}
    (placed : Placed (FoundOrBehindDot found) scan letters)
    (previous : scan.previous = lastFilled letters) (kept : ∀ word ∈ next.words, word ∈ found)
    (stepped : scan.read letter = .ok next) :
    Placed (FoundOrBehindDot found) next (letters ++ [letter]) := by
  obtain ⟨outer, inside, rfl, around, within⟩ := placed
  obtain ⟨reading, openings, last, words⟩ := scan
  dsimp only at around within previous
  cases within with
  | code inCode code apart =>
    exact stepCode_placed around inCode code (by simp) (fun _ => apart) previous stepped
  | slash inCode code =>
    simp only [read] at stepped
    split at stepped
    · cases stepped
    next uncommented =>
      refine stepCode_placed around inCode code (by simp) ?_ previous stepped
      intro comment
      simp only [List.mem_cons, List.not_mem_nil, or_false] at comment
      exact absurd comment uncommented
  | @word before word isProperty inCode code worded behind =>
    simp only [read] at stepped
    split at stepped
    next part =>
      obtain rfl := Except.ok.inj stepped
      refine ⟨outer, before ++ (letter :: word).reverse, by simp, around,
        .word inCode code ?_ behind⟩
      cases first : word.reverse with
      | nil => simp [first, isWord] at worded
      | cons start rest =>
        simp only [first, isWord, Bool.and_eq_true] at worded
        simp [first, isWord, worded, part]
    next ended =>
      refine stepCode_placed around inCode (.word code worded ?_) (by simpa using ended) ?_ previous
        stepped
      · cases isProperty with
        | true => exact .inr (behind rfl)
        | false =>
          rw [(stepCode_kept stepped).1] at kept
          exact .inl (kept _ (by simp [endWord]))
      · intro _ slash
        obtain ⟨filled, parts⟩ := isWord_parts worded
        have part := parts _ (List.getLast_mem filled)
        rw [List.getLast?_append, List.getLast?_eq_some_getLast filled, Option.some_or,
          Option.some_inj] at slash
        simp [slash, isWordPart] at part
  | @string ended before quote body inCode code marked quoted =>
    simp only [read] at stepped
    split at stepped
    · cases stepped
    next noBreak =>
    split at stepped
    next backslash =>
      obtain rfl := Except.ok.inj stepped
      subst backslash
      exact ⟨outer, before ++ quote :: (body ++ ['\\']), by simp, around,
        .stringEscape inCode code marked quoted⟩
    next noBackslash =>
    split at stepped
    next closing =>
      obtain rfl := Except.ok.inj stepped
      subst closing
      refine ⟨outer, before ++ letter :: (body ++ [letter]), by simp, around,
        .code inCode (.string code marked quoted) ?_⟩
      simp only [quotes, List.mem_cons, List.not_mem_nil, or_false] at marked
      rcases marked with rfl | rfl <;> simp [List.getLast?_append, List.getLast?_cons]
    next other =>
      obtain rfl := Except.ok.inj stepped
      exact ⟨outer, before ++ quote :: (body ++ [letter]), by simp, around,
        .string inCode code marked (.letter quoted (by simp [noBreak, noBackslash, other]))⟩
  | @stringEscape ended before quote body inCode code marked quoted =>
    obtain rfl := Except.ok.inj stepped
    exact ⟨outer, before ++ quote :: (body ++ ['\\', letter]), by simp, around,
      .string inCode code marked (.escaped quoted)⟩
  | template inTemplate body =>
    obtain rfl := Except.ok.inj stepped
    exact stepTemplate_placed around inTemplate body (by simp)
  | @templateEscape dollar before inTemplate body =>
    obtain rfl := Except.ok.inj stepped
    exact ⟨outer, before ++ ['\\', letter], by simp, around, .template inTemplate (.escaped body)⟩
  | @dollar dollar before inTemplate body =>
    simp only [read] at stepped
    split at stepped
    next brace =>
      obtain rfl := Except.ok.inj stepped
      subst brace
      obtain _ | ⟨opening, openings⟩ := openings
      · cases inTemplate
      obtain rfl := Option.some.inj inTemplate
      exact ⟨outer ++ (before ++ ['$', '{']), [], by simp, .substitution around body,
        .code (by simp) .code (by simp)⟩
    next noBrace =>
      obtain rfl := Except.ok.inj stepped
      exact stepTemplate_placed around inTemplate (.letter body (by decide) (by simp))
        (fun _ => noBrace)

theorem read_words (stepped : scan.read letter = .ok next) :
    ∀ word ∈ scan.words, word ∈ next.words := by
  unfold read stepTemplate at stepped
  have := @stepCode_kept
  grind [endWord]

/-- A scan that remembers the last letter that is not blank. -/
structure Reached (allowed : WordRule) (scan : Scan) (letters : List Char) : Prop
    extends Placed allowed scan letters where
  previous : scan.previous = lastFilled letters

theorem step_reached {found : List (List Char)}
    (reached : Reached (FoundOrBehindDot found) scan letters)
    (kept : ∀ word ∈ next.words, word ∈ found) (stepped : scan.step letter = .ok next) :
    Reached (FoundOrBehindDot found) next (letters ++ [letter]) := by
  obtain ⟨read, accepted, rfl⟩ := map_eq_ok.mp stepped
  have previous := (read_previous accepted).trans reached.previous
  rw [apply_ite words, ite_self] at kept
  obtain ⟨place⟩ := read_placed reached.toPlaced reached.previous kept accepted
  split
  next blank => exact ⟨⟨place⟩, by simp [lastFilled_append_singleton, blank, previous]⟩
  next filled => exact ⟨⟨place⟩, by simp [lastFilled_append_singleton, filled]⟩

theorem step_words (stepped : scan.step letter = .ok next) :
    ∀ word ∈ scan.words, word ∈ next.words := by
  obtain ⟨read, accepted, rfl⟩ := map_eq_ok.mp stepped
  rw [apply_ite words, ite_self]
  exact read_words accepted

theorem run_words {rest : List Char} (run : rest.foldlM step scan = .ok next) :
    ∀ word ∈ scan.words, word ∈ next.words := by
  induction rest generalizing scan with
  | nil =>
    obtain rfl := pure_eq_ok.mp run
    exact fun _ member => member
  | cons letter rest ih =>
    obtain ⟨middle, stepped, run⟩ := bind_eq_ok.mp run
    exact fun word member => ih run word (step_words stepped word member)

theorem run_reached {found : List (List Char)} {rest : List Char}
    (reached : Reached (FoundOrBehindDot found) scan letters)
    (kept : ∀ word ∈ next.words, word ∈ found) (run : rest.foldlM step scan = .ok next) :
    Reached (FoundOrBehindDot found) next (letters ++ rest) := by
  induction rest generalizing scan letters with
  | nil =>
    obtain rfl := pure_eq_ok.mp run
    simpa using reached
  | cons letter rest ih =>
    obtain ⟨middle, stepped, run⟩ := bind_eq_ok.mp run
    have sooner := fun word member => kept word (run_words run word member)
    simpa using ih (step_reached reached sooner stepped) run

theorem initial_reached {allowed : WordRule} : Reached allowed {} [] :=
  ⟨⟨[], [], rfl, .outside, .code (by simp) .code (by simp)⟩, rfl⟩

/-- A scan that ends well has read a closed expression, whose words it gives. -/
theorem Placed.finish {found : List (List Char)}
    (placed : Placed (FoundOrBehindDot found) scan letters)
    (finished : scan.finish = .ok found) : Closed (FoundOrBehindDot found) letters := by
  obtain ⟨outer, inside, rfl, around, within⟩ := placed
  obtain ⟨reading, openings, previous, words⟩ := scan
  dsimp only at around within
  have closed : openings = [] := by
    unfold finish finish.closed at finished
    grind [endWord]
  subst closed
  cases around
  rw [List.nil_append]
  cases within with
  | code _ code => exact ⟨_, code⟩
  | slash _ code => exact ⟨_, code⟩
  | @word before word isProperty _ code worded behind =>
    refine ⟨_, .word code worded ?_⟩
    cases isProperty with
    | true => exact .inr (behind rfl)
    | false =>
      obtain rfl := Except.ok.inj finished
      exact .inl (by simp [endWord])
  | string => cases finished
  | stringEscape => cases finished
  | template inTemplate => cases inTemplate
  | templateEscape inTemplate => cases inTemplate
  | dollar inTemplate => cases inTemplate

theorem finish_words {found : List (List Char)} (finished : scan.finish = .ok found) :
    ∀ word ∈ scan.words, word ∈ found := by
  unfold finish finish.closed at finished
  grind [endWord]

end Scan

/-- The words that scanning gives are all those that do not stand behind a dot. -/
theorem closed_of_wordsOf {expression : List Char} {found : List (List Char)}
    (scanned : wordsOf expression = .ok found) : Closed (FoundOrBehindDot found) expression := by
  obtain ⟨last, run, finished⟩ := bind_eq_ok.mp scanned
  have reached := Scan.run_reached Scan.initial_reached (Scan.finish_words finished) run
  exact reached.toPlaced.finish finished

end CompositeKeys.Validator
