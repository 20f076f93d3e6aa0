import CompositeKeys.Proofs.Text.Passes

/-! What the normal form leaves of a text. The lines of a part in normal form stand one after
another in the normal form of the whole, an empty line at the end adds nothing, and no line ends in
a blank. -/

namespace CompositeKeys.Text

section Spacing
variable (owed : Bool) (first second : List (List Char))

/-- Whether an empty line is owed after lines. -/
def owes : Bool → List (List Char) → Bool
  | owed, [] => owed
  | _, line :: rest => owes (line = []) rest

theorem spaced_append : spaced owed (first ++ second) =
    spaced owed first ++ spaced (owes owed first) second := by
  induction first generalizing owed with
  | nil => simp [spaced, owes]
  | cons line rest ih =>
    by_cases empty : line = []
    · simp [spaced, owes, empty, ih]
    · cases owed <;> simp [spaced, owes, empty, ih]

theorem tidyLines_suffix_spaced : tidyLines first <:+ spaced owed first := by
  induction first generalizing owed with
  | nil => simp [tidyLines, spaced]
  | cons line rest ih =>
    by_cases empty : line = []
    · simpa [tidyLines, spaced, empty] using ih true
    · cases owed <;> simp [tidyLines, spaced, empty]

theorem tidyLines_isPrefix : tidyLines first <+: tidyLines (first ++ second) := by
  unfold tidyLines
  rw [List.dropWhile_append]
  split
  next blank => simp [List.isEmpty_iff.mp blank, spaced]
  next => 
    rw [spaced_append]
    exact List.prefix_append _ _

theorem tidyLines_isSuffix : tidyLines second <:+ tidyLines (first ++ second) := by
  unfold tidyLines
  rw [List.dropWhile_append]
  split
  · exact List.suffix_rfl
  · rw [spaced_append]
    exact (tidyLines_suffix_spaced _ second).trans (List.suffix_append _ _)

theorem mem_of_mem_spaced {lines : List (List Char)} {line : List Char}
    (member : line ∈ spaced owed lines) : line = [] ∨ line ∈ lines := by
  induction lines generalizing owed with
  | nil => cases member
  | cons head rest ih =>
    unfold spaced at member
    grind

end Spacing

theorem tidyLines_isInfix (before lines after : List (List Char)) :
    tidyLines lines <:+: tidyLines (before ++ lines ++ after) :=
  (tidyLines_isSuffix before lines).isInfix.trans (tidyLines_isPrefix (before ++ lines) after).isInfix

theorem mem_of_mem_tidyLines {lines : List (List Char)} {line : List Char}
    (member : line ∈ tidyLines lines) : line = [] ∨ line ∈ lines :=
  (mem_of_mem_spaced false member).imp_right (List.dropWhile_subset _ ·)

/-- A filled line at the end stays there. -/
theorem tidyLines_append_filled {line : List Char} (filled : line ≠ []) (lines : List (List Char)) :
    ∃ front, tidyLines (lines ++ [line]) = front ++ [line] ∧
      ∀ other ∈ front, other = [] ∨ other ∈ lines := by
  unfold tidyLines
  rw [List.dropWhile_append]
  split
  · exact ⟨[], by simp [spaced, filled], nofun⟩
  · have early : ∀ other ∈ spaced false (lines.dropWhile (· = [])), other = [] ∨ other ∈ lines :=
      fun other member => (mem_of_mem_spaced false member).imp_right (List.dropWhile_subset _ ·)
    rw [spaced_append]
    cases owes false (lines.dropWhile (· = [])) with
    | true =>
      refine ⟨spaced false (lines.dropWhile (· = [])) ++ [[]], by simp [spaced, filled], ?_⟩
      intro other member
      rcases List.mem_append.mp member with sooner | last
      · exact early other sooner
      · exact .inl (List.mem_singleton.mp last)
    | false => exact ⟨_, by simp [spaced, filled], early⟩

/-- A blank line at the end is dropped. -/
theorem tidyLines_append_blank (lines : List (List Char)) :
    tidyLines (lines ++ [[]]) = tidyLines lines := by
  unfold tidyLines
  rw [List.dropWhile_append]
  split
  next blank => simp [List.isEmpty_iff.mp blank, spaced]
  next => simp [spaced_append, spaced]

theorem tidyLines_filled {lines : List (List Char)} (filled : ∀ line ∈ lines, line ≠ []) :
    tidyLines lines = lines := by
  have kept : ∀ lines : List (List Char), (∀ line ∈ lines, line ≠ []) → spaced false lines = lines := by
    intro lines filled
    induction lines with
    | nil => rfl
    | cons line rest ih =>
      rw [List.forall_mem_cons] at filled
      simp [spaced, filled.1, ih filled.2]
  unfold tidyLines
  cases lines with
  | nil => rfl
  | cons line rest =>
    rw [List.dropWhile_cons_of_neg (by simpa using filled line List.mem_cons_self), kept _ filled]

theorem tidyLines_eq_nil_iff (lines : List (List Char)) :
    tidyLines lines = [] ↔ lines.dropWhile (· = []) = [] := by
  unfold tidyLines
  cases kept : lines.dropWhile (· = []) with
  | nil => simp [spaced]
  | cons line rest =>
    have filled : line ≠ [] := by
      have head := List.head_dropWhile_not (· = []) (show lines.dropWhile (· = []) ≠ [] by simp [kept])
      simpa [kept] using head
    simp [spaced, filled]

/-- Where an empty line stands before a filled one, both sides come to their own normal forms. -/
theorem tidyLines_cut {line : List Char} (filled : line ≠ []) (first rest : List (List Char)) :
    tidyLines (first ++ [] :: line :: rest) =
      if tidyLines first = [] then tidyLines (line :: rest)
      else tidyLines first ++ [] :: tidyLines (line :: rest) := by
  simp only [tidyLines_eq_nil_iff]
  unfold tidyLines
  rw [List.dropWhile_append]
  split
  next blank => simp [List.isEmpty_iff.mp blank, filled]
  next held =>
    rw [if_neg (mt List.isEmpty_iff.mpr held), spaced_append]
    simp [spaced, filled]

theorem unlines_append (first second : List (List Char)) :
    unlines (first ++ second) = unlines first ++ unlines second := by
  simp [unlines]

theorem ended_unlines (lines : List (List Char)) : Ended (unlines lines) := by
  induction lines with
  | nil => exact .inl rfl
  | cons line rest ih =>
    have head : unlines (line :: rest) = line ++ ['\n'] ++ unlines rest := by simp [unlines]
    rw [head]
    exact .append (.inr ⟨line, rfl⟩) ih

theorem unlines_isInfix {first second : List (List Char)} (part : first <:+: second) :
    unlines first <:+: unlines second := by
  obtain ⟨before, after, rfl⟩ := part
  exact ⟨unlines before, unlines after, by simp [unlines_append]⟩

theorem toList_join_feed (texts : List String) :
    (String.join (texts.map (· ++ "\n"))).toList = unlines (texts.map String.toList) := by
  induction texts with
  | nil => rfl
  | cons text rest ih => simp [unlines] at ih ⊢; exact ih

/-- Where a text is cut at a letter, a part without that letter lies on one side. -/
theorem infix_of_cut {letter : Char} {part first second : List Char} (without : letter ∉ part)
    (inside : part <:+: first ++ letter :: second) : part <:+: first ∨ part <:+: second := by
  obtain ⟨before, after, same⟩ := inside
  rw [List.append_assoc, List.append_eq_append_iff] at same
  rcases same with ⟨rest, rfl, same⟩ | ⟨rest, rfl, same⟩
  · rw [List.append_eq_append_iff] at same
    rcases same with ⟨more, rfl, -⟩ | ⟨more, rfl, same⟩
    · exact .inl ⟨before, more, by simp⟩
    · cases more with
      | nil => exact .inl ⟨before, [], by simp⟩
      | cons head more =>
        obtain rfl := (List.cons.inj same).1
        exact absurd (by simp) without
  · cases rest with
    | nil =>
      cases part with
      | nil => exact .inl (List.nil_infix)
      | cons head part =>
        obtain rfl := (List.cons.inj same).1
        exact absurd (by simp) without
    | cons head rest =>
      exact .inr ⟨rest, after, by simpa using (List.cons.inj same).2.symm⟩

/-- A letter right before a line feed is the last one of a line. -/
theorem last_of_before_feed {letter : Char} {lines : List (List Char)} (other : letter ≠ '\n')
    (unbroken : ∀ line ∈ lines, '\n' ∉ line) (inside : [letter, '\n'] <:+: unlines lines) :
    ∃ line ∈ lines, line.getLast? = some letter := by
  induction lines with
  | nil => simp [unlines] at inside
  | cons line rest ih =>
    obtain ⟨before, after, same⟩ := inside
    have cut : (before ++ [letter]) ++ '\n' :: after = line ++ '\n' :: unlines rest := by
      simpa [unlines] using same
    have later : [letter, '\n'] <:+: unlines rest → ∃ line' ∈ line :: rest,
        line'.getLast? = some letter := by
      intro inside
      obtain ⟨found, member, last⟩ :=
        ih (fun line member => unbroken line (List.mem_cons_of_mem _ member)) inside
      exact ⟨found, List.mem_cons_of_mem _ member, last⟩
    rw [List.append_eq_append_iff] at cut
    rcases cut with ⟨more, whole, ends⟩ | ⟨more, whole, ends⟩
    · cases more with
      | nil => exact ⟨line, List.mem_cons_self, by simp [whole]⟩
      | cons head more =>
        obtain rfl := (List.cons.inj ends).1
        exact absurd (by simp [whole]) (unbroken line List.mem_cons_self)
    · cases more with
      | nil =>
        have same : line = before ++ [letter] := by simpa using whole.symm
        exact ⟨line, List.mem_cons_self, by simp [same]⟩
      | cons head more =>
        obtain rfl := (List.cons.inj ends).1
        rcases List.eq_nil_or_concat' more with rfl | ⟨front, last, rfl⟩
        · exact absurd (List.append_inj' whole rfl).2 (by simpa using other)
        · rw [← List.cons_append, ← List.append_assoc] at whole
          obtain rfl := List.singleton_inj.mp (List.append_inj' whole rfl).2
          exact later ⟨front, after, by simpa using (List.cons.inj ends).2.symm⟩

section Tidy
variable {before text after : String}

/-- The normal form of a text holds the normal form of every part that has its lines to itself. -/
theorem tidy_isInfix (apart : Ended before.toList) (ended : Ended text.toList) :
    (tidy text).toList <:+: (tidy (before ++ text ++ after)).toList := by
  rw [toList_tidy, toList_tidy, String.toList_append, String.toList_append,
    linesOf_append (apart.append ended), linesOf_append apart, List.map_append, List.map_append]
  exact unlines_isInfix (tidyLines_isInfix _ _ _)

theorem tidy_isPrefix (ended : Ended text.toList) :
    (tidy text).toList <+: (tidy (text ++ after)).toList := by
  rw [toList_tidy, toList_tidy, String.toList_append, linesOf_append ended, List.map_append]
  obtain ⟨rest, same⟩ := tidyLines_isPrefix ((linesOf text.toList).map unpadded)
    ((linesOf after.toList).map unpadded)
  exact ⟨unlines rest, by rw [← unlines_append, same]⟩

theorem tidy_append_feed (ended : Ended text.toList) : tidy (text ++ "\n") = tidy text := by
  rw [← String.toList_inj, toList_tidy, toList_tidy, String.toList_append, linesOf_append ended,
    List.map_append]
  exact congrArg unlines (tidyLines_append_blank _)

/-- A line that does not end in a blank is in normal form. -/
theorem normal_line {line : List Char} {letter : Char} (unbroken : '\n' ∉ line)
    (last : line.getLast? = some letter) (filled : isBlank letter = false) :
    (linesOf (line ++ ['\n'])).map unpadded = [line] := by
  have kept : unpadded line = line := by
    obtain ⟨front, rfl⟩ := List.getLast?_eq_some_iff.mp last
    rw [unpadded_append_singleton, filled]
    rfl
  have whole : withoutReturn line = line := by
    unfold withoutReturn
    rw [last, if_neg]
    rintro ⟨⟩
    cases filled
  rw [linesOf_line unbroken, whole, List.map_singleton, kept]

theorem tidy_line {line : String} {letter : Char} (unbroken : '\n' ∉ line.toList)
    (last : line.toList.getLast? = some letter) (filled : isBlank letter = false) :
    tidy (line ++ "\n") = line ++ "\n" := by
  have some : line.toList ≠ [] := by
    intro empty
    simp [empty] at last
  rw [← String.toList_inj, toList_tidy, String.toList_append]
  change unlines (tidyLines ((linesOf (line.toList ++ ['\n'])).map unpadded)) = _
  rw [normal_line unbroken last filled]
  simp [tidyLines, spaced, unlines, some]

/-- A line that does not end in a blank. -/
def NormalLine (line : String) : Prop :=
  '\n' ∉ line.toList ∧ ∃ letter, line.toList.getLast? = some letter ∧ isBlank letter = false

section Lines
variable {texts : List String} (each : ∀ line ∈ texts, NormalLine line)
include each

theorem normal_lines :
    (linesOf (unlines (texts.map String.toList))).map unpadded = texts.map String.toList := by
  induction texts with
  | nil => rfl
  | cons line rest ih =>
    obtain ⟨⟨unbroken, letter, last, filled⟩, others⟩ := List.forall_mem_cons.mp each
    have head : unlines ((line :: rest).map String.toList) =
        line.toList ++ ['\n'] ++ unlines (rest.map String.toList) := by
      simp [unlines]
    rw [head, linesOf_append (.inr ⟨_, rfl⟩), List.map_append, ih others,
      normal_line unbroken last filled]
    rfl

theorem tidyLines_normal : tidyLines (texts.map String.toList) = texts.map String.toList := by
  refine tidyLines_filled fun _ listed empty => ?_
  obtain ⟨line, member, rfl⟩ := List.mem_map.mp listed
  obtain ⟨-, letter, last, -⟩ := each line member
  simp [empty] at last

/-- Lines in normal form stay so one below the other. -/
theorem tidy_lines :
    tidy (String.join (texts.map (· ++ "\n"))) = String.join (texts.map (· ++ "\n")) := by
  rw [← String.toList_inj, toList_tidy, toList_join_feed, normal_lines each, tidyLines_normal each]

/-- Lines in normal form stay at the end of a text, below whole lines. -/
theorem tidy_ends_lines {first : String} (ended : Ended first.toList) :
    ∃ front, Ended front.toList ∧
      tidy (first ++ String.join (texts.map (· ++ "\n"))) =
        front ++ String.join (texts.map (· ++ "\n")) := by
  obtain ⟨front, same⟩ :=
    tidyLines_isSuffix ((linesOf first.toList).map unpadded) (texts.map String.toList)
  rw [tidyLines_normal each] at same
  refine ⟨.ofList (unlines front), ?_, ?_⟩
  · rw [String.toList_ofList]
    exact ended_unlines front
  · rw [← String.toList_inj, toList_tidy, String.toList_append, String.toList_append,
      String.toList_ofList, linesOf_append ended, List.map_append, toList_join_feed,
      normal_lines each, ← same, unlines_append]

end Lines

/-- A line in normal form stays at the end of a text. -/
theorem tidy_ends {first line : String} (ended : Ended first.toList) {letter : Char}
    (unbroken : '\n' ∉ line.toList) (last : line.toList.getLast? = some letter)
    (filled : isBlank letter = false) : ∃ front, tidy (first ++ (line ++ "\n")) = front ++ (line ++ "\n") := by
  have some : line.toList ≠ [] := by
    intro empty
    simp [empty] at last
  obtain ⟨front, same, -⟩ :=
    tidyLines_append_filled some ((linesOf first.toList).map unpadded)
  refine ⟨.ofList (unlines front), ?_⟩
  have final : (linesOf (line ++ "\n").toList).map unpadded = [line.toList] := by
    rw [String.toList_append]
    exact normal_line unbroken last filled
  rw [← String.toList_inj, toList_tidy, String.toList_append, linesOf_append ended, List.map_append,
    final, same, unlines_append]
  simp [unlines]

/-- A text whose first line is in normal form. -/
def Begun (text : String) : Prop :=
  ∃ line letter rest, text = line ++ "\n" ++ rest ∧ '\n' ∉ line.toList ∧
    line.toList.getLast? = some letter ∧ isBlank letter = false

theorem Begun.append {first : String} (begun : Begun first) (second : String) : Begun (first ++ second) := by
  obtain ⟨line, letter, rest, rfl, unbroken, last, filled⟩ := begun
  exact ⟨line, letter, rest ++ second, String.append_assoc, unbroken, last, filled⟩

/-- The first line stays the first. -/
theorem Begun.tidy_ne (begun : Begun text) : tidy text ≠ "" := by
  obtain ⟨line, letter, rest, rfl, unbroken, last, filled⟩ := begun
  obtain ⟨more, same⟩ : (tidy (line ++ "\n")).toList <+: (tidy (line ++ "\n" ++ rest)).toList :=
    tidy_isPrefix (ended_feed line)
  rw [tidy_line unbroken last filled] at same
  intro empty
  rw [empty] at same
  simp at same

/-- A text may be cut at an empty line before a filled one. -/
theorem tidy_cut {first second : String} (ended : Ended first.toList) (begun : Begun second) :
    tidy (first ++ "\n" ++ second) =
      (if tidy first = "" then "" else tidy first ++ "\n") ++ tidy second := by
  obtain ⟨line, letter, rest, rfl, unbroken, last, filled⟩ := begun
  have some : line.toList ≠ [] := by
    intro empty
    simp [empty] at last
  have blank : (tidy first = "") ↔ tidyLines ((linesOf first.toList).map unpadded) = [] := by
    rw [← String.toList_eq_nil_iff, toList_tidy]
    cases tidyLines ((linesOf first.toList).map unpadded) <;> simp [unlines]
  have second : (linesOf (line ++ "\n" ++ rest).toList).map unpadded =
      line.toList :: (linesOf rest.toList).map unpadded := by
    rw [String.toList_append, linesOf_append (ended_feed line), List.map_append, String.toList_append]
    exact congrArg (· ++ _) (normal_line unbroken last filled)
  have feed : Ended "\n".toList := .inr ⟨[], rfl⟩
  have gap : (linesOf "\n".toList).map unpadded = [[]] := rfl
  rw [← String.toList_inj, toList_tidy, String.toList_append, String.toList_append,
    linesOf_append (ended.append feed), linesOf_append ended, List.map_append,
    List.map_append, gap, second, List.append_assoc, List.singleton_append, tidyLines_cut some]
  simp only [blank]
  split
  · rw [String.toList_append, toList_tidy, second]
    rfl
  · rw [String.toList_append, String.toList_append, toList_tidy, toList_tidy, second, unlines_append]
    simp [unlines]

/-- A line in normal form is blank or what stands in front of the blanks of a line. -/
theorem line_of_mem_tidy {line : List Char}
    (member : line ∈ tidyLines ((linesOf text.toList).map unpadded)) :
    line = [] ∨ ∃ whole ∈ linesOf text.toList, line = unpadded whole := by
  refine (mem_of_mem_tidyLines member).imp_right fun mapped => ?_
  obtain ⟨whole, among, rfl⟩ := List.mem_map.mp mapped
  exact ⟨whole, among, rfl⟩

theorem filled_of_last_unpadded {letters : List Char} {letter : Char}
    (last : (unpadded letters).getLast? = some letter) : isBlank letter = false := by
  have filled : unpadded letters ≠ [] := by
    intro empty
    simp [empty] at last
  have kept := List.rdropWhile_last_not isBlank letters filled
  rw [List.getLast?_eq_some_getLast filled, Option.some_inj] at last
  rw [← last]
  exact Bool.not_eq_true _ ▸ kept

/-- No line ends in a blank. -/
theorem blank_not_before_feed {letter : Char} (blank : isBlank letter = true)
    (other : letter ≠ '\n') : ¬ [letter, '\n'] <:+: (tidy text).toList := by
  intro inside
  rw [toList_tidy] at inside
  have unbroken : ∀ line ∈ tidyLines ((linesOf text.toList).map unpadded), '\n' ∉ line := by
    intro line member
    rcases line_of_mem_tidy member with rfl | ⟨whole, among, rfl⟩
    · exact List.not_mem_nil
    · exact fun feed => (part_of_mem_linesOf among).2 ((unpadded_isInfix whole).subset feed)
  obtain ⟨line, member, last⟩ := last_of_before_feed other unbroken inside
  rcases line_of_mem_tidy member with rfl | ⟨whole, _, rfl⟩
  · cases last
  · simp [filled_of_last_unpadded last] at blank

end Tidy

end CompositeKeys.Text
