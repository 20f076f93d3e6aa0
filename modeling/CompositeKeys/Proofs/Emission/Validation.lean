import CompositeKeys.Proofs.Emission.KeyPlans
import CompositeKeys.Proofs.Emission.Placement

/-! Validators in generated modules. Every check that a declaration asks for is a statement of a
member that does nothing but check, and its lines stand in the module at the depth of a body and in
normal form. A validator on one line stands there letter by letter; the layout of a longer one is
not kept, not even inside a template. -/

namespace CompositeKeys.Emission
open Text

section Checks
variable (bindings : Bindings)

theorem isValidKey_mem_keyedMap (keying : Keying) (weak : Bool) :
    .method "isValidKey" [.names bindings.arguments] (testing (checkText bindings.checks)) ∈
      (keyedMap bindings keying weak).members := by
  simp [keyedMap]

theorem isValidValue_mem_keyedMap (keying : Keying) (weak : Bool) :
    .method "isValidValue" ["value"] (testing (checkText bindings.valueChecks)) ∈
      (keyedMap bindings keying weak).members := by
  simp [keyedMap]

theorem isValidKey_mem_keyedSet (keying : Keying) (weak : Bool) :
    .method "isValidKey" [.names bindings.arguments] (testing (checkText bindings.checks)) ∈
      (keyedSet bindings keying weak).members := by
  simp [keyedSet]

theorem isValidMapKey_mem_mapOfSets (outer : Keying) (weak : Bool) (inner : Keying) :
    .hidden "#isValidMapKey" [.names bindings.mapKeys] (testing (checkText bindings.mapChecks)) ∈
      (mapOfSets bindings outer weak inner).members := by
  simp [mapOfSets]

theorem isValidSetKey_mem_mapOfSets (outer : Keying) (weak : Bool) (inner : Keying) :
    .hidden "#isValidSetKey" [.names bindings.setElements]
      (testing (checkText bindings.setChecks)) ∈ (mapOfSets bindings outer weak inner).members := by
  simp [mapOfSets]

end Checks

/-- A class makes a check if one of its members does nothing but a list of checks with this one. -/
def ClassOutline.Makes (outline : ClassOutline) (check : Check) : Prop :=
  ∃ member ∈ outline.members, ∃ checks, member.body = testing (checkText checks) ∧ check ∈ checks

theorem Bindings.checks_ok {configuration : Configuration} {bindings : Bindings}
    (bound : ofConfiguration configuration = .ok bindings) :
    bindings.checks = configuration.own.dimensions.flatMap checksOf ∧
      bindings.mapChecks = configuration.own.mapKeys.flatMap checksOf ∧
      bindings.setChecks = configuration.own.setElements.flatMap checksOf ∧
      bindings.valueChecks = configuration.own.value.toList.flatMap checksOf := by
  unfold ofConfiguration at bound
  dsimp only at bound
  split at bound
  · cases bound
  · cases bound
    refine ⟨rfl, rfl, rfl, ?_⟩
    unfold valueChecks
    cases configuration.own.value <;> simp

/-- Every check of every key and of the value is made. -/
theorem makes_checks {own : Declaration} {bindings : Bindings} {outline : ClassOutline}
    {dimension : Dimension} {check : Check} {disableSpecialization : Bool}
    (formed : own.WellFormed) (unpaired : own.family.isOneToOne = false)
    (bound : Bindings.ofConfiguration (.plain own) = .ok bindings)
    (outlined : (Variant.select own disableSpecialization).template.outline bindings = .ok outline)
    (declared : dimension ∈ own.dimensions ++ own.value.toList) (asked : check ∈ checksOf dimension) :
    outline.Makes check := by
  obtain ⟨keyChecks, mapChecks, setChecks, valueChecks⟩ := Bindings.checks_ok bound
  have within : ∀ {keys : List Dimension}, dimension ∈ keys → check ∈ keys.flatMap checksOf :=
    fun member => List.mem_flatMap.mpr ⟨dimension, member, asked⟩
  have keyed : own.family.isMap = false → dimension ∈ own.dimensions := by
    intro other
    rcases List.mem_append.mp declared with key | value
    · exact key
    · have valued : own.value.isSome = true := Option.isSome_iff_exists.mpr ⟨_, by simpa using value⟩
      exact nomatch other.symm.trans (formed.valued valued)
  rcases Family.kinds unpaired with map | set | layers
  · rw [Variant.select_template_of_single (Family.of_isMap map).2.1,
      nominal_template_of_isMap map] at outlined
    obtain rfl := Except.ok.inj outlined
    rcases List.mem_append.mp declared with key | value
    · exact ⟨_, isValidKey_mem_keyedMap bindings _ _, _, rfl, keyChecks ▸ within key⟩
    · exact ⟨_, isValidValue_mem_keyedMap bindings _ _, _, rfl, valueChecks ▸ within value⟩
  · have key := keyed (Family.of_isSet set).1
    rw [Variant.select_template_of_single (Family.of_isSet set).2.1,
      nominal_template_of_isSet set] at outlined
    obtain rfl := Except.ok.inj outlined
    exact ⟨_, isValidKey_mem_keyedSet bindings _ _, _, rfl, keyChecks ▸ within key⟩
  · have key := keyed (Family.of_isMapOfSets layers).1
    obtain ⟨outer, inner, chosen⟩ :=
      Variant.select_template_of_isMapOfSets formed layers disableSpecialization
    rw [chosen] at outlined
    obtain rfl := Except.ok.inj outlined
    cases mapped : dimension.role.isMapKey with
    | true =>
      have among : dimension ∈ own.mapKeys := List.mem_filter.mpr ⟨key, mapped⟩
      exact ⟨_, isValidMapKey_mem_mapOfSets bindings _ _ _, _, rfl, mapChecks ▸ within among⟩
    | false =>
      have among : dimension ∈ own.setElements := by
        obtain ⟨keys, elements, same, _, _, allMapped, strong⟩ := formed.layered layers
        rw [same] at key
        rcases List.mem_append.mp key with early | late
        · exact nomatch mapped.symm.trans (allMapped dimension early)
        · refine List.mem_filter.mpr ⟨same ▸ List.mem_append_right keys late, ?_⟩
          rw [strong dimension late]
          rfl
      exact ⟨_, isValidSetKey_mem_mapOfSets bindings _ _ _, _, rfl, setChecks ▸ within among⟩

/-- The lines of a check where it is made: indented like a body, and in normal form. -/
def Check.placed (check : Check) : String := tidy (textAt 2 [.passage (check.statement ++ "\n")])

theorem checkText_append (first second : List Check) :
    checkText (first ++ second) = checkText first ++ checkText second := by
  simp [checkText]

theorem checkText_ended (checks : List Check) : Ended (checkText checks).toList := by
  refine Ended.join fun text member => ?_
  obtain ⟨_, _, rfl⟩ := List.mem_map.mp member
  exact ended_feed _

theorem SourceModule.check_isInfix {source : SourceModule} {definition : ClassDefinition}
    {check : Check} (member : definition ∈ source.contribution.classes)
    (written : definition.Written)
    (settled : ∀ member ∈ definition.outline.members, Settled member.body)
    (makes : definition.outline.Makes check) : check.placed.toList <:+: source.text.toList := by
  obtain ⟨tester, present, checks, body, among⟩ := makes
  obtain ⟨sooner, later, rfl⟩ := List.append_of_mem among
  obtain ⟨before, after, apart, text⟩ := written.text_around_member settled present
  let opening : List Stroke :=
    .blank :: definition.documentation.pages tester ++ [.opening tester.head.phrase]
  have depth : depthAfter 1 opening = 2 := by
    simp [opening, Documentation.depthAfter_pages]
  have opened : Ended (textAt 1 opening).toList := by
    refine textAt_ended 1 fun text page => ?_
    refine Documentation.page_ended (written.block tester present) ?_
    simpa [opening] using page
  have drawn : textAt 1 (tester.strokes (definition.documentation.pages tester)) =
      textAt 1 opening ++
      textAt 2 [.passage (checkText sooner)] ++ textAt 2 [.passage (check.statement ++ "\n")] ++
      textAt 2 [.passage (checkText later), .line ["return true;"], .close] := by
    have strokes : tester.strokes (definition.documentation.pages tester) = opening ++
        [.passage (checkText (sooner ++ check :: later)), .line ["return true;"], .close] := by
      simp [Member.strokes, body, testing, opening]
    have checks : checkText (sooner ++ check :: later) =
        checkText sooner ++ (check.statement ++ "\n" ++ checkText later) := by
      simp [checkText, String.append_assoc]
    rw [strokes, textAt_append, depth, checks, textAt_passage_append 2 (checkText_ended sooner),
      textAt_passage_append 2 (ended_feed check.statement)]
    simp only [String.append_assoc]
  have passage : ∀ text, Ended (textAt 2 [.passage text]).toList :=
    fun text => textAt_ended 2 (by simp)
  have ahead : Ended (before ++ textAt 1 opening ++
      textAt 2 [.passage (checkText sooner)]).toList := by
    rw [String.toList_append, String.toList_append]
    exact (apart.append opened).append (passage _)
  refine part_isInfix member ahead (passage _)
    ⟨textAt 2 [.passage (checkText later), .line ["return true;"], .close] ++ after, ?_⟩
  simp only [text, drawn, String.append_assoc]

/-- A check on one line keeps its letters. -/
theorem Check.statement_infix_placed {check : Check} (unbroken : '\n' ∉ check.statement.toList)
    (last : check.statement.toList.getLast? = some ';') :
    check.statement.toList <:+: check.placed.toList := by
  have lines : lines (check.statement ++ "\n") = [check.statement] :=
    lines_line unbroken (by simp [last])
  have filled : check.statement ≠ "" := by
    rintro empty
    simp [empty] at last
  have text : textAt 2 [.passage (check.statement ++ "\n")] =
      indentation 2 ++ check.statement ++ "\n" := by
    simp [textAt, Stroke.textAt, lines, lineAt, filled]
  have normal : tidy (indentation 2 ++ check.statement ++ "\n") =
      indentation 2 ++ check.statement ++ "\n" := by
    have indented : (indentation 2 ++ check.statement).toList.getLast? = some ';' := by
      rw [String.toList_append, List.getLast?_append, last, Option.some_or]
    refine tidy_line ?_ indented (by decide)
    rw [String.toList_append, List.mem_append, not_or]
    exact ⟨by decide, unbroken⟩
  rw [placed, text, normal, String.toList_append, String.toList_append]
  exact ⟨_, _, rfl⟩

/-- The validators of a locked collection that is not paired, of its keys, its elements and its
value, stand in the generated module line by line in normal form. A validator without line feeds
stands there as it was kept. -/
theorem validator_spliced {builder : Builder} {own : Declaration} {dimension : Dimension}
    {expression : String} (declared : builder.Declared) (locked : builder.isLocked = true)
    (unpaired : builder.configuration = .plain own)
    (member : dimension ∈ own.dimensions ++ own.value.toList)
    (validated : dimension.validator = some expression) (options : CompileOptions)
    (helperDirectory : String) :
    ∃ source, SourceModule.ofConfiguration builder.configuration options helperDirectory =
        .ok source ∧
      (Check.satisfies expression).placed.toList <:+: source.text.toList ∧
      ('\n' ∉ expression.toList →
        ("if (!(" ++ expression ++ ")) return false;").toList <:+: source.text.toList) := by
  have formed := declared.sound.wellFormed locked
  rw [unpaired] at formed ⊢
  obtain ⟨bindings, bound, _⟩ := Bindings.exists_ofConfiguration_ok formed.paired_iff.mp
  obtain ⟨source, definition, made, -, -, -, holds⟩ :=
    SourceModule.exists_holds formed bound options helperDirectory
  obtain ⟨outlined, written, -⟩ := ClassDefinition.ofConfiguration_ok holds.defined
  cases formed with
  | plain formed nominal =>
    have asked : .satisfies expression ∈ checksOf dimension := by
      simp [checksOf, validated]
    have among : definition ∈ source.contribution.classes := by simp [holds.classes]
    have inside := SourceModule.check_isInfix among written (Template.outline_settled outlined)
      (makes_checks formed nominal bound outlined member asked)
    refine ⟨source, made, inside, fun unbroken => ?_⟩
    have oneLine : '\n' ∉ (Check.satisfies expression).statement.toList := by
      simp only [Check.statement, String.toList_append, List.mem_append, not_or]
      exact ⟨⟨by decide, unbroken⟩, by decide⟩
    have last : (Check.satisfies expression).statement.toList.getLast? = some ';' := by
      rw [Check.statement, String.toList_append, List.getLast?_append]
      rfl
    exact (Check.statement_infix_placed oneLine last).trans inside

theorem validator_spliced_cars :
    let cars : Builder := Builder.performAll ⟨⟨.map, .start⟩, .empty "Cars" (.map .strong)⟩
      [.addMapKey "car" "The car." false { validator := some "car => \x7b return car?.ok; \x7d" },
        .lock]
    cars.isLocked = true ∧ ∃ source,
      SourceModule.ofConfiguration cars.configuration {} "./keys" = .ok source ∧
      "if (!(car?.ok)) return false;".toList <:+: source.text.toList := by
  intro cars
  have created : Builder.create "Cars" .map none =
      .ok ⟨⟨.map, .start⟩, .empty "Cars" (.map .strong)⟩ := rfl
  have declared : cars.Declared :=
    (Builder.Declared.created created).performAll _ (by simp [Call.base?])
  have locked : cars.isLocked = true := by decide +kernel
  have unpaired : cars.configuration = .plain cars.configuration.own := by decide +kernel
  obtain ⟨car, member, validated⟩ : ∃ car ∈ cars.configuration.own.dimensions ++
      cars.configuration.own.value.toList, car.validator = some "car?.ok" := by decide +kernel
  obtain ⟨source, made, -, verbatim⟩ :=
    validator_spliced declared locked unpaired member validated {} "./keys"
  exact ⟨locked, source, made, verbatim (by decide +kernel)⟩

/-- Inside a template, too, a blank before a line feed is lost. -/
theorem validator_layout_lost :
    let cars : Builder := Builder.performAll ⟨⟨.map, .start⟩, .empty "Cars" (.map .strong)⟩
      [.addMapKey "car" "The car." false { validator := some "car => car !== \x60a \nb\x60" }, .lock]
    let expression := "car !== \x60a \nb\x60"
    cars.isLocked = true ∧
      (∃ car ∈ cars.configuration.own.dimensions, car.validator = some expression) ∧
      ∃ source, SourceModule.ofConfiguration cars.configuration {} "./keys" = .ok source ∧
        ¬ ("if (!(" ++ expression ++ ")) return false;").toList <:+: source.text.toList := by
  intro cars expression
  have created : Builder.create "Cars" .map none =
      .ok ⟨⟨.map, .start⟩, .empty "Cars" (.map .strong)⟩ := rfl
  have declared : cars.Declared :=
    (Builder.Declared.created created).performAll _ (by simp [Call.base?])
  have locked : cars.isLocked = true := by decide +kernel
  have formed := declared.sound.wellFormed locked
  obtain ⟨contribution, written⟩ := Contribution.exists_ofConfiguration_ok {} formed
  have passed : SourceModule.check cars.configuration = .ok () := by decide +kernel
  obtain ⟨source, made⟩ : ∃ source,
      SourceModule.ofConfiguration cars.configuration {} "./keys" = .ok source :=
    exists_bind_ok passed (exists_bind_ok written ⟨_, rfl⟩)
  refine ⟨locked, by decide +kernel, source, made, fun inside => ?_⟩
  have blank : [' ', '\n'] <:+: ("if (!(" ++ expression ++ ")) return false;").toList := by
    decide +kernel
  exact blank_not_before_feed (by decide) (by decide) (blank.trans inside)

end CompositeKeys.Emission
