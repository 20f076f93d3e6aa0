import CompositeKeys.Proofs.Collection.Edits
import CompositeKeys.Proofs.Emission.Validation

/-! Checks that are left out. A template asks for a check only if the declaration gives the check
something to test, and which declared tests decide that is told anew for every method. Nothing is
lost by it: what is left out asks for a check that would pass whatever it is called with. -/

namespace CompositeKeys

/-- Whether there is something to test about a dimension. -/
def Dimension.isTested (dimension : Dimension) : Bool :=
  dimension.role.isWeak || dimension.validator.isSome

namespace Emission
open Text

/-! ### The tests of a declaration -/

theorem checksOf_eq_nil {dimension : Dimension} :
    checksOf dimension = [] ↔ dimension.isTested = false := by
  cases weak : dimension.role.isWeak <;> cases validator : dimension.validator <;>
    simp [checksOf, Dimension.isTested, weak, validator]

/-- There are tests of dimensions if there is something to test about one of them. -/
theorem tests_iff {dimensions : List Dimension} :
    (!(dimensions.flatMap checksOf).isEmpty) = true ↔
      ∃ dimension ∈ dimensions, dimension.isTested = true := by
  rw [Bool.not_eq_true', ← Bool.not_eq_true, List.isEmpty_iff, List.flatMap_eq_nil_iff]
  simp [checksOf_eq_nil]

/-- The lines of tests are none if there are no tests. -/
theorem lines_checkText {checks : List Check} : lines (checkText checks) = [] ↔ checks = [] := by
  cases checks with
  | nil => simp [checkText, lines, linesOf, pieces]
  | cons check rest =>
    refine iff_of_false ?_ (List.cons_ne_nil check rest)
    have split : checkText (check :: rest) = check.statement ++ "\n" ++ checkText rest := by
      simp [checkText]
    rw [split, lines_append (ended_feed _), lines, String.toList_append]
    change List.map String.ofList (linesOf (check.statement.toList ++ ['\n'])) ++ _ ≠ []
    rw [linesOf_append_feed]
    simp [pieces_ne_nil]

namespace Bindings
variable {configuration : Configuration} {bindings : Bindings}

/-- Each flag says whether there is something to test about one of its dimensions. -/
theorem flags_iff (bound : ofConfiguration configuration = .ok bindings) :
    (bindings.hasChecks = true ↔
        ∃ dimension ∈ configuration.own.dimensions, dimension.isTested = true) ∧
      (bindings.hasMapChecks = true ↔
        ∃ key ∈ configuration.own.dimensions, key.role.isMapKey = true ∧ key.isTested = true) ∧
      (bindings.hasSetChecks = true ↔ ∃ element ∈ configuration.own.dimensions,
        element.role.isSetElement = true ∧ element.isTested = true) := by
  obtain ⟨checks, mapChecks, setChecks, -⟩ := checks_ok bound
  rw [hasChecks, checks, hasMapChecks, mapChecks, hasSetChecks, setChecks, tests_iff, tests_iff,
    tests_iff]
  simp [Declaration.mapKeys, Declaration.setElements, and_assoc]

/-- Every key is a mapping key or a set element, so no test is lost between them. -/
theorem hasChecks_eq_or (built : configuration.Built)
    (bound : ofConfiguration configuration = .ok bindings) :
    bindings.hasChecks = (bindings.hasMapChecks || bindings.hasSetChecks) := by
  obtain ⟨some, map, set⟩ := flags_iff bound
  have sided : ∀ dimension ∈ configuration.own.dimensions,
      dimension.role.isMapKey = true ∨ dimension.role.isSetElement = true := by
    intro dimension among
    have key := built.faithful.keys dimension among
    cases role : dimension.role with
    | mapKey => exact .inl rfl
    | setElement => exact .inr rfl
    | value => exact absurd role key
  rw [Bool.eq_iff_iff, Bool.or_eq_true, some, map, set]
  constructor
  · rintro ⟨dimension, among, tested⟩
    exact (sided dimension among).imp (fun mapped => ⟨dimension, among, mapped, tested⟩)
      fun element => ⟨dimension, among, element, tested⟩
  · rintro (⟨dimension, among, -, tested⟩ | ⟨dimension, among, -, tested⟩)
    · exact ⟨dimension, among, tested⟩
    · exact ⟨dimension, among, tested⟩

end Bindings

theorem Bindings.checkText_sides {configuration : Configuration} {bindings : Bindings}
    (formed : configuration.WellFormed) (bound : ofConfiguration configuration = .ok bindings) :
    checkText bindings.checks = checkText bindings.mapChecks ++ checkText bindings.setChecks := by
  obtain ⟨checks, mapChecks, setChecks, -⟩ := checks_ok bound
  rw [checks, mapChecks, setChecks, ← checkText_append, ← List.flatMap_append, ← formed.own.sides]

/-! ### What a check function tests -/

/-- The lines that a check function tests: those of its own body, or those of two further functions
that it hands its arguments on to. -/
inductive ClassOutline.Tests (outline : ClassOutline) : String → Phrase → List String → Prop where
  | own {member name parameters text} (among : member ∈ outline.members)
      (head : member.head = { name, parameters }) (body : member.body = testing text) :
      Tests outline name parameters (lines text)
  | both {member name parameters first second names others tests more}
      (among : member ∈ outline.members) (head : member.head = { name, parameters })
      (body : member.body = [.line [.own ("return this." ++ first ++ "("), .names names,
        .own (") && this." ++ second ++ "("), .names others, .own ");"]])
      (one : Tests outline first [.names names] tests)
      (other : Tests outline second [.names others] more) :
      Tests outline name parameters (tests ++ more)

/-- A function that tests something. -/
def ClassOutline.Tested (outline : ClassOutline) (name : String) : Prop :=
  ∃ parameters line rest, outline.Tests name parameters (line :: rest)

section Tests
variable {outline : ClassOutline} {name : String}

/-- Functions have names of their own, so a name stands for one list of tests. -/
theorem ClassOutline.Tests.unique (distinct : (outline.members.map (·.head.name)).Nodup)
    {parameters others : Phrase} {lines more : List String}
    (tests : outline.Tests name parameters lines) (again : outline.Tests name others more) :
    lines = more := by
  have same : ∀ {member other : Member} {name : String} {parameters others : Phrase},
      member ∈ outline.members → other ∈ outline.members → member.head = { name, parameters } →
      other.head = { name, parameters := others } → member = other := by
    intro member other name parameters others among present head heads
    refine List.inj_on_of_nodup_map distinct among present ?_
    rw [head, heads]
  induction tests generalizing others more with
  | own among head body =>
    cases again with
    | own present heads other =>
      rw [same among present head heads, other] at body
      simp only [testing, List.cons.injEq, Stroke.passage.injEq, and_true] at body
      rw [body]
    | both present heads other =>
      rw [same among present head heads, other] at body
      simp [testing] at body
  | both among head body one other first second =>
    cases again with
    | own present heads tested =>
      rw [same among present head heads, tested] at body
      simp [testing] at body
    | both present heads tested further rest =>
      rw [same among present head heads, tested] at body
      simp only [List.cons.injEq, Stroke.line.injEq, Fragment.own.injEq, Fragment.names.injEq,
        String.append_left_inj, String.append_right_inj, and_true] at body
      obtain ⟨rfl, rfl, rfl, rfl⟩ := body
      rw [first further, second rest]

theorem ClassOutline.Tests.tested_iff (distinct : (outline.members.map (·.head.name)).Nodup)
    {parameters : Phrase} {checks : List Check}
    (tests : outline.Tests name parameters (lines (checkText checks))) :
    outline.Tested name ↔ checks ≠ [] := by
  rw [Ne, ← lines_checkText]
  constructor
  · rintro ⟨_, line, rest, other⟩ none
    exact List.cons_ne_nil line rest ((other.unique distinct tests).trans none)
  · intro some
    obtain ⟨line, rest, same⟩ := List.exists_cons_of_ne_nil some
    exact ⟨parameters, line, rest, same ▸ tests⟩

end Tests

/-! ### Where a template asks for a check -/

/-- What a line asks a check for, and what it does if the check fails. -/
def Stroke.call? (check : String) : Stroke → Option Phrase
  | .line (.own start :: rest) => if start = "if (!this." ++ check ++ "(" then some rest else none
  | _ => none

/-- The places of a member that ask for a check before they go on. -/
def Member.calls (check : String) (member : Member) : List Phrase :=
  member.body.filterMap (Stroke.call? check)

section Calls
variable {check : String}

/-- Only a line that begins like a condition asks for a check. -/
theorem call_ne {start : String} (other : start.toList.head? ≠ some 'i') :
    start ≠ "if (!this." ++ check ++ "(" := by
  rintro rfl
  simp at other

theorem calls_guard (guarded : Bool) (name : String) (arguments : Phrase) (missing : String) :
    (guard guarded name arguments missing).filterMap (Stroke.call? check) =
      if guarded = true ∧ name = check then [arguments ++ [.own (")) " ++ missing)]] else [] := by
  cases guarded with
  | false => simp [guard]
  | true => by_cases same : name = check <;> simp [guard, Phrase.between, Stroke.call?, same]

theorem calls_refuse (guarded : Bool) (name : String) (arguments : Phrase) (error : String) :
    (refuse guarded name arguments error).filterMap (Stroke.call? check) =
      if guarded = true ∧ name = check then [arguments ++ [.own "))"]] else [] := by
  have thrown : "  throw new Error(\"" ≠ "if (!this." ++ check ++ "(" := call_ne (by decide)
  cases guarded with
  | false => simp [refuse]
  | true => by_cases same : name = check <;> simp [refuse, Phrase.between, Stroke.call?, same, thrown]

theorem calls_testing (text : String) : (testing text).filterMap (Stroke.call? check) = [] := by
  have other : "return true;" ≠ "if (!this." ++ check ++ "(" := call_ne (by decide)
  simp [testing, Stroke.call?, other]

end Calls

/-- The bindings with other tests for everything that is tested. -/
def PairingBindings.withChecks (pairing : PairingBindings) (checks : List Check) :
    PairingBindings :=
  { pairing with checks }

/-- The bindings with other tests for everything that is tested. Of a value the templates know nothing
but its tests. -/
def Bindings.withChecks (bindings : Bindings) (checks : List Check) : Bindings :=
  { bindings with
    checks
    mapChecks := checks
    setChecks := checks
    value := some { type := "", description := "", checks }
    pairing := bindings.pairing.map (·.withChecks checks) }

namespace Bindings
variable (bindings : Bindings) (checks : List Check)

theorem withChecks_names :
    (bindings.withChecks checks).className = bindings.className ∧
      (bindings.withChecks checks).arguments = bindings.arguments ∧
      (bindings.withChecks checks).mapKeys = bindings.mapKeys ∧
      (bindings.withChecks checks).setElements = bindings.setElements := ⟨rfl, rfl, rfl, rfl⟩

theorem withChecks_flags :
    (bindings.withChecks checks).hasChecks = !checks.isEmpty ∧
      (bindings.withChecks checks).hasMapChecks = !checks.isEmpty ∧
      (bindings.withChecks checks).hasSetChecks = !checks.isEmpty ∧
      (bindings.withChecks checks).valueChecks = checks := ⟨rfl, rfl, rfl, rfl⟩

end Bindings

section Templates
variable {bindings : Bindings} {check : String} {checks : List Check}

/-- A flag counts only where its own check is asked for. -/
theorem flag_congr {flag other : Bool} {name : String} (same : check = name → flag = other) :
    (flag = true ∧ name = check) = (other = true ∧ name = check) := by
  refine propext (and_congr_left fun asked => ?_)
  rw [same asked.symm]

theorem keyedMap_calls (keying : Keying) (weak : Bool)
    (key : check = "isValidKey" → bindings.hasChecks = !checks.isEmpty)
    (value : check = "isValidValue" → (!bindings.valueChecks.isEmpty) = !checks.isEmpty) :
    (keyedMap bindings keying weak).members.map (Member.calls check) =
      (keyedMap (bindings.withChecks checks) keying weak).members.map (Member.calls check) := by
  have plan : KeyPlan.ofMap (bindings.withChecks checks) keying = KeyPlan.ofMap bindings keying := rfl
  unfold keyedMap
  cases weak <;>
    simp only [if_true, if_false, Bool.false_eq_true, List.map_append, List.map_cons, List.map_nil,
      Member.calls, Member.method, Member.accessor, Member.generator, Member.iterator,
      Member.toStringTag, List.filterMap_append, calls_guard, calls_refuse, calls_testing,
      Bindings.withChecks_names, Bindings.withChecks_flags, plan, flag_congr key, flag_congr value]

theorem keyedSet_calls (keying : Keying) (weak : Bool)
    (key : check = "isValidKey" → bindings.hasChecks = !checks.isEmpty) :
    (keyedSet bindings keying weak).members.map (Member.calls check) =
      (keyedSet (bindings.withChecks checks) keying weak).members.map (Member.calls check) := by
  have plan : KeyPlan.ofSet (bindings.withChecks checks) keying = KeyPlan.ofSet bindings keying := rfl
  unfold keyedSet
  cases weak <;>
    simp only [if_true, if_false, Bool.false_eq_true, List.map_append, List.map_cons, List.map_nil,
      Member.calls, Member.method, Member.accessor, Member.generator, Member.iterator,
      Member.toStringTag, List.filterMap_append, calls_guard, calls_refuse, calls_testing,
      Bindings.withChecks_names, Bindings.withChecks_flags, plan, flag_congr key]

theorem mapOfSets_calls (outer : Keying) (weak : Bool) (inner : Keying)
    (key : check = "#isValidKey" → bindings.hasChecks = !checks.isEmpty)
    (mapKey : check = "#isValidMapKey" → bindings.hasMapChecks = !checks.isEmpty)
    (setKey : check = "#isValidSetKey" → bindings.hasSetChecks = !checks.isEmpty) :
    (mapOfSets bindings outer weak inner).members.map (Member.calls check) =
      (mapOfSets (bindings.withChecks checks) outer weak inner).members.map
        (Member.calls check) := by
  have plans : KeyPlan.ofMappingKeys (bindings.withChecks checks) outer =
        KeyPlan.ofMappingKeys bindings outer ∧
      KeyPlan.ofElements (bindings.withChecks checks) inner = KeyPlan.ofElements bindings inner :=
    ⟨rfl, rfl⟩
  unfold mapOfSets
  cases weak <;>
    simp only [if_true, if_false, Bool.false_eq_true, List.map_append, List.map_cons, List.map_nil,
      Member.calls, Member.method, Member.accessor, Member.generator, Member.iterator,
      Member.toStringTag, Member.hidden, List.filterMap_append, calls_guard, calls_refuse,
      calls_testing, Bindings.withChecks_names, Bindings.withChecks_flags, plans, flag_congr key,
      flag_congr mapKey, flag_congr setKey]

theorem pairedMap_calls (className : String) {pairing : PairingBindings}
    (key : pairing.isSingle = false → check = "isValidKey" →
      (!pairing.checks.isEmpty) = !checks.isEmpty) :
    (pairedMap className pairing).members.map (Member.calls check) =
      (pairedMap className (pairing.withChecks checks)).members.map (Member.calls check) := by
  have single : (pairing.withChecks checks).isSingle = pairing.isSingle := rfl
  have flag : (pairing.withChecks checks).checks = checks := rfl
  have names : (pairing.withChecks checks).sources = pairing.sources ∧
      ∀ mark, (pairing.withChecks checks).baseArgumentsWith mark =
        pairing.baseArgumentsWith mark := ⟨rfl, fun _ => rfl⟩
  unfold pairedMap
  cases found : pairing.isSingle with
  | true => simp only [single, found, if_true]
  | false =>
    simp only [single, found, if_false, Bool.false_eq_true, doubleMembers, List.map_append,
      List.map_cons, List.map_nil, Member.calls, Member.method, List.filterMap_append, calls_guard,
      calls_refuse, calls_testing, flag, names, flag_congr (key found)]

theorem keyedMap_distinct (keying : Keying) (weak : Bool) :
    ((keyedMap bindings keying weak).members.map (·.head.name)).Nodup := by
  unfold keyedMap
  cases weak <;>
    simp only [if_true, if_false, Bool.false_eq_true, List.map_append, List.map_cons, List.map_nil,
      Member.method, Member.accessor, Member.generator, Member.iterator, Member.toStringTag] <;>
    decide +kernel

theorem keyedSet_distinct (keying : Keying) (weak : Bool) :
    ((keyedSet bindings keying weak).members.map (·.head.name)).Nodup := by
  unfold keyedSet
  cases weak <;>
    simp only [if_true, if_false, Bool.false_eq_true, List.map_append, List.map_cons, List.map_nil,
      Member.method, Member.accessor, Member.generator, Member.iterator, Member.toStringTag] <;>
    decide +kernel

theorem mapOfSets_distinct (outer : Keying) (weak : Bool) (inner : Keying) :
    ((mapOfSets bindings outer weak inner).members.map (·.head.name)).Nodup := by
  unfold mapOfSets
  cases weak <;>
    simp only [if_true, if_false, Bool.false_eq_true, List.map_append, List.map_cons, List.map_nil,
      Member.method, Member.accessor, Member.generator, Member.iterator, Member.toStringTag,
      Member.hidden] <;>
    decide +kernel

theorem pairedMap_distinct (className : String) (pairing : PairingBindings) :
    ((pairedMap className pairing).members.map (·.head.name)).Nodup := by
  unfold pairedMap
  cases pairing.isSingle <;>
    simp only [if_true, if_false, Bool.false_eq_true, List.map_append, List.map_cons, List.map_nil,
      singleMembers, doubleMembers, Member.method, Member.toStringTag] <;>
    decide +kernel

section Layers
variable (bindings : Bindings) (outer : Keying) (weak : Bool) (inner : Keying)

theorem isValidMapKey_tests : (mapOfSets bindings outer weak inner).Tests "#isValidMapKey"
    [.names bindings.mapKeys] (lines (checkText bindings.mapChecks)) :=
  .own (isValidMapKey_mem_mapOfSets bindings outer weak inner) rfl rfl

theorem isValidSetKey_tests : (mapOfSets bindings outer weak inner).Tests "#isValidSetKey"
    [.names bindings.setElements] (lines (checkText bindings.setChecks)) :=
  .own (isValidSetKey_mem_mapOfSets bindings outer weak inner) rfl rfl

/-- The tests of mapping keys come first and those of set elements after them. -/
theorem isValidKey_tests : (mapOfSets bindings outer weak inner).Tests "#isValidKey"
    [.names bindings.arguments] (lines (checkText (bindings.mapChecks ++ bindings.setChecks))) := by
  have among : .hidden "#isValidKey" [.names bindings.arguments]
      [.line ["return this.#isValidMapKey(", .names bindings.mapKeys, ") && this.#isValidSetKey(",
        .names bindings.setElements, ");"]] ∈ (mapOfSets bindings outer weak inner).members := by
    simp [mapOfSets]
  rw [checkText_append, lines_append (checkText_ended _)]
  exact .both among rfl rfl (isValidMapKey_tests bindings outer weak inner)
    (isValidSetKey_tests bindings outer weak inner)

end Layers

theorem isValidKey_mem_pairedMap (className : String) {pairing : PairingBindings}
    (double : pairing.isSingle = false) :
    .method "isValidKey" [.names pairing.sources] (testing (checkText pairing.checks)) ∈
      (pairedMap className pairing).members := by
  simp [pairedMap, double, doubleMembers]

end Templates

/-! ### Checks that are left out -/

namespace Template

/-- The flags that decide on conditional checks, each with the name of its check. -/
def flags (template : Template) (bindings : Bindings) : List (String × Bool) :=
  match template with
  | .map .. => [("isValidKey", bindings.hasChecks), ("isValidValue", !bindings.valueChecks.isEmpty)]
  | .set .. => [("isValidKey", bindings.hasChecks)]
  | .mapOfSets .. => [("#isValidKey", bindings.hasChecks), ("#isValidMapKey", bindings.hasMapChecks),
      ("#isValidSetKey", bindings.hasSetChecks)]
  | .paired => bindings.pairing.toList.flatMap fun pairing =>
      if pairing.isSingle then [] else [("isValidKey", !pairing.checks.isEmpty)]

theorem outline_of_pairing {bindings : Bindings} {pairing : PairingBindings}
    (found : bindings.pairing = some pairing) :
    paired.outline bindings = .ok (pairedMap bindings.className pairing) := by
  simp only [outline, found]

theorem outline_paired {bindings : Bindings} {made : ClassOutline}
    (outlined : paired.outline bindings = .ok made) :
    ∃ pairing, bindings.pairing = some pairing ∧ made = pairedMap bindings.className pairing := by
  cases found : bindings.pairing with
  | none => simp [outline, found] at outlined
  | some pairing =>
    rw [outline_of_pairing found] at outlined
    exact ⟨pairing, rfl, (Except.ok.inj outlined).symm⟩

variable {template : Template} {bindings : Bindings} {outline : ClassOutline}
  (outlined : template.outline bindings = .ok outline)

include outlined

/-- Of the tests of a declaration the outline shows no more than the flags. -/
theorem outline_calls (checks : List Check) :
    ∃ other, template.outline (bindings.withChecks checks) = .ok other ∧
      outline.members.map Member.head = other.members.map Member.head ∧
      ∀ check, (∀ flag ∈ template.flags bindings, check = flag.1 → flag.2 = !checks.isEmpty) →
        outline.members.map (Member.calls check) = other.members.map (Member.calls check) := by
  cases template with
  | map keying weak =>
    cases outlined
    refine ⟨_, rfl, by cases weak <;> rfl, fun check set => ?_⟩
    simp only [flags, List.forall_mem_cons] at set
    exact keyedMap_calls keying weak set.1 set.2.1
  | set keying weak =>
    cases outlined
    refine ⟨_, rfl, by cases weak <;> rfl, fun check set => ?_⟩
    simp only [flags, List.forall_mem_cons] at set
    exact keyedSet_calls keying weak set.1
  | mapOfSets outer weak inner =>
    cases outlined
    refine ⟨_, rfl, by cases weak <;> rfl, fun check set => ?_⟩
    simp only [flags, List.forall_mem_cons] at set
    exact mapOfSets_calls outer weak inner set.1 set.2.1 set.2.2.1
  | paired =>
    obtain ⟨pairing, found, rfl⟩ := outline_paired outlined
    refine ⟨_, outline_of_pairing (by rw [Bindings.withChecks, found]; rfl), ?_, fun check set => ?_⟩
    · have single : (pairing.withChecks checks).isSingle = pairing.isSingle := rfl
      unfold pairedMap
      rw [single]
      cases pairing.isSingle <;> rfl
    · refine pairedMap_calls bindings.className fun double asked => ?_
      refine set ("isValidKey", !pairing.checks.isEmpty) ?_ asked
      simp [flags, found, double]

theorem outline_distinct : (outline.members.map (·.head.name)).Nodup := by
  cases template with
  | map keying weak =>
    cases outlined
    exact keyedMap_distinct keying weak
  | set keying weak =>
    cases outlined
    exact keyedSet_distinct keying weak
  | mapOfSets outer weak inner =>
    cases outlined
    exact mapOfSets_distinct outer weak inner
  | paired =>
    obtain ⟨pairing, -, rfl⟩ := outline_paired outlined
    exact pairedMap_distinct bindings.className pairing

/-- Every flag says whether its check tests something. -/
theorem outline_tests
    (sided : bindings.hasChecks = (bindings.hasMapChecks || bindings.hasSetChecks)) :
    ∀ flag ∈ template.flags bindings, (∃ parameters lines, outline.Tests flag.1 parameters lines) ∧
      (outline.Tested flag.1 ↔ flag.2 = true) := by
  have distinct := outline_distinct outlined
  cases template with
  | map keying weak =>
    cases outlined
    have key : (keyedMap bindings keying weak).Tests "isValidKey" _ _ :=
      .own (isValidKey_mem_keyedMap bindings keying weak) rfl rfl
    have value : (keyedMap bindings keying weak).Tests "isValidValue" _ _ :=
      .own (isValidValue_mem_keyedMap bindings keying weak) rfl rfl
    simp only [flags, List.forall_mem_cons]
    exact ⟨⟨⟨_, _, key⟩, by simp [key.tested_iff distinct, Bindings.hasChecks]⟩,
      ⟨⟨_, _, value⟩, by simp [value.tested_iff distinct]⟩, nofun⟩
  | set keying weak =>
    cases outlined
    have key : (keyedSet bindings keying weak).Tests "isValidKey" _ _ :=
      .own (isValidKey_mem_keyedSet bindings keying weak) rfl rfl
    simp only [flags, List.forall_mem_cons]
    exact ⟨⟨⟨_, _, key⟩, by simp [key.tested_iff distinct, Bindings.hasChecks]⟩, nofun⟩
  | mapOfSets outer weak inner =>
    cases outlined
    have mapKey := isValidMapKey_tests bindings outer weak inner
    have setKey := isValidSetKey_tests bindings outer weak inner
    have key := isValidKey_tests bindings outer weak inner
    simp only [flags, List.forall_mem_cons]
    refine ⟨⟨⟨_, _, key⟩, ?_⟩, ⟨⟨_, _, mapKey⟩, ?_⟩, ⟨⟨_, _, setKey⟩, ?_⟩, nofun⟩
    · rw [key.tested_iff distinct, sided]
      simp [Bindings.hasMapChecks, Bindings.hasSetChecks, Decidable.or_iff_not_imp_left]
    · simp [mapKey.tested_iff distinct, Bindings.hasMapChecks]
    · simp [setKey.tested_iff distinct, Bindings.hasSetChecks]
  | paired =>
    obtain ⟨pairing, found, rfl⟩ := outline_paired outlined
    cases double : pairing.isSingle with
    | true => simp [flags, found, double]
    | false =>
      have key : (pairedMap bindings.className pairing).Tests "isValidKey" _ _ :=
        .own (isValidKey_mem_pairedMap bindings.className double) rfl rfl
      simp only [flags, found, double, Option.toList_some, List.flatMap_cons, List.flatMap_nil,
        List.append_nil, Bool.false_eq_true, if_false, List.forall_mem_singleton]
      exact ⟨⟨_, _, key⟩, by simp [key.tested_iff distinct]⟩

end Template

/-- Between what a template writes when everything is tested and what it writes when nothing is. The
places where it asks for a check only conditionally are those that the bare outline does not have;
all of them are there if the check tests something, and none of them otherwise. -/
structure ClassOutline.Between (outline bare whole : ClassOutline) : Prop where
  heads : outline.members.map Member.head = bare.members.map Member.head ∧
    outline.members.map Member.head = whole.members.map Member.head
  kept : ∀ check, outline.Tested check →
    outline.members.map (Member.calls check) = whole.members.map (Member.calls check)
  omitted : ∀ check, ¬ outline.Tested check →
    outline.members.map (Member.calls check) = bare.members.map (Member.calls check)
  tests : ∀ check, bare.members.map (Member.calls check) ≠ whole.members.map (Member.calls check) →
    ∃ parameters lines, outline.Tests check parameters lines

/-- An outline that leaves out of its template only what would test nothing. -/
def ClassOutline.Guards (outline : ClassOutline) (template : Template) (bindings : Bindings) : Prop :=
  template.outline bindings = .ok outline ∧ ∀ checks ≠ [], ∃ bare whole,
    template.outline (bindings.withChecks []) = .ok bare ∧
      template.outline (bindings.withChecks checks) = .ok whole ∧ outline.Between bare whole

theorem Template.outline_guards {template : Template} {bindings : Bindings} {outline : ClassOutline}
    (outlined : template.outline bindings = .ok outline)
    (sided : bindings.hasChecks = (bindings.hasMapChecks || bindings.hasSetChecks)) :
    outline.Guards template bindings := by
  refine ⟨outlined, fun checks some => ?_⟩
  have tests := Template.outline_tests outlined sided
  obtain ⟨bare, bareOutlined, bareHeads, less⟩ := Template.outline_calls outlined []
  obtain ⟨whole, wholeOutlined, wholeHeads, full⟩ := Template.outline_calls outlined checks
  have set : (!checks.isEmpty) = true := by simp [some]
  refine ⟨bare, whole, bareOutlined, wholeOutlined, ⟨bareHeads, wholeHeads⟩, ?_, ?_, ?_⟩
  · intro check tested
    refine full check fun flag among same => ?_
    rw [set]
    exact (tests flag among).2.mp (same ▸ tested)
  · intro check untested
    refine less check fun flag among same => Bool.eq_false_iff.mpr fun set => ?_
    exact untested (same ▸ (tests flag among).2.mpr set)
  · intro check differs
    by_contra unknown
    have other : ∀ {value : Bool}, ∀ flag ∈ template.flags bindings, check = flag.1 → flag.2 = value := by
      rintro value flag among rfl
      exact absurd (tests flag among).1 unknown
    exact differs ((less check other).symm.trans (full check other))

end Emission

end CompositeKeys
