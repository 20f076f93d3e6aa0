import CompositeKeys.Proofs.Collection.Declared
import CompositeKeys.Proofs.Emission.Writing
import CompositeKeys.Proofs.Generation.Written

/-! What a batch delivers. Each path that has been added gets the module of the first collection that was
accepted for it, and the helper modules that any of them imports are copied beside them. -/

namespace CompositeKeys.Generation
open Files FileTree Tasks Emission Text

namespace Batch

/-- Adds a collection to a batch, and to those that have been accepted if it is. -/
def enter (entered : Batch × List (Builder × FilePath)) (add : Builder × FilePath) :
    Batch × List (Builder × FilePath) :=
  match entered.1.add add.1 add.2 with
  | (batch, .ok ()) => (batch, entered.2 ++ [add])
  | (batch, .error _) => (batch, entered.2)

/-- Adds collections to a batch, and tells those that have been accepted. -/
def addAll (batch : Batch) (adds : List (Builder × FilePath)) : Batch × List (Builder × FilePath) :=
  adds.foldl enter (batch, [])

/-- Whether an addition is for a path. -/
def goesTo (root path : FilePath) (add : Builder × FilePath) : Bool := (root.join add.2).same path

/-- The modules that a batch writes for what it has accepted. -/
structure Serves (root : FilePath) (options : CompileOptions) (accepted : List (Builder × FilePath))
    (orders : List ModuleOrder) : Prop where
  apart : orders.Pairwise fun first second => first.output.same second.output = false
  first : ∀ order ∈ orders, ∃ add, accepted.find? (goesTo root order.output) = some add ∧
    order = orderOf root add.1 options (root.join add.2)
  covered : ∀ add ∈ accepted, ∃ order ∈ orders, order.output.same (root.join add.2) = true

/-- What holds of a batch that has not been completed. -/
structure Entered (root : FilePath) (options : CompileOptions) (checker : CheckerSettings)
    (accepted : List (Builder × FilePath)) (orders : List ModuleOrder) (batch : Batch) : Prop where
  given : batch.options = options
  prepared : Prepared root checker {} orders batch.run
  serves : Serves root options accepted orders
  plain : ∀ add ∈ accepted, add.2.Plain
  generators : List.Forall₂ (fun (generator : Generator) (add : Builder × FilePath) =>
    ∃ order ∈ orders, order.output.same (root.join add.2) = true ∧ generator.claim = order.claim)
      batch.generators accepted

variable {root : FilePath} {options : CompileOptions} {checker : CheckerSettings}
  {accepted : List (Builder × FilePath)} {orders : List ModuleOrder} {batch : Batch}

theorem Serves.uniform (serves : Serves root options accepted orders) :
    ∀ order ∈ orders, order.options = options := by
  intro order member
  obtain ⟨add, _, made⟩ := serves.first order member
  rw [made]
  rfl

theorem Serves.found (serves : Serves root options accepted orders) (add : Builder × FilePath) :
    ∀ order ∈ orders, ∃ first, (accepted ++ [add]).find? (goesTo root order.output) = some first ∧
      order = orderOf root first.1 options (root.join first.2) := by
  intro order among
  obtain ⟨first, found, made⟩ := serves.first order among
  refine ⟨first, ?_, made⟩
  rw [List.find?_append, found]
  rfl

theorem Serves.shared (serves : Serves root options accepted orders) {add : Builder × FilePath}
    {owner : ModuleOrder} (member : owner ∈ orders) (same : owner.output.same (root.join add.2) = true) :
    Serves root options (accepted ++ [add]) orders := by
  refine ⟨serves.apart, serves.found add, fun other among => ?_⟩
  rcases List.mem_append.mp among with earlier | last
  · exact serves.covered other earlier
  · rw [List.mem_singleton.mp last]
    exact ⟨owner, member, same⟩

theorem Serves.owned (serves : Serves root options accepted orders) (add : Builder × FilePath)
    (new : ∀ owner ∈ orders, owner.output.same (root.join add.2) = false) :
    Serves root options (accepted ++ [add])
      (orders ++ [orderOf root add.1 options (root.join add.2)]) := by
  refine ⟨?_, fun order among => ?_, fun other among => ?_⟩
  · refine List.pairwise_append.mpr ⟨serves.apart, List.pairwise_singleton _ _, ?_⟩
    intro owner member order last
    rw [List.mem_singleton.mp last]
    exact new owner member
  · rcases List.mem_append.mp among with earlier | last
    · exact serves.found add order earlier
    · -- Had the path been accepted before, an order would have claimed it.
      have unknown : accepted.find? (goesTo root (root.join add.2)) = none := by
        refine List.find?_eq_none.mpr fun other member same => ?_
        obtain ⟨owner, listed, claims⟩ := serves.covered other member
        have clash := FilePath.same_iff.mpr ((FilePath.same_iff.mp claims).trans (FilePath.same_iff.mp same))
        cases (new owner listed).symm.trans clash
      rw [List.mem_singleton.mp last]
      refine ⟨add, ?_, rfl⟩
      show (accepted ++ [add]).find? (goesTo root (root.join add.2)) = some add
      rw [List.find?_append, unknown]
      exact List.find?_cons_of_pos (FilePath.same_self _)
  · rcases List.mem_append.mp among with earlier | last
    · obtain ⟨order, member, same⟩ := serves.covered other earlier
      exact ⟨order, List.mem_append_left _ member, same⟩
    · rw [List.mem_singleton.mp last]
      exact ⟨_, List.mem_append_right _ (.head _), FilePath.same_self _⟩

section Entered

variable (entered : Entered root options checker accepted orders batch) (add : Builder × FilePath)
include entered

theorem Entered.push (plain : add.2.Plain) {run : GenerationRun} {more : List ModuleOrder} {generator : Generator}
    (prepared : Prepared root checker {} (orders ++ more) run)
    (serves : Serves root options (accepted ++ [add]) (orders ++ more))
    (claims : ∃ order ∈ orders ++ more,
      order.output.same (root.join add.2) = true ∧ generator.claim = order.claim) :
    Entered root options checker (accepted ++ [add]) (orders ++ more)
      { batch with run, generators := batch.generators ++ [generator] } := by
  refine ⟨entered.given, prepared, serves, fun other member => ?_, ?_⟩
  · rcases List.mem_append.mp member with earlier | last
    · exact entered.plain other earlier
    · exact List.mem_singleton.mp last ▸ plain
  refine List.rel_append (entered.generators.imp fun _ _ => ?_) (.cons claims .nil)
  exact fun ⟨order, member, rest⟩ => ⟨order, List.mem_append_left _ member, rest⟩

theorem Entered.enter (dotless : .here ∉ add.2.components ∧ .up ∉ add.2.components) :
    ∃ orders, Entered root options checker (Batch.enter (batch, accepted) add).2 orders
      (Batch.enter (batch, accepted) add).1 := by
  obtain rfl := entered.given
  unfold Batch.enter Batch.add
  dsimp only
  by_cases absolute : add.2.isAbsolute = true
  · rw [if_pos absolute]
    exact ⟨orders, entered⟩
  rw [if_neg absolute, entered.prepared.base]
  have plain : add.2.Plain := ⟨Bool.eq_false_iff.mpr absolute, dotless⟩
  have registered := entered.prepared.register add.1 batch.options (root.join add.2)
  generalize Generator.register add.1 (root.join add.2) batch.options batch.run = result at registered
  cases registered with
  | refused error prepared => exact ⟨orders, rfl, prepared, entered.serves, entered.plain, entered.generators⟩
  | shares owner member same =>
    refine ⟨orders ++ [], entered.push add plain ?_ ?_ ⟨owner, List.mem_append_left _ member, same, rfl⟩⟩
    · exact (List.append_nil orders).symm ▸ entered.prepared
    · exact (List.append_nil orders).symm ▸ entered.serves.shared member same
  | owns new prepared =>
    have listed : orderOf root add.1 batch.options (root.join add.2) ∈
        orders ++ [orderOf root add.1 batch.options (root.join add.2)] :=
      List.mem_append_right _ (.head _)
    have same := FilePath.same_self (root.join add.2)
    exact ⟨_, entered.push add plain prepared (entered.serves.owned add new) ⟨_, listed, same, rfl⟩⟩

omit entered in
theorem entered_addAll (root : FilePath) (options : CompileOptions) (checker : CheckerSettings)
    {adds : List (Builder × FilePath)}
    (dotless : ∀ add ∈ adds, .here ∉ add.2.components ∧ .up ∉ add.2.components) :
    ∃ orders, Entered root options checker ((create root options checker).addAll adds).2 orders
      ((create root options checker).addAll adds).1 := by
  have run : ∀ (start : Batch × List (Builder × FilePath)) (orders : List ModuleOrder),
      Entered root options checker start.2 orders start.1 →
      ∃ orders, Entered root options checker (adds.foldl Batch.enter start).2 orders
        (adds.foldl Batch.enter start).1 := by
    induction adds with
    | nil => exact fun start orders entered => ⟨orders, entered⟩
    | cons add adds ih =>
      intro start orders entered
      obtain ⟨first, dotless⟩ := List.forall_mem_cons.mp dotless
      obtain ⟨later, entered⟩ := entered.enter add first
      exact ih dotless _ later entered
  exact run (create root options checker, []) []
    ⟨rfl, prepared_create root checker, ⟨.nil, List.forall_mem_nil _, List.forall_mem_nil _⟩,
      List.forall_mem_nil _, .nil⟩

theorem Entered.below : ∀ order ∈ orders, root.Below order.output := by
  intro order member
  obtain ⟨add, found, made⟩ := entered.serves.first order member
  rw [made]
  exact (FilePath.below_self root).join (entered.plain add (List.mem_of_find?_eq_some found))

theorem Entered.no_orders (none : batch.generators = []) : orders = [] := by
  have generators := entered.generators
  rw [none] at generators
  cases generators
  refine List.eq_nil_iff_forall_not_mem.mpr fun order member => ?_
  obtain ⟨add, found, _⟩ := entered.serves.first order member
  cases found

/-- A generator that has an order is called as the class that the order makes. -/
theorem Entered.named
    (modules : ∀ order ∈ orders, ∃ source, order.source = .ok source) :
    List.Forall₂ (fun add name => ∃ order ∈ orders, order.output.same (root.join add.2) = true ∧
        ∃ source, order.source = .ok source ∧ source.className = name)
      accepted (batch.generators.map (·.claim.className)) := by
  refine List.forall₂_map_right_iff.mpr (entered.generators.flip.imp fun add generator => ?_)
  intro ⟨order, member, goes, claim⟩
  obtain ⟨source, generated⟩ := modules order member
  obtain ⟨_, _, made⟩ := SourceModule.ofConfiguration_ok generated
  refine ⟨order, member, goes, source, generated, ?_⟩
  rw [made, claim]
  rfl

end Entered

/-- Generators that all have a result belong to a run that has succeeded. -/
theorem results_ok {generators : List Generator} {outcome : Outcome} {names : List String}
    (some : generators ≠ []) (results : generators.mapM (·.result outcome) = .ok names) :
    outcome = .ok () ∧ names = generators.map (·.claim.className) := by
  cases outcome with
  | ok =>
    have all : generators.mapM (·.result (.ok ())) = .ok (generators.map (·.claim.className)) :=
      List.mapM_pure
    exact ⟨rfl, Except.ok.inj (results.symm.trans all)⟩
  | error error =>
    cases generators with
    | nil => exact absurd rfl some
    | cons generator generators =>
      rw [List.mapM_cons] at results
      obtain ⟨_, failed, _⟩ := bind_eq_ok.mp results
      cases failed

theorem checkedOf_uniform (uniform : ∀ order ∈ orders, order.options = options) :
    checkedOf orders = if options.checkedTypes then orders.map (·.output) else [] := by
  induction orders with
  | nil => exact (ite_self _).symm
  | cons order orders ih =>
    obtain ⟨here, uniform⟩ := List.forall_mem_cons.mp uniform
    have rest := ih uniform
    rw [checkedOf] at rest ⊢
    rw [List.flatMap_cons, rest, here]
    split <;> rfl

/-- A map with keys of two kinds, which needs the hasher. -/
def owners : Builder := Builder.performAll ⟨⟨.map, .start⟩, .empty "CarOwners" (.map .strong)⟩
  [.addMapKey "car" "The car." false {}, .addMapKey "owner" "The owner." false {}, .lock]

/-- The owners, and a set of cars under one path in two spellings. -/
def fleet : List (Builder × FilePath) :=
  let cars : Builder := Builder.performAll ⟨⟨.map, .start⟩, .empty "Cars" (.map .strong)⟩
    [.addMapKey "car" "The car." false {}, .lock]
  [(owners, ⟨"CarOwners.mjs"⟩), (cars, ⟨"fleet//Cars.mjs"⟩), (owners, ⟨"fleet/Cars.mjs"⟩)]

theorem hasherText_begins : ∃ rest, hasherText.toList = '/' :: rest := by
  rw [hasherText, wholeLines, List.map_cons, String.join_cons, String.toList_append]
  exact ⟨_, rfl⟩

/-- A module that says nothing ahead of its imports begins with that of the hasher, if it has it. -/
theorem text_begins {source : SourceModule} (silent : source.ahead ++ source.header = "")
    (imports : source.helpers.hasher = true) (unbroken : '\n' ∉ source.helperDirectory.toList) :
    ∃ rest, source.text.toList = 'i' :: rest := by
  let line := "import KeyHasher from \"" ++ source.helperDirectory ++ "/Hasher.mjs\";"
  obtain ⟨after, text⟩ : ∃ after, source.text = tidy (line ++ "\n" ++ after) := by
    have first : ∃ others, source.helperImports = line :: others := by
      rw [SourceModule.helperImports, if_pos imports]
      exact ⟨_, rfl⟩
    obtain ⟨others, first⟩ := first
    refine ⟨String.join ((others ++ source.imports).map (· ++ "\n")) ++ "\n" ++
      String.join (source.contribution.classes.map fun definition => definition.text ++ "\n") ++
      "export default " ++ source.className ++ ";\n", ?_⟩
    have whole : source.text = tidy (source.ahead ++ source.header ++
        (String.join ((source.helperImports ++ source.imports).map (· ++ "\n")) ++ "\n" ++
        String.join (source.contribution.classes.map fun definition => definition.text ++ "\n") ++
        "export default " ++ source.className ++ ";\n")) := by
      simp only [SourceModule.text, String.append_assoc, SourceModule.ahead]
    rw [whole, silent, String.empty_append, first, List.cons_append, List.map_cons, String.join_cons]
    simp only [String.append_assoc]
  have whole : '\n' ∉ line.toList := by
    simp [line, unbroken]
  have last : line.toList.getLast? = some ';' := by
    rw [String.toList_append, List.getLast?_append]
    rfl
  obtain ⟨rest, same⟩ := @tidy_isPrefix (line ++ "\n") after (ended_feed line)
  rw [text, ← same, tidy_line whole last (by decide)]
  simp [line]

end Batch

end CompositeKeys.Generation
