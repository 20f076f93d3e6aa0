import CompositeKeys.Proofs.Collection.Naming
import CompositeKeys.Proofs.Emission.KeyLibrary
import CompositeKeys.Proofs.Generation.Written

/-! The helper modules that are copied are closed under imports: whatever a module imports from the
key library is among them, and so is whatever they import themselves. -/

namespace CompositeKeys.Generation
open Text Emission

/-- A line that stays as it is when it is read back from a text of whole lines. -/
structure KeepsLine (line : String) : Prop where
  unbroken : '\n' ∉ line.toList
  last : line.toList.getLast? ≠ some '\r'

theorem lines_wholeLines {texts : List String} (kept : ∀ text ∈ texts, KeepsLine text) :
    lines (wholeLines texts) = texts := by
  induction texts with
  | nil => rfl
  | cons text texts ih =>
    obtain ⟨⟨unbroken, last⟩, others⟩ := List.forall_mem_cons.mp kept
    have first : wholeLines (text :: texts) = text ++ "\n" ++ wholeLines texts := by
      simp [wholeLines]
    rw [first, lines_append (ended_feed text), lines_line unbroken last, ih others,
      List.singleton_append]

/-- A line of a helper module that imports nothing but one of some helpers beside it. -/
structure ImportsOnly (helpers : List Helper) (line : String) : Prop extends KeepsLine line where
  known : "import".toList <:+: line.toList → ∃ helper ∈ helpers, line = helper.statement "."

section Texts
variable {helpers : List Helper} {line : String} {texts : List String}

/-- A line with certain letters imports nothing. The line is compared with its letters as a whole, so
that none of them has to be read from it. -/
theorem ImportsOnly.silent_cons {letters : List Char} (same : line = .ofList letters)
    (kept : '\n' ∉ letters ∧ letters.getLast? ≠ some '\r')
    (silent : occursIn ['i', 'm', 'p', 'o', 'r', 't'] letters = false)
    (rest : ∀ text ∈ texts, ImportsOnly helpers text) :
    ∀ text ∈ line :: texts, ImportsOnly helpers text := by
  have read : line.toList = letters := by simp [same]
  refine List.forall_mem_cons.mpr ⟨⟨⟨read ▸ kept.1, read ▸ kept.2⟩, fun mentioned => ?_⟩, rest⟩
  rw [read] at mentioned
  rw [occursIn_iff.mpr (by simpa using mentioned)] at silent
  cases silent

theorem ImportsOnly.statement_cons {helper : Helper} (among : helper ∈ helpers)
    (same : line = helper.statement ".") (rest : ∀ text ∈ texts, ImportsOnly helpers text) :
    ∀ text ∈ line :: texts, ImportsOnly helpers text := by
  obtain rfl := same
  refine List.forall_mem_cons.mpr ⟨⟨⟨helper.statement_unbroken (by decide), ?_⟩, ?_⟩, rest⟩
  · rw [helper.statement_last]
    decide
  · exact fun _ => ⟨helper, among, rfl⟩

end Texts

theorem hasherText_imports :
    ∃ texts, hasherText = wholeLines texts ∧ ∀ text ∈ texts, ImportsOnly [] text := by
  refine ⟨_, rfl, ?_⟩
  repeat
    refine ImportsOnly.silent_cons rfl (by decide +kernel) (by decide +kernel) ?_
  exact List.forall_mem_nil _

theorem composerText_imports :
    ∃ texts, composerText = wholeLines texts ∧ ∀ text ∈ texts, ImportsOnly [.hasher] text := by
  refine ⟨_, rfl, ?_⟩
  repeat
    refine ImportsOnly.silent_cons rfl (by decide +kernel) (by decide +kernel) ?_
  refine ImportsOnly.statement_cons List.mem_cons_self (Helper.statement_hasher ".").symm ?_
  repeat
    refine ImportsOnly.silent_cons rfl (by decide +kernel) (by decide +kernel) ?_
  exact List.forall_mem_nil _

section Files
variable (use : HelperUse)

def helperNames : List String := (helperFiles use).map HelperFile.name

theorem mem_helperNames {use : HelperUse} {helper : Helper} (used : helper.usedBy use = true) :
    helper.fileName ∈ helperNames use := by
  obtain ⟨hasher, composer⟩ := use
  cases helper with
  | hasher =>
    obtain rfl : hasher = true := used
    simp [helperNames, helperFiles, Helper.fileName]
  | composer =>
    obtain rfl : composer = true := used
    simp [helperNames, helperFiles, Helper.fileName]

/-- Whatever a helper module imports is copied with it. -/
theorem helperFiles_closed : ∀ file ∈ helperFiles use, ∀ line ∈ lines file.text,
    "import".toList <:+: line.toList →
      ∃ helper : Helper, line = helper.statement "." ∧ helper.fileName ∈ helperNames use := by
  -- Every line is one of those that the text is made of, and these import only what they may.
  have closed : ∀ {text : String} {helpers : List Helper},
      (∃ texts, text = wholeLines texts ∧ ∀ text ∈ texts, ImportsOnly helpers text) →
      (∀ helper ∈ helpers, helper.fileName ∈ helperNames use) →
      ∀ line ∈ lines text, "import".toList <:+: line.toList →
        ∃ helper : Helper, line = helper.statement "." ∧ helper.fileName ∈ helperNames use := by
    rintro _ helpers ⟨texts, rfl, each⟩ present line member mentioned
    rw [lines_wholeLines fun text among => (each text among).toKeepsLine] at member
    obtain ⟨helper, among, same⟩ := (each line member).known mentioned
    exact ⟨helper, same, present helper among⟩
  intro file member
  unfold helperFiles at member
  rcases List.mem_append.mp member with member | member
  · split at member
    · obtain rfl := List.mem_singleton.mp member
      exact closed hasherText_imports (List.forall_mem_nil _)
    · cases member
  · split at member
    next composer =>
      obtain rfl := List.mem_singleton.mp member
      refine closed composerText_imports (List.forall_mem_singleton.mpr ?_)
      simp [helperNames, helperFiles, composer, Helper.fileName]
    · cases member

theorem usedBy_helpersOf {orders : List ModuleOrder} {order : ModuleOrder} {source : SourceModule}
    (among : order ∈ orders) (made : order.source = .ok source) {helper : Helper}
    (used : helper.usedBy source.helpers = true) : helper.usedBy (helpersOf orders) = true := by
  have same : order.helpers = source.helpers := by
    rw [ModuleOrder.helpers, made]
    rfl
  rw [helpersOf, Helper.usedBy_unions, Helper.usedBy_empty, Bool.false_or, List.any_eq_true]
  exact ⟨order, among, same ▸ used⟩

end Files

/-- What a module takes from the key library, and how it imports it. -/
structure Equipped (configuration : Configuration) (source : SourceModule) : Prop where
  classes : ∀ definition ∈ source.contribution.classes,
    (∃ rest, definition.text = "class " ++ definition.outline.name ++ " \x7b\n" ++
      String.join (definition.outline.fields.map fun field => "  " ++ field.declaration ++ "\n") ++
        rest) ∧
    ∃ before after, Ended before.toList ∧ source.text = tidy (before ++ definition.text ++ after)
  helpers : ∀ helper : Helper, helper.usedBy source.helpers = true ↔
    ∃ definition ∈ source.contribution.classes, definition.outline.Builds helper
  placed : ∃ before after, Ended before.toList ∧ source.text = tidy (before ++
    String.join ((source.helperImports ++ source.imports).map (· ++ "\n")) ++ after)
  imports : source.imports.Nodup ∧ ∀ line, line ∈ source.imports ↔
    ∃ part ∈ Contribution.parts configuration, line ∈ Contribution.asked part
  counted : ∀ helper : Helper,
    (source.helperImports ++ source.imports).count (helper.statement source.helperDirectory) =
      (helper.usedBy source.helpers).toNat +
        source.imports.count (helper.statement source.helperDirectory)
  written : ∀ helper : Helper, helper.usedBy source.helpers = true →
    '\n' ∉ source.helperDirectory.toList →
      (helper.statement source.helperDirectory ++ "\n").toList <:+: source.text.toList

theorem equipped_of_made {configuration : Configuration} {options : CompileOptions}
    {helperDirectory : String} {source : SourceModule}
    (made : SourceModule.ofConfiguration configuration options helperDirectory = .ok source) :
    Equipped configuration source := by
  obtain ⟨contribution, contributed, rfl⟩ := SourceModule.ofConfiguration_ok made
  refine ⟨fun definition among => ⟨?_, SourceModule.text_around_class among⟩,
    Contribution.helps_of_made contributed, SourceModule.text_around_imports _,
    Contribution.imports_of_made contributed, fun helper => ?_,
    fun helper used unbroken => SourceModule.statement_isInfix unbroken used⟩
  · obtain ⟨part, -, bindings, -, defined⟩ := Contribution.part_of_class contributed among
    obtain ⟨-, written, -⟩ := ClassDefinition.ofConfiguration_ok defined
    exact written.text_fields
  · rw [List.count_append, SourceModule.count_helperImports]

/-- A module is reported to need a helper if and only if one of its classes is made with it, that of an
inline base among them. It imports what it needs by one statement, beside what its configuration
asks for; and a run that writes it copies what it imports, with all that this imports. -/
theorem helpers_complete {configuration : Configuration} {options : CompileOptions}
    {helperDirectory : String} {source : SourceModule}
    (made : SourceModule.ofConfiguration configuration options helperDirectory = .ok source) :
    Equipped configuration source ∧ source.helperDirectory = helperDirectory ∧
      ∀ orders : List ModuleOrder, (∃ order ∈ orders, order.source = .ok source) →
        (∀ helper : Helper, helper.usedBy source.helpers = true →
          helper.fileName ∈ helperNames (helpersOf orders)) ∧
        ∀ file ∈ helperFiles (helpersOf orders), ∀ line ∈ lines file.text,
          "import".toList <:+: line.toList → ∃ helper : Helper, line = helper.statement "." ∧
            helper.fileName ∈ helperNames (helpersOf orders) := by
  refine ⟨equipped_of_made made, ?_, ?_⟩
  · obtain ⟨contribution, -, rfl⟩ := SourceModule.ofConfiguration_ok made
    rfl
  · rintro orders ⟨order, among, generated⟩
    exact ⟨fun helper used => mem_helperNames (usedBy_helpersOf among generated used),
      helperFiles_closed (helpersOf orders)⟩

theorem helpers_complete_pairs :
    let owners : Builder := Builder.performAll ⟨⟨.map, .start⟩, .empty "CarOwners" (.map .weak)⟩
      [.addMapKey "car" "A car." true {}, .addMapKey "owner" "Its owner." false {}, .lock]
    let pairs : Builder := Builder.performAll ⟨⟨.oneToOne, .start⟩, .empty "CarPairs" .oneToOne⟩
      [.configurePairing (.builder owners) "car" none, .lock]
    let order : ModuleOrder := ⟨pairs.configuration, {}, ⟨"out/CarPairs.mjs"⟩, "./keys"⟩
    pairs.isLocked = true ∧ ∃ source,
      SourceModule.ofConfiguration pairs.configuration {} "./keys" = .ok source ∧
      source.contribution.classes.map (fun definition => definition.outline.name) =
        ["CarOwners", "CarPairs"] ∧
      (∃ definition ∈ source.contribution.classes, definition.outline.Builds .composer) ∧
      (∀ definition ∈ source.contribution.classes, ¬ definition.outline.Builds .hasher) ∧
      (Helper.composer.statement "./keys" ++ "\n").toList <:+: source.text.toList ∧
      "Composite.mjs" ∈ helperNames (helpersOf [order]) := by
  intro owners pairs order
  have locked : pairs.isLocked = true := by decide +kernel
  obtain ⟨source, generated, names, uses⟩ : ∃ source,
      SourceModule.ofConfiguration pairs.configuration {} "./keys" = .ok source ∧
        source.contribution.classes.map (fun definition => definition.outline.name) =
          ["CarOwners", "CarPairs"] ∧ source.helpers = ⟨false, true⟩ := by
    rw [exists_eq_ok]
    decide +kernel
  obtain ⟨equipped, directory, copied⟩ := helpers_complete generated
  have composer : Helper.composer.usedBy source.helpers = true := by rw [uses]; rfl
  refine ⟨locked, source, generated, names, (equipped.helpers .composer).mp composer, ?_, ?_, ?_⟩
  · intro definition among makes
    have hasher := (equipped.helpers .hasher).mpr ⟨definition, among, makes⟩
    rw [uses] at hasher
    cases hasher
  · have imported := equipped.written .composer composer (by rw [directory]; decide)
    rwa [directory] at imported
  · exact (copied [order] ⟨order, List.mem_cons_self, generated⟩).1 .composer composer

/-- A base that is named like a helper stands in for it in the field that holds the base, and needs no
import; and a configuration may ask for the import of a helper itself, which stands twice then. -/
theorem helpers_confused :
    let base : Builder := Builder.performAll ⟨⟨.map, .start⟩, .empty "KeyHasher" (.map .weak)⟩
      [.addMapKey "car" "The car." true {}, .lock]
    let pairs : Builder := Builder.performAll ⟨⟨.oneToOne, .start⟩, .empty "CarPairs" .oneToOne⟩
      [.configurePairing (.builder base) "car" none, .lock]
    let cars : Builder := Builder.performAll ⟨⟨.map, .start⟩, .empty "Cars" (.map .strong)⟩
      [.setImportText "import KeyHasher from \"./keys/Hasher.mjs\";",
        .addMapKey "car" "The car." false {}, .addMapKey "owner" "The owner." false {}, .lock]
    (Builder.create "KeyHasher" .weakMap none =
        .ok ⟨⟨.map, .start⟩, .empty "KeyHasher" (.map .weak)⟩ ∧
      Builder.create "CarPairs" .oneToOne none =
        .ok ⟨⟨.oneToOne, .start⟩, .empty "CarPairs" .oneToOne⟩ ∧
      pairs.isLocked = true ∧ ∃ source,
        SourceModule.ofConfiguration pairs.configuration {} "./keys" = .ok source ∧
        source.helpers.hasher = false ∧
        ∃ definition ∈ source.contribution.classes, ∃ field ∈ definition.outline.fields,
          field.initial.instantiated? = some "KeyHasher") ∧
    Builder.create "Cars" .map none = .ok ⟨⟨.map, .start⟩, .empty "Cars" (.map .strong)⟩ ∧
      cars.isLocked = true ∧ ∃ source,
        SourceModule.ofConfiguration cars.configuration {} "./keys" = .ok source ∧
        source.helpers.hasher = true ∧
        (source.helperImports ++ source.imports).count
          "import KeyHasher from \"./keys/Hasher.mjs\";" = 2 := by
  intro base pairs cars
  refine ⟨⟨rfl, rfl, by decide +kernel, ?_⟩, rfl, by decide +kernel, ?_⟩
  · rw [exists_eq_ok]
    decide +kernel
  · rw [exists_eq_ok]
    decide +kernel

end CompositeKeys.Generation
