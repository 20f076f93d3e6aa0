import CompositeKeys.Proofs.Collection.Edits
import CompositeKeys.Proofs.Emission.Inlining

/-! Import texts. A module is asked for the lines of its bases and then for its own, and it has the first
line of every spelling, right above its classes. Lines are told apart by their spelling alone: a complete
statement that is asked for again may be left out, but a statement over several lines loses those that
another statement has had before it. So a text comes through exactly if none but its complete statements
has occurred before. -/

namespace CompositeKeys.Emission
open Text

/-- Whether a line is a complete import statement. -/
def IsStatement (line : String) : Prop :=
  "import ".toList <+: line.toList ∧ line.toList.getLast? = some ';'

instance (line : String) : Decidable (IsStatement line) := inferInstanceAs (Decidable (_ ∧ _))

/-- What is kept of lines that come after others, if nothing is left out but complete statements that have
occurred already. -/
inductive Survives : List String → List String → List String → Prop where
  | nil {seen} : Survives seen [] []
  | kept {seen line lines rest} (later : Survives (line :: seen) lines rest) :
      Survives seen (line :: lines) (line :: rest)
  | left {seen line lines rest} (statement : IsStatement line) (occurred : line ∈ seen)
      (later : Survives seen lines rest) : Survives seen (line :: lines) rest

namespace Survives
variable {seen lines kept : List String}

/-- Whatever is no complete statement is kept as often as it occurs. -/
theorem count_eq (survives : Survives seen lines kept) (line : String) (other : ¬ IsStatement line) :
    kept.count line = lines.count line := by
  induction survives with
  | nil => rfl
  | kept _ ih => rw [List.count_cons, List.count_cons, ih]
  | @left _ first _ _ statement _ _ ih =>
    have differs : first ≠ line := fun same => other (same ▸ statement)
    rw [ih, List.count_cons_of_ne differs]

theorem eq_of_plain (survives : Survives seen lines kept) (plain : ∀ line ∈ lines, ¬ IsStatement line) :
    kept = lines := by
  induction survives with
  | nil => rfl
  | kept _ ih => rw [ih (List.forall_mem_cons.mp plain).2]
  | left statement => exact absurd statement (List.forall_mem_cons.mp plain).1

/-- What is kept of lines is kept part by part. -/
theorem append {first second : List String} (survives : Survives seen (first ++ second) kept) :
    ∃ early seen' late,
      kept = early ++ late ∧ Survives seen first early ∧ Survives seen' second late := by
  induction first generalizing seen kept with
  | nil => exact ⟨[], seen, kept, rfl, .nil, survives⟩
  | cons line rest ih =>
    cases survives with
    | kept later =>
      obtain ⟨early, seen', late, rfl, sooner, after⟩ := ih later
      exact ⟨line :: early, seen', late, rfl, .kept sooner, after⟩
    | left statement occurred later =>
      obtain ⟨early, seen', late, rfl, sooner, after⟩ := ih later
      exact ⟨early, seen', late, rfl, .left statement occurred sooner, after⟩

/-- A statement over several lines, none of which is complete by itself, stays in one piece. -/
theorem isInfix (survives : Survives seen lines kept) {block : List String} (among : block <:+: lines)
    (plain : ∀ line ∈ block, ¬ IsStatement line) : block <:+: kept := by
  obtain ⟨before, after, rfl⟩ := among
  obtain ⟨most, _, behind, rfl, survives, -⟩ := survives.append
  obtain ⟨ahead, _, own, rfl, -, survives⟩ := survives.append
  rw [survives.eq_of_plain plain]
  exact ⟨ahead, behind, rfl⟩

end Survives

theorem eraseDups_removeAll_cons {seen rest : List String} {line : String} (new : line ∉ seen) :
    ((line :: rest).removeAll seen).eraseDups = line :: (rest.removeAll (line :: seen)).eraseDups := by
  have kept : (line :: rest).removeAll seen = line :: rest.removeAll seen := by
    simp [List.removeAll, new]
  rw [kept, List.eraseDups_cons, List.removeAll, List.removeAll, List.filter_filter]
  refine congrArg _ (congrArg _ (List.filter_congr fun other _ => ?_))
  simp [beq_eq_decide]

theorem survives_eraseDups {seen lines : List String}
    (statements : ∀ line ∈ lines, 1 < (seen ++ lines).count line → IsStatement line) :
    Survives seen lines (lines.removeAll seen).eraseDups := by
  induction lines generalizing seen with
  | nil => exact .nil
  | cons line rest ih =>
    rw [List.forall_mem_cons] at statements
    obtain ⟨first, others⟩ := statements
    simp only [List.count_append, List.count_cons] at first others
    by_cases occurred : line ∈ seen
    · -- The line has been counted once among those seen and once here.
      have before : 0 < seen.count line := List.count_pos_iff.mpr occurred
      have statement : IsStatement line := first (by rw [beq_self_eq_true, if_pos rfl]; omega)
      have dropped : (line :: rest).removeAll seen = rest.removeAll seen := by
        simp [List.removeAll, occurred]
      rw [dropped]
      refine .left statement occurred (ih fun other listed repeated => ?_)
      rw [List.count_append] at repeated
      exact others other listed (by omega)
    · rw [eraseDups_removeAll_cons occurred]
      refine .kept (ih fun other listed repeated => ?_)
      rw [List.cons_append, List.count_cons, List.count_append] at repeated
      exact others other listed (by omega)

/-- Lines survive exactly if none but a complete statement has occurred before. -/
theorem survives_eraseDups_iff {seen lines : List String} :
    Survives seen lines (lines.removeAll seen).eraseDups ↔
      ∀ line ∈ lines, 1 < (seen ++ lines).count line → IsStatement line := by
  refine ⟨fun survives line listed repeated => ?_, survives_eraseDups⟩
  by_contra other
  have same := survives.count_eq line other
  have once := List.nodup_iff_count_le_one.mp (nodup_eraseDups (lines.removeAll seen)) line
  have among : line ∈ lines.removeAll seen := by
    rw [← List.mem_eraseDups, ← List.count_pos_iff, same]
    exact List.count_pos_iff.mpr listed
  have unseen : seen.count line = 0 := by
    rw [List.count_eq_zero]
    intro occurred
    simp [List.removeAll, occurred] at among
  rw [List.count_append] at repeated
  omega

/-- Among the first lines of every spelling, those of some lines come right behind those before them. -/
theorem isPrefix_eraseDups_append (first lines more : List String) :
    first.eraseDups ++ (lines.removeAll first).eraseDups <+: (first ++ lines ++ more).eraseDups := by
  rw [List.eraseDups_append, List.eraseDups_append]
  exact List.prefix_append _ _

/-- The lines of an import text are in normal form. -/
theorem importsOf_normal {text line : String} (listed : line ∈ importsOf text) : NormalLine line := by
  obtain ⟨trimmed, filled⟩ := List.mem_filter.mp listed
  obtain ⟨whole, among, rfl⟩ := List.mem_map.mp trimmed
  obtain ⟨letters, read, rfl⟩ := List.mem_map.mp among
  have same : (trim (.ofList letters)).toList = unpadded (unindented letters) := by
    simp [trim, stripped]
  have some : unpadded (unindented letters) ≠ [] := by
    intro none
    rw [none, String.toList_eq_nil_iff] at same
    simp [same] at filled
  have last := List.getLast?_eq_some_getLast some
  rw [NormalLine, same]
  refine ⟨fun feed => ?_, _, last, filled_of_last_unpadded last⟩
  have part : unpadded (unindented letters) <:+: letters :=
    (unpadded_isInfix _).trans (List.dropWhile_suffix isBlank).isInfix
  exact (part_of_mem_linesOf read).2 (part.subset feed)

/-- Of a text that is not blank some line is imported. -/
theorem importsOf_ne_nil {text : String} (filled : isBlankText text = false) : importsOf text ≠ [] := by
  obtain ⟨letter, member, held⟩ := List.all_eq_false.mp filled
  rw [Bool.not_eq_true] at held
  obtain ⟨line, among, inside⟩ := filled_in_lines held member
  have some : trim (.ofList line) ≠ "" := by
    rw [Ne, ← String.toList_eq_nil_iff]
    simpa [trim] using stripped_ne_nil held inside
  have trimmed : trim (.ofList line) ∈ (lines text).map trim :=
    List.mem_map_of_mem (List.mem_map_of_mem among)
  exact List.ne_nil_of_mem (List.mem_filter.mpr ⟨trimmed, by simpa using some⟩)

namespace Contribution

/-- The class of a configuration itself is always written. -/
theorem self_mem_parts (configuration : Configuration) : configuration ∈ parts configuration := by
  cases configuration with
  | plain own => exact List.mem_singleton_self _
  | paired own link base =>
    unfold parts
    split <;> simp

/-- An import text stands behind what its configuration imports besides. -/
theorem asked_eq {part : Configuration} {text : String} (given : part.own.importText = some text) :
    ∃ first, asked part = first ++ importsOf text := by
  unfold asked
  rw [given]
  exact ⟨_, rfl⟩

theorem requested_split {configuration part : Configuration} {sooner later : List Configuration}
    {base lines : List String} (split : parts configuration = sooner ++ part :: later)
    (given : asked part = base ++ lines) :
    requested configuration = sooner.flatMap asked ++ base ++ lines ++ later.flatMap asked := by
  rw [requested, split, List.flatMap_append, List.flatMap_cons, given]
  simp only [List.append_assoc]

theorem asked_normal {part : Configuration} (formed : part.WellFormed) {line : String}
    (listed : line ∈ asked part) : NormalLine line := by
  rcases List.mem_append.mp listed with base | own
  · cases paired : part.pairing? with
    | none => simp [paired] at base
    | some pairing =>
      obtain ⟨link, base'⟩ := pairing
      rw [paired] at base
      dsimp only at base
      split at base
      · next path _ =>
        obtain rfl := List.mem_singleton.mp base
        have named := isIdentifier_oneLine (formed.base paired).own.classNamed.identifier
        refine ⟨?_, ';', by simp [List.getLast?_append, List.getLast?_cons], rfl⟩
        simp [quoted_unbroken, Configuration.className, named]
      · cases base
      · cases base
  · cases given : part.own.importText with
    | none => simp [given] at own
    | some text => exact importsOf_normal (by simpa [given] using own)

theorem requested_normal {configuration : Configuration} (formed : configuration.WellFormed)
    {line : String} (listed : line ∈ requested configuration) : NormalLine line := by
  obtain ⟨part, among, listed⟩ := List.mem_flatMap.mp listed
  refine asked_normal (keeps_parts (fun own link base formed => ?_) formed part among) listed
  exact formed.base rfl

end Contribution

namespace SourceModule
variable {source : SourceModule}

/-- The imports of a module stand right above its classes, which an empty line parts from them. -/
theorem imports_placed {configuration : Configuration} {options : CompileOptions}
    {helperDirectory : String} (formed : configuration.WellFormed)
    (made : ofConfiguration configuration options helperDirectory = .ok source)
    (some : source.imports ≠ []) :
    ∃ front, Ended front.toList ∧ source.text =
      front ++ String.join (source.imports.map (· ++ "\n")) ++ "\n" ++
        String.join (source.contribution.classes.map fun definition => tidy definition.text ++ "\n") ++
        source.exporting := by
  obtain ⟨written, className, -, -⟩ := made_from made
  have unbroken : '\n' ∉ source.className.toList :=
    className ▸ isIdentifier_oneLine formed.own.classNamed.identifier
  have standing : ∀ definition ∈ source.contribution.classes, definition.Standing := by
    intro definition listed
    obtain ⟨part, among, writes⟩ := Contribution.part_of_class written listed
    have based := Contribution.keeps_parts (fun own link base formed => formed.base rfl) formed
    exact (writes.standing (based part among)).1
  have normal : ∀ line ∈ source.imports, NormalLine line := by
    intro line listed
    rw [imports, Contribution.imports_eq written, List.mem_eraseDups] at listed
    exact Contribution.requested_normal formed listed
  have helpers : Ended (String.join (source.helperImports.map (· ++ "\n"))).toList := by
    refine Ended.join fun text member => ?_
    obtain ⟨_, _, rfl⟩ := List.mem_map.mp member
    exact ended_feed _
  have said : Ended (source.ahead ++ source.header ++
      String.join (source.helperImports.map (· ++ "\n"))).toList := by
    rw [String.toList_append, String.toList_append]
    exact .append (.append source.ahead_ended source.header_ended) helpers
  obtain ⟨front, ended, ends⟩ := tidy_ends_lines normal said
  have filled : front ++ String.join (source.imports.map (· ++ "\n")) ≠ "" := by
    obtain ⟨first, rest, same⟩ := List.exists_cons_of_ne_nil some
    simp [same]
  have opening : source.opening = front ++ String.join (source.imports.map (· ++ "\n")) ++ "\n" := by
    unfold opening
    rw [List.map_append, String.join_append, ← String.append_assoc, ends]
    exact if_neg filled
  exact ⟨front, ended, by rw [text_eq unbroken rfl standing, opening]⟩

end SourceModule

/-- An import text that a builder has accepted is not blank, and it stays through all later calls. -/
theorem import_text_kept {author : Builder} {text : String}
    (accepted : (author.perform (.setImportText text)).2 = .ok ()) (calls : List Call) :
    isBlankText text = false ∧
      ((author.perform (.setImportText text)).1.performAll calls).configuration.own.importText =
        some text := by
  obtain ⟨performed, -⟩ := Builder.perform_accepted (by simp) accepted
  simp only [Configuration.perform] at performed
  split at performed
  · cases performed
  next filled =>
    obtain ⟨own, stored, entered⟩ := map_eq_ok.mp (Configuration.lifted_ok performed)
    obtain ⟨-, rfl⟩ := Declaration.setImportText_ok stored
    refine ⟨by simpa using filled, ?_⟩
    refine (Builder.keeps_performAll _ calls).importText text ?_
    rw [← entered, Configuration.own_withOwn]

/-- An import text in the module of the builder that has accepted it, or of one whose inline base that builder
has declared. The first lines of every spelling stand right above the classes, those of the text in their
order behind those asked for before. The text comes through exactly if none of its lines but complete
statements has occurred before; then no statement over several lines is broken. -/
theorem import_text_survives_iff {builder : Builder} (declared : builder.Declared)
    (locked : builder.isLocked = true) {options : CompileOptions} {helperDirectory : String}
    {source : SourceModule}
    (made : SourceModule.ofConfiguration builder.configuration options helperDirectory = .ok source)
    {author : Builder} {text : String} (accepted : (author.perform (.setImportText text)).2 = .ok ())
    (calls : List Call)
    (among : ((author.perform (.setImportText text)).1.performAll calls).configuration ∈
      Contribution.parts builder.configuration) :
    let part := ((author.perform (.setImportText text)).1.performAll calls).configuration
    ∃ sooner later base,
      Contribution.parts builder.configuration = sooner ++ part :: later ∧
      Contribution.asked part = base ++ importsOf text ∧
      let before := sooner.flatMap Contribution.asked ++ base
      let kept := ((importsOf text).removeAll before).eraseDups
      before.eraseDups ++ kept <+: source.imports ∧
      (∃ front, Ended front.toList ∧ source.text =
        front ++ String.join (source.imports.map (· ++ "\n")) ++ "\n" ++
          String.join (source.contribution.classes.map fun definition => tidy definition.text ++ "\n") ++
          source.exporting) ∧
      (Survives before (importsOf text) kept ↔
        ∀ line ∈ importsOf text, 1 < (before ++ importsOf text).count line → IsStatement line) ∧
      (Survives before (importsOf text) kept →
        ∀ block, block <:+: importsOf text → (∀ line ∈ block, ¬ IsStatement line) →
          block <:+: source.imports) := by
  intro part
  have formed := declared.sound.wellFormed locked
  obtain ⟨filled, given⟩ := import_text_kept accepted calls
  obtain ⟨base, asked⟩ := Contribution.asked_eq given
  obtain ⟨sooner, later, split⟩ := List.append_of_mem among
  obtain ⟨written, -⟩ := SourceModule.made_from made
  have imports : source.imports = (Contribution.requested builder.configuration).eraseDups :=
    Contribution.imports_eq written
  refine ⟨sooner, later, base, split, asked, ?_⟩
  intro before kept
  have requested : Contribution.requested builder.configuration =
      before ++ importsOf text ++ later.flatMap Contribution.asked :=
    Contribution.requested_split split asked
  have ahead : before.eraseDups ++ kept <+: source.imports := by
    rw [imports, requested]
    exact isPrefix_eraseDups_append before (importsOf text) _
  have some : source.imports ≠ [] := by
    obtain ⟨line, listed⟩ := List.exists_mem_of_ne_nil _ (importsOf_ne_nil filled)
    refine List.ne_nil_of_mem (a := line) ?_
    rw [imports, requested, List.mem_eraseDups]
    simp [listed]
  refine ⟨ahead, SourceModule.imports_placed formed made some, survives_eraseDups_iff, ?_⟩
  intro survives block inside plain
  have held : kept <:+: source.imports := (List.suffix_append _ _).isInfix.trans ahead.isInfix
  exact (survives.isInfix inside plain).trans held

/-- Pairs that import a statement which their base imports too, and one over several lines. -/
theorem import_text_survives_pairs :
    let owners : Builder := Builder.performAll ⟨⟨.map, .start⟩, .empty "CarOwners" (.map .weak)⟩
      [.setImportText "import Car from \"./Car.mjs\";", .addMapKey "car" "A car." true {},
        .addMapKey "owner" "Its owner." false {}, .lock]
    let author : Builder := ⟨⟨.oneToOne, .start⟩, .empty "CarPairs" .oneToOne⟩
    let text := "import Car from \"./Car.mjs\";\nimport \x7b\n  Owner\n\x7d from \"./Owner.mjs\";"
    let pairs := (author.perform (.setImportText text)).1.performAll
      [.configurePairing (.builder owners) "car" none, .lock]
    pairs.Declared ∧ pairs.isLocked = true ∧ (author.perform (.setImportText text)).2 = .ok () ∧
      pairs.configuration ∈ Contribution.parts pairs.configuration ∧
      ∃ source, SourceModule.ofConfiguration pairs.configuration {} "./keys" = .ok source ∧
        source.imports = ["import Car from \"./Car.mjs\";", "import \x7b", "Owner",
          "\x7d from \"./Owner.mjs\";"] ∧
        ∃ before, before ++ importsOf text <+: Contribution.requested pairs.configuration ∧
          Survives before (importsOf text) ((importsOf text).removeAll before).eraseDups := by
  intro owners author text pairs
  have created : Builder.create "CarOwners" .weakMap none =
      .ok ⟨⟨.map, .start⟩, .empty "CarOwners" (.map .weak)⟩ := rfl
  have base : owners.Declared :=
    (Builder.Declared.created created).performAll _ (by simp [Call.base?])
  have begun : Builder.create "CarPairs" .oneToOne none = .ok author := rfl
  have texted : (author.perform (.setImportText text)).1.Declared :=
    (Builder.Declared.created begun).called (by simp [Call.base?])
  have declared : pairs.Declared := texted.performAll _ (by simpa [Call.base?] using base)
  have locked : pairs.isLocked = true := by decide +kernel
  have accepted : (author.perform (.setImportText text)).2 = .ok () := by decide +kernel
  have among := Contribution.self_mem_parts pairs.configuration
  obtain ⟨source, generated, imports⟩ : ∃ source,
      SourceModule.ofConfiguration pairs.configuration {} "./keys" = .ok source ∧
        source.imports = ["import Car from \"./Car.mjs\";", "import \x7b", "Owner",
          "\x7d from \"./Owner.mjs\";"] := by
    rw [exists_eq_ok]
    decide +kernel
  obtain ⟨sooner, later, base, split, asked, -, -, survives, -⟩ :=
    import_text_survives_iff declared locked generated accepted _ among
  have requested := Contribution.requested_split split asked
  have front : sooner.flatMap Contribution.asked ++ base ++ importsOf text <+:
      Contribution.requested pairs.configuration := by
    rw [requested]
    exact List.prefix_append _ _
  have statements : ∀ line ∈ importsOf text,
      1 < (Contribution.requested pairs.configuration).count line → IsStatement line := by
    decide +kernel
  refine ⟨declared, locked, accepted, among, source, generated, imports, _, front, survives.mpr ?_⟩
  intro line listed repeated
  exact statements line listed (repeated.trans_le (front.sublist.count_le line))

/-- The second of two statements over several lines loses the line that both begin with. -/
theorem import_statement_broken :
    let author : Builder := ⟨⟨.map, .start⟩, .empty "CarOwners" (.map .strong)⟩
    let text := "import \x7b\n  Car\n\x7d from \"./Car.mjs\";\n" ++
      "import \x7b\n  Owner\n\x7d from \"./Owner.mjs\";"
    let owners := (author.perform (.setImportText text)).1.performAll
      [.addMapKey "car" "A car." false {}, .lock]
    owners.Declared ∧ owners.isLocked = true ∧ (author.perform (.setImportText text)).2 = .ok () ∧
      ∃ source, SourceModule.ofConfiguration owners.configuration {} "./keys" = .ok source ∧
        source.imports = ["import \x7b", "Car", "\x7d from \"./Car.mjs\";", "Owner",
          "\x7d from \"./Owner.mjs\";"] ∧
        ¬ Survives [] (importsOf text) source.imports := by
  intro author text owners
  have begun : Builder.create "CarOwners" .map none = .ok author := rfl
  have texted : (author.perform (.setImportText text)).1.Declared :=
    (Builder.Declared.created begun).called (by simp [Call.base?])
  have declared : owners.Declared := texted.performAll _ (by simp [Call.base?])
  obtain ⟨source, generated, imports⟩ : ∃ source,
      SourceModule.ofConfiguration owners.configuration {} "./keys" = .ok source ∧
        source.imports = ["import \x7b", "Car", "\x7d from \"./Car.mjs\";", "Owner",
          "\x7d from \"./Owner.mjs\";"] := by
    rw [exists_eq_ok]
    decide +kernel
  refine ⟨declared, by decide +kernel, by decide +kernel, source, generated, imports, ?_⟩
  intro survives
  -- The line is asked for twice and stands there once.
  have same := survives.count_eq "import \x7b" (by decide +kernel)
  have twice : (importsOf text).count "import \x7b" = 2 := by decide +kernel
  rw [twice, imports] at same
  revert same
  decide +kernel

end CompositeKeys.Emission
