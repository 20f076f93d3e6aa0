import CompositeKeys.Emission.SourceModule
import CompositeKeys.Proofs.Refusal
import CompositeKeys.Proofs.Text.Layout

/-! The text that strokes leave. It hangs on nothing but the depth at which they begin, so strokes
can be taken apart where a proof needs it: a class into its head, its fields and its members, and a
module into its classes and what stands around them. -/

namespace CompositeKeys.Emission
open Text

def lineAt (depth : Nat) (text : String) : String :=
  if text = "" then "\n" else indentation depth ++ text ++ "\n"

namespace Stroke

def textAt (depth : Nat) : Stroke → String
  | .line phrase => lineAt depth phrase.text
  | .passage text => String.join ((lines text).map (lineAt depth))
  | .opening head => lineAt depth (head.text ++ " \x7b")
  | .closing last => lineAt (depth - 1) last
  | .page text => text

def depthAfter (depth : Nat) : Stroke → Nat
  | .opening _ => depth + 1
  | .closing _ => depth - 1
  | .line _ | .passage _ | .page _ => depth

end Stroke

def textAt (depth : Nat) : List Stroke → String
  | [] => ""
  | stroke :: rest => stroke.textAt depth ++ textAt (stroke.depthAfter depth) rest

def depthAfter (depth : Nat) (strokes : List Stroke) : Nat :=
  strokes.foldl Stroke.depthAfter depth

section Writing
variable (writer : Writer) (depth : Nat) (first second : List Stroke)

theorem Writer.line_eq (text : String) :
    writer.line text = { writer with written := writer.written ++ lineAt writer.depth text } := by
  unfold line lineAt indent
  split <;> simp [String.append_assoc]

theorem Writer.lines_eq (texts : List String) : texts.foldl Writer.line writer =
    { writer with written := writer.written ++ String.join (texts.map (lineAt writer.depth)) } := by
  induction texts generalizing writer with
  | nil => simp
  | cons text texts ih => simp [ih, line_eq, String.append_assoc]

theorem Writer.write_eq (stroke : Stroke) : writer.write stroke =
    { written := writer.written ++ stroke.textAt writer.depth
      depth := stroke.depthAfter writer.depth } := by
  cases stroke with
  | line phrase => exact line_eq writer phrase.text
  | passage text => exact lines_eq writer (lines text)
  | opening head => simp [write, line_eq, Stroke.textAt, Stroke.depthAfter]
  | closing last => exact line_eq _ last
  | page text => rfl

theorem Writer.writeAll_eq (strokes : List Stroke) : writer.writeAll strokes =
    { written := writer.written ++ textAt writer.depth strokes
      depth := Emission.depthAfter writer.depth strokes } := by
  induction strokes generalizing writer with
  | nil => simp [writeAll, textAt, Emission.depthAfter]
  | cons stroke rest ih =>
    have step : writer.writeAll (stroke :: rest) = (writer.write stroke).writeAll rest := rfl
    rw [step, ih, write_eq]
    simp [textAt, Emission.depthAfter, String.append_assoc]

theorem depthAfter_append :
    depthAfter depth (first ++ second) = depthAfter (depthAfter depth first) second :=
  List.foldl_append

theorem textAt_append :
    textAt depth (first ++ second) = textAt depth first ++ textAt (depthAfter depth first) second := by
  induction first generalizing depth with
  | nil => simp [textAt, depthAfter]
  | cons stroke rest ih => simp [textAt, depthAfter, ih, String.append_assoc]

/-- A passage may be cut between its lines. -/
theorem textAt_passage_append {first : String} (ended : Ended first.toList) (second : String)
    (rest : List Stroke) : textAt depth (.passage (first ++ second) :: rest) =
      textAt depth [.passage first] ++ textAt depth (.passage second :: rest) := by
  have cut : lines (first ++ second) = lines first ++ lines second := by
    simp [lines, linesOf_append ended]
  simp [textAt, Stroke.textAt, Stroke.depthAfter, cut, String.append_assoc]

theorem lineAt_ended (text : String) : Ended (lineAt depth text).toList := by
  unfold lineAt
  split
  · exact .inr ⟨[], rfl⟩
  · exact ended_feed _

/-- Strokes leave whole lines as far as their pages do. -/
theorem textAt_ended {strokes : List Stroke}
    (pages : ∀ text, .page text ∈ strokes → Ended text.toList) :
    Ended (textAt depth strokes).toList := by
  induction strokes generalizing depth with
  | nil => exact .inl rfl
  | cons stroke rest ih =>
    rw [textAt, String.toList_append]
    refine Ended.append ?_ (ih _ fun text member => pages text (List.mem_cons_of_mem _ member))
    cases stroke with
    | line phrase => exact lineAt_ended depth _
    | passage text =>
      refine Ended.join fun line member => ?_
      obtain ⟨_, _, rfl⟩ := List.mem_map.mp member
      exact lineAt_ended depth _
    | opening head => exact lineAt_ended depth _
    | closing last => exact lineAt_ended (depth - 1) _
    | page text => exact pages text List.mem_cons_self

end Writing

theorem Documentation.block_ended {documentation : Documentation} {name indent text : String}
    (made : documentation.block name indent = .ok text) : Ended text.toList := by
  obtain ⟨entry, _, made⟩ := bind_eq_ok.mp made
  obtain rfl := pure_eq_ok.mp made
  refine Ended.join fun line member => ?_
  obtain ⟨_, _, rfl⟩ := List.mem_map.mp member
  exact ended_feed _

/-- What is written for a field. -/
def Variable.declaration (field : Variable) : String :=
  field.name ++ " = " ++ field.initial.phrase.text ++ ";"

theorem Variable.textAt_strokes (fields : List Variable) (depth : Nat) :
    textAt depth (fields.map Variable.stroke) =
      String.join (fields.map fun field => indentation depth ++ field.declaration ++ "\n") := by
  have phrase : ∀ field : Variable,
      (field.initial.phrase.between (field.name ++ " = ") ";").text = field.declaration := by
    intro field
    simp [Phrase.between, Phrase.text, Fragment.text, declaration, String.append_assoc]
  have filled : ∀ field : Variable, field.declaration ≠ "" := by
    intro field
    simp [declaration]
  induction fields with
  | nil => rfl
  | cons field fields ih =>
    simp [textAt, stroke, Stroke.textAt, Stroke.depthAfter, phrase, lineAt, filled, ih]

/-- The block of documentation of a member, as far as it has one. -/
def Documentation.pages (documentation : Documentation) (member : Member) : List Stroke :=
  (member.documentedAs.map fun name =>
    Stroke.page ((documentation.block name (indentation 1)).toOption.getD "")).toList

def Documentation.strokesOf (documentation : Documentation) (members : List Member) :
    List Stroke :=
  members.flatMap fun member => member.strokes (documentation.pages member)

namespace ClassDefinition

/-- The strokes ahead of the members of a class. -/
def front (definition : ClassDefinition) : List Stroke :=
  .opening ["class ", .names [definition.outline.name]] ::
    definition.outline.fields.map Variable.stroke

/-- A class whose text is that of its outline and its documentation. -/
structure Written (definition : ClassDefinition) : Prop where
  block : ∀ member ∈ definition.outline.members, ∀ name ∈ member.documentedAs,
    ∃ text, definition.documentation.block name (indentation 1) = .ok text
  text : definition.text = textAt 0 (definition.front ++
    definition.documentation.strokesOf definition.outline.members ++
    .close :: freezing definition.outline.name)

/-- A class begins with its head and a line for each of its fields. -/
theorem Written.text_fields {definition : ClassDefinition} (written : definition.Written) :
    ∃ rest, definition.text = "class " ++ definition.outline.name ++ " \x7b\n" ++
      String.join (definition.outline.fields.map fun field => "  " ++ field.declaration ++ "\n") ++
        rest := by
  have head : lineAt 0 (Phrase.text ["class ", .names [definition.outline.name]] ++ " \x7b") =
      "class " ++ definition.outline.name ++ " \x7b\n" := by
    simp [lineAt, Phrase.text, Fragment.text, nameList, indentation, String.append_assoc]
  have fields := Variable.textAt_strokes definition.outline.fields 1
  rw [show indentation 1 = "  " by decide +kernel] at fields
  rw [written.text, front, List.append_assoc, List.cons_append, textAt, textAt_append]
  exact ⟨_, by rw [← head, ← fields, String.append_assoc]; rfl⟩

theorem written_of_strokes {outline : ClassOutline} {documentation : Documentation}
    {strokes : List Stroke}
    (drawn : outline.strokes (fun name => documentation.block name (indentation 1)) = .ok strokes) :
    Written { outline, documentation, text := (Writer.writeAll {} strokes).written } := by
  obtain ⟨members, placed, drawn⟩ := bind_eq_ok.mp drawn
  obtain rfl := pure_eq_ok.mp drawn
  have each : List.Forall₂ (fun member strokes =>
      (∀ name ∈ member.documentedAs,
        ∃ text, documentation.block name (indentation 1) = .ok text) ∧
      member.strokes (documentation.pages member) = strokes) outline.members members := by
    refine (mapM_eq_ok placed).imp fun member strokes made => ?_
    obtain ⟨page, blocked, made⟩ := bind_eq_ok.mp made
    obtain rfl := pure_eq_ok.mp made
    cases documented : member.documentedAs with
    | none =>
      rw [documented] at blocked
      obtain rfl := pure_eq_ok.mp blocked
      exact ⟨nofun, by simp [Documentation.pages, documented]⟩
    | some name =>
      rw [documented] at blocked
      cases block : documentation.block name (indentation 1) with
      | error fault => simp [block, Functor.map, Except.map] at blocked
      | ok text =>
        obtain rfl : some text = page := by simpa [block, Functor.map, Except.map] using blocked
        refine ⟨fun other same => ?_, ?_⟩
        · cases same
          exact ⟨text, block⟩
        · simp [Documentation.pages, documented, block, Except.toOption]
  rw [List.forall₂_and_left] at each
  obtain ⟨blocks, same⟩ := each
  refine ⟨blocks, ?_⟩
  rw [← List.forall₂_map_left_iff, List.forall₂_eq_eq_eq] at same
  simp [Writer.writeAll_eq, ← same, Documentation.strokesOf, List.flatMap_def, front]

theorem ofConfiguration_ok {configuration : Configuration} {bindings : Bindings}
    {template : Template} {checkedTypes : Bool} {definition : ClassDefinition}
    (made : ofConfiguration configuration bindings template checkedTypes = .ok definition) :
    template.outline bindings = .ok definition.outline ∧ definition.Written ∧
      ∃ documentation listed,
        Documentation.ofConfiguration configuration bindings checkedTypes = .ok documentation ∧
        (if template.yieldsKeys then documentation.add "values" Entry.keySets
          else pure documentation) = .ok listed ∧
        definition.documentation = listed.filled := by
  obtain ⟨documentation, documented, made⟩ := bind_eq_ok.mp made
  obtain ⟨outline, outlined, made⟩ := bind_eq_ok.mp made
  extract_lets next at made
  obtain ⟨listed, added, made⟩ : ∃ listed, (if template.yieldsKeys then
      documentation.add "values" Entry.keySets else pure documentation) = .ok listed ∧
      next listed = .ok definition := by
    split at made
    next keyed => simpa [keyed] using bind_eq_ok.mp made
    next valued => simpa [valued] using bind_eq_ok.mp made
  obtain ⟨strokes, drawn, made⟩ := bind_eq_ok.mp made
  obtain rfl := pure_eq_ok.mp made
  exact ⟨outlined, written_of_strokes drawn, documentation, listed, documented, added, rfl⟩

end ClassDefinition

namespace Contribution

variable {options : CompileOptions} {contribution : Contribution}

theorem extend_ok {configuration : Configuration} {bindings : Bindings} {imports : List String}
    {helpers : HelperUse} {bases : List ClassDefinition}
    (made : extend options configuration bindings imports helpers bases = .ok contribution) :
    ∃ definition, ClassDefinition.ofConfiguration configuration bindings
        (Variant.select configuration.own options.disableSpecialization).template
        options.checkedTypes = .ok definition ∧
      contribution.classes = bases ++ [definition] ∧
      contribution.imports = (imports ++ (bindings.importText.map importsOf).getD []).eraseDups := by
  obtain ⟨definition, written, made⟩ := bind_eq_ok.mp made
  obtain rfl := pure_eq_ok.mp made
  exact ⟨definition, written, rfl, rfl⟩

/-- The class of a configuration without a base stands alone. -/
theorem plain_ok {own : Declaration} (made : ofConfiguration options (.plain own) = .ok contribution) :
    ∃ bindings definition, Bindings.ofConfiguration (.plain own) = .ok bindings ∧
      ClassDefinition.ofConfiguration (.plain own) bindings
        (Variant.select own options.disableSpecialization).template options.checkedTypes =
          .ok definition ∧
      contribution.classes = [definition] ∧
      contribution.imports = ((bindings.importText.map importsOf).getD []).eraseDups := by
  obtain ⟨bindings, bound, made⟩ := bind_eq_ok.mp made
  obtain ⟨definition, written, classes, imports⟩ := extend_ok made
  exact ⟨bindings, definition, bound, written, classes, imports⟩

/-- The configurations whose classes are written: the bases that are written inline, innermost
first, and the configuration itself. -/
def parts : Configuration → List Configuration
  | .plain own => [.plain own]
  | .paired own link base =>
    match (PairingBindings.ofLink link base).baseSource with
    | .builtin | .imported _ => [.paired own link base]
    | .inline => parts base ++ [.paired own link base]

/-- What goes from a configuration to its base goes to all whose classes are written. -/
theorem keeps_parts {keeps : Configuration → Prop}
    (based : ∀ own link base, keeps (.paired own link base) → keeps base)
    {configuration : Configuration} (kept : keeps configuration) :
    ∀ part ∈ parts configuration, keeps part := by
  induction configuration with
  | plain own => exact List.forall_mem_singleton.mpr kept
  | paired own link base ih =>
    unfold parts
    split
    · exact List.forall_mem_singleton.mpr kept
    · exact List.forall_mem_singleton.mpr kept
    · exact List.forall_mem_append.mpr
        ⟨ih (based own link base kept), List.forall_mem_singleton.mpr kept⟩

/-- A class that is written from a configuration with the template chosen for it. -/
def Writes (options : CompileOptions) (part : Configuration) (definition : ClassDefinition) :
    Prop :=
  ∃ bindings, Bindings.ofConfiguration part = .ok bindings ∧
    ClassDefinition.ofConfiguration part bindings
      (Variant.select part.own options.disableSpecialization).template options.checkedTypes =
        .ok definition

theorem parts_classes {configuration : Configuration}
    (made : ofConfiguration options configuration = .ok contribution) :
    List.Forall₂ (Writes options) (parts configuration) contribution.classes := by
  have single : ∀ {configuration : Configuration} {bindings imports helpers contribution},
      Bindings.ofConfiguration configuration = .ok bindings →
      extend options configuration bindings imports helpers [] = .ok contribution →
      List.Forall₂ (Writes options) [configuration] contribution.classes := by
    intro configuration bindings imports helpers contribution bound made
    obtain ⟨definition, written, classes, -⟩ := extend_ok made
    rw [classes]
    exact .cons ⟨bindings, bound, written⟩ .nil
  induction configuration generalizing contribution with
  | plain own =>
    obtain ⟨bindings, bound, made⟩ := bind_eq_ok.mp made
    exact single bound made
  | paired own link base ih =>
    obtain ⟨bindings, bound, made⟩ := bind_eq_ok.mp made
    unfold parts
    dsimp only at made
    cases found : (PairingBindings.ofLink link base).baseSource with
    | builtin =>
      rw [found] at made
      exact single bound made
    | imported path =>
      rw [found] at made
      exact single bound made
    | inline =>
      rw [found] at made
      obtain ⟨inner, written, made⟩ := bind_eq_ok.mp made
      obtain ⟨definition, defined, classes, -⟩ := extend_ok made
      rw [classes]
      exact List.rel_append (ih written) (.cons ⟨bindings, bound, defined⟩ .nil)

theorem part_of_class {configuration : Configuration} {definition : ClassDefinition}
    (made : ofConfiguration options configuration = .ok contribution)
    (among : definition ∈ contribution.classes) :
    ∃ part ∈ parts configuration, Writes options part definition := by
  have each := parts_classes made
  generalize parts configuration = configurations at each ⊢
  generalize contribution.classes = definitions at each among
  induction each with
  | nil => cases among
  | cons first _ ih =>
    rcases List.mem_cons.mp among with rfl | later
    · exact ⟨_, List.mem_cons_self, first⟩
    · obtain ⟨part, member, written⟩ := ih later
      exact ⟨part, List.mem_cons_of_mem _ member, written⟩

end Contribution

namespace SourceModule
variable {source : SourceModule}

theorem ofConfiguration_ok {configuration : Configuration} {options : CompileOptions}
    {helperDirectory : String}
    (made : ofConfiguration configuration options helperDirectory = .ok source) :
    ∃ contribution, Contribution.ofConfiguration options configuration = .ok contribution ∧
      source = { className := configuration.className, overview := configuration.own.overview,
                 options, helperDirectory, contribution } := by
  obtain ⟨_, _, made⟩ := bind_eq_ok.mp made
  obtain ⟨contribution, written, made⟩ := bind_eq_ok.mp made
  exact ⟨contribution, written, (pure_eq_ok.mp made).symm⟩

theorem header_ended (source : SourceModule) : Ended source.header.toList := by
  unfold header
  split
  · exact .inl rfl
  · exact ended_of_last (by simp [List.getLast?_append, List.getLast?_cons])

/-- What a module says ahead of its header. -/
def ahead (source : SourceModule) : String :=
  (if source.options.checkedTypes then "// @ts-check\n\n" else "") ++ licenseComment source.options

theorem ahead_ended (source : SourceModule) : Ended source.ahead.toList := by
  unfold ahead licenseComment
  rw [String.toList_append]
  refine Ended.append ?_ ?_
  · split
    · exact ended_of_last (by simp [List.getLast?_cons])
    · exact .inl rfl
  · split
    · exact .inl rfl
    · exact ended_of_last (by simp [List.getLast?_append, List.getLast?_cons])

theorem text_around_header (source : SourceModule) :
    ∃ after, source.text = tidy (source.ahead ++ source.header ++ after) := by
  refine ⟨String.join ((source.helperImports ++ source.imports).map (· ++ "\n")) ++ "\n" ++
    String.join (source.contribution.classes.map fun definition => definition.text ++ "\n") ++
    "export default " ++ source.className ++ ";\n", ?_⟩
  simp only [text, String.append_assoc, ahead]

/-- Every class of a module has its lines to itself. -/
theorem text_around_class {definition : ClassDefinition}
    (member : definition ∈ source.contribution.classes) :
    ∃ before after, Ended before.toList ∧
      source.text = tidy (before ++ definition.text ++ after) := by
  obtain ⟨sooner, later, same⟩ := List.append_of_mem member
  refine ⟨source.ahead ++ source.header ++
    String.join ((source.helperImports ++ source.imports).map (· ++ "\n")) ++ "\n" ++
    String.join (sooner.map fun definition => definition.text ++ "\n"),
    "\n" ++ String.join (later.map fun definition => definition.text ++ "\n") ++
    "export default " ++ source.className ++ ";\n", ?_, ?_⟩
  · have lines : ∀ texts : List String, Ended (String.join (texts.map (· ++ "\n"))).toList := by
      intro texts
      refine Ended.join fun text member => ?_
      obtain ⟨_, _, rfl⟩ := List.mem_map.mp member
      exact ended_feed _
    simp only [String.toList_append]
    refine Ended.append (.append ?_ (ended_feed "")) ?_
    · exact .append (.append source.ahead_ended source.header_ended) (lines _)
    · simpa [List.map_map, Function.comp_def] using lines (sooner.map ClassDefinition.text)
  · simp only [text, same, ahead, List.map_append, List.map_cons, String.join_append,
      String.join_cons, String.append_assoc]

/-- A part of a class that has its lines to itself stands in the module in normal form. -/
theorem part_isInfix {definition : ClassDefinition}
    (member : definition ∈ source.contribution.classes) {front part : String}
    (apart : Ended front.toList) (ended : Ended part.toList)
    (text : ∃ rest, definition.text = front ++ part ++ rest) :
    (tidy part).toList <:+: source.text.toList := by
  obtain ⟨rest, text⟩ := text
  obtain ⟨before, after, ahead, whole⟩ := text_around_class member
  have split : before ++ definition.text ++ after = before ++ front ++ part ++ (rest ++ after) := by
    simp only [text, String.append_assoc]
  rw [whole, split]
  exact tidy_isInfix (by rw [String.toList_append]; exact ahead.append apart) ended

end SourceModule

end CompositeKeys.Emission
