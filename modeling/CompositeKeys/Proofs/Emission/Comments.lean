import CompositeKeys.Proofs.Emission.Blocks
import CompositeKeys.Proofs.Emission.Placement

/-! The comments of a module: its header and the blocks of its members. Whatever has been declared,
each of them ends once, in its last line, as long as no text that is quoted ends a comment. Nothing
looks for such an end, neither where texts are declared nor where they are written. -/

namespace CompositeKeys
open Text Emission

/-- A dimension whose texts end no comment. -/
@[mk_iff]
structure Dimension.IsClear (dimension : Dimension) : Prop where
  description : Clear dimension.description.toList
  documentType : Clear dimension.documentType.toList
  checkedType : Clear dimension.checkedType.toList

instance (dimension : Dimension) : Decidable dimension.IsClear :=
  decidable_of_iff _ (Dimension.isClear_iff dimension).symm

/-- A declaration whose texts end no comment. -/
@[mk_iff]
structure Declaration.IsClear (own : Declaration) : Prop where
  overview : ∀ text ∈ own.overview, Clear text.toList
  dimensions : ∀ dimension ∈ own.dimensions, dimension.IsClear
  value : ∀ value ∈ own.value, value.IsClear

instance (own : Declaration) : Decidable own.IsClear :=
  decidable_of_iff _ (Declaration.isClear_iff own).symm

/-- A configuration whose own texts and whose base's end no comment. -/
def Configuration.IsClear : Configuration → Prop
  | .plain own => own.IsClear
  | .paired own _ base => own.IsClear ∧ base.IsClear

instance Configuration.decidableIsClear : ∀ configuration : Configuration,
    Decidable configuration.IsClear
  | .plain own => inferInstanceAs (Decidable own.IsClear)
  | .paired own _ base =>
    have := decidableIsClear base
    inferInstanceAs (Decidable (own.IsClear ∧ base.IsClear))

theorem Dimension.IsClear.listable {dimension : Dimension} (clear : dimension.IsClear)
    (named : Clear dimension.name.toList) (checked : dimension.Checked) : dimension.Listable :=
  ⟨named, ⟨unmarked_of_legal checked.documentType, clear.documentType⟩,
    ⟨unmarked_of_legal checked.checkedType, clear.checkedType⟩,
    ⟨unmarked_of_legal checked.description, clear.description⟩⟩

namespace Declaration
variable {own : Declaration} (clear : own.IsClear) (consistent : own.Consistent)
include clear consistent

theorem IsClear.dimensions_listable : ∀ dimension ∈ own.dimensions, dimension.Listable :=
  fun dimension member => (clear.dimensions dimension member).listable
    (clear_of_legalName (consistent.named dimension member)) (consistent.checked dimension member)

theorem IsClear.value_listable : ∀ value ∈ own.value, value.Listable := by
  intro value member
  obtain ⟨name, -, checked⟩ := consistent.valueChecked value member
  refine (clear.value value member).listable ?_ checked
  rw [name]
  decide

end Declaration

theorem Configuration.IsClear.own {configuration : Configuration} (clear : configuration.IsClear) :
    configuration.own.IsClear := by
  cases configuration with
  | plain own => exact clear
  | paired own link base => exact clear.1

end CompositeKeys

namespace CompositeKeys.Emission
open Text

/-- Options whose tags end no comment. -/
@[mk_iff]
structure CompileOptions.IsClear (options : CompileOptions) : Prop where
  license : Clear options.license.toList
  author : Clear options.author.toList
  copyright : Clear options.copyright.toList

instance (options : CompileOptions) : Decidable options.IsClear :=
  decidable_of_iff _ (CompileOptions.isClear_iff options).symm

theorem Documentation.ofConfiguration_worded {configuration : Configuration} {bindings : Bindings}
    {checkedTypes : Bool} {documentation : Documentation} (formed : configuration.WellFormed)
    (clear : configuration.IsClear)
    (made : ofConfiguration configuration bindings checkedTypes = .ok documentation) :
    documentation.IsWorded := by
  obtain ⟨start, begun, made⟩ := bind_eq_ok.mp made
  have worded := ofFlavor_worded begun
  cases configuration with
  | plain own =>
    obtain rfl := pure_eq_ok.mp made
    have consistent := formed.own.toConsistent
    refine worded.addDimensions (List.forall_mem_append.mpr ⟨clear.dimensions_listable consistent,
      fun value member => clear.value_listable consistent value (Option.mem_toList.mp member)⟩)
  | paired own link base =>
    dsimp only [Configuration.pairing?] at made
    split at made
    · exact pure_eq_ok.mp made ▸ worded
    · obtain ⟨bound, added, made⟩ := bind_eq_ok.mp made
      obtain rfl := pure_eq_ok.mp made
      have sources : ∀ source ∈ link.sources base, source.Listable := fun source member =>
        clear.2.own.dimensions_listable (formed.base rfl).own.toConsistent source
          (List.mem_of_mem_filter member)
      exact (worded.add (Entry.binding_worded sources checkedTypes) added).addDimensions sources

namespace ClassDefinition

/-- The name of a class as its documentation says it. -/
def documentedName (definition : ClassDefinition) : String :=
  definition.documentation.placeholders.fill "__className__"

theorem ofConfiguration_clear {configuration : Configuration} {bindings : Bindings}
    {template : Template} {checkedTypes : Bool} {definition : ClassDefinition}
    (formed : configuration.WellFormed) (clear : configuration.IsClear)
    (made : ofConfiguration configuration bindings template checkedTypes = .ok definition)
    (named : Clear definition.documentedName.toList) : definition.documentation.IsClear := by
  obtain ⟨-, -, documentation, listed, documented, added, same⟩ := ofConfiguration_ok made
  have worded := Documentation.ofConfiguration_worded formed clear documented
  have listedWorded : listed.IsWorded := by
    split at added
    · exact worded.add Entry.keySets_worded added
    · exact pure_eq_ok.mp added ▸ worded
  unfold documentedName at named
  rw [same] at named ⊢
  exact listedWorded.filled named

end ClassDefinition

/-- Every class of a module is written from its configuration or from one of the bases, so it has
what goes from a configuration to its base. -/
theorem Contribution.classes_ofConfiguration {keeps : Configuration → Prop}
    (based : ∀ own link base, keeps (.paired own link base) → keeps base)
    {options : CompileOptions} {configuration : Configuration} {contribution : Contribution}
    (kept : keeps configuration)
    (made : ofConfiguration options configuration = .ok contribution) :
    ∀ definition ∈ contribution.classes, ∃ part bindings template, keeps part ∧
      ClassDefinition.ofConfiguration part bindings template options.checkedTypes =
        .ok definition := by
  intro definition among
  obtain ⟨part, member, bindings, -, written⟩ := part_of_class made among
  exact ⟨part, bindings, _, keeps_parts based kept part member, written⟩

namespace SourceModule
variable {source : SourceModule}

/-- A comment that ends once, and still does in normal form, in which the module holds it. -/
structure Quotes (source : SourceModule) (comment : String) : Prop where
  closes : ClosesOnce comment.toList
  closesTidy : ClosesOnce (tidy comment).toList
  inside : (tidy comment).toList <:+: source.text.toList

section Header
variable (overview : ∀ text ∈ source.overview, Clear text.toList) (clear : source.options.IsClear)
include overview clear

theorem headerLines_clear : ∀ line ∈ source.headerLines, Clear line.toList := by
  have tagged : ∀ {name text : String}, Clear ("@" ++ name).toList → Clear text.toList →
      ∀ line ∈ tag name text, Clear line.toList := by
    intro name text named said
    unfold tag
    split
    · exact nofun
    · exact List.forall_mem_singleton.mpr (named.spaced said)
  unfold headerLines
  simp only [List.forall_mem_append, and_assoc]
  refine ⟨?_, tagged (by decide +kernel) clear.license, tagged (by decide +kernel) clear.author,
    tagged (by decide +kernel) clear.copyright⟩
  cases viewed : source.overview with
  | none => exact nofun
  | some text =>
    exact List.forall_mem_cons.mpr
      ⟨by decide +kernel, fun line member => clear_lines (overview text viewed) member⟩

/-- A header ends in its last line, under which a line is left empty. -/
theorem header_parts (lined : source.headerLines ≠ []) :
    ∃ body, Ended body.toList ∧ Clear body.toList ∧
      source.header = body ++ " " ++ "*/\n" ++ "\n" := by
  refine ⟨"/**\n" ++ String.join ((source.headerLines.map (" * " ++ ·)).map (· ++ "\n")),
    ?_, ?_, ?_⟩
  · rw [String.toList_append]
    refine Ended.append (ended_of_last (by decide +kernel)) (Ended.join fun line member => ?_)
    obtain ⟨_, _, rfl⟩ := List.mem_map.mp member
    exact ended_feed _
  · have lines :=
      clear_join_lines (Documentation.marginals_clear (headerLines_clear overview clear))
    have parts : ∀ text : String,
        ("/**\n" ++ text).toList = "/**".toList ++ '\n' :: text.toList := by
      simp
    rw [parts]
    exact Clear.cut (by decide) lines (by decide)
  · simp [header, lined, String.append_assoc, Function.comp_def]

theorem header_quoted (lined : source.headerLines ≠ []) : source.Quotes source.header := by
  obtain ⟨body, ended, bodyClear, whole⟩ := header_parts overview clear lined
  have blank : ∀ letter ∈ " ".toList, letter = ' ' := by simp
  have commentEnded : Ended (body ++ " " ++ "*/\n").toList :=
    ended_of_last (by simp [List.getLast?_append])
  have same : tidy source.header = tidy (body ++ " " ++ "*/\n") := by
    rw [whole]
    exact tidy_append_feed commentEnded
  constructor
  · have closes : ClosesOnce (body.toList ++ " ".toList ++ (terminator ++ ['\n', '\n'])) :=
      closesOnce_of_clear (clear_margin bodyClear blank) (by simp)
    simpa [whole, terminator] using closes
  · rw [same]
    exact tidy_comment_closesOnce ended bodyClear blank
  · obtain ⟨after, text⟩ := source.text_around_header
    have split : source.ahead ++ source.header ++ after =
        source.ahead ++ (body ++ " " ++ "*/\n") ++ ("\n" ++ after) := by
      simp only [whole, String.append_assoc]
    rw [text, split, same]
    exact tidy_isInfix source.ahead_ended commentEnded

end Header

theorem block_quoted {definition : ClassDefinition}
    (among : definition ∈ source.contribution.classes) (written : definition.Written)
    (settled : ∀ member ∈ definition.outline.members, Settled member.body)
    (clear : definition.documentation.IsClear) {member : Member}
    (listed : member ∈ definition.outline.members) {name : String}
    (documented : name ∈ member.documentedAs) :
    ∃ block, definition.documentation.block name (indentation 1) = .ok block ∧
      source.Quotes block := by
  obtain ⟨block, before, after, made, apart, text⟩ :=
    written.text_around_block settled listed documented
  obtain ⟨body, ended, bodyClear, same⟩ := clear.block made
  have blank : ∀ letter ∈ (indentation 1 ++ " ").toList, letter = ' ' := by
    simp [indentation]
  have closes : ClosesOnce block.toList := by
    rw [same]
    exact comment_closesOnce bodyClear blank
  have closesTidy : ClosesOnce (tidy block).toList := by
    rw [same]
    exact tidy_comment_closesOnce ended bodyClear blank
  exact ⟨block, made, closes, closesTidy, part_isInfix among apart (Documentation.block_ended made)
    ⟨_, text.trans String.append_assoc⟩⟩

end SourceModule

/-- Every comment of a module that is generated from a locked declaration ends once, as long as the
texts that it quotes end no comment and no name of a class comes to do so once placeholders in it
have been filled in. -/
theorem comments_close_once {builder : Builder} (declared : builder.Declared)
    (locked : builder.isLocked = true) (clear : builder.configuration.IsClear)
    {options : CompileOptions} (optionsClear : options.IsClear) (helperDirectory : String)
    {source : SourceModule}
    (made : SourceModule.ofConfiguration builder.configuration options helperDirectory = .ok source)
    (named : ∀ definition ∈ source.contribution.classes, Clear definition.documentedName.toList) :
    (source.headerLines ≠ [] → source.Quotes source.header) ∧
    ∀ definition ∈ source.contribution.classes, ∀ member ∈ definition.outline.members,
      ∀ name ∈ member.documentedAs,
        ∃ block, definition.documentation.block name (indentation 1) = .ok block ∧
          source.Quotes block := by
  have formed := declared.sound.wellFormed locked
  obtain ⟨contribution, written, rfl⟩ := SourceModule.ofConfiguration_ok made
  refine ⟨SourceModule.header_quoted clear.own.overview optionsClear, ?_⟩
  intro definition among member listed name documented
  let keeps (part : Configuration) : Prop := part.WellFormed ∧ part.IsClear
  have based : ∀ own link base, keeps (.paired own link base) → keeps base :=
    fun own link base kept => ⟨kept.1.base rfl, kept.2.2⟩
  obtain ⟨part, bindings, template, ⟨partFormed, partClear⟩, defined⟩ :=
    Contribution.classes_ofConfiguration based ⟨formed, clear⟩ written definition among
  obtain ⟨outlined, definitionWritten, -⟩ := ClassDefinition.ofConfiguration_ok defined
  exact SourceModule.block_quoted among definitionWritten (Template.outline_settled outlined)
    (ClassDefinition.ofConfiguration_clear partFormed partClear defined (named definition among))
    listed documented

theorem comments_close_once_pairs :
    let owners : Builder := Builder.performAll ⟨⟨.map, .start⟩, .empty "CarOwners" (.map .weak)⟩
      [.addMapKey "car" "A car." true {}, .addMapKey "owner" "Its owner." false {}, .lock]
    let pairs : Builder := Builder.performAll ⟨⟨.oneToOne, .start⟩, .empty "CarPairs" .oneToOne⟩
      [.setOverview "Cars * owners.", .configurePairing (.builder owners) "car" none, .lock]
    let options : CompileOptions := { license := "MIT" }
    pairs.isLocked = true ∧ ∃ source,
      SourceModule.ofConfiguration pairs.configuration options "./keys" = .ok source ∧
      source.Quotes source.header ∧ source.contribution.classes.length = 2 ∧
      ∀ definition ∈ source.contribution.classes, ∀ member ∈ definition.outline.members,
        ∀ name ∈ member.documentedAs,
          ∃ block, definition.documentation.block name (indentation 1) = .ok block ∧
            source.Quotes block := by
  intro owners pairs options
  have created : Builder.create "CarOwners" .weakMap none =
      .ok ⟨⟨.map, .start⟩, .empty "CarOwners" (.map .weak)⟩ := rfl
  have base : owners.Declared :=
    (Builder.Declared.created created).performAll _ (by simp [Call.base?])
  have begun : Builder.create "CarPairs" .oneToOne none =
      .ok ⟨⟨.oneToOne, .start⟩, .empty "CarPairs" .oneToOne⟩ := rfl
  have declared : pairs.Declared :=
    (Builder.Declared.created begun).performAll _ (by simpa [Call.base?] using base)
  have locked : pairs.isLocked = true := by decide +kernel
  obtain ⟨source, made, lined, both, named⟩ : ∃ source ∈
      (SourceModule.ofConfiguration pairs.configuration options "./keys").toOption,
        source.headerLines ≠ [] ∧ source.contribution.classes.length = 2 ∧
        ∀ definition ∈ source.contribution.classes, Clear definition.documentedName.toList := by
    decide +kernel
  have generated := toOption_eq_some.mp made
  obtain ⟨header, blocks⟩ := comments_close_once declared locked (by decide +kernel)
    (by decide +kernel) "./keys" generated named
  exact ⟨locked, source, generated, header lined, both, blocks⟩

/-- An overview is quoted as it stands, and the name of a class brings in what its placeholders stand
for, so either of them can end a comment early. -/
theorem comments_end_early :
    let cars : Builder := Builder.performAll ⟨⟨.map, .start⟩, .empty "Cars" (.map .strong)⟩
      [.setOverview "*/", .addMapKey "car" "A car." false {}, .lock]
    let counts : Builder := Builder.performAll
      ⟨⟨.map, .start⟩, .empty "Of__valueType____valueDesc__" (.map .strong)⟩
      [.addMapKey "car" "A car." false {}, .setValue "/" {}, .lock]
    (cars.isLocked = true ∧ ∃ source,
      SourceModule.ofConfiguration cars.configuration {} "./keys" = .ok source ∧
      source.headerLines ≠ [] ∧ ¬ ClosesOnce source.header.toList) ∧
    counts.isLocked = true ∧ counts.configuration.IsClear ∧ ∃ source,
      SourceModule.ofConfiguration counts.configuration {} "./keys" = .ok source ∧
      ∃ definition ∈ source.contribution.classes, ∃ member ∈ definition.outline.members,
        member.documentedAs = some "constructor" ∧ ∃ block,
          definition.documentation.block "constructor" (indentation 1) = .ok block ∧
            ¬ ClosesOnce block.toList := by
  intro cars counts
  obtain ⟨source, made, lined, early⟩ :
      ∃ source ∈ (SourceModule.ofConfiguration cars.configuration {} "./keys").toOption,
        source.headerLines ≠ [] ∧ EndsEarly source.header.toList := by
    decide +kernel
  refine ⟨⟨by decide +kernel, source, toOption_eq_some.mp made, lined, early.not_closesOnce⟩,
    by decide +kernel, by decide +kernel, ?_⟩
  obtain ⟨source, made, definition, among, member, listed, documented, block, blocked, early⟩ :
      ∃ source ∈ (SourceModule.ofConfiguration counts.configuration {} "./keys").toOption,
        ∃ definition ∈ source.contribution.classes, ∃ member ∈ definition.outline.members,
          member.documentedAs = some "constructor" ∧
          ∃ block ∈ (definition.documentation.block "constructor" (indentation 1)).toOption,
            EndsEarly block.toList := by
    decide +kernel
  exact ⟨source, toOption_eq_some.mp made, definition, among, member, listed, documented, block,
    toOption_eq_some.mp blocked, early.not_closesOnce⟩

end CompositeKeys.Emission
