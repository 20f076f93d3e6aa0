import CompositeKeys.Proofs.Emission.Confinement
import CompositeKeys.Proofs.Emission.KeyLibrary
import CompositeKeys.Proofs.Emission.ModuleNames
import CompositeKeys.Proofs.Emission.Placement

/-! A base that is written inline. Its class stands in the module of the paired collection letter by letter
as in the module of the base alone, since the normal form of a module is that of its classes side by side;
all that a module says around them it says once. -/

namespace CompositeKeys.Emission
open Text

section Export

/-- Whether a word stands in the text that a stroke takes from its template. -/
def Phrase.Speaks (word : List Char) (phrase : Phrase) : Prop :=
  ∃ fragment ∈ phrase, ∃ letters ∈ fragment.own?, word <:+: letters

def Stroke.Speaks (word : List Char) : Stroke → Prop
  | .line phrase | .opening phrase => phrase.Speaks word
  | .closing last => Phrase.Speaks word [.own last]
  | .passage _ | .page _ => False

/-- What a module is told by around its classes, spelled out for the reading of every line: the words of
its imports and its export, and the mark of the tags in its header. -/
def moduleWords : List (List Char) :=
  [['i', 'm', 'p', 'o', 'r', 't'], ['e', 'x', 'p', 'o', 'r', 't'], ['@']]

/-- Whether a text holds none of the words. -/
def unsaid (text : String) : Bool := moduleWords.all fun word => !occursIn word text.toList

def Phrase.Silent (phrase : Phrase) : Prop := ∀ word ∈ moduleWords, ¬ phrase.Speaks word

def Stroke.Silent (stroke : Stroke) : Prop := ∀ word ∈ moduleWords, ¬ stroke.Speaks word

variable {phrase rest : Phrase} {text : String} {names : List String}

theorem unsaid_iff : unsaid text = true ↔ ∀ word ∈ moduleWords, ¬ word <:+: text.toList := by
  simp [unsaid, Bool.eq_false_iff, occursIn_iff]

theorem unsaid_ofList (letters : List Char) :
    unsaid (.ofList letters) = moduleWords.all fun word => !occursIn word letters := by
  rw [unsaid, String.toList_ofList]

theorem silent_nil : Phrase.Silent [] ↔ True :=
  iff_true_intro fun _ _ spoken => by simp [Phrase.Speaks] at spoken

theorem silent_own : Phrase.Silent (.own text :: rest) ↔ unsaid text = true ∧ rest.Silent := by
  rw [unsaid_iff, Phrase.Silent, Phrase.Silent, ← forall₂_and]
  refine forall₂_congr fun word _ => ?_
  rw [← not_or]
  simp [Phrase.Speaks, Fragment.own?]

theorem silent_names : Phrase.Silent (.names names :: rest) ↔ rest.Silent := by
  simp [Phrase.Silent, Phrase.Speaks, Fragment.own?]

theorem silent_literals : Phrase.Silent (.literals names :: rest) ↔ rest.Silent := by
  simp [Phrase.Silent, Phrase.Speaks, Fragment.own?]

theorem silent_line : (Stroke.line phrase).Silent ↔ phrase.Silent := Iff.rfl

theorem silent_opening : (Stroke.opening phrase).Silent ↔ phrase.Silent := Iff.rfl

theorem silent_close : Stroke.close.Silent ↔ True := by
  have closing : Stroke.close.Silent ↔ Phrase.Silent ["\x7d"] := Iff.rfl
  rw [closing, silent_own, silent_nil, unsaid_ofList]
  decide

theorem silent_blank : Stroke.blank.Silent ↔ True := silent_nil

theorem silent_testing (checks : String) : (∀ stroke ∈ testing checks, stroke.Silent) ↔ True := by
  refine iff_true_intro (List.forall_mem_cons.mpr
    ⟨fun _ _ => not_false, List.forall_mem_singleton.mpr ?_⟩)
  rw [silent_line, silent_own, silent_nil, unsaid_ofList]
  decide

theorem silent_ite {condition : Prop} [Decidable condition] {first second : Stroke} :
    (if condition then first else second).Silent ↔
      if condition then first.Silent else second.Silent := by
  split <;> rfl

theorem unsaid_choice {condition : Prop} [Decidable condition] {first second : String} :
    unsaid (if condition then first else second) = true ↔
      if condition then unsaid first = true else unsaid second = true := by
  split <;> rfl

theorem unsaid_count (count : Nat) : unsaid (toString count) = true := by
  rw [unsaid_iff]
  intro word among inside
  have digits : ∀ letter ∈ count.repr.toList, letter.isDigit = true := by
    rw [Nat.toList_repr]
    exact fun letter member => Nat.isDigit_of_mem_toDigits (by decide) (by decide) member
  have others : moduleWords.all (fun word => word.any fun letter => !letter.isDigit) = true := by decide
  obtain ⟨letter, member, none⟩ := List.any_eq_true.mp (List.all_eq_true.mp others word among)
  exact absurd (digits letter (inside.subset member)) (by simpa using none)

/-- A member whose text holds none of the words. -/
def Member.Silent (member : Member) : Prop :=
  member.head.phrase.Silent ∧ ∀ stroke ∈ member.body, stroke.Silent

/-- A class whose own text holds none of the words. -/
def ClassOutline.Silent (outline : ClassOutline) : Prop :=
  (∀ field ∈ outline.fields, field.stroke.Silent) ∧ ∀ member ∈ outline.members, member.Silent

theorem keyedMap_silent (bindings : Bindings) (keying : Keying) (weak : Bool) :
    (keyedMap bindings keying weak).Silent := by
  unfold keyedMap ClassOutline.Silent
  cases keying <;>
    simp only [-String.reduceToList, -String.reduceAppend, Member.Silent, silent_line, silent_opening,
      silent_close, silent_testing, silent_nil, silent_own, silent_names, silent_literals, unsaid_choice, forall_mem_ite,
      Member.method, Member.accessor, Member.generator, Member.iterator, Member.toStringTag, Head.phrase,
      Head.joined, List.forall_mem_append, List.forall_mem_cons, List.not_mem_nil, false_imp_iff,
      implies_true, and_true, guard, refuse, KeyPlan.lookup, KeyPlan.require, KeyPlan.forget, KeyPlan.key,
      KeyPlan.ofMap, KeyPlan.composed, KeyPlan.fields, Variable.stroke, Initial.phrase, Phrase.between,
      List.cons_append, List.nil_append, List.append_assoc, reduceCtorEq, if_false, if_true]
  all_goals
    repeat' first | apply And.intro | apply ite_of_both | exact trivial
  all_goals repeat rw [unsaid_ofList]
  all_goals decide

theorem keyedSet_silent (bindings : Bindings) (keying : Keying) (weak : Bool) :
    (keyedSet bindings keying weak).Silent := by
  unfold keyedSet ClassOutline.Silent
  cases keying <;>
    simp only [-String.reduceToList, -String.reduceAppend, Member.Silent, silent_line, silent_opening,
      silent_close, silent_testing, silent_nil, silent_own, silent_names, silent_literals, unsaid_choice, forall_mem_ite,
      Member.method, Member.accessor, Member.generator, Member.iterator, Member.toStringTag, Head.phrase,
      Head.joined, List.forall_mem_append, List.forall_mem_cons, List.not_mem_nil, false_imp_iff,
      implies_true, and_true, guard, refuse, KeyPlan.lookup, KeyPlan.require, KeyPlan.forget, KeyPlan.key,
      KeyPlan.ofSet, KeyPlan.composed, KeyPlan.fields, Variable.stroke, Initial.phrase, Phrase.between,
      List.cons_append, List.nil_append, List.append_assoc, reduceCtorEq, if_false, if_true]
  all_goals
    repeat' first | apply And.intro | apply ite_of_both | exact trivial
  all_goals repeat rw [unsaid_ofList]
  all_goals decide

theorem mapOfSets_silent (bindings : Bindings) (outer : Keying) (weak : Bool) (inner : Keying) :
    (mapOfSets bindings outer weak inner).Silent := by
  unfold mapOfSets ClassOutline.Silent
  cases outer <;> cases inner <;>
    simp only [-String.reduceToList, -String.reduceAppend, Member.Silent, silent_line, silent_opening,
      silent_close, silent_testing, silent_nil, silent_own, silent_names, silent_literals, silent_ite, unsaid_choice, unsaid_count, forall_mem_ite,
      Member.method, Member.accessor, Member.generator, Member.iterator, Member.toStringTag, Head.phrase,
      Head.joined, List.forall_mem_append, List.forall_mem_cons, List.not_mem_nil, false_imp_iff,
      implies_true, and_true, guard, refuse, countAdded, KeyPlan.lookup, KeyPlan.require, KeyPlan.forget,
      KeyPlan.key, KeyPlan.ofMappingKeys, KeyPlan.ofElements, KeyPlan.composed, KeyPlan.fields,
      Variable.stroke, Initial.phrase, Phrase.between, Member.hidden,
      List.cons_append, List.nil_append, List.append_assoc, reduceCtorEq, if_false, if_true]
  all_goals
    repeat' first | apply And.intro | apply ite_of_both | exact trivial
  all_goals repeat rw [unsaid_ofList]
  all_goals decide

theorem pairedMap_silent (className : String) (pairing : PairingBindings) :
    (pairedMap className pairing).Silent := by
  have fields : ∀ field ∈ (pairedMap className pairing).fields, field.stroke.Silent := by
    unfold pairedMap
    cases pairing.baseSource <;>
      simp only [-String.reduceToList, -String.reduceAppend, List.forall_mem_cons, List.not_mem_nil,
        false_imp_iff, implies_true, and_true, Variable.stroke, Initial.phrase, Phrase.between, silent_line,
        silent_own, silent_names, silent_nil, List.cons_append, List.nil_append]
    all_goals decide
  refine ⟨fields, ?_⟩
  unfold pairedMap
  simp only [-String.reduceToList, -String.reduceAppend, Member.Silent, silent_line, silent_blank,
    silent_testing, silent_nil, silent_own, silent_names, forall_mem_ite, Member.method,
    Member.toStringTag, Head.phrase, Head.joined, List.forall_mem_append, List.forall_mem_cons,
    List.not_mem_nil, false_imp_iff, implies_true, and_true, guard, refuse, singleMembers, doubleMembers,
    lookupPair, lookupIdentity, checkValues, alreadyBound, List.flatMap_cons, List.flatMap_nil,
    List.append_nil, Phrase.between, List.cons_append, List.nil_append, List.append_assoc]
  repeat' first | apply And.intro | apply ite_of_both | exact trivial
  all_goals repeat rw [unsaid_ofList]
  all_goals decide

theorem Template.outline_silent {template : Template} {bindings : Bindings} {outline : ClassOutline}
    (outlined : template.outline bindings = .ok outline) : outline.Silent := by
  cases template with
  | map keying weak =>
    obtain rfl := Except.ok.inj outlined
    exact keyedMap_silent bindings keying weak
  | set keying weak =>
    obtain rfl := Except.ok.inj outlined
    exact keyedSet_silent bindings keying weak
  | mapOfSets outer weak inner =>
    obtain rfl := Except.ok.inj outlined
    exact mapOfSets_silent bindings outer weak inner
  | paired =>
    obtain ⟨pairing, rfl⟩ := Template.outline_paired_ok outlined
    exact pairedMap_silent bindings.className pairing

end Export

namespace ClassDefinition
variable {definition : ClassDefinition}

/-- All strokes of a class. -/
def strokes (definition : ClassDefinition) : List Stroke :=
  definition.front ++ definition.documentation.strokesOf definition.outline.members ++
    .close :: freezing definition.outline.name

theorem strokes_silent (silent : definition.outline.Silent) :
    ∀ stroke ∈ definition.strokes, stroke.Silent := by
  obtain ⟨fields, members⟩ := silent
  have close : Stroke.close.Silent := silent_close.mpr trivial
  have blank : Stroke.blank.Silent := silent_blank.mpr trivial
  unfold strokes
  rw [List.forall_mem_append, List.forall_mem_append]
  refine ⟨⟨?_, ?_⟩, ?_⟩
  · refine List.forall_mem_cons.mpr ⟨?_, List.forall_mem_map.mpr fields⟩
    rw [silent_opening, silent_own, silent_names, silent_nil, unsaid_ofList]
    decide
  · unfold Documentation.strokesOf
    rw [List.forall_mem_flatMap]
    intro member listed
    obtain ⟨head, body⟩ := members member listed
    have pages : ∀ stroke ∈ definition.documentation.pages member, stroke.Silent := by
      unfold Documentation.pages
      cases member.documentedAs with
      | none => exact nofun
      | some name => exact List.forall_mem_singleton.mpr fun _ _ => not_false
    unfold Member.strokes
    simp only [List.cons_append, List.forall_mem_cons, List.forall_mem_append, List.not_mem_nil,
      false_imp_iff, implies_true, and_true]
    exact ⟨blank, ⟨pages, head, body⟩, close⟩
  · unfold freezing
    simp only [List.forall_mem_cons, List.not_mem_nil, false_imp_iff, implies_true, and_true, silent_line,
      silent_own, silent_names, silent_nil]
    refine ⟨close, blank, ?_, ?_⟩ <;> rw [unsaid_ofList] <;> decide

/-- The statements behind a class. -/
def frozen (definition : ClassDefinition) : String :=
  "Object.freeze(" ++ definition.outline.name ++ ");\n" ++
    ("Object.freeze(" ++ definition.outline.name ++ ".prototype);\n")

/-- A class whose text is whole lines, the first of which is its head. -/
structure Standing (definition : ClassDefinition) : Prop where
  ended : Ended definition.text.toList
  unbroken : '\n' ∉ definition.outline.name.toList
  headed : ∃ rest, definition.text = "class " ++ definition.outline.name ++ " \x7b\n" ++ rest

/-- A class in normal form, from its head to the statements that freeze it, in whose own text nothing is
imported, exported or tagged. -/
structure Enclosed (definition : ClassDefinition) : Prop where
  drawn : definition.text = textAt 0 definition.strokes
  silent : ∀ stroke ∈ definition.strokes, stroke.Silent
  begins : ∃ rest, tidy definition.text = "class " ++ definition.outline.name ++ " \x7b\n" ++ rest
  ends : ∃ front, tidy definition.text = front ++ "\x7d\n\n" ++ definition.frozen

section Standing
variable (standing : definition.Standing)
include standing

/-- The head of the class is a line in normal form. -/
theorem Standing.head_line :
    '\n' ∉ ("class " ++ definition.outline.name ++ " \x7b").toList ∧
      ("class " ++ definition.outline.name ++ " \x7b").toList.getLast? = some '\x7b' :=
  ⟨by simpa using standing.unbroken, by simp [List.getLast?_append, List.getLast?_cons]⟩

theorem Standing.text_head :
    ∃ rest, definition.text = "class " ++ definition.outline.name ++ " \x7b" ++ "\n" ++ rest := by
  obtain ⟨rest, text⟩ := standing.headed
  exact ⟨rest, text.trans (by simp only [String.append_assoc]; rfl)⟩

theorem Standing.begun : Begun definition.text := by
  obtain ⟨rest, text⟩ := standing.text_head
  obtain ⟨unbroken, last⟩ := standing.head_line
  exact ⟨_, _, rest, text, unbroken, last, rfl⟩

theorem Standing.begins :
    ∃ rest, tidy definition.text = "class " ++ definition.outline.name ++ " \x7b\n" ++ rest := by
  obtain ⟨rest, text⟩ := standing.text_head
  obtain ⟨unbroken, last⟩ := standing.head_line
  have part : (tidy ("class " ++ definition.outline.name ++ " \x7b" ++ "\n")).toList <+:
      (tidy definition.text).toList := by
    rw [text]
    exact tidy_isPrefix (ended_feed _)
  rw [tidy_line unbroken last rfl] at part
  obtain ⟨more, same⟩ := part
  refine ⟨.ofList more, ?_⟩
  rw [← String.toList_inj, ← same]
  simp

end Standing

/-- The statements behind a class, one to a line. -/
theorem frozen_lines (definition : ClassDefinition) :
    definition.frozen = "Object.freeze(" ++ definition.outline.name ++ ");" ++ "\n" ++
      ("Object.freeze(" ++ definition.outline.name ++ ".prototype);" ++ "\n") := by
  unfold frozen
  simp [String.append_assoc]

theorem frozen_begun (unbroken : '\n' ∉ definition.outline.name.toList) : Begun definition.frozen :=
  ⟨_, ';', _, definition.frozen_lines, by simpa using unbroken,
    by simp [List.getLast?_append, List.getLast?_cons], rfl⟩

theorem tidy_frozen (unbroken : '\n' ∉ definition.outline.name.toList) :
    tidy definition.frozen = definition.frozen := by
  have whole : definition.frozen = String.join (["Object.freeze(" ++ definition.outline.name ++ ");",
      "Object.freeze(" ++ definition.outline.name ++ ".prototype);"].map (· ++ "\n")) := by
    simp [frozen_lines, String.append_assoc]
  rw [whole]
  apply tidy_lines
  rw [List.forall_mem_cons, List.forall_mem_singleton]
  refine ⟨⟨by simpa using unbroken, ';', ?_, rfl⟩, by simpa using unbroken, ';', ?_, rfl⟩ <;>
    simp [List.getLast?_append, List.getLast?_cons]

theorem textAt_freezing (definition : ClassDefinition) :
    textAt 1 (.close :: freezing definition.outline.name) =
      "\x7d" ++ "\n" ++ "\n" ++ definition.frozen := by
  have filled : ∀ rest, "Object.freeze(" ++ rest ≠ "" := by simp
  simp [-String.reduceAppend, freezing, textAt, Stroke.textAt, Stroke.depthAfter, Stroke.close,
    Stroke.blank, lineAt, indentation, Phrase.text, Fragment.text, nameList, frozen_lines, filled,
    String.append_assoc]

/-- A class ends in its closing brace and, after an empty line, the statements that freeze it. -/
theorem Written.ends (written : definition.Written)
    (settled : ∀ member ∈ definition.outline.members, Settled member.body)
    (unbroken : '\n' ∉ definition.outline.name.toList) :
    Ended definition.text.toList ∧
      ∃ front, tidy definition.text = front ++ "\x7d\n\n" ++ definition.frozen := by
  have all : definition.outline.members = [] ++ definition.outline.members ++ [] := by simp
  obtain ⟨text, apart, ended⟩ := written.text_around settled all
  generalize textAt 0 definition.front ++ textAt 1 (definition.documentation.strokesOf []) = front
    at text apart
  generalize textAt 1 (definition.documentation.strokesOf definition.outline.members) = members
    at text ended
  have before : Ended (front ++ members).toList := by
    rw [String.toList_append]
    exact apart.append ended
  have none : textAt 1 (definition.documentation.strokesOf []) = "" := rfl
  rw [none, String.append_empty, textAt_freezing] at text
  refine ⟨?_, ?_⟩
  · rw [text, frozen_lines, String.toList_append]
    exact before.append (ended_of_last (by simp [List.getLast?_append, List.getLast?_cons]))
  · have closed : Ended (front ++ members ++ ("\x7d" ++ "\n")).toList := by
      rw [String.toList_append]
      exact before.append (ended_feed "\x7d")
    have parted := tidy_cut closed (frozen_begun unbroken)
    obtain ⟨rest, braced⟩ := tidy_ends before (by decide : '\n' ∉ "\x7d".toList) rfl rfl
    rw [tidy_frozen unbroken, braced, if_neg (by simp)] at parted
    refine ⟨rest, ?_⟩
    rw [text, show "\x7d\n\n" = "\x7d" ++ "\n" ++ "\n" by simp]
    simpa only [String.append_assoc] using parted

end ClassDefinition

namespace Contribution
variable {options : CompileOptions} {part : Configuration} {definition : ClassDefinition}

theorem Writes.standing (written : Writes options part definition) (formed : part.WellFormed) :
    definition.Standing ∧ definition.Enclosed := by
  have name := written.outline_name
  have headed := written.text
  obtain ⟨bindings, -, defined⟩ := written
  obtain ⟨outlined, whole, -⟩ := ClassDefinition.ofConfiguration_ok defined
  have unbroken : '\n' ∉ definition.outline.name.toList := by
    rw [name]
    exact isIdentifier_oneLine formed.own.classNamed.identifier
  obtain ⟨ended, ends⟩ := whole.ends (Template.outline_settled outlined) unbroken
  have standing : definition.Standing := ⟨ended, unbroken, headed⟩
  exact ⟨standing, whole.text, definition.strokes_silent (Template.outline_silent outlined),
    standing.begins, ends⟩

/-- A base that is written inline brings in what it brings in alone; the class over it adds itself and the
statements that it has been given. -/
theorem inline_ok {own : Declaration} {link : Link} {base : Configuration} {contribution : Contribution}
    (inline : (PairingBindings.ofLink link base).baseSource = .inline)
    (family : own.family.isOneToOne = true)
    (made : ofConfiguration options (.paired own link base) = .ok contribution) :
    ∃ inner definition, ofConfiguration options base = .ok inner ∧
      Writes options (.paired own link base) definition ∧
      contribution.classes = inner.classes ++ [definition] ∧
      contribution.helpers = inner.helpers ∧
      contribution.imports =
        (inner.imports ++ (own.importText.map importsOf).getD []).eraseDups := by
  obtain ⟨bindings, bound, made⟩ := bind_eq_ok.mp made
  dsimp only at made
  rw [inline] at made
  obtain ⟨inner, written, made⟩ := bind_eq_ok.mp made
  obtain ⟨definition, defined, made⟩ := bind_eq_ok.mp made
  obtain rfl := pure_eq_ok.mp made
  have paired := (Variant.select_template_paired_iff own options.disableSpecialization).mpr family
  refine ⟨inner, definition, written, ⟨bindings, bound, defined⟩, rfl, ?_, ?_⟩
  · simp [Configuration.own, paired, Template.helpers, Template.plans, HelperUse.union]
  · rw [Bindings.importText_ofConfiguration bound]
    rfl

end Contribution

/-- Items that are apart stay ahead of all that is added to them. -/
theorem isPrefix_eraseDups {items : List String} (distinct : items.Nodup) (more : List String) :
    items <+: (items ++ more).eraseDups := by
  rw [List.eraseDups_append, eraseDups_of_nodup distinct]
  exact List.prefix_append _ _

namespace SourceModule
variable (source : SourceModule)

/-- What a module says ahead of its classes, in normal form and parted from them. -/
def opening : String :=
  let said := tidy (source.ahead ++ source.header ++
    String.join ((source.helperImports ++ source.imports).map (· ++ "\n")))
  if said = "" then "" else said ++ "\n"

/-- The statement that exports the class of a module. -/
def exporting : String := "export default " ++ source.className ++ ";\n"

theorem made_from {configuration : Configuration} {options : CompileOptions} {helperDirectory : String}
    {source : SourceModule}
    (made : ofConfiguration configuration options helperDirectory = .ok source) :
    Contribution.ofConfiguration options configuration = .ok source.contribution ∧
      source.className = configuration.className ∧ source.overview = configuration.own.overview ∧
      source.helperDirectory = helperDirectory := by
  obtain ⟨contribution, written, rfl⟩ := ofConfiguration_ok made
  exact ⟨written, rfl, rfl, rfl⟩

theorem helperImports_congr {source other : SourceModule}
    (directory : source.helperDirectory = other.helperDirectory) (helpers : source.helpers = other.helpers) :
    source.helperImports = other.helperImports := by
  unfold helperImports
  rw [directory, helpers]

variable {source} (unbroken : '\n' ∉ source.className.toList)
include unbroken

theorem exporting_normal : Begun source.exporting ∧ tidy source.exporting = source.exporting := by
  have line : source.exporting = "export default " ++ source.className ++ ";" ++ "\n" := by
    unfold exporting
    simp [String.append_assoc]
  have kept : '\n' ∉ ("export default " ++ source.className ++ ";").toList := by simpa using unbroken
  have last : ("export default " ++ source.className ++ ";").toList.getLast? = some ';' := by
    simp [List.getLast?_append, List.getLast?_cons]
  rw [line]
  exact ⟨⟨_, ';', "", by simp, kept, last, rfl⟩, tidy_line kept last rfl⟩

/-- The normal form of classes side by side is that of every one of them, parted by empty lines. -/
theorem tidy_classes {classes : List ClassDefinition}
    (standing : ∀ definition ∈ classes, definition.Standing) :
    let text := String.join (classes.map fun definition => definition.text ++ "\n") ++ source.exporting
    Begun text ∧ tidy text =
      String.join (classes.map fun definition => tidy definition.text ++ "\n") ++ source.exporting := by
  induction classes with
  | nil => simpa using exporting_normal unbroken
  | cons definition rest ih =>
    rw [List.forall_mem_cons] at standing
    obtain ⟨first, others⟩ := standing
    obtain ⟨begun, same⟩ := ih others
    have parted := tidy_cut first.ended begun
    rw [if_neg first.begun.tidy_ne, same] at parted
    simp only [List.map_cons, String.join_cons, String.append_assoc] at parted ⊢
    exact ⟨first.begun.append _, parted⟩

theorem text_eq {classes : List ClassDefinition} (listed : source.contribution.classes = classes)
    (standing : ∀ definition ∈ classes, definition.Standing) :
    source.text = source.opening ++
      String.join (classes.map fun definition => tidy definition.text ++ "\n") ++ source.exporting := by
  obtain ⟨begun, same⟩ := tidy_classes unbroken standing
  have imports : Ended (String.join
      ((source.helperImports ++ source.imports).map (· ++ "\n"))).toList := by
    refine Ended.join fun text member => ?_
    obtain ⟨_, _, rfl⟩ := List.mem_map.mp member
    exact ended_feed _
  have said : Ended (source.ahead ++ source.header ++
      String.join ((source.helperImports ++ source.imports).map (· ++ "\n"))).toList := by
    rw [String.toList_append, String.toList_append]
    exact .append (.append source.ahead_ended source.header_ended) imports
  have parted := tidy_cut said begun
  rw [same] at parted
  unfold text
  unfold opening exporting ahead at *
  simp only [listed, String.append_assoc] at parted ⊢
  exact parted

end SourceModule

/-- What the module of a paired collection over a base that is written inline has in common with the module
of the base alone. -/
structure SourceModule.Inlines (source alone : SourceModule) (inner own : ClassDefinition) : Prop where
  aloneClasses : alone.contribution.classes = [inner]
  classes : source.contribution.classes = [inner, own]
  baseName : inner.outline.name = alone.className
  ownName : own.outline.name = source.className
  baseEnclosed : inner.Enclosed
  ownEnclosed : own.Enclosed
  aloneText : alone.text = alone.opening ++ (tidy inner.text ++ "\n") ++ alone.exporting
  text : source.text =
    source.opening ++ ((tidy inner.text ++ "\n") ++ (tidy own.text ++ "\n")) ++ source.exporting
  helperImports : source.helperImports = alone.helperImports
  importsFirst : alone.imports <+: source.imports

end CompositeKeys.Emission
