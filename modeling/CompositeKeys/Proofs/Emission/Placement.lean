import CompositeKeys.Proofs.Emission.Generatable
import CompositeKeys.Proofs.Emission.Writing

/-! Where the members of a class stand. The body of every member of every template comes back to the
depth at which it begins and holds no finished page, so all members of a class are written at the
same depth and each has its lines to itself. -/

namespace CompositeKeys.Emission
open Text

section Depth
variable (depth : Nat) (rest : List Stroke)

@[simp] theorem depthAfter_nil : depthAfter depth [] = depth := rfl

@[simp] theorem depthAfter_line (phrase : Phrase) :
    depthAfter depth (.line phrase :: rest) = depthAfter depth rest := rfl

@[simp] theorem depthAfter_blank : depthAfter depth (.blank :: rest) = depthAfter depth rest := rfl

@[simp] theorem depthAfter_passage (text : String) :
    depthAfter depth (.passage text :: rest) = depthAfter depth rest := rfl

@[simp] theorem depthAfter_page (text : String) :
    depthAfter depth (.page text :: rest) = depthAfter depth rest := rfl

@[simp] theorem depthAfter_opening (head : Phrase) :
    depthAfter depth (.opening head :: rest) = depthAfter (depth + 1) rest := rfl

@[simp] theorem depthAfter_close :
    depthAfter depth (.close :: rest) = depthAfter (depth - 1) rest := rfl

end Depth

/-- Strokes that come back to their depth and hold no page. -/
@[mk_iff]
structure Settled (strokes : List Stroke) : Prop where
  depth : ∀ depth, depthAfter depth strokes = depth
  pageless : ∀ text, .page text ∉ strokes

section Parts
variable {first second : List Stroke} (depth : Nat) (text : String)

@[simp] theorem depthAfter_of_settled (settled : Settled first) : depthAfter depth first = depth :=
  settled.depth depth

@[simp] theorem depthAfter_append_of_settled (settled : Settled first) :
    depthAfter depth (first ++ second) = depthAfter depth second := by
  rw [depthAfter_append, settled.depth]

@[simp] theorem not_page_mem_of_settled (settled : Settled first) : .page text ∈ first ↔ False :=
  iff_false_intro (settled.pageless text)

@[simp] theorem page_ne_close : Stroke.page text ≠ .close := nofun

@[simp] theorem page_ne_blank : Stroke.page text ≠ .blank := nofun

end Parts

@[simp] theorem settled_guard (guarded : Bool) (check : String) (arguments : Phrase)
    (missing : String) : Settled (guard guarded check arguments missing) := by
  cases guarded <;> simp [settled_iff, guard]

@[simp] theorem settled_refuse (guarded : Bool) (check : String) (arguments : Phrase)
    (error : String) : Settled (refuse guarded check arguments error) := by
  cases guarded <;> simp [settled_iff, refuse]

@[simp] theorem settled_testing (checks : String) : Settled (testing checks) := by
  simp [settled_iff, testing]

@[simp] theorem settled_countAdded (weak : Bool) (addition : Phrase) :
    Settled (countAdded weak addition) := by
  cases weak <;> simp [settled_iff, countAdded]

namespace KeyPlan
variable (plan : KeyPlan) (hasherField missing : String)

@[simp] theorem settled_lookup : Settled (plan.lookup hasherField missing) := by
  unfold lookup
  cases plan.keying <;> simp [settled_iff]

@[simp] theorem settled_require : Settled (plan.require hasherField) := by
  unfold require
  cases plan.keying <;> simp [settled_iff]

@[simp] theorem settled_forget : Settled plan.forget := by
  unfold forget
  cases plan.keying <;> simp [settled_iff]

end KeyPlan

section Templates
variable (bindings : Bindings)

theorem keyedSet_settled (keying : Keying) (weak : Bool) :
    ∀ member ∈ (keyedSet bindings keying weak).members, Settled member.body := by
  simp only [settled_iff, keyedSet]
  cases weak <;> cases keying <;>
    simp [Member.method, Member.accessor, Member.generator, Member.iterator, Member.toStringTag]

theorem keyedMap_settled (keying : Keying) (weak : Bool) :
    ∀ member ∈ (keyedMap bindings keying weak).members, Settled member.body := by
  simp only [settled_iff, keyedMap]
  cases weak <;> cases keying <;>
    simp [Member.method, Member.accessor, Member.generator, Member.iterator, Member.toStringTag]

theorem mapOfSets_settled (outer : Keying) (weak : Bool) (inner : Keying) :
    ∀ member ∈ (mapOfSets bindings outer weak inner).members, Settled member.body := by
  simp only [settled_iff, mapOfSets]
  cases weak <;> cases inner <;>
    simp [Member.method, Member.accessor, Member.generator, Member.iterator, Member.toStringTag,
      Member.hidden]

theorem pairedMap_settled (className : String) (pairing : PairingBindings) :
    ∀ member ∈ (pairedMap className pairing).members, Settled member.body := by
  simp only [settled_iff, pairedMap]
  cases pairing.isSingle <;>
    simp [singleMembers, doubleMembers, checkValues, lookupPair, lookupIdentity, Member.method,
      Member.toStringTag]

end Templates

theorem Template.outline_settled {template : Template} {bindings : Bindings}
    {outline : ClassOutline} (outlined : template.outline bindings = .ok outline) :
    ∀ member ∈ outline.members, Settled member.body := by
  cases template with
  | map keying weak =>
    obtain rfl := Except.ok.inj outlined
    exact keyedMap_settled bindings keying weak
  | set keying weak =>
    obtain rfl := Except.ok.inj outlined
    exact keyedSet_settled bindings keying weak
  | mapOfSets outer weak inner =>
    obtain rfl := Except.ok.inj outlined
    exact mapOfSets_settled bindings outer weak inner
  | paired =>
    unfold Template.outline at outlined
    dsimp only at outlined
    split at outlined
    next pairing _ =>
      obtain rfl := Except.ok.inj outlined
      exact pairedMap_settled bindings.className pairing
    · cases outlined

namespace Documentation
variable {documentation : Documentation} {members : List Member} (depth : Nat)

theorem depthAfter_pages (member : Member) (rest : List Stroke) :
    depthAfter depth (documentation.pages member ++ rest) = depthAfter depth rest := by
  unfold pages
  cases member.documentedAs <;> rfl

theorem depthAfter_strokesOf (settled : ∀ member ∈ members, Settled member.body) :
    depthAfter depth (documentation.strokesOf members) = depth := by
  induction members with
  | nil => rfl
  | cons member rest ih =>
    rw [List.forall_mem_cons] at settled
    have alone : depthAfter depth (member.strokes (documentation.pages member)) = depth := by
      simp [Member.strokes, depthAfter_pages, settled.1]
    rw [strokesOf, List.flatMap_cons, depthAfter_append, alone]
    exact ih settled.2

theorem page_ended {member : Member} {text : String}
    (blocks : ∀ name ∈ member.documentedAs,
      ∃ text, documentation.block name (indentation 1) = .ok text)
    (page : .page text ∈ documentation.pages member) : Ended text.toList := by
  obtain ⟨name, named, same⟩ : ∃ name ∈ member.documentedAs,
      (documentation.block name (indentation 1)).toOption.getD "" = text := by
    simpa [pages] using page
  obtain ⟨made, blocked⟩ := blocks name named
  obtain rfl : made = text := by simpa [blocked, Except.toOption] using same
  exact block_ended blocked

/-- Members with settled bodies, under blocks that have been made, leave whole lines. -/
theorem strokesOf_ended (settled : ∀ member ∈ members, Settled member.body)
    (blocks : ∀ member ∈ members, ∀ name ∈ member.documentedAs,
      ∃ text, documentation.block name (indentation 1) = .ok text) :
    Ended (textAt depth (documentation.strokesOf members)).toList := by
  refine textAt_ended depth fun text page => ?_
  obtain ⟨member, among, page⟩ := List.mem_flatMap.mp page
  refine page_ended (blocks member among) ?_
  simpa [Member.strokes, settled member among] using page

end Documentation

namespace ClassDefinition
variable {definition : ClassDefinition}

theorem depthAfter_front (definition : ClassDefinition) :
    depthAfter 0 definition.front = 1 := by
  have fields : ∀ (fields : List Variable) depth,
      depthAfter depth (fields.map Variable.stroke) = depth := by
    intro fields
    induction fields with
    | nil => exact fun _ => rfl
    | cons field fields ih => exact fun depth => ih depth
  exact fields definition.outline.fields 1

theorem front_ended (definition : ClassDefinition) :
    Ended (textAt 0 definition.front).toList := by
  refine textAt_ended 0 fun text page => ?_
  simp [front, Variable.stroke] at page

/-- Members that stand side by side in a class are written at depth one and have their lines to
themselves. -/
theorem Written.text_around (written : definition.Written)
    (settled : ∀ member ∈ definition.outline.members, Settled member.body)
    {early part late : List Member} (same : definition.outline.members = early ++ part ++ late) :
    definition.text = textAt 0 definition.front ++
        textAt 1 (definition.documentation.strokesOf early) ++
        textAt 1 (definition.documentation.strokesOf part) ++
        textAt 1 (definition.documentation.strokesOf late) ++
        textAt 1 (.close :: freezing definition.outline.name) ∧
      Ended (textAt 0 definition.front ++
        textAt 1 (definition.documentation.strokesOf early)).toList ∧
      Ended (textAt 1 (definition.documentation.strokesOf part)).toList := by
  obtain ⟨blocks, text⟩ := written
  have split : definition.documentation.strokesOf (early ++ part ++ late) =
      definition.documentation.strokesOf early ++ definition.documentation.strokesOf part ++
        definition.documentation.strokesOf late := by
    simp [Documentation.strokesOf]
  rw [same] at text settled blocks
  simp only [List.forall_mem_append] at settled blocks
  obtain ⟨⟨earlySettled, partSettled⟩, lateSettled⟩ := settled
  obtain ⟨⟨earlyBlocks, partBlocks⟩, -⟩ := blocks
  refine ⟨?_, ?_, Documentation.strokesOf_ended 1 partSettled partBlocks⟩
  · rw [text, split]
    simp only [textAt_append, depthAfter_append, depthAfter_front,
      Documentation.depthAfter_strokesOf _ earlySettled,
      Documentation.depthAfter_strokesOf _ partSettled,
      Documentation.depthAfter_strokesOf _ lateSettled, String.append_assoc]
  · rw [String.toList_append]
    exact definition.front_ended.append (Documentation.strokesOf_ended 1 earlySettled earlyBlocks)

/-- One member with its block, and what is written around it. -/
theorem Written.text_around_member (written : definition.Written)
    (settled : ∀ member ∈ definition.outline.members, Settled member.body) {member : Member}
    (listed : member ∈ definition.outline.members) :
    ∃ before after, Ended before.toList ∧ definition.text =
      before ++ textAt 1 (member.strokes (definition.documentation.pages member)) ++ after := by
  obtain ⟨early, late, members⟩ := List.append_of_mem listed
  have split : definition.outline.members = early ++ [member] ++ late := by simp [members]
  obtain ⟨text, apart, -⟩ := written.text_around settled split
  have alone : definition.documentation.strokesOf [member] =
      member.strokes (definition.documentation.pages member) := by
    simp [Documentation.strokesOf]
  rw [alone] at text
  exact ⟨_, _, apart, text.trans String.append_assoc⟩

/-- The block of a member has its lines to itself, and the head of the member comes next. -/
theorem Written.text_around_block (written : definition.Written)
    (settled : ∀ member ∈ definition.outline.members, Settled member.body) {member : Member}
    (listed : member ∈ definition.outline.members) {name : String}
    (documented : name ∈ member.documentedAs) :
    ∃ block before after, definition.documentation.block name (indentation 1) = .ok block ∧
      Ended before.toList ∧ definition.text =
        before ++ block ++ lineAt 1 (member.head.phrase.text ++ " \x7b") ++ after := by
  obtain ⟨block, made⟩ := written.block member listed name documented
  obtain ⟨before, after, apart, text⟩ := written.text_around_member settled listed
  have pages : definition.documentation.pages member = [.page block] := by
    rw [Option.mem_def] at documented
    simp [Documentation.pages, documented, made, Except.toOption]
  have part : textAt 1 (member.strokes (definition.documentation.pages member)) =
      "\n" ++ (block ++ (lineAt 1 (member.head.phrase.text ++ " \x7b") ++
        textAt 2 (member.body ++ [.close]))) := by
    simp [Member.strokes, pages, textAt, Stroke.textAt, Stroke.depthAfter, lineAt, Stroke.blank,
      Phrase.text]
  refine ⟨block, before ++ "\n", textAt 2 (member.body ++ [.close]) ++ after, made,
    ended_feed before, ?_⟩
  rw [text, part]
  simp only [String.append_assoc]

end ClassDefinition

/-- Members that stand side by side in a class stand in the module in normal form. -/
theorem SourceModule.members_isInfix {source : SourceModule} {definition : ClassDefinition}
    (member : definition ∈ source.contribution.classes) (written : definition.Written)
    (settled : ∀ member ∈ definition.outline.members, Settled member.body)
    {early part late : List Member} (same : definition.outline.members = early ++ part ++ late) :
    (tidy (textAt 1 (definition.documentation.strokesOf part))).toList <:+: source.text.toList := by
  obtain ⟨text, apart, ended⟩ := written.text_around settled same
  exact part_isInfix member apart ended ⟨_, text.trans String.append_assoc⟩

/-- The module of a class that stands alone. -/
structure SourceModule.Holds (source : SourceModule) (own : Declaration) (bindings : Bindings)
    (definition : ClassDefinition) : Prop where
  bound : Bindings.ofConfiguration (.plain own) = .ok bindings
  defined : ClassDefinition.ofConfiguration (.plain own) bindings
    (Variant.select own source.options.disableSpecialization).template source.options.checkedTypes =
      .ok definition
  classes : source.contribution.classes = [definition]
  imports : source.imports = ((bindings.importText.map importsOf).getD []).eraseDups

/-- A well-formed configuration without a base is generated as a module of its class alone. -/
theorem SourceModule.exists_holds {own : Declaration} {bindings : Bindings}
    (formed : Configuration.WellFormed (.plain own))
    (bound : Bindings.ofConfiguration (.plain own) = .ok bindings) (options : CompileOptions)
    (helperDirectory : String) :
    ∃ source definition, ofConfiguration (.plain own) options helperDirectory = .ok source ∧
      source.className = own.className ∧ source.overview = own.overview ∧
      source.options = options ∧ source.Holds own bindings definition := by
  obtain ⟨contribution, made⟩ := Contribution.exists_ofConfiguration_ok options formed
  obtain ⟨other, definition, same, defined, classes, imports⟩ := Contribution.plain_ok made
  obtain rfl := Except.ok.inj (same.symm.trans bound)
  have passed : check (.plain own) = .ok () := check_distinct formed nofun
  refine ⟨_, definition, bind_eq_ok.mpr ⟨(), passed, bind_eq_ok.mpr ⟨contribution, made, rfl⟩⟩, rfl,
    rfl, rfl, ?_⟩
  exact ⟨bound, defined, classes, imports⟩

end CompositeKeys.Emission
