import CompositeKeys.Proofs.Collection.ClassNames
import CompositeKeys.Proofs.Emission.Selection
import CompositeKeys.Proofs.Emission.Writing

/-! The names that a module binds at its top: the parts of the key library, the base of a paired
collection and the class. The names of classes are kept apart from each other and from the built-in
collections, but neither from the key library nor from the other globals of generated code. -/

namespace CompositeKeys.Emission
open Text

def HelperUse.names (use : HelperUse) : List String :=
  (if use.hasher then ["KeyHasher"] else []) ++ (if use.composer then ["WeakKeyComposer"] else [])

/-- The base that a paired collection imports. -/
def importedBase? : Configuration → Option String
  | .plain _ => none
  | .paired _ link base =>
    match (PairingBindings.ofLink link base).baseSource with
    | .imported _ => some base.className
    | .builtin | .inline => none

/-- The globals of generated code that a class may be named like. -/
def openGlobals : List String := ["Object", "Array", "Error", "Boolean", "Symbol"]

/-- The globals that generated code refers to. -/
def globals : List String := openGlobals ++ reservedClassNames

def Imports (name statement : String) : Prop :=
  ∃ place, statement = "import " ++ name ++ " from " ++ place

namespace SourceModule

/-- The names of the classes that a module imports or holds. -/
def classNames (source : SourceModule) (configuration : Configuration) : List String :=
  (importedBase? configuration).toList ++
    source.contribution.classes.map fun definition => definition.outline.name

/-- All that a module binds at its top beside what its import text brings in. -/
def topNames (source : SourceModule) (configuration : Configuration) : List String :=
  source.helpers.names ++ source.classNames configuration

/-- Every name at the top of a module is bound by a statement of its own. -/
structure Binds (source : SourceModule) (configuration : Configuration) : Prop where
  helpers : List.Forall₂ Imports source.helpers.names source.helperImports
  base : ∀ name ∈ importedBase? configuration, ∃ statement ∈ source.imports, Imports name statement
  classes : ∀ definition ∈ source.contribution.classes,
    ∃ rest, definition.text = "class " ++ definition.outline.name ++ " \x7b\n" ++ rest

end SourceModule

theorem Bindings.className_ofConfiguration {configuration : Configuration} {bindings : Bindings}
    (bound : ofConfiguration configuration = .ok bindings) :
    bindings.className = configuration.className := by
  unfold ofConfiguration at bound
  dsimp only at bound
  split at bound
  · cases bound
  · cases bound
    rfl

theorem Template.outline_name {template : Template} {bindings : Bindings} {outline : ClassOutline}
    (outlined : template.outline bindings = .ok outline) : outline.name = bindings.className := by
  cases template with
  | map keying weak =>
    cases outlined
    rfl
  | set keying weak =>
    cases outlined
    rfl
  | mapOfSets outer weak inner =>
    cases outlined
    rfl
  | paired =>
    unfold Template.outline at outlined
    dsimp only at outlined
    split at outlined
    · cases outlined
      rfl
    · cases outlined

namespace Contribution
variable {options : CompileOptions} {part : Configuration} {definition : ClassDefinition}

theorem Writes.outline_name (written : Writes options part definition) :
    definition.outline.name = part.className := by
  obtain ⟨bindings, bound, defined⟩ := written
  obtain ⟨outlined, -⟩ := ClassDefinition.ofConfiguration_ok defined
  exact (Template.outline_name outlined).trans (Bindings.className_ofConfiguration bound)

theorem Writes.text (written : Writes options part definition) :
    ∃ rest, definition.text = "class " ++ definition.outline.name ++ " \x7b\n" ++ rest := by
  obtain ⟨bindings, bound, defined⟩ := written
  obtain ⟨-, whole, -⟩ := ClassDefinition.ofConfiguration_ok defined
  obtain ⟨rest, text⟩ := whole.text_fields
  exact ⟨_, text.trans String.append_assoc⟩

theorem classNames_eq {configuration : Configuration} {contribution : Contribution}
    (made : ofConfiguration options configuration = .ok contribution) :
    contribution.classes.map (fun definition => definition.outline.name) =
      (parts configuration).map Configuration.className := by
  have same : List.Forall₂ Eq ((parts configuration).map Configuration.className)
      (contribution.classes.map fun definition => definition.outline.name) := by
    rw [List.forall₂_map_left_iff, List.forall₂_map_right_iff]
    exact (parts_classes made).imp fun _ _ written => written.outline_name.symm
  rw [List.forall₂_eq_eq_eq] at same
  exact same.symm

theorem importedBase_of_ofConfiguration {configuration : Configuration}
    {contribution : Contribution}
    (made : ofConfiguration options configuration = .ok contribution) :
    ∀ name ∈ importedBase? configuration,
      ∃ statement ∈ contribution.imports, Imports name statement := by
  intro name imported
  cases configuration with
  | plain own => cases imported
  | paired own link base =>
    obtain ⟨bindings, -, made⟩ := bind_eq_ok.mp made
    dsimp only at made
    split at made
    next builtin => simp [importedBase?, builtin] at imported
    next path found =>
      obtain rfl : base.className = name := by simpa [importedBase?, found] using imported
      obtain ⟨definition, -, -, imports⟩ := extend_ok made
      refine ⟨"import " ++ base.className ++ " from " ++ quoted path ++ ";", ?_,
        quoted path ++ ";", by simp only [String.append_assoc]⟩
      rw [imports, List.mem_eraseDups]
      exact List.mem_append_left _ List.mem_cons_self
    next inline => simp [importedBase?, inline] at imported

/-- A class stands alone or beside that of a base, which is not a built-in collection. -/
theorem parts_cases {configuration : Configuration} (formed : configuration.WellFormed) :
    let names := (importedBase? configuration).toList ++
      (parts configuration).map Configuration.className
    names = [configuration.className] ∨
      ∃ own link base, configuration = .paired own link base ∧ link.origin ≠ .builtinWeakMap ∧
        names = [base.className, own.className] := by
  cases formed with
  | plain => exact .inl rfl
  | @paired own link base declared family based baseFamily reserved =>
    have other : (PairingBindings.ofLink link base).baseSource ≠ .builtin →
        link.origin ≠ .builtinWeakMap := by
      intro differs origin
      exact differs (by simp only [PairingBindings.ofLink, origin])
    unfold importedBase? parts
    dsimp only
    cases found : (PairingBindings.ofLink link base).baseSource with
    | builtin => exact .inl rfl
    | imported path => exact .inr ⟨own, link, base, rfl, other (by simp [found]), rfl⟩
    | inline =>
      obtain ⟨inner, rfl⟩ := based.plain_of_base baseFamily
      exact .inr ⟨own, link, .plain inner, rfl, other (by simp [found]), rfl⟩

end Contribution

namespace SourceModule
variable {source : SourceModule}

theorem helperImports_names (source : SourceModule) :
    List.Forall₂ Imports source.helpers.names source.helperImports := by
  unfold HelperUse.names helperImports
  have hasher : Imports "KeyHasher"
      ("import KeyHasher from \"" ++ source.helperDirectory ++ "/Hasher.mjs\";") :=
    ⟨"\"" ++ source.helperDirectory ++ "/Hasher.mjs\";", by simp [← String.append_assoc]⟩
  have composer : Imports "WeakKeyComposer"
      ("import WeakKeyComposer from \"" ++ source.helperDirectory ++ "/Composite.mjs\";") :=
    ⟨"\"" ++ source.helperDirectory ++ "/Composite.mjs\";", by simp [← String.append_assoc]⟩
  cases source.helpers.hasher <;> cases source.helpers.composer <;> simp [hasher, composer]

theorem binds_ofConfiguration {configuration : Configuration} {options : CompileOptions}
    {helperDirectory : String}
    (made : ofConfiguration configuration options helperDirectory = .ok source) :
    source.Binds configuration := by
  obtain ⟨contribution, written, rfl⟩ := ofConfiguration_ok made
  refine ⟨helperImports_names _, Contribution.importedBase_of_ofConfiguration written, ?_⟩
  intro definition among
  obtain ⟨part, -, written⟩ := Contribution.part_of_class written among
  exact written.text

theorem baseName_of_check {own : Declaration} {link : Link} {base : Configuration}
    (checked : check (.paired own link base) = .ok ()) (family : own.family.isOneToOne = true) :
    base.className ≠ own.className := by
  intro same
  have paired : (Configuration.paired own link base).family.isOneToOne = true := family
  have clash : base.className = (Configuration.paired own link base).className := same
  simp only [check, paired, Configuration.pairing?, if_pos clash, if_true] at checked
  cases checked

/-- The classes of a module have different names, and none is named like a built-in collection. -/
theorem classNames_apart {configuration : Configuration} {options : CompileOptions}
    {helperDirectory : String} (formed : configuration.WellFormed) (titled : configuration.Titled)
    (made : ofConfiguration configuration options helperDirectory = .ok source) :
    (source.classNames configuration).Nodup ∧
      ∀ name ∈ source.classNames configuration, name ∉ reservedClassNames := by
  obtain ⟨_, checked, -⟩ := bind_eq_ok.mp made
  have names : source.classNames configuration = (importedBase? configuration).toList ++
      (Contribution.parts configuration).map Configuration.className := by
    obtain ⟨contribution, written, rfl⟩ := ofConfiguration_ok made
    exact congrArg _ (Contribution.classNames_eq written)
  rw [names]
  rcases Contribution.parts_cases formed with alone | ⟨own, link, base, rfl, other, both⟩
  · rw [alone]
    exact ⟨by simp, List.forall_mem_singleton.mpr titled.own⟩
  · have family : own.family.isOneToOne = true := by
      cases formed with
      | paired _ family => exact family
    have different := baseName_of_check checked family
    rw [both]
    refine ⟨by simp [different], ?_⟩
    rw [List.forall_mem_cons, List.forall_mem_singleton]
    exact ⟨(titled.2 other).own, titled.own⟩

end SourceModule

theorem HelperUse.names_apart (use : HelperUse) :
    use.names.Nodup ∧ ∀ name ∈ use.names, name ∉ globals := by
  rcases use with ⟨_ | _, _ | _⟩ <;> decide +kernel

/-- The names at the top of a module that is generated from a locked declaration clash with each
other or hide a global just where a class is named like a part of the key library that the module
imports, or like one of the globals that are not refused as the name of a class. -/
theorem top_names_apart_iff {builder : Builder} (declared : builder.Declared)
    (locked : builder.isLocked = true) {options : CompileOptions} {helperDirectory : String}
    {source : SourceModule}
    (made : SourceModule.ofConfiguration builder.configuration options helperDirectory =
      .ok source) :
    source.Binds builder.configuration ∧
    ((source.topNames builder.configuration).Nodup ∧
        (∀ name ∈ source.topNames builder.configuration, name ∉ globals) ↔
      ∀ name ∈ source.classNames builder.configuration,
        name ∉ source.helpers.names ∧ name ∉ openGlobals) := by
  obtain ⟨distinct, untaken⟩ := SourceModule.classNames_apart
    (declared.sound.wellFormed locked) declared.titled made
  obtain ⟨helpersDistinct, helpersApart⟩ := source.helpers.names_apart
  refine ⟨SourceModule.binds_ofConfiguration made, ?_⟩
  unfold SourceModule.topNames
  rw [List.nodup_append, List.forall_mem_append]
  constructor
  · rintro ⟨⟨-, -, disjoint⟩, -, classesApart⟩ name among
    refine ⟨fun helper => disjoint name helper name among rfl, fun taken => ?_⟩
    exact classesApart name among (List.mem_append_left _ taken)
  · intro apart
    refine ⟨⟨helpersDistinct, distinct, ?_⟩, helpersApart, ?_⟩
    · rintro name helper _ among rfl
      exact (apart name among).1 helper
    · intro name among taken
      rcases List.mem_append.mp taken with opened | reserved
      · exact (apart name among).2 opened
      · exact untaken name among reserved

theorem top_names_apart_iff_pairs :
    let owners : Builder := Builder.performAll ⟨⟨.map, .start⟩, .empty "CarOwners" (.map .weak)⟩
      [.addMapKey "car" "A car." true {}, .addMapKey "owner" "Its owner." false {}, .lock]
    let pairs : Builder := Builder.performAll ⟨⟨.oneToOne, .start⟩, .empty "CarPairs" .oneToOne⟩
      [.configurePairing (.builder owners) "car" none, .lock]
    pairs.isLocked = true ∧ ∃ source,
      SourceModule.ofConfiguration pairs.configuration {} "./keys" = .ok source ∧
      source.topNames pairs.configuration = ["WeakKeyComposer", "CarOwners", "CarPairs"] ∧
      source.Binds pairs.configuration ∧ (source.topNames pairs.configuration).Nodup ∧
      ∀ name ∈ source.topNames pairs.configuration, name ∉ globals := by
  intro owners pairs
  have created : Builder.create "CarOwners" .weakMap none =
      .ok ⟨⟨.map, .start⟩, .empty "CarOwners" (.map .weak)⟩ := rfl
  have base : owners.Declared :=
    (Builder.Declared.created created).performAll _ (by simp [Call.base?])
  have begun : Builder.create "CarPairs" .oneToOne none =
      .ok ⟨⟨.oneToOne, .start⟩, .empty "CarPairs" .oneToOne⟩ := rfl
  have declared : pairs.Declared :=
    (Builder.Declared.created begun).performAll _ (by simpa [Call.base?] using base)
  have locked : pairs.isLocked = true := by decide +kernel
  obtain ⟨source, generated, names, free⟩ : ∃ source,
      SourceModule.ofConfiguration pairs.configuration {} "./keys" = .ok source ∧
        source.topNames pairs.configuration = ["WeakKeyComposer", "CarOwners", "CarPairs"] ∧
        ∀ name ∈ source.classNames pairs.configuration,
          name ∉ source.helpers.names ∧ name ∉ openGlobals := by
    rw [exists_eq_ok]
    decide +kernel
  obtain ⟨binds, apart⟩ := top_names_apart_iff declared locked generated
  obtain ⟨distinct, untaken⟩ := apart.mpr free
  exact ⟨locked, source, generated, names, binds, distinct, untaken⟩

/-- A class may have the name of the hasher that it keeps, or of the global which freezes it. -/
theorem top_names_clash :
    let hashed : Builder := Builder.performAll ⟨⟨.map, .start⟩, .empty "KeyHasher" (.map .strong)⟩
      [.addMapKey "car" "A car." false {}, .addMapKey "owner" "Its owner." false {}, .lock]
    let object : Builder := Builder.performAll ⟨⟨.set, .start⟩, .empty "Object" (.set .strong)⟩
      [.addSetElement "car" "A car." false {}, .lock]
    (Builder.create "KeyHasher" .map none =
        .ok ⟨⟨.map, .start⟩, .empty "KeyHasher" (.map .strong)⟩ ∧
      hashed.isLocked = true ∧ ∃ source,
        SourceModule.ofConfiguration hashed.configuration {} "./keys" = .ok source ∧
        ¬ (source.topNames hashed.configuration).Nodup) ∧
    Builder.create "Object" .set none = .ok ⟨⟨.set, .start⟩, .empty "Object" (.set .strong)⟩ ∧
      object.isLocked = true ∧ ∃ source,
        SourceModule.ofConfiguration object.configuration {} "./keys" = .ok source ∧
        ∃ name ∈ source.topNames object.configuration, name ∈ globals := by
  intro hashed object
  refine ⟨⟨rfl, by decide +kernel, ?_⟩, rfl, by decide +kernel, ?_⟩
  · rw [exists_eq_ok]
    decide +kernel
  · rw [exists_eq_ok]
    decide +kernel

end CompositeKeys.Emission
