import CompositeKeys.Proofs.Collection.Order
import CompositeKeys.Proofs.Collection.WellFormed

/-! Builders that come about by calls. Every call that is accepted extends the declaration in the way
that the order of its shape foresees, so that what is locked in the end is well formed; a refused
call changes no configuration. -/

namespace CompositeKeys

/-- The builder that a call hands over as a base. -/
def Call.base? : Call → Option Builder
  | .configurePairing (.builder base) _ _ => some base
  | _ => none

namespace Builder

/-- Builders that come from calls alone, as do the bases handed over in those calls. -/
inductive Declared : Builder → Prop where
  | created {className outer inner builder}
      (created : create className outer inner = .ok builder) : Declared builder
  | called {builder call} (declared : Declared builder)
      (bases : ∀ base, call.base? = some base → Declared base) :
      Declared (builder.perform call).1

def performAll (builder : Builder) (calls : List Call) : Builder :=
  calls.foldl (fun builder call => (builder.perform call).1) builder

theorem Declared.performAll {builder : Builder} (declared : builder.Declared) (calls : List Call)
    (bases : ∀ call ∈ calls, ∀ base, call.base? = some base → base.Declared) :
    (builder.performAll calls).Declared := by
  induction calls generalizing builder with
  | nil => exact declared
  | cons call rest ih =>
    exact ih (declared.called (bases call (by simp)))
      fun later member => bases later (List.mem_cons_of_mem _ member)

theorem isLocked_iff {builder : Builder} : builder.isLocked = true ↔ builder.phase = .locked := by
  simp [isLocked, Lifecycle.isLocked, phase]

theorem isDead_iff {builder : Builder} : builder.isDead = true ↔ builder.phase = .errored := by
  simp [isDead, Lifecycle.isErrored, phase]

/-- All that a call can come to: nothing after the end, nothing to lock again, a refusal, or the
next phase with what the call makes of the configuration. -/
theorem perform_cases (builder : Builder) (call : Call) :
    (builder.phase = .errored ∧ builder.perform call = (builder, .error .dead)) ∨
    (builder.phase = .locked ∧ call = .lock ∧ builder.perform call = (builder, .ok ())) ∨
    (builder.phase ≠ .errored ∧ ∃ error, builder.perform call =
      ({ builder with lifecycle := builder.lifecycle.failed }, .error error)) ∨
    ∃ configuration, call.phase ∈ builder.lifecycle.order.successors builder.phase ∧
      builder.configuration.perform call = .ok configuration ∧
      builder.perform call =
        ({ lifecycle := { builder.lifecycle with phase := call.phase }, configuration }, .ok ()) := by
  by_cases again : call = .lock ∧ builder.isLocked = true
  · exact Or.inr (Or.inl ⟨isLocked_iff.mp again.2, again.1, by simp [perform, again]⟩)
  · have opened : builder.perform call =
        (let made := Lifecycle.guarded (attempt call) (builder.lifecycle, builder.configuration)
        ({ lifecycle := made.1.1, configuration := made.1.2 }, made.2)) := by
      simp only [perform, again, if_false]
    rw [opened]
    by_cases dead : builder.lifecycle.isErrored = true
    · exact Or.inl ⟨isDead_iff.mp dead, by simp [Lifecycle.guarded, dead]⟩
    · have alive : builder.phase ≠ .errored := fun errored => dead (isDead_iff.mpr errored)
      refine Or.inr (Or.inr ?_)
      cases outcome : attempt call (builder.lifecycle, builder.configuration) with
      | error error => exact Or.inl ⟨alive, error, by simp [Lifecycle.guarded, dead, outcome]⟩
      | ok next =>
        refine Or.inr ?_
        obtain ⟨advanced, entered, rest⟩ := bind_eq_ok.mp outcome
        obtain ⟨configuration, performed, same⟩ := bind_eq_ok.mp rest
        have result := pure_eq_ok.mp same
        simp only [Lifecycle.advance, Lifecycle.enter?] at entered
        by_cases follows : call.phase ∈ builder.lifecycle.order.successors builder.lifecycle.phase
        · simp only [follows, if_true] at entered
          cases entered
          refine ⟨configuration, follows, performed, ?_⟩
          simp [Lifecycle.guarded, dead, outcome, ← result]
        · simp only [follows, if_false] at entered
          split at entered <;> cases entered

end Builder

namespace Configuration

/-- What a configuration under way holds beside its texts: by the phase that the last call led to. -/
inductive Shaped : Phase → Configuration → Prop where
  | opened {phase own} (early : phase ∈ [.start, .overview, .importText])
      (empty : own.dimensions = []) (unvalued : own.value = none) : Shaped phase (.plain own)
  | keyed {own} (keys : own.dimensions ≠ [])
      (mapped : ∀ key ∈ own.dimensions, key.role.isMapKey = true) (unvalued : own.value = none) :
      Shaped .mapKeys (.plain own)
  | elements {own} (family : own.family.isSet = true) (elements : own.dimensions ≠ [])
      (members : ∀ element ∈ own.dimensions, element.role.isSetElement = true)
      (unvalued : own.value = none) : Shaped .setElements (.plain own)
  | layered {own} (family : own.family.isMapOfSets = true) (layered : own.Layered)
      (unvalued : own.value = none) : Shaped .setElements (.plain own)
  | valued {own} (keys : own.dimensions ≠ [])
      (mapped : ∀ key ∈ own.dimensions, key.role.isMapKey = true) :
      Shaped .valueType (.plain own)
  | paired {own link base} (empty : own.dimensions = []) (unvalued : own.value = none)
      (based : base.WellFormed) (baseFamily : base.family ∈ baseFamilies)
      (reserved : ∃ key ∈ base.own.dimensions, key.name = link.reservedKey ∧
        key.role = .mapKey .weak) :
      Shaped .pairing (.paired own link base)

theorem lifted_ok {result : Except ConfigurationError Configuration} {next : Configuration}
    (accepted : lifted result = .ok next) : result = .ok next := by
  cases result with
  | error error => cases accepted
  | ok configuration => exact congrArg Except.ok (Except.ok.inj accepted)

theorem declareKey_ok {own : Declaration} {name description : String} {role : Role} {allowed : Bool}
    {options : DimensionOptions} {next : Configuration} (consistent : own.Consistent)
    (strong : allowed = true → own.family.isWeak = true)
    (declared : (Configuration.plain own).declareKey name description role allowed options =
      .ok next) :
    ∃ dimension, dimension.role = role ∧ (role.isWeak = true → allowed = true) ∧
      ∃ extended : Declaration, next = .plain extended ∧ extended.Consistent ∧
        extended.family = own.family ∧ extended.value = own.value ∧
        extended.dimensions = own.dimensions ++ [dimension] := by
  obtain ⟨_, nameChecked, declared⟩ := bind_eq_ok.mp declared
  obtain ⟨named, reserved⟩ := checkDimensionName_ok nameChecked
  split at declared
  · cases declared
  next permitted =>
    obtain ⟨dimension, described, added⟩ := bind_eq_ok.mp declared
    obtain ⟨rfl, rfl, checked⟩ := Dimension.describe_ok described
    obtain ⟨extended, appended, rfl⟩ := map_eq_ok.mp (lifted_ok added)
    have allowance : dimension.role.isWeak = true → allowed = true := by simpa using permitted
    refine ⟨dimension, rfl, allowance, extended, rfl, ?_, ?_⟩
    · apply consistent.addDimension appended named checked
      · intro mapped
        exact reserved (by simpa [family, Configuration.own] using mapped)
      · intro held
        cases weak : dimension.role.isWeak with
        | false => rfl
        | true => exact (strong (allowance weak)).symm.trans held
    · obtain ⟨_, _, rfl⟩ := Declaration.addDimension_ok appended
      exact ⟨rfl, rfl, rfl⟩

end Configuration

theorem Declaration.Consistent.exists_role {own : Declaration} (consistent : own.Consistent)
    {role : Role} (listed : own.partition.names role ≠ []) :
    ∃ dimension ∈ own.dimensions, dimension.role = role := by
  rw [consistent.partitioned role] at listed
  obtain ⟨name, member⟩ := List.exists_mem_of_ne_nil _ listed
  obtain ⟨dimension, found, _⟩ := List.mem_map.mp member
  obtain ⟨present, same⟩ := List.mem_filter.mp found
  exact ⟨dimension, present, by simpa using same⟩

/-- A declaration without a pairing that has its keys, in a family that is not solo yet. -/
structure Declaration.Complete (own : Declaration) : Prop where
  general : own.family.isSolo = false
  unpaired : own.family.isOneToOne = false
  mapKeys : own.family.isMap = true →
    own.dimensions ≠ [] ∧ ∀ key ∈ own.dimensions, key.role.isMapKey = true
  setElements : own.family.isSet = true →
    own.dimensions ≠ [] ∧ ∀ element ∈ own.dimensions, element.role.isSetElement = true
  layered : own.family.isMapOfSets = true → own.Layered
  valued : own.value.isSome = true → own.family.isMap = true

namespace Configuration

/-- A complete declaration is well formed in a family of its kind that is solo when there is just
one key. -/
private theorem complete_wellFormed {own : Declaration} {family : Family}
    (consistent : own.Consistent) (complete : own.Complete)
    (weak : own.family.isWeak = true → ∃ key ∈ own.dimensions, key.role = own.family.weakRole)
    (solo : family.isMap = true ∨ family.isSet = true →
      (family.isSolo = true ↔ own.dimensions.length = 1))
    (isMap : family.isMap = own.family.isMap) (isSet : family.isSet = own.family.isSet)
    (isMapOfSets : family.isMapOfSets = own.family.isMapOfSets)
    (isOneToOne : family.isOneToOne = own.family.isOneToOne)
    (isWeak : family.isWeak = own.family.isWeak) : (plain { own with family }).WellFormed := by
  have role : family.weakRole = own.family.weakRole := by simp only [Family.weakRole, isSet]
  exact .plain { consistent with
    valueReserved := isSet ▸ consistent.valueReserved
    strong := isWeak ▸ consistent.strong
    mapKeys := isMap ▸ complete.mapKeys
    setElements := isSet ▸ complete.setElements
    solo := solo
    weak := isWeak ▸ role ▸ weak
    layered := isMapOfSets ▸ complete.layered
    unkeyed := by simp [isOneToOne, complete.unpaired]
    valued := isMap ▸ complete.valued } (isOneToOne.trans complete.unpaired)

theorem settle_ok {configuration next : Configuration} (settled : configuration.settle = .ok next) :
    (configuration.family.isWeak = true →
      configuration.own.partition.names configuration.family.weakRole ≠ []) ∧
    next = match configuration.family.solo? with
      | some solo =>
        if configuration.own.dimensions.length = 1 then configuration.setFamily solo
        else configuration
      | none => configuration := by
  have listed : configuration.own.partition.names configuration.family.weakRole =
      if configuration.family.isSet then configuration.own.partition.weakSetElements
      else configuration.own.partition.weakMapKeys := by
    cases isSet : configuration.family.isSet <;> simp [Family.weakRole, isSet, Partition.names]
  simp only [settle, ← listed] at settled
  split at settled
  · cases settled
  next held =>
    refine ⟨fun weak empty => held ⟨weak, empty⟩, ?_⟩
    cases found : configuration.family.solo? with
    | some solo => simpa only [found, Except.ok.injEq, eq_comm] using settled
    | none => simpa only [found, Except.ok.injEq, eq_comm] using settled

/-- Locking finds the weak key of a weak collection and gives one with a single key its solo
form. -/
theorem settle_wellFormed {own : Declaration} {next : Configuration} (consistent : own.Consistent)
    (complete : own.Complete) (settled : (plain own).settle = .ok next) : next.WellFormed := by
  obtain ⟨listed, rfl⟩ := settle_ok settled
  have weak := fun held => consistent.exists_role (listed held)
  split
  next solo found =>
    obtain ⟨isSolo, isMap, isSet, isMapOfSets, isOneToOne, isWeak⟩ := Family.solo?_some found
    split
    next single =>
      exact complete_wellFormed consistent complete weak (fun _ => iff_of_true isSolo single)
        isMap isSet isMapOfSets isOneToOne isWeak
    next several =>
      refine complete_wellFormed consistent complete weak (fun _ => ?_) rfl rfl rfl rfl rfl
      exact iff_of_false (by simp [complete.general]) several
  next none =>
    have other := Family.solo?_none complete.general none
    exact complete_wellFormed consistent complete weak (fun kind => absurd kind other)
      rfl rfl rfl rfl rfl

theorem settle_paired_wellFormed {own : Declaration} {link : Link} {base next : Configuration}
    (consistent : own.Consistent) (family : own.family.isOneToOne = true)
    (empty : own.dimensions = []) (unvalued : own.value = none) (based : base.WellFormed)
    (baseFamily : base.family ∈ baseFamilies)
    (reserved : ∃ key ∈ base.own.dimensions, key.name = link.reservedKey ∧ key.role = .mapKey .weak)
    (settled : (paired own link base).settle = .ok next) : next.WellFormed := by
  obtain ⟨isMap, isSet, isMapOfSets, isWeak, unsolo⟩ := Family.of_isOneToOne family
  obtain ⟨_, rfl⟩ := settle_ok settled
  simp only [Configuration.family, Configuration.own, unsolo]
  exact .paired { consistent with
    mapKeys := by simp [isMap]
    setElements := by simp [isSet]
    solo := by simp [isMap, isSet]
    weak := by simp [isWeak]
    layered := by simp [isMapOfSets]
    unkeyed := fun _ => empty
    valued := by simp [unvalued] } family based baseFamily reserved

end Configuration

/-- The invariant of builders. -/
inductive Builder.Sound : Builder → Prop where
  | underway {order phase configuration} (ordered : order = configuration.family.order)
      (consistent : configuration.own.Consistent) (general : configuration.family.isSolo = false)
      (shaped : configuration.Shaped phase) : Sound ⟨⟨order, phase⟩, configuration⟩
  | locked {order configuration} (formed : configuration.WellFormed) :
      Sound ⟨⟨order, .locked⟩, configuration⟩
  | dead {order configuration} : Sound ⟨⟨order, .errored⟩, configuration⟩

theorem Builder.Sound.wellFormed {builder : Builder} (sound : builder.Sound)
    (locked : builder.isLocked = true) : builder.configuration.WellFormed := by
  have phase := isLocked_iff.mp locked
  cases sound with
  | underway _ _ _ shaped =>
    cases phase
    cases shaped
    contradiction
  | locked formed => exact formed
  | dead => cases phase

namespace Configuration

/-- A base is a well-formed weak map, and the reserved key is one of its weak keys. -/
theorem pairOver_ok {own : Declaration} {choice : BaseChoice} {reservedKey : String}
    {modulePath : Option String} {next : Configuration}
    (sound : ∀ base, choice = .builder base → base.Sound)
    (paired : (plain own).pairOver choice reservedKey modulePath = .ok next) :
    ∃ link base, next = .paired own link base ∧ base.WellFormed ∧ base.family ∈ baseFamilies ∧
      ∃ key ∈ base.own.dimensions, key.name = link.reservedKey ∧ key.role = .mapKey .weak := by
  obtain ⟨⟨base, origin⟩, found, paired⟩ := bind_eq_ok.mp paired
  have based : base.WellFormed ∧ base.family ∈ baseFamilies := by
    cases choice with
    | wellKnown name => exact WellKnown.resolve_wellFormed found
    | builder builder =>
      simp only [baseOf] at found
      split at found
      · cases found
      next locked =>
        split at found
        next family =>
          cases found
          exact ⟨(sound builder rfl).wellFormed (by simpa [Builder.isLocked] using locked), family⟩
        · cases found
  dsimp only at paired
  split at paired
  next reserved =>
    obtain rfl := Except.ok.inj (lifted_ok paired)
    obtain ⟨key, some, role⟩ := (Option.any_eq_true _ _).mp reserved
    have member := List.mem_of_find?_eq_some some
    have name := List.find?_some some
    exact ⟨_, base, rfl, based.1, based.2, key, member, by simpa using name, by simpa using role⟩
  · cases paired

end Configuration

namespace Configuration
variable {phase : Phase} {configuration : Configuration}

private theorem Shaped.early (shaped : configuration.Shaped phase)
    (before : phase ∈ [.start, .overview, .importText]) :
    ∃ own, configuration = .plain own ∧ own.dimensions = [] ∧ own.value = none := by
  cases shaped with
  | opened _ empty unvalued => exact ⟨_, rfl, empty, unvalued⟩
  | keyed | elements | layered | valued | paired => simp at before

private theorem Shaped.mapping (shaped : configuration.Shaped phase)
    (before : phase ∈ [.start, .overview, .importText, .mapKeys]) :
    ∃ own, configuration = .plain own ∧ (∀ key ∈ own.dimensions, key.role.isMapKey = true) ∧
      own.value = none := by
  cases shaped with
  | opened _ empty unvalued => exact ⟨_, rfl, by simp [empty], unvalued⟩
  | keyed _ mapped unvalued => exact ⟨_, rfl, mapped, unvalued⟩
  | elements | layered | valued | paired => simp at before

private theorem Shaped.collecting (shaped : configuration.Shaped phase)
    (family : configuration.family.isSet = true)
    (before : phase ∈ [.start, .overview, .importText, .setElements]) :
    ∃ own, configuration = .plain own ∧
      (∀ element ∈ own.dimensions, element.role.isSetElement = true) ∧ own.value = none := by
  cases shaped with
  | opened _ empty unvalued => exact ⟨_, rfl, by simp [empty], unvalued⟩
  | elements _ _ members unvalued => exact ⟨_, rfl, members, unvalued⟩
  | layered other => exact nomatch (Family.of_isSet family).2.1.symm.trans other
  | keyed | valued | paired => simp at before

private theorem Shaped.layering (shaped : configuration.Shaped phase)
    (family : configuration.family.isMapOfSets = true) (before : phase ∈ [.mapKeys, .setElements]) :
    ∃ own keys elements, configuration = .plain own ∧ own.dimensions = keys ++ elements ∧
      keys ≠ [] ∧ (∀ key ∈ keys, key.role.isMapKey = true) ∧
      (∀ element ∈ elements, element.role = .setElement .strong) ∧ own.value = none := by
  cases shaped with
  | keyed keys mapped unvalued =>
    exact ⟨_, _, [], rfl, (List.append_nil _).symm, keys, mapped, by simp, unvalued⟩
  | layered _ layers unvalued =>
    obtain ⟨keys, elements, split, present, _, mapped, strong⟩ := layers
    exact ⟨_, keys, elements, rfl, split, present, mapped, strong, unvalued⟩
  | elements other => exact nomatch (Family.of_isSet other).2.1.symm.trans family
  | opened early => rcases List.mem_cons.mp before with rfl | single <;> simp_all
  | valued | paired => simp at before

end Configuration

namespace Builder
variable {order : Order} {phase : Phase} {configuration next : Configuration}

private theorem Sound.text {own extended : Declaration} {text : Phase}
    (ordered : order = own.family.order) (consistent : own.Consistent)
    (general : own.family.isSolo = false) (empty : own.dimensions = []) (unvalued : own.value = none)
    (early : text ∈ [.start, .overview, .importText])
    (overview : ∀ text ∈ extended.overview, LegalText text)
    (importText : ∀ text ∈ extended.importText, Filled text)
    (same : extended.className = own.className ∧ extended.family = own.family ∧
      extended.dimensions = own.dimensions ∧ extended.partition = own.partition ∧
      extended.value = own.value) : Sound ⟨⟨order, text⟩, .plain extended⟩ := by
  obtain ⟨className, family, _, _, dimensions, partition, value⟩ := extended
  obtain ⟨rfl, rfl, rfl, rfl, rfl⟩ := same
  exact .underway ordered { consistent with overview, importText } general
    (.opened early empty unvalued)

private theorem Sound.mapKey {name description : String} {holdWeak : Bool} {options : DimensionOptions}
    (ordered : order = configuration.family.order) (consistent : configuration.own.Consistent)
    (general : configuration.family.isSolo = false) (shaped : configuration.Shaped phase)
    (follows : .mapKeys ∈ order.successors phase)
    (performed : configuration.perform (.addMapKey name description holdWeak options) = .ok next) :
    Sound ⟨⟨order, .mapKeys⟩, next⟩ := by
  obtain ⟨_, before⟩ := Order.before_mapKeys follows
  obtain ⟨own, rfl, mapped, unvalued⟩ := shaped.mapping before
  obtain ⟨key, role, _, extended, rfl, kept, family, value, dimensions⟩ :=
    Configuration.declareKey_ok consistent Family.allowsWeakMapKeys_isWeak performed
  have isKey : key.role.isMapKey = true := by simp [role, Role.ofKey, Role.isMapKey]
  refine .underway (ordered.trans (congrArg Family.order family.symm)) kept
    ((congrArg Family.isSolo family).trans general) (.keyed ?_ ?_ (value.trans unvalued))
  · simp [dimensions]
  · simpa [dimensions, or_imp, forall_and] using ⟨mapped, isKey⟩

private theorem Sound.setElement {name description : String} {holdWeak : Bool}
    {options : DimensionOptions} (ordered : order = configuration.family.order)
    (consistent : configuration.own.Consistent) (general : configuration.family.isSolo = false)
    (shaped : configuration.Shaped phase) (follows : .setElements ∈ order.successors phase)
    (performed : configuration.perform (.addSetElement name description holdWeak options) =
      .ok next) : Sound ⟨⟨order, .setElements⟩, next⟩ := by
  have allowed := fun weak => (@Family.allowsWeakSetElements_isWeak configuration.family weak).1
  rcases Order.before_setElements follows with ⟨rfl, before⟩ | ⟨rfl, before⟩
  · have isSet := Family.order_eq_set.mp ordered.symm
    obtain ⟨own, rfl, members, unvalued⟩ := shaped.collecting isSet before
    obtain ⟨element, role, _, extended, rfl, kept, family, value, dimensions⟩ :=
      Configuration.declareKey_ok consistent allowed performed
    have isElement : element.role.isSetElement = true := by
      simp [role, Role.ofKey, Role.isSetElement]
    refine .underway (ordered.trans (congrArg Family.order family.symm)) kept
      ((congrArg Family.isSolo family).trans general)
      (.elements ((congrArg Family.isSet family).trans isSet) ?_ ?_ (value.trans unvalued))
    · simp [dimensions]
    · simpa [dimensions, or_imp, forall_and] using ⟨members, isElement⟩
  · have isMapOfSets := Family.order_eq_mapOfSets.mp ordered.symm
    obtain ⟨own, keys, elements, rfl, split, present, mapped, strong, unvalued⟩ :=
      shaped.layering isMapOfSets before
    obtain ⟨element, role, weak, extended, rfl, kept, family, value, dimensions⟩ :=
      Configuration.declareKey_ok consistent allowed performed
    have isStrong : element.role = .setElement .strong := by
      cases holdWeak with
      | false => exact role
      | true =>
        have isSet := (Family.allowsWeakSetElements_isWeak (weak rfl)).2
        exact nomatch (Family.of_isSet isSet).2.1.symm.trans isMapOfSets
    refine .underway (ordered.trans (congrArg Family.order family.symm)) kept
      ((congrArg Family.isSolo family).trans general)
      (.layered ((congrArg Family.isMapOfSets family).trans isMapOfSets) ?_ (value.trans unvalued))
    have added : extended.dimensions = keys ++ (elements ++ [element]) := by
      simp [dimensions, split, Configuration.own]
    refine ⟨keys, elements ++ [element], added, present, by simp, mapped, ?_⟩
    simpa [or_imp, forall_and] using ⟨strong, isStrong⟩

private theorem lock_wellFormed (ordered : order = configuration.family.order)
    (consistent : configuration.own.Consistent) (general : configuration.family.isSolo = false)
    (shaped : configuration.Shaped phase) (follows : .locked ∈ order.successors phase)
    (performed : configuration.settle = .ok next) : next.WellFormed := by
  rcases Order.before_locked follows with ⟨rfl, before⟩ | ⟨kind, rfl⟩ | ⟨rfl, rfl⟩
  · have isMap := Family.order_eq_map.mp ordered.symm
    obtain ⟨isSet, isMapOfSets, isOneToOne⟩ := Family.of_isMap isMap
    have complete : ∀ own, configuration = .plain own → own.dimensions ≠ [] →
        (∀ key ∈ own.dimensions, key.role.isMapKey = true) → own.Complete := by
      rintro own rfl keys mapped
      simp only [Configuration.family, Configuration.own] at isSet isMapOfSets
      exact {
        general
        unpaired := isOneToOne
        mapKeys := fun _ => ⟨keys, mapped⟩
        setElements := by simp [isSet]
        layered := by simp [isMapOfSets]
        valued := fun _ => isMap }
    cases shaped with
    | keyed keys mapped | valued keys mapped =>
      exact Configuration.settle_wellFormed consistent (complete _ rfl keys mapped) performed
    | opened early => rcases List.mem_cons.mp before with rfl | single <;> simp_all
    | elements | layered | paired => simp at before
  · cases shaped with
    | opened early => simp at early
    | elements isSet elements members unvalued =>
      obtain ⟨isMap, isMapOfSets, isOneToOne⟩ := Family.of_isSet isSet
      exact Configuration.settle_wellFormed consistent {
        general
        unpaired := isOneToOne
        mapKeys := by simp [Configuration.own, isMap]
        setElements := fun _ => ⟨elements, members⟩
        layered := by simp [Configuration.own, isMapOfSets]
        valued := by simp [Configuration.own, unvalued] } performed
    | layered isMapOfSets layers unvalued =>
      obtain ⟨isMap, isSet, isOneToOne⟩ := Family.of_isMapOfSets isMapOfSets
      exact Configuration.settle_wellFormed consistent {
        general
        unpaired := isOneToOne
        mapKeys := by simp [Configuration.own, isMap]
        setElements := by simp [Configuration.own, isSet]
        layered := fun _ => layers
        valued := by simp [Configuration.own, unvalued] } performed
  · cases shaped with
    | opened early => simp at early
    | paired empty unvalued based baseFamily reserved =>
      have isOneToOne := Family.order_eq_oneToOne.mp ordered.symm
      exact Configuration.settle_paired_wellFormed consistent isOneToOne empty unvalued based
        baseFamily reserved performed

/-- A call that is accepted in its turn keeps the invariant. -/
theorem Sound.advance {call : Call} (sound : Sound ⟨⟨order, phase⟩, configuration⟩)
    (bases : ∀ base, call.base? = some base → base.Sound)
    (follows : call.phase ∈ order.successors phase)
    (performed : configuration.perform call = .ok next) :
    Sound ⟨⟨order, call.phase⟩, next⟩ := by
  cases sound with
  | locked => exact nomatch follows
  | dead => exact nomatch follows
  | underway ordered consistent general shaped =>
    cases call with
    | setOverview text =>
      obtain ⟨own, rfl, empty, unvalued⟩ := shaped.early (Order.before_texts (Or.inl rfl) follows)
      obtain ⟨_, checked, accepted⟩ := bind_eq_ok.mp performed
      obtain ⟨extended, stored, rfl⟩ := map_eq_ok.mp (Configuration.lifted_ok accepted)
      obtain rfl := (Declaration.setOverview_ok stored).2
      refine .text ordered consistent general empty unvalued (by simp [Call.phase]) ?_
        consistent.importText ⟨rfl, rfl, rfl, rfl, rfl⟩
      rintro _ ⟨⟩
      exact checkText_ok_iff.mp checked
    | setImportText text =>
      obtain ⟨own, rfl, empty, unvalued⟩ := shaped.early (Order.before_texts (Or.inr rfl) follows)
      simp only [Configuration.perform] at performed
      split at performed
      · cases performed
      next filled =>
        obtain ⟨extended, stored, rfl⟩ := map_eq_ok.mp (Configuration.lifted_ok performed)
        obtain rfl := (Declaration.setImportText_ok stored).2
        refine .text ordered consistent general empty unvalued (by simp [Call.phase])
          consistent.overview ?_ ⟨rfl, rfl, rfl, rfl, rfl⟩
        rintro _ ⟨⟩
        exact Classical.not_not.mp fun blank => filled (isBlankText_iff.mpr blank)
    | addMapKey => exact .mapKey ordered consistent general shaped follows performed
    | addSetElement => exact .setElement ordered consistent general shaped follows performed
    | setValue description options =>
      obtain ⟨rfl, rfl⟩ := Order.before_valueType follows
      cases shaped with
      | opened early => simp at early
      | keyed keys mapped unvalued =>
        obtain ⟨value, described, accepted⟩ := bind_eq_ok.mp performed
        obtain ⟨named, role, checked⟩ := Dimension.describe_ok described
        obtain ⟨extended, stored, rfl⟩ := map_eq_ok.mp (Configuration.lifted_ok accepted)
        have kept := consistent.setValue stored named role checked
        obtain ⟨_, rfl⟩ := Declaration.setValue_ok stored
        exact .underway ordered kept general (.valued keys mapped)
    | configurePairing choice reservedKey modulePath =>
      obtain ⟨own, rfl, empty, unvalued⟩ := shaped.early (Order.before_pairing follows).2
      have sound : ∀ base, choice = .builder base → base.Sound := by
        rintro base rfl
        exact bases base rfl
      obtain ⟨link, base, rfl, based, baseFamily, reserved⟩ :=
        Configuration.pairOver_ok sound performed
      exact .underway ordered consistent general (.paired empty unvalued based baseFamily reserved)
    | lock => exact .locked (lock_wellFormed ordered consistent general shaped follows performed)

theorem Sound.create {className : String} {outer : OuterShape} {inner : Option InnerShape}
    {builder : Builder} (created : create className outer inner = .ok builder) : builder.Sound := by
  obtain ⟨_, named, created⟩ := bind_eq_ok.mp created
  obtain ⟨family, shaped, same⟩ := bind_eq_ok.mp created
  obtain rfl := pure_eq_ok.mp same
  have general : family.isSolo = false := by
    unfold Family.ofShapes at shaped
    split at shaped <;> cases shaped <;> rfl
  exact .underway rfl (Declaration.consistent_empty family (checkClassName_ok named).1) general
    (.opened (by simp) rfl rfl)

theorem Sound.perform {builder : Builder} (sound : builder.Sound) (call : Call)
    (bases : ∀ base, call.base? = some base → base.Sound) : (builder.perform call).1.Sound := by
  rcases builder.perform_cases call with
    ⟨_, same⟩ | ⟨_, _, same⟩ | ⟨_, error, same⟩ | ⟨next, follows, performed, same⟩
  · rw [same]
    exact sound
  · rw [same]
    exact sound
  · rw [same]
    unfold Lifecycle.failed
    split
    · exact sound
    · exact .dead
  · rw [same]
    exact sound.advance bases follows performed

theorem Declared.sound {builder : Builder} (declared : builder.Declared) : builder.Sound := by
  induction declared with
  | created created => exact .create created
  | called _ _ ih bases => exact ih.perform _ bases

/-- Whatever is declared under a class name with a pair of shapes, by any sequence of calls, accepted
or refused, is well formed once it has been locked. -/
theorem wellFormed_of_locked {className : String} {outer : OuterShape} {inner : Option InnerShape}
    {builder : Builder} (calls : List Call) (created : create className outer inner = .ok builder)
    (bases : ∀ call ∈ calls, ∀ base, call.base? = some base → base.Declared)
    (locked : (builder.performAll calls).isLocked = true) :
    (builder.performAll calls).configuration.WellFormed :=
  ((Declared.created created).performAll calls bases).sound.wellFormed locked

theorem wellFormed_of_locked_pairs :
    let owners : Builder := performAll ⟨⟨.map, .start⟩, .empty "CarOwners" (.map .weak)⟩
      [.addMapKey "car" "The car." true {}, .addMapKey "owner" "The owner." false {}, .lock]
    let calls : List Call :=
      [.configurePairing (.builder owners) "car" none, .lock, .setOverview "Too late."]
    let pairs : Builder := ⟨⟨.oneToOne, .start⟩, .empty "CarPairs" .oneToOne⟩
    create "CarPairs" .oneToOne none = .ok pairs ∧ owners.Declared ∧
      (pairs.performAll calls).isLocked = true ∧
      (pairs.performAll calls).configuration.WellFormed := by
  intro owners calls pairs
  have created : create "CarOwners" .weakMap none =
      .ok ⟨⟨.map, .start⟩, .empty "CarOwners" (.map .weak)⟩ := rfl
  have declared : owners.Declared := (Declared.created created).performAll _ (by simp [Call.base?])
  have paired : create "CarPairs" .oneToOne none = .ok pairs := rfl
  have locked : (pairs.performAll calls).isLocked = true := by decide
  refine ⟨paired, declared, locked, wellFormed_of_locked calls paired ?_ locked⟩
  intro call member base handed
  simp only [calls, List.mem_cons, List.not_mem_nil, or_false] at member
  rcases member with rfl | rfl | rfl
  · exact Option.some.inj handed ▸ declared
  · cases handed
  · cases handed

end Builder

end CompositeKeys
