import CompositeKeys.Proofs.Collection.Declared
import CompositeKeys.Proofs.Collection.Representation

/-! Configurations that come about by operations in place, and the calls of a builder as such
operations: whatever a builder declares has been built in that way, and a pairing that it has
accepted stays as it is through all later calls. -/

namespace CompositeKeys

namespace Configuration

/-- Configurations that come from operations alone, as do the bases handed over in those
operations. -/
inductive Built : Configuration → Prop where
  | empty (className : String) (family : Family) : Built (.empty className family)
  | edited {configuration edit} (built : Built configuration)
      (bases : ∀ link base, edit = .pairing link base → Built base) :
      Built (configuration.edit edit).1

variable {configuration next : Configuration} {edit : Edit}

theorem edit_of_made (made : configuration.edit? edit = .ok next) :
    (configuration.edit edit).1 = next := by
  rw [edit_eq, made]

/-- Either an operation is accepted or it does nothing. -/
theorem edit_made_or_same (configuration : Configuration) (edit : Edit) :
    configuration.edit? edit = .ok (configuration.edit edit).1 ∨
      (configuration.edit edit).1 = configuration := by
  cases made : configuration.edit? edit with
  | ok next => exact .inl (congrArg Except.ok (edit_of_made made).symm)
  | error error =>
    right
    rw [edit_eq, made]

theorem Built.made (built : configuration.Built) (made : configuration.edit? edit = .ok next)
    (bases : ∀ link base, edit = .pairing link base → base.Built) : next.Built :=
  edit_of_made made ▸ built.edited bases

theorem Built.faithful (built : configuration.Built) : configuration.own.Faithful := by
  induction built with
  | empty className family => exact Declaration.faithful_empty className family
  | @edited configuration edit _ _ faithful =>
    rcases edit_made_or_same configuration edit with made | same
    · exact own_faithful faithful made
    · exact same.symm ▸ faithful

theorem pairing?_of_pairing {link : Link} {base : Configuration}
    (made : configuration.edit? (.pairing link base) = .ok next) :
    next.pairing? = some (link, base) := by
  cases configuration with
  | plain =>
    cases made
    rfl
  | paired => cases made

/-- Only the operation for it enters a base. -/
theorem pairing?_of_made (made : configuration.edit? edit = .ok next) :
    next.pairing? = configuration.pairing? ∨
      ∃ link base, edit = .pairing link base ∧ next.pairing? = some (link, base) := by
  cases edit with
  | family family =>
    cases made
    exact .inl (pairing?_withOwn _)
  | overview text | importText text | dimension key | value value =>
    obtain ⟨own, -, rfl⟩ := map_eq_ok.mp made
    exact .inl (pairing?_withOwn own)
  | pairing link base => exact .inr ⟨link, base, rfl, pairing?_of_pairing made⟩

theorem Built.base (built : configuration.Built) {link : Link} {base : Configuration}
    (paired : configuration.pairing? = some (link, base)) : base.Built := by
  induction built with
  | empty => cases paired
  | @edited configuration edit _ bases based =>
    rcases edit_made_or_same configuration edit with made | same
    · rcases pairing?_of_made made with kept | ⟨link', base', rfl, entered⟩
      · exact based (kept.symm.trans paired)
      · obtain ⟨rfl, rfl⟩ := Prod.mk.inj (Option.some.inj (entered.symm.trans paired))
        exact bases _ _ rfl
    · exact based (same ▸ paired)

/-- An accepted pairing is entered as it has been asked for. -/
theorem perform_configurePairing {choice : BaseChoice} {reservedKey : String}
    {modulePath : Option String}
    (performed : configuration.perform (.configurePairing choice reservedKey modulePath) = .ok next) :
    ∃ base origin, baseOf choice = .ok (base, origin) ∧
      configuration.edit? (.pairing { reservedKey, origin, modulePath } base) = .ok next := by
  obtain ⟨⟨base, origin⟩, found, paired⟩ := bind_eq_ok.mp performed
  dsimp only at paired
  split at paired
  · exact ⟨base, origin, found, lifted_ok paired⟩
  · cases paired

/-- What an accepted call does to a configuration is one operation at most. -/
theorem perform_edit {call : Call} (performed : configuration.perform call = .ok next) :
    next = configuration ∨ ∃ edit, configuration.edit? edit = .ok next ∧
      ∀ link base, edit = .pairing link base → ∃ choice,
        baseOf choice = .ok (base, link.origin) ∧
          call = .configurePairing choice link.reservedKey link.modulePath := by
  cases call with
  | setOverview text =>
    obtain ⟨_, _, accepted⟩ := bind_eq_ok.mp performed
    exact .inr ⟨.overview text, lifted_ok accepted, by simp⟩
  | setImportText text =>
    simp only [perform] at performed
    split at performed
    · cases performed
    · exact .inr ⟨.importText text, lifted_ok performed, by simp⟩
  | addMapKey name description holdWeak options | addSetElement name description holdWeak options =>
    obtain ⟨_, _, declared⟩ := bind_eq_ok.mp performed
    split at declared
    · cases declared
    · obtain ⟨key, _, added⟩ := bind_eq_ok.mp declared
      exact .inr ⟨.dimension key, lifted_ok added, by simp⟩
  | setValue description options =>
    obtain ⟨value, _, accepted⟩ := bind_eq_ok.mp performed
    exact .inr ⟨.value value, lifted_ok accepted, by simp⟩
  | configurePairing choice reservedKey modulePath =>
    obtain ⟨base, origin, found, entered⟩ := perform_configurePairing performed
    refine .inr ⟨.pairing { reservedKey, origin, modulePath } base, entered, ?_⟩
    rintro _ _ ⟨⟩
    exact ⟨choice, found, rfl⟩
  | lock =>
    obtain ⟨-, rfl⟩ := settle_ok performed
    cases configuration.family.solo? with
    | none => exact .inl rfl
    | some solo =>
      dsimp only
      split
      · exact .inr ⟨.family solo, rfl, by simp⟩
      · exact .inl rfl

end Configuration

namespace WellKnown

theorem declaration_built {className : String} {family : Family} {keys : List Dimension}
    {configuration : Configuration}
    (declared : declaration className family keys = .ok configuration) : configuration.Built := by
  obtain ⟨keyed, entered, valued⟩ := bind_eq_ok.mp declared
  have built : ∀ {start : Configuration}, start.Built →
      keys.foldlM Configuration.addDimension start = .ok keyed → keyed.Built := by
    clear declared entered valued
    induction keys with
    | nil =>
      intro start built entered
      obtain rfl := pure_eq_ok.mp entered
      exact built
    | cons key keys ih =>
      intro start built entered
      obtain ⟨next, first, rest⟩ := bind_eq_ok.mp entered
      have made : start.edit? (.dimension key) = .ok next := first
      exact ih (built.made made (by simp)) rest
  have made : keyed.edit? (.value _) = .ok configuration := valued
  exact (built (.empty className family) entered).made made (by simp)

theorem resolve_built {name : String} {result : Configuration × Origin}
    (resolved : resolve name = .ok result) : result.1.Built := by
  have of : ∀ {name origin family keys}, resolve.of name origin family keys = .ok result →
      result.1.Built := by
    intro name origin family keys found
    unfold resolve.of at found
    split at found
    next configuration declared =>
      obtain rfl := Except.ok.inj found
      exact declaration_built declared
    · cases found
  unfold resolve at resolved
  split at resolved
  · exact of resolved
  · exact of resolved
  · exact of resolved
  · cases resolved

end WellKnown

/-- A base is a well-known one or what another builder has declared. -/
theorem Configuration.baseOf_built {choice : BaseChoice} {base : Configuration} {origin : Origin}
    (built : ∀ builder, choice = .builder builder → builder.configuration.Built)
    (found : baseOf choice = .ok (base, origin)) : base.Built := by
  cases choice with
  | wellKnown name => exact WellKnown.resolve_built found
  | builder builder =>
    simp only [baseOf] at found
    split at found
    · cases found
    · split at found
      · cases found
        exact built builder rfl
      · cases found

namespace Builder

/-- What a call makes of the configuration of a builder: an accepted call makes what it is to make
of it, and any other call leaves it. -/
theorem perform_configuration (builder : Builder) (call : Call) :
    builder.configuration.perform call = .ok (builder.perform call).1.configuration ∨
      (builder.perform call).1.configuration = builder.configuration := by
  rcases builder.perform_cases call with
    ⟨_, same⟩ | ⟨_, _, same⟩ | ⟨_, _, same⟩ | ⟨_, _, performed, same⟩
  · exact .inr (by rw [same])
  · exact .inr (by rw [same])
  · exact .inr (by rw [same])
  · exact .inl (by rw [same, performed])

/-- A call that is accepted, and does not merely lock again what is locked, has come in its turn. -/
theorem perform_accepted {builder : Builder} {call : Call} (new : call ≠ .lock)
    (accepted : (builder.perform call).2 = .ok ()) :
    builder.configuration.perform call = .ok (builder.perform call).1.configuration ∧
      (builder.perform call).1.phase = call.phase := by
  rcases builder.perform_cases call with
    ⟨_, same⟩ | ⟨_, again, _⟩ | ⟨_, _, same⟩ | ⟨_, _, performed, same⟩
  · rw [same] at accepted
    cases accepted
  · exact absurd again new
  · rw [same] at accepted
    cases accepted
  · rw [same]
    exact ⟨performed, rfl⟩

/-- Whatever a builder declares comes from operations on configurations. -/
theorem Declared.built {builder : Builder} (declared : builder.Declared) :
    builder.configuration.Built := by
  induction declared with
  | created created =>
    obtain ⟨_, _, created⟩ := bind_eq_ok.mp created
    obtain ⟨family, _, created⟩ := bind_eq_ok.mp created
    obtain rfl := pure_eq_ok.mp created
    exact .empty _ family
  | @called builder call _ _ built handed =>
    rcases builder.perform_configuration call with performed | same
    · rcases Configuration.perform_edit performed with same | ⟨edit, made, paired⟩
      · exact same.symm ▸ built
      · refine built.made made fun link base entered => ?_
        obtain ⟨choice, found, same⟩ := paired link base entered
        refine Configuration.baseOf_built (fun other chosen => ?_) found
        apply handed other
        rw [same, chosen]
        rfl
    · exact same.symm ▸ built

/-- What has been written once stays as it is through all calls. -/
theorem keeps_performAll (builder : Builder) (calls : List Call) :
    builder.configuration.Keeps (builder.performAll calls).configuration := by
  induction calls generalizing builder with
  | nil => exact .refl _
  | cons call rest ih =>
    refine Configuration.Keeps.trans ?_ (ih (builder.perform call).1)
    rcases builder.perform_configuration call with performed | same
    · rcases Configuration.perform_edit performed with same | ⟨edit, made, -⟩
      · exact same.symm ▸ .refl _
      · exact Configuration.keeps_edit? made
    · exact same.symm ▸ .refl _

end Builder

/-- What a builder has declared and locked. -/
def Configuration.Locked (configuration : Configuration) : Prop :=
  ∃ builder : Builder, builder.Declared ∧ builder.isLocked = true ∧
    builder.configuration = configuration

theorem Configuration.Locked.wellFormed {configuration : Configuration}
    (locked : configuration.Locked) : configuration.WellFormed := by
  obtain ⟨builder, declared, done, rfl⟩ := locked
  exact declared.sound.wellFormed done

end CompositeKeys
