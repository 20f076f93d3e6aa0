import CompositeKeys.Proofs.Collection.Declared

/-! The names of classes, which no call changes once a declaration has begun. -/

namespace CompositeKeys

namespace Configuration

/-- No class has the name of a built-in collection, unless it is that collection. -/
def Titled : Configuration → Prop
  | .plain own => own.className ∉ reservedClassNames
  | .paired own link base =>
    own.className ∉ reservedClassNames ∧ (link.origin ≠ .builtinWeakMap → base.Titled)

/-- What a collection is paired over is not paired itself. -/
theorem WellFormed.plain_of_base {base : Configuration} (formed : base.WellFormed)
    (baseFamily : base.family ∈ baseFamilies) : ∃ own, base = .plain own := by
  cases formed with
  | plain => exact ⟨_, rfl⟩
  | @paired own link _ _ paired =>
    have family : own.family = .map .weak ∨ own.family = .soloMap .weak := by
      simpa [baseFamilies, family, Configuration.own] using baseFamily
    rcases family with same | same <;> simp [same, Family.isOneToOne] at paired

section Operations
variable {configuration next : Configuration}

theorem Titled.own (titled : configuration.Titled) :
    configuration.className ∉ reservedClassNames := by
  cases configuration with
  | plain own => exact titled
  | paired own link base => exact titled.1

theorem Titled.withOwn {own : Declaration} (titled : configuration.Titled)
    (same : own.className = configuration.className) : (configuration.withOwn own).Titled := by
  have untaken : own.className ∉ reservedClassNames := same ▸ titled.own
  cases configuration with
  | plain previous => exact untaken
  | paired previous link base => exact ⟨untaken, titled.2⟩

theorem Titled.declaring {operation : Declaration → Except ConfigurationError Declaration}
    (titled : configuration.Titled)
    (named : ∀ own next, operation own = .ok next → next.className = own.className)
    (declared : configuration.declaring operation = .ok next) : next.Titled := by
  obtain ⟨own, operated, rfl⟩ := map_eq_ok.mp declared
  exact titled.withOwn (named _ _ operated)

theorem Titled.addDimension {dimension : Dimension} (titled : configuration.Titled)
    (added : configuration.addDimension dimension = .ok next) : next.Titled := by
  refine titled.declaring (fun own next added => ?_) added
  obtain ⟨_, _, rfl⟩ := Declaration.addDimension_ok added
  rfl

theorem Titled.setValue {value : Dimension} (titled : configuration.Titled)
    (stored : configuration.setValue value = .ok next) : next.Titled := by
  refine titled.declaring (fun own next stored => ?_) stored
  obtain ⟨_, rfl⟩ := Declaration.setValue_ok stored
  rfl

theorem Titled.declareKey {name description : String} {role : Role} {allowed : Bool}
    {options : DimensionOptions} (titled : configuration.Titled)
    (declared : configuration.declareKey name description role allowed options = .ok next) :
    next.Titled := by
  obtain ⟨_, _, declared⟩ := bind_eq_ok.mp declared
  obtain ⟨_, declared⟩ := next_of_refused declared
  obtain ⟨dimension, _, added⟩ := bind_eq_ok.mp declared
  exact titled.addDimension (lifted_ok added)

theorem Titled.keyed {keys : List Dimension} (titled : configuration.Titled)
    (keyed : keys.foldlM Configuration.addDimension configuration = .ok next) : next.Titled := by
  induction keys generalizing configuration with
  | nil =>
    obtain rfl := pure_eq_ok.mp keyed
    exact titled
  | cons key keys ih =>
    obtain ⟨_, first, rest⟩ := bind_eq_ok.mp keyed
    exact ih (titled.addDimension first) rest

theorem titled_of_named {name : String} {origin : Origin} {family : Family} {keys : List Dimension}
    {result : Configuration × Origin} (untaken : name ∉ reservedClassNames)
    (found : WellKnown.resolve.of name origin family keys = .ok result) : result.1.Titled := by
  unfold WellKnown.resolve.of at found
  split at found
  next base declared =>
    obtain rfl := Except.ok.inj found
    obtain ⟨_, keyed, valued⟩ := bind_eq_ok.mp declared
    have begun : (empty name family).Titled := untaken
    exact (begun.keyed keyed).setValue valued
  · cases found

/-- Of the bases that can be named, only the built-in one has a name that is taken. -/
theorem titled_of_resolve {name : String} {result : Configuration × Origin}
    (resolved : WellKnown.resolve name = .ok result) (other : result.2 ≠ .builtinWeakMap) :
    result.1.Titled := by
  unfold WellKnown.resolve at resolved
  split at resolved
  · cases resolved
    exact absurd rfl other
  · exact titled_of_named (by decide) resolved
  · exact titled_of_named (by decide) resolved
  · cases resolved

theorem Titled.pairOver {choice : BaseChoice} {reservedKey : String} {modulePath : Option String}
    (titled : configuration.Titled)
    (bases : ∀ base, choice = .builder base → base.configuration.Titled)
    (paired : configuration.pairOver choice reservedKey modulePath = .ok next) : next.Titled := by
  obtain ⟨⟨base, origin⟩, found, paired⟩ := bind_eq_ok.mp paired
  obtain ⟨_, paired⟩ := next_of_required paired
  have based : origin ≠ .builtinWeakMap → base.Titled := by
    intro other
    cases choice with
    | wellKnown name => exact titled_of_resolve found other
    | builder builder =>
      simp only [baseOf] at found
      split at found
      · cases found
      · split at found
        · cases found
          exact bases builder rfl
        · cases found
  cases configuration with
  | plain own =>
    cases lifted_ok paired
    exact ⟨titled, based⟩
  | paired own link previous => cases lifted_ok paired

theorem Titled.perform {call : Call} (titled : configuration.Titled)
    (bases : ∀ base, call.base? = some base → base.configuration.Titled)
    (performed : configuration.perform call = .ok next) : next.Titled := by
  cases call with
  | setOverview text =>
    obtain ⟨_, _, stored⟩ := bind_eq_ok.mp performed
    refine titled.declaring (fun own next stored => ?_) (lifted_ok stored)
    obtain ⟨_, rfl⟩ := Declaration.setOverview_ok stored
    rfl
  | setImportText text =>
    simp only [Configuration.perform] at performed
    split at performed
    · cases performed
    · refine titled.declaring (fun own next stored => ?_) (lifted_ok performed)
      obtain ⟨_, rfl⟩ := Declaration.setImportText_ok stored
      rfl
  | addMapKey name description holdWeak options => exact titled.declareKey performed
  | addSetElement name description holdWeak options => exact titled.declareKey performed
  | setValue description options =>
    obtain ⟨value, _, stored⟩ := bind_eq_ok.mp performed
    exact titled.setValue (lifted_ok stored)
  | configurePairing choice reservedKey modulePath =>
    refine titled.pairOver (fun base same => ?_) performed
    exact bases base (by rw [same]; rfl)
  | lock =>
    obtain ⟨_, rfl⟩ := settle_ok performed
    split
    · split
      · exact titled.withOwn rfl
      · exact titled
    · exact titled

end Operations

end Configuration

theorem Builder.Declared.titled {builder : Builder} (declared : builder.Declared) :
    builder.configuration.Titled := by
  induction declared with
  | created created =>
    obtain ⟨_, named, created⟩ := bind_eq_ok.mp created
    obtain ⟨family, _, same⟩ := bind_eq_ok.mp created
    obtain rfl := pure_eq_ok.mp same
    exact (checkClassName_ok named).2
  | @called builder call _ _ ih bases =>
    rcases builder.perform_cases call with
      ⟨_, same⟩ | ⟨_, _, same⟩ | ⟨_, _, same⟩ | ⟨next, _, performed, same⟩
    · rw [same]
      exact ih
    · rw [same]
      exact ih
    · rw [same]
      exact ih
    · rw [same]
      exact ih.perform bases performed

end CompositeKeys
