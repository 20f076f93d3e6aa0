import CompositeKeys.Proofs.Collection.Declared

/-! What a refused call leaves behind. Calls change a builder in place, and the phase is entered
before anything is checked; still, no refused call leaves a trace in the configuration. -/

namespace CompositeKeys

/-- Nothing follows the end, so only what is still open enters a phase. -/
theorem Lifecycle.enter?_eq_some {lifecycle entered : Lifecycle} {next : Phase}
    (accepted : lifecycle.enter? next = some entered) :
    lifecycle.isLocked = false ∧ entered = { lifecycle with phase := next } := by
  unfold enter? at accepted
  split at accepted
  next follows =>
    refine ⟨?_, (Option.some.inj accepted).symm⟩
    by_contra closed
    have locked : lifecycle.phase = .locked := by simpa [isLocked] using closed
    rw [locked] at follows
    exact List.not_mem_nil follows
  · cases accepted

namespace Builder

/-- An operation that changes a builder in place. What it did before it fails stays done. -/
abbrev InPlace := ExceptT BuildError (StateM Builder)

namespace InPlace

def enter (next : Phase) : InPlace Unit := do
  let builder ← get
  match builder.lifecycle.enter? next with
  | some lifecycle => set { builder with lifecycle }
  | none => throw (if builder.isLocked then .locked else .wrongPhase next builder.phase)

def check {α : Type} (checked : Except BuildError α) : InPlace α := ExceptT.mk (pure checked)

def change (made : Configuration → Except ConfigurationError Configuration) : InPlace Unit := do
  let builder ← get
  let configuration ← check (Configuration.lifted (made builder.configuration))
  set { builder with configuration }

def declareKey (name description : String) (role : Role) (allowsWeak : Family → Bool)
    (options : DimensionOptions) : InPlace Unit := do
  let family := (← get).family
  check (checkDimensionName name (!family.isSet))
  if role.isWeak ∧ !allowsWeak family then throw (.weakNotAllowed name family)
  let dimension ← check (Dimension.describe name role description options)
  change (·.addDimension dimension)

def pairOver (choice : BaseChoice) (reservedKey : String) (modulePath : Option String) :
    InPlace Unit := do
  let (base, origin) ← check (Configuration.baseOf choice)
  unless (base.own.dimension? reservedKey).any fun key => key.role = .mapKey .weak do
    throw (.reservedKeyNotWeak reservedKey base.className)
  change (·.setPairing { reservedKey, origin, modulePath } base)

def settle : InPlace Unit := do
  let configuration := (← get).configuration
  let family := configuration.family
  let partition := configuration.own.partition
  let weakKeys := if family.isSet then partition.weakSetElements else partition.weakMapKeys
  if family.isWeak ∧ weakKeys = [] then throw (.missingWeakKey family)
  if let some solo := family.solo? then
    if configuration.own.dimensions.length = 1 then
      change fun configuration => .ok (configuration.setFamily solo)

/-- What a call does after its phase has been entered. -/
def body : Call → InPlace Unit
  | .setOverview text => do
    check (checkText "file overview" text)
    change (·.setOverview text)
  | .setImportText text => do
    if Text.isBlankText text then throw (.emptyText "import text")
    change (·.setImportText text)
  | .addMapKey name description holdWeak options =>
    declareKey name description (.ofKey true holdWeak) Family.allowsWeakMapKeys options
  | .addSetElement name description holdWeak options =>
    declareKey name description (.ofKey false holdWeak) Family.allowsWeakSetElements options
  | .setValue description options => do
    let value ← check (Dimension.describe valueName .value description options)
    change (·.setValue value)
  | .configurePairing choice reservedKey modulePath => pairOver choice reservedKey modulePath
  | .lock => settle

/-- An operation that stores a configuration, or is refused and has changed nothing. -/
def Yields (operation : InPlace Unit) (builder : Builder)
    (outcome : Except BuildError Configuration) : Prop :=
  operation builder = match outcome with
    | .ok configuration => (.ok (), { builder with configuration })
    | .error error => (.error error, builder)

section Steps
variable {α β : Type} {builder : Builder} {outcome : Except BuildError Configuration}

theorem bind_apply (first : InPlace α) (next : α → InPlace β) (builder : Builder) :
    (first >>= next) builder = match first builder with
      | (.ok value, after) => next value after
      | (.error error, after) => (.error error, after) := by
  cases outcome : first builder with
  | mk result after =>
    have opened : (first >>= next) builder = ExceptT.bindCont next result after :=
      congrArg (fun made : Except BuildError α × Builder => ExceptT.bindCont next made.1 made.2)
        outcome
    cases result <;> exact opened

theorem check_apply (checked : Except BuildError α) : check checked builder = (checked, builder) :=
  rfl

theorem get_apply : (get : InPlace Builder) builder = (.ok builder, builder) := rfl

theorem enter_apply (next : Phase) :
    enter next builder = match builder.lifecycle.enter? next with
      | some lifecycle => (.ok (), { builder with lifecycle })
      | none =>
        (.error (if builder.isLocked then .locked else .wrongPhase next builder.phase),
          builder) := by
  simp only [enter, bind_apply, get_apply]
  cases builder.lifecycle.enter? next <;> rfl

theorem yields_change (made : Configuration → Except ConfigurationError Configuration) :
    (change made).Yields builder (Configuration.lifted (made builder.configuration)) := by
  simp only [Yields, change, bind_apply, get_apply, check_apply]
  cases Configuration.lifted (made builder.configuration) with
  | ok configuration => rfl
  | error error => rfl

theorem yields_check {checked : Except BuildError α} {next : α → InPlace Unit}
    {outcome : α → Except BuildError Configuration}
    (rest : ∀ value, (next value).Yields builder (outcome value)) :
    (check checked >>= next).Yields builder (checked >>= outcome) := by
  unfold Yields
  rw [bind_apply, check_apply]
  cases checked with
  | ok value => exact rest value
  | error error => rfl

theorem yields_read {next : Builder → InPlace Unit} (rest : (next builder).Yields builder outcome) :
    (get >>= next).Yields builder outcome := by
  unfold Yields
  rw [bind_apply, get_apply]
  exact rest

theorem yields_refuse {fault : Prop} [Decidable fault] {error : BuildError}
    {operation : PUnit → InPlace Unit} {outcome : PUnit → Except BuildError Configuration}
    (rest : (operation ⟨⟩).Yields builder (outcome ⟨⟩)) :
    (if fault then throw error >>= operation else operation ⟨⟩).Yields builder
      (if fault then throw error >>= outcome else outcome ⟨⟩) := by
  split
  · rfl
  · exact rest

theorem yields_require {granted : Prop} [Decidable granted] {error : BuildError}
    {operation : PUnit → InPlace Unit} {outcome : PUnit → Except BuildError Configuration}
    (rest : (operation ⟨⟩).Yields builder (outcome ⟨⟩)) :
    (if granted then operation ⟨⟩ else throw error >>= operation).Yields builder
      (if granted then outcome ⟨⟩ else throw error >>= outcome) := by
  split
  · exact rest
  · rfl

end Steps

section Calls
variable {builder : Builder}

theorem declareKey_yields {name description : String} {role : Role} {allowsWeak : Family → Bool}
    {options : DimensionOptions} :
    (declareKey name description role allowsWeak options).Yields builder
      (builder.configuration.declareKey name description role (allowsWeak builder.family)
        options) := by
  apply yields_read
  apply yields_check
  intro _
  apply yields_refuse
  apply yields_check
  intro dimension
  exact yields_change _

theorem pairOver_yields {choice : BaseChoice} {reservedKey : String} {modulePath : Option String} :
    (pairOver choice reservedKey modulePath).Yields builder
      (builder.configuration.pairOver choice reservedKey modulePath) := by
  apply yields_check
  rintro ⟨base, origin⟩
  apply yields_require
  exact yields_change _

theorem settle_yields : settle.Yields builder builder.configuration.settle := by
  apply yields_read
  unfold Configuration.settle
  dsimp only
  generalize (if builder.configuration.family.isSet = true then
    builder.configuration.own.partition.weakSetElements
    else builder.configuration.own.partition.weakMapKeys) = weakKeys
  by_cases missing : builder.configuration.family.isWeak = true ∧ weakKeys = []
  · rw [if_pos missing, if_pos missing]
    rfl
  · rw [if_neg missing, if_neg missing]
    cases builder.configuration.family.solo? with
    | none => rfl
    | some solo =>
      by_cases single : builder.configuration.own.dimensions.length = 1
      · dsimp only
        rw [if_pos single, if_pos single]
        rfl
      · dsimp only
        rw [if_neg single, if_neg single]
        rfl

theorem body_yields (call : Call) :
    (body call).Yields builder (builder.configuration.perform call) := by
  cases call with
  | setOverview text => exact yields_check fun _ => yields_change _
  | setImportText text =>
    by_cases blank : Text.isBlankText text = true
    · simp only [body, Configuration.perform, blank, if_true]
      rfl
    · simpa [body, Configuration.perform, blank] using yields_change (·.setImportText text)
  | addMapKey name description holdWeak options => exact declareKey_yields
  | addSetElement name description holdWeak options => exact declareKey_yields
  | setValue description options => exact yields_check fun value => yields_change _
  | configurePairing choice reservedKey modulePath => exact pairOver_yields
  | lock => exact settle_yields

end Calls

end InPlace

/-- Runs an operation on a builder in place. Whatever it has changed stays when it fails, but the
builder is dead then, unless it was locked. -/
def caught (operation : InPlace Unit) (builder : Builder) : Builder × Except BuildError Unit :=
  if builder.isDead then (builder, .error .dead)
  else match operation builder with
    | (.ok (), after) => (after, .ok ())
    | (.error error, after) =>
      if builder.isLocked then (after, .error error)
      else ({ after with lifecycle := { after.lifecycle with phase := .errored } }, .error error)

def performInPlace (builder : Builder) (call : Call) : Builder × Except BuildError Unit :=
  if call = .lock ∧ builder.isLocked then (builder, .ok ())
  else caught (InPlace.enter call.phase >>= fun _ => InPlace.body call) builder

/-- Entering the phase before the checks are made comes to the same as checking first. -/
theorem performInPlace_eq_perform (builder : Builder) (call : Call) :
    builder.performInPlace call = builder.perform call := by
  unfold performInPlace perform
  by_cases again : call = .lock ∧ builder.isLocked = true
  · rw [if_pos again, if_pos again]
  · rw [if_neg again, if_neg again]
    unfold caught Lifecycle.guarded
    by_cases dead : builder.isDead = true
    · have errored : builder.lifecycle.isErrored = true := dead
      simp [dead, errored]
    · have alive : builder.lifecycle.isErrored = false := by simpa [isDead] using dead
      rw [InPlace.bind_apply, InPlace.enter_apply]
      simp only [dead, alive, attempt, Lifecycle.advance]
      cases entered : builder.lifecycle.enter? call.phase with
      | none =>
        by_cases locked : builder.lifecycle.isLocked = true
        · simp [isLocked, locked, Lifecycle.failed, bind, Except.bind]
        · simp [isLocked, locked, Lifecycle.failed, bind, Except.bind, phase]
      | some lifecycle =>
        -- What fails from here on has left the new phase behind, which the failure overwrites.
        obtain ⟨unlocked, rfl⟩ := Lifecycle.enter?_eq_some entered
        have yielded := @InPlace.body_yields
          { builder with lifecycle := { builder.lifecycle with phase := call.phase } } call
        unfold InPlace.Yields at yielded
        dsimp only at yielded ⊢
        rw [yielded]
        cases builder.configuration.perform call with
        | ok configuration => rfl
        | error error => simp [isLocked, unlocked, Lifecycle.failed, bind, Except.bind]

theorem perform_of_dead {builder : Builder} (dead : builder.isDead = true) (call : Call) :
    builder.perform call = (builder, .error .dead) := by
  have errored := isDead_iff.mp dead
  rcases builder.perform_cases call with
    ⟨_, same⟩ | ⟨locked, _⟩ | ⟨alive, _⟩ | ⟨next, follows, _⟩
  · exact same
  · exact nomatch errored.symm.trans locked
  · exact absurd errored alive
  · rw [errored] at follows
    exact nomatch follows

theorem perform_of_locked {builder : Builder} (locked : builder.isLocked = true) (call : Call) :
    builder.perform call = (builder, if call = .lock then .ok () else .error .locked) := by
  by_cases again : call = .lock
  · simp [perform, again, locked]
  · have closed := isLocked_iff.mp locked
    have alive : builder.lifecycle.isErrored = false := by
      simp [Lifecycle.isErrored, show builder.lifecycle.phase = .locked from closed]
    have refused : builder.lifecycle.enter? call.phase = none := by
      simp [Lifecycle.enter?, show builder.lifecycle.phase = .locked from closed, Order.successors]
    have sealed : builder.lifecycle.isLocked = true := locked
    simp [perform, again, Lifecycle.guarded, alive, attempt, Lifecycle.advance, refused, sealed,
      Lifecycle.failed, bind, Except.bind]

theorem performAll_of_fixed {builder : Builder}
    (fixed : ∀ call, (builder.perform call).1 = builder) (calls : List Call) :
    builder.performAll calls = builder := by
  induction calls with
  | nil => rfl
  | cons call rest ih =>
    change (builder.perform call).1.performAll rest = builder
    rw [fixed, ih]

section Refusals
variable {builder : Builder} {call : Call} {error : BuildError}

theorem configuration_of_refused (refused : (builder.perform call).2 = .error error) :
    (builder.perform call).1.configuration = builder.configuration := by
  rcases builder.perform_cases call with
    ⟨_, same⟩ | ⟨_, _, same⟩ | ⟨_, _, same⟩ | ⟨_, _, _, same⟩
  · rw [same]
  · rw [same]
  · rw [same]
  · rw [same] at refused
    cases refused

theorem isDead_of_refused (refused : (builder.perform call).2 = .error error)
    (unlocked : builder.isLocked = false) : (builder.perform call).1.isDead = true := by
  rcases builder.perform_cases call with
    ⟨errored, same⟩ | ⟨_, _, same⟩ | ⟨_, _, same⟩ | ⟨_, _, _, same⟩
  · rw [same]
    exact isDead_iff.mpr errored
  · rw [same] at refused
    cases refused
  · rw [same]
    have failed : builder.lifecycle.failed = { builder.lifecycle with phase := .errored } := by
      have unlocked : builder.lifecycle.isLocked = false := unlocked
      simp [Lifecycle.failed, unlocked]
    exact isDead_iff.mpr (congrArg Lifecycle.phase failed)
  · rw [same] at refused
    cases refused

end Refusals

/-- No refused call changes the configuration, although it changes the builder in place. The first
that is refused before the declaration is locked ends it: whatever comes after fails in the same way
and changes nothing. Once it is locked, locking it again does nothing and every other call is
refused. -/
theorem refusal_final (builder : Builder) (call : Call) :
    builder.performInPlace call = builder.perform call ∧
    (∀ error, (builder.perform call).2 = .error error →
      (builder.perform call).1.configuration = builder.configuration) ∧
    (∀ error, (builder.perform call).2 = .error error → builder.isLocked = false →
      (builder.perform call).1.isDead = true ∧ ∀ earlier later,
        ((builder.perform call).1.performAll earlier).perform later =
          ((builder.perform call).1, .error .dead)) ∧
    (builder.isLocked = true → ∀ earlier later,
      (builder.performAll earlier).perform later =
        (builder, if later = .lock then .ok () else .error .locked)) := by
  refine ⟨performInPlace_eq_perform builder call, fun _ => configuration_of_refused, ?_, ?_⟩
  · intro error refused unlocked
    have dead := isDead_of_refused refused unlocked
    refine ⟨dead, fun earlier later => ?_⟩
    have fixed : ∀ call', ((builder.perform call).1.perform call').1 = (builder.perform call).1 :=
      fun call' => by rw [perform_of_dead dead]
    rw [performAll_of_fixed fixed, perform_of_dead dead]
  · intro locked earlier later
    have fixed : ∀ call, (builder.perform call).1 = builder := fun call => by
      rw [perform_of_locked locked]
    rw [performAll_of_fixed fixed, perform_of_locked locked]

end Builder

end CompositeKeys
