import CompositeKeys.Proofs.Collection.WellFormed

/-! What the fields of a configuration say of each other. A key is entered twice, under its role and in
the table of all keys, and it is entered in place, in steps; still the two never come apart. What is
written once stays, and what is refused has changed nothing. -/

namespace CompositeKeys

namespace Declaration

/-- The names by role are those of the table, and values and keys are kept apart. -/
structure Faithful (own : Declaration) : Prop where
  partitioned : ∀ role, own.partition.names role =
    (own.dimensions.filter fun dimension => dimension.role = role).map Dimension.name
  distinct : own.argumentNames.Nodup
  keys : ∀ dimension ∈ own.dimensions, dimension.role ≠ .value
  value : ∀ dimension ∈ own.value, dimension.role = .value

theorem faithful_empty (className : String) (family : Family) :
    Faithful { className, family } := by
  refine ⟨?_, List.nodup_nil, nofun, nofun⟩
  rintro ((_ | _) | (_ | _) | _) <;> rfl

theorem Faithful.addDimension {own next : Declaration} {dimension : Dimension}
    (faithful : own.Faithful) (added : own.addDimension dimension = .ok next) : next.Faithful := by
  have partitioned := addDimension_partitioned added faithful.partitioned
  have distinct := addDimension_distinct added faithful.distinct
  obtain ⟨placed, _, rfl⟩ := addDimension_ok added
  refine ⟨partitioned, distinct, ?_, faithful.value⟩
  intro other member
  rcases List.mem_append.mp member with earlier | last
  · exact faithful.keys other earlier
  · exact List.mem_singleton.mp last ▸ placed

theorem setValue_role {own next : Declaration} {value : Dimension}
    (stored : own.setValue value = .ok next) : value.role = .value := by
  unfold setValue at stored
  split at stored
  · cases stored
  next placed => exact Classical.not_not.mp placed

theorem Faithful.setValue {own next : Declaration} {value : Dimension} (faithful : own.Faithful)
    (stored : own.setValue value = .ok next) : next.Faithful := by
  have role := setValue_role stored
  obtain ⟨_, rfl⟩ := setValue_ok stored
  refine { faithful with value := ?_ }
  intro other same
  cases same
  exact role

end Declaration

/-- The operations on a configuration. -/
inductive Edit where
  | family (family : Family)
  | overview (text : String)
  | importText (text : String)
  | dimension (dimension : Dimension)
  | value (value : Dimension)
  | pairing (link : Link) (base : Configuration)

namespace Configuration

def edit? (configuration : Configuration) : Edit → Except ConfigurationError Configuration
  | .family family => .ok (configuration.setFamily family)
  | .overview text => configuration.setOverview text
  | .importText text => configuration.setImportText text
  | .dimension dimension => configuration.addDimension dimension
  | .value value => configuration.setValue value
  | .pairing link base => configuration.setPairing link base

/-- An operation that changes a configuration in place. What it did before it fails stays done. -/
abbrev InPlace := ExceptT ConfigurationError (StateM Configuration)

namespace InPlace

def change (write : Declaration → Declaration) : InPlace Unit :=
  modify fun configuration => configuration.withOwn (write configuration.own)

def writeOnce (field : Field) (written : Declaration → Bool) (write : Declaration → Declaration) :
    InPlace Unit := do
  if written (← get).own then throw (.alreadySet field)
  change write

def insertKey (key : Dimension) : InPlace Unit := do
  change fun own => { own with partition := own.partition.insert key.name key.role }
  change fun own => { own with dimensions := own.dimensions ++ [key] }

def enterKey (key : Dimension) : InPlace Unit := do
  let duplicate := (← get).own.hasDimension key.name
  if key.role = .value then throw (.misplacedDimension key.name key.role)
  if duplicate then throw (.duplicateDimension key.name)
  insertKey key

def enterValue (value : Dimension) : InPlace Unit := do
  if value.role ≠ .value then throw (.misplacedDimension value.name value.role)
  writeOnce .value (·.value.isSome) fun own => { own with value := some value }

def pairOver (link : Link) (base : Configuration) : InPlace Unit := do
  if (← get).pairing?.isSome then throw (.alreadySet .pairing)
  modify fun configuration => .paired configuration.own link base

def perform : Edit → InPlace Unit
  | .family family => change fun own => { own with family }
  | .overview text =>
    writeOnce .overview (·.overview.isSome) fun own => { own with overview := some text }
  | .importText text =>
    writeOnce .importText (·.importText.isSome) fun own => { own with importText := some text }
  | .dimension dimension => enterKey dimension
  | .value value => enterValue value
  | .pairing link base => pairOver link base

end InPlace

/-- What an operation in place leaves, and whether it has been refused. -/
def edit (configuration : Configuration) (edit : Edit) :
    Configuration × Except ConfigurationError Unit :=
  (InPlace.perform edit configuration).swap

def edits (configuration : Configuration) (sequence : List Edit) : Configuration :=
  sequence.foldl (fun configuration edit => (configuration.edit edit).1) configuration

variable {configuration : Configuration}

theorem own_withOwn (own : Declaration) : (configuration.withOwn own).own = own := by
  cases configuration <;> rfl

namespace InPlace

/-- A fault is found before anything is changed. -/
theorem refuse_eq {fault : Prop} [Decidable fault] {error : ConfigurationError}
    {next : PUnit → InPlace Unit} :
    (if fault then throw error >>= next else next ⟨⟩) configuration =
      if fault then (.error error, configuration) else next ⟨⟩ configuration := by
  split <;> rfl

theorem writeOnce_eq (field : Field) (written : Declaration → Bool)
    (write : Declaration → Declaration) : writeOnce field written write configuration =
      if written configuration.own then (.error (.alreadySet field), configuration)
      else (.ok (), configuration.withOwn (write configuration.own)) :=
  @refuse_eq configuration (written configuration.own = true) _ (.alreadySet field) fun _ => change write

theorem insertKey_eq (key : Dimension) : insertKey key configuration =
    (.ok (), configuration.withOwn { configuration.own with
      dimensions := configuration.own.dimensions ++ [key]
      partition := configuration.own.partition.insert key.name key.role }) := by
  cases configuration <;> rfl

theorem enterKey_eq (key : Dimension) : enterKey key configuration =
    if key.role = .value then (.error (.misplacedDimension key.name key.role), configuration)
    else if configuration.own.hasDimension key.name then
      (.error (.duplicateDimension key.name), configuration)
    else insertKey key configuration := by
  by_cases value : key.role = .value
  · simp only [enterKey, value, if_true]
    rfl
  · simp only [enterKey, value, if_false]
    exact @refuse_eq configuration (configuration.own.hasDimension key.name = true) _
      (.duplicateDimension key.name) fun _ => insertKey key

theorem enterValue_eq (value : Dimension) : enterValue value configuration =
    if value.role ≠ .value then (.error (.misplacedDimension value.name value.role), configuration)
    else if configuration.own.value.isSome then (.error (.alreadySet .value), configuration)
    else (.ok (), configuration.withOwn { configuration.own with value := some value }) := by
  rw [← writeOnce_eq .value (·.value.isSome) fun own => { own with value := some value }]
  by_cases placed : value.role = .value
  · simp only [enterValue, placed, ne_eq, not_true, if_false]
  · simp only [enterValue, placed, ne_eq, not_false_iff, if_true]
    rfl

end InPlace

/-- An operation in place does all that it is to do, or is refused and does nothing. -/
theorem edit_eq (edit : Edit) : configuration.edit edit =
    match configuration.edit? edit with
    | .ok next => (next, .ok ())
    | .error error => (configuration, .error error) := by
  cases edit with
  | family family => rfl
  | overview text =>
    simp only [Configuration.edit, InPlace.perform, InPlace.writeOnce_eq, edit?, setOverview, declaring,
      Declaration.setOverview]
    split <;> rfl
  | importText text =>
    simp only [Configuration.edit, InPlace.perform, InPlace.writeOnce_eq, edit?, setImportText, declaring,
      Declaration.setImportText]
    split <;> rfl
  | dimension key =>
    simp only [Configuration.edit, InPlace.perform, InPlace.enterKey_eq, InPlace.insertKey_eq, edit?,
      addDimension, declaring, Declaration.addDimension]
    split
    · rfl
    · split <;> rfl
  | value value =>
    simp only [Configuration.edit, InPlace.perform, InPlace.enterValue_eq, edit?, setValue, declaring,
      Declaration.setValue]
    split
    · rfl
    · split <;> rfl
  | pairing link base => cases configuration <;> rfl

theorem edit_refused {edit : Edit} {error : ConfigurationError}
    (refused : (configuration.edit edit).2 = .error error) :
    (configuration.edit edit).1 = configuration := by
  rw [edit_eq] at refused ⊢
  cases made : configuration.edit? edit with
  | ok next =>
    rw [made] at refused
    cases refused
  | error => rfl

theorem own_faithful {next : Configuration} {edit : Edit} (faithful : configuration.own.Faithful)
    (made : configuration.edit? edit = .ok next) : next.own.Faithful := by
  cases edit with
  | family family =>
    cases made
    rw [setFamily, own_withOwn]
    exact { faithful with }
  | overview text =>
    obtain ⟨own, stored, rfl⟩ := map_eq_ok.mp made
    obtain ⟨_, rfl⟩ := Declaration.setOverview_ok stored
    rw [own_withOwn]
    exact { faithful with }
  | importText text =>
    obtain ⟨own, stored, rfl⟩ := map_eq_ok.mp made
    obtain ⟨_, rfl⟩ := Declaration.setImportText_ok stored
    rw [own_withOwn]
    exact { faithful with }
  | dimension key =>
    obtain ⟨own, added, rfl⟩ := map_eq_ok.mp made
    rw [own_withOwn]
    exact faithful.addDimension added
  | value value =>
    obtain ⟨own, stored, rfl⟩ := map_eq_ok.mp made
    rw [own_withOwn]
    exact faithful.setValue stored
  | pairing link base =>
    cases configuration with
    | plain own =>
      cases made
      exact faithful
    | paired => cases made

/-- What has been written once in a configuration is there in another one as well. -/
structure Keeps (before after : Configuration) : Prop where
  className : after.className = before.className
  overview : ∀ text, before.own.overview = some text → after.own.overview = some text
  importText : ∀ text, before.own.importText = some text → after.own.importText = some text
  value : ∀ value, before.own.value = some value → after.own.value = some value
  pairing : ∀ paired, before.pairing? = some paired → after.pairing? = some paired

theorem Keeps.refl (configuration : Configuration) : configuration.Keeps configuration :=
  ⟨rfl, fun _ => id, fun _ => id, fun _ => id, fun _ => id⟩

theorem Keeps.trans {before between after : Configuration} (first : before.Keeps between)
    (last : between.Keeps after) : before.Keeps after :=
  ⟨last.className.trans first.className,
    fun text set => last.overview text (first.overview text set),
    fun text set => last.importText text (first.importText text set),
    fun value set => last.value value (first.value value set),
    fun paired set => last.pairing paired (first.pairing paired set)⟩

theorem pairing?_withOwn (own : Declaration) :
    (configuration.withOwn own).pairing? = configuration.pairing? := by
  cases configuration <;> rfl

theorem keeps_withOwn {own : Declaration} (className : own.className = configuration.own.className)
    (overview : ∀ text, configuration.own.overview = some text → own.overview = some text)
    (importText : ∀ text, configuration.own.importText = some text → own.importText = some text)
    (value : ∀ value, configuration.own.value = some value → own.value = some value) :
    configuration.Keeps (configuration.withOwn own) := by
  refine ⟨?_, ?_, ?_, ?_, fun paired set => (pairing?_withOwn own).trans set⟩
  · rw [Configuration.className, own_withOwn]
    exact className
  · rw [own_withOwn]
    exact overview
  · rw [own_withOwn]
    exact importText
  · rw [own_withOwn]
    exact value

theorem keeps_edit? {next : Configuration} {edit : Edit}
    (made : configuration.edit? edit = .ok next) : configuration.Keeps next := by
  cases edit with
  | family family =>
    cases made
    exact keeps_withOwn rfl (fun _ => id) (fun _ => id) fun _ => id
  | overview text =>
    obtain ⟨own, stored, rfl⟩ := map_eq_ok.mp made
    obtain ⟨unset, rfl⟩ := Declaration.setOverview_ok stored
    exact keeps_withOwn rfl (fun _ set => nomatch unset.symm.trans set) (fun _ => id) fun _ => id
  | importText text =>
    obtain ⟨own, stored, rfl⟩ := map_eq_ok.mp made
    obtain ⟨unset, rfl⟩ := Declaration.setImportText_ok stored
    exact keeps_withOwn rfl (fun _ => id) (fun _ set => nomatch unset.symm.trans set) fun _ => id
  | dimension key =>
    obtain ⟨own, added, rfl⟩ := map_eq_ok.mp made
    obtain ⟨_, _, rfl⟩ := Declaration.addDimension_ok added
    exact keeps_withOwn rfl (fun _ => id) (fun _ => id) fun _ => id
  | value value =>
    obtain ⟨own, stored, rfl⟩ := map_eq_ok.mp made
    obtain ⟨unset, rfl⟩ := Declaration.setValue_ok stored
    exact keeps_withOwn rfl (fun _ => id) (fun _ => id) fun _ set => nomatch unset.symm.trans set
  | pairing link base =>
    cases configuration with
    | plain own =>
      cases made
      exact ⟨rfl, fun _ => id, fun _ => id, fun _ => id, nofun⟩
    | paired => cases made

section Runs

/-- What accepted operations preserve, any sequence of operations does. -/
theorem edits_induct {holds : Configuration → Prop}
    (step : ∀ {before after edit}, holds before → before.edit? edit = .ok after → holds after)
    (initial : holds configuration) (sequence : List Edit) :
    holds (configuration.edits sequence) := by
  induction sequence generalizing configuration with
  | nil => exact initial
  | cons edit rest ih =>
    have edited : holds (configuration.edit edit).1 := by
      rw [edit_eq]
      cases made : configuration.edit? edit with
      | ok next => exact step initial made
      | error => exact initial
    exact ih edited

theorem keeps_edits (sequence : List Edit) : configuration.Keeps (configuration.edits sequence) :=
  edits_induct (fun kept made => kept.trans (keeps_edit? made)) (.refl configuration) sequence

/-- Whatever is done to a configuration in place, its lists of names by role are those of the keys in its
table, in the order of declaration; names are distinct, no key has the role of a value, and the value has
it. What has been written once stays as it is, and a refused operation changes nothing at all. -/
theorem representation_faithful (className : String) (family : Family) (sequence : List Edit) :
    let configuration := (empty className family).edits sequence
    configuration.own.Faithful ∧
    (∀ more, configuration.Keeps (configuration.edits more)) ∧
    (∀ edit error, (configuration.edit edit).2 = .error error →
      (configuration.edit edit).1 = configuration) ∧
    ∀ edit, configuration.edit edit = match configuration.edit? edit with
      | .ok next => (next, .ok ())
      | .error error => (configuration, .error error) := by
  intro configuration
  have initial : (empty className family).own.Faithful := Declaration.faithful_empty className family
  have faithful : configuration.own.Faithful :=
    @edits_induct _ (fun configuration => configuration.own.Faithful) own_faithful initial sequence
  exact ⟨faithful, keeps_edits, fun edit error => edit_refused, edit_eq⟩

/-- A key that is declared again in another role is entered nowhere. -/
example :
    let car : Dimension := { name := "car", role := .mapKey .weak, description := "The car." }
    let configuration := (empty "Cars" (.map .weak)).edits [.dimension car, .overview "Cars."]
    configuration.edit (.dimension { car with role := .mapKey .strong }) =
      (configuration, .error (.duplicateDimension "car")) := by
  decide +kernel

end Runs

end Configuration

end CompositeKeys
