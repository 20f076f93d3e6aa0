import CompositeKeys.Collection.Builder
import CompositeKeys.Proofs.Collection.Naming
import CompositeKeys.Proofs.Collection.Order

/-! Well-formed configurations. What every declaration under way keeps is told apart from the shape
that only a complete one has. The base of a paired collection is well formed in its own right. -/

namespace CompositeKeys

/-- A dimension whose texts and whose validator have been checked. -/
structure Dimension.Checked (dimension : Dimension) : Prop where
  description : LegalText dimension.description
  documentType : LegalText dimension.documentType
  checkedType : LegalText dimension.checkedType
  validator : ∀ expression ∈ dimension.validator,
    ∃ source, Validator.parse dimension.name source = .ok expression

/-- The role of the keys that a weak collection holds weakly. -/
def Family.weakRole (family : Family) : Role :=
  if family.isSet then .setElement .weak else .mapKey .weak

namespace Declaration

/-- What holds of a declaration after every accepted call. -/
structure Consistent (own : Declaration) : Prop where
  classNamed : LegalName own.className
  overview : ∀ text ∈ own.overview, LegalText text
  importText : ∀ text ∈ own.importText, Filled text
  distinct : own.argumentNames.Nodup
  named : ∀ dimension ∈ own.dimensions, LegalName dimension.name
  valueReserved : own.family.isSet = false → valueName ∉ own.argumentNames
  checked : ∀ dimension ∈ own.dimensions, dimension.Checked
  valueChecked : ∀ value ∈ own.value, value.name = valueName ∧ value.role = .value ∧ value.Checked
  strong : own.family.isWeak = false → ∀ dimension ∈ own.dimensions, dimension.role.isWeak = false
  partitioned : ∀ role, own.partition.names role =
    (own.dimensions.filter fun dimension => dimension.role = role).map Dimension.name

/-- Mapping keys first and then set elements, at least one of each, and every element strong. -/
def Layered (own : Declaration) : Prop :=
  ∃ keys elements, own.dimensions = keys ++ elements ∧ keys ≠ [] ∧ elements ≠ [] ∧
    (∀ key ∈ keys, key.role.isMapKey = true) ∧
    ∀ element ∈ elements, element.role = .setElement .strong

structure WellFormed (own : Declaration) : Prop extends Consistent own where
  mapKeys : own.family.isMap = true →
    own.dimensions ≠ [] ∧ ∀ dimension ∈ own.dimensions, dimension.role.isMapKey = true
  setElements : own.family.isSet = true →
    own.dimensions ≠ [] ∧ ∀ dimension ∈ own.dimensions, dimension.role.isSetElement = true
  solo : own.family.isMap = true ∨ own.family.isSet = true →
    (own.family.isSolo = true ↔ own.dimensions.length = 1)
  weak : own.family.isWeak = true →
    ∃ dimension ∈ own.dimensions, dimension.role = own.family.weakRole
  layered : own.family.isMapOfSets = true → own.Layered
  unkeyed : own.family.isOneToOne = true → own.dimensions = []
  valued : own.value.isSome = true → own.family.isMap = true

end Declaration

/-- A key on one side of a map of sets is not on the other. -/
theorem Role.not_isSetElement_of_isMapKey {role : Role} (mapped : role.isMapKey = true) :
    role.isSetElement ≠ true := by
  cases role with
  | mapKey => exact Bool.false_ne_true
  | setElement | value => cases mapped

namespace Declaration
variable {own : Declaration}

theorem sides_of_split {keys elements : List Dimension} (split : own.dimensions = keys ++ elements)
    (mapped : ∀ key ∈ keys, key.role.isMapKey = true)
    (held : ∀ element ∈ elements, element.role.isSetElement = true) :
    own.mapKeys = keys ∧ own.setElements = elements := by
  have unheld : ∀ key ∈ keys, key.role.isSetElement ≠ true :=
    fun key among => Role.not_isSetElement_of_isMapKey (mapped key among)
  have unmapped : ∀ element ∈ elements, element.role.isMapKey ≠ true :=
    fun element among key => Role.not_isSetElement_of_isMapKey key (held element among)
  constructor
  · rw [mapKeys, split, List.filter_append, List.filter_eq_self.mpr mapped,
      List.filter_eq_nil_iff.mpr unmapped, List.append_nil]
  · rw [setElements, split, List.filter_append, List.filter_eq_nil_iff.mpr unheld,
      List.filter_eq_self.mpr held, List.nil_append]

/-- Mapping keys are declared before set elements. -/
theorem WellFormed.sides (formed : own.WellFormed) :
    own.dimensions = own.mapKeys ++ own.setElements := by
  obtain ⟨keys, elements, split, mapped, held⟩ : ∃ keys elements,
      own.dimensions = keys ++ elements ∧ (∀ key ∈ keys, key.role.isMapKey = true) ∧
        ∀ element ∈ elements, element.role.isSetElement = true := by
    cases unpaired : own.family.isOneToOne with
    | true => exact ⟨[], [], formed.unkeyed unpaired, nofun, nofun⟩
    | false =>
      rcases Family.kinds unpaired with map | set | layers
      · exact ⟨_, [], (List.append_nil _).symm, (formed.mapKeys map).2, nofun⟩
      · exact ⟨[], _, rfl, nofun, (formed.setElements set).2⟩
      · obtain ⟨keys, elements, split, -, -, mapped, strong⟩ := formed.layered layers
        refine ⟨keys, elements, split, mapped, fun element among => ?_⟩
        rw [strong element among]
        rfl
  obtain ⟨keySide, elementSide⟩ := sides_of_split split mapped held
  rw [keySide, elementSide, split]

end Declaration

/-- The families that a paired collection may be built over. -/
def baseFamilies : List Family := [.map .weak, .soloMap .weak]

namespace Configuration

/-- A pairing is there exactly in the paired family, over a well-formed weak map one of whose weak
keys is the reserved one. -/
inductive WellFormed : Configuration → Prop where
  | plain {own} (declared : own.WellFormed) (unpaired : own.family.isOneToOne = false) :
      WellFormed (.plain own)
  | paired {own link base} (declared : own.WellFormed) (family : own.family.isOneToOne = true)
      (based : WellFormed base) (baseFamily : base.family ∈ baseFamilies)
      (reserved : ∃ key ∈ base.own.dimensions, key.name = link.reservedKey ∧
        key.role = .mapKey .weak) :
      WellFormed (.paired own link base)

theorem WellFormed.own {configuration : Configuration} (formed : configuration.WellFormed) :
    configuration.own.WellFormed := by
  cases formed with
  | plain declared => exact declared
  | paired declared => exact declared

theorem WellFormed.paired_iff {configuration : Configuration} (formed : configuration.WellFormed) :
    configuration.family.isOneToOne = true ↔ configuration.pairing?.isSome = true := by
  cases formed with
  | plain _ unpaired => simp [family, Configuration.own, pairing?, unpaired]
  | paired _ paired => simp [family, Configuration.own, pairing?, paired]

theorem WellFormed.base {configuration base : Configuration} {link : Link}
    (formed : configuration.WellFormed) (paired : configuration.pairing? = some (link, base)) :
    base.WellFormed := by
  cases formed with
  | plain => cases paired
  | paired _ _ based =>
    cases paired
    exact based

/-- Only a paired collection has no keys of its own. -/
theorem WellFormed.keyed {configuration : Configuration} (formed : configuration.WellFormed)
    (unpaired : configuration.family.isOneToOne = false) : configuration.own.dimensions ≠ [] := by
  have own := formed.own
  rcases Family.kinds unpaired with map | set | layers
  · exact (own.mapKeys map).1
  · exact (own.setElements set).1
  · obtain ⟨keys, elements, same, keyed, _⟩ := own.layered layers
    simp [same, keyed]

end Configuration

theorem Role.documentType_legal (role : Role) : LegalText role.documentType := by
  unfold Role.documentType
  cases role.isWeak with
  | true => exact (@checkText_ok_iff "" _).mp rfl
  | false => exact (@checkText_ok_iff "" _).mp rfl

theorem Role.checkedType_legal (role : Role) : LegalText role.checkedType := by
  unfold Role.checkedType
  cases role.isWeak with
  | true => exact (@checkText_ok_iff "" _).mp rfl
  | false => exact (@checkText_ok_iff "" _).mp rfl

theorem Dimension.checked_default {name description : String} {role : Role}
    (legal : LegalText description) : Dimension.Checked { name, role, description } :=
  ⟨legal, role.documentType_legal, role.checkedType_legal, nofun⟩

/-- Every text of a dimension has been checked, or is one that its role provides, and its validator
is what reading a source has kept. -/
theorem Dimension.describe_ok {name description : String} {role : Role} {options : DimensionOptions}
    {dimension : Dimension}
    (described : Dimension.describe name role description options = .ok dimension) :
    dimension.name = name ∧ dimension.role = role ∧ dimension.Checked := by
  have chosen : ∀ {field default : String} {choice : Option String}, LegalText default →
      choice.forM (checkText field) = .ok () → LegalText (choice.getD default) := by
    intro field default choice legal checked
    cases choice with
    | none => exact legal
    | some text => exact checkText_ok_iff.mp checked
  obtain ⟨_, descriptionChecked, described⟩ := bind_eq_ok.mp described
  obtain ⟨_, documentChecked, described⟩ := bind_eq_ok.mp described
  obtain ⟨_, checkedChecked, described⟩ := bind_eq_ok.mp described
  obtain ⟨validator, parsed, described⟩ := bind_eq_ok.mp described
  obtain rfl := pure_eq_ok.mp described
  refine ⟨rfl, rfl, checkText_ok_iff.mp descriptionChecked,
    chosen role.documentType_legal documentChecked, chosen role.checkedType_legal checkedChecked, ?_⟩
  rintro expression kept
  obtain rfl : validator = some expression := kept
  obtain ⟨source, _, read⟩ := mapM_eq_ok_some.mp parsed
  exact ⟨source, mapError_eq_ok.mp read⟩

namespace Declaration

theorem addDimension_ok {own next : Declaration} {dimension : Dimension}
    (added : own.addDimension dimension = .ok next) :
    dimension.role ≠ .value ∧ dimension.name ∉ own.argumentNames ∧
      next = { own with
        dimensions := own.dimensions ++ [dimension]
        partition := own.partition.insert dimension.name dimension.role } := by
  unfold addDimension at added
  split at added
  · cases added
  next placed =>
    split at added
    · cases added
    next fresh =>
      refine ⟨placed, ?_, (Except.ok.inj added).symm⟩
      intro member
      obtain ⟨taken, present, same⟩ := List.mem_map.mp member
      apply fresh
      simp only [hasDimension, dimension?, List.find?_isSome, decide_eq_true_eq]
      exact ⟨taken, present, same⟩

theorem setOverview_ok {own next : Declaration} {text : String}
    (stored : own.setOverview text = .ok next) :
    own.overview = none ∧ next = { own with overview := some text } := by
  unfold setOverview at stored
  split at stored
  · cases stored
  next unset => exact ⟨by simpa using unset, (Except.ok.inj stored).symm⟩

theorem setImportText_ok {own next : Declaration} {text : String}
    (stored : own.setImportText text = .ok next) :
    own.importText = none ∧ next = { own with importText := some text } := by
  unfold setImportText at stored
  split at stored
  · cases stored
  next unset => exact ⟨by simpa using unset, (Except.ok.inj stored).symm⟩

theorem setValue_ok {own next : Declaration} {value : Dimension}
    (stored : own.setValue value = .ok next) :
    own.value = none ∧ next = { own with value := some value } := by
  unfold setValue at stored
  split at stored
  · cases stored
  · split at stored
    · cases stored
    next unset => exact ⟨by simpa using unset, (Except.ok.inj stored).symm⟩

theorem consistent_empty {className : String} (family : Family) (named : LegalName className) :
    Consistent { className, family } := by
  refine ⟨named, nofun, nofun, by simp [argumentNames], nofun, by simp [argumentNames], nofun, nofun,
    nofun, ?_⟩
  rintro ((_ | _) | (_ | _) | _) <;> rfl

/-- A new key comes last among the names of its role, and leaves those of other roles alone. -/
theorem names_insert {partition : Partition} {name : String} {role : Role} (placed : role ≠ .value)
    (other : Role) : (partition.insert name role).names other =
      partition.names other ++ if role = other then [name] else [] := by
  cases role with
  | value => exact (placed rfl).elim
  | mapKey retention | setElement retention =>
    cases retention <;> rcases other with (_ | _) | (_ | _) | _ <;>
      simp [Partition.insert, Partition.names]

theorem addDimension_partitioned {own next : Declaration} {dimension : Dimension}
    (added : own.addDimension dimension = .ok next)
    (partitioned : ∀ role, own.partition.names role =
      (own.dimensions.filter fun key => key.role = role).map Dimension.name) (role : Role) :
    next.partition.names role =
      (next.dimensions.filter fun key => key.role = role).map Dimension.name := by
  obtain ⟨placed, _, rfl⟩ := addDimension_ok added
  rw [names_insert placed, partitioned role, List.filter_append, List.map_append]
  by_cases same : dimension.role = role <;> simp [same]

theorem addDimension_distinct {own next : Declaration} {dimension : Dimension}
    (added : own.addDimension dimension = .ok next) (distinct : own.argumentNames.Nodup) :
    next.argumentNames.Nodup := by
  obtain ⟨_, fresh, rfl⟩ := addDimension_ok added
  simp only [argumentNames, List.map_append, List.map_cons, List.map_nil, List.nodup_append]
  refine ⟨distinct, by simp, ?_⟩
  intro name member other single same
  exact fresh ((same.trans (List.mem_singleton.mp single)) ▸ member)

theorem Consistent.addDimension {own next : Declaration} {dimension : Dimension}
    (consistent : own.Consistent) (added : own.addDimension dimension = .ok next)
    (named : LegalName dimension.name) (checked : dimension.Checked)
    (reserved : own.family.isSet = false → dimension.name ≠ valueName)
    (strong : own.family.isWeak = false → dimension.role.isWeak = false) : next.Consistent := by
  have distinct := addDimension_distinct added consistent.distinct
  have partitioned := addDimension_partitioned added consistent.partitioned
  obtain ⟨_, _, rfl⟩ := addDimension_ok added
  refine ⟨consistent.classNamed, consistent.overview, consistent.importText, distinct, ?_, ?_, ?_,
    consistent.valueChecked, ?_, partitioned⟩
  · simpa [or_imp, forall_and] using ⟨consistent.named, named⟩
  · intro mapped
    have absent := consistent.valueReserved mapped
    simp only [argumentNames, List.map_append, List.mem_append, not_or] at absent ⊢
    exact ⟨absent, fun member => reserved mapped (List.mem_singleton.mp member).symm⟩
  · simpa [or_imp, forall_and] using ⟨consistent.checked, checked⟩
  · intro held
    simpa [or_imp, forall_and] using ⟨consistent.strong held, strong held⟩

theorem Consistent.setValue {own next : Declaration} {value : Dimension}
    (consistent : own.Consistent) (stored : own.setValue value = .ok next)
    (named : value.name = valueName) (role : value.role = .value) (checked : value.Checked) :
    next.Consistent := by
  obtain ⟨_, rfl⟩ := setValue_ok stored
  refine { consistent with valueChecked := ?_ }
  intro other same
  cases same
  exact ⟨named, role, checked⟩

end Declaration

namespace WellKnown

private theorem keyed_ok {own : Declaration} {keys : List Dimension} {configuration : Configuration}
    (consistent : own.Consistent) (weak : own.family.isWeak = true)
    (legal : ∀ key ∈ keys, LegalName key.name ∧ key.name ≠ valueName ∧ key.Checked)
    (keyed : keys.foldlM Configuration.addDimension (.plain own) = .ok configuration) :
    ∃ next, configuration = .plain next ∧ next.Consistent ∧ next.family = own.family ∧
      next.dimensions = own.dimensions ++ keys := by
  induction keys generalizing own with
  | nil =>
    obtain rfl := pure_eq_ok.mp keyed
    exact ⟨own, rfl, consistent, rfl, by simp⟩
  | cons key keys ih =>
    obtain ⟨_, first, rest⟩ := bind_eq_ok.mp keyed
    obtain ⟨next, added, rfl⟩ := map_eq_ok.mp first
    obtain ⟨named, reserved, checked⟩ := legal key (by simp)
    have kept := consistent.addDimension added named checked (fun _ => reserved)
      (fun strong => by simp [weak] at strong)
    obtain ⟨_, _, rfl⟩ := Declaration.addDimension_ok added
    obtain ⟨last, same, formed, family, dimensions⟩ :=
      ih kept weak (fun other member => legal other (List.mem_cons_of_mem _ member)) rest
    exact ⟨last, same, formed, family, by simpa [Configuration.own] using dimensions⟩

private theorem key_legal {name description : String} (retention : Retention)
    (checked : checkDimensionName name true = .ok ())
    (described : checkText "description" description = .ok ()) :
    let key : Dimension := { name, role := .mapKey retention, description }
    LegalName key.name ∧ key.name ≠ valueName ∧ key.Checked := by
  obtain ⟨named, reserved⟩ := checkDimensionName_ok checked
  exact ⟨named, reserved rfl, Dimension.checked_default (checkText_ok_iff.mp described)⟩

private theorem base_wellFormed {name : String} {family : Family} {keys : List Dimension}
    {origin : Origin} {result : Configuration × Origin}
    (found : resolve.of name origin family keys = .ok result)
    (named : checkDimensionName name false = .ok ()) (weakMap : family ∈ baseFamilies)
    (legal : ∀ key ∈ keys, LegalName key.name ∧ key.name ≠ valueName ∧ key.Checked)
    (mapped : keys ≠ [] ∧ ∀ key ∈ keys, key.role.isMapKey = true)
    (solo : family.isSolo = true ↔ keys.length = 1)
    (weak : ∃ key ∈ keys, key.role = .mapKey .weak) :
    result.1.WellFormed ∧ result.1.family ∈ baseFamilies := by
  have kind : family.isWeak = true ∧ family.isMap = true ∧ family.isSet = false ∧
      family.isMapOfSets = false ∧ family.isOneToOne = false := by
    rcases List.mem_cons.mp weakMap with rfl | single
    · decide
    · obtain rfl := List.mem_singleton.mp single
      decide
  obtain ⟨isWeak, isMap, isSet, isMapOfSets, isOneToOne⟩ := kind
  unfold resolve.of at found
  split at found
  next configuration declared =>
    obtain rfl := Except.ok.inj found
    obtain ⟨_, keyed, rest⟩ := bind_eq_ok.mp declared
    obtain ⟨own, rfl, consistent, rfl, rfl⟩ :=
      keyed_ok (Declaration.consistent_empty family (checkDimensionName_ok named).1) isWeak legal keyed
    obtain ⟨next, stored, rfl⟩ := map_eq_ok.mp rest
    have described := (@checkText_ok_iff "" _).mp (rfl : checkText "" "The value." = .ok ())
    have kept := consistent.setValue stored rfl rfl (Dimension.checked_default described)
    obtain ⟨_, rfl⟩ := Declaration.setValue_ok stored
    have role : own.family.weakRole = .mapKey .weak := by simp [Family.weakRole, isSet]
    exact ⟨.plain { kept with
      mapKeys := fun _ => mapped
      setElements := by simp [Configuration.own, isSet]
      solo := fun _ => solo
      weak := fun _ => role ▸ weak
      layered := by simp [Configuration.own, isMapOfSets]
      unkeyed := by simp [Configuration.own, isOneToOne]
      valued := fun _ => isMap } isOneToOne, weakMap⟩
  · cases found

/-- Every base that can be named is a well-formed weak map. -/
theorem resolve_wellFormed {name : String} {result : Configuration × Origin}
    (resolved : resolve name = .ok result) :
    result.1.WellFormed ∧ result.1.family ∈ baseFamilies := by
  unfold resolve at resolved
  split at resolved
  · refine base_wellFormed resolved rfl (by decide) ?_ (by decide) (by decide) (by decide)
    simp only [List.mem_singleton, forall_eq]
    exact key_legal .weak rfl rfl
  · refine base_wellFormed resolved rfl (by decide) ?_ (by decide) (by decide) (by decide)
    simp only [List.mem_cons, List.not_mem_nil, or_false, forall_eq_or_imp, forall_eq]
    exact ⟨key_legal .weak rfl rfl, key_legal .strong rfl rfl⟩
  · refine base_wellFormed resolved rfl (by decide) ?_ (by decide) (by decide) (by decide)
    simp only [List.mem_cons, List.not_mem_nil, or_false, forall_eq_or_imp, forall_eq]
    exact ⟨key_legal .weak rfl rfl, key_legal .weak rfl rfl⟩
  · cases resolved

end WellKnown

end CompositeKeys
