import CompositeKeys.Collection.Builder

/-! How the kinds of families exclude each other, and what may come before a phase in the order that
a family is declared in. -/

namespace CompositeKeys

namespace Order

theorem before_texts {order : Order} {before next : Phase}
    (text : next = .overview ∨ next = .importText) (follows : next ∈ order.successors before) :
    before ∈ [.start, .overview, .importText] := by
  rcases text with rfl | rfl <;> cases order <;> cases before <;>
    simp [successors, opening] at follows ⊢

theorem before_mapKeys {order : Order} {before : Phase}
    (follows : .mapKeys ∈ order.successors before) :
    (order = .map ∨ order = .mapOfSets) ∧ before ∈ [.start, .overview, .importText, .mapKeys] := by
  cases order <;> cases before <;> simp [successors, opening] at follows ⊢

theorem before_setElements {order : Order} {before : Phase}
    (follows : .setElements ∈ order.successors before) :
    (order = .set ∧ before ∈ [.start, .overview, .importText, .setElements]) ∨
      (order = .mapOfSets ∧ before ∈ [.mapKeys, .setElements]) := by
  cases order <;> cases before <;> simp [successors, opening] at follows ⊢

theorem before_valueType {order : Order} {before : Phase}
    (follows : .valueType ∈ order.successors before) : order = .map ∧ before = .mapKeys := by
  cases order <;> cases before <;> simp [successors, opening] at follows ⊢

theorem before_pairing {order : Order} {before : Phase}
    (follows : .pairing ∈ order.successors before) :
    order = .oneToOne ∧ before ∈ [.start, .overview, .importText] := by
  cases order <;> cases before <;> simp [successors, opening] at follows ⊢

theorem before_locked {order : Order} {before : Phase}
    (follows : .locked ∈ order.successors before) :
    (order = .map ∧ before ∈ [.mapKeys, .valueType]) ∨
      (order ∈ [.set, .mapOfSets] ∧ before = .setElements) ∨
        (order = .oneToOne ∧ before = .pairing) := by
  cases order <;> cases before <;> simp [successors, opening] at follows ⊢

end Order

namespace Family

theorem order_eq_map {family : Family} : family.order = .map ↔ family.isMap = true := by
  cases family <;> simp [order, isMapOfSets, isMap, isSet]

theorem order_eq_set {family : Family} : family.order = .set ↔ family.isSet = true := by
  cases family <;> simp [order, isMapOfSets, isMap, isSet]

theorem order_eq_mapOfSets {family : Family} :
    family.order = .mapOfSets ↔ family.isMapOfSets = true := by
  cases family <;> simp [order, isMapOfSets, isMap, isSet]

theorem order_eq_oneToOne {family : Family} :
    family.order = .oneToOne ↔ family.isOneToOne = true := by
  cases family <;> simp [order, isMapOfSets, isMap, isSet, isOneToOne]

theorem kinds {family : Family} (unpaired : family.isOneToOne = false) :
    family.isMap = true ∨ family.isSet = true ∨ family.isMapOfSets = true := by
  cases family <;> simp [isOneToOne, isMap, isSet, isMapOfSets] at unpaired ⊢

theorem of_isMap {family : Family} (map : family.isMap = true) :
    family.isSet = false ∧ family.isMapOfSets = false ∧ family.isOneToOne = false := by
  cases family <;> simp_all [isMap, isSet, isMapOfSets, isOneToOne]

theorem of_isSet {family : Family} (set : family.isSet = true) :
    family.isMap = false ∧ family.isMapOfSets = false ∧ family.isOneToOne = false := by
  cases family <;> simp_all [isMap, isSet, isMapOfSets, isOneToOne]

theorem of_isMapOfSets {family : Family} (layers : family.isMapOfSets = true) :
    family.isMap = false ∧ family.isSet = false ∧ family.isOneToOne = false := by
  cases family <;> simp_all [isMap, isSet, isMapOfSets, isOneToOne]

theorem of_isOneToOne {family : Family} (paired : family.isOneToOne = true) :
    family.isMap = false ∧ family.isSet = false ∧ family.isMapOfSets = false ∧
      family.isWeak = false ∧ family.solo? = none := by
  cases family <;> simp_all [isMap, isSet, isMapOfSets, isOneToOne, isWeak, solo?]

theorem allowsWeakMapKeys_isWeak {family : Family} (allowed : family.allowsWeakMapKeys = true) :
    family.isWeak = true := by
  cases family with
  | map retention | mapOfSets retention => cases retention <;> simp_all [allowsWeakMapKeys, isWeak]
  | set | oneToOne | soloMap | soloSet => cases allowed

theorem allowsWeakSetElements_isWeak {family : Family}
    (allowed : family.allowsWeakSetElements = true) :
    family.isWeak = true ∧ family.isSet = true := by
  cases family with
  | set retention => cases retention <;> simp_all [allowsWeakSetElements, isWeak, isSet]
  | map | mapOfSets | oneToOne | soloMap | soloSet => cases allowed

/-- A family has a solo form exactly as a plain map or set, and the form differs in nothing else. -/
theorem solo?_some {family solo : Family} (some : family.solo? = some solo) :
    solo.isSolo = true ∧ solo.isMap = family.isMap ∧ solo.isSet = family.isSet ∧
      solo.isMapOfSets = family.isMapOfSets ∧ solo.isOneToOne = family.isOneToOne ∧
      solo.isWeak = family.isWeak := by
  cases family <;> cases some <;> exact ⟨rfl, rfl, rfl, rfl, rfl, rfl⟩

theorem solo?_none {family : Family} (general : family.isSolo = false)
    (none : family.solo? = none) : ¬ (family.isMap = true ∨ family.isSet = true) := by
  cases family <;> simp_all [solo?, isSolo, isMap, isSet]

end Family

end CompositeKeys
