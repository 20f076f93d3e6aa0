import Mathlib.Data.List.Forall2

/-! Results of checks that are made one after another. -/

namespace CompositeKeys

variable {ε α β : Type}

theorem bind_eq_ok {first : Except ε α} {next : α → Except ε β} {result : β} :
    first >>= next = .ok result ↔ ∃ value, first = .ok value ∧ next value = .ok result := by
  cases first with
  | error error => simp [bind, Except.bind]
  | ok value => simp [bind, Except.bind]

/-- A check that succeeds leaves the outcome to what comes after it. -/
theorem exists_bind_ok {first : Except ε α} {next : α → Except ε β} {value : α}
    (given : first = .ok value) (rest : ∃ result, next value = .ok result) :
    ∃ result, first >>= next = .ok result := by
  obtain ⟨result, last⟩ := rest
  exact ⟨result, bind_eq_ok.mpr ⟨value, given, last⟩⟩

section Guards
variable {check : Prop} [Decidable check] {fault : ε} {next : PUnit → Except ε α} {result : α}

/-- What is refused under a condition is accepted only without it. -/
theorem next_of_refused (passed : (if check then throw fault >>= next else next ⟨⟩) = .ok result) :
    ¬ check ∧ next ⟨⟩ = .ok result := by
  split at passed
  · cases passed
  next unmet => exact ⟨unmet, passed⟩

theorem next_of_required (passed : (if check then next ⟨⟩ else throw fault >>= next) = .ok result) :
    check ∧ next ⟨⟩ = .ok result := by
  split at passed
  next met => exact ⟨met, passed⟩
  · cases passed

end Guards

theorem pure_eq_ok {value result : α} :
    (pure value : Except ε α) = .ok result ↔ value = result := by
  simp [pure, Except.pure]

theorem map_eq_ok {first : Except ε α} {change : α → β} {result : β} :
    first.map change = .ok result ↔ ∃ value, first = .ok value ∧ change value = result := by
  cases first <;> simp [Except.map]

theorem toOption_eq_some {result : Except ε α} {value : α} :
    result.toOption = some value ↔ result = .ok value := by
  cases result <;> simp [Except.toOption]

/-- That a call succeeds with a result of some kind can be decided. -/
theorem exists_eq_ok {result : Except ε α} {holds : α → Prop} :
    (∃ value, result = .ok value ∧ holds value) ↔ ∃ value ∈ result.toOption, holds value := by
  simp only [Option.mem_def, toOption_eq_some]

theorem mapError_eq_ok {δ : Type} {first : Except ε α} {change : ε → δ} {result : α} :
    first.mapError change = .ok result ↔ first = .ok result := by
  cases first with
  | error error =>
    change Except.error (change error) = .ok result ↔ _
    simp
  | ok value =>
    change Except.ok value = .ok result ↔ _
    simp

theorem mapM_eq_ok_some {choice : Option α} {read : α → Except ε β} {result : β} :
    choice.mapM read = .ok (some result) ↔
      ∃ value, choice = some value ∧ read value = .ok result := by
  cases choice with
  | none => simp [pure, Except.pure]
  | some value => cases outcome : read value <;> simp [outcome, Functor.map, Except.map]

/-- Checks that succeed one after another have all succeeded. -/
theorem mapM_eq_ok {items : List α} {check : α → Except ε β} {values : List β}
    (made : items.mapM check = .ok values) :
    List.Forall₂ (fun item value => check item = .ok value) items values := by
  induction items generalizing values with
  | nil =>
    obtain rfl := pure_eq_ok.mp made
    exact .nil
  | cons item items ih =>
    rw [List.mapM_cons] at made
    obtain ⟨value, first, made⟩ := bind_eq_ok.mp made
    obtain ⟨others, rest, made⟩ := bind_eq_ok.mp made
    obtain rfl := pure_eq_ok.mp made
    exact .cons first (ih rest)

/-- Checks that all succeed succeed one after another. -/
theorem exists_mapM_ok {items : List α} {check : α → Except ε β}
    (each : ∀ item ∈ items, ∃ value, check item = .ok value) :
    ∃ values, items.mapM check = .ok values := by
  induction items with
  | nil => exact ⟨[], rfl⟩
  | cons item items ih =>
    obtain ⟨value, first⟩ := each item (by simp)
    obtain ⟨values, rest⟩ := ih fun other member => each other (List.mem_cons_of_mem _ member)
    rw [List.mapM_cons]
    exact exists_bind_ok first (exists_bind_ok rest ⟨value :: values, rfl⟩)

end CompositeKeys
