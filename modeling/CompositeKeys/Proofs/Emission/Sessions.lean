import CompositeKeys.Emission.Session
import CompositeKeys.Proofs.Emission.Entries

/-! When entries of documentation are filled in. A session remembers in one place whether anything has
come in and beside each entry whether it has been filled in. Neither shows: an entry is filled in by the
first request behind it, with what is known by then, and after that nothing changes it any more. -/

namespace CompositeKeys.Emission

theorem Entry.check_refused {entry : Entry} (unusable : ¬ entry.Usable) (name : String) :
    ∃ fault, entry.check name = .error (.invalidEntry name fault) := by
  cases checked : entry.check name with
  | ok => exact absurd (Entry.check_ok_iff.mp checked) unusable
  | error error =>
    unfold Entry.check at checked
    split at checked
    · split at checked
      · exact ⟨_, checked.symm⟩
      · split at checked
        · exact ⟨_, checked.symm⟩
        · cases checked
    · split at checked
      · exact ⟨_, checked.symm⟩
      · cases checked

namespace DocumentationSession

def Call.Asks : Call → Prop
  | .addDimension _ | .add _ _ => False
  | .entry _ | .block _ _ => True

/-- A call that puts an entry under a name. -/
def Call.Enters (name : String) : Call → Prop
  | .add other written => other = name ∧ written.Usable
  | .addDimension _ | .entry _ | .block _ _ => False

def Call.Mutates : Call → Prop
  | .addDimension _ => True
  | .add _ written => written.Usable
  | .entry _ | .block _ _ => False

instance (call : Call) : Decidable call.Asks := by
  cases call <;> unfold Call.Asks <;> infer_instance

instance (name : String) (call : Call) : Decidable (call.Enters name) := by
  cases call <;> unfold Call.Enters <;> infer_instance

instance (call : Call) : Decidable call.Mutates := by
  cases call <;> unfold Call.Mutates <;> infer_instance

def Call.registered? : Call → Option Dimension
  | .addDimension dimension => some dimension
  | .add _ _ | .entry _ | .block _ _ => none

/-- The entry under a name, and whether it has been filled in. -/
def found? (session : DocumentationSession) (name : String) : Option (Entry × Bool) :=
  session.documentation.found? name

def awaits (session : DocumentationSession) (name : String) : Bool :=
  (session.found? name).any fun row => !row.2

/-- How often calls fill in what stands under a name. -/
def fillings (name : String) : DocumentationSession → List Call → Nat
  | _, [] => 0
  | session, call :: calls =>
    let next := (session.perform call).1
    (if session.awaits name && !next.awaits name then 1 else 0) + fillings name next calls

/-- Unless something has come in, everything is filled in. -/
def Kept (session : DocumentationSession) : Prop :=
  session.stale = false → ∀ row ∈ session.documentation.entries, row.2.2 = true

inductive Step (session : DocumentationSession) : Call → DocumentationSession → Prop where
  | registers (dimension : Dimension) :
      Step session (.addDimension dimension) (session.addDimension dimension)
  | enters {name : String} {entry : Entry} {next : Documentation} (usable : entry.Usable)
      (added : session.documentation.add name entry = .ok next) :
      Step session (.add name entry) { documentation := next, stale := true }
  | refuses {name : String} {entry : Entry} (unusable : ¬ entry.Usable) :
      Step session (.add name entry) session
  | asks {call : Call} (asks : call.Asks) : Step session call session.refreshed

section Steps
variable {session next : DocumentationSession} {name : String} {entry : Entry} {call : Call}

theorem perform_usable (usable : entry.Usable) (session : DocumentationSession) (name : String) :
    ∃ added, session.documentation.add name entry = .ok added ∧
      session.perform (.add name entry) = ({ documentation := added, stale := true }, .ok .done) := by
  obtain ⟨added, made, -⟩ := Documentation.exists_add_ok usable session.documentation name
  have entered : session.add name entry = .ok { documentation := added, stale := true } :=
    bind_eq_ok.mpr ⟨added, made, rfl⟩
  exact ⟨added, made, by simp only [perform, entered]⟩

theorem perform_unusable (unusable : ¬ entry.Usable) (session : DocumentationSession) (name : String) :
    ∃ fault, session.perform (.add name entry) = (session, .error (.invalidEntry name fault)) := by
  obtain ⟨fault, refused⟩ := Entry.check_refused unusable name
  have kept : session.add name entry = .error (.invalidEntry name fault) := by
    unfold DocumentationSession.add Documentation.add
    rw [refused]
    rfl
  exact ⟨fault, by simp only [perform, kept]⟩

theorem step (session : DocumentationSession) (call : Call) : Step session call (session.perform call).1 := by
  cases call with
  | addDimension dimension => exact .registers dimension
  | add name entry =>
    by_cases usable : entry.Usable
    · obtain ⟨added, made, performed⟩ := perform_usable usable session name
      rw [performed]
      exact .enters usable made
    · obtain ⟨fault, performed⟩ := perform_unusable usable session name
      rw [performed]
      exact .refuses usable
  | entry name => exact .asks trivial
  | block name indent => exact .asks trivial

theorem perform_asks (asks : call.Asks) : (session.perform call).1 = session.refreshed := by
  cases call with
  | addDimension => cases asks
  | add => cases asks
  | entry => rfl
  | block => rfl

theorem refreshed_found (session : DocumentationSession) (name : String) :
    session.refreshed.found? name =
      if session.stale then (session.found? name).map fun (entry, done) =>
        (if done then entry else entry.fill session.documentation.placeholders.fill, true)
      else session.found? name := by
  unfold refreshed
  split
  · exact Documentation.found_filled session.documentation name
  · rfl

theorem refreshed_refreshed (session : DocumentationSession) :
    session.refreshed.refreshed = session.refreshed := by
  unfold refreshed
  by_cases stale : session.stale = true
  · simp [stale]
  · simp [stale]

/-- What is answered to a request hangs on the refreshed session alone. -/
theorem answer_refreshed (asks : call.Asks) :
    (session.refreshed.perform call).2 = (session.perform call).2 := by
  cases call with
  | addDimension => cases asks
  | add => cases asks
  | entry name => simp only [perform, refreshed_refreshed]
  | block name indent => simp only [perform, refreshed_refreshed]

/-- Only requests and insertions under a name change what stands there. -/
theorem Step.found (taken : Step session call next) (idle : ¬ call.Asks)
    (elsewhere : ¬ call.Enters name) : next.found? name = session.found? name := by
  cases taken with
  | registers dimension =>
    simp only [addDimension, found?, Documentation.found?, Documentation.addDimension]
    split <;> rfl
  | enters usable added =>
    refine ((Documentation.add_ok added).2 name).trans (if_neg ?_)
    intro same
    exact elsewhere ⟨same.symm, usable⟩
  | refuses => rfl
  | asks asks => exact absurd asks idle

theorem Step.stale (taken : Step session call next) (idle : ¬ call.Asks)
    (stale : session.stale = true) : next.stale = true := by
  cases taken with
  | registers => rfl
  | enters => rfl
  | refuses => exact stale
  | asks asks => exact absurd asks idle

theorem Step.kept (taken : Step session call next) (kept : session.Kept) : next.Kept := by
  cases taken with
  | registers => exact nofun
  | enters => exact nofun
  | refuses => exact kept
  | asks =>
    unfold refreshed
    split
    · intro _ row member
      obtain ⟨_, _, rfl⟩ := List.mem_map.mp member
      rfl
    · exact kept

theorem Step.refreshed_eq (taken : Step session call next) (idle : ¬ call.Mutates) :
    next.refreshed = session.refreshed := by
  cases taken with
  | registers => exact absurd trivial idle
  | enters usable _ => exact absurd usable idle
  | refuses => rfl
  | asks => exact refreshed_refreshed session

/-- Beside its entries, documentation changes by the dimensions that are registered only. -/
theorem Step.known (taken : Step session call next) :
    next.documentation = { call.registered?.toList.foldl Documentation.addDimension session.documentation with
      entries := next.documentation.entries } := by
  cases taken with
  | registers => rfl
  | enters _ added => exact (Documentation.add_ok added).1
  | refuses => rfl
  | asks asks =>
    have none : call.registered? = none := by
      cases call with
      | addDimension => cases asks
      | add => cases asks
      | entry => rfl
      | block => rfl
    rw [none]
    unfold refreshed
    split <;> rfl

end Steps

section Runs
variable {session : DocumentationSession} {name : String} {entry : Entry} {calls : List Call}

theorem performAll_cons (session : DocumentationSession) (call : Call) (calls : List Call) :
    session.performAll (call :: calls) = (session.perform call).1.performAll calls := rfl

theorem performAll_append (session : DocumentationSession) (first second : List Call) :
    session.performAll (first ++ second) = (session.performAll first).performAll second :=
  List.foldl_append

theorem Kept.performAll (kept : session.Kept) (calls : List Call) : (session.performAll calls).Kept := by
  induction calls generalizing session with
  | nil => exact kept
  | cons call calls ih => exact ih ((session.step call).kept kept)

theorem filled_eq_self {documentation : Documentation}
    (done : ∀ row ∈ documentation.entries, row.2.2 = true) : documentation.filled = documentation := by
  have same : documentation.filled.entries = documentation.entries := by
    refine (List.map_congr_left fun row member => ?_).trans (List.map_id _)
    have filled := done row member
    obtain ⟨name, entry, _⟩ := row
    dsimp only at filled
    simp [filled]
  calc
    documentation.filled = { documentation with entries := documentation.filled.entries } := rfl
    _ = documentation := by rw [same]

/-- It makes no difference that entries are filled in only if something has come in. -/
theorem Kept.refreshed (kept : session.Kept) :
    session.refreshed.documentation = session.documentation.filled := by
  unfold DocumentationSession.refreshed
  cases stale : session.stale with
  | true => rfl
  | false => exact (filled_eq_self (kept stale)).symm

/-- What is registered is what the calls registered: keys one behind the other, and the last value. -/
theorem registered (session : DocumentationSession) (calls : List Call) :
    let dimensions := calls.filterMap Call.registered?
    let known := (session.performAll calls).documentation
    known.className = session.documentation.className ∧
      known.checkedTypes = session.documentation.checkedTypes ∧
      known.arguments =
        session.documentation.arguments ++ dimensions.filter (·.role ≠ .value) ∧
      known.value = (dimensions.filter (·.role = .value)).getLast?.or session.documentation.value := by
  induction calls using List.reverseRecOn with
  | nil => exact ⟨rfl, rfl, (List.append_nil _).symm, rfl⟩
  | append_singleton calls call ih =>
    obtain ⟨className, checkedTypes, arguments, value⟩ := ih
    have known := ((session.performAll calls).step call).known
    have last : session.performAll (calls ++ [call]) = ((session.performAll calls).perform call).1 :=
      performAll_append session calls [call]
    rw [last, known, List.filterMap_append]
    cases said : call.registered? with
    | none =>
      simp only [List.filterMap_cons, List.filterMap_nil, said, List.append_nil]
      exact ⟨className, checkedTypes, arguments, value⟩
    | some dimension =>
      by_cases valued : dimension.role = .value
      · simp [said, Documentation.addDimension, valued, className, checkedTypes, arguments]
      · simp [said, Documentation.addDimension, valued, className, checkedTypes, arguments, value]

theorem waits (quiet : ∀ call ∈ calls, ¬ call.Asks ∧ ¬ call.Enters name)
    (found : session.found? name = some (entry, false)) (stale : session.stale = true) :
    (session.performAll calls).stale = true ∧
      (session.performAll calls).found? name = some (entry, false) ∧
      fillings name session calls = 0 := by
  induction calls generalizing session with
  | nil => exact ⟨stale, found, rfl⟩
  | cons call calls ih =>
    obtain ⟨⟨idle, elsewhere⟩, others⟩ := List.forall_mem_cons.mp quiet
    have taken := session.step call
    have next := (taken.found idle elsewhere).trans found
    obtain ⟨later, last, none⟩ := ih others next (taken.stale idle stale)
    refine ⟨later, last, ?_⟩
    rw [fillings, none]
    simp [awaits, found, next]

/-- An entry that has been filled in stays as it is until another one takes its place. -/
theorem stays (kept : ∀ call ∈ calls, ¬ call.Enters name)
    (found : session.found? name = some (entry, true)) :
    (session.performAll calls).found? name = some (entry, true) ∧ fillings name session calls = 0 := by
  induction calls generalizing session with
  | nil => exact ⟨found, rfl⟩
  | cons call calls ih =>
    obtain ⟨elsewhere, others⟩ := List.forall_mem_cons.mp kept
    have next : (session.perform call).1.found? name = some (entry, true) := by
      by_cases asks : call.Asks
      · rw [perform_asks asks, refreshed_found, found]
        simp
      · exact ((session.step call).found asks elsewhere).trans found
    obtain ⟨last, none⟩ := ih others next
    refine ⟨last, ?_⟩
    rw [fillings, none]
    simp [awaits, found]

/-- The first request fills in an entry with what is known, and nothing touches it later. -/
theorem filled_once {request : Call} (stale : session.stale = true)
    (found : session.found? name = some (entry, false)) (asks : request.Asks)
    (kept : ∀ call ∈ calls, ¬ call.Enters name) :
    (session.performAll (request :: calls)).found? name =
        some (entry.fill session.documentation.placeholders.fill, true) ∧
      fillings name session (request :: calls) = 1 := by
  have next : (session.perform request).1.found? name =
      some (entry.fill session.documentation.placeholders.fill, true) := by
    rw [perform_asks asks, refreshed_found, found, stale]
    rfl
  obtain ⟨last, none⟩ := stays kept next
  refine ⟨last, ?_⟩
  rw [fillings, none]
  simp [awaits, found, next]

theorem refreshed_performAll (nothing : ∀ call ∈ calls, ¬ call.Mutates) :
    (session.performAll calls).refreshed = session.refreshed := by
  induction calls generalizing session with
  | nil => rfl
  | cons call calls ih =>
    obtain ⟨idle, others⟩ := List.forall_mem_cons.mp nothing
    exact (ih others).trans ((session.step call).refreshed_eq idle)

end Runs

/-- The answer to a request tells an entry that has been filled in as it is. -/
theorem answer_filled {session : DocumentationSession} {name : String} {entry : Entry}
    (found : session.found? name = some (entry, true)) :
    (session.perform (.entry name)).2 = .ok (.entry entry) := by
  have filled : session.refreshed.documentation.found? name = some (entry, true) := by
    refine (refreshed_found session name).trans ?_
    rw [found]
    simp
  have answered := Documentation.entry_ok_iff.mpr ⟨true, filled⟩
  simp only [perform, answered]
  rfl

theorem ofFlavor_eq (flavor : Flavor) (className : String) (checkedTypes : Bool) :
    ofFlavor flavor className checkedTypes =
      .ok (performAll { documentation := { className, checkedTypes } }
        (flavor.entries.map fun row => .add row.1 row.2)) := by
  have inserted : ∀ (rows : List (String × Entry)) (session : DocumentationSession),
      (∀ row ∈ rows, row.2.Usable) →
        rows.foldlM (fun session row => session.add row.1 row.2) session =
          .ok (session.performAll (rows.map fun row => .add row.1 row.2)) := by
    intro rows
    induction rows with
    | nil => exact fun session _ => rfl
    | cons row rows ih =>
      intro session usable
      obtain ⟨first, others⟩ := List.forall_mem_cons.mp usable
      obtain ⟨added, made, performed⟩ := perform_usable first session row.1
      rw [List.foldlM_cons, List.map_cons, performAll_cons, performed]
      exact bind_eq_ok.mpr ⟨_, bind_eq_ok.mpr ⟨added, made, rfl⟩, ih _ others⟩
  exact inserted flavor.entries _ flavor.entries_usable

/-- Every entry is filled in once, by the first request behind it, whatever that asks for, and with what
is known then. What comes later leaves it as it is. Requests change no later answer, and what is refused
changes nothing. -/
theorem session_fills_once (flavor : Flavor) (className : String) (checkedTypes : Bool) :
    let blank : DocumentationSession := { documentation := { className, checkedTypes } }
    ofFlavor flavor className checkedTypes =
        .ok (blank.performAll (flavor.entries.map fun row => .add row.1 row.2)) ∧
      ∀ calls : List Call,
        let session := blank.performAll calls
        let dimensions := calls.filterMap Call.registered?
        (session.documentation.className = className ∧
          session.documentation.checkedTypes = checkedTypes ∧
          session.documentation.arguments = dimensions.filter (·.role ≠ .value) ∧
          session.documentation.value = (dimensions.filter (·.role = .value)).getLast?) ∧
        (∀ name indent, (session.perform (.block name indent)).2 =
          (session.documentation.filled.block name indent).map .block) ∧
        (∀ between request, (∀ call ∈ between, ¬ call.Mutates) → request.Asks →
          ((session.performAll between).perform request).2 = (session.perform request).2) ∧
        (∀ name entry, ¬ entry.Usable → ∃ fault,
          session.perform (.add name entry) = (session, .error (.invalidEntry name fault))) ∧
        ∀ name entry waiting request later, entry.Usable →
          (∀ call ∈ waiting, ¬ call.Asks ∧ ¬ call.Enters name) → request.Asks →
          (∀ call ∈ later, ¬ call.Enters name) →
          let entered := (session.perform (.add name entry)).1
          let asked := entered.performAll waiting
          let last := asked.performAll (request :: later)
          let filled := entry.fill asked.documentation.placeholders.fill
          (asked.found? name = some (entry, false) ∧ fillings name entered waiting = 0) ∧
            last.found? name = some (filled, true) ∧
            fillings name asked (request :: later) = 1 ∧
            (last.perform (.entry name)).2 = .ok (.entry filled) := by
  intro blank
  refine ⟨ofFlavor_eq flavor className checkedTypes, ?_⟩
  intro calls session dimensions
  -- A session without entries keeps them all filled in, and no call breaks that.
  have kept : session.Kept := Kept.performAll (fun _ => List.forall_mem_nil _) calls
  refine ⟨?known, ?block, ?requests, ?refused, ?filled⟩
  case known =>
    obtain ⟨same, types, arguments, value⟩ := blank.registered calls
    exact ⟨same, types, arguments, value.trans (Option.or_none ..)⟩
  case block =>
    intro name indent
    simp only [perform, kept.refreshed]
  case requests =>
    intro between request nothing asks
    rw [← answer_refreshed asks, refreshed_performAll nothing, answer_refreshed asks]
  case refused =>
    intro name entry unusable
    exact perform_unusable unusable session name
  case filled =>
    intro name entry waiting request later usable quiet asks lasting
    obtain ⟨added, made, performed⟩ := perform_usable usable session name
    rw [performed]
    have entered : found? { documentation := added, stale := true } name = some (entry, false) :=
      ((Documentation.add_ok made).2 name).trans (if_pos rfl)
    obtain ⟨stale, still, none⟩ := waits quiet entered rfl
    obtain ⟨filled, once⟩ := filled_once stale still asks lasting
    exact ⟨⟨still, none⟩, filled, once, answer_filled filled⟩

/-- An entry that comes in after a block names the keys that are known when the next one is asked for. -/
theorem custom_entry_filled_once :
    let key := fun name => ({ name, role := .mapKey .strong, description := "The key." } : Dimension)
    let entry : Entry :=
      { description := "Uses __argList__ of __className__.", returnsNothing := true }
    let blank : DocumentationSession :=
      { documentation := { className := "CarSeats", checkedTypes := false } }
    let session := blank.performAll [.addDimension (key "car"), .block "get" ""]
    let asked := session.performAll [.add "custom" entry, .addDimension (key "seatNumber")]
    let later : List Call := [.block "get" "", .addDimension (key "wheel"), .block "custom" ""]
    ((asked.performAll later).perform (.entry "custom")).2 =
        .ok (.entry { entry with description := "Uses car, seatNumber of CarSeats." }) ∧
      fillings "custom" asked later = 1 := by
  intro key entry blank session asked later
  obtain ⟨-, -, once, answered⟩ := ((session_fills_once .collection "CarSeats" false).2
    [.addDimension (key "car"), .block "get" ""]).2.2.2.2 "custom" entry [.addDimension (key "seatNumber")]
    (.block "get" "") [.addDimension (key "wheel"), .block "custom" ""] (by decide) (by decide) trivial
    (by decide)
  exact ⟨answered.trans (by decide +kernel), once⟩

end DocumentationSession

end CompositeKeys.Emission
