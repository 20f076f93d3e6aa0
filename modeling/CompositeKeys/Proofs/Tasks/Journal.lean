import CompositeKeys.Tasks.Machine

/-! What a journal tells. Tasks are counted by their places among those added to a target. A journal
is orderly if each of its events was due when it happened, given what targets depend on. -/

namespace CompositeKeys.Tasks

variable {World : Type}

namespace Journal

/-- The tasks added to a target, in the order in which they were added. -/
def added (target : String) : List (Event World) → List (Program World)
  | [] => []
  | .added other task :: earlier =>
    if other = target then added target earlier ++ [task] else added target earlier
  | _ :: earlier => added target earlier

/-- The tasks of a target that have been started, each with its place, in the order of starting. -/
def started (target : String) : List (Event World) → List (Program World × Nat)
  | [] => []
  | .started other place task :: earlier =>
    if other = target then started target earlier ++ [(task, place)] else started target earlier
  | _ :: earlier => started target earlier

/-- Everything that a target depends on has come to a good end. -/
def Prepared (declared : String → Option (List String)) (target : String)
    (journal : List (Event World)) : Prop :=
  ∃ subtargets, declared target = some subtargets ∧
    ∀ subtarget ∈ subtargets, .finished subtarget (.ok ()) ∈ journal

/-- All tasks of a target below a place have come to a good end. -/
def Returned (target : String) (place : Nat) (journal : List (Event World)) : Prop :=
  ∀ before < place, .returned target before (.ok ()) ∈ journal

/-- Every task added to a target has been started, in turn, and has come to a good end. -/
def Completed (target : String) (journal : List (Event World)) : Prop :=
  started target journal = (added target journal).zipIdx ∧
    Returned target (added target journal).length journal

end Journal

open Journal

/-- Whether an event was due after those before it. -/
def Event.Due (declared : String → Option (List String)) (earlier : List (Event World)) :
    Event World → Prop
  | .started target place _ => Prepared declared target earlier ∧ Returned target place earlier
  | .finished target outcome => (∀ other, .finished target other ∉ earlier) ∧
      (outcome = .ok () → Prepared declared target earlier ∧ Completed target earlier)
  | .delivered _ target outcome => .finished target outcome ∈ earlier
  | .added .. | .returned .. => True

/-- The events of a step of one target. -/
def Event.Of (target : String) : Event World → Prop
  | .started other .. | .returned other .. | .finished other .. | .delivered other .. =>
    other = target
  | .added .. => False

namespace Journal

def Orderly (declared : String → Option (List String)) : List (Event World) → Prop
  | [] => True
  | event :: earlier => event.Due declared earlier ∧ Orderly declared earlier

theorem Orderly.due {declared : String → Option (List String)} {event : Event World}
    {later earlier : List (Event World)} (orderly : Orderly declared (later ++ event :: earlier)) :
    event.Due declared earlier := by
  induction later with
  | nil => exact orderly.1
  | cons _ _ ih => exact ih orderly.2

section Growth

variable {declared next : String → Option (List String)} {target : String}
  {before after : List (Event World)}

theorem Prepared.mono (prepared : Prepared declared target before)
    (kept : ∀ name subtargets, declared name = some subtargets → next name = some subtargets)
    (grown : before ⊆ after) : Prepared next target after := by
  obtain ⟨subtargets, found, done⟩ := prepared
  exact ⟨subtargets, kept _ _ found, fun subtarget member => grown (done subtarget member)⟩

theorem Returned.mono {place : Nat} (returned : Returned target place before)
    (grown : before ⊆ after) : Returned target place after :=
  fun place below => grown (returned place below)

theorem Orderly.mono {journal : List (Event World)} (orderly : Orderly declared journal)
    (kept : ∀ name subtargets, declared name = some subtargets → next name = some subtargets) :
    Orderly next journal := by
  induction journal with
  | nil => trivial
  | cons event earlier ih =>
    refine ⟨?_, ih orderly.2⟩
    have due := orderly.1
    cases event with
    | started => exact ⟨due.1.mono kept (List.Subset.refl _), due.2⟩
    | finished =>
      exact ⟨due.1, fun good => ⟨(due.2 good).1.mono kept (List.Subset.refl _), (due.2 good).2⟩⟩
    | delivered | added | returned => exact due

theorem Orderly.of_added {journal : List (Event World)}
    (only : ∀ event ∈ journal, ∃ target task, event = .added target task) :
    Orderly declared journal := by
  induction journal with
  | nil => trivial
  | cons event earlier ih =>
    obtain ⟨target, task, rfl⟩ := only event (.head _)
    exact ⟨trivial, ih fun other member => only other (.tail _ member)⟩

end Growth

section Step

variable {target : String} {events : List (Event World)} (own : ∀ event ∈ events, event.Of target)
include own

theorem added_append (other : String) (journal : List (Event World)) :
    added other (events ++ journal) = added other journal := by
  induction events with
  | nil => rfl
  | cons event events ih =>
    have rest := ih fun later member => own later (.tail _ member)
    cases event with
    | added => exact (own _ (.head _)).elim
    | started | returned | finished | delivered => exact rest

theorem started_append {other : String} (apart : other ≠ target) (journal : List (Event World)) :
    started other (events ++ journal) = started other journal := by
  induction events with
  | nil => rfl
  | cons event events ih =>
    have rest := ih fun later member => own later (.tail _ member)
    cases event with
    | started name =>
      have same : name = target := own _ (.head _)
      simpa [started, same, Ne.symm apart] using rest
    | added => exact (own _ (.head _)).elim
    | returned | finished | delivered => exact rest

theorem finished_mem_append {other : String} (apart : other ≠ target) {outcome : Outcome}
    {journal : List (Event World)} :
    .finished other outcome ∈ events ++ journal ↔ .finished other outcome ∈ journal := by
  refine List.mem_append.trans ⟨fun either => either.resolve_left fun member => ?_, .inr⟩
  exact apart (own _ member)

end Step

end Journal

end CompositeKeys.Tasks
