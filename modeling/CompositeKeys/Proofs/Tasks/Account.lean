import CompositeKeys.Proofs.Tasks.Graph
import CompositeKeys.Proofs.Tasks.Journal

/-! What the progress of a target accounts for. A target that has not begun has all its tasks in the
graph; one that is under way has taken them, and its progress agrees with the journal on what has
been done and on what remains. -/

namespace CompositeKeys.Tasks.Machine
open Journal

variable {World : Type}

/-- So many tasks of a target have been started and so many of them have come to a good end, after
everything that the target depends on; the others remain. -/
structure Reached (machine : Machine World) (target : String) (opened done : Nat)
    (rest : List (Program World)) : Prop where
  prepared : Prepared machine.graph.declared target machine.journal
  started : started target machine.journal = (added target machine.journal).zipIdx.take opened
  remaining : rest = (added target machine.journal).drop opened
  returned : Returned target done machine.journal

/-- Where nothing remains, everything has been done. -/
theorem Reached.completed {machine : Machine World} {target : String} {place : Nat}
    (reached : machine.Reached target place place []) : Completed target machine.journal := by
  have reach : (added target machine.journal).length ≤ place :=
    List.drop_eq_nil_iff.mp reached.remaining.symm
  refine ⟨?_, fun before below => reached.returned before (Nat.lt_of_lt_of_le below reach)⟩
  rw [reached.started, List.take_of_length_le (by simpa using reach)]

/-- Nothing of a target has been started, and all its tasks are there. -/
structure Idle (machine : Machine World) (target : String) : Prop where
  pending : machine.graph.pending target = added target machine.journal
  started : started target machine.journal = []

inductive Account (machine : Machine World) (target : String) : Option (Progress World) → Prop where
  | none (idle : machine.Idle target) : Account machine target none
  | begun (idle : machine.Idle target) : Account machine target (some .begun)
  | depending {done rest tasks}
      (taken : tasks = added target machine.journal)
      (started : started target machine.journal = [])
      (declared : machine.graph.declared target = some (done ++ rest))
      (finished : ∀ subtarget ∈ done, .finished subtarget (.ok ()) ∈ machine.journal) :
      Account machine target (some (.depending rest tasks))
  | working {place program rest} (reached : machine.Reached target (place + 1) place rest) :
      Account machine target (some (.working place program rest))
  | completed {place} (reached : machine.Reached target place place []) :
      Account machine target (some (.finished (.ok ())))
  | failed {error}
      (started : started target machine.journal <+: (added target machine.journal).zipIdx) :
      Account machine target (some (.finished (.error error)))

theorem Account.in_order {machine : Machine World} {target : String}
    {progress : Option (Progress World)} (account : machine.Account target progress) :
    started target machine.journal <+: (added target machine.journal).zipIdx := by
  cases account with
  | none idle | begun idle => exact idle.started ▸ List.nil_prefix
  | depending _ started => exact started ▸ List.nil_prefix
  | working reached => exact reached.started ▸ List.take_prefix ..
  | completed reached => exact reached.started ▸ List.take_prefix ..
  | failed started => exact started

/-- One step leaves a target as it is, apart from what others add to the journal. -/
structure Spares (before after : Machine World) (target : String) : Prop where
  pending : after.graph.pending target = before.graph.pending target
  added : added target after.journal = added target before.journal
  started : started target after.journal = started target before.journal
  grown : before.journal ⊆ after.journal

theorem Idle.spared {before after : Machine World} {target : String} (idle : before.Idle target)
    (spares : before.Spares after target) : after.Idle target :=
  ⟨by rw [spares.pending, idle.pending, spares.added], spares.started.trans idle.started⟩

theorem Reached.spared {before after : Machine World} {target : String} {opened done : Nat}
    {rest : List (Program World)} (reached : before.Reached target opened done rest)
    (spares : before.Spares after target)
    (kept : ∀ name subtargets, before.graph.declared name = some subtargets →
      after.graph.declared name = some subtargets) : after.Reached target opened done rest := by
  refine ⟨reached.prepared.mono kept spares.grown, ?_, ?_, reached.returned.mono spares.grown⟩
  · rw [spares.started, spares.added, reached.started]
  · rw [spares.added, reached.remaining]

theorem Account.spared {before after : Machine World} {target : String}
    {progress : Option (Progress World)} (account : before.Account target progress)
    (spares : before.Spares after target)
    (kept : ∀ name subtargets, before.graph.declared name = some subtargets →
      after.graph.declared name = some subtargets) : after.Account target progress := by
  cases account with
  | none idle => exact .none (idle.spared spares)
  | begun idle => exact .begun (idle.spared spares)
  | depending taken started declared finished =>
    exact .depending (taken.trans spares.added.symm) (spares.started.trans started)
      (kept _ _ declared) fun subtarget member => spares.grown (finished subtarget member)
  | working reached => exact .working (reached.spared spares kept)
  | completed reached => exact .completed (reached.spared spares kept)
  | failed started => exact .failed (by rw [spares.started, spares.added]; exact started)

/-- What holds of a graph and its targets at any time. -/
structure Valid (machine : Machine World) : Prop where
  sorted : Graph.Sorted machine.graph.targets
  account : ∀ target, machine.Account target (machine.progress? target)
  finished : ∀ target outcome,
    .finished target outcome ∈ machine.journal ↔
      machine.progress? target = some (.finished outcome)
  orderly : Orderly machine.graph.declared machine.journal
  early : ¬ machine.graph.Settled →
    (∀ event ∈ machine.journal, ∃ target task, event = .added target task) ∧
      ∀ target progress, machine.progress? target = some progress → progress = .begun

theorem Valid.settled {machine : Machine World} (valid : machine.Valid) {target : String}
    {progress : Progress World} (current : machine.progress? target = some progress)
    (begun : progress ≠ .begun) : machine.graph.Settled :=
  Classical.byContradiction fun unsettled => begun ((valid.early unsettled).2 target progress current)

section Progress

variable (machine : Machine World) (target other : String)

theorem setProgress_progress? {current : Progress World} (progress : Progress World)
    (running : machine.progress? target = some current) :
    (machine.setProgress target progress).progress? other =
      if other = target then some progress else machine.progress? other := by
  refine (lookup_map_update machine.runs target other fun _ => progress).trans ?_
  rw [show machine.runs.lookup target = some current from running]
  rfl

theorem start_progress? :
    (machine.start target).progress? other =
      if other = target then some ((machine.progress? target).getD .begun)
      else machine.progress? other := by
  unfold start
  cases current : machine.progress? target with
  | some progress =>
    dsimp only
    split
    next same => rw [same, current, Option.getD_some]
    · rfl
  | none => exact lookup_cons machine.runs target other .begun

theorem operate_progress? (operation : Operation (Program World)) :
    (machine.operate operation).1.progress? target = machine.progress? target := by
  unfold operate
  split
  · rfl
  · split <;> rfl

end Progress

/-- A step of one target in a graph that is settled. Whatever holds of the other targets goes on to
hold, so only the target itself and the new events have to be looked at. -/
theorem Valid.step {before after : Machine World} (valid : before.Valid) (target : String)
    (progress : Progress World) (events : List (Event World))
    (settled : after.graph.Settled) (sorted : Graph.Sorted after.graph.targets)
    (pending : ∀ other, other ≠ target → after.graph.pending other = before.graph.pending other)
    (kept : ∀ name subtargets, before.graph.declared name = some subtargets →
      after.graph.declared name = some subtargets)
    (runs : ∀ other, after.progress? other =
      if other = target then some progress else before.progress? other)
    (journal : after.journal = events ++ before.journal)
    (own : ∀ event ∈ events, event.Of target)
    (account : after.Account target (some progress))
    (finished : ∀ outcome,
      .finished target outcome ∈ after.journal ↔ progress = .finished outcome)
    (orderly : Orderly after.graph.declared before.journal →
      Orderly after.graph.declared after.journal) : after.Valid := by
  refine ⟨sorted, fun other => ?_, fun other outcome => ?_, orderly (valid.orderly.mono kept),
    fun unsettled => (unsettled settled).elim⟩
  · rw [runs other]
    split
    next same => exact same ▸ account
    next apart =>
      refine (valid.account other).spared ⟨pending other apart, ?_, ?_, ?_⟩ kept
      · rw [journal, added_append own]
      · rw [journal, started_append own apart]
      · rw [journal]
        exact List.subset_append_right ..
  · rw [runs other]
    split
    next same =>
      rw [same, finished outcome, Option.some.injEq]
    next apart =>
      rw [journal, finished_mem_append own apart]
      exact valid.finished other outcome

end CompositeKeys.Tasks.Machine
