import CompositeKeys.Proofs.Tasks.Execution

/-! Soundness of execution under any interleaving. Whatever is declared, waited for and carried out in
whichever order, no task is started twice or before it is due, and everybody who waits for a target
is told the same. -/

namespace CompositeKeys.Tasks.Machine
open Journal

variable {World : Type}

theorem outcome?_eq_some {machine : Machine World} {target : String} {outcome : Outcome} :
    machine.outcome? target = some outcome ↔
      machine.progress? target = some (.finished outcome) := by
  unfold outcome?
  split
  next ended => simp [ended]
  next other =>
    refine ⟨nofun, fun ended => (other outcome ended).elim⟩

/-- What execution promises of every target: its tasks are started in the order in which they were
added, each at most once; every event was due when it happened; waiting for a target yields its one
outcome; and a good outcome stands for everything that the target depends on and has to do. -/
structure Sound (machine : Machine World) : Prop where
  once : ∀ target,
    started target machine.journal <+: (added target machine.journal).zipIdx
  due : ∀ later event earlier, machine.journal = later ++ event :: earlier →
    event.Due machine.graph.declared earlier
  finished : ∀ target outcome,
    .finished target outcome ∈ machine.journal ↔ machine.outcome? target = some outcome
  delivered : ∀ waiting target outcome,
    .delivered waiting target outcome ∈ machine.journal → machine.outcome? target = some outcome
  complete : ∀ target, machine.outcome? target = some (.ok ()) →
    Prepared machine.graph.declared target machine.journal ∧ Completed target machine.journal

theorem Valid.sound {machine : Machine World} (valid : machine.Valid) : machine.Sound := by
  have finished : ∀ target outcome, .finished target outcome ∈ machine.journal ↔
      machine.outcome? target = some outcome := fun target outcome =>
    (valid.finished target outcome).trans outcome?_eq_some.symm
  have due : ∀ later event earlier, machine.journal = later ++ event :: earlier →
      event.Due machine.graph.declared earlier := fun later event earlier split =>
    Orderly.due (split ▸ valid.orderly)
  refine ⟨fun target => (valid.account target).in_order, due, finished, ?_, ?_⟩
  · intro waiting target outcome member
    obtain ⟨later, earlier, split⟩ := List.append_of_mem member
    refine (finished target outcome).mp (split ▸ List.mem_append_right _ (.tail _ ?_))
    exact due later _ earlier split
  · intro target good
    have account := valid.account target
    rw [outcome?_eq_some.mp good] at account
    cases account with
    | completed reached => exact ⟨reached.prepared, reached.completed⟩

theorem moves_append (machine : Machine World) (first last : List (Move World)) :
    machine.moves (first ++ last) = (machine.moves first).moves last := List.foldl_append

/-- Settling is a sequence of steps. -/
theorem settle_eq_moves (limit : Nat) (machine : Machine World) :
    ∃ moves, machine.settle limit = machine.moves moves := by
  induction limit generalizing machine with
  | zero => exact ⟨[], rfl⟩
  | succ limit ih =>
    unfold settle
    split
    next next found =>
      obtain ⟨run, _, stepped⟩ := List.exists_of_findSome?_eq_some found
      obtain ⟨steps, settled⟩ := ih next
      have taken : machine.move (.advance run.1) = next := by simp [move, stepped]
      refine ⟨.advance run.1 :: steps, settled.trans ?_⟩
      exact congrArg (·.moves steps) taken.symm
    · exact ⟨[], rfl⟩

theorem Valid.outcome_moves {machine : Machine World} (valid : machine.Valid) {target : String}
    {outcome : Outcome} (ended : machine.outcome? target = some outcome)
    (moves : List (Move World)) : (machine.moves moves).outcome? target = some outcome := by
  have told := (valid.finished target outcome).mpr (outcome?_eq_some.mp ended)
  have kept := (moves_journal machine moves).subset told
  exact outcome?_eq_some.mpr (((valid.moves moves).finished target outcome).mp kept)

/-- Execution is sound under any interleaving of declaring, waiting and steps of targets, and once a
target has an outcome, everybody who waits for it from then on is told that outcome. -/
theorem sound_of_moves (world : World) (moves : List (Move World)) :
    let machine := ({ world } : Machine World).moves moves
    machine.Sound ∧ ∀ target outcome, machine.outcome? target = some outcome →
      ∀ more limit, (machine.moves more).outcome? target = some outcome ∧
        ((machine.moves more).waitFor target limit).2 = some outcome := by
  intro machine
  have valid : machine.Valid := (valid_initial world).moves moves
  refine ⟨valid.sound, fun target outcome ended more limit => ?_⟩
  refine ⟨valid.outcome_moves ended more, ?_⟩
  obtain ⟨steps, settled⟩ := settle_eq_moves limit ((machine.moves more).start target)
  have waited : (machine.moves more).start target =
      machine.moves (more ++ [.start target]) := by
    rw [moves_append]
    rfl
  show (((machine.moves more).start target).settle limit).outcome? target = some outcome
  rw [settled, waited, ← moves_append]
  exact valid.outcome_moves ended _

/-- A target whose task waits twice for another one, which runs once. -/
example :
    let once : Program (List String) := .suspend (.act ("once" :: ·) fun _ => .finish (.ok ()))
    let twice : Program (List String) := .await "other" fun _ => .await "other" .finish
    let declare : List (Move (List String)) :=
      [.operate (.create "other"), .operate (.addTask "other" once),
        .operate (.addTask rootName twice)]
    let run : List (Move (List String)) := .start rootName :: .start "other" ::
      (List.replicate 8 [.advance rootName, .advance "other"]).flatten
    let machine := ({ world := [] } : Machine (List String)).moves (declare ++ run)
    machine.outcome? rootName = some (.ok ()) ∧ machine.world = ["once"] := by
  constructor <;> rfl

end CompositeKeys.Tasks.Machine
