import CompositeKeys.Proofs.Files.Bearings
import CompositeKeys.Proofs.Collection.Declared
import CompositeKeys.Generation.Run

/-! Where modules are to be written. The path of a module goes on from the root of its run, but it may step
out of the root again. -/

namespace CompositeKeys.Generation
open Files Emission

theorem claim_root {run next : GenerationRun} {path : FilePath} {className : String} {claim : Claim × Bool}
    (claimed : run.claim path className = (next, .ok claim)) : next.root = run.root := by
  unfold GenerationRun.claim at claimed
  split at claimed
  · cases claimed
    rfl
  split at claimed
  · cases claimed
  split at claimed
  · cases claimed
  · cases claimed
    rfl

/-- A generator that enters a run is for the path that was asked for, which has the name of a file. -/
theorem register_output {builder : Builder} {output : FilePath} {options : CompileOptions}
    {run next : GenerationRun} {generator : Generator}
    (registered : Generator.register builder output options run = (next, .ok generator)) :
    builder.isLocked = true ∧ output.fileName?.isSome = true ∧ next.root = run.root ∧
      generator.output = output := by
  unfold Generator.register at registered
  split at registered
  · cases registered
  next locked =>
  split at registered
  · cases registered
  next named =>
  refine ⟨by simpa using locked, by simpa [← Option.isSome_iff_ne_none] using named, ?_⟩
  split at registered
  · cases registered
  next claimed =>
    cases registered
    exact ⟨claim_root claimed, rfl⟩
  next claimed =>
    have root := claim_root claimed
    dsimp only at registered
    split at registered
    · cases registered
      exact ⟨root, rfl⟩
    · cases registered

namespace Batch

variable {batch next : Batch} {builder : Builder} {relative : FilePath}

theorem add_ok (accepted : batch.add builder relative = (next, .ok ())) :
    relative.isAbsolute = false ∧ (batch.run.root.join relative).fileName?.isSome = true ∧
      next.run.root = batch.run.root ∧ ∃ generator : Generator,
        next.generators = batch.generators ++ [generator] ∧
        generator.output = batch.run.root.join relative := by
  unfold add at accepted
  split at accepted
  · cases accepted
  next relative =>
  split at accepted
  · cases accepted
  next registered =>
    cases accepted
    obtain ⟨-, named, root, output⟩ := register_output registered
    exact ⟨Bool.eq_false_iff.mpr relative, named, root, _, rfl, output⟩

/-- Every path that is accepted is taken from the root. It lies under the root, from wherever both are read,
exactly if it comes back into whatever it steps out of, as it does where it steps out of nothing. -/
theorem outputs_under_root_iff (accepted : batch.add builder relative = (next, .ok ())) :
    ∃ generator : Generator, next.generators = batch.generators ++ [generator] ∧
      generator.output = batch.run.root.join relative ∧
      (generator.output.bearing.Under batch.run.root.bearing ↔
        relative.bearing.Returns batch.run.root.bearing) ∧
      (generator.output.bearing.Under batch.run.root.bearing ↔
        ∀ tree : FileTree, tree.place batch.run.root <+: tree.place generator.output) ∧
      (relative.bearing.ups = 0 → generator.output.bearing.Under batch.run.root.bearing) := by
  obtain ⟨relative, -, -, generator, added, output⟩ := add_ok accepted
  refine ⟨generator, added, output, ?_⟩
  rw [output]
  have bearing := FilePath.bearing_join_eq batch.run.root relative
  have under := bearing ▸ @Bearing.after_under_iff batch.run.root.bearing _
  exact ⟨under, FilePath.under_iff_places (FilePath.isAbsolute_join _ relative),
    fun level => under.mpr (Bearing.returns_of_level level)⟩

theorem exists_of_added (added : (batch.add builder relative).2.isOk = true) :
    ∃ next, batch.add builder relative = (next, .ok ()) := by
  rcases outcome : batch.add builder relative with ⟨next, refused | ⟨⟩⟩
  · rw [outcome] at added
    cases added
  · exact ⟨next, rfl⟩

def cars : Builder := Builder.performAll ⟨⟨.map, .start⟩, .empty "Cars" (.map .strong)⟩
  [.addMapKey "car" "The car." false {}, .lock]

/-- Cars that leave the root and come back into it. -/
theorem outputs_under_root_back :
    let batch := create ⟨"shop/out"⟩ {} {}
    ∃ next generator, batch.add cars ⟨"new/../../out/Cars.mjs"⟩ = (next, .ok ()) ∧
      next.generators = [generator] ∧ generator.output.bearing.Under batch.run.root.bearing := by
  intro batch
  obtain ⟨next, added⟩ : ∃ next, batch.add cars ⟨"new/../../out/Cars.mjs"⟩ = (next, .ok ()) :=
    exists_of_added (by decide +kernel)
  obtain ⟨generator, generators, -, under, -⟩ := outputs_under_root_iff added
  exact ⟨next, generator, added, generators, under.mpr (by decide +kernel)⟩

/-- Cars are accepted that are to be written beside the root. -/
theorem output_beside_root :
    let batch := create ⟨"out"⟩ {} {}
    ∃ next generator, batch.add cars ⟨"../Cars.mjs"⟩ = (next, .ok ()) ∧ next.generators = [generator] ∧
      ¬ generator.output.bearing.Under batch.run.root.bearing := by
  intro batch
  obtain ⟨next, added⟩ : ∃ next, batch.add cars ⟨"../Cars.mjs"⟩ = (next, .ok ()) :=
    exists_of_added (by decide +kernel)
  obtain ⟨-, -, -, generator, generators, output⟩ := add_ok added
  exact ⟨next, generator, added, generators, output ▸ by decide +kernel⟩

end Batch

end CompositeKeys.Generation
