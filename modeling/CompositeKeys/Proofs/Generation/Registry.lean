import CompositeKeys.Proofs.Files.Paths
import CompositeKeys.Proofs.Files.Sorting
import CompositeKeys.Proofs.Generation.Refusals
import Mathlib.Data.List.Induction

/-! What a run knows after any number of requests to enter it. The requests that claim their paths own the
targets under that of the modules, one each and in their order; the known paths are theirs, and whoever
asks for one of them later is answered with the claim of its owner. -/

namespace CompositeKeys.Generation
open Files Tasks Emission

/-- What a generator is asked to be made from. -/
structure Enrollment where
  builder : Builder
  output : FilePath
  options : CompileOptions

namespace Enrollment

def register (request : Enrollment) (run : GenerationRun) :
    GenerationRun × Except GenerationError Generator :=
  Generator.register request.builder request.output request.options run

def order (root : FilePath) (request : Enrollment) : ModuleOrder :=
  orderOf root request.builder request.options request.output

def claim (request : Enrollment) : Claim := ⟨request.builder.className, request.output.text⟩

/-- Whether a request gets its path, if nobody has claimed that before. -/
def claims (request : Enrollment) : Bool :=
  request.builder.isLocked && request.output.fileName?.isSome &&
    request.output.text ∉ rootName :: GenerationRun.fixedTargets

def enter (owners : List Enrollment) (request : Enrollment) : List Enrollment :=
  if request.claims && !owners.any (·.output.same request.output) then owners ++ [request] else owners

/-- The requests that get their paths: each is the first one for its path that can. -/
def owners (requests : List Enrollment) : List Enrollment := requests.foldl enter []

end Enrollment

def GenerationRun.registerAll (run : GenerationRun) (requests : List Enrollment) : GenerationRun :=
  requests.foldl (fun run request => (request.register run).1) run

section Register

variable {builder : Builder} {output : FilePath} {options : CompileOptions} {run next : GenerationRun}
  {generator : Generator}

theorem claim_known {className : String} {claim : Claim} {new : Bool}
    (claimed : run.claim output className = (next, .ok (claim, new))) :
    next.known = if new then insertPath output claim run.known else run.known := by
  unfold GenerationRun.claim at claimed
  split at claimed
  · cases claimed
    rfl
  split at claimed
  · cases claimed
  split at claimed
  · cases claimed
  · cases claimed
    rfl

/-- Only a generator that owns its target makes its path known. -/
theorem register_ok (registered : Generator.register builder output options run = (next, .ok generator)) :
    builder.isLocked = true ∧ output.fileName?.isSome = true ∧ next.known =
      if generator.ownsTarget then insertPath output generator.claim run.known else run.known := by
  unfold Generator.register at registered
  split at registered
  · cases registered
  next locked =>
  split at registered
  · cases registered
  next named =>
  refine ⟨by simpa using locked, by simpa [← Option.isSome_iff_ne_none] using named, ?_⟩
  split at registered
  · cases registered
  next claimed =>
    cases registered
    exact claim_known claimed
  next claimed =>
    have known := claim_known claimed
    dsimp only at registered
    split at registered
    · cases registered
      exact known
    · cases registered

theorem Founded.accepts (founded : Founded run.machine.graph) (locked : builder.isLocked = true)
    (named : output.fileName?.isSome = true) {claim : Claim} {new : Bool}
    (claimed : run.claim output builder.className = (next, .ok (claim, new))) (options : CompileOptions) :
    ∃ next generator, Generator.register builder output options run = (next, .ok generator) := by
  have unnamed : output.fileName?.isNone = false := Option.isNone_eq_false_iff.mpr named
  simp only [Generator.register, locked, unnamed, claimed]
  cases new with
  | false => exact ⟨_, _, rfl⟩
  | true =>
    obtain ⟨machine, added⟩ := founded.claimed_adds claimed (ModuleOrder.work ⟨builder.configuration,
      options, output, importPrefix output next.helperDirectory⟩ |>.task claim.target)
    simp only [added]
    exact ⟨_, _, rfl⟩

end Register

section Prepared

variable {root : FilePath} {checker : CheckerSettings} {workspace : Workspace} {orders : List ModuleOrder}
  {run next : GenerationRun} {builder : Builder} {output : FilePath} {options : CompileOptions}
  (prepared : Prepared root checker workspace orders run)
include prepared

theorem Prepared.founded : Founded run.machine.graph := by
  obtain ⟨text, gathers⟩ := prepared.planned.gathers
  refine ⟨prepared.planned.layered, ?_⟩
  rw [description?, gathers]
  rfl

theorem Prepared.refused_known {error : GenerationError}
    (refused : Generator.register builder output options run = (next, .error error)) :
    next.known = run.known := by
  rcases prepared.founded.refused refused with rfl | ⟨barrier, half⟩
  · rfl
  · cases refused.symm.trans (prepared.founded.half_claims half)
    rfl

/-- No module is written by a target that is there in any run. -/
theorem Prepared.plain {order : ModuleOrder} (member : order ∈ orders) :
    order.output.text ∉ rootName :: GenerationRun.fixedTargets := by
  have planned := prepared.planned
  have among : order.job ∈ orders.map ModuleOrder.job := List.mem_map.mpr ⟨order, member, rfl⟩
  have early := List.mem_append_left (lastJobs root checker) among
  have distinct := planned.distinct
  rw [List.map_append] at distinct
  have apart := (List.nodup_append.mp distinct).2.2 order.job.target (List.mem_map.mpr ⟨_, among, rfl⟩)
  intro fixed
  rcases List.mem_cons.mp fixed with same | fixed
  · exact planned.job_ne_root early same
  rcases List.mem_cons.mp fixed with same | late
  · exact planned.job_ne_modules early same
  · exact apart order.output.text late rfl

/-- A path that no order is for is nobody's target, unless it is that of a target there in any run. -/
theorem Prepared.new_target (new : ∀ order ∈ orders, order.output.same output = false)
    (plain : output.text ∉ rootName :: GenerationRun.fixedTargets) :
    run.machine.graph.target? output.text = none := by
  rw [← Option.not_isSome_iff_eq_none]
  intro present
  rcases prepared.planned.only _ present with root | gathers | listed
  · exact plain (List.mem_cons.mpr (.inl root))
  · exact plain (.tail _ (List.mem_cons.mpr (.inl gathers)))
  · rw [List.map_append] at listed
    rcases List.mem_append.mp listed with module | late
    · obtain ⟨job, member, same⟩ := List.mem_map.mp module
      obtain ⟨order, among, rfl⟩ := List.mem_map.mp member
      have equal : order.output = output := congrArg FilePath.mk same
      have apart := new order among
      rw [equal, FilePath.same_self] at apart
      cases apart
    · exact plain (.tail _ (.tail _ late))

theorem Prepared.accepts (locked : builder.isLocked = true) (named : output.fileName?.isSome = true)
    (new : ∀ order ∈ orders, order.output.same output = false)
    (plain : output.text ∉ rootName :: GenerationRun.fixedTargets) (options : CompileOptions) :
    ∃ next generator, Generator.register builder output options run = (next, .ok generator) := by
  have unknown : run.claim? output = none := by
    cases found : run.claim? output with
    | none => rfl
    | some claim =>
      obtain ⟨order, member, same, _⟩ := prepared.claimed output claim found
      cases same.symm.trans (new order member)
  obtain ⟨claimed, accepted, _⟩ := @Prepared.claim_new _ _ _ _ _ prepared builder options output unknown
    (prepared.new_target new plain)
  exact prepared.founded.accepts locked named accepted options

end Prepared

/-- What a run knows of the requests that own its targets. -/
structure Ledger (root : FilePath) (checker : CheckerSettings) (owners : List Enrollment)
    (run : GenerationRun) : Prop where
  prepared : Prepared root checker {} (owners.map (Enrollment.order root)) run
  known : run.known.Perm (owners.map fun owner => (owner.output, owner.claim))
  apart : (owners.map (·.output.components)).Nodup
  named : ∀ owner ∈ owners, owner.output.fileName?.isSome = true

section Ledger

variable {root : FilePath} {checker : CheckerSettings} {owners : List Enrollment} {run : GenerationRun}

theorem ledger_create (root : FilePath) (checker : CheckerSettings) :
    Ledger root checker [] (.create root checker) :=
  ⟨prepared_create root checker, .refl _, List.nodup_nil, nofun⟩

section Register

variable (ledger : Ledger root checker owners run) (request : Enrollment)

theorem order_new (others : owners.any (·.output.same request.output) = false) :
    ∀ order ∈ owners.map (Enrollment.order root), order.output.same request.output = false := by
  intro order member
  obtain ⟨owner, among, rfl⟩ := List.mem_map.mp member
  exact Bool.eq_false_iff.mpr (List.any_eq_false.mp others owner among)

include ledger

/-- A request that gets its path is not refused. -/
theorem Ledger.enter_refused {next : GenerationRun} {error : GenerationError}
    (refused : request.register run = (next, .error error)) : Enrollment.enter owners request = owners := by
  refine if_neg fun enters => ?_
  obtain ⟨claims, others⟩ := Bool.and_eq_true_iff.mp enters
  obtain ⟨guards, plain⟩ := Bool.and_eq_true_iff.mp claims
  obtain ⟨locked, named⟩ := Bool.and_eq_true_iff.mp guards
  have new := @order_new root owners request (Bool.not_eq_true _ ▸ Bool.eq_false_of_not_eq_true' others)
  obtain ⟨accepted, generator, registered⟩ := ledger.prepared.accepts locked named new
    (of_decide_eq_true plain) request.options
  cases refused.symm.trans registered

theorem Ledger.register : Ledger root checker (Enrollment.enter owners request) (request.register run).1 := by
  have registered := ledger.prepared.register request.builder request.options request.output
  generalize outcome : Generator.register request.builder request.output request.options run = result
    at registered
  rw [Enrollment.register, outcome]
  cases registered with
  | refused error later =>
    rw [ledger.enter_refused request outcome]
    refine ⟨later, ?_, ledger.apart, ledger.named⟩
    rw [ledger.prepared.refused_known outcome]
    exact ledger.known
  | shares order member same =>
    obtain ⟨owner, among, rfl⟩ := List.mem_map.mp member
    have taken : owners.any (·.output.same request.output) = true :=
      List.any_eq_true.mpr ⟨owner, among, same⟩
    rw [Enrollment.enter, taken, Bool.not_true, Bool.and_false, if_neg Bool.false_ne_true]
    exact ledger
  | owns new later =>
    obtain ⟨locked, named, known⟩ := register_ok outcome
    have last : request.order root ∈ owners.map (Enrollment.order root) ++ [request.order root] :=
      List.mem_append_right _ (.head _)
    have plain : request.output.text ∉ rootName :: GenerationRun.fixedTargets := later.plain last
    have apart : ∀ owner ∈ owners, owner.output.same request.output = false :=
      fun owner among => new (owner.order root) (List.mem_map.mpr ⟨owner, among, rfl⟩)
    have others : owners.any (·.output.same request.output) = false :=
      List.any_eq_false.mpr fun owner among => Bool.eq_false_iff.mp (apart owner among)
    have enters : Enrollment.enter owners request = owners ++ [request] := by
      rw [Enrollment.enter, Enrollment.claims, locked, named, others, decide_eq_true plain]
      rfl
    rw [enters]
    refine ⟨?_, ?_, ?_, ?_⟩
    · rw [List.map_append]
      exact later
    · rw [known, List.map_append]
      exact (insertPath_perm ..).trans (ledger.known.append_right _)
    · rw [List.map_append]
      refine ledger.apart.append (List.nodup_singleton _) ?_
      rw [List.map_singleton, List.disjoint_singleton]
      intro listed
      obtain ⟨owner, among, same⟩ := List.mem_map.mp listed
      cases (apart owner among).symm.trans (FilePath.same_iff.mpr same)
    · rw [List.forall_mem_append]
      exact ⟨ledger.named, List.forall_mem_singleton.mpr named⟩

/-- A request that gets its path owns it from then on. -/
theorem Ledger.owns (claims : request.claims = true)
    (new : owners.any (·.output.same request.output) = false) :
    ∃ next, request.register run =
        (next, .ok { claim := request.claim, output := request.output, ownsTarget := true }) ∧
      Ledger root checker (owners ++ [request]) next := by
  have enters : Enrollment.enter owners request = owners ++ [request] := by
    rw [Enrollment.enter, claims, new]
    rfl
  have later := ledger.register request
  have registered := ledger.prepared.register request.builder request.options request.output
  rw [enters] at later
  rcases outcome : request.register run with ⟨next, result⟩
  rw [outcome] at later
  rw [show Generator.register request.builder request.output request.options run = _ from outcome] at registered
  cases registered with
  | refused error =>
    have refused := ledger.enter_refused request outcome
    rw [enters] at refused
    exact absurd refused (by simp)
  | shares order member same =>
    cases (order_new request new order member).symm.trans same
  | owns => exact ⟨next, rfl, later⟩

end Register

theorem ledger_registerAll (root : FilePath) (checker : CheckerSettings) (requests : List Enrollment) :
    Ledger root checker (Enrollment.owners requests)
      ((GenerationRun.create root checker).registerAll requests) := by
  induction requests using List.reverseRecOn with
  | nil => exact ledger_create root checker
  | append_singleton requests request ledger =>
    rw [GenerationRun.registerAll, Enrollment.owners, List.foldl_append, List.foldl_append]
    exact ledger.register request

/-- The paths of a run and its targets, once the owners have claimed theirs. -/
structure OnePerPath (root : FilePath) (owners : List Enrollment) (run : GenerationRun) : Prop where
  known : run.known.Perm (owners.map fun owner => (owner.output, owner.claim))
  paths : (owners.map (·.output.components)).Nodup
  subtargets : run.machine.graph.subtargets GenerationRun.modulesTarget = owners.map (·.output.text)
  distinct : (run.machine.graph.subtargets GenerationRun.modulesTarget).Nodup
  unfixed : ∀ name ∈ rootName :: GenerationRun.fixedTargets,
    name ∉ run.machine.graph.subtargets GenerationRun.modulesTarget
  jobs : ∀ owner ∈ owners, ∃ text, run.machine.graph.target? owner.output.text =
    some ⟨some text, [], [(owner.order root).work.task owner.output.text]⟩
  only : ∀ name, (run.machine.graph.target? name).isSome = true ↔
    name ∈ rootName :: GenerationRun.fixedTargets ∨ name ∈ owners.map (·.output.text)
  unshared : ∀ first second claim other, run.claim? first = some claim →
    run.claim? second = some other → claim.target = other.target → first.same second = true
  shared : ∀ owner ∈ owners, ∀ request : Enrollment, owner.output.same request.output = true →
    request.builder.isLocked = true → request.register run =
      (run, .ok { claim := owner.claim, output := request.output, ownsTarget := false })

section Ledger

variable (ledger : Ledger root checker owners run)
include ledger

theorem Ledger.subtargets : run.machine.graph.subtargets GenerationRun.modulesTarget =
    owners.map (·.output.text) := by
  obtain ⟨text, gathers⟩ := ledger.prepared.planned.gathers
  rw [Graph.subtargets_of_target? gathers, List.map_map, List.map_map]
  rfl

theorem Ledger.only (name : String) : (run.machine.graph.target? name).isSome = true ↔
    name ∈ rootName :: GenerationRun.fixedTargets ∨ name ∈ owners.map (·.output.text) := by
  have planned := ledger.prepared.planned
  have targets : ((owners.map (Enrollment.order root)).map ModuleOrder.job).map Job.target =
      owners.map (·.output.text) := by
    rw [List.map_map, List.map_map]
    rfl
  constructor
  · intro present
    rcases planned.only name present with rfl | rfl | listed
    · exact .inl (.head _)
    · exact .inl (.tail _ (.head _))
    · rw [List.map_append, targets] at listed
      rcases List.mem_append.mp listed with owned | late
      · exact .inr owned
      · exact .inl (.tail _ (.tail _ late))
  · have held : ∀ job ∈ (owners.map (Enrollment.order root)).map ModuleOrder.job ++ lastJobs root checker,
        (run.machine.graph.target? job.target).isSome = true := by
      intro job member
      obtain ⟨text, found⟩ := planned.jobs job member
      rw [found]
      rfl
    rintro (fixed | owned)
    · rcases List.mem_cons.mp fixed with rfl | fixed
      · exact planned.layered.rooted
      rcases List.mem_cons.mp fixed with rfl | late
      · obtain ⟨text, gathers⟩ := planned.gathers
        rw [gathers]
        rfl
      · obtain ⟨job, member, rfl⟩ : ∃ job ∈ lastJobs root checker, job.target = name :=
          List.mem_map.mp late
        exact held job (List.mem_append_right _ member)
    · rw [← targets] at owned
      obtain ⟨job, member, rfl⟩ := List.mem_map.mp owned
      exact held job (List.mem_append_left _ member)

/-- Whoever has claimed a path is the owner of it. -/
theorem Ledger.owner_of_claim {path : FilePath} {claim : Claim} (claimed : run.claim? path = some claim) :
    ∃ owner ∈ owners, owner.output.same path = true ∧ owner.claim = claim := by
  obtain ⟨order, member, same, told⟩ := ledger.prepared.claimed path claim claimed
  obtain ⟨owner, among, rfl⟩ := List.mem_map.mp member
  exact ⟨owner, among, same, told⟩

theorem Ledger.unshared {first second : FilePath} {claim other : Claim}
    (claimed : run.claim? first = some claim) (also : run.claim? second = some other)
    (target : claim.target = other.target) : first.same second = true := by
  obtain ⟨owner, _, same, rfl⟩ := ledger.owner_of_claim claimed
  obtain ⟨another, _, like, rfl⟩ := ledger.owner_of_claim also
  have output : owner.output = another.output := congrArg FilePath.mk target
  rw [FilePath.same_iff] at same like ⊢
  rw [← same, ← like, output]

theorem Ledger.shared {owner request : Enrollment} (member : owner ∈ owners)
    (same : owner.output.same request.output = true) (locked : request.builder.isLocked = true) :
    request.register run =
      (run, .ok { claim := owner.claim, output := request.output, ownsTarget := false }) := by
  have components := FilePath.same_iff.mp same
  have unnamed : request.output.fileName?.isNone = false := by
    rw [Option.isNone_eq_false_iff, FilePath.fileName?, ← components]
    exact ledger.named owner member
  have claimed : run.claim? request.output = some owner.claim := by
    cases found : run.claim? request.output with
    | none =>
      have unlike := ledger.prepared.unclaimed request.output found (owner.order root)
        (List.mem_map.mpr ⟨owner, member, rfl⟩)
      cases same.symm.trans unlike
    | some claim =>
      obtain ⟨another, among, like, rfl⟩ := ledger.owner_of_claim found
      have unique := List.inj_on_of_nodup_map ledger.apart among member
        ((FilePath.same_iff.mp like).trans components.symm)
      rw [unique]
  simp only [Enrollment.register, Generator.register, locked, unnamed, GenerationRun.claim, claimed]
  rfl

end Ledger

theorem Ledger.onePerPath (ledger : Ledger root checker owners run) : OnePerPath root owners run := by
  have planned := ledger.prepared.planned
  refine ⟨ledger.known, ledger.apart, ledger.subtargets, planned.layered.distinct _, ?_, ?_, ledger.only,
    fun _ _ _ _ => ledger.unshared, fun _ member _ => ledger.shared member⟩
  · intro name fixed listed
    rw [ledger.subtargets] at listed
    obtain ⟨owner, among, rfl⟩ := List.mem_map.mp listed
    exact ledger.prepared.plain (List.mem_map.mpr ⟨owner, among, rfl⟩) fixed
  · intro owner member
    have job : (owner.order root).job ∈ (owners.map (Enrollment.order root)).map ModuleOrder.job :=
      List.mem_map.mpr ⟨_, List.mem_map.mpr ⟨owner, member, rfl⟩, rfl⟩
    exact planned.jobs _ (List.mem_append_left _ job)

/-- Whatever generators are asked for, one after another, and whether they are accepted or not: the known
paths are those of the owners, each of which has one target, with the one task of writing its module;
no other target has been added; and a path that is known already, in whatever spelling, changes nothing
and is answered with the claim of its owner. -/
theorem one_target_per_path (root : FilePath) (checker : CheckerSettings) (requests : List Enrollment) :
    OnePerPath root (Enrollment.owners requests)
        ((GenerationRun.create root checker).registerAll requests) ∧
      ∀ first next : String,
        FilePath.same ⟨first ++ "//" ++ next⟩ ⟨first ++ "/" ++ next⟩ = true ∧
          FilePath.same ⟨first ++ "/./" ++ next⟩ ⟨first ++ "/" ++ next⟩ = true :=
  ⟨(ledger_registerAll root checker requests).onePerPath, FilePath.same_respelled⟩

/-- Of cars that are asked for four times, once under the name of the root target, one owns a path. -/
example :
    let cars : Builder := Builder.performAll ⟨⟨.map, .start⟩, .empty "Cars" (.map .strong)⟩
      [.addMapKey "car" "The car." false {}, .lock]
    (Enrollment.owners [⟨cars, ⟨"main"⟩, {}⟩, ⟨cars, ⟨"a//b"⟩, {}⟩, ⟨cars, ⟨"a/b"⟩, {}⟩,
      ⟨cars, ⟨"a/./b"⟩, {}⟩]).map (·.output.text) = ["a//b"] := by
  decide +kernel

end Ledger

end CompositeKeys.Generation
