import CompositeKeys.Generation.Manifest
import CompositeKeys.Proofs.Collection.Lifecycle

/-! Manifests and the calls on a builder. The phases of a declaration come in one order, whatever its shape, so
that a manifest can list the calls of any declaration that has been locked, each in its own field, and names them
again in the order in which they were made. -/

namespace CompositeKeys

/-- The place of a phase among those that a declaration can go through. -/
def Phase.rank : Phase → Nat
  | .start => 0
  | .overview => 1
  | .importText => 2
  | .mapKeys => 3
  | .setElements => 4
  | .valueType => 5
  | .pairing => 6
  | .locked => 7
  | .errored => 8

/-- Phases are left for later ones, but for those that keys and elements are declared in. -/
theorem Order.rank_lt {order : Order} {before next : Phase} (follows : next ∈ order.successors before) :
    before.rank < next.rank ∨ before = next ∧ (next = .mapKeys ∨ next = .setElements) := by
  cases order <;> cases before <;> simp [successors, opening] at follows <;>
    rcases follows with rfl | rfl | rfl <;> simp [Phase.rank]

theorem Order.after_pairing {order : Order} {next : Phase} (follows : next ∈ order.successors .pairing) :
    next = .locked := by
  cases order <;> simp [successors] at follows
  exact follows

namespace Builder

/-- The calls that a builder accepts, of those that are made one after another. -/
def accepted (builder : Builder) : List Call → List Call
  | [] => []
  | call :: calls =>
    let (next, result) := builder.perform call
    if result.isOk then call :: next.accepted calls else next.accepted calls

section Accepted
variable {builder next : Builder} {call : Call} {calls : List Call}

theorem accepted_cons (performed : builder.perform call = (next, .ok ())) :
    builder.accepted (call :: calls) = call :: next.accepted calls := by
  rw [accepted, performed]
  rfl

theorem accepted_refused {error : BuildError} (refused : builder.perform call = (next, .error error)) :
    builder.accepted (call :: calls) = next.accepted calls := by
  rw [accepted, refused]
  rfl

theorem accepted_length_le (builder : Builder) (calls : List Call) :
    (builder.accepted calls).length ≤ calls.length := by
  induction calls generalizing builder with
  | nil => exact Nat.le_refl 0
  | cons call calls ih =>
    rcases performed : builder.perform call with ⟨next, error | ⟨⟩⟩
    · rw [accepted_refused performed]
      exact Nat.le_trans (ih next) (Nat.le_succ _)
    · rw [accepted_cons performed]
      exact Nat.succ_le_succ (ih next)

theorem performAll_cons {result : Except BuildError Unit} (performed : builder.perform call = (next, result)) :
    builder.performAll (call :: calls) = next.performAll calls := by
  rw [performAll, List.foldl_cons, performed]
  rfl

/-- A call is accepted in its turn, or locks again what is locked. -/
theorem step_of_accepted (performed : builder.perform call = (next, .ok ())) :
    (builder.phase = .locked ∧ call = .lock ∧ next = builder) ∨
      (call.phase ∈ builder.lifecycle.order.successors builder.phase ∧ next.phase = call.phase) := by
  rcases builder.perform_cases call with
    ⟨-, same⟩ | ⟨locked, again, same⟩ | ⟨-, error, same⟩ | ⟨configuration, follows, -, same⟩
  · cases performed.symm.trans same
  · cases performed.symm.trans same
    exact .inl ⟨locked, again, rfl⟩
  · cases performed.symm.trans same
  · cases performed.symm.trans same
    exact .inr ⟨follows, rfl⟩

theorem lock_of_phase (last : call.phase = .locked) : call = .lock := by
  cases call <;> first | rfl | cases last

end Accepted

end Builder

namespace Generation.Manifest
open Files

variable {builder made : Builder} {calls : List Call} {call : Call}

theorem make_ok_iff : make builder call = .ok made ↔ builder.perform call = (made, .ok ()) := by
  unfold make
  rcases builder.perform call with ⟨next, error | ⟨⟩⟩ <;> simp

theorem make_cons : (call :: calls).foldlM make builder = .ok made ↔
    ∃ next, builder.perform call = (next, .ok ()) ∧ calls.foldlM make next = .ok made := by
  rw [List.foldlM_cons, bind_eq_ok]
  simp only [make_ok_iff]

/-- Calls that must not be refused are calls that are all accepted. -/
theorem makes_iff : calls.foldlM make builder = .ok made ↔
    builder.accepted calls = calls ∧ builder.performAll calls = made := by
  induction calls generalizing builder with
  | nil => simp [Builder.accepted, Builder.performAll, pure, Except.pure]
  | cons call calls ih =>
    rw [make_cons]
    rcases performed : builder.perform call with ⟨next, error | ⟨⟩⟩
    · have short := next.accepted_length_le calls
      rw [Builder.accepted_refused performed]
      constructor
      · rintro ⟨_, same, -⟩
        cases same
      · rintro ⟨whole, -⟩
        rw [whole, List.length_cons] at short
        exact absurd short (Nat.not_succ_le_self _)
    · rw [Builder.accepted_cons performed, Builder.performAll_cons performed, List.cons.injEq]
      simp only [Prod.mk.injEq, and_true, exists_eq_left', ih, true_and]

/-- Where the last builder is locked, it comes from the accepted calls alone. -/
theorem makes_accepted (locked : (builder.performAll calls).isLocked = true) :
    (builder.accepted calls).foldlM make builder = .ok (builder.performAll calls) := by
  induction calls generalizing builder with
  | nil => rfl
  | cons call calls ih =>
    rcases performed : builder.perform call with ⟨next, error | ⟨⟩⟩
    · rw [Builder.performAll_cons performed] at locked ⊢
      rw [Builder.accepted_refused performed]
      have refused := congrArg Prod.snd performed
      have left : (builder.perform call).1 = next := congrArg Prod.fst performed
      by_cases sealed : builder.isLocked = true
      · rw [Builder.perform_of_locked sealed] at left
        subst left
        exact ih locked
      · -- A refused call ends what is not locked, and it stays so.
        have dead := left ▸ Builder.isDead_of_refused refused (Bool.eq_false_iff.mpr sealed)
        have stays : next.performAll calls = next :=
          Builder.performAll_of_fixed (fun call => by rw [Builder.perform_of_dead dead]) calls
        rw [stays, Builder.isLocked_iff, Builder.isDead_iff.mp dead] at locked
        cases locked
    · rw [Builder.performAll_cons performed] at locked ⊢
      rw [Builder.accepted_cons performed, make_cons]
      exact ⟨next, performed, ih locked⟩

/-- Once a declaration is paired or locked, it can be locked and nothing else. -/
theorem locks_of_last (last : builder.phase = .pairing ∨ builder.phase = .locked)
    (makes : calls.foldlM make builder = .ok made) : ∀ call ∈ calls, call = .lock := by
  induction calls generalizing builder with
  | nil => exact nofun
  | cons call calls ih =>
    obtain ⟨next, performed, makes⟩ := make_cons.mp makes
    have now : call = .lock ∧ next.phase = .locked := by
      rcases Builder.step_of_accepted performed with ⟨locked, rfl, rfl⟩ | ⟨follows, entered⟩
      · exact ⟨rfl, locked⟩
      · have ends : call.phase = .locked := by
          rcases last with last | last <;> rw [last] at follows
          · exact Order.after_pairing follows
          · cases follows
        exact ⟨Builder.lock_of_phase ends, entered.trans ends⟩
    exact List.forall_mem_cons.mpr ⟨now.1, ih (.inr now.2) makes⟩

section Note
variable (way : FilePath)

/-- Lists a call in a manifest. A base that is a builder is named by a way to its manifest. -/
def note (manifest : Manifest) : Call → Manifest
  | .setOverview text => { manifest with overview := some text }
  | .setImportText text => { manifest with importText := some text }
  | .addMapKey name description holdWeak options =>
    { manifest with mapKeys := manifest.mapKeys ++ [{ name, description, holdWeak, options }] }
  | .addSetElement name description holdWeak options =>
    { manifest with setElements := manifest.setElements ++ [{ name, description, holdWeak, options }] }
  | .setValue description options => { manifest with value := some { description, options } }
  | .configurePairing (.wellKnown name) reservedKey modulePath =>
    { manifest with pairing := some { base := some name, reservedKey, modulePath } }
  | .configurePairing (.builder _) reservedKey modulePath =>
    { manifest with pairing := some { baseManifest := some way, reservedKey, modulePath } }
  | .lock => manifest

/-- The manifest of a class that lists calls. -/
def listing (className : String) (outer : OuterShape) (inner : Option InnerShape) (calls : List Call) : Manifest :=
  calls.foldl (note way) { className, outer, inner }

end Note

/-- Whether a manifest says nothing of the calls that lead to a phase. -/
def Silent (manifest : Manifest) : Phase → Prop
  | .overview => manifest.overview = none
  | .importText => manifest.importText = none
  | .mapKeys => manifest.mapKeys = []
  | .setElements => manifest.setElements = []
  | .valueType => manifest.value = none
  | .pairing => manifest.pairing = none
  | .start | .locked | .errored => True

/-- The calls that a manifest stands for over a base, but for the lock. -/
def said (base : Option Builder) (manifest : Manifest) : Except ManifestError (List Call) :=
  (manifest.pairing.toList.mapM (pairingCall manifest.className base)).map (manifest.calls ++ ·)

/-- A declaration that has come to a phase has said nothing of later ones. -/
def Ahead (phase : Phase) (manifest : Manifest) : Prop :=
  ∀ later : Phase, phase.rank < later.rank → manifest.Silent later

section Said
variable {manifest : Manifest} {base : Option Builder} {way : FilePath}

theorem said_unpaired (unpaired : manifest.pairing = none) : said base manifest = .ok manifest.calls := by
  rw [said, unpaired]
  exact congrArg Except.ok (List.append_nil _)

theorem said_paired {pairing : PairingEntry} (paired : manifest.pairing = some pairing)
    (chosen : pairingCall manifest.className base pairing = .ok call) :
    said base manifest = .ok (manifest.calls ++ [call]) := by
  rw [said, paired, Option.toList_some, List.mapM_cons, chosen]
  rfl

theorem said_appended {next : Manifest} (unpaired : manifest.pairing = none) (still : next.pairing = none)
    (appended : next.calls = manifest.calls ++ [call]) :
    said base next = (said base manifest).map (· ++ [call]) := by
  rw [said_unpaired unpaired, said_unpaired still, appended]
  rfl

theorem silent_note {phase : Phase} (other : phase ≠ call.phase) :
    (note way manifest call).Silent phase ↔ manifest.Silent phase := by
  rcases call with _ | _ | _ | _ | _ | ⟨_ | _, _, _⟩ | _ <;> cases phase <;> first
    | exact Iff.rfl
    | exact absurd rfl other

/-- A call that comes in its turn is said after all others. -/
theorem said_note (way : FilePath) {before : Phase} {order : Order} (ahead : Ahead before manifest)
    (follows : call.phase ∈ order.successors before)
    (based : ∀ builder, call.base? = some builder → base = some builder) (goesOn : call ≠ .lock) :
    said base (note way manifest call) = (said base manifest).map (· ++ [call]) ∧
      Ahead call.phase (note way manifest call) := by
  have later : before.rank ≤ call.phase.rank := by
    rcases Order.rank_lt follows with less | ⟨same, -⟩
    · exact Nat.le_of_lt less
    · exact Nat.le_of_eq (congrArg Phase.rank same)
  have silent : ∀ phase : Phase, call.phase.rank < phase.rank → manifest.Silent phase :=
    fun phase beyond => ahead phase (Nat.lt_of_le_of_lt later beyond)
  have own : ∀ phase, call.phase = phase → phase ≠ .mapKeys → phase ≠ .setElements → manifest.Silent phase := by
    rintro _ rfl keys elements
    rcases Order.rank_lt follows with less | ⟨-, same | same⟩
    · exact ahead _ less
    · exact absurd same keys
    · exact absurd same elements
  have still : Ahead call.phase (note way manifest call) := by
    intro phase beyond
    refine (silent_note ?_).mpr (silent phase beyond)
    rintro rfl
    exact Nat.lt_irrefl _ beyond
  refine ⟨?_, still⟩
  have importText : call.phase.rank < 2 → manifest.importText = none := silent .importText
  have mapKeys : call.phase.rank < 3 → manifest.mapKeys = [] := silent .mapKeys
  have setElements : call.phase.rank < 4 → manifest.setElements = [] := silent .setElements
  have value : call.phase.rank < 5 → manifest.value = none := silent .valueType
  have pairing : call.phase.rank < 6 → manifest.pairing = none := silent .pairing
  cases call with
  | setOverview text =>
    have overview : manifest.overview = none := own .overview rfl (by decide) (by decide)
    simp only [Call.phase, Phase.rank, Nat.reduceLT, true_implies] at importText mapKeys setElements value pairing
    refine said_appended pairing pairing ?_
    simp [calls, note, overview, importText, mapKeys, setElements, value]
  | setImportText text =>
    have importText : manifest.importText = none := own .importText rfl (by decide) (by decide)
    simp only [Call.phase, Phase.rank, Nat.reduceLT, true_implies] at mapKeys setElements value pairing
    refine said_appended pairing pairing ?_
    simp [calls, note, importText, mapKeys, setElements, value]
  | addMapKey name description holdWeak options =>
    simp only [Call.phase, Phase.rank, Nat.reduceLT, true_implies] at setElements value pairing
    refine said_appended pairing pairing ?_
    simp [calls, note, setElements, value]
  | addSetElement name description holdWeak options =>
    simp only [Call.phase, Phase.rank, Nat.reduceLT, true_implies] at value pairing
    refine said_appended pairing pairing ?_
    simp [calls, note, value]
  | setValue description options =>
    have value : manifest.value = none := own .valueType rfl (by decide) (by decide)
    simp only [Call.phase, Phase.rank, Nat.reduceLT, true_implies] at pairing
    refine said_appended pairing pairing ?_
    simp [calls, note, value]
  | configurePairing choice reservedKey modulePath =>
    have pairing : manifest.pairing = none := own .pairing rfl (by decide) (by decide)
    rw [said_unpaired pairing]
    cases choice with
    | wellKnown name => exact said_paired rfl rfl
    | builder builder =>
      rw [based builder rfl]
      exact said_paired rfl rfl
  | lock => exact absurd rfl goesOn

theorem note_locks (locks : ∀ call ∈ calls, call = .lock) (manifest : Manifest) :
    calls.foldl (note way) manifest = manifest := by
  induction calls with
  | nil => rfl
  | cons call calls ih =>
    obtain ⟨rfl, others⟩ := List.forall_mem_cons.mp locks
    exact ih others

/-- A call that gives a base is the last one before the lock, so that a base given later is the only one. -/
theorem base_of_later {next other : Builder} (entered : next.phase = call.phase)
    (onwards : calls.foldlM make next = .ok made) (given : calls.findSome? Call.base? = some other) :
    (call :: calls).findSome? Call.base? = some other := by
  cases paired : call.base? with
  | none =>
    rw [List.findSome?_cons, paired]
    exact given
  | some first =>
    have ends : next.phase = .pairing := by
      rw [entered]
      cases call <;> first | rfl | cases paired
    obtain ⟨locking, among, gives⟩ := List.exists_of_findSome?_eq_some given
    rw [locks_of_last (.inl ends) onwards locking among] at gives
    cases gives

/-- The calls that lock a declaration are those that their listing says, in the same order, and the lock. -/
theorem said_notes (way : FilePath) (ahead : Ahead builder.phase manifest) (goesOn : builder.isLocked = false)
    (makes : calls.foldlM make builder = .ok made) (locked : made.isLocked = true)
    (based : ∀ other, calls.findSome? Call.base? = some other → base = some other) :
    ∃ rest, said base (calls.foldl (note way) manifest) = (said base manifest).map (· ++ rest) ∧
      (rest ++ [.lock]).foldlM make builder = .ok made := by
  induction calls generalizing builder manifest with
  | nil =>
    cases makes
    cases locked.symm.trans goesOn
  | cons call calls ih =>
    obtain ⟨next, performed, onwards⟩ := make_cons.mp makes
    obtain ⟨follows, entered⟩ := (Builder.step_of_accepted performed).resolve_left fun again =>
      absurd (Builder.isLocked_iff.mpr again.1) (Bool.eq_false_iff.mp goesOn)
    by_cases last : call = .lock
    · subst last
      have locks := locks_of_last (.inr entered) onwards
      have sealed : next.isLocked = true := Builder.isLocked_iff.mpr entered
      have ended : next = made := by
        rw [← (makes_iff.mp onwards).2]
        refine (Builder.performAll_of_fixed (fun call => ?_) calls).symm
        rw [Builder.perform_of_locked sealed]
      refine ⟨[], ?_, make_cons.mpr ⟨next, performed, congrArg Except.ok ended⟩⟩
      rw [List.foldl_cons, note, note_locks locks]
      cases said base manifest <;> simp [Except.map]
    · have own : ∀ other, call.base? = some other → base = some other := by
        intro other given
        refine based other ?_
        rw [List.findSome?_cons, given]
      have rest : ∀ other, calls.findSome? Call.base? = some other → base = some other :=
        fun other given => based other (base_of_later entered onwards given)
      obtain ⟨same, still⟩ := said_note way ahead follows own last
      have stillOpen : next.isLocked = false := by
        refine Bool.eq_false_iff.mpr fun sealed => last (Builder.lock_of_phase ?_)
        rw [← entered, Builder.isLocked_iff.mp sealed]
      obtain ⟨later, told, made⟩ := ih (entered ▸ still) stillOpen onwards rest
      refine ⟨call :: later, ?_, make_cons.mpr ⟨next, performed, made⟩⟩
      rw [List.foldl_cons, told, same]
      cases said base manifest <;> simp [Except.map]

/-- A manifest is built by the calls that it stands for, and the lock. -/
theorem build_ok_iff : manifest.build base = .ok made ↔
    ∃ created entries, Builder.create manifest.className manifest.outer manifest.inner = .ok created ∧
      said base manifest = .ok entries ∧ (entries ++ [Call.lock]).foldlM make created = .ok made := by
  simp only [build, said, bind_eq_ok, mapError_eq_ok, map_eq_ok]
  constructor
  · rintro ⟨created, creates, declared, declares, pairing, pairs, made⟩
    refine ⟨created, _, creates, ⟨pairing, pairs, rfl⟩, ?_⟩
    rw [List.append_assoc, List.foldlM_append, bind_eq_ok]
    exact ⟨declared, declares, made⟩
  · rintro ⟨created, entries, creates, ⟨pairing, pairs, rfl⟩, made⟩
    rw [List.append_assoc, List.foldlM_append, bind_eq_ok] at made
    obtain ⟨declared, declares, made⟩ := made
    exact ⟨created, creates, declared, declares, pairing, pairs, made⟩

theorem isLocked_of_build (built : manifest.build base = .ok made) : made.isLocked = true := by
  obtain ⟨created, entries, -, -, makes⟩ := build_ok_iff.mp built
  rw [List.foldlM_append, bind_eq_ok] at makes
  obtain ⟨declared, -, locks⟩ := makes
  obtain ⟨next, performed, ended⟩ := make_cons.mp locks
  cases ended
  rw [Builder.isLocked_iff]
  rcases Builder.step_of_accepted performed with ⟨locked, -, rfl⟩ | ⟨-, entered⟩
  · exact locked
  · exact entered

theorem note_shape (manifest : Manifest) (call : Call) :
    (note way manifest call).className = manifest.className ∧
      (note way manifest call).outer = manifest.outer ∧ (note way manifest call).inner = manifest.inner := by
  rcases call with _ | _ | _ | _ | _ | ⟨_ | _, _, _⟩ | _ <;> exact ⟨rfl, rfl, rfl⟩

theorem notes_shape (manifest : Manifest) (calls : List Call) :
    (calls.foldl (note way) manifest).className = manifest.className ∧
      (calls.foldl (note way) manifest).outer = manifest.outer ∧
      (calls.foldl (note way) manifest).inner = manifest.inner := by
  induction calls generalizing manifest with
  | nil => exact ⟨rfl, rfl, rfl⟩
  | cons call calls ih =>
    obtain ⟨className, outer, inner⟩ := ih (note way manifest call)
    obtain ⟨own, outside, inside⟩ := @note_shape way manifest call
    exact ⟨className.trans own, outer.trans outside, inner.trans inside⟩

theorem note_keys (keys : List KeyEntry) (manifest : Manifest) :
    (keys.map fun key => Call.addMapKey key.name key.description key.holdWeak key.options).foldl (note way) manifest =
      { manifest with mapKeys := manifest.mapKeys ++ keys } := by
  induction keys generalizing manifest with
  | nil => simp
  | cons key keys ih =>
    rw [List.map_cons, List.foldl_cons, ih, note, List.append_assoc]
    rfl

theorem note_elements (elements : List KeyEntry) (manifest : Manifest) :
    (elements.map fun key => Call.addSetElement key.name key.description key.holdWeak key.options).foldl
        (note way) manifest =
      { manifest with setElements := manifest.setElements ++ elements } := by
  induction elements generalizing manifest with
  | nil => simp
  | cons element elements ih =>
    rw [List.map_cons, List.foldl_cons, ih, note, List.append_assoc]
    rfl

theorem note_calls (manifest : Manifest) :
    manifest.calls.foldl (note way)
        { className := manifest.className, outer := manifest.outer, inner := manifest.inner } =
      { manifest with pairing := none } := by
  rcases manifest with ⟨className, outer, inner, overview, importText, mapKeys, setElements, value, pairing⟩
  simp only [calls, List.foldl_append, note_keys, note_elements]
  cases overview <;> cases importText <;> cases value <;> rfl

/-- What a manifest stands for is listed in that manifest again. -/
theorem listing_said {entries : List Call} (told : said base manifest = .ok entries) :
    ∃ way, listing way manifest.className manifest.outer manifest.inner (entries ++ [.lock]) = manifest := by
  obtain ⟨pairs, paired, rfl⟩ := map_eq_ok.mp told
  have whole : ∀ way, listing way manifest.className manifest.outer manifest.inner
      (manifest.calls ++ pairs ++ [.lock]) = pairs.foldl (note way) { manifest with pairing := none } := by
    intro way
    rw [listing, List.foldl_append, List.foldl_append, note_calls]
    rfl
  have paired_eq : ∀ entry, manifest.pairing = some entry →
      { { manifest with pairing := none } with pairing := some entry } = manifest := by
    rintro entry pairing
    rw [← pairing]
  rcases pairing : manifest.pairing with _ | ⟨name, path, reservedKey, modulePath⟩
  · rw [pairing] at paired
    cases paired
    refine ⟨⟨""⟩, (whole _).trans ?_⟩
    rw [← pairing]
    rfl
  · rw [pairing, Option.toList_some, List.mapM_cons] at paired
    obtain ⟨call, chosen, paired⟩ := bind_eq_ok.mp paired
    cases paired
    obtain ⟨choice, asked, rfl⟩ := map_eq_ok.mp chosen
    unfold baseChoice at asked
    split at asked
    next named none =>
      obtain rfl : name = some _ := named
      obtain rfl : path = Option.none := none
      cases asked
      exact ⟨⟨""⟩, (whole _).trans (paired_eq _ pairing)⟩
    next none named =>
      obtain rfl : name = Option.none := none
      obtain rfl : path = some _ := named
      cases asked
      exact ⟨_, (whole _).trans (paired_eq _ pairing)⟩
    · cases asked
    · cases asked

/-- Whatever calls lock a declaration, the manifest that lists the accepted ones is built into the builder that
they have made; and what any manifest is built into is made by the calls that it stands for and the lock, all of
which are accepted and listed in that manifest. -/
theorem manifests_express_declarations :
    (∀ className outer inner created, Builder.create className outer inner = .ok created →
      ∀ calls way, (created.performAll calls).isLocked = true →
        (listing way className outer inner (created.accepted calls)).build
            ((created.accepted calls).findSome? Call.base?) = .ok (created.performAll calls)) ∧
    ∀ manifest base made, build manifest base = .ok made →
      made.isLocked = true ∧ ∃ created entries,
        Builder.create manifest.className manifest.outer manifest.inner = .ok created ∧
        said base manifest = .ok entries ∧
        created.accepted (entries ++ [.lock]) = entries ++ [.lock] ∧
        created.performAll (entries ++ [.lock]) = made ∧
        ∃ way, listing way manifest.className manifest.outer manifest.inner (entries ++ [.lock]) = manifest := by
  constructor
  · intro className outer inner created creates calls way locked
    have makes := makes_accepted locked
    obtain ⟨order, begun⟩ : ∃ order, created.lifecycle = { order } := by
      obtain ⟨_, -, creates⟩ := bind_eq_ok.mp creates
      obtain ⟨family, -, creates⟩ := bind_eq_ok.mp creates
      cases creates
      exact ⟨family.order, rfl⟩
    have goesOn : created.isLocked = false := by
      rw [Builder.isLocked, begun]
      rfl
    have blank : Ahead created.phase { className, outer, inner } := by
      intro phase _
      cases phase <;> first | rfl | trivial
    obtain ⟨rest, told, made⟩ := said_notes way blank goesOn makes locked fun _ given => given
    obtain ⟨own, outside, inside⟩ := @notes_shape way { className, outer, inner } (created.accepted calls)
    refine build_ok_iff.mpr ⟨created, rest, ?_, told, made⟩
    rw [listing, own, outside, inside]
    exact creates
  · intro manifest base made built
    obtain ⟨created, entries, creates, told, makes⟩ := build_ok_iff.mp built
    obtain ⟨accepted, same⟩ := makes_iff.mp makes
    exact ⟨isLocked_of_build built, created, entries, creates, told, accepted, same, listing_said told⟩

/-- Pairs over owners of cars. The call that comes after the lock is refused and is not listed. -/
theorem manifests_express_pairs :
    let owners : Builder := Builder.performAll ⟨⟨.map, .start⟩, .empty "CarOwners" (.map .weak)⟩
      [.addMapKey "car" "The car." true {}, .addMapKey "owner" "The owner." false {}, .lock]
    let calls : List Call := [.setOverview "Pairs of cars.",
      .configurePairing (.builder owners) "car" none, .lock, .setOverview "Too late.", .lock]
    let pairs : Builder := ⟨⟨.oneToOne, .start⟩, .empty "CarPairs" .oneToOne⟩
    let manifest : Manifest := {
      className := "CarPairs", outer := .oneToOne, overview := some "Pairs of cars."
      pairing := some { baseManifest := some ⟨"CarOwners.collection.toml"⟩, reservedKey := "car" } }
    manifest.build (some owners) = .ok (pairs.performAll calls) ∧ (pairs.performAll calls).isLocked = true := by
  intro owners calls pairs manifest
  have created : Builder.create "CarPairs" .oneToOne none = .ok pairs := rfl
  have locked : (pairs.performAll calls).isLocked = true := by decide
  have built := manifests_express_declarations.1 _ _ _ _ created calls ⟨"CarOwners.collection.toml"⟩ locked
  have accepted : pairs.accepted calls = [.setOverview "Pairs of cars.",
      .configurePairing (.builder owners) "car" none, .lock, .lock] := by decide +kernel
  rw [accepted] at built
  have again := manifests_express_declarations.2 manifest (some owners) _ built
  exact ⟨built, again.1⟩

end Said

end Generation.Manifest

end CompositeKeys
