import CompositeKeys.Generation.Project
import CompositeKeys.Proofs.Files.Beside

/-! What loading a manifest comes to, without a bound on the links that are followed. Loading ends where a
path comes back as it is spelled, or at a file that is linked to nothing. -/

namespace CompositeKeys.Generation.Manifest
open Files

/-- The way from a manifest to the base that it is linked to. -/
def base? (manifest : Manifest) : Option FilePath := manifest.pairing.bind PairingEntry.baseManifest

/-- What a manifest at a path is built to over a base. -/
def built (manifest : Manifest) (path : FilePath) (base : Option Builder) : Except GenerationError Builder :=
  (manifest.build base).mapError fun error => .manifest path (.refused error)

/-- What is read at paths. -/
abbrev Reading := FilePath → Except FileError String

/-- What a manifest is loaded to while paths with the given components are being loaded. -/
inductive Loads (read : Reading) :
    List (List Component) → FilePath → Except GenerationError Builder → Prop where
  | cycle {loading path} (again : path.components ∈ loading) :
      Loads read loading path (.error (.manifest path .cycle))
  | unread {loading path fault} (fresh : path.components ∉ loading) (failed : read path = .error fault) :
      Loads read loading path (.error (.file fault))
  | unreadable {loading path text} (fresh : path.components ∉ loading) (got : read path = .ok text)
      (broken : parse? text = none) : Loads read loading path (.error (.manifest path .unreadable))
  | alone {loading path text manifest} (fresh : path.components ∉ loading) (got : read path = .ok text)
      (parsed : parse? text = some manifest) (last : manifest.base? = none) :
      Loads read loading path (manifest.built path none)
  | linked {loading path text manifest way result} (fresh : path.components ∉ loading)
      (got : read path = .ok text) (parsed : parse? text = some manifest)
      (link : manifest.base? = some way)
      (below : Loads read (path.components :: loading) (path.beside way) result) :
      Loads read loading path (result.bind fun base => manifest.built path (some base))

section Links
variable (read : Reading)

/-- The way that the text of a manifest is linked along. -/
def wayOf? (text : String) : Option FilePath := (parse? text).bind base?

/-- The path that the manifest at a path is linked to. -/
def linked? (path : FilePath) : Option FilePath :=
  (read path).toOption.bind fun text => (wayOf? text).map path.beside

/-- The paths that links lead through. -/
def trail (path : FilePath) : Nat → FilePath
  | 0 => path
  | count + 1 => trail ((linked? read path).getD path) count

/-- Whether so many links lead on from a path. -/
def Leads (path : FilePath) (count : Nat) : Prop :=
  ∀ earlier < count, (linked? read (trail read path earlier)).isSome = true

/-- Whether links come back to a path that is being loaded, as it is spelled. -/
def Again (loading : List (List Component)) (path : FilePath) (count : Nat) : Prop :=
  (trail read path count).components ∈ loading ∨
    ∃ earlier < count, (trail read path earlier).components = (trail read path count).components

variable {read} {loading : List (List Component)} {path next : FilePath} {count : Nat}

theorem trail_succ (link : linked? read path = some next) (count : Nat) :
    trail read path (count + 1) = trail read next count := by
  rw [trail, link]
  rfl

theorem trail_step (path : FilePath) (count : Nat) : trail read path (count + 1) =
    (linked? read (trail read path count)).getD (trail read path count) := by
  induction count generalizing path with
  | zero => rfl
  | succ count ih => exact ih _

theorem Leads.link (leads : Leads read path (count + 1)) :
    linked? read (trail read path count) = some (trail read path (count + 1)) := by
  obtain ⟨next, link⟩ := Option.isSome_iff_exists.mp (leads count (Nat.lt_succ_self _))
  rw [trail_step, link]
  rfl

theorem Leads.of_le {less : Nat} (leads : Leads read path count) (few : less ≤ count) :
    Leads read path less := fun earlier lower => leads earlier (lower.trans_le few)

theorem leads_zero : Leads read path 0 := by
  intro earlier lower
  exact absurd lower (Nat.not_lt_zero _)

theorem leads_succ (link : linked? read path = some next) :
    Leads read path (count + 1) ↔ Leads read next count := by
  constructor
  · intro leads earlier lower
    rw [← trail_succ link]
    exact leads (earlier + 1) (Nat.succ_lt_succ lower)
  · rintro leads (_ | earlier) lower
    · exact link ▸ rfl
    · rw [trail_succ link]
      exact leads earlier (Nat.lt_of_succ_lt_succ lower)

theorem again_succ (link : linked? read path = some next) :
    Again read loading path (count + 1) ↔ Again read (path.components :: loading) next count := by
  unfold Again
  rw [trail_succ link, List.mem_cons]
  constructor
  · rintro (old | ⟨_ | earlier, lower, same⟩)
    · exact .inl (.inr old)
    · exact .inl (.inl same.symm)
    · rw [trail_succ link] at same
      exact .inr ⟨earlier, Nat.lt_of_succ_lt_succ lower, same⟩
  · rintro ((first | old) | ⟨earlier, lower, same⟩)
    · exact .inr ⟨0, Nat.succ_pos _, first.symm⟩
    · exact .inl old
    · refine .inr ⟨earlier + 1, Nat.succ_lt_succ lower, ?_⟩
      rw [trail_succ link]
      exact same

theorem linked?_eq_some {text : String} (got : read path = .ok text) :
    linked? read path = (wayOf? text).map path.beside := by
  simp [linked?, got, Except.toOption]

end Links

section Ends
variable {read : Reading} {loading : List (List Component)} {path next : FilePath} {count : Nat}
  {result : Except GenerationError Builder}

/-- What comes of the last path that links lead to: it comes back, or no link leads on from it. -/
structure Ends (read : Reading) (loading : List (List Component)) (path : FilePath) (count : Nat)
    (result : Except GenerationError Builder) : Prop where
  leads : Leads read path count
  fresh : ∀ earlier < count, ¬ Again read loading path earlier
  last : (Again read loading path count ∧
      result = .error (.manifest (trail read path count) .cycle)) ∨
    (¬ Again read loading path count ∧ linked? read (trail read path count) = none ∧
      (∀ other, result ≠ .error (.manifest other .cycle)) ∧
      ∀ fault, read (trail read path count) = .error fault → result = .error (.file fault))

theorem again_zero : Again read loading path 0 ↔ path.components ∈ loading :=
  ⟨fun again => again.resolve_right nofun, .inl⟩

theorem built_ne_cycle (manifest : Manifest) (base : Option Builder) (other : FilePath) :
    manifest.built path base ≠ .error (.manifest other .cycle) := by
  unfold built
  cases manifest.build base with
  | ok builder => exact nofun
  | error fault =>
    intro same
    injection same with same
    injection same with _ kind
    cases kind

/-- Every result comes from a last path. -/
theorem Loads.ends (loads : Loads read loading path result) : ∃ count, Ends read loading path count result := by
  have now : ∀ {loading path result}, (Again read loading path 0 ∧
        result = .error (.manifest (trail read path 0) .cycle)) ∨
      (¬ Again read loading path 0 ∧ linked? read (trail read path 0) = none ∧
        (∀ other, result ≠ .error (.manifest other .cycle)) ∧
        ∀ fault, read (trail read path 0) = .error fault → result = .error (.file fault)) →
      ∃ count, Ends read loading path count result := fun last =>
    ⟨0, leads_zero, fun _ lower => absurd lower (Nat.not_lt_zero _), last⟩
  have here : ∀ {loading path result}, path.components ∉ loading → linked? read path = none →
      (∀ other, result ≠ .error (.manifest other .cycle)) →
      (∀ fault, read path = .error fault → result = .error (.file fault)) →
      ∃ count, Ends read loading path count result := fun fresh none differs faults =>
    now (.inr ⟨mt again_zero.mp fresh, none, differs, faults⟩)
  induction loads with
  | cycle again => exact now (.inl ⟨.inl again, rfl⟩)
  | unread fresh failed =>
    refine here fresh ?_ (fun other same => ?_) fun fault same => ?_
    · simp [linked?, failed, Except.toOption]
    · cases same
    · cases failed.symm.trans same
      rfl
  | unreadable fresh got broken =>
    refine here fresh ?_ (fun other same => ?_) fun fault same => ?_
    · simp [linked?_eq_some got, wayOf?, broken]
    · cases same
    · cases got.symm.trans same
  | @alone _ path _ manifest fresh got parsed last =>
    refine here fresh ?_ (built_ne_cycle manifest none) fun fault same => ?_
    · simp [linked?_eq_some got, wayOf?, parsed, last]
    · cases got.symm.trans same
  | @linked loading path text manifest way result fresh got parsed link below ih =>
    obtain ⟨count, leads, unseen, last⟩ := ih
    have onward : linked? read path = some (path.beside way) := by
      simp [linked?_eq_some got, wayOf?, parsed, link]
    refine ⟨count + 1, (leads_succ onward).mpr leads, ?_, ?_⟩
    · rintro (_ | earlier) lower
      · exact mt again_zero.mp fresh
      · exact mt (again_succ onward).mp (unseen earlier (Nat.lt_of_succ_lt_succ lower))
    · rw [again_succ onward, trail_succ onward]
      rcases last with ⟨again, rfl⟩ | ⟨new, none, differs, faults⟩
      · exact .inl ⟨again, rfl⟩
      · refine .inr ⟨new, none, fun other same => ?_, fun fault failed => ?_⟩
        · cases result with
          | error error => exact differs other same
          | ok builder => exact built_ne_cycle manifest _ other same
        · rw [faults fault failed]
          rfl

/-- The result tells of a cycle exactly where links come back to a path that is being loaded. -/
theorem Loads.cycle_iff (loads : Loads read loading path result) :
    (∃ other, result = .error (.manifest other .cycle)) ↔
      ∃ count, Leads read path count ∧ Again read loading path count := by
  obtain ⟨count, leads, fresh, ⟨again, rfl⟩ | ⟨new, none, differs, -⟩⟩ := loads.ends
  · exact ⟨fun _ => ⟨count, leads, again⟩, fun _ => ⟨_, rfl⟩⟩
  · constructor
    · rintro ⟨other, same⟩
      exact absurd same (differs other)
    · rintro ⟨other, leadsToo, again⟩
      rcases Nat.lt_trichotomy other count with sooner | rfl | later
      · exact absurd again (fresh other sooner)
      · exact absurd again new
      · simpa [none] using leadsToo count later

/-- There is one result at most. -/
theorem Loads.unique {other : Except GenerationError Builder} (loads : Loads read loading path result)
    (also : Loads read loading path other) : result = other := by
  induction loads generalizing other with
  | cycle again => cases also <;> first | rfl | contradiction
  | unread fresh failed => cases also <;> simp_all
  | unreadable fresh got broken => cases also <;> simp_all
  | alone fresh got parsed last => cases also <;> simp_all
  | linked fresh got parsed link below ih =>
    cases also with
    | cycle again => exact absurd again fresh
    | unread _ failed => cases got.symm.trans failed
    | unreadable _ also broken =>
      obtain rfl := Except.ok.inj (got.symm.trans also)
      cases parsed.symm.trans broken
    | alone _ also other last =>
      obtain rfl := Except.ok.inj (got.symm.trans also)
      obtain rfl := Option.some.inj (parsed.symm.trans other)
      cases link.symm.trans last
    | linked _ also other way rest =>
      obtain rfl := Except.ok.inj (got.symm.trans also)
      obtain rfl := Option.some.inj (parsed.symm.trans other)
      obtain rfl := Option.some.inj (link.symm.trans way)
      rw [ih rest]

end Ends

section Fuel
variable {read : Reading} {loading : List (List Component)} {path : FilePath}

/-- The components of a path after their number. -/
def counted (components : List Component) : Nat × List Component := (components.length, components)

theorem loadLinked_succ (tree : FileTree) (links : Nat) (loading : List (List Component)) (path : FilePath) :
    loadLinked tree (links + 1) (loading.map counted) path =
      if path.components ∈ loading then .error (.manifest path .cycle)
      else match tree.read path with
        | .error fault => .error (.file fault)
        | .ok text =>
          match parse? text with
          | none => .error (.manifest path .unreadable)
          | some manifest =>
            match manifest.base? with
            | none => manifest.built path none
            | some way =>
              (loadLinked tree links ((path.components :: loading).map counted) (path.beside way)).bind
                fun base => manifest.built path (some base) := by
  have listed : (loading.map counted).contains (counted path.components) = true ↔
      path.components ∈ loading := by
    rw [List.contains_iff_mem]
    simp [counted]
  rw [loadLinked]
  by_cases again : path.components ∈ loading
  · rw [if_pos again]
    exact if_pos (listed.mpr again)
  · rw [if_neg again]
    refine (if_neg (mt listed.mp again)).trans ?_
    cases tree.read path with
    | error fault => rfl
    | ok text =>
    simp only [Except.mapError, bind, Except.bind]
    cases parse? text with
    | none => rfl
    | some manifest =>
    dsimp only [base?]
    cases manifest.pairing.bind PairingEntry.baseManifest with
    | none => rfl
    | some way =>
    have linked : ∀ nested : Except GenerationError Builder,
        (nested.map some >>= fun base => manifest.built path base) =
          nested.bind fun base => manifest.built path (some base) := by
      intro nested
      cases nested <;> rfl
    exact linked _

/-- Whether links stop within so many paths. -/
def Stops (read : Reading) (loading : List (List Component)) (path : FilePath) (links : Nat) : Prop :=
  ∃ count < links, Leads read path count ∧
    (Again read loading path count ∨ linked? read (trail read path count) = none)

/-- Loading has a result where the links stop, and comes to it with as many links. -/
theorem loads_of_stops {links : Nat} (stops : Stops read loading path links) :
    ∃ result, Loads read loading path result ∧
      ∀ tree : FileTree, tree.read = read → loadLinked tree links (loading.map counted) path = result := by
  induction links generalizing loading path with
  | zero =>
    obtain ⟨_, none, _⟩ := stops
    exact absurd none (Nat.not_lt_zero _)
  | succ links ih =>
    by_cases again : path.components ∈ loading
    · refine ⟨_, .cycle again, ?_⟩
      rintro tree rfl
      rw [loadLinked_succ, if_pos again]
    have here : ∀ result, Loads read loading path result →
        (∀ tree : FileTree, tree.read = read →
          loadLinked tree (links + 1) (loading.map counted) path = result) →
        ∃ result, Loads read loading path result ∧ ∀ tree : FileTree, tree.read = read →
          loadLinked tree (links + 1) (loading.map counted) path = result :=
      fun result loads same => ⟨result, loads, same⟩
    cases got : read path with
    | error fault =>
      refine here _ (.unread again got) ?_
      rintro tree rfl
      rw [loadLinked_succ, if_neg again, got]
    | ok text =>
    cases parsed : parse? text with
    | none =>
      refine here _ (.unreadable again got parsed) ?_
      rintro tree rfl
      rw [loadLinked_succ, if_neg again, got]
      simp only [parsed]
    | some manifest =>
    cases link : manifest.base? with
    | none =>
      refine here _ (.alone again got parsed link) ?_
      rintro tree rfl
      rw [loadLinked_succ, if_neg again, got]
      simp only [parsed, link]
    | some way =>
      have onward : linked? read path = some (path.beside way) := by
        simp [linked?_eq_some got, wayOf?, parsed, link]
      obtain ⟨_ | count, few, leads, last⟩ := stops
      · rw [again_zero] at last
        rcases last with old | none
        · exact absurd old again
        · cases none.symm.trans onward
      · rw [again_succ onward, trail_succ onward] at last
        obtain ⟨result, below, same⟩ :=
          ih ⟨count, Nat.lt_of_succ_lt_succ few, (leads_succ onward).mp leads, last⟩
        refine here _ (.linked again got parsed link below) ?_
        rintro tree rfl
        rw [loadLinked_succ, if_neg again, got]
        simp only [parsed, link, same tree rfl]

/-- Loading has a result exactly where the links stop. -/
theorem exists_loads_iff :
    (∃ result, Loads read loading path result) ↔ ∃ links, Stops read loading path links := by
  constructor
  · rintro ⟨result, loads⟩
    obtain ⟨count, leads, -, last⟩ := loads.ends
    exact ⟨count + 1, count, Nat.lt_succ_self count, leads, last.imp (·.1) (·.2.1)⟩
  · rintro ⟨links, stops⟩
    obtain ⟨result, loads, -⟩ := loads_of_stops stops
    exact ⟨result, loads⟩

theorem leads_of_endless {links : Nat} (endless : ¬ Stops read loading path links) :
    Leads read path links ∧ ∀ count < links, ¬ Again read loading path count := by
  have leads : Leads read path links := by
    intro count
    induction count using Nat.strong_induction_on with
    | _ count ih =>
      intro few
      refine Option.isSome_iff_ne_none.mpr fun none => endless ⟨count, few, fun earlier lower => ?_, .inr none⟩
      exact ih earlier lower (lower.trans few)
  exact ⟨leads, fun count few again => endless ⟨count, few, leads.of_le few.le, .inl again⟩⟩

theorem load_eq_iff {tree : FileTree} (stops : Stops tree.read [] path (linkLimit tree))
    (result : Except GenerationError Builder) : load tree path = result ↔ Loads tree.read [] path result := by
  obtain ⟨made, loads, same⟩ := loads_of_stops stops
  have loaded : load tree path = made := same tree rfl
  rw [loaded]
  exact ⟨fun equal => equal ▸ loads, loads.unique⟩

example : (load {} ⟨"Base.collection.toml"⟩).toOption.isNone = true := by decide +kernel

end Fuel

end CompositeKeys.Generation.Manifest
