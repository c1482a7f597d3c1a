import WireguardMesh.Agent.FailedApply
import WireguardMesh.Agent.Session

/-! # Sessions do not disturb each other

A new session forgets which revisions earlier sessions offered, so that a Master whose counter
restarted is followed. But a goroutine of an earlier session may still apply its config, and what
it offers then counts for the new session; and another config with the revision applied last is
taken for the applied one. `Agent.isolated_iff` says that nothing else gets in the way.
-/

namespace Agent

open Core Tunnel Wireguard

variable {K : Type} [DecidableEq K] (decode : String → Option K) (ops : KeyOps K)

/-- What happened in the session: the configs it pushed, those that earlier sessions' goroutines
offered meanwhile, and the revisions applied; and all configs ever pushed. -/
structure Log where
  pushed : List DesiredConfig
  strays : List DesiredConfig
  applied : List Int
  ever : List DesiredConfig

/-- The client and the log of its session. -/
abbrev Logged (K : Type) :=
  Client K × Log

/-- The revisions applied in the session, after one more call. -/
def Logged.appliedAfter (s : Logged K) (around : Surroundings K) (d : DesiredConfig) : List Int :=
  if s.1.ap.Applies decode ops around d then d.revision :: s.2.applied else s.2.applied

def Logged.logAfter (s : Logged K) : Action K → Log
  | .connect _ => ⟨[], [], [], s.2.ever⟩
  | .push around d =>
    { s.2 with
      pushed := d :: s.2.pushed
      applied := s.appliedAfter decode ops around d
      ever := d :: s.2.ever }
  | .tryApply around i =>
    match s.1.retries i with
    | none => s.2
    | some r =>
      { s.2 with
        strays := if r.session = s.1.session then s.2.strays else r.desired :: s.2.strays
        applied := s.appliedAfter decode ops around r.desired }
  | .hangUp | .swap _ | .wake _ | .cancel _ | .check _ | .leave _ => s.2

def Logged.step (s : Logged K) (a : Action K) : Logged K :=
  (s.1.step decode ops a, s.logAfter decode ops a)

/-- **Isolation.** A config that the session pushes is dropped as stale only because of one that
the session pushed, and skipped as applied only if it is the applied one; and the revisions applied
in the session do not decrease. -/
def Isolated (s : Logged K) : Action K → Prop
  | .push around d =>
    (d.revision < s.1.ap.newestRev → ∃ e ∈ s.2.pushed, d.revision < e.revision) ∧
    (s.1.ap.newestRev ≤ d.revision → d.revision = s.1.ap.appliedRev →
      s.1.ap.applied = some (s.1.ap.localized d)) ∧
    (s.1.ap.Applies decode ops around d → ∀ rev ∈ s.2.applied, rev ≤ d.revision)
  | .tryApply around i => ∀ r, s.1.retries i = some r →
      s.1.ap.Applies decode ops around r.desired → ∀ rev ∈ s.2.applied, rev ≤ r.desired.revision
  | .connect _ | .hangUp | .swap _ | .wake _ | .cancel _ | .check _ | .leave _ => True

/-- A config that is the newest of its session so far is not older than what earlier sessions'
goroutines offered meanwhile. -/
def Unhindered (s : Logged K) : Action K → Prop
  | .push _ d => (∀ e ∈ s.2.pushed, e.revision ≤ d.revision) →
      ∀ e ∈ s.2.strays, e.revision ≤ d.revision
  | .tryApply _ _ | .connect _ | .hangUp | .swap _ | .wake _ | .cancel _ | .check _ | .leave _ =>
    True

/-- The Master does not use a revision for two configs. -/
def NotReused (s : Logged K) : Action K → Prop
  | .push _ d => ∀ e ∈ s.2.ever, e.revision = d.revision → e = d
  | .tryApply _ _ | .connect _ | .hangUp | .swap _ | .wake _ | .cancel _ | .check _ | .leave _ =>
    True

instance (s : Logged K) (a : Action K) : Decidable (Unhindered s a) :=
  match a with
  | .push _ d => inferInstanceAs (Decidable ((∀ e ∈ s.2.pushed, e.revision ≤ d.revision) →
      ∀ e ∈ s.2.strays, e.revision ≤ d.revision))
  | .tryApply _ _ | .connect _ | .hangUp | .swap _ | .wake _ | .cancel _ | .check _ | .leave _ =>
    isTrue trivial

instance (s : Logged K) (a : Action K) : Decidable (NotReused s a) :=
  match a with
  | .push _ d => inferInstanceAs (Decidable (∀ e ∈ s.2.ever, e.revision = d.revision → e = d))
  | .tryApply _ _ | .connect _ | .hangUp | .swap _ | .wake _ | .cancel _ | .check _ | .leave _ =>
    isTrue trivial

/-- What the log says about the applier and the goroutines. -/
structure Accounted (s : Logged K) : Prop where
  offered : ∀ e, e ∈ s.2.pushed ∨ e ∈ s.2.strays → e.revision ≤ s.1.ap.newestRev
  newest : s.1.ap.newestRev = -1 ∨
    ∃ e, (e ∈ s.2.pushed ∨ e ∈ s.2.strays) ∧ e.revision = s.1.ap.newestRev
  bounded : ∀ rev ∈ s.2.applied, rev ≤ s.1.ap.newestRev
  goroutines : ∀ i r, s.1.retries i = some r → r.desired ∈ s.2.ever ∧
    r.session ≤ s.1.session ∧ (r.session = s.1.session → r.desired ∈ s.2.pushed)
  content : s.1.ap.appliedRev = -1 ∨
    ∃ e ∈ s.2.ever, e.revision = s.1.ap.appliedRev ∧ s.1.ap.applied = some (s.1.ap.localized e)

variable {decode ops} {s : Logged K}

/-- **A call of `apply`** with a config that is in the log. -/
theorem Accounted.apply (accounted : Accounted s) (around : Surroundings K) {d : DesiredConfig}
    {pushed strays ever : List DesiredConfig} {retries : Nat → Option Retry} {spawned : Nat}
    (keptEver : s.2.ever ⊆ ever) (known : d ∈ ever)
    (logged : ∀ e, e ∈ pushed ∨ e ∈ strays ↔ e = d ∨ e ∈ s.2.pushed ∨ e ∈ s.2.strays)
    (goroutines : ∀ i r, retries i = some r → r.desired ∈ ever ∧ r.session ≤ s.1.session ∧
      (r.session = s.1.session → r.desired ∈ pushed)) : Accounted ({ s.1 with
      ap := (s.1.ap.apply decode ops around d).1, retries := retries, spawned := spawned },
      ⟨pushed, strays, s.appliedAfter decode ops around d, ever⟩) := by
  have result := apply_result decode ops s.1.ap around d
  obtain ⟨raised, covers, reached⟩ := result.newest
  refine ⟨?_, ?_, ?_, goroutines, ?_⟩
  · intro e member
    rcases (logged e).mp member with rfl | old
    · exact covers
    · exact (accounted.offered e old).trans raised
  · rcases reached with same | new
    · dsimp only
      rw [same]
      refine accounted.newest.imp_right ?_
      rintro ⟨e, member, top⟩
      exact ⟨e, (logged e).mpr (.inr member), top⟩
    · exact .inr ⟨d, (logged d).mpr (.inl rfl), new.symm⟩
  · intro rev member
    rw [Logged.appliedAfter] at member
    split at member
    · rcases List.mem_cons.mp member with rfl | old
      · exact covers
      · exact (accounted.bounded rev old).trans raised
    · exact (accounted.bounded rev member).trans raised
  · dsimp only
    rw [result.localized]
    rcases result.content with ⟨rev, same⟩ | ⟨rev, new⟩
    · rw [rev, same]
      refine accounted.content.imp_right ?_
      rintro ⟨e, member, holds⟩
      exact ⟨e, keptEver member, holds⟩
    · exact .inr ⟨d, known, rev.symm, new⟩

omit [DecidableEq K] in
/-- **A step of a goroutine** that leaves the applier alone. -/
theorem Accounted.proceed (accounted : Accounted s) {retries : Nat → Option Retry} {slot : Int}
    {live : Bool} (fewer : ∀ i r, retries i = some r →
      ∃ old, s.1.retries i = some old ∧ old.desired = r.desired ∧ old.session = r.session) :
    Accounted ({ s.1 with retries := retries, retrying := slot, live := live }, s.2) where
  offered := accounted.offered
  newest := accounted.newest
  bounded := accounted.bounded
  content := accounted.content
  goroutines := by
    intro i r found
    obtain ⟨old, known, desired, session⟩ := fewer i r found
    rw [← desired, ← session]
    exact accounted.goroutines i old known

omit [DecidableEq K] in
theorem fewer_set {c : Client K} {i : Nat} {r : Retry} (found : c.retries i = some r)
    {new : Option Retry}
    (same : ∀ r', new = some r' → r.desired = r'.desired ∧ r.session = r'.session) (j : Nat)
    (r' : Retry) (there : (c.set i new).retries j = some r') :
    ∃ old, c.retries j = some old ∧ old.desired = r'.desired ∧ old.session = r'.session := by
  change Function.update c.retries i new j = some r' at there
  rw [Function.update_apply] at there
  split at there
  · next here =>
    subst here
    exact ⟨r, found, same r' there⟩
  · exact ⟨r', there, rfl, rfl⟩

/-- **A config arrives.** -/
theorem Accounted.push (accounted : Accounted s) (around : Surroundings K) (d : DesiredConfig) :
    Accounted (s.step decode ops (.push around d)) := by
  have logged : ∀ e, e ∈ d :: s.2.pushed ∨ e ∈ s.2.strays ↔
      e = d ∨ e ∈ s.2.pushed ∨ e ∈ s.2.strays := by
    intro e
    rw [List.mem_cons, or_assoc]
  have old : ∀ i r, s.1.retries i = some r → r.desired ∈ d :: s.2.ever ∧
      r.session ≤ s.1.session ∧ (r.session = s.1.session → r.desired ∈ d :: s.2.pushed) := by
    intro i r found
    obtain ⟨known, older, own⟩ := accounted.goroutines i r found
    exact ⟨List.mem_cons_of_mem d known, older, fun same => List.mem_cons_of_mem d (own same)⟩
  rw [Logged.step, Logged.logAfter, Client.step]
  split
  · exact accounted.apply around (List.subset_cons_self d _) List.mem_cons_self logged old
  · refine accounted.apply around (List.subset_cons_self d _) List.mem_cons_self logged ?_
    intro i r found
    change Function.update s.1.retries s.1.spawned _ i = some r at found
    rw [Function.update_apply] at found
    split at found
    · cases found
      exact ⟨.head _, le_rfl, fun _ => .head _⟩
    · exact old i r found

/-- **A goroutine applies.** -/
theorem Accounted.tryApply (accounted : Accounted s) (around : Surroundings K) {i : Nat}
    {r : Retry} (found : s.1.retries i = some r) :
    Accounted (s.step decode ops (.tryApply around i)) := by
  obtain ⟨known, _, own⟩ := accounted.goroutines i r found
  rw [Logged.step, Logged.logAfter, Client.step, Client.stepRetry, found]
  refine accounted.apply around (List.Subset.refl _) known ?_ ?_
  · intro e
    by_cases same : r.session = s.1.session
    · rw [if_pos same]
      refine ⟨.inr, fun member => member.elim (fun here => ?_) id⟩
      exact .inl (here ▸ own same)
    · rw [if_neg same, List.mem_cons]
      exact or_left_comm
  · intro j r' there
    obtain ⟨old, before, desired, session⟩ := fewer_set found
      (fun r' new => by cases new; exact ⟨rfl, rfl⟩) j r' there
    rw [← desired, ← session]
    exact accounted.goroutines j old before

/-- **One step.** -/
theorem Accounted.step (accounted : Accounted s) {a : Action K} (enabled : s.1.Enabled a) :
    Accounted (s.step decode ops a) := by
  cases a with
  | connect http =>
    refine ⟨fun e member => by simp [Logged.step, Logged.logAfter] at member, .inl rfl,
      fun rev member => by simp [Logged.step, Logged.logAfter] at member, ?_, accounted.content⟩
    intro i r found
    obtain ⟨known, older, _⟩ := accounted.goroutines i r found
    refine ⟨known, Nat.le_succ_of_le older, fun same => ?_⟩
    rw [same] at older
    exact absurd older (Nat.not_succ_le_self _)
  | hangUp => exact accounted.proceed fun i r found => ⟨r, found, rfl, rfl⟩
  | push around d => exact accounted.push around d
  | tryApply around i =>
    obtain ⟨r, found, _⟩ := enabled
    exact accounted.tryApply around found
  | swap i =>
    obtain ⟨r, found, _⟩ := enabled
    rw [Logged.step, Logged.logAfter, Client.step, Client.stepRetry, found]
    dsimp only [Option.elim]
    split
    · exact accounted.proceed (fewer_set found nofun)
    · exact accounted.proceed (fewer_set found fun r' new => by cases new; exact ⟨rfl, rfl⟩)
  | wake i | cancel i | check i =>
    obtain ⟨r, found, _⟩ := enabled
    rw [Logged.step, Logged.logAfter, Client.step, Client.stepRetry, found]
    exact accounted.proceed (fewer_set found fun r' new => by cases new; exact ⟨rfl, rfl⟩)
  | leave i =>
    obtain ⟨r, found, _⟩ := enabled
    rw [Logged.step, Logged.logAfter, Client.step, Client.stepRetry, found]
    exact accounted.proceed (fewer_set found nofun)

/-- A push is isolated if and only if it is unhindered, if its revision is not reused. -/
theorem Accounted.agree (accounted : Accounted s) {a : Action K} (enabled : s.1.Enabled a)
    (notReused : NotReused s a) : Isolated decode ops s a ↔ Unhindered s a := by
  have increases : ∀ around d, s.1.ap.Applies decode ops around d →
      ∀ rev ∈ s.2.applied, rev ≤ d.revision :=
    fun around d applies rev member => (accounted.bounded rev member).trans applies.1.1
  cases a with
  | push around d =>
    have positive : 0 ≤ d.revision := enabled.2
    have content : d.revision = s.1.ap.appliedRev →
        s.1.ap.applied = some (s.1.ap.localized d) := by
      intro same
      rcases accounted.content with none | ⟨e, member, rev, holds⟩
      · omega
      · rwa [← notReused e member (rev.trans same.symm)]
    rw [Isolated, Unhindered]
    constructor
    · rintro ⟨stale, _⟩ newest e stray
      by_contra higher
      obtain ⟨e', member, above⟩ := stale
        (lt_of_lt_of_le (not_le.mp higher) (accounted.offered e (.inr stray)))
      exact absurd (newest e' member) (not_le.mpr above)
    · intro unhindered
      refine ⟨fun stale => ?_, fun _ => content, increases around d⟩
      rcases accounted.newest with none | ⟨e, member | stray, top⟩
      · omega
      · exact ⟨e, member, top ▸ stale⟩
      · by_contra nobody
        have newest : ∀ e ∈ s.2.pushed, e.revision ≤ d.revision := fun e' member' =>
          not_lt.mp fun above => nobody ⟨e', member', above⟩
        exact absurd (unhindered newest e stray) (not_le.mpr (top ▸ stale))
  | tryApply around i => exact iff_of_true (fun r _ => increases around r.desired) trivial
  | connect | hangUp | swap | wake | cancel | check | leave => exact .rfl

end Agent
