import WireguardMesh.Agent.FailedApply
import WireguardMesh.Agent.Session

/-! # The retry slot

When a pushed config fails, somebody must keep trying it. `Agent.retry_kept` says that somebody
does, as long as the goroutine of a push has claimed the slot before the next push arrives, and the
goroutines of a session have returned before the next session begins. Without the first, a
goroutine of an older revision can take the slot from a newer one (`Agent.lateSwap_lost`).
-/

namespace Agent

open Core Tunnel Wireguard

variable {K : Type} {i : Nat} {r : Retry} {d : DesiredConfig}

/-- A goroutine that has claimed the slot and has not decided to return. -/
def Retry.Working (r : Retry) : Prop :=
  r.phase = .sleeping ∨ r.phase = .awake ∨ r.phase = .applying

instance (r : Retry) : Decidable r.Working :=
  inferInstanceAs (Decidable (_ ∨ _))

abbrev Retry.rev (r : Retry) : Int :=
  r.desired.revision

/-- The client, and the last push of the session with the number of its goroutine, until an apply
of its revision has succeeded. -/
abbrev Watch (K : Type) :=
  Client K × Option (Nat × DesiredConfig)

section Steps

variable [DecidableEq K] (decode : String → Option K) (ops : KeyOps K)

def Watch.lastAfter (s : Watch K) : Action K → Option (Nat × DesiredConfig)
  | .connect _ => none
  | .push around d =>
    if (s.1.ap.apply decode ops around d).2 = none ∨ s.1.http then none
    else some (s.1.spawned, d)
  | .tryApply around i =>
    match s.1.retries i with
    | none => s.2
    | some r =>
      if (s.1.ap.apply decode ops around r.desired).2 = none then
        s.2.filter fun last => last.2.revision ≠ r.rev
      else s.2
  | .hangUp | .swap _ | .wake _ | .cancel _ | .check _ | .leave _ => s.2

def Watch.step (s : Watch K) (a : Action K) : Watch K :=
  (s.1.step decode ops a, s.lastAfter decode ops a)

end Steps

/-- **No retry is lost.** If the last config of the live session has failed so far and its
goroutine has claimed the slot, or found it claimed, then a goroutine of the session works on its
revision. -/
def NoRetryLost (s : Watch K) : Prop :=
  s.1.live = true → ∀ i d, s.2 = some (i, d) → ¬ s.1.At i .starting →
    ∃ j < s.1.spawned, ∃ r, s.1.retries j = some r ∧
      ¬ s.1.Cancelled r ∧ r.rev = d.revision ∧ r.Working

/-- A schedule on which goroutines start before the next push and return before the next
session. -/
def Prompt (s : Watch K) : Action K → Prop
  | .connect _ => ∀ i < s.1.spawned, s.1.retries i = none
  | .push _ _ => ∀ i < s.1.spawned, ¬ s.1.At i .starting
  | _ => True

instance (s : Watch K) (a : Action K) : Decidable (Prompt s a) :=
  match a with
  | .connect _ => inferInstanceAs (Decidable (∀ i < s.1.spawned, s.1.retries i = none))
  | .push _ _ => inferInstanceAs (Decidable (∀ i < s.1.spawned, ¬ s.1.At i .starting))
  | .hangUp | .swap _ | .wake _ | .cancel _ | .check _ | .tryApply _ _ | .leave _ => isTrue trivial

/-- The order among the goroutines of a session: one with the newest revision has the slot, if
there is one, and leaves only when that has been applied; and as long as the last push has not been
applied, there is one. -/
structure Orderly (s : Watch K) : Prop where
  unborn : ∀ i, s.1.spawned ≤ i → s.1.retries i = none
  own : ∀ i r, s.1.retries i = some r → r.session = s.1.session
  bounds : ∀ i r, s.1.retries i = some r → 0 ≤ r.rev ∧ r.rev ≤ s.1.ap.newestRev
  claimed : s.1.retrying ≠ -1 →
    ∃ i r, s.1.retries i = some r ∧ r.phase ≠ .starting ∧ r.rev = s.1.retrying
  unique : ∀ i j r r', s.1.retries i = some r → s.1.retries j = some r' →
    r.phase ≠ .starting → r'.phase ≠ .starting → r.rev = r'.rev → i = j
  newest : ∀ i r, s.1.retries i = some r → r.phase = .starting → r.rev = s.1.ap.newestRev
  holds : ∀ i r, s.1.retries i = some r → r.phase ≠ .starting → r.rev = s.1.ap.newestRev →
    s.1.retrying = r.rev
  left : s.1.live = true → ∀ i r, s.1.retries i = some r → r.phase = .leaving →
    r.rev = s.1.ap.newestRev → s.1.ap.appliedRev = r.rev
  pending : s.1.live = true → ∀ i d, s.2 = some (i, d) → d.revision = s.1.ap.newestRev ∧
    s.1.ap.appliedRev ≠ d.revision ∧ (s.1.At i .starting ∨
      ∃ j r, s.1.retries j = some r ∧ r.Working ∧ r.rev = d.revision)

variable {s : Watch K}

/-- What the order says about one goroutine. -/
structure Fits (s : Watch K) (i : Nat) (r : Retry) : Prop where
  born : i < s.1.spawned
  own : r.session = s.1.session
  bounds : 0 ≤ r.rev ∧ r.rev ≤ s.1.ap.newestRev
  newest : r.phase = .starting → r.rev = s.1.ap.newestRev
  holds : r.phase ≠ .starting → r.rev = s.1.ap.newestRev → s.1.retrying = r.rev
  left : s.1.live = true → r.phase = .leaving → r.rev = s.1.ap.newestRev →
    s.1.ap.appliedRev = r.rev

theorem retries_set {c : Client K} {j : Nat} {new : Option Retry} :
    (c.set i new).retries j = some r ↔ (j = i ∧ new = some r) ∨ (j ≠ i ∧ c.retries j = some r) := by
  change Function.update c.retries i new j = some r ↔ _
  rw [Function.update_apply]
  split <;> simp_all

section

variable (claimed : s.1.retrying ≠ -1 →
    ∃ i r, s.1.retries i = some r ∧ r.phase ≠ .starting ∧ r.rev = s.1.retrying)
  (pending : s.1.live = true → ∀ i d, s.2 = some (i, d) → d.revision = s.1.ap.newestRev ∧
    s.1.ap.appliedRev ≠ d.revision ∧ (s.1.At i .starting ∨
      ∃ j r, s.1.retries j = some r ∧ r.Working ∧ r.rev = d.revision))

include claimed pending

/-- The order holds if it holds for each goroutine. -/
theorem Orderly.of_fits (fits : ∀ i r, s.1.retries i = some r → Fits s i r)
    (unique : ∀ i j r r', s.1.retries i = some r → s.1.retries j = some r' →
      r.phase ≠ .starting → r'.phase ≠ .starting → r.rev = r'.rev → i = j) : Orderly s where
  unborn i outside := by
    by_contra present
    obtain ⟨r, found⟩ := Option.ne_none_iff_exists'.mp present
    exact Nat.not_lt.mpr outside (fits i r found).born
  own i r found := (fits i r found).own
  bounds i r found := (fits i r found).bounds
  claimed := claimed
  unique := unique
  newest i r found := (fits i r found).newest
  holds i r found := (fits i r found).holds
  left live i r found := (fits i r found).left live
  pending := pending

/-- **One goroutine changes.** The order holds again if it holds for this goroutine and for each
other one, and no other one has claimed its revision. -/
theorem Orderly.of_set {old : Watch K} (orderly : Orderly old) {new : Option Retry}
    (set : s.1.retries = (old.1.set i new).retries) (mine : ∀ r ∈ new, Fits s i r)
    (alone : ∀ r ∈ new, r.phase ≠ .starting → ∀ j r', j ≠ i → old.1.retries j = some r' →
      r'.phase ≠ .starting → r'.rev ≠ r.rev)
    (others : ∀ j r, j ≠ i → old.1.retries j = some r → Fits s j r) : Orderly s := by
  refine .of_fits claimed pending (fun j r same => ?_)
    fun j j' r r' same same' swapped swapped' rev => ?_
  · rcases retries_set.mp (set ▸ same) with ⟨rfl, own⟩ | ⟨other, known⟩
    · exact mine r own
    · exact others j r other known
  · rcases retries_set.mp (set ▸ same) with ⟨rfl, own⟩ | ⟨other, known⟩ <;>
      rcases retries_set.mp (set ▸ same') with ⟨rfl, own'⟩ | ⟨other', known'⟩
    · rfl
    · exact absurd rev.symm (alone r own swapped j' r' other' known' swapped')
    · exact absurd rev (alone r' own' swapped' j r other known swapped)
    · exact orderly.unique j j' r r' known known' swapped swapped' rev

end

theorem orderly_start (ap : Applier K) : Orderly (newClient ap, none) :=
  .of_fits (absurd rfl) (fun live => by cases live) (fun _ _ none => by cases none)
    fun _ _ _ _ none => by cases none

theorem Retry.working_of (claimed : r.phase ≠ .starting) (stays : r.phase ≠ .leaving) :
    r.Working := by
  rw [Retry.Working]
  cases phase : r.phase <;> simp_all

namespace Orderly

variable (orderly : Orderly s)

include orderly

theorem fits (found : s.1.retries i = some r) : Fits s i r where
  born := by
    by_contra outside
    cases (orderly.unborn i (Nat.not_lt.mp outside)).symm.trans found
  own := orderly.own i r found
  bounds := orderly.bounds i r found
  newest := orderly.newest i r found
  holds := orderly.holds i r found
  left := fun live => orderly.left live i r found

theorem noRetryLost : NoRetryLost s := by
  intro live i d last claimed
  obtain ⟨_, _, starting | ⟨j, r, found, working, same⟩⟩ := orderly.pending live i d last
  · exact absurd starting claimed
  · have fits := orderly.fits found
    exact ⟨j, fits.born, r, found, fun cancelled => cancelled ⟨live, fits.own⟩, same, working⟩

/-! ## Steps of goroutines -/

/-- **A goroutine moves on** after it has claimed the slot. The applier may have applied its
revision. -/
theorem move (found : s.1.retries i = some r) (claimed : r.phase ≠ .starting) {phase : Phase} (moved : phase ≠ .starting) {ap : Applier K}
    {pending : Option (Nat × DesiredConfig)} (newest : ap.newestRev = s.1.ap.newestRev)
    (applied : (ap.appliedRev = s.1.ap.appliedRev ∧ (s.1.live = true → pending = s.2)) ∨
      (ap.appliedRev = s.1.ap.newestRev ∧ (s.1.live = true → pending = none)))
    (leaves : s.1.live = true → phase = .leaving → r.rev = s.1.ap.newestRev →
      ap.appliedRev = r.rev) :
    Orderly ({ s.1.set i (some { r with phase := phase }) with ap := ap }, pending) := by
  have own := orderly.fits found
  refine orderly.of_set ?_ ?_ rfl ?_ ?_ ?_
  · intro taken
    obtain ⟨j, old, known, swapped, rev⟩ := orderly.claimed taken
    by_cases here : j = i
    · subst here
      cases found.symm.trans known
      exact ⟨j, _, retries_set.mpr (.inl ⟨rfl, rfl⟩), moved, rev⟩
    · exact ⟨j, old, retries_set.mpr (.inr ⟨here, known⟩), swapped, rev⟩
  · intro live j d last
    rcases applied with ⟨unchanged, same⟩ | ⟨_, same⟩
    · obtain ⟨top, unapplied, serving⟩ := orderly.pending live j d ((same live).symm.trans last)
      refine ⟨top.trans newest.symm, fun done => unapplied (unchanged ▸ done), ?_⟩
      rcases serving with ⟨old, known, starting⟩ | ⟨j', old, known, working, rev⟩
      · left
        have other : j ≠ i := by
          rintro rfl
          cases found.symm.trans known
          exact claimed starting
        exact ⟨old, retries_set.mpr (.inr ⟨other, known⟩), starting⟩
      · right
        by_cases here : j' = i
        · subst here
          cases found.symm.trans known
          refine ⟨j', _, retries_set.mpr (.inl ⟨rfl, rfl⟩), Retry.working_of moved ?_, rev⟩
          intro leaving
          have done := leaves live leaving (rev.trans top)
          exact unapplied (by rw [← unchanged, done, rev])
        · exact ⟨j', old, retries_set.mpr (.inr ⟨here, known⟩), working, rev⟩
    · cases (same live).symm.trans last
  · rintro _ ⟨⟩
    exact { own with
      bounds := newest ▸ own.bounds
      newest := fun starting => absurd starting moved
      holds := fun _ top => own.holds claimed (top.trans newest)
      left := fun live leaving top => leaves live leaving (top.trans newest) }
  · rintro _ ⟨⟩ _ j r' other known swapped same
    exact other (orderly.unique j i r' r known found swapped claimed same)
  · intro j r' _ known
    have old := orderly.fits known
    refine { old with
      bounds := newest ▸ old.bounds
      newest := fun starting => (old.newest starting).trans newest.symm
      holds := fun swapped top => old.holds swapped (top.trans newest)
      left := fun live leaving top => ?_ }
    rcases applied with ⟨unchanged, _⟩ | ⟨done, _⟩
    · exact unchanged.trans (old.left live leaving (top.trans newest))
    · exact done.trans (top.trans newest).symm

/-- **A goroutine returns.** -/
theorem remove (i : Nat) (slot : Int)
    (claimed : slot ≠ -1 → s.1.retrying = slot ∧
      ∀ r, s.1.retries i = some r → r.phase ≠ .starting → r.rev ≠ slot)
    (holds : ∀ j r, j ≠ i → s.1.retries j = some r → r.phase ≠ .starting →
      r.rev = s.1.ap.newestRev → slot = r.rev)
    (pending : s.1.live = true → ∀ j d, s.2 = some (j, d) → ∀ r, s.1.retries i = some r →
      r.rev = d.revision → ∃ j' r', j' ≠ i ∧ s.1.retries j' = some r' ∧ r'.Working ∧
        r'.rev = d.revision) : Orderly ({ s.1.set i none with retrying := slot }, s.2) := by
  refine orderly.of_set ?_ ?_ rfl nofun nofun ?_
  · intro taken
    obtain ⟨same, others⟩ := claimed taken
    obtain ⟨j, r, found, swapped, rev⟩ := orderly.claimed (same ▸ taken)
    have other : j ≠ i := by
      rintro rfl
      exact others r found swapped (rev.trans same)
    exact ⟨j, r, retries_set.mpr (.inr ⟨other, found⟩), swapped, rev.trans same⟩
  · intro live j d last
    obtain ⟨top, unapplied, serving⟩ := orderly.pending live j d last
    refine ⟨top, unapplied, ?_⟩
    have passed : ∀ r, s.1.retries i = some r → r.rev = d.revision →
        ∃ j' r', (s.1.set i none).retries j' = some r' ∧ r'.Working ∧ r'.rev = d.revision := by
      intro r found rev
      obtain ⟨j', r', other, found', working, rev'⟩ := pending live j d last r found rev
      exact ⟨j', r', retries_set.mpr (.inr ⟨other, found'⟩), working, rev'⟩
    rcases serving with ⟨r, found, starting⟩ | ⟨j', r, found, working, rev⟩
    · by_cases here : j = i
      · subst here
        exact .inr (passed r found ((orderly.newest j r found starting).trans top.symm))
      · exact .inl ⟨r, retries_set.mpr (.inr ⟨here, found⟩), starting⟩
    · right
      by_cases here : j' = i
      · subst here
        exact passed r found rev
      · exact ⟨j', r, retries_set.mpr (.inr ⟨here, found⟩), working, rev⟩
  · exact fun j r other known => { orderly.fits known with holds := holds j r other known }

/-- As long as the last push has not been applied, a goroutine that has claimed the slot works on
its revision. -/
theorem working (live : s.1.live = true)
    {j : Nat} (last : s.2 = some (i, d)) (found : s.1.retries j = some r)
    (claimed : r.phase ≠ .starting) (rev : r.rev = d.revision) : r.Working := by
  obtain ⟨top, unapplied, _⟩ := orderly.pending live i d last
  refine Retry.working_of claimed fun leaving => unapplied ?_
  rw [orderly.left live j r found leaving (rev.trans top), rev]

/-- **A goroutine finds its revision claimed**, and returns. -/
theorem swap_claimed (found : s.1.retries i = some r) (starting : r.phase = .starting)
    (taken : s.1.retrying = r.rev) : Orderly (s.1.set i none, s.2) := by
  have positive := (orderly.bounds i r found).1
  obtain ⟨j, r', found', swapped, rev⟩ := orderly.claimed (by rw [taken]; omega)
  have other : j ≠ i := by
    rintro rfl
    cases found.symm.trans found'
    exact swapped starting
  refine orderly.remove i s.1.retrying ?_ ?_ ?_
  · refine fun _ => ⟨rfl, fun r₀ known claimed => ?_⟩
    cases found.symm.trans known
    exact absurd starting claimed
  · exact fun j' r'' _ => orderly.holds j' r''
  · intro live j' d last r₀ known revision
    cases found.symm.trans known
    have same : r'.rev = d.revision := rev.trans (taken.trans revision)
    exact ⟨j, r', other, found', orderly.working live last found' swapped same, same⟩

/-- **A goroutine claims the slot.** -/
theorem swap_free (found : s.1.retries i = some r) (starting : r.phase = .starting)
    (free : s.1.retrying ≠ r.rev) :
    Orderly ({ s.1.set i (some { r with phase := .sleeping }) with retrying := r.rev }, s.2) := by
  have top := orderly.newest i r found starting
  have nobody : ∀ j r', s.1.retries j = some r' → r'.phase ≠ .starting → r'.rev ≠ r.rev := by
    intro j r' known swapped same
    exact free ((orderly.holds j r' known swapped (same.trans top)).trans same)
  have mine : (s.1.set i (some { r with phase := .sleeping })).retries i =
      some { r with phase := .sleeping } := retries_set.mpr (.inl ⟨rfl, rfl⟩)
  refine orderly.of_set (fun _ => ⟨i, _, mine, nofun, rfl⟩) ?_ rfl ?_ ?_ ?_
  · intro live j d last
    obtain ⟨topmost, unapplied, _⟩ := orderly.pending live j d last
    exact ⟨topmost, unapplied, .inr ⟨i, _, mine, .inl rfl, top.trans topmost.symm⟩⟩
  · rintro _ ⟨⟩
    exact { orderly.fits found with newest := nofun, holds := fun _ _ => rfl, left := fun _ => nofun }
  · rintro _ ⟨⟩ _ j r' _ known swapped
    exact nobody j r' known swapped
  · exact fun j r' _ known => { orderly.fits known with
      holds := fun swapped newest => absurd (newest.trans top.symm) (nobody j r' known swapped) }

/-- **A goroutine leaves**, and frees the slot if it is its own. -/
theorem leave (found : s.1.retries i = some r) (leaving : r.phase = .leaving) :
    Orderly ({ s.1.set i none with
      retrying := if s.1.retrying = r.rev then -1 else s.1.retrying }, s.2) := by
  have swapped : r.phase ≠ .starting := by simp [leaving]
  apply orderly.remove
  · intro taken
    rw [ite_ne_left_iff] at taken
    rw [if_neg taken.1]
    refine ⟨rfl, fun r' known _ => ?_⟩
    cases found.symm.trans known
    exact fun same => taken.1 same.symm
  · intro j r' other known claimed top
    have slot := orderly.holds j r' known claimed top
    rw [if_neg, slot]
    intro mine
    exact other (orderly.unique j i r' r known found claimed swapped (slot.symm.trans mine))
  · intro live j d last r' known rev
    cases found.symm.trans known
    have working := orderly.working live last found swapped rev
    rw [Retry.Working, leaving] at working
    simp at working

/-! ## Steps of the session -/

/-- **A config arrives** when all goroutines have started, and need not be retried. -/
theorem raise (started : ∀ i < s.1.spawned, ¬ s.1.At i .starting)
    {ap : Applier K} (newest : s.1.ap.newestRev ≤ ap.newestRev)
    (applied : ap.appliedRev = s.1.ap.appliedRev ∨ ap.appliedRev = ap.newestRev) :
    Orderly ({ s.1 with ap := ap }, none) := by
  refine .of_fits orderly.claimed nofun (fun i r found => ?_) orderly.unique
  have old := orderly.fits found
  have top (same : r.rev = ap.newestRev) : r.rev = s.1.ap.newestRev :=
    le_antisymm old.bounds.2 (same ▸ newest)
  refine { old with
    bounds := ⟨old.bounds.1, old.bounds.2.trans newest⟩
    newest := fun starting => absurd ⟨r, found, starting⟩ (started i old.born)
    holds := fun swapped same => old.holds swapped (top same)
    left := fun live leaving same => ?_ }
  rcases applied with unchanged | done
  · exact unchanged.trans (old.left live leaving (top same))
  · exact done.trans same.symm

omit orderly in
/-- **A config fails**, and a goroutine is started for it. -/
theorem spawn {c : Client K}
    (orderly : Orderly (c, none)) (positive : 0 ≤ d.revision) (top : c.ap.newestRev = d.revision)
    (unapplied : c.ap.appliedRev ≠ d.revision) :
    Orderly ({ c.set c.spawned (some ⟨c.session, d, .starting⟩) with
      spawned := c.spawned + 1 }, some (c.spawned, d)) := by
  refine orderly.of_set ?_ ?_ rfl ?_ ?_ ?_
  · intro taken
    obtain ⟨j, r, found, swapped, rev⟩ := orderly.claimed taken
    exact ⟨j, r, retries_set.mpr (.inr ⟨(orderly.fits found).born.ne, found⟩), swapped, rev⟩
  · intro live j d' last
    cases last
    exact ⟨top.symm, unapplied,
      Or.inl ⟨_, retries_set.mpr (Or.inl ⟨rfl, rfl⟩), rfl⟩⟩
  · rintro _ ⟨⟩
    exact ⟨Nat.lt_succ_self _, rfl, ⟨positive, top.ge⟩, fun _ => top.symm, fun swapped =>
      absurd rfl swapped, fun _ => nofun⟩
  · rintro _ ⟨⟩ swapped
    exact absurd rfl swapped
  · intro j r _ known
    have old := orderly.fits known
    exact { old with born := Nat.lt_succ_of_lt old.born }

theorem filter_pending (live : s.1.live = true) (rev : Int) :
    (s.2.filter fun last => last.2.revision ≠ rev) =
      if rev = s.1.ap.newestRev then none else s.2 := by
  cases last : s.2 with
  | none => simp
  | some pushed =>
    obtain ⟨top, _⟩ := orderly.pending live pushed.1 pushed.2 last
    rw [Option.filter_some, top]
    by_cases same : rev = s.1.ap.newestRev
    · simp [same]
    · simp [same, Ne.symm same]

theorem proceed (found : s.1.retries i = some r) (claimed : r.phase ≠ .starting) {phase : Phase}
    (moved : phase ≠ .starting) (leaves : s.1.live = true → phase = .leaving →
      r.rev = s.1.ap.newestRev → s.1.ap.appliedRev = r.rev) :
    Orderly (s.1.set i (some { r with phase := phase }), s.2) :=
  orderly.move found claimed moved rfl (.inl ⟨rfl, fun _ => rfl⟩) leaves

variable [DecidableEq K] {decode : String → Option K} {ops : KeyOps K}

theorem push (started : ∀ i < s.1.spawned, ¬ s.1.At i .starting)
    (around : Surroundings K) (positive : 0 ≤ d.revision) :
    Orderly (Watch.step decode ops s (.push around d)) := by
  have result := apply_result decode ops s.1.ap around d
  rw [Watch.step, Watch.lastAfter, Client.step]
  generalize s.1.ap.apply decode ops around d = outcome at result
  obtain ⟨ap, failed⟩ := outcome
  cases result with
  | stale =>
    rw [if_pos (.inl rfl), if_pos (.inl rfl)]
    exact orderly.raise started (le_rfl) (.inl rfl)
  | same fresh =>
    rw [if_pos (.inl rfl), if_pos (.inl rfl)]
    exact orderly.raise started fresh (.inl rfl)
  | applied dev offers =>
    rw [if_pos (.inl rfl), if_pos (.inl rfl)]
    exact orderly.raise started offers.1 (.inr rfl)
  | failed dev udpMode why offers =>
    have raised : Orderly ({ s.1 with ap := { s.1.ap with
        newestRev := d.revision, udpMode := udpMode, dev := dev } }, none) :=
      orderly.raise started offers.1 (.inl rfl)
    by_cases http : s.1.http = true
    · rw [if_pos (.inr http), if_pos (.inr http)]
      exact raised
    · have fails : ¬ (some why = none ∨ s.1.http = true) := by simp [http]
      rw [if_neg fails, if_neg fails]
      exact raised.spawn positive rfl offers.2.symm

/-- **A goroutine applies.** -/
theorem tryApply (around : Surroundings K) (found : s.1.retries i = some r)
    (applying : r.phase = .applying) :
    Orderly (Watch.step decode ops s (.tryApply around i)) := by
  have claimed : r.phase ≠ .starting := by simp [applying]
  have bound := (orderly.bounds i r found).2
  have result := apply_result decode ops s.1.ap around r.desired
  rw [Watch.step, Watch.lastAfter, Client.step, Client.stepRetry, found]
  dsimp only [Option.elim]
  generalize s.1.ap.apply decode ops around r.desired = outcome at result
  obtain ⟨ap, failed⟩ := outcome
  dsimp only at result ⊢
  cases result with
  | stale old =>
    have older : r.rev ≠ s.1.ap.newestRev := ne_of_lt old
    rw [if_pos rfl, if_pos rfl]
    refine orderly.move found claimed Phase.noConfusion rfl (Or.inl ⟨rfl, fun live => ?_⟩)
      fun _ _ top => absurd top older
    rw [orderly.filter_pending live, if_neg older]
  | same fresh same =>
    have top : r.rev = s.1.ap.newestRev := le_antisymm bound fresh
    rw [if_pos rfl, if_pos rfl]
    refine orderly.move found claimed Phase.noConfusion top (Or.inr ⟨same.symm.trans top, fun live => ?_⟩)
      fun _ _ _ => same.symm
    rw [orderly.filter_pending live, if_pos top]
  | applied dev offers =>
    have top : r.rev = s.1.ap.newestRev := le_antisymm bound offers.1
    rw [if_pos rfl, if_pos rfl]
    refine orderly.move found claimed Phase.noConfusion top (Or.inr ⟨top, fun live => ?_⟩)
      fun _ _ _ => rfl
    rw [orderly.filter_pending live, if_pos top]
  | failed dev udpMode why offers =>
    rw [if_neg (Option.some_ne_none why), if_neg (Option.some_ne_none why)]
    exact orderly.move found claimed Phase.noConfusion (le_antisymm bound offers.1)
      (Or.inl ⟨rfl, fun _ => rfl⟩) fun _ leaving => by cases leaving

/-- **One step.** -/
theorem step {a : Action K} (enabled : s.1.Enabled a)
    (prompt : Prompt s a) : Orderly (Watch.step decode ops s a) := by
  cases a with
  | connect http =>
    have nobody : ∀ i, s.1.retries i = none := by
      intro i
      by_cases born : i < s.1.spawned
      · exact prompt i born
      · exact orderly.unborn i (Nat.not_lt.mp born)
    have none : ∀ i r, s.1.retries i ≠ some r := fun i r found => by
      cases (nobody i).symm.trans found
    have free : s.1.retrying = -1 := by
      by_contra taken
      obtain ⟨i, r, found, _⟩ := orderly.claimed taken
      exact none i r found
    exact .of_fits (absurd free) nofun (fun i r found => absurd found (none i r))
      fun i _ r _ found => absurd found (none i r)
  | hangUp =>
    exact { orderly with
      left := nofun
      pending := nofun }
  | push around d => exact orderly.push prompt around enabled.2
  | swap i =>
    obtain ⟨r, found, starting⟩ := enabled
    rw [Watch.step, Watch.lastAfter, Client.step, Client.stepRetry, found]
    dsimp only [Option.elim]
    split
    · next taken => exact orderly.swap_claimed found starting taken
    · next free => exact orderly.swap_free found starting free
  | wake i =>
    obtain ⟨r, found, sleeping⟩ := enabled
    rw [Watch.step, Watch.lastAfter, Client.step, Client.stepRetry, found]
    exact orderly.proceed found (by simp [sleeping]) nofun nofun
  | cancel i =>
    obtain ⟨r, found, sleeping, cancelled⟩ := enabled
    rw [Watch.step, Watch.lastAfter, Client.step, Client.stepRetry, found]
    refine orderly.proceed found (by simp [sleeping]) nofun fun live _ _ => ?_
    exact absurd ⟨live, orderly.own i r found⟩ cancelled
  | check i =>
    obtain ⟨r, found, awake⟩ := enabled
    have claimed : r.phase ≠ .starting := by simp [awake]
    rw [Watch.step, Watch.lastAfter, Client.step, Client.stepRetry, found]
    dsimp only [Option.elim]
    split
    · exact orderly.proceed found claimed nofun nofun
    · next lost =>
      refine orderly.proceed found claimed nofun fun _ _ top => ?_
      exact absurd (orderly.holds i r found claimed top) lost
  | tryApply around i =>
    obtain ⟨r, found, applying⟩ := enabled
    exact orderly.tryApply around found applying
  | leave i =>
    obtain ⟨r, found, leaving⟩ := enabled
    rw [Watch.step, Watch.lastAfter, Client.step, Client.stepRetry, found]
    exact orderly.leave found leaving

end Orderly

/-- **Retries are kept.** On every schedule on which goroutines claim the slot before the next push
and return before the next session, no retry is ever lost. -/
theorem retry_kept [DecidableEq K] {decode : String → Option K} {ops : KeyOps K} (ap : Applier K) (schedule : List (Action K))
    (run : Runs.Along (Watch.step decode ops) (fun s a => s.1.Enabled a ∧ Prompt s a)
      (newClient ap, none) schedule) :
    NoRetryLost (Runs.after (Watch.step decode ops) (newClient ap, none) schedule) := by
  have orderly : Orderly (Runs.after (Watch.step decode ops) (newClient ap, none) schedule) :=
    Runs.invariant Orderly (fun _ _ orderly ok => orderly.step ok.1 ok.2) (orderly_start ap) run
  exact orderly.noRetryLost

/-! ## Two schedules -/

/-- The client of an agent that has just started, and no push. -/
def freshWatch : Watch Nat :=
  (newClient freshApplier.1, none)

def failedPush (revision : Int) : Action Nat :=
  .push ⟨.stored _, some, false⟩ (onePeer revision 51820 "10.0.0.1/24" "192.0.2.2:51820")

/-- A failed push is retried at once. -/
def promptRetry : List (Action Nat) :=
  [.connect false, failedPush 5, .swap 0, .wake 0, .check 0]

theorem promptRetry_kept :
    NoRetryLost (Runs.after (Watch.step digitKey digitOps) freshWatch promptRetry) :=
  retry_kept freshApplier.1 promptRetry (by decide +kernel)

/-- Two pushes fail, and the goroutine of the first comes after that of the second. -/
def lateSwap : List (Action Nat) :=
  [.connect false, failedPush 5, failedPush 6, .swap 1, .swap 0, .wake 1, .check 1, .leave 1]

/-- **A retry is lost.** The goroutine of revision 5 takes the slot from that of revision 6, which
leaves; nobody retries revision 6, the last one, which was never applied. -/
theorem lateSwap_lost :
    Runs.Along (Watch.step digitKey digitOps) (fun s a => s.1.Enabled a) freshWatch lateSwap ∧
      ¬ NoRetryLost (Runs.after (Watch.step digitKey digitOps) freshWatch lateSwap) := by
  refine ⟨by decide +kernel, fun kept => ?_⟩
  have last : (Runs.after (Watch.step digitKey digitOps) freshWatch lateSwap).2 =
      some (1, onePeer 6 51820 "10.0.0.1/24" "192.0.2.2:51820") := by
    decide +kernel
  exact absurd (kept (by decide +kernel) _ _ last (by decide +kernel)) (by decide +kernel)

end Agent
