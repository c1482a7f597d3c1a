import Mathlib.Data.List.Basic

/-! # Failed logins

The tables `auth_bans` and `auth_failures` and the calls of the store that read and write them.
An instant is a number of nanoseconds since 1970; the rows hold seconds. `RecordAuthFailure` is a
sequence of statements without a transaction, and any of them may fail (`RecordFault`). When a
ban was made is left out.
-/

namespace Store

/-- Thirty minutes, in seconds. -/
def authFailWindow : Nat := 1800

def authFailLimit : Nat := 5

/-- `Time.Unix`. -/
def unix (now : Nat) : Nat :=
  now / 1000000000

/-- `now.Add(-authFailWindow).Unix()`. -/
def authCutoff (now : Nat) : Nat :=
  unix now - authFailWindow

/-- The tables `auth_bans` and `auth_failures`. -/
structure AuthTables where
  bans : List String
  failures : List (String × Nat)

/-- The statement at which `RecordAuthFailure` fails. The error of the last one is ignored. -/
inductive RecordFault
  | prune
  | insert
  | count
  | ban
  | forget
deriving DecidableEq

namespace AuthTables

/-- `IsAuthBanned`, when the query succeeds. -/
def isAuthBanned (t : AuthTables) (ip : String) : Bool :=
  ip ≠ "" ∧ ip ∈ t.bans

/-- The failures of an address since a second. -/
def recent (t : AuthTables) (ip : String) (cutoff : Nat) : Nat :=
  t.failures.countP fun f => f.1 = ip ∧ cutoff ≤ f.2

/-- The failures after the statements that prune and insert. -/
def withFailure (t : AuthTables) (ip : String) (now : Nat) : AuthTables :=
  { t with failures := (t.failures.filter fun f => authCutoff now ≤ f.2) ++ [(ip, unix now)] }

/-- The tables without the failures of an address. -/
def forget (t : AuthTables) (ip : String) : AuthTables :=
  { t with failures := t.failures.filter fun f => f.1 ≠ ip }

/-- `INSERT OR IGNORE INTO auth_bans`. -/
def ban (t : AuthTables) (ip : String) : AuthTables :=
  { t with bans := if ip ∈ t.bans then t.bans else t.bans ++ [ip] }

/-- `RecordAuthFailure`: whether the address is banned now and the number of its failures, or
nothing for an error. -/
def recordAuthFailure (t : AuthTables) (ip : String) (now : Nat) (fault : Option RecordFault) :
    Option (Bool × Nat) × AuthTables :=
  if ip = "" then (some (false, 0), t)
  else if fault = some .prune then (none, t)
  else if fault = some .insert then
    (none, { t with failures := t.failures.filter fun f => authCutoff now ≤ f.2 })
  else
    let t := t.withFailure ip now
    if fault = some .count then (none, t)
    else
      let count := t.recent ip (authCutoff now)
      if authFailLimit ≤ count then
        if fault = some .ban then (none, t)
        else if fault = some .forget then (some (true, count), t.ban ip)
        else (some (true, count), (t.ban ip).forget ip)
      else (some (false, count), t)

/-- `ClearAuthFailures`, when it succeeds. -/
def clearAuthFailures (t : AuthTables) (ip : String) : AuthTables :=
  if ip = "" then t else t.forget ip

/-! ## Counting -/

theorem recent_anti (t : AuthTables) (ip : String) {first second : Nat} (earlier : first ≤ second) :
    t.recent ip second ≤ t.recent ip first := by
  apply List.countP_mono_left
  intro f _ counted
  have both := of_decide_eq_true counted
  exact decide_eq_true ⟨both.1, Nat.le_trans earlier both.2⟩

theorem recent_withFailure (t : AuthTables) {ip other : String} {now cutoff : Nat}
    (later : authCutoff now ≤ cutoff) : (t.withFailure other now).recent ip cutoff =
      t.recent ip cutoff + if other = ip ∧ cutoff ≤ unix now then 1 else 0 := by
  rw [recent, withFailure, recent]
  rw [List.countP_append, List.countP_filter, List.countP_singleton]
  congr 1
  · apply List.countP_congr
    intro f _
    simp only [Bool.and_eq_true, decide_eq_true_eq]
    constructor
    · exact fun both => both.1
    · exact fun both => ⟨both, Nat.le_trans later both.2⟩
  · simp

theorem recent_forget (t : AuthTables) (ip other : String) (cutoff : Nat) :
    (t.forget other).recent ip cutoff = if ip = other then 0 else t.recent ip cutoff := by
  rw [recent, forget]
  rw [List.countP_filter]
  split
  · next same =>
    rw [List.countP_eq_zero]
    intro f _
    simp only [Bool.and_eq_true, decide_eq_true_eq]
    rintro ⟨⟨own, -⟩, others⟩
    exact others (own.trans same)
  · next differ =>
    apply List.countP_congr
    intro f _
    simp only [Bool.and_eq_true, decide_eq_true_eq]
    constructor
    · exact fun both => both.1
    · exact fun both => ⟨both, fun same => differ (both.1.symm.trans same)⟩

theorem mem_ban {t : AuthTables} {ip other : String} :
    ip ∈ (t.ban other).bans ↔ ip ∈ t.bans ∨ ip = other := by
  rw [ban]
  split
  · next known =>
    constructor
    · exact .inl
    · rintro (old | rfl)
      · exact old
      · exact known
  · rw [List.mem_append, List.mem_singleton]

/-- The tables after a failure of an address is recorded without an error. -/
def recorded (t : AuthTables) (ip : String) (now : Nat) : AuthTables :=
  if authFailLimit ≤ (t.withFailure ip now).recent ip (authCutoff now) then
    ((t.withFailure ip now).ban ip).forget ip
  else t.withFailure ip now

theorem recordAuthFailure_none (t : AuthTables) {ip : String} (named : ip ≠ "") (now : Nat) :
    ∃ banned count, t.recordAuthFailure ip now none = (some (banned, count), t.recorded ip now) := by
  rw [recordAuthFailure, if_neg named, recorded]
  by_cases reached : authFailLimit ≤ (t.withFailure ip now).recent ip (authCutoff now)
  · refine ⟨true, (t.withFailure ip now).recent ip (authCutoff now), ?_⟩
    simp [reached]
  · refine ⟨false, (t.withFailure ip now).recent ip (authCutoff now), ?_⟩
    simp [reached]

theorem recorded_own (t : AuthTables) (ip : String) (now : Nat) :
    (5 ≤ t.recent ip (authCutoff now) + 1 ∧ ip ∈ (t.recorded ip now).bans ∧
      ∀ cutoff, (t.recorded ip now).recent ip cutoff = 0) ∨
    (t.recent ip (authCutoff now) + 1 < 5 ∧ (t.recorded ip now).bans = t.bans ∧
      ∀ cutoff, authCutoff now ≤ cutoff → cutoff ≤ unix now →
        (t.recorded ip now).recent ip cutoff = t.recent ip cutoff + 1) := by
  have count : (t.withFailure ip now).recent ip (authCutoff now) =
      t.recent ip (authCutoff now) + 1 := by
    rw [recent_withFailure t (Nat.le_refl _), if_pos ⟨rfl, Nat.sub_le _ _⟩]
  rw [recorded, count]
  split
  · next reached =>
    refine .inl ⟨reached, mem_ban.mpr (.inr rfl), fun cutoff => ?_⟩
    rw [recent_forget, if_pos rfl]
  · next below =>
    refine .inr ⟨Nat.not_le.mp below, rfl, fun cutoff later inside => ?_⟩
    rw [recent_withFailure t later, if_pos ⟨rfl, inside⟩]

theorem recorded_other (t : AuthTables) {ip other : String} (differ : other ≠ ip) (now : Nat) :
    (ip ∈ (t.recorded other now).bans ↔ ip ∈ t.bans) ∧
      ∀ cutoff, authCutoff now ≤ cutoff → (t.recorded other now).recent ip cutoff =
        t.recent ip cutoff := by
  rw [recorded]
  split
  · refine ⟨?_, fun cutoff later => ?_⟩
    · refine mem_ban.trans ⟨?_, .inl⟩
      rintro (old | same)
      · exact old
      · exact absurd same.symm differ
    · rw [recent_forget, if_neg fun same => differ same.symm]
      exact (recent_withFailure t later).trans (by rw [if_neg fun both => differ both.1, Nat.add_zero])
  · refine ⟨.rfl, fun cutoff later => ?_⟩
    rw [recent_withFailure t later, if_neg fun both => differ both.1, Nat.add_zero]

end AuthTables

end Store
