import WireguardMesh.Foundation.Runs
import WireguardMesh.Store.Traffic

/-! # Hour buckets over time

`RollupAndPrune` overwrites the bucket of every hour that still has minute data, and then deletes
the minutes older than seven days. Its cutoff is the time of the call and not a full hour, so it
may delete some minutes of an hour; the next call then replaces the complete hour bucket by the sum
of the minutes that are left (`partlyPruned_forgets`). If no call deletes a part of an hour only,
every retained hour bucket keeps the sum of all that was flushed for it (`hours_stay_complete`).
-/

namespace Store

inductive TrafficCall
  | flush (order : RangeOrder TrafficSite) (batch : TrafficBatch) (now : Nat)
  | rollup (now : Nat)

def TrafficCall.now : TrafficCall → Nat
  | .flush _ _ now => now
  | .rollup now => now

/-- The tables, the time of the last call, and the sums of all minute deltas flushed so far, by
node and hour. -/
structure Books where
  tables : TrafficTables
  clock : Nat
  flushed : String → Nat → RxTx

/-- Empty tables. -/
def Books.start : Books :=
  ⟨⟨∅, ∅, ∅, ∅⟩, 0, fun _ _ => 0⟩

def TrafficDelta.inHour (d : TrafficDelta) (hour : Nat) : RxTx :=
  Ledger.total (fun m => hourOf m = hour) d.minutes

def Books.step (b : Books) : TrafficCall → Books
  | .flush order batch now =>
    ⟨flushTraffic order batch b.tables, now,
      fun id hour => b.flushed id hour + batch.at id fun d => d.inHour hour⟩
  | .rollup now => ⟨rollupAndPrune now b.tables, now, b.flushed⟩

/-- Time does not run backwards, and the minutes of a batch are not in the future and not older
than an hour. -/
def Books.Timely (b : Books) (call : TrafficCall) : Prop :=
  b.clock ≤ call.now ∧ match call with
    | .flush _ batch now => ∀ entry ∈ batch.entries, ∀ m ∈ entry.2.minutes.keys,
        m ≤ now ∧ now ≤ m + 3600
    | .rollup _ => True

instance (b : Books) : (call : TrafficCall) → Decidable (b.Timely call)
  | .flush _ batch now => inferInstanceAs (Decidable (b.clock ≤ now ∧
      ∀ entry ∈ batch.entries, ∀ m ∈ entry.2.minutes.keys, m ≤ now ∧ now ≤ m + 3600))
  | .rollup now => inferInstanceAs (Decidable (b.clock ≤ now ∧ True))

/-- No hour of a node loses some of its minute buckets and keeps others. -/
def Books.WholeHours (b : Books) : TrafficCall → Prop
  | .flush _ _ _ => True
  | .rollup now => ∀ key ∈ b.tables.minute.keys, ∀ key' ∈ b.tables.minute.keys,
      key.1 = key'.1 → hourOf key.2 = hourOf key'.2 →
        key.2 < now - minuteRetention → key'.2 < now - minuteRetention

instance (b : Books) : (call : TrafficCall) → Decidable (b.WholeHours call)
  | .flush _ _ _ => isTrue trivial
  | .rollup now => inferInstanceAs (Decidable (∀ key ∈ b.tables.minute.keys,
      ∀ key' ∈ b.tables.minute.keys, key.1 = key'.1 → hourOf key.2 = hourOf key'.2 →
        key.2 < now - minuteRetention → key'.2 < now - minuteRetention))

/-- After a rollup every retained bucket of an hour that has ended is complete. -/
def Books.Complete (b : Books) : TrafficCall → Prop
  | .flush _ _ _ => True
  | .rollup now => ∀ id hour v, (b.step (.rollup now)).tables.hour.lookup (id, hour) = some v →
      hour + 3600 ≤ now → v = b.flushed id hour

/-! ## Rollups -/

/-- A minute bucket of an hour of a node. -/
def ofHour (id : String) (hour : Nat) (key : String × Nat) : Bool :=
  key.1 = id ∧ hourOf key.2 = hour

variable {id : String} {hour now : Nat} {t : TrafficTables}

theorem ofHour_iff {key : String × Nat} :
    ofHour id hour key = true ↔ key.1 = id ∧ hourOf key.2 = hour :=
  decide_eq_true_iff

theorem mem_rollupGroups {curHour : Nat} {minute : GoMap (String × Nat) RxTx} :
    (id, hour) ∈ rollupGroups curHour minute ↔
      ∃ key ∈ minute, ofHour id hour key = true ∧ key.2 < curHour := by
  rw [rollupGroups, List.mem_dedup, List.mem_map]
  constructor
  · rintro ⟨key, member, same⟩
    obtain ⟨inside, old⟩ := List.mem_filter.mp member
    obtain ⟨rfl, rfl⟩ := Prod.mk.inj same
    exact ⟨key, inside, ofHour_iff.mpr ⟨rfl, rfl⟩, of_decide_eq_true old⟩
  · rintro ⟨key, inside, belongs, old⟩
    obtain ⟨rfl, rfl⟩ := ofHour_iff.mp belongs
    exact ⟨key, List.mem_filter.mpr ⟨inside, decide_eq_true old⟩, rfl⟩

theorem total_inGroup {minute : GoMap (String × Nat) RxTx} (ended : hour + 3600 ≤ now) :
    Ledger.total (inGroup (hourOf now) (id, hour)) minute =
      Ledger.total (ofHour id hour) minute := by
  have same : inGroup (hourOf now) (id, hour) = ofHour id hour := by
    funext key
    rw [inGroup, ofHour, decide_eq_decide, Prod.mk.injEq]
    constructor
    · exact fun both => both.2
    · rintro ⟨node, rfl⟩
      refine ⟨?_, node, rfl⟩
      simp only [hourOf] at ended ⊢
      omega
  rw [same]

theorem lookup_hour_rollup {v : RxTx}
    (found : (rollupAndPrune now t).hour.lookup (id, hour) = some v) :
    (∃ key ∈ t.minute, ofHour id hour key = true ∧ hour + 3600 ≤ now ∧
      v = Ledger.total (ofHour id hour) t.minute) ∨
    ((∀ key ∈ t.minute, ofHour id hour key = true → now < hour + 3600) ∧
      t.hour.lookup (id, hour) = some v) := by
  rw [rollupAndPrune] at found
  dsimp only at found
  obtain ⟨kept, -⟩ := GoMap.lookup_keep.mp found
  rcases GoMap.lookup_foldl_insert_cases kept with ⟨_, rolled, rfl, rfl⟩ | ⟨skipped, before⟩
  · obtain ⟨key, inside, belongs, old⟩ := mem_rollupGroups.mp rolled
    have ended : hour + 3600 ≤ now := by
      obtain ⟨-, rfl⟩ := ofHour_iff.mp belongs
      simp only [hourOf] at old ⊢
      omega
    exact .inl ⟨key, inside, belongs, ended, total_inGroup ended⟩
  · refine .inr ⟨fun key inside belongs => ?_, before.symm⟩
    by_contra ended
    refine skipped (id, hour) (mem_rollupGroups.mpr ⟨key, inside, belongs, ?_⟩) rfl
    obtain ⟨-, rfl⟩ := ofHour_iff.mp belongs
    simp only [hourOf] at ended ⊢
    omega

theorem mem_minute_rollup {key : String × Nat} :
    key ∈ (rollupAndPrune now t).minute ↔ key ∈ t.minute ∧ ¬ key.2 < now - minuteRetention := by
  rw [rollupAndPrune]
  rw [GoMap.mem_keep, decide_eq_true_iff]

theorem total_minute_rollup {p : String × Nat → Bool}
    (kept : ∀ key ∈ t.minute, p key = true → ¬ key.2 < now - minuteRetention) :
    Ledger.total p (rollupAndPrune now t).minute = Ledger.total p t.minute := by
  rw [rollupAndPrune]
  dsimp only
  exact Ledger.total_keep fun key inside belongs => decide_eq_true (kept key inside belongs)

/-! ## Open and closed hours -/

namespace Books

variable {b : Books} {id : String} {hour now : Nat}

/-- All that was flushed for the hour is in the minute buckets, and an hour bucket is there only
with them. -/
def Open (b : Books) (id : String) (hour : Nat) : Prop :=
  Ledger.total (ofHour id hour) b.tables.minute = b.flushed id hour ∧
    ∀ v, b.tables.hour.lookup (id, hour) = some v →
      ∃ key ∈ b.tables.minute, ofHour id hour key = true

/-- The minute buckets of the hour are gone, its bucket is complete, and nothing can be flushed
for it any more. -/
def Closed (b : Books) (id : String) (hour : Nat) : Prop :=
  (∀ key ∈ b.tables.minute, ofHour id hour key = false) ∧
    (∀ v, b.tables.hour.lookup (id, hour) = some v → v = b.flushed id hour) ∧
      hour + 7200 < b.clock

/-- What holds between the calls. -/
structure Sound (b : Books) : Prop where
  ended : ∀ id hour v, b.tables.hour.lookup (id, hour) = some v → hour + 3600 ≤ b.clock
  settled : ∀ id hour, b.Open id hour ∨ b.Closed id hour

theorem sound_start : Books.start.Sound where
  ended := by
    intro id hour v found
    rw [Books.start, AList.lookup_empty] at found
    cases found
  settled := by
    refine fun id hour => .inl ⟨rfl, fun v found => ?_⟩
    rw [Books.start, AList.lookup_empty] at found
    cases found

/-- A flush keeps the books: what it writes is added on both sides, and closed hours are too old
for it. -/
theorem Sound.flush (sound : b.Sound) {order : RangeOrder TrafficSite} {batch : TrafficBatch}
    (timely : b.Timely (.flush order batch now)) : (b.step (.flush order batch now)).Sound := by
  obtain ⟨later, recent⟩ := timely
  constructor
  · intro id hour v found
    dsimp only [step] at found ⊢
    rw [hour_flushTraffic] at found
    exact (sound.ended id hour v found).trans later
  · intro id hour
    rcases sound.settled id hour with ⟨sum, recorded⟩ | ⟨gone, complete, old⟩
    · refine .inl ⟨?_, fun v found => ?_⟩
      · dsimp only [step]
        rw [← sum]
        have added := minute_flushTraffic order batch b.tables id (fun m => hourOf m = hour)
        simp only [decide_eq_true_eq] at added
        exact added
      · dsimp only [step] at found ⊢
        rw [hour_flushTraffic] at found
        obtain ⟨key, inside, belongs⟩ := recorded v found
        exact ⟨key, mem_minute_flushTraffic.mpr (.inl inside), belongs⟩
    · -- The minutes of the batch are younger than the hour.
      have younger : ∀ d, batch.lookup id = some d → ∀ m ∈ d.minutes, hourOf m ≠ hour := by
        intro d found m inside same
        have bounds := (recent ⟨id, d⟩ (AList.mem_lookup_iff.mp found) m inside).2
        have passed : b.clock ≤ now := later
        simp only [hourOf] at same
        omega
      refine .inr ⟨fun key inside => ?_, fun v found => ?_, old.trans_le later⟩
      · rcases mem_minute_flushTraffic.mp inside with before | ⟨d, found, new⟩
        · exact gone key before
        · refine decide_eq_false fun belongs => ?_
          obtain ⟨rfl, same⟩ := belongs
          exact younger d found key.2 new same
      · dsimp only [step] at found ⊢
        rw [hour_flushTraffic] at found
        have nothing : (batch.at id fun d => d.inHour hour) = 0 := by
          rw [TrafficBatch.at]
          cases found : batch.lookup id with
          | none => rfl
          | some d =>
            exact Ledger.total_of_none fun m inside => decide_eq_false (younger d found m inside)
        rw [nothing, add_zero]
        exact complete v found

theorem Sound.complete_rollup (sound : b.Sound) (later : b.clock ≤ now) {v : RxTx}
    (found : (rollupAndPrune now b.tables).hour.lookup (id, hour) = some v) :
    v = b.flushed id hour ∧ hour + 3600 ≤ now := by
  rcases lookup_hour_rollup found with ⟨key, inside, belongs, ended, sum⟩ | ⟨none, kept⟩
  · refine ⟨?_, ended⟩
    rcases sound.settled id hour with ⟨same, -⟩ | ⟨gone, -, -⟩
    · rw [sum, same]
    · exact absurd (belongs.symm.trans (gone key inside)) nofun
  · have ended := (sound.ended id hour v kept).trans later
    refine ⟨?_, ended⟩
    rcases sound.settled id hour with ⟨-, recorded⟩ | ⟨-, complete, -⟩
    · obtain ⟨key, inside, belongs⟩ := recorded v kept
      exact absurd ended (Nat.not_le.mpr (none key inside belongs))
    · exact complete v kept

theorem Sound.rollup (sound : b.Sound) (later : b.clock ≤ now)
    (whole : b.WholeHours (.rollup now)) : (b.step (.rollup now)).Sound := by
  refine ⟨fun id hour v found => (sound.complete_rollup later found).2, fun id hour => ?_⟩
  rcases sound.settled id hour with ⟨sum, recorded⟩ | ⟨gone, -, old⟩
  · by_cases deleted : ∃ key ∈ b.tables.minute, ofHour id hour key = true ∧
        key.2 < now - minuteRetention
    · -- The hour closes: all its minutes are deleted with this one.
      obtain ⟨key, inside, belongs, past⟩ := deleted
      refine .inr ⟨fun key' kept => ?_, fun v found => (sound.complete_rollup later found).1, ?_⟩
      · obtain ⟨inside', recent⟩ := mem_minute_rollup.mp kept
        refine decide_eq_false fun belongs' => recent ?_
        obtain ⟨rfl, rfl⟩ := ofHour_iff.mp belongs
        exact whole key inside key' inside' belongs'.1.symm belongs'.2.symm past
      · obtain ⟨-, rfl⟩ := ofHour_iff.mp belongs
        change hourOf key.2 + 7200 < now
        simp only [hourOf, minuteRetention] at past ⊢
        omega
    · have kept : ∀ key ∈ b.tables.minute, ofHour id hour key = true →
          ¬ key.2 < now - minuteRetention :=
        fun key inside belongs past => deleted ⟨key, inside, belongs, past⟩
      have present : ∀ key ∈ b.tables.minute, ofHour id hour key = true →
          ∃ key ∈ (rollupAndPrune now b.tables).minute, ofHour id hour key = true :=
        fun key inside belongs =>
          ⟨key, mem_minute_rollup.mpr ⟨inside, kept key inside belongs⟩, belongs⟩
      refine .inl ⟨(total_minute_rollup kept).trans sum, fun v found => ?_⟩
      rcases lookup_hour_rollup found with ⟨key, inside, belongs, -⟩ | ⟨-, before⟩
      · exact present key inside belongs
      · obtain ⟨key, inside, belongs⟩ := recorded v before
        exact present key inside belongs
  · exact .inr ⟨fun key kept => gone key (mem_minute_rollup.mp kept).1,
      fun v found => (sound.complete_rollup later found).1, old.trans_le later⟩

end Books

/-- **Hour buckets stay complete.** Over any run of flushes of recent minutes and of rollups, if no
rollup deletes a part of an hour only, then after each rollup every retained bucket of a past hour
is the sum of all that was flushed for it. -/
theorem hours_stay_complete {calls : List TrafficCall}
    (timely : Runs.Along Books.step Books.Timely .start calls)
    (whole : Runs.Along Books.step Books.WholeHours .start calls) :
    Runs.Along Books.step Books.Complete .start calls := by
  have both := Runs.along_and.mpr ⟨timely, whole⟩
  refine Runs.along_of_invariant Books.Sound ?_ ?_ Books.sound_start both
  · rintro b (⟨order, batch, now⟩ | now) sound ⟨timely, whole⟩
    · exact sound.flush timely
    · exact sound.rollup timely.1 whole
  · rintro b (⟨order, batch, now⟩ | now) sound ⟨timely, whole⟩
    · trivial
    · exact fun id hour v found _ => (sound.complete_rollup timely.1 found).1

/-! ## An hour of two minutes -/

/-- A full hour in June 2025. -/
def noon : Nat := 1750003200

/-- One byte in the first and two bytes in the last minute of the hour, flushed in its last
minute. -/
def hourOfTwo : TrafficCall :=
  .flush (.stored TrafficSite) ((∅ : TrafficBatch).insert "n"
    ⟨3, 3, ((∅ : GoMap Nat RxTx).insert noon (1, 1)).insert (noon + 3540) (2, 2), ∅⟩) (noon + 3570)

/-- Rollups on full hours, before and after the minutes expire. -/
theorem fullHours_stay_complete : Runs.Along Books.step Books.Complete .start
    [hourOfTwo, .rollup (noon + 3600), .rollup (noon + 608400), .rollup (noon + 612000)] :=
  hours_stay_complete (by decide +kernel) (by decide +kernel)

/-- **Hours forget.** Rollups at half past every hour: the first one after seven days deletes the
first minute of the hour, and the next replaces the sum of three bytes by the two left. -/
theorem partlyPruned_forgets : Runs.Along Books.step Books.Timely .start
      [hourOfTwo, .rollup (noon + 5400), .rollup (noon + 606600), .rollup (noon + 610200)] ∧
    (Runs.after Books.step .start
      [hourOfTwo, .rollup (noon + 5400), .rollup (noon + 606600)]).tables.hour.lookup ("n", noon) =
        some (3, 3) ∧
    (Runs.after Books.step .start [hourOfTwo, .rollup (noon + 5400), .rollup (noon + 606600),
      .rollup (noon + 610200)]).tables.hour.lookup ("n", noon) = some (2, 2) ∧
    ¬ Runs.Along Books.step Books.Complete .start
      [hourOfTwo, .rollup (noon + 5400), .rollup (noon + 606600), .rollup (noon + 610200)] := by
  have left : (Runs.after Books.step .start [hourOfTwo, .rollup (noon + 5400),
      .rollup (noon + 606600), .rollup (noon + 610200)]).tables.hour.lookup ("n", noon) =
        some (2, 2) := by decide +kernel
  refine ⟨by decide +kernel, by decide +kernel, left, fun ⟨_, _, _, complete, _⟩ => ?_⟩
  have sum := complete "n" noon (2, 2) left (by decide)
  exact absurd sum (by decide +kernel)

end Store
