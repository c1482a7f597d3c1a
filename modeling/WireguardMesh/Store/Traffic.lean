import Mathlib.Data.UInt
import WireguardMesh.Foundation.Ledger

/-! # Traffic tables

The byte counts of the nodes. `FlushTraffic` adds a batch of deltas to the tables in one
transaction, and `RollupAndPrune` recomputes the hour buckets from the minute buckets and deletes
what is past its retention. An instant is its Unix second. Sums are taken modulo 2^64 in the tables
as in memory; that is what SQLite computes as long as a column does not leave the 64-bit range.
-/

namespace Store

open Ledger

/-- Received and sent bytes, a `[2]uint64`. -/
abbrev RxTx := UInt64 × UInt64

structure TrafficDelta where
  rx : UInt64
  tx : UInt64
  /-- Minute buckets (Unix seconds aligned to minutes). -/
  minutes : GoMap Nat RxTx
  /-- By VPN address. -/
  ips : GoMap String RxTx

/-- What a flush writes, by node. -/
abbrev TrafficBatch := GoMap String TrafficDelta

/-- The `range` statements over the maps of a batch. -/
inductive TrafficSite
  | nodes
  | minutes (nodeID : String)
  | ips (nodeID : String)

/-- The tables `traffic_totals`, `traffic_minute`, `traffic_hour` and `traffic_peer_ip`. -/
structure TrafficTables where
  totals : GoMap String RxTx
  minute : GoMap (String × Nat) RxTx
  hour : GoMap (String × Nat) RxTx
  peerIP : GoMap (String × String) RxTx

/-- The statements of `FlushTraffic` for one node of the batch. -/
def writeDelta (order : RangeOrder TrafficSite) (t : TrafficTables)
    (entry : Sigma fun _ : String => TrafficDelta) : TrafficTables :=
  let nodeID := entry.1
  let d := entry.2
  { t with
    totals := if d.rx ≠ 0 ∨ d.tx ≠ 0 then Ledger.addAt t.totals nodeID (d.rx, d.tx) else t.totals
    minute := Ledger.addAll (fun b => (nodeID, b.1)) Sigma.snd t.minute
      (order.range (.minutes nodeID) d.minutes.entries)
    peerIP := Ledger.addAll (fun b => (nodeID, b.1)) Sigma.snd t.peerIP
      (order.range (.ips nodeID) d.ips.entries) }

/-- `FlushTraffic`, when the transaction commits. -/
def flushTraffic (order : RangeOrder TrafficSite) (batch : TrafficBatch) (t : TrafficTables) :
    TrafficTables :=
  (order.range .nodes batch.entries).foldl (writeDelta order) t

def minuteRetention : Nat := 7 * 24 * 3600

def hourRetention : Nat := 90 * 24 * 3600

/-- `(ts / 3600) * 3600`. -/
def hourOf (ts : Nat) : Nat :=
  ts / 3600 * 3600

/-- The minutes of an hour of a node that a rollup sums up. -/
def inGroup (curHour : Nat) (group key : String × Nat) : Bool :=
  key.2 < curHour ∧ (key.1, hourOf key.2) = group

/-- The hour buckets that a rollup writes: one for each node and hour with minute data. -/
def rollupGroups (curHour : Nat) (minute : GoMap (String × Nat) RxTx) : List (String × Nat) :=
  ((minute.keys.filter fun key => key.2 < curHour).map fun key => (key.1, hourOf key.2)).dedup

/-- `RollupAndPrune`, when the transaction commits. -/
def rollupAndPrune (now : Nat) (t : TrafficTables) : TrafficTables :=
  let curHour := hourOf now
  let hour := (rollupGroups curHour t.minute).foldl (fun hour group =>
    hour.insert group (Ledger.total (inGroup curHour group) t.minute)) t.hour
  { t with
    minute := t.minute.keep fun key => ¬ key.2 < now - minuteRetention
    hour := hour.keep fun key => ¬ key.2 < now - hourRetention }

/-! ## What a flush adds -/

/-- The part of a batch that belongs to one node. -/
def TrafficBatch.at (batch : TrafficBatch) (nodeID : String) (held : TrafficDelta → RxTx) : RxTx :=
  (batch.lookup nodeID).elim 0 held

section

variable (order : RangeOrder TrafficSite)

include order

/-- What is read off the tables of a node grows by the batch's part, if every delta of the node
adds its own and others add nothing. -/
theorem read_flushTraffic (nodeID : String)
    (read : TrafficTables → RxTx) (held : TrafficDelta → RxTx)
    (one : ∀ t entry, read (writeDelta order t entry) =
      read t + if entry.1 = nodeID then held entry.2 else 0)
    (batch : TrafficBatch) (t : TrafficTables) :
    read (flushTraffic order batch t) = read t + batch.at nodeID held :=
  read_foldl_of_perm read (writeDelta order) nodeID held one
    (order.perm .nodes batch.entries) t

theorem totals_flushTraffic (batch : TrafficBatch) (t : TrafficTables) (nodeID : String) :
    (flushTraffic order batch t).totals.getD nodeID 0 =
      t.totals.getD nodeID 0 + batch.at nodeID fun d => (d.rx, d.tx) := by
  apply read_flushTraffic order nodeID (fun t => t.totals.getD nodeID 0)
  rintro t ⟨key, d⟩
  dsimp only [writeDelta]
  split
  · exact getD_addAt _ _
  · next idle =>
    -- Nothing is written for a delta without bytes.
    rw [not_or, not_not, not_not] at idle
    rw [idle.1, idle.2]
    exact (add_zero _).symm.trans (by rw [Prod.mk_zero_zero, ite_self])

theorem peerIP_flushTraffic (batch : TrafficBatch) (t : TrafficTables) (nodeID ip : String) :
    (flushTraffic order batch t).peerIP.getD (nodeID, ip) 0 =
      t.peerIP.getD (nodeID, ip) 0 + batch.at nodeID fun d => d.ips.getD ip 0 := by
  apply read_flushTraffic order nodeID (fun t => t.peerIP.getD (nodeID, ip) 0)
  rintro t ⟨key, d⟩
  dsimp only [writeDelta]
  rw [getD_addAll_of_perm (fun ip => (key, ip)) (order.perm (.ips key) d.ips.entries)]
  congr 1
  split
  · next same => simp [same, total_key]
  · next other => exact total_of_none fun k _ => by simp [other]

theorem minute_flushTraffic (batch : TrafficBatch)
    (t : TrafficTables) (nodeID : String) (p : Nat → Bool) :
    Ledger.total (fun key => key.1 = nodeID ∧ p key.2) (flushTraffic order batch t).minute =
      Ledger.total (fun key => key.1 = nodeID ∧ p key.2) t.minute +
        batch.at nodeID fun d => Ledger.total p d.minutes := by
  apply read_flushTraffic order nodeID
    (fun t => total (fun key => key.1 = nodeID ∧ p key.2) t.minute)
  rintro t ⟨key, d⟩
  dsimp only [writeDelta]
  rw [total_addAll_of_perm (fun m => (key, m)) (order.perm (.minutes key) d.minutes.entries)]
  congr 1
  split
  · next same => simp [same]
  · next other => exact total_of_none fun k _ => by simp [other]

end

theorem mem_minute_writeDelta (order : RangeOrder TrafficSite) (key : String × Nat)
    (t : TrafficTables) (entry : Sigma fun _ : String => TrafficDelta) :
    key ∈ (writeDelta order t entry).minute ↔
      key ∈ t.minute ∨ entry.1 = key.1 ∧ key.2 ∈ entry.2.minutes := by
  dsimp only [writeDelta]
  rw [mem_addAll]
  apply or_congr_right
  constructor
  · rintro ⟨b, visited, rfl⟩
    exact ⟨rfl, List.mem_keys_of_mem ((RangeOrder.mem_range _ _ _ _).mp visited)⟩
  · rintro ⟨same, inside⟩
    obtain ⟨v, member⟩ := List.exists_of_mem_keys inside
    exact ⟨⟨key.2, v⟩, (RangeOrder.mem_range _ _ _ _).mpr member, Prod.ext same rfl⟩

/-- The minute buckets after a flush are the old ones and those of the batch. -/
theorem mem_minute_flushTraffic {order : RangeOrder TrafficSite} {batch : TrafficBatch}
    {t : TrafficTables} {key : String × Nat} : key ∈ (flushTraffic order batch t).minute ↔
      key ∈ t.minute ∨ ∃ d, batch.lookup key.1 = some d ∧ key.2 ∈ d.minutes := by
  rw [flushTraffic, Runs.foldl_iff (fun t : TrafficTables => key ∈ t.minute)
    (mem_minute_writeDelta order key)]
  apply or_congr_right
  constructor
  · rintro ⟨⟨id, d⟩, visited, rfl, inside⟩
    exact ⟨d, AList.mem_lookup_iff.mpr ((RangeOrder.mem_range _ _ _ _).mp visited), inside⟩
  · rintro ⟨d, found, inside⟩
    exact ⟨⟨key.1, d⟩, (RangeOrder.mem_range _ _ _ _).mpr (AList.mem_lookup_iff.mp found), rfl,
      inside⟩

theorem hour_flushTraffic (order : RangeOrder TrafficSite) (batch : TrafficBatch)
    (t : TrafficTables) : (flushTraffic order batch t).hour = t.hour := by
  rw [flushTraffic]
  induction order.range .nodes batch.entries generalizing t with
  | nil => rfl
  | cons e entries ih => exact ih _

end Store
