import WireguardMesh.Stats.Service

/-! # Conservation of traffic

What is counted for a node is the sum of `counterDelta` over the pairs of consecutive samples
that no reconnect separates. It sits in the pending delta of the node, in a batch on its way to
the store, or in the store, and no step loses or doubles any of it. The totals of a node and the
bytes of each of its addresses are accounts (`Account`), and one argument about accounts
(`Account.balance_after`) gives `traffic_conserved` for all of them.
-/

namespace Stats

open Store

variable {s : System} {batch : TrafficBatch} {prev : Option Wire.Stats} {d : TrafficDelta}

/-! ## Accounts -/

/-- An amount of one node that deltas hold and the tables show. -/
structure Account (nodeID : String) where
  held : TrafficDelta → RxTx
  written : TrafficTables → RxTx
  charge : NodeCounters → NodeCounters → RxTx
  held_none : held noTraffic = 0
  held_count : ∀ order d prev cur now,
    held (count order nodeID d prev cur now) = held d + charge prev cur
  held_merge : ∀ order cur d, held (merge order nodeID cur d) = held cur + held d
  written_flush : ∀ order batch t,
    written (flushTraffic order batch t) = written t + batch.at nodeID held
  written_rollup : ∀ now t, written (rollupAndPrune now t) = written t

theorem counterDeltas_zero (prev : RxTx) : counterDeltas prev 0 = 0 := by
  have one : ∀ n : UInt64, counterDelta n 0 = 0 := by
    intro n
    rw [counterDelta]
    split
    · next reached =>
      have zero : n = 0 := UInt64.le_antisymm reached (UInt64.zero_le)
      rw [zero, sub_zero]
    · rfl
  exact Prod.ext (one prev.1) (one prev.2)

theorem getD_countIP (prev : NodeCounters) (ips : GoMap String RxTx)
    (e : Sigma fun _ : String => RxTx) (ip : String) :
    (countIP prev ips e).getD ip 0 = ips.getD ip 0 +
      if e.1 = ip then counterDeltas (prev.ips.getD ip 0) e.2 else 0 := by
  rw [countIP]
  split
  · next idle =>
    have nothing : counterDeltas (prev.ips.getD e.1 0) e.2 = 0 := Prod.ext idle.1 idle.2
    split
    · next same => rw [← same, nothing, add_zero]
    · rw [add_zero]
  · rw [Ledger.getD_addAt]
    congr 1
    split
    · next same => rw [same]
    · rfl

/-- The bytes that an address adds, from the counters of two samples. -/
def addressCharge (ip : String) (prev cur : NodeCounters) : RxTx :=
  counterDeltas (prev.ips.getD ip 0) (cur.ips.getD ip 0)

def totalAccount (nodeID : String) : Account nodeID where
  held := fun d => (d.rx, d.tx)
  written := fun t => t.totals.getD nodeID 0
  charge := fun prev cur => counterDeltas (prev.rx, prev.tx) (cur.rx, cur.tx)
  held_none := rfl
  held_count := fun _ _ _ _ _ => rfl
  held_merge := fun _ _ _ => rfl
  written_flush := fun order batch t => totals_flushTraffic order batch t nodeID
  written_rollup := fun _ _ => rfl

/-- The bytes of an address of a node. -/
def addressAccount (nodeID ip : String) : Account nodeID where
  held := fun d => d.ips.getD ip 0
  written := fun t => t.peerIP.getD (nodeID, ip) 0
  charge := addressCharge ip
  held_none := rfl
  held_count := by
    intro order d prev cur now
    have counted := Ledger.read_foldl_of_perm (fun ips : GoMap String RxTx => ips.getD ip 0)
      (countIP prev) ip (counterDeltas (prev.ips.getD ip 0))
      (fun ips e => getD_countIP prev ips e ip) (order.perm (.ips nodeID) cur.ips.entries) d.ips
    refine counted.trans (congrArg (d.ips.getD ip 0 + ·) ?_)
    rw [addressCharge, GoMap.getD.eq_def cur.ips]
    cases cur.ips.lookup ip with
    | none => exact (counterDeltas_zero _).symm
    | some v => rfl
  held_merge := by
    intro order cur d
    exact Ledger.getD_merge (order.perm (.ips nodeID) d.ips.entries) ip
  written_flush := fun order batch t => peerIP_flushTraffic order batch t nodeID ip
  written_rollup := fun _ _ => rfl

/-! ## Balances -/

theorem at_insert (batch : TrafficBatch) (id nodeID : String) (d : TrafficDelta)
    (held : TrafficDelta → RxTx) : TrafficBatch.at (batch.insert id d) nodeID held =
      if nodeID = id then held d else batch.at nodeID held := by
  rw [TrafficBatch.at, GoMap.lookup_insert]
  split
  · rfl
  · rfl

namespace Account

variable {nodeID : String} (a : Account nodeID)

/-- The part of a node in the batches that are being written. -/
def inFlight (s : System) : RxTx :=
  (s.flights.map fun batch => batch.at nodeID a.held).sum

def pending (s : System) : RxTx :=
  s.service.pending.at nodeID a.held

/-- What is written, on its way and pending. -/
def balance (s : System) : RxTx :=
  a.written s.tables + a.inFlight s + a.pending s

theorem pending_putBack (order : RangeOrder TrafficSite) (s : StatsService) (batch : TrafficBatch) :
    (putBack order s batch).pending.at nodeID a.held =
      s.pending.at nodeID a.held + batch.at nodeID a.held := by
  apply Ledger.read_foldl_of_perm (fun pending : TrafficBatch => pending.at nodeID a.held)
    (putDelta order) nodeID a.held _ (order.perm .nodes batch.entries)
  rintro pending ⟨id, d⟩
  dsimp only [putDelta]
  rw [at_insert]
  by_cases same : nodeID = id
  · subst same
    rw [if_pos rfl, if_pos rfl, TrafficBatch.at]
    cases pending.lookup nodeID with
    | none => exact (zero_add _).symm
    | some cur => exact a.held_merge order cur d
  · rw [if_neg same, if_neg fun other => same other.symm, add_zero]

theorem inFlight_eraseIdx {i : Nat} (found : s.flights[i]? = some batch) :
    a.inFlight s = ((s.flights.eraseIdx i).map fun batch => batch.at nodeID a.held).sum +
      batch.at nodeID a.held := by
  obtain ⟨inside, same⟩ := List.getElem?_eq_some_iff.mp found
  have apart := List.getElem_cons_eraseIdx_perm inside
  rw [inFlight, ← (apart.map fun batch => batch.at nodeID a.held).sum_eq, List.map_cons,
    List.sum_cons, same, add_comm]

theorem pending_ingest (order : RangeOrder TrafficSite) (s : StatsService) (id : String)
    (st : Wire.Stats) (now : Nat) : (ingest order s id st now).pending.at nodeID a.held =
      s.pending.at nodeID a.held + if id = nodeID then
        (s.last.lookup nodeID).elim 0 fun prev => a.charge prev (nodeCounters st) else 0 := by
  rw [ingest]
  by_cases same : id = nodeID
  · subst same
    rw [if_pos rfl]
    cases s.last.lookup id with
    | none => exact (add_zero _).symm
    | some prev =>
      rw [at_insert, if_pos rfl, a.held_count, TrafficBatch.at]
      cases s.pending.lookup id with
      | none => rw [Option.getD_none, a.held_none]; rfl
      | some d => rfl
  · rw [if_neg same, add_zero]
    cases s.last.lookup id with
    | none => rfl
    | some prev =>
      rw [at_insert, if_neg fun other => same other.symm]

/-- What `Ingest` adds to an account. -/
def charged (s : System) : Step → RxTx
  | .ingest _ id st _ =>
    if id = nodeID then
      (s.service.last.lookup nodeID).elim 0 fun prev => a.charge prev (nodeCounters st)
    else 0
  | _ => 0

/-- **One step.** Only samples change a balance. -/
theorem balance_step (s : System) (step : Step) :
    a.balance (s.step step) = a.balance s + a.charged s step := by
  cases step with
  | ingest order id st now =>
    dsimp only [System.step, balance, charged, inFlight, pending]
    rw [add_assoc _ _ (if id = nodeID then _ else _)]
    congr 1
    exact a.pending_ingest order s.service id st now
  | markConnected id now => exact (add_zero _).symm
  | markDisconnected id => exact (add_zero _).symm
  | take =>
    rw [show a.charged s .take = 0 from rfl, add_zero, System.step, takePending]
    by_cases idle : s.service.pending.keys = []
    · rw [if_pos idle]
    · rw [if_neg idle]
      dsimp only [balance, inFlight, pending]
      rw [List.map_append, List.sum_append, List.map_singleton, List.sum_singleton, ← add_assoc]
      exact add_zero _
  | commit order i =>
    dsimp only [System.step, charged]
    rw [add_zero]
    cases found : s.flights[i]? with
    | none => rfl
    | some batch =>
      rw [balance, balance, a.inFlight_eraseIdx found]
      dsimp only [inFlight, pending]
      rw [a.written_flush, add_right_comm (a.written s.tables), add_assoc (a.written s.tables)]
  | abort order i =>
    dsimp only [System.step, charged]
    rw [add_zero]
    cases found : s.flights[i]? with
    | none => rfl
    | some batch =>
      rw [balance, balance, a.inFlight_eraseIdx found]
      dsimp only [inFlight, pending]
      rw [a.pending_putBack, ← add_assoc (a.written s.tables), add_right_comm _ (batch.at _ _),
        ← add_assoc]
  | rollup now =>
    dsimp only [System.step, charged]
    rw [add_zero, balance, balance, ← a.written_rollup now s.tables]
    rfl

end Account

/-! ## The samples of a node -/

/-- The pairs of neighbours in a list of samples that is interrupted in places. -/
def consecutive {α : Type} : List (Option α) → List (α × α)
  | [] => []
  | [_] => []
  | x :: y :: rest => (x.bind fun a => y.map fun b => (a, b)).toList ++ consecutive (y :: rest)

/-- What happens to the counters of a node: a sample, or `none` for a reconnect. -/
def sampleOf (nodeID : String) : Step → Option (Option Wire.Stats)
  | .ingest _ id st _ => if id = nodeID then some (some st) else none
  | .markConnected id _ => if id = nodeID then some none else none
  | _ => none

/-- The samples of a node, interrupted by its reconnects. -/
def samples (nodeID : String) (run : List Step) : List (Option Wire.Stats) :=
  run.filterMap (sampleOf nodeID)

/-- The sum over all pairs of consecutive samples of a node without a reconnect between them. -/
def counted (nodeID : String) (charge : Wire.Stats → Wire.Stats → RxTx) (run : List Step) : RxTx :=
  ((consecutive (samples nodeID run)).map fun pair => charge pair.1 pair.2).sum

theorem sum_consecutive {α : Type} (charge : α → α → RxTx) (x y : Option α)
    (rest : List (Option α)) :
    ((consecutive (x :: y :: rest)).map fun pair => charge pair.1 pair.2).sum =
      (x.elim 0 fun a => y.elim 0 (charge a)) +
        ((consecutive (y :: rest)).map fun pair => charge pair.1 pair.2).sum := by
  rw [consecutive, List.map_append, List.sum_append]
  congr 1
  cases x with
  | none => rfl
  | some a =>
    cases y with
    | none => rfl
    | some b => exact add_zero _

theorem last_ingest (order : RangeOrder TrafficSite) (s : StatsService) (id : String)
    (st : Wire.Stats) (now : Nat) :
    (ingest order s id st now).last = s.last.insert id (nodeCounters st) := by
  rw [ingest]
  cases s.last.lookup id with
  | none => rfl
  | some prev => rfl

theorem last_step {nodeID : String}
    (known : s.service.last.lookup nodeID = prev.map nodeCounters) (step : Step) :
    (s.step step).service.last.lookup nodeID =
      ((sampleOf nodeID step).getD prev).map nodeCounters := by
  cases step with
  | ingest order id st now =>
    dsimp only [System.step, sampleOf]
    rw [last_ingest, GoMap.lookup_insert]
    by_cases same : id = nodeID
    · rw [if_pos same.symm, if_pos same]; rfl
    · rw [if_neg fun other => same other.symm, if_neg same, known]; rfl
  | markConnected id now =>
    dsimp only [System.step, sampleOf, markConnected]
    by_cases same : id = nodeID
    · rw [if_pos same, same, AList.lookup_erase]; rfl
    · rw [if_neg same, AList.lookup_erase_ne fun other => same other.symm, known]; rfl
  | markDisconnected id => exact known
  | take =>
    dsimp only [System.step, takePending]
    by_cases idle : s.service.pending.keys = []
    · rw [if_pos idle]; exact known
    · rw [if_neg idle]; exact known
  | commit order i | abort order i =>
    dsimp only [System.step]
    cases s.flights[i]? <;> exact known
  | rollup now => exact known

namespace Account

variable {nodeID : String} (a : Account nodeID)

theorem charged_eq (known : s.service.last.lookup nodeID = prev.map nodeCounters) (step : Step) :
    a.charged s step = (sampleOf nodeID step).elim 0 fun next =>
      prev.elim 0 fun p => next.elim 0 fun st => a.charge (nodeCounters p) (nodeCounters st) := by
  cases step with
  | ingest order id st now =>
    rw [charged, sampleOf]
    split
    · rw [known]
      cases prev <;> rfl
    · rfl
  | markConnected id now =>
    rw [sampleOf]
    split
    · cases prev <;> rfl
    · rfl
  | markDisconnected | take | commit | abort | rollup => rfl

/-- **A whole run.** The balance grows by the charges of consecutive samples, the first compared
with the last one known at the start. -/
theorem balance_after
    (known : s.service.last.lookup nodeID = prev.map nodeCounters) (run : List Step) :
    a.balance (Runs.after System.step s run) = a.balance s +
      ((consecutive (prev :: samples nodeID run)).map fun pair =>
        a.charge (nodeCounters pair.1) (nodeCounters pair.2)).sum := by
  induction run generalizing s prev with
  | nil => exact (add_zero _).symm
  | cons step run ih =>
    have next := last_step known step
    rw [Runs.after, List.foldl_cons, ← Runs.after, ih next, a.balance_step, a.charged_eq known,
      add_assoc]
    congr 1
    cases sample : sampleOf nodeID step with
    | none => rw [samples, samples, List.filterMap_cons_none sample]; exact zero_add _
    | some y =>
      rw [samples, samples, List.filterMap_cons_some sample,
        sum_consecutive fun p c => a.charge (nodeCounters p) (nodeCounters c)]
      rfl

theorem balance_start (tables : TrafficTables) (run : List Step) :
    a.balance (Runs.after System.step (.start tables) run) = a.written tables +
      counted nodeID (fun prev cur => a.charge (nodeCounters prev) (nodeCounters cur)) run := by
  have fresh : (System.start tables).service.last.lookup nodeID =
      (none : Option Wire.Stats).map nodeCounters := rfl
  have start : a.balance (.start tables) = a.written tables :=
    (add_zero _).trans (add_zero _)
  rw [a.balance_after fresh run, start, counted]
  cases samples nodeID run with
  | nil => rfl
  | cons y rest => rfl

end Account

/-! ## Addresses -/

/-- The entry of a sample for an address with this text: the last valid one, and zero if there is
none. -/
def reading (ip : String) (st : Wire.Stats) : RxTx :=
  (st.ips.reverse.find? fun e => e.ip ≠ .zero ∧ String.ofList e.ip.unmap.string = ip).elim 0
    fun e => (e.rxBytes, e.txBytes)

theorem getD_nodeCounters (ip : String) (st : Wire.Stats) :
    (nodeCounters st).ips.getD ip 0 = reading ip st := by
  rw [reading, nodeCounters, GoMap.getD, Runs.foldl_last (AList.lookup ip)
    (fun e => e.ip ≠ .zero ∧ String.ofList e.ip.unmap.string = ip) fun e => (e.rxBytes, e.txBytes)]
  · rw [AList.lookup_empty, Option.or_none]
    cases st.ips.reverse.find? _ <;> rfl
  · intro m e
    by_cases valid : e.ip ≠ .zero
    · rw [if_pos valid, GoMap.lookup_insert]
      exact if_congr ⟨fun own => ⟨valid, own.symm⟩, fun both => both.2.symm⟩ rfl rfl
    · rw [if_neg valid, if_neg fun both => valid both.1]

/-! ## Minute buckets -/

/-- The bytes of a delta are those of its minute buckets. -/
def Balanced (d : TrafficDelta) : Prop :=
  (d.rx, d.tx) = Ledger.total (fun _ => true) d.minutes

theorem balanced_noTraffic : Balanced noTraffic :=
  rfl

theorem Balanced.count (balanced : Balanced d) (order : RangeOrder TrafficSite) (nodeID : String)
    (prev cur : NodeCounters) (now : Nat) : Balanced (count order nodeID d prev cur now) := by
  rw [Balanced, Stats.count]
  rw [Ledger.total_addAt, if_pos rfl, ← balanced]
  rfl

theorem Balanced.merge {cur : TrafficDelta} (balanced : Balanced cur) (other : Balanced d)
    (order : RangeOrder TrafficSite) (nodeID : String) : Balanced (merge order nodeID cur d) := by
  rw [Balanced, Stats.merge]
  rw [Ledger.total_merge (order.perm (.minutes nodeID) d.minutes.entries), ← balanced, ← other]
  rfl

/-- All deltas of a batch are balanced. -/
def AllBalanced (batch : TrafficBatch) : Prop :=
  ∀ id d, batch.lookup id = some d → Balanced d

theorem allBalanced_empty : AllBalanced ∅ := by
  intro id d found
  rw [AList.lookup_empty] at found
  cases found

theorem AllBalanced.insert (all : AllBalanced batch) (id : String) (balanced : Balanced d) :
    AllBalanced (batch.insert id d) := by
  intro id' d' found
  rw [GoMap.lookup_insert] at found
  split at found
  · rwa [← Option.some.inj found]
  · exact all id' d' found

theorem AllBalanced.putBack {s : StatsService} (all : AllBalanced s.pending)
    (returned : AllBalanced batch) (order : RangeOrder TrafficSite) :
    AllBalanced (putBack order s batch).pending := by
  apply List.foldlRecOn (motive := AllBalanced) _ (putDelta order) all
  rintro pending sofar ⟨id, d⟩ visited
  have member := (order.perm .nodes batch.entries).mem_iff.mp visited
  have balanced := returned id d (AList.mem_lookup_iff.mpr member)
  apply sofar.insert
  cases found : pending.lookup id with
  | none => exact balanced
  | some cur => exact (sofar id cur found).merge balanced order id

/-- Pending deltas and deltas on their way are balanced. -/
def System.Balanced (s : System) : Prop :=
  AllBalanced s.service.pending ∧ ∀ batch ∈ s.flights, AllBalanced batch

theorem System.Balanced.step (balanced : s.Balanced) (step : Step) : (s.step step).Balanced := by
  obtain ⟨pending, flights⟩ := balanced
  cases step with
  | ingest order id st now =>
    refine ⟨?_, flights⟩
    dsimp only [System.step]
    rw [ingest]
    cases s.service.last.lookup id with
    | none => exact pending
    | some prev =>
      apply pending.insert
      cases found : s.service.pending.lookup id with
      | none => exact balanced_noTraffic.count order id prev _ now
      | some d => exact (pending id d found).count order id prev _ now
  | markConnected | markDisconnected | rollup => exact ⟨pending, flights⟩
  | take =>
    rw [System.step, takePending]
    by_cases idle : s.service.pending.keys = []
    · rw [if_pos idle]
      exact ⟨pending, flights⟩
    · rw [if_neg idle]
      refine ⟨allBalanced_empty, fun batch member => ?_⟩
      rcases List.mem_append.mp member with old | new
      · exact flights batch old
      · rwa [List.mem_singleton.mp new]
  | commit order i =>
    rw [System.step]
    cases s.flights[i]? with
    | none => exact ⟨pending, flights⟩
    | some batch =>
      exact ⟨pending, fun batch member => flights batch (List.mem_of_mem_eraseIdx member)⟩
  | abort order i =>
    rw [System.step]
    cases found : s.flights[i]? with
    | none => exact ⟨pending, flights⟩
    | some batch =>
      exact ⟨pending.putBack (flights batch (List.mem_of_getElem? found)) order,
        fun batch member => flights batch (List.mem_of_mem_eraseIdx member)⟩

/-! ## Conservation -/

/-- **Traffic is conserved.** After any run of a new service, what is written, on its way and
pending for a node adds up to what the store held at the start and the deltas of all consecutive
samples of the node with no reconnect between them. The same holds for each of its addresses, and
pending bytes are the sums of the pending minute buckets. -/
theorem traffic_conserved (tables : TrafficTables) (run : List Step) (nodeID : String) :
    let s := Runs.after System.step (.start tables) run
    (s.tables.totals.getD nodeID 0 + (s.flights.map fun batch =>
        batch.at nodeID fun d => (d.rx, d.tx)).sum +
      s.service.pending.at nodeID (fun d => (d.rx, d.tx)) =
        tables.totals.getD nodeID 0 + counted nodeID (fun prev cur =>
          (counterDelta prev.rxBytes cur.rxBytes, counterDelta prev.txBytes cur.txBytes)) run) ∧
    (∀ ip, s.tables.peerIP.getD (nodeID, ip) 0 + (s.flights.map fun batch =>
        batch.at nodeID fun d => d.ips.getD ip 0).sum +
      s.service.pending.at nodeID (fun d => d.ips.getD ip 0) =
        tables.peerIP.getD (nodeID, ip) 0 + counted nodeID (fun prev cur =>
          counterDeltas (reading ip prev) (reading ip cur)) run) ∧
    ∀ d, s.service.pending.lookup nodeID = some d →
      (d.rx, d.tx) = Ledger.total (fun _ => true) d.minutes := by
  refine ⟨(totalAccount nodeID).balance_start tables run, fun ip => ?_, fun d found => ?_⟩
  · have address := (addressAccount nodeID ip).balance_start tables run
    have charges : ∀ prev cur, (addressAccount nodeID ip).charge (nodeCounters prev)
        (nodeCounters cur) = counterDeltas (reading ip prev) (reading ip cur) := by
      intro prev cur
      rw [← getD_nodeCounters, ← getD_nodeCounters]
      rfl
    simp only [charges] at address
    exact address
  · have balanced : (Runs.after System.step (.start tables) run).Balanced :=
      Runs.always System.Balanced (fun s step held => held.step step)
        ⟨allBalanced_empty, fun _ member => (List.not_mem_nil member).elim⟩ run
    exact balanced.1 nodeID d found

end Stats
