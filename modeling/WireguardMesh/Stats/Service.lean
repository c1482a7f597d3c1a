import WireguardMesh.Foundation.Runs
import WireguardMesh.Store.Traffic
import WireguardMesh.Wire.Messages

/-! # The stats service

`StatsService` turns the cumulative counters that agents report into deltas. `Ingest` compares a
sample with the last one of the node and adds the differences to the node's pending delta;
`MarkConnected` drops the last sample. `FlushNow` takes all pending deltas and writes them to the
store, outside the lock of the service; if that fails they are merged back. Any number of batches
may be on their way at once. Rates, round trip times and the live view are left out.
-/

namespace Stats

open Store

/-- `counterDelta`: a counter that went backwards has been restarted. -/
def counterDelta (prev cur : UInt64) : UInt64 :=
  if cur ≥ prev then cur - prev else cur

/-- `counterDelta` of received and sent bytes. -/
def counterDeltas (prev cur : RxTx) : RxTx :=
  (counterDelta prev.1 cur.1, counterDelta prev.2 cur.2)

structure NodeCounters where
  rx : UInt64
  tx : UInt64
  ips : GoMap String RxTx

/-- The counters of a sample: the entries with a valid address, by its text. -/
def nodeCounters (st : Wire.Stats) : NodeCounters where
  rx := st.rxBytes
  tx := st.txBytes
  ips := st.ips.foldl (fun ips ip =>
    if ip.ip ≠ .zero then ips.insert (String.ofList ip.ip.unmap.string) (ip.rxBytes, ip.txBytes)
    else ips) ∅

/-- The delta of a node for which nothing is pending. -/
def noTraffic : TrafficDelta where
  rx := 0
  tx := 0
  minutes := ∅
  ips := ∅

/-- The entry of an address of a sample, added to the pending bytes of the address. -/
def countIP (prev : NodeCounters) (ips : GoMap String RxTx) (entry : Sigma fun _ : String => RxTx) :
    GoMap String RxTx :=
  let delta := counterDeltas (prev.ips.getD entry.1 0) entry.2
  if delta.1 = 0 ∧ delta.2 = 0 then ips else Ledger.addAt ips entry.1 delta

/-- What `Ingest` adds to the pending delta of a node. -/
def count (order : RangeOrder TrafficSite) (nodeID : String) (d : TrafficDelta)
    (prev cur : NodeCounters) (now : Nat) : TrafficDelta :=
  let drx := counterDelta prev.rx cur.rx
  let dtx := counterDelta prev.tx cur.tx
  { rx := d.rx + drx
    tx := d.tx + dtx
    minutes := Ledger.addAt d.minutes (now / 60 * 60) (drx, dtx)
    ips := (order.range (.ips nodeID) cur.ips.entries).foldl (countIP prev) d.ips }

structure StatsService where
  last : GoMap String NodeCounters
  pending : TrafficBatch
  connected : GoMap String Nat

def newStatsService : StatsService where
  last := ∅
  pending := ∅
  connected := ∅

def ingest (order : RangeOrder TrafficSite) (s : StatsService) (nodeID : String) (st : Wire.Stats)
    (now : Nat) : StatsService :=
  let cur := nodeCounters st
  match s.last.lookup nodeID with
  -- The first sample after a connect is the baseline.
  | none => { s with last := s.last.insert nodeID cur }
  | some prev =>
    let d := (s.pending.lookup nodeID).getD noTraffic
    { s with
      pending := s.pending.insert nodeID (count order nodeID d prev cur now)
      last := s.last.insert nodeID cur }

def markConnected (s : StatsService) (nodeID : String) (now : Nat) : StatsService :=
  { s with last := s.last.erase nodeID, connected := s.connected.insert nodeID now }

def markDisconnected (s : StatsService) (nodeID : String) : StatsService :=
  { s with connected := s.connected.erase nodeID }

def takePending (s : StatsService) : Option TrafficBatch × StatsService :=
  if s.pending.keys = [] then (none, s) else (some s.pending, { s with pending := ∅ })

/-- A failed delta, added to what has become pending since. -/
def merge (order : RangeOrder TrafficSite) (nodeID : String) (cur d : TrafficDelta) :
    TrafficDelta where
  rx := cur.rx + d.rx
  tx := cur.tx + d.tx
  minutes := Ledger.addAll Sigma.fst Sigma.snd cur.minutes
    (order.range (.minutes nodeID) d.minutes.entries)
  ips := Ledger.addAll Sigma.fst Sigma.snd cur.ips (order.range (.ips nodeID) d.ips.entries)

/-- One delta of a failed batch. -/
def putDelta (order : RangeOrder TrafficSite) (pending : TrafficBatch)
    (entry : Sigma fun _ : String => TrafficDelta) : TrafficBatch :=
  pending.insert entry.1 <| match pending.lookup entry.1 with
    | none => entry.2
    | some cur => merge order entry.1 cur entry.2

/-- The end of `FlushNow` after an error. -/
def putBack (order : RangeOrder TrafficSite) (s : StatsService) (batch : TrafficBatch) :
    StatsService :=
  { s with pending := (order.range .nodes batch.entries).foldl (putDelta order) s.pending }

/-! ## The service and its store -/

/-- The service, the tables of its store and the batches that are being written. -/
structure System where
  service : StatsService
  tables : TrafficTables
  flights : List TrafficBatch

/-- A new service on a store. -/
def System.start (tables : TrafficTables) : System :=
  ⟨newStatsService, tables, []⟩

/-- A `FlushNow` takes the pending deltas and later either commits them or puts them back. -/
inductive Step
  | ingest (order : RangeOrder TrafficSite) (nodeID : String) (st : Wire.Stats) (now : Nat)
  | markConnected (nodeID : String) (now : Nat)
  | markDisconnected (nodeID : String)
  | take
  | commit (order : RangeOrder TrafficSite) (flight : Nat)
  | abort (order : RangeOrder TrafficSite) (flight : Nat)
  | rollup (now : Nat)

def System.step (s : System) : Step → System
  | .ingest order nodeID st now => { s with service := ingest order s.service nodeID st now }
  | .markConnected nodeID now => { s with service := markConnected s.service nodeID now }
  | .markDisconnected nodeID => { s with service := markDisconnected s.service nodeID }
  | .take =>
    match takePending s.service with
    | (none, _) => s
    | (some batch, service) => { s with service := service, flights := s.flights ++ [batch] }
  | .commit order flight =>
    match s.flights[flight]? with
    | none => s
    | some batch => { s with
        tables := flushTraffic order batch s.tables
        flights := s.flights.eraseIdx flight }
  | .abort order flight =>
    match s.flights[flight]? with
    | none => s
    | some batch => { s with
        service := putBack order s.service batch
        flights := s.flights.eraseIdx flight }
  | .rollup now => { s with tables := rollupAndPrune now s.tables }

end Stats
