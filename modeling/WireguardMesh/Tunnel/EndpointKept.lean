import WireguardMesh.Conn.TcpBind
import WireguardMesh.Device.Configured
import WireguardMesh.Tunnel.HotApply

/-! # Endpoints that are lost

A device over a TCP bind. `SendBuffers` sends to the endpoint that a peer has, and clears the
endpoint when the bind answers that it waits for the peer to connect. The bind answers so when
outbound dialing is off, when it is closed, and when any peer has connected from the address
before. So an endpoint from the configuration is cleared as well, and `ApplyDesiredConfig` does not
set it again while the Master does not change it (`natNeighbour_lost`).

An endpoint stays if the bind may dial whenever a `Send` on it comes to dial, and if the
configuration does not change while a `Send` brings that answer back (`endpoint_kept`).
-/

namespace Tunnel

open Conn Core Net Wireguard

/-- A device, its bind, and the calls of `SendBuffers` with the key and object of their peer, by
the number of their `Send`. The peers whose last endpoint was configured are recorded. -/
structure Iface (K : Type) where
  bind : TcpBind
  dev : Device K
  sends : Nat → Option (K × PeerRef)
  configured : K → Bool

/-- An interface before its first configuration. -/
def newIface {K : Type} (dev : Device K) : Iface K :=
  ⟨newTCPBind, dev, fun _ => none, fun _ => false⟩

/-- A step of the device or of the bind. -/
inductive Op (K : Type)
  | bind (a : Conn.Action)
  /-- `SendBuffers` up to its `Send`. -/
  | sendBuffers (key : K) (bufs : List (List UInt8))
  /-- `SendBuffers` after its `Send`. -/
  | finish (i : Nat)
  /-- `SetEndpointFromPacket` -/
  | packet (key : K) (source : Addr × Nat)
  | ipcSet (listen : UInt16 → Option UInt16) (lines : List (Line K))
  | apply (around : Surroundings K) (d : DesiredConfig) (prev : Option DesiredConfig)

variable {K : Type} [DecidableEq K]

/-- `clearEndpoint` of a peer object, which has its key as long as it is in the device. -/
def clearEndpoint (dev : Device K) (key : K) (ref : PeerRef) : Device K :=
  { dev with
    peers := dev.peers.modify key fun p => if p.ref = ref then { p with endpoint := none } else p }

def setEndpointFromPacket (dev : Device K) (key : K) (source : Addr × Nat) : Device K :=
  { dev with
    peers := dev.peers.modify key fun p =>
      if p.disableRoaming then p else { p with endpoint := some source } }

namespace Iface

/-- `Send` to the endpoint of a peer. -/
def send (s : Iface K) (key : K) (peer : Peer) (bufs : List (List UInt8)) : Iface K :=
  match peer.endpoint with
  -- `no known endpoint for peer`
  | none => s
  | some (addr, port) =>
    if valid : addr ≠ .zero then
      { s with
        bind := s.bind.step (.send ⟨addr, port, valid⟩ bufs)
        sends := Function.update s.sends s.bind.started (some (key, peer.ref)) }
    else s

/-- What `SendBuffers` does with the answer of `Send`. -/
def answer (s : Iface K) (i : Nat) (send : K × PeerRef) : Stage → Iface K
  | .returned failed =>
    { s with
      sends := Function.update s.sends i none
      dev := if failed = some .waitingInbound then clearEndpoint s.dev send.1 send.2 else s.dev }
  | .lookingUp | .choosing | .waiting _ | .locked _ | .checking _ | .starting _ | .dialing _ _
  | .installing _ | .sending _ | .dropping _ => s

variable (decode : String → Option K) (ops : KeyOps K)

/-- The configured endpoints after `ApplyDesiredConfig`. -/
def noteApply (s : Iface K) (around : Surroundings K) (d : DesiredConfig)
    (prev : Option DesiredConfig) : K → Bool :=
  match desiredLines decode around.order s.dev d prev with
  | .error _ => s.configured
  | .ok lines => noteSet ops around.listen s.dev lines s.configured

def step (s : Iface K) : Op K → Iface K
  | .bind a => { s with bind := s.bind.step a }
  | .sendBuffers key bufs => (s.dev.peers.lookup key).elim s fun peer => s.send key peer bufs
  | .finish i =>
    (s.sends i).elim s fun send => (s.bind.calls i).elim s fun call => s.answer i send call.stage
  | .packet key source =>
    { s with
      dev := setEndpointFromPacket s.dev key source
      configured :=
        if (s.dev.peers.lookup key).any fun p => !p.disableRoaming then
          Function.update s.configured key false
        else s.configured }
  | .ipcSet listen lines =>
    { s with
      dev := (ipcSetOperation ops listen s.dev lines).1.1
      configured := noteSet ops listen s.dev lines s.configured }
  | .apply around d prev =>
    { s with
      dev := (applyDesiredConfig decode ops around s.dev d prev).1
      configured := s.noteApply decode ops around d prev }

/-- A peer object has no configured endpoint, or has left the device. -/
def Spared (s : Iface K) (send : K × PeerRef) : Prop :=
  ∀ peer ∈ s.dev.peers.lookup send.1, peer.ref = send.2 → s.configured send.1 = false

/-- No `Send` on its way back has been told to wait. -/
def NoneWaits (s : Iface K) : Prop :=
  ∀ i < s.bind.started, ∀ call ∈ s.bind.calls i,
    call.stage = .returned (some .waitingInbound) → s.sends i = none

/-- **When endpoints are safe.** A `Send` for a peer with a configured endpoint that comes to dial
may dial, and the configuration changes when no `Send` on its way back was told to wait. -/
def Safe (s : Iface K) : Op K → Prop
  | .bind (.run i _) => ∀ call ∈ s.bind.calls i, ∀ send ∈ s.sends i, call.stage.checks = true →
      s.bind.mustWaitInbound call.dst = false ∨ s.Spared send
  | .ipcSet _ _ | .apply _ _ _ => s.NoneWaits
  | .bind (.openBind _) | .bind (.reload _) | .bind .closeBind | .bind .cancel | .bind .closeEnd
  | .bind (.accept _ _) | .bind (.kill _) | .bind (.remove _) | .bind (.send _ _)
  | .sendBuffers _ _ | .finish _ | .packet _ _ => True

instance (s : Iface K) (send : K × PeerRef) : Decidable (s.Spared send) :=
  inferInstanceAs (Decidable (∀ peer ∈ s.dev.peers.lookup send.1, _ → _))

instance (s : Iface K) : Decidable s.NoneWaits :=
  inferInstanceAs (Decidable (∀ i < s.bind.started, ∀ call ∈ s.bind.calls i, _ → _))

instance (s : Iface K) (op : Op K) : Decidable (s.Safe op) :=
  match op with
  | .bind (.run i _) =>
    inferInstanceAs (Decidable (∀ call ∈ s.bind.calls i, ∀ send ∈ s.sends i, _ → _ ∨ _))
  | .ipcSet _ _ | .apply _ _ _ => inferInstanceAs (Decidable s.NoneWaits)
  | .bind (.openBind _) | .bind (.reload _) | .bind .closeBind | .bind .cancel | .bind .closeEnd
  | .bind (.accept _ _) | .bind (.kill _) | .bind (.remove _) | .bind (.send _ _)
  | .sendBuffers _ _ | .finish _ | .packet _ _ => isTrue trivial

/-- **What safe steps keep.** The configured endpoints are there, and no peer with one is about to
lose it. -/
structure Guarded (s : Iface K) : Prop where
  tidy : s.bind.Tidy
  kept : Kept s.dev s.configured
  waiting : ∀ i, ∀ call ∈ s.bind.calls i, call.stage = .returned (some .waitingInbound) →
    ∀ send ∈ s.sends i, s.Spared send

variable {s : Iface K}

theorem kept_apply (kept : Kept s.dev s.configured) (around : Surroundings K)
    (d : DesiredConfig) (prev : Option DesiredConfig) :
    Kept (applyDesiredConfig decode ops around s.dev d prev).1
      (s.noteApply decode ops around d prev) := by
  rw [applyDesiredConfig, noteApply]
  cases desiredLines decode around.order s.dev d prev with
  | error => exact kept
  | ok lines =>
    have set := kept_ipcSetOperation ops around.listen lines kept
    dsimp only
    split
    · next outcome =>
      rw [outcome] at set
      exact set
    · next outcome =>
      rw [outcome] at set
      exact set

theorem kept_clearEndpoint (kept : Kept s.dev s.configured) {send : K × PeerRef}
    (spared : s.Spared send) : Kept (clearEndpoint s.dev send.1 send.2) s.configured := by
  intro k peer found isConfigured
  change peer ∈ (s.dev.peers.modify send.1 _).lookup k at found
  rw [GoMap.lookup_modify] at found
  split at found
  · next same =>
    obtain ⟨before, there, rfl⟩ := Option.map_eq_some_iff.mp found
    subst same
    split
    · next own =>
      rw [spared before there own] at isConfigured
      cases isConfigured
    · exact kept _ before there isConfigured
  · exact kept k peer found isConfigured

theorem kept_packet (kept : Kept s.dev s.configured) (key : K) (source : Addr × Nat) :
    Kept (s.step decode ops (.packet key source)).dev
      (s.step decode ops (.packet key source)).configured := by
  have before : Kept s.dev (s.step decode ops (.packet key source)).configured := by
    rw [step]
    split
    · exact kept.forget key
    · exact kept
  intro k peer found isConfigured
  change peer ∈ (s.dev.peers.modify key _).lookup k at found
  rw [GoMap.lookup_modify] at found
  split at found
  · obtain ⟨old, there, rfl⟩ := Option.map_eq_some_iff.mp found
    split
    · exact before k old there isConfigured
    · exact Option.some_ne_none _
  · exact before k peer found isConfigured

/-- The peer objects stay where they are, and no endpoint becomes a configured one. -/
theorem Spared.mono {s' : Iface K} {send : K × PeerRef} (spared : s.Spared send)
    (peers : ∀ now ∈ s'.dev.peers.lookup send.1, ∃ peer ∈ s.dev.peers.lookup send.1,
      peer.ref = now.ref)
    (configured : s.configured send.1 = false → s'.configured send.1 = false) : s'.Spared send := by
  intro now found same
  obtain ⟨peer, before, ref⟩ := peers now found
  exact configured (spared peer before (ref.trans same))

theorem exists_peer_of_modify {key k : K} {f : Peer → Peer} (same : ∀ p, (f p).ref = p.ref)
    {now : Peer} (found : now ∈ (s.dev.peers.modify key f).lookup k) :
    ∃ peer ∈ s.dev.peers.lookup k, peer.ref = now.ref := by
  rw [GoMap.lookup_modify] at found
  split at found
  · obtain ⟨peer, before, rfl⟩ := Option.map_eq_some_iff.mp found
    exact ⟨peer, before, (same peer).symm⟩
  · exact ⟨now, found, rfl⟩

namespace Guarded

section

variable (guarded : s.Guarded)

include guarded

theorem bind {a : Conn.Action} (safe : s.Safe (.bind a)) :
    (s.step decode ops (.bind a)).Guarded where
  tidy := guarded.tidy.step a
  kept := guarded.kept
  waiting i now there waits send sent := by
    obtain ⟨call, before, waited⟩ | ⟨⟨ok, rfl⟩, call, before, checks, must⟩ :=
      TcpBind.waiting_step there waits
    · exact guarded.waiting i call before waited send sent
    · obtain may | spared := safe call before send sent checks
      · cases must.symm.trans may
      · exact spared

theorem send (key : K) (peer : Peer) (bufs : List (List UInt8)) :
    (s.send key peer bufs).Guarded := by
  rw [Iface.send]
  split
  · exact guarded
  · split
    · next addr port _ valid =>
      refine ⟨guarded.tidy.step _, guarded.kept, fun i now there waits send sent => ?_⟩
      change now ∈ (s.bind.step (.send ⟨addr, port, valid⟩ bufs)).calls i at there
      obtain ⟨call, before, waited⟩ | ⟨⟨ok, impossible⟩, -⟩ :=
        TcpBind.waiting_step there waits
      · obtain ⟨rfl, -⟩ | ⟨-, sent⟩ := Runs.mem_update sent
        · exact absurd (guarded.tidy.old before) (lt_irrefl _)
        · exact guarded.waiting i call before waited send sent
      · cases impossible
    · exact guarded

theorem answer {i : Nat} {send : K × PeerRef} {call : Call}
    (sent : send ∈ s.sends i) (found : call ∈ s.bind.calls i) :
    (s.answer i send call.stage).Guarded := by
  cases stage : call.stage with
  | returned failed =>
    refine ⟨guarded.tidy, ?_, fun j other there waits send' sent' => ?_⟩
    · change Kept (if failed = some .waitingInbound then _ else _) _
      split
      · next waits =>
        rw [waits] at stage
        exact kept_clearEndpoint guarded.kept (guarded.waiting i call found stage send sent)
      · exact guarded.kept
    · obtain ⟨-, absent⟩ | ⟨-, before⟩ := Runs.mem_update sent'
      · cases absent
      · refine (guarded.waiting j other there waits send' before).mono ?_ id
        intro now member
        change now ∈ AList.lookup send'.1
          (if failed = some .waitingInbound then _ else s.dev).peers at member
        split at member
        · refine exists_peer_of_modify (fun p => ?_) member
          split <;> rfl
        · exact ⟨now, member, rfl⟩
  | _ => exact guarded

theorem packet (key : K) (source : Addr × Nat) :
    (s.step decode ops (.packet key source)).Guarded := by
  refine ⟨guarded.tidy, kept_packet decode ops guarded.kept key source,
    fun i call found waits send sent => ?_⟩
  refine (guarded.waiting i call found waits send sent).mono (fun now member => ?_) fun spared => ?_
  · refine exists_peer_of_modify (fun p => ?_) member
    split <;> rfl
  · rw [Iface.step]
    dsimp only
    split
    · by_cases same : send.1 = key
      · rw [same, Function.update_self]
      · rw [Function.update_of_ne same]
        exact spared
    · exact spared

theorem configure (nobody : s.NoneWaits) {dev : Device K}
    {configured : K → Bool} (kept : Kept dev configured) :
    Guarded { s with dev := dev, configured := configured } where
  tidy := guarded.tidy
  kept := kept
  waiting i call found waits send sent := by
    rw [nobody i (guarded.tidy.old found) call found waits] at sent
    cases sent

/-- **One step.** -/
theorem step (op : Op K) (safe : s.Safe op) : (s.step decode ops op).Guarded := by
  cases op with
  | bind a => exact guarded.bind decode ops safe
  | sendBuffers key bufs =>
    rw [Iface.step]
    cases s.dev.peers.lookup key with
    | none => exact guarded
    | some peer => exact guarded.send key peer bufs
  | finish i =>
    rw [Iface.step]
    cases sent : s.sends i with
    | none => exact guarded
    | some send =>
      cases found : s.bind.calls i with
      | none => exact guarded
      | some call => exact guarded.answer sent found
  | packet key source => exact guarded.packet decode ops key source
  | ipcSet listen lines =>
    exact guarded.configure safe (kept_ipcSetOperation ops listen lines guarded.kept)
  | apply around d prev =>
    exact guarded.configure safe (kept_apply decode ops guarded.kept around d prev)

end

end Guarded

theorem newIface_guarded (dev : Device K) : (newIface dev).Guarded where
  tidy _ _ := rfl
  kept _ _ _ isConfigured := nomatch isConfigured
  waiting _ _ found := nomatch found

end Iface

open Iface

/-- **Configured endpoints.** In every run with safe steps, a peer whose last endpoint was
configured has one. -/
theorem endpoint_kept (decode : String → Option K) (ops : KeyOps K) (dev : Device K)
    {run : List (Op K)} (safe : Runs.Along (Iface.step decode ops) Safe (newIface dev) run) :
    Kept (Runs.after (Iface.step decode ops) (newIface dev) run).dev
      (Runs.after (Iface.step decode ops) (newIface dev) run).configured := by
  have guarded : (Runs.after (Iface.step decode ops) (newIface dev) run).Guarded :=
    Runs.invariant Guarded (fun _ op guarded safe => guarded.step decode ops op safe)
      (newIface_guarded dev) safe
  exact guarded.kept

/-- The steps of a call, with a network that works. -/
def callSteps (i steps : Nat) : List (Op Nat) :=
  List.replicate steps (.bind (.run i true))

/-- A config that arrives when the system answers every request. -/
def configArrives (d : DesiredConfig) (prev : Option DesiredConfig) : Op Nat :=
  .apply ⟨.stored _, some, true⟩ d prev

/-- A packet for the first peer, which is dialed; the config arrives again afterwards. -/
def plainRun : List (Op Nat) :=
  configArrives twoPeers none :: .bind (.openBind true) :: .sendBuffers 2 [[1, 0, 0, 0]] ::
    callSteps 0 10 ++ [.finish 0, configArrives twoPeers (some twoPeers)]

/-- What is left of the interface after a run. -/
def outcome (run : List (Op Nat)) : Iface Nat :=
  Runs.after (Iface.step digitKey digitOps) (newIface blankDevice) run

theorem plainRun_kept :
    Runs.Along (Iface.step digitKey digitOps) Safe (newIface blankDevice) plainRun ∧
      (outcome plainRun).configured 2 = true ∧
      Kept (outcome plainRun).dev (outcome plainRun).configured := by
  have safe : Runs.Along (Iface.step digitKey digitOps) Safe (newIface blankDevice) plainRun := by
    decide +kernel
  exact ⟨safe, by decide +kernel, endpoint_kept digitKey digitOps blankDevice safe⟩

/-- Another node behind the address of the first peer. -/
def natNeighbour : AddrPort :=
  ⟨.v4 (Addr.ofOctets 192 0 2 2), 40000, nofun⟩

/-- The neighbour connects and goes; then there is a packet for the first peer, and the same config
arrives once more. -/
def neighbourRun : List (Op Nat) :=
  configArrives twoPeers none :: .bind (.openBind true) ::
    .bind (.accept natNeighbour false) :: .bind (.kill 0) :: .bind (.remove 0) ::
    .sendBuffers 2 [[1, 0, 0, 0]] :: callSteps 0 5 ++
    [.finish 0, configArrives twoPeers (some twoPeers)]

/-- The configured endpoint of the first peer is lost. -/
theorem natNeighbour_lost : (outcome neighbourRun).configured 2 = true ∧
      ((outcome neighbourRun).dev.peers.lookup 2).map Peer.endpoint = some none ∧
      ¬ Kept (outcome neighbourRun).dev (outcome neighbourRun).configured := by
  have isConfigured : (outcome neighbourRun).configured 2 = true := by
    decide +kernel
  have lost : ((outcome neighbourRun).dev.peers.lookup 2).map Peer.endpoint = some none := by
    decide +kernel
  refine ⟨isConfigured, lost, fun kept => ?_⟩
  obtain ⟨peer, found, none⟩ := Option.map_eq_some_iff.mp lost
  exact kept 2 peer found isConfigured none

end Tunnel
