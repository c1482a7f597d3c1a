import WireguardMesh.Tunnel.Diff

/-! # Hot apply equals a full apply

The difference that `ApplyDesiredConfig` writes is computed from a snapshot of the device, but
its sections run one after the other, and a prefix may move from a peer whose section comes
later. Nevertheless the device ends up with exactly the desired peers and prefixes, peers which
stay keep their identity, and the same config applied again writes no section
(`Tunnel.hotApply_full`). Packets then follow the longest desired prefix.
-/

namespace Tunnel

open Core GoText Net Wireguard

variable {K : Type} [DecidableEq K]

variable {e : K × DesiredPeer} {now dev' : Device K} {pairs : List (K × DesiredPeer)}
  {prevEp : GoMap String String}

/-! ## All sections -/

theorem runLines_append (ops : KeyOps K) (listen : UInt16 → Option UInt16) :
    ∀ (first second : List (Line K)) (s : SetState K), runLines ops listen (first ++ second) s =
      match runLines ops listen first s with
      | (s, none) => runLines ops listen second s
      | (s, some failed) => (s, some failed)
  | [], _, _ => rfl
  | l :: first, second, s => by
      rw [List.cons_append, runLines, runLines]
      cases handleLine ops listen s l with
      | mk s' failed =>
        cases failed with
        | none => exact runLines_append ops listen first second s'
        | some failed => rfl

section

variable (prevEp : GoMap String String) (dev start : Device K) (pairs : List (K × DesiredPeer))

/-- What the desired peers want. -/
def Wants (q : ValidPrefix) (k : K) : Prop :=
  ∃ e ∈ pairs, e.1 = k ∧ Wanted e.2 q

/-- The setup of a visited peer. -/
structure Touched (e : K × DesiredPeer) (own : Setup) : Prop where
  keepalive : (own.keepalive : Int) = e.2.keepalive
  object : ∀ before, dev.setup e.1 = some before → own.ref = before.ref
  written : EndpointWritten prevEp dev e.1 e.2 → own.endpoint = parseAddrPort e.2.endpoint.toList
  unwritten : ¬ EndpointWritten prevEp dev e.1 e.2 →
    own.endpoint = (dev.setup e.1).bind Setup.endpoint

/-- The device when some of the desired peers have had their section. -/
structure Underway (visited : List (K × DesiredPeer)) (now : Device K) : Prop where
  publicKey : now.publicKey = start.publicKey
  port : now.port = start.port
  sound : now.Sound
  size : now.peers.keys.length ≤ start.peers.keys.length + visited.length
  untouched : ∀ k, k ∉ visited.map Prod.fst → now.setup k = start.setup k
  touched : ∀ e ∈ visited, ∃ own, now.setup e.1 = some own ∧ Touched prevEp dev e own
  routes : Reconcile.Progress start.Routes (Wants pairs) (visited.map Prod.fst) now.Routes

/-- What the sections of the desired peers rely on: distinct, foreign keys, peers that fit,
prefixes wanted once, and a snapshot that is right about them. -/
structure Ready : Prop where
  sound : start.Sound
  distinct : (pairs.map Prod.fst).Nodup
  foreign : ∀ e ∈ pairs, start.publicKey ≠ e.1
  fits : ∀ e ∈ pairs, PeerFits e.2
  disjoint : Reconcile.Exclusive (Wants pairs)
  setup : ∀ e ∈ pairs, start.setup e.1 = dev.setup e.1
  routes : ∀ e ∈ pairs, ∀ q, start.Routes q e.1 ↔ dev.Routes q e.1
  room : start.peers.keys.length + pairs.length ≤ maxPeers

variable {order : RangeOrder (Site K)} {prevEp dev start pairs}

omit [DecidableEq K] in
theorem wants_iff (distinct : (pairs.map Prod.fst).Nodup)
    (member : e ∈ pairs) (q : ValidPrefix) : Wants pairs q e.1 ↔ Wanted e.2 q := by
  constructor
  · rintro ⟨e', member', same, wanted⟩
    rwa [List.inj_on_of_nodup_map distinct member' member same] at wanted
  · exact fun wanted => ⟨e, member, rfl, wanted⟩

theorem touched_changes (fits : PeerFits e.2) (snapshot : now.setup e.1 = dev.setup e.1) :
    Touched prevEp dev e (changes (body order prevEp dev e.1 e.2) (now.setupOrNew e.1)) := by
  have keepalive : (now.setupOrNew e.1).keepalive = (dev.setupOrNew e.1).keepalive := by
    rw [Device.setupOrNew, Device.setupOrNew, snapshot]
    cases dev.setup e.1 <;> rfl
  obtain ⟨ref, wanted, written, unwritten⟩ := changes_body order prevEp fits keepalive
  refine ⟨wanted, ?_, written, ?_⟩
  · intro own found
    rw [ref, Device.setupOrNew, snapshot, found]
    rfl
  · intro skipped
    rw [unwritten skipped, Device.setupOrNew, snapshot]
    cases dev.setup e.1 <;> rfl

/-- **One more section.** -/
theorem Underway.visit (ready : Ready dev start pairs)
    {visited : List (K × DesiredPeer)} {now' : Device K}
    (underway : Underway prevEp dev start pairs visited now) (member : e ∈ pairs)
    (fresh : e.1 ∉ visited.map Prod.fst)
    (step : now.Visited now' e.1 (body order prevEp dev e.1 e.2)) :
    Underway prevEp dev start pairs (visited ++ [e]) now' := by
  have fits := ready.fits e member
  have snapshot : now.setup e.1 = dev.setup e.1 :=
    (underway.untouched e.1 fresh).trans (ready.setup e member)
  constructor
  · exact step.publicKey.trans underway.publicKey
  · exact step.port.trans underway.port
  · exact step.sound
  · have bound := step.size
    have sofar := underway.size
    rw [List.length_append, List.length_singleton]
    split at bound <;> omega
  · intro k outside
    rw [List.map_append, List.mem_append, not_or] at outside
    have other : k ≠ e.1 := by simpa using outside.2
    rw [step.others k other, underway.untouched k outside.1]
  · intro e' visited'
    rcases List.mem_append.mp visited' with old | new
    · obtain ⟨own, known, touched⟩ := underway.touched e' old
      have other : e'.1 ≠ e.1 := fun same => fresh (same ▸ List.mem_map_of_mem old)
      exact ⟨own, by rw [step.others _ other, known], touched⟩
    · cases List.mem_singleton.mp new
      exact ⟨_, step.own, touched_changes fits snapshot⟩
  · rw [List.map_append, List.map_singleton]
    refine underway.routes.visit ready.sound.exclusive ready.disjoint fresh ?_
    have added : (fun q => ∃ l ∈ body order prevEp dev e.1 e.2, l.Adds q) =
        Reconcile.ToAdd start.Routes (Wants pairs) e.1 := by
      funext q
      rw [eq_iff_iff, body_adds fits, Reconcile.ToAdd, wants_iff ready.distinct member,
        ready.routes e member]
    have removed : (fun q => ∃ l ∈ body order prevEp dev e.1 e.2, l.Removes q) =
        Reconcile.ToRemove start.Routes (Wants pairs) e.1 := by
      funext q
      rw [eq_iff_iff, body_removes fits, Reconcile.ToRemove, wants_iff ready.distinct member,
        ready.routes e member]
    rw [← added, ← removed]
    exact step.routes

variable (order prevEp) in
/-- **All sections.** -/
theorem runLines_sections (ops : KeyOps K) (listen : UInt16 → Option UInt16)
    (ready : Ready dev start pairs) :
    ∀ (rest visited : List (K × DesiredPeer)), visited ++ rest = pairs → ∀ s : SetState K,
      Underway prevEp dev start pairs visited s.dev →
      ∃ s', runLines ops listen (rest.flatMap fun e =>
          peerSection order prevEp (readLivePeers order dev) e.1 e.2) s = (s', none) ∧
        Underway prevEp dev start pairs pairs s'.dev := by
  intro rest
  induction rest with
  | nil =>
    rintro visited whole s underway
    rw [List.append_nil] at whole
    exact ⟨s, rfl, whole ▸ underway⟩
  | cons e rest ih =>
    intro visited whole s underway
    have member : e ∈ pairs := whole ▸ List.mem_append_right visited (.head _)
    have fresh : e.1 ∉ visited.map Prod.fst := by
      have distinct := ready.distinct
      rw [← whole, List.map_append, List.map_cons] at distinct
      intro old
      exact (List.nodup_append.mp distinct).2.2 _ old _ List.mem_cons_self rfl
    have space : s.dev.peers.keys.length < maxPeers := by
      have size := underway.size
      have room := ready.room
      have length := congrArg List.length whole
      rw [List.length_append, List.length_cons] at length
      omega
    obtain ⟨s₁, ran, step⟩ := runLines_peerSection order prevEp dev ops listen
      underway.sound (underway.publicKey ▸ ready.foreign e member) (.inr space)
      (ready.fits e member)
      ((underway.untouched e.1 fresh).trans (ready.setup e member))
    obtain ⟨s₂, ran', done⟩ := ih (visited ++ [e]) (by simpa using whole) s₁
      (underway.visit ready member fresh step)
    refine ⟨s₂, ?_, done⟩
    rw [List.flatMap_cons, runLines_append, ran]
    exact ran'

end

/-! ## Removals -/

/-- The effect of removing several peers. -/
structure AllDropped (dev dev' : Device K) (dropped : List K) : Prop where
  port : dev'.port = dev.port
  sound : dev'.Sound
  setup : ∀ k, dev'.setup k = if k ∈ dropped then none else dev.setup k
  routes : ∀ q k, dev'.Routes q k ↔ dev.Routes q k ∧ k ∉ dropped

theorem runLines_removals (ops : KeyOps K) (listen : UInt16 → Option UInt16) (dropped : List K) :
    ∀ s : SetState K, s.dev.Sound → dropped.Nodup →
      (∀ k ∈ dropped, (s.dev.setup k).isSome = true ∨ s.dev.publicKey = k) →
      ∃ s', runLines ops listen (dropped.flatMap fun key => [.publicKey key, .remove]) s =
        (s', none) ∧ AllDropped s.dev s'.dev dropped := by
  induction dropped with
  | nil => exact fun s sound _ _ => ⟨s, rfl, rfl, sound, fun _ => rfl, fun _ _ => by simp⟩
  | cons key dropped ih =>
    intro s sound distinct named
    obtain ⟨fresh, distinct⟩ := List.nodup_cons.mp distinct
    obtain ⟨s₁, ran, first⟩ := runLines_removal ops listen sound (named key (.head _))
    obtain ⟨s₂, ran', rest⟩ := ih s₁ first.sound distinct fun k member => by
      have other : k ≠ key := fun same => fresh (same ▸ member)
      rw [first.setup, if_neg other, first.publicKey]
      exact named k (List.mem_cons_of_mem key member)
    refine ⟨s₂, ?_, rest.port.trans first.port, rest.sound, fun k => ?_, fun q k => ?_⟩
    · rw [List.flatMap_cons, runLines_append, ran]
      exact ran'
    · rw [rest.setup, first.setup]
      by_cases same : k = key <;> simp [same]
    · rw [rest.routes, first.routes, List.mem_cons, not_or, and_assoc]

/-! ## The lines for the device -/

def portAfter (listen : UInt16 → Option UInt16) (dev : Device K) (d : DesiredConfig)
    (prev : Option DesiredConfig) : UInt16 :=
  if d.interface.listenPort ≠ 0 ∧ d.interface.listenPort ≠ dev.port ∧
      prev.all (fun prev => d.interface.listenPort ≠ prev.interface.listenPort) then
    (listen d.interface.listenPort).getD 0
  else dev.port

theorem runLines_device (ops : KeyOps K) {listen : UInt16 → Option UInt16} (dev : Device K)
    (sk : K) (d : DesiredConfig) (prev : Option DesiredConfig)
    (available : (listen d.interface.listenPort).isSome = true) :
    ∃ s, runLines ops listen (.privateKey sk :: listenPortLines dev d prev) (.start dev) =
        (s, none) ∧
      s.dev = { dev.setPrivateKey ops (ops.clamp sk) with port := portAfter listen dev d prev } := by
  have port : (dev.setPrivateKey ops (ops.clamp sk)).port = dev.port := by
    rw [Device.setPrivateKey]
    split
    · rfl
    · rw [Device.removePeer]
      split <;> rfl
  obtain ⟨actual, opened⟩ := Option.isSome_iff_exists.mp available
  rw [portAfter, listenPortLines]
  split
  · next written =>
    refine ⟨{ SetState.start dev with
      dev := { dev.setPrivateKey ops (ops.clamp sk) with
        port := (listen d.interface.listenPort).getD 0 } }, ?_, rfl⟩
    have moved : bindSetListenPort listen (dev.setPrivateKey ops (ops.clamp sk))
        d.interface.listenPort = ({ dev.setPrivateKey ops (ops.clamp sk) with port := actual },
          none) := by
      rw [bindSetListenPort, if_neg (fun same => written.2.1 (same.2.trans port)), opened]
    rw [opened]
    simp only [runLines, handleLine, SetState.start, if_true, handleDeviceLine, moved]
    rfl
  · refine ⟨_, rfl, ?_⟩
    rw [← port]
    rfl

/-! ## The whole operation -/

section

variable {decode : String → Option K} {ops : KeyOps K} {keys : List K} {d : DesiredConfig}

omit [DecidableEq K] in
theorem peerKeys_zip (known : peerKeys decode d = some keys) :
    (keys.zip d.peers).map Prod.fst = keys ∧ (keys.zip d.peers).map Prod.snd = d.peers ∧
      ∀ e ∈ keys.zip d.peers, decode e.2.publicKey = some e.1 := by
  rw [peerKeys] at known
  generalize d.peers = peers at known
  induction peers generalizing keys with
  | nil =>
    cases known
    exact ⟨rfl, rfl, by simp⟩
  | cons p peers ih =>
    rw [List.mapM_cons] at known
    obtain ⟨key, decoded, known⟩ := Option.bind_eq_some_iff.mp known
    obtain ⟨rest, others, same⟩ := Option.bind_eq_some_iff.mp known
    cases same
    obtain ⟨firsts, seconds, each⟩ := ih others
    refine ⟨by rw [List.zip_cons_cons, List.map_cons, firsts],
      by rw [List.zip_cons_cons, List.map_cons, seconds], ?_⟩
    intro e member
    rw [List.zip_cons_cons, List.mem_cons] at member
    rcases member with rfl | member
    · exact decoded
    · exact each e member

variable (decode ops) in
/-- What hot apply asks of a config: it can be decoded, keys and prefixes are distinct, no peer
is the device itself, the device accepts the values and has room for the peers. -/
structure Applicable (dev : Device K) (d : DesiredConfig) (sk : K) (keys : List K) : Prop where
  privateKey : decode d.interface.privateKey = some sk
  publicKeys : peerKeys decode d = some keys
  forwards : ∀ fw ∈ d.forwards, (expandForward fw).isOk = true
  distinct : keys.Nodup
  foreign : (dev.setPrivateKey ops (ops.clamp sk)).publicKey ∉ keys
  disjoint : (d.peers.flatMap wantedPrefixes).Nodup
  fits : ∀ p ∈ d.peers, PeerFits p
  room : dev.peers.keys.length + d.peers.length ≤ maxPeers

theorem exclusive_wants (disjoint : (pairs.flatMap fun e => wantedPrefixes e.2).Nodup) :
    Reconcile.Exclusive (Wants pairs) := by
  rintro q k k' ⟨e, member, rfl, wanted⟩ ⟨e', member', rfl, wanted'⟩
  by_contra different
  have apart := (List.nodup_flatMap.mp disjoint).2
  have symmetric : Std.Symm (Function.onFun List.Disjoint fun e : K × DesiredPeer =>
      wantedPrefixes e.2) := ⟨fun _ _ apart _ left right => apart right left⟩
  exact apart.forall member member' (fun same => different (congrArg Prod.fst same)) wanted wanted'

section

variable {dev : Device K} {sk : K}

theorem Applicable.ready (applicable : Applicable decode ops dev d sk keys) (sound : dev.Sound)
    (port : UInt16) :
    Ready dev { dev.setPrivateKey ops (ops.clamp sk) with port := port } (keys.zip d.peers) := by
  obtain ⟨firsts, seconds, _⟩ := peerKeys_zip applicable.publicKeys
  have rekeyed := sound.rekeyed ops (ops.clamp sk)
  have foreign : ∀ e ∈ keys.zip d.peers,
      e.1 ≠ (dev.setPrivateKey ops (ops.clamp sk)).publicKey := by
    intro e member same
    exact applicable.foreign (same ▸ firsts ▸ List.mem_map_of_mem member)
  constructor
  · exact ⟨rekeyed.sound.distinct, rekeyed.sound.fresh, rekeyed.sound.owned, rekeyed.sound.notSelf⟩
  · rw [firsts]
    exact applicable.distinct
  · exact fun e member => (foreign e member).symm
  · exact fun e member => applicable.fits e.2 (seconds ▸ List.mem_map_of_mem member)
  · apply exclusive_wants
    rw [← List.flatMap_map Prod.snd wantedPrefixes, seconds]
    exact applicable.disjoint
  · exact fun e member => (rekeyed.setup e.1).trans (if_neg (foreign e member))
  · exact fun e member q => (rekeyed.routes q e.1).trans (and_iff_left (foreign e member))
  · have length : (keys.zip d.peers).length = d.peers.length := by
      rw [← List.length_map Prod.snd, seconds]
    have size := rekeyed.size
    have room := applicable.room
    change (dev.setPrivateKey ops (ops.clamp sk)).peers.keys.length + _ ≤ _
    omega

/-- The device after a set operation for the given peers. -/
structure Applied (prevEp : GoMap String String) (dev dev' : Device K)
    (pairs : List (K × DesiredPeer)) : Prop where
  sound : dev'.Sound
  peers : ∀ k, (dev'.setup k).isSome = true ↔ k ∈ pairs.map Prod.fst
  touched : ∀ e ∈ pairs, ∃ own, dev'.setup e.1 = some own ∧ Touched prevEp dev e own
  routes : ∀ q k, dev'.Routes q k ↔ Wants pairs q k

/-- **After the removals.** -/
theorem Underway.applied {start : Device K} {dropped : List K}
    (done : Underway prevEp dev start pairs pairs now) (removed : AllDropped now dev' dropped)
    (gone : ∀ k ∈ dropped, k ∉ pairs.map Prod.fst)
    (all : ∀ k, (start.setup k).isSome = true → k ∉ pairs.map Prod.fst → k ∈ dropped) :
    Applied prevEp dev dev' pairs := by
  have present : ∀ k, (now.setup k).isSome = true → (k ∉ dropped ↔ k ∈ pairs.map Prod.fst) := by
    intro k found
    refine ⟨fun kept => ?_, fun desired dropped => gone k dropped desired⟩
    by_contra other
    rw [done.untouched k other] at found
    exact kept (all k found other)
  have setup : ∀ e ∈ pairs, dev'.setup e.1 = now.setup e.1 := by
    intro e member
    rw [removed.setup, if_neg fun dropped => gone e.1 dropped (List.mem_map_of_mem member)]
  refine ⟨removed.sound, fun k => ⟨fun found => ?_, fun desired => ?_⟩, ?_, ?_⟩
  · rw [removed.setup] at found
    split at found
    · cases found
    · next kept => exact (present k found).mp kept
  · obtain ⟨e, member, rfl⟩ := List.mem_map.mp desired
    obtain ⟨own, found, _⟩ := done.touched e member
    rw [setup e member, found]
    rfl
  · intro e member
    rw [setup e member]
    exact done.touched e member
  · apply done.routes.finish
    · rintro q k ⟨e, member, rfl, _⟩
      exact List.mem_map_of_mem member
    · intro q k
      rw [removed.routes]
      refine and_congr_right fun routed => ?_
      obtain ⟨own, found, _⟩ := routed
      exact present k (found ▸ rfl)

theorem mem_keys_readLivePeers (order : RangeOrder (Site K)) (dev : Device K) (k : K) :
    k ∈ (readLivePeers order dev).keys ↔ (dev.setup k).isSome = true := by
  rw [← AList.mem_keys, ← AList.lookup_isSome, lookup_readLivePeers, Option.isSome_map,
    Device.setup, Option.isSome_map]

theorem Applicable.desiredLines_eq (applicable : Applicable decode ops dev d sk keys)
    (order : RangeOrder (Site K)) (dev : Device K) (prev : Option DesiredConfig) :
    desiredLines decode order dev d prev = .ok (.privateKey sk :: listenPortLines dev d prev ++
      (keys.zip d.peers).flatMap (fun e =>
        peerSection order (prevEndpoints prev) (readLivePeers order dev) e.1 e.2) ++
      removalSections order (readLivePeers order dev) keys) := by
  have expands : (d.forwards.find? fun fw => !(expandForward fw).isOk) = none := by
    simpa using applicable.forwards
  simp only [desiredLines, applicable.privateKey, applicable.publicKeys, expands]

/-- **The whole set operation.** -/
theorem Applicable.setOperation (applicable : Applicable decode ops dev d sk keys)
    (sound : dev.Sound) (order : RangeOrder (Site K)) {listen : UInt16 → Option UInt16}
    (available : (listen d.interface.listenPort).isSome = true) (prev : Option DesiredConfig) :
    ∃ lines s, desiredLines decode order dev d prev = .ok lines ∧
      runLines ops listen lines (.start dev) = (s, none) ∧
      s.dev.port = portAfter listen dev d prev ∧
      Applied (prevEndpoints prev) dev s.dev (keys.zip d.peers) := by
  obtain ⟨firsts, _, _⟩ := peerKeys_zip applicable.publicKeys
  obtain ⟨s₀, deviceLines, start⟩ := runLines_device ops dev sk d prev available
  have ready := applicable.ready sound (portAfter listen dev d prev)
  have rekeyed := sound.rekeyed ops (ops.clamp sk)
  rw [← start] at ready
  have setup : ∀ k, s₀.dev.setup k = if k = s₀.dev.publicKey then none else dev.setup k := by
    rw [start]
    exact rekeyed.setup
  obtain ⟨s₁, sections, done⟩ := runLines_sections (prevEndpoints prev) order ops listen ready
    (keys.zip d.peers) [] rfl s₀
    ⟨rfl, rfl, ready.sound, le_rfl, fun _ _ => rfl, by simp, .start _ _⟩
  have member : ∀ k, k ∈ (order.range .live (readLivePeers order dev).keys).filter (· ∉ keys) ↔
      (dev.setup k).isSome = true ∧ k ∉ keys := by
    intro k
    rw [List.mem_filter, RangeOrder.mem_range, mem_keys_readLivePeers, decide_eq_true_eq]
  obtain ⟨s₂, removals, removed⟩ := runLines_removals ops listen
    ((order.range .live (readLivePeers order dev).keys).filter (· ∉ keys)) s₁ done.sound
    ((order.perm .live _).nodup_iff.mpr (AList.keys_nodup _) |>.filter _) fun k dropped => by
      obtain ⟨found, other⟩ := (member k).mp dropped
      rw [done.untouched k (by rwa [firsts]), setup, done.publicKey]
      by_cases self : k = s₀.dev.publicKey
      · exact .inr self.symm
      · rw [if_neg self]
        exact .inl found
  refine ⟨_, s₂, applicable.desiredLines_eq order dev prev, ?_, ?_, done.applied removed ?_ ?_⟩
  · rw [runLines_append, runLines_append, deviceLines]
    dsimp only
    rw [sections]
    exact removals
  · rw [removed.port, done.port, start]
  · intro k dropped
    rw [firsts]
    exact ((member k).mp dropped).2
  · intro k found other
    rw [setup] at found
    split at found
    · cases found
    · exact (member k).mpr ⟨found, by rwa [firsts] at other⟩

/-! ## Applying again -/

omit [DecidableEq K] in
theorem peerKeys_texts (known : peerKeys decode d = some keys) (distinct : keys.Nodup) :
    (d.peers.map fun p => p.publicKey).Nodup := by
  obtain ⟨firsts, seconds, decodes⟩ := peerKeys_zip known
  have same : (d.peers.map fun p => p.publicKey).map decode = keys.map some := by
    calc (d.peers.map fun p => p.publicKey).map decode
        = ((keys.zip d.peers).map Prod.snd).map fun p => decode p.publicKey := by
          rw [seconds, List.map_map]
          rfl
      _ = ((keys.zip d.peers).map Prod.fst).map some := by
          rw [List.map_map, List.map_map]
          exact List.map_congr_left decodes
      _ = keys.map some := by rw [firsts]
  apply List.Nodup.of_map decode
  rw [same]
  exact distinct.map (Option.some_injective K)

theorem lookup_prevEndpoints (distinct : (d.peers.map fun p => p.publicKey).Nodup)
    (text endpoint : String) : (prevEndpoints (some d)).lookup text = some endpoint ↔
      ∃ p ∈ d.peers, p.publicKey = text ∧ p.endpoint = endpoint :=
  GoMap.lookup_foldl_insert_of_nodup distinct

theorem prevEndpoints_getD {p : DesiredPeer} (distinct : (d.peers.map fun p => p.publicKey).Nodup)
    (member : p ∈ d.peers) : (prevEndpoints (some d)).getD p.publicKey "" = p.endpoint := by
  rw [GoMap.getD, (lookup_prevEndpoints distinct _ _).mpr ⟨p, member, rfl, rfl⟩, Option.getD_some]

/-- **Nothing left to do.** A peer that has been applied has an empty body. -/
theorem Applied.body_eq_nil
    {prevEp' : GoMap String String} (applied : Applied prevEp dev dev' pairs)
    (distinct : (pairs.map Prod.fst).Nodup) (member : e ∈ pairs) (fits : PeerFits e.2)
    (endpoint : prevEp'.getD e.2.publicKey "" = e.2.endpoint) (order : RangeOrder (Site K)) :
    body order prevEp' dev' e.1 e.2 = [] := by
  have settled : ∀ q, dev'.Routes q e.1 ↔ Wanted e.2 q := by
    intro q
    rw [applied.routes, wants_iff distinct member]
  obtain ⟨own, found, touched⟩ := applied.touched e member
  apply List.eq_nil_iff_forall_not_mem.mpr
  intro l present
  rcases mem_body.mp present with line | line | line | line
  · rcases endpointLines_eq order prevEp' dev' e.1 e.2 with ⟨written, _⟩ | ⟨_, nothing⟩
    · exact (written.2 own found).2 endpoint
    · rw [nothing] at line
      cases line
  · obtain ⟨text, wanted, rfl, _⟩ := mem_addLines.mp line
    obtain ⟨pfx, valid, _, rfl⟩ := fits.wanted_text wanted
    obtain ⟨wanted, missing⟩ := (body_adds fits ⟨pfx, valid⟩).mp
      ⟨_, present, pfx, added_string valid, rfl⟩
    exact missing ((settled _).mpr wanted)
  · obtain ⟨peer, _, text, held, _, rfl⟩ := mem_removeLines.mp line
    obtain ⟨pfx, owned, rfl⟩ := mem_keys_allowed.mp held
    have valid := (AllowedIPs.mem_entriesForPeer.mp owned).1
    obtain ⟨routed, unwanted⟩ := (body_removes fits ⟨pfx, valid⟩).mp
      ⟨_, present, pfx, parsePrefix_string valid, rfl⟩
    exact unwanted ((settled _).mp routed)
  · obtain ⟨peer, known, rfl⟩ := Option.map_eq_some_iff.mp found
    have keepalive : (peer.keepalive : Int) = e.2.keepalive := touched.keepalive
    rw [lookup_readLivePeers, known, Option.map_some, keepaliveLines] at line
    simp [liveOf, keepalive] at line

theorem Applicable.again (applicable : Applicable decode ops dev d sk keys)
    (applied : Applied prevEp dev dev' (keys.zip d.peers)) (order : RangeOrder (Site K)) :
    desiredLines decode order dev' d (some d) =
      .ok (.privateKey sk :: listenPortLines dev' d (some d)) := by
  obtain ⟨firsts, seconds, _⟩ := peerKeys_zip applicable.publicKeys
  have sections : (keys.zip d.peers).flatMap (fun e => peerSection order (prevEndpoints (some d))
      (readLivePeers order dev') e.1 e.2) = [] := by
    refine List.flatMap_eq_nil_iff.mpr fun e member => if_pos ⟨?_, ?_⟩
    · have known := (applied.peers e.1).mpr (List.mem_map_of_mem member)
      rwa [← mem_keys_readLivePeers order, ← AList.mem_keys, ← AList.lookup_isSome] at known
    · have desired : e.2 ∈ d.peers := seconds ▸ List.mem_map_of_mem member
      exact applied.body_eq_nil (firsts.symm ▸ applicable.distinct) member
        (applicable.fits e.2 desired)
        (prevEndpoints_getD (peerKeys_texts applicable.publicKeys applicable.distinct) desired) order
  have removals : removalSections order (readLivePeers order dev') keys = [] := by
    rw [removalSections, List.filter_eq_nil_iff.mpr]
    · rfl
    · intro k live
      rw [RangeOrder.mem_range, mem_keys_readLivePeers, applied.peers, firsts] at live
      simpa using live
  rw [applicable.desiredLines_eq, sections, removals, List.append_nil, List.append_nil]

/-! ## The result -/

theorem Applied.of_alike {dev₁ dev₂ : Device K} (applied : Applied prevEp dev dev₁ pairs)
    (alike : dev₁.Alike dev₂) : Applied prevEp dev dev₂ pairs where
  sound := alike.sound applied.sound
  peers := by simpa only [alike.setup] using applied.peers
  touched := by simpa only [alike.setup] using applied.touched
  routes := by simpa only [alike.routes] using applied.routes

/-- **Hot apply succeeds**, unless the interface step fails. -/
theorem Applicable.applyDesiredConfig (applicable : Applicable decode ops dev d sk keys)
    (sound : dev.Sound) (around : Surroundings K)
    (available : (around.listen d.interface.listenPort).isSome = true)
    (prev : Option DesiredConfig) : ∃ dev', applyDesiredConfig decode ops around dev d prev =
        (dev', if sameIfaceNet prev d || around.iface then none else some .iface) ∧
      dev'.port = portAfter around.listen dev d prev ∧
      Applied (prevEndpoints prev) dev dev' (keys.zip d.peers) := by
  obtain ⟨lines, s, written, ran, port, applied⟩ :=
    applicable.setOperation sound around.order available prev
  have alike := s.alike_handlePostConfig
  refine ⟨s.handlePostConfig.dev, ?_, alike.port.trans port, applied.of_alike alike⟩
  simp only [Tunnel.applyDesiredConfig, written, ipcSetOperation, ran]

end

/-- **A full apply.** The device has exactly the desired peers, with the desired keepalives, and
its table maps exactly the desired prefixes, each to its peer. -/
structure Realizes (keys : List K) (d : DesiredConfig) (dev : Device K) : Prop where
  peers : ∀ k, k ∈ dev.peers.keys ↔ k ∈ keys
  keepalive : ∀ e ∈ keys.zip d.peers, ∃ peer, dev.peers.lookup e.1 = some peer ∧
    (peer.keepalive : Int) = e.2.keepalive
  table : ∀ (q : ValidPrefix) ref, dev.allowedips.find q = some ref ↔
    ∃ e ∈ keys.zip d.peers, ∃ peer, dev.peers.lookup e.1 = some peer ∧ peer.ref = ref ∧
      q.1.masked.string ∈ wantedPrefixes e.2

theorem Applied.realizes {dev : Device K} (applied : Applied prevEp dev dev' (keys.zip d.peers))
    (firsts : (keys.zip d.peers).map Prod.fst = keys) : Realizes keys d dev' := by
  have known : ∀ k own, dev'.setup k = some own ↔
      ∃ peer, dev'.peers.lookup k = some peer ∧ peer.setup = own :=
    fun _ _ => Option.map_eq_some_iff
  constructor
  · intro k
    rw [← AList.mem_keys, ← AList.lookup_isSome, ← firsts, ← applied.peers, Device.setup,
      Option.isSome_map]
  · intro e member
    obtain ⟨own, found, touched⟩ := applied.touched e member
    obtain ⟨peer, held, rfl⟩ := (known e.1 own).mp found
    exact ⟨peer, held, touched.keepalive⟩
  · intro q ref
    constructor
    · intro owner
      obtain ⟨k, own, found, rfl⟩ := applied.sound.owned q ref owner
      obtain ⟨e, member, rfl, wanted⟩ := (applied.routes q k).mp ⟨own, found, owner⟩
      obtain ⟨peer, held, rfl⟩ := (known e.1 own).mp found
      exact ⟨e, member, peer, held, rfl, wanted⟩
    · rintro ⟨e, member, peer, found, rfl, wanted⟩
      obtain ⟨own, found', owner⟩ := (applied.routes q e.1).mpr ⟨e, member, rfl, wanted⟩
      cases found'.symm.trans ((known e.1 _).mpr ⟨peer, found, rfl⟩)
      exact owner

/-- **Hot apply equals a full apply.** Whatever the device was like, the set operation that
`ApplyDesiredConfig` writes is accepted and leaves exactly what the config asks for; peers that
stay keep their objects; and applied again it writes no section of a peer, however maps are ranged
over. -/
theorem hotApply_full {dev : Device K} {sk : K} (sound : dev.Sound)
    (applicable : Applicable decode ops dev d sk keys) (around : Surroundings K)
    (available : (around.listen d.interface.listenPort).isSome = true)
    (prev : Option DesiredConfig) :
    ∃ dev' failed, applyDesiredConfig decode ops around dev d prev = (dev', failed) ∧
      (failed = none ∨ failed = some .iface) ∧ dev'.Sound ∧ Realizes keys d dev' ∧
      (∀ k before after, dev.peers.lookup k = some before → dev'.peers.lookup k = some after →
        after.ref = before.ref) ∧
      ∀ order : RangeOrder (Site K), ∃ lines, desiredLines decode order dev' d (some d) = .ok lines ∧
        ∀ k, .publicKey k ∉ lines := by
  obtain ⟨dev', applies, _, applied⟩ := applicable.applyDesiredConfig sound around available prev
  obtain ⟨firsts, _, _⟩ := peerKeys_zip applicable.publicKeys
  refine ⟨dev', _, applies, ?_, applied.sound, applied.realizes firsts, ?_, ?_⟩
  · split
    · exact .inl rfl
    · exact .inr rfl
  · intro k before after known known'
    have desired : k ∈ (keys.zip d.peers).map Prod.fst := by
      rw [← applied.peers, Device.setup, known']
      rfl
    obtain ⟨e, member, rfl⟩ := List.mem_map.mp desired
    obtain ⟨own, found, touched⟩ := applied.touched e member
    rw [Device.setup, known'] at found
    cases found
    exact touched.object before.setup (by rw [Device.setup, known]; rfl)
  · intro order
    refine ⟨_, applicable.again applied order, fun k => ?_⟩
    rw [listenPortLines]
    split <;> simp

/-- The device has a peer for which the config wants the prefix. -/
def DesiredOwner (keys : List K) (d : DesiredConfig) (dev : Device K) (p : Prefix)
    (ref : PeerRef) : Prop :=
  ∃ e ∈ keys.zip d.peers, ∃ peer, dev.peers.lookup e.1 = some peer ∧ peer.ref = ref ∧
    p.masked.string ∈ wantedPrefixes e.2

/-- Packets go to the peer with the longest desired prefix of their address. -/
def RoutesLongest (keys : List K) (d : DesiredConfig) (dev : Device K) : Prop :=
  ∀ ip ref, dev.allowedips.lookup ip = some ref ↔ ∃ n ≤ ip.addr.bitLen,
    DesiredOwner keys d dev (prefixFrom ip.addr n) ref ∧ ∀ m, n < m → m ≤ ip.addr.bitLen →
      ∀ ref, ¬ DesiredOwner keys d dev (prefixFrom ip.addr m) ref

/-- **From the config to the packets.** Whatever the device was like, a hot apply makes it route by
the longest desired prefix. -/
theorem apply_routesLongest {dev : Device K} {sk : K} (sound : dev.Sound)
    (applicable : Applicable decode ops dev d sk keys) (around : Surroundings K)
    (available : (around.listen d.interface.listenPort).isSome = true)
    (prev : Option DesiredConfig) :
    RoutesLongest keys d (applyDesiredConfig decode ops around dev d prev).1 := by
  obtain ⟨dev', applies, _, applied⟩ := applicable.applyDesiredConfig sound around available prev
  rw [applies]
  intro ip ref
  have table := fun n fits => (applied.realizes (peerKeys_zip applicable.publicKeys).1).table
    ⟨prefixFrom ip.addr n, (dev'.allowedips.find_prefixFrom ip fits).1⟩
  rw [AllowedIPs.lookup_eq_some]
  simp only [Option.eq_none_iff_forall_ne_some]
  exact exists_congr fun n => and_congr_right fun fits => and_congr (table n fits ref)
    (forall₃_congr fun m _ fits => forall_congr' fun ref => not_congr (table m fits ref))

end

/-! ## A config with two peers -/

def digitKey (s : String) : Option Nat :=
  match s.toList with
  | [c] => some (c.toNat - '0'.toNat)
  | _ => none

def digitOps : KeyOps Nat where
  clamp := id
  publicKey := (100 * ·)

def blankDevice : Device Nat where
  privateKey := 0
  publicKey := 0
  port := 0
  up := true
  movable := true
  brokenRoaming := false
  peers := ∅
  allowedips := .empty
  fresh := 0

/-- Two peers; a prefix of the second lies in one of the first. -/
def twoPeers : DesiredConfig where
  revision := 1
  nodeID := "n1"
  role := .client
  interfaceName := "wg0"
  pollInterval := "30s"
  interface := ⟨"1", "10.0.0.1/24", 51820, 1420⟩
  ipForward := false
  transport := ""
  udpMode := false
  peers := [⟨"2", "192.0.2.2:51820", ["10.0.0.0/24", "fd00::2"], 25⟩, ⟨"3", "", ["10.0.0.3/32"], 0⟩]
  forwards := []

theorem applicable_twoPeers : Applicable digitKey digitOps blankDevice twoPeers 1 [2, 3] where
  privateKey := by decide +kernel
  publicKeys := by decide +kernel
  forwards := by decide
  distinct := by decide
  foreign := by decide +kernel
  disjoint := by decide +kernel
  fits := by
    intro p member
    have checks : ∀ p ∈ twoPeers.peers, (∀ text ∈ allowedTexts p, IsPrefixText text) ∧
        (p.endpoint = "" ∨ (parseAddrPort p.endpoint.toList).isSome = true) ∧
        (0 ≤ p.keepalive ∧ p.keepalive < 65536) := by
      decide +kernel
    obtain ⟨prefixes, endpoint, keepalive⟩ := checks p member
    exact ⟨prefixes, endpoint, keepalive⟩
  room := by decide +kernel

theorem hotApply_twoPeers :
    ∃ dev' failed, applyDesiredConfig digitKey digitOps ⟨.stored _, some, true⟩ blankDevice twoPeers
        none = (dev', failed) ∧
      (failed = none ∨ failed = some .iface) ∧ dev'.Sound ∧ Realizes [2, 3] twoPeers dev' ∧
      (∀ k before after, blankDevice.peers.lookup k = some before →
        dev'.peers.lookup k = some after → after.ref = before.ref) ∧
      ∀ order : RangeOrder (Site Nat), ∃ lines,
        desiredLines digitKey order dev' twoPeers (some twoPeers) = .ok lines ∧
        ∀ k, .publicKey k ∉ lines :=
  hotApply_full (Device.sound_of_empty rfl rfl) applicable_twoPeers ⟨.stored _, some, true⟩ rfl none

theorem apply_routesLongest_twoPeers : RoutesLongest [2, 3] twoPeers
    (applyDesiredConfig digitKey digitOps ⟨.stored _, some, true⟩ blankDevice twoPeers none).1 :=
  apply_routesLongest (Device.sound_of_empty rfl rfl) applicable_twoPeers _ rfl none

end Tunnel
