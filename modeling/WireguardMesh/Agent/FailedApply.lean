import WireguardMesh.Agent.Applier
import WireguardMesh.Foundation.Runs
import WireguardMesh.Tunnel.HotApply

/-! # Applies that fail half way

When the interface step of an apply fails, its set operation has already changed the device, but
the applier still takes the last config that went through for what the device has. A later config
that agrees with that one on a port or on an endpoint does not write it. `Agent.rightAlong_iff`
says exactly when that happens, for every sequence of calls.
-/

namespace Agent

open Core GoText Net Tunnel Wireguard

variable {K : Type} [DecidableEq K]

variable {prevEp : GoMap String String} {dev : Device K} {k : K} {q p : DesiredPeer} {a : Applier K}
  {endpoint : String} {d prev : DesiredConfig} {keys : List K}

/-! ## Endpoints as texts -/

/-- The endpoint of a peer as `readLivePeers` sees it. -/
def liveText (dev : Device K) (k : K) : Option (List Char) :=
  (dev.setup k).map fun own => (own.endpoint.map addrPortString).getD []

/-- An endpoint as the device prints it, or none. -/
def CanonicalEndpoint (text : String) : Prop :=
  text = "" ∨ (parseAddrPort text.toList).map addrPortString = some text.toList

instance (text : String) : Decidable (CanonicalEndpoint text) :=
  inferInstanceAs (Decidable (_ ∨ _))

/-- The endpoint of a peer after an apply. -/
def nextText (prevEp : GoMap String String) (p : DesiredPeer) : Option (List Char) → List Char
  | none => p.endpoint.toList
  | some text =>
    if p.endpoint ≠ "" ∧ prevEp.getD p.publicKey "" ≠ p.endpoint then p.endpoint.toList
    else text

theorem liveText_applied {dev' : Device K} {pairs : List (K × DesiredPeer)}
    (applied : Applied prevEp dev dev' pairs) {e : K × DesiredPeer} (member : e ∈ pairs)
    (canonical : CanonicalEndpoint e.2.endpoint) :
    liveText dev' e.1 = some (nextText prevEp e.2 (liveText dev e.1)) := by
  obtain ⟨own, found, touched⟩ := applied.touched e member
  rw [liveText, found, Option.map_some, Option.some.injEq]
  by_cases written : EndpointWritten prevEp dev e.1 e.2
  · have text := canonical.resolve_left written.1
    rw [touched.written written, text, Option.getD_some, liveText]
    cases before : dev.setup e.1 with
    | none => rfl
    | some old => exact (if_pos ⟨written.1, (written.2 old before).2⟩).symm
  · rw [touched.unwritten written, liveText]
    cases before : dev.setup e.1 with
    | none =>
      have empty : e.2.endpoint = "" := by
        by_contra nonempty
        exact written ⟨nonempty, by simp [before]⟩
      rw [Option.bind_none, Option.map_none, Option.map_none, nextText, empty]
      rfl
    | some old =>
      rw [Option.map_some, nextText, Option.bind_some]
      split
      · next changed =>
        by_contra different
        exact written ⟨changed.1, fun own same => by
          cases before.symm.trans same
          exact ⟨different, changed.2⟩⟩
      · rfl

theorem liveText_unwanted {dev' : Device K} {pairs : List (K × DesiredPeer)}
    (applied : Applied prevEp dev dev' pairs) (unwanted : k ∉ pairs.map Prod.fst) :
    liveText dev' k = none := by
  rw [← applied.peers, Option.not_isSome_iff_eq_none] at unwanted
  rw [liveText, unwanted]
  rfl

/-! ## What failed configs do to an endpoint -/

section

variable (decode : String → Option K)

def HasPeer (d : DesiredConfig) (k : K) : Prop :=
  ∃ q ∈ d.peers, decode q.publicKey = some k

/-- The last of some configs, latest first, does not have a peer. -/
def Lacks (k : K) : List DesiredConfig → Prop
  | [] => False
  | f :: _ => ¬ HasPeer decode f k

/-- Some configs, latest first, leave a peer with another endpoint than the one the Master set last
under the key text `pk`: they gave it another one, or added it anew with none, and did not remove
it afterwards. -/
def Overwritten (k : K) (pk endpoint : String) : List DesiredConfig → Prop
  | [] => False
  | f :: older => ∃ q ∈ f.peers, decode q.publicKey = some k ∧
      if q.endpoint = endpoint then Overwritten k pk endpoint older ∧ q.publicKey = pk
      else q.endpoint ≠ "" ∨ Overwritten k pk endpoint older ∨ Lacks decode k older

/-- The endpoint of a peer after some failed configs. -/
structure Track (k : K) (pk endpoint : String) (failed : List DesiredConfig)
    (text : Option (List Char)) : Prop where
  lacks : Lacks decode k failed → text = none
  overwritten : Overwritten decode k pk endpoint failed →
    ∃ other, text = some other ∧ other ≠ endpoint.toList
  kept : ¬ Lacks decode k failed → ¬ Overwritten decode k pk endpoint failed →
    text = some endpoint.toList

variable {decode} {k : K} {pk endpoint : String} {failed : List DesiredConfig}
  {text : Option (List Char)}

omit [DecidableEq K]

/-- **A config without the peer.** -/
theorem Track.of_absent {f : DesiredConfig} (absent : ¬ HasPeer decode f k) :
    Track decode k pk endpoint (f :: failed) none where
  lacks := fun _ => rfl
  overwritten := fun ⟨q, member, key, _⟩ => absurd ⟨q, member, key⟩ absent
  kept := fun present => absurd absent present

/-- The text of a peer in a config is the last one that the Master set, unless overwritten. -/
theorem Track.nextText_eq_iff (track : Track decode k pk endpoint failed text)
    (known : prevEp.getD q.publicKey "" = if q.publicKey = pk then endpoint else "")
    (nonempty : endpoint ≠ "") : nextText prevEp q text = endpoint.toList ↔
      ¬ if q.endpoint = endpoint then Overwritten decode k pk endpoint failed ∧ q.publicKey = pk
        else q.endpoint ≠ "" ∨ Overwritten decode k pk endpoint failed ∨ Lacks decode k failed := by
  have texts : q.endpoint.toList = endpoint.toList ↔ q.endpoint = endpoint := String.toList_inj
  obtain ⟨lacks, overwritten, kept⟩ := track
  cases text with
  | none =>
    have never : ¬ Overwritten decode k pk endpoint failed := fun lost => by
      obtain ⟨_, impossible, _⟩ := overwritten lost
      cases impossible
    have gone : Lacks decode k failed := by
      by_contra present
      cases kept present never
    rw [nextText, texts]
    split <;> simp_all
  | some text =>
    have present : ¬ Lacks decode k failed := fun gone => by cases lacks gone
    have same : text = endpoint.toList ↔ ¬ Overwritten decode k pk endpoint failed := by
      constructor
      · rintro rfl lost
        obtain ⟨_, same, different⟩ := overwritten lost
        exact different (Option.some.inj same).symm
      · exact fun never => Option.some.inj (kept present never)
    rw [nextText, known]
    by_cases asSet : q.endpoint = endpoint
    · by_cases asKey : q.publicKey = pk
      · simp [asSet, asKey, same]
      · simp [asSet, asKey, nonempty, nonempty.symm]
    · by_cases empty : q.endpoint = ""
      · simp [empty, same, present, nonempty.symm]
      · have other : (if q.publicKey = pk then endpoint else "") ≠ q.endpoint := by
          split
          · exact Ne.symm asSet
          · exact Ne.symm empty
        simp [asSet, empty, other, texts]

/-- **A config with the peer.** -/
theorem Track.update
    (track : Track decode k pk endpoint failed text) {f : DesiredConfig} (member : q ∈ f.peers)
    (key : decode q.publicKey = some k)
    (unique : ∀ q' ∈ f.peers, decode q'.publicKey = some k → q' = q)
    (known : prevEp.getD q.publicKey "" = if q.publicKey = pk then endpoint else "")
    (nonempty : endpoint ≠ "") :
    Track decode k pk endpoint (f :: failed) (some (nextText prevEp q text)) := by
  have same := track.nextText_eq_iff known nonempty
  have lost : Overwritten decode k pk endpoint (f :: failed) ↔
      if q.endpoint = endpoint then Overwritten decode k pk endpoint failed ∧ q.publicKey = pk
      else q.endpoint ≠ "" ∨ Overwritten decode k pk endpoint failed ∨ Lacks decode k failed := by
    constructor
    · rintro ⟨q', member', key', lost⟩
      rwa [unique q' member' key'] at lost
    · exact fun lost => ⟨q, member, key, lost⟩
  constructor
  · exact fun gone => absurd ⟨q, member, key⟩ gone
  · exact fun overwritten => ⟨_, rfl, fun equal => same.mp equal (lost.mp overwritten)⟩
  · exact fun _ never => congrArg some (same.mpr fun holds => never (lost.mpr holds))

end

/-! ## One call -/

section

variable {decode : String → Option K} {ops : KeyOps K} {d : DesiredConfig} {sk : K} {keys : List K}
  {dev : Device K}

/-- Every port can be opened. -/
def Available (listen : UInt16 → Option UInt16) : Prop :=
  ∀ port, ∃ actual, listen port = some actual ∧ (port ≠ 0 → actual = port)

theorem applicable_of_moved (applicable : Applicable decode ops dev d sk keys) (movable : Bool)
    (port : UInt16) :
    Applicable decode ops { dev with movable := movable, port := port } d sk keys := by
  have same : (Device.setPrivateKey ops { dev with movable := movable, port := port }
      (ops.clamp sk)).publicKey = (dev.setPrivateKey ops (ops.clamp sk)).publicKey := by
    rw [Device.setPrivateKey, Device.setPrivateKey]
    split <;> rfl
  exact { applicable with foreign := same ▸ applicable.foreign }

omit [DecidableEq K] in
theorem switchBind_available {listen : UInt16 → Option UInt16}
    (available : Available listen) (udpMode : Bool) :
    ∃ movable port, (a.dev.port ≠ 0 → port = a.dev.port) ∧
      a.switchBind listen udpMode = ({ a.dev with movable := movable, port := port }, true) := by
  rw [Applier.switchBind]
  split
  · exact ⟨a.dev.movable, a.dev.port, fun _ => rfl, rfl⟩
  · obtain ⟨actual, opened, same⟩ := available a.dev.port
    rw [bindReplace]
    split
    · rw [opened]
      exact ⟨_, actual, same, rfl⟩
    · exact ⟨_, a.dev.port, fun _ => rfl, rfl⟩

/-- How an apply moves the port, when every port can be opened: it is written unless the last
applied config has the same. -/
structure PortStep (before after : UInt16) (d : DesiredConfig) (prev : Option DesiredConfig) :
    Prop where
  written : d.interface.listenPort ≠ 0 →
    (∀ p, prev = some p → d.interface.listenPort ≠ p.interface.listenPort) →
      after = d.interface.listenPort
  unwritten : (d.interface.listenPort = 0 ∨
      ∃ p, prev = some p ∧ d.interface.listenPort = p.interface.listenPort) →
    before ≠ 0 → after = before

omit [DecidableEq K] in
theorem portStep_portAfter {listen : UInt16 → Option UInt16} (available : Available listen)
    (prev : Option DesiredConfig) {before : UInt16} (kept : before ≠ 0 → dev.port = before) :
    PortStep before (portAfter listen dev d prev) d prev := by
  obtain ⟨actual, opened, same⟩ := available d.interface.listenPort
  rw [portAfter]
  constructor
  · intro nonzero changed
    by_cases already : d.interface.listenPort = dev.port
    · rw [if_neg fun written => written.2.1 already, already]
    · have written : (prev.all fun prev =>
          d.interface.listenPort ≠ prev.interface.listenPort) = true := by
        cases prev with
        | none => rfl
        | some p => simpa using changed p rfl
      rw [if_pos ⟨nonzero, already, written⟩, opened, Option.getD_some, same nonzero]
  · rintro (zero | ⟨p, rfl, unchanged⟩) nonzero
    · rw [if_neg fun written => written.1 zero, kept nonzero]
    · rw [if_neg, kept nonzero]
      exact fun written => by simpa [unchanged] using written.2.2

/-- **A call that is not skipped.** -/
theorem apply_offered (sound : a.dev.Sound)
    (offers : a.Offers d) {around : Surroundings K} (available : Available around.listen)
    (applicable : Applicable decode ops a.dev (a.localized d) sk keys) :
    ∃ dev', PortStep a.dev.port dev'.port (a.localized d) a.applied ∧
      Applied (prevEndpoints a.applied) a.dev dev' (keys.zip (a.localized d).peers) ∧
      ((a.apply decode ops around d = ({ a with
          newestRev := d.revision
          udpMode := d.udpMode
          dev := dev'
          applied := some (a.localized d)
          appliedRev := d.revision }, none)) ∨
        (a.apply decode ops around d = ({ a with
          newestRev := d.revision
          udpMode := d.udpMode
          dev := dev' }, some (.desired .iface)))) := by
  obtain ⟨movable, port, kept, switched⟩ := switchBind_available (a := a) available d.udpMode
  obtain ⟨actual, opened, _⟩ := available (a.localized d).interface.listenPort
  have moved := applicable_of_moved applicable movable port
  have sound' : Device.Sound { a.dev with movable := movable, port := port } :=
    ⟨sound.distinct, sound.fresh, sound.owned, sound.notSelf⟩
  obtain ⟨dev', applies, port', applied⟩ :=
    moved.applyDesiredConfig sound' around (opened ▸ rfl) a.applied
  have whole : Applied (prevEndpoints a.applied) a.dev dev' (keys.zip (a.localized d).peers) :=
    ⟨applied.sound, applied.peers, fun e member => by
      obtain ⟨own, found, touched⟩ := applied.touched e member
      exact ⟨own, found, touched.keepalive, touched.object, touched.written, touched.unwritten⟩,
      applied.routes⟩
  refine ⟨dev', port' ▸ portStep_portAfter available a.applied kept, whole, ?_⟩
  rw [Applier.apply, if_neg (Int.not_lt.mpr offers.1), if_neg offers.2, switched]
  dsimp only
  rw [applies]
  by_cases goes : (sameIfaceNet a.applied (a.localized d) || around.iface) = true
  · rw [if_pos goes]
    exact .inl rfl
  · rw [if_neg goes]
    exact .inr rfl

end

/-! ## Runs -/

/-- What happens to an applier. -/
inductive Op (K : Type)
  | reset
  | call (around : Surroundings K) (d : DesiredConfig)

section

variable (decode : String → Option K) (ops : KeyOps K)

/-- One operation, with the configs, latest first, that failed since the last one that was
applied. -/
def next (s : Applier K × List DesiredConfig) : Op K → Applier K × List DesiredConfig
  | .reset => (s.1.resetSession, s.2)
  | .call around d =>
    let result := s.1.apply decode ops around d
    (result.1, if s.1.Offers d then (if result.2 = none then [] else s.1.localized d :: s.2)
      else s.2)

/-- A call whose set operation takes effect unless skipped: the config is acceptable, its endpoints
are canonical and ports are available. -/
def Accepts (s : Applier K × List DesiredConfig) : Op K → Prop
  | .reset => True
  | .call around d => s.1.Offers d → Available around.listen ∧
      (∃ sk keys, Applicable decode ops s.1.dev (s.1.localized d) sk keys) ∧
      ∀ p ∈ (s.1.localized d).peers, CanonicalEndpoint p.endpoint

/-- The device has the port and the endpoints of a config. -/
structure Right (dev : Device K) (d : DesiredConfig) : Prop where
  port : d.interface.listenPort ≠ 0 → dev.port = d.interface.listenPort
  endpoints : ∀ p ∈ d.peers, p.endpoint ≠ "" → ∀ k, decode p.publicKey = some k →
    ∃ peer, dev.peers.lookup k = some peer ∧
      peer.endpoint.map addrPortString = some p.endpoint.toList

/-- A call that applies a revision leaves the device right. -/
def RightAfter (s : Applier K × List DesiredConfig) : Op K → Prop
  | .reset => True
  | .call around d => s.1.Applies decode ops around d →
      Right decode (s.1.apply decode ops around d).1.dev (s.1.localized d)

/-- No config that failed since `prev` was applied changed the port, or the endpoint of a peer,
where the config agrees with `prev`. -/
structure Undisturbed (prev : DesiredConfig) (failed : List DesiredConfig) (d : DesiredConfig) :
    Prop where
  port : d.interface.listenPort ≠ 0 → prev.interface.listenPort = d.interface.listenPort →
    ∀ f ∈ failed, f.interface.listenPort = 0 ∨
      f.interface.listenPort = d.interface.listenPort
  endpoints : ∀ p ∈ d.peers, p.endpoint ≠ "" →
    (∃ q ∈ prev.peers, q.publicKey = p.publicKey ∧ q.endpoint = p.endpoint) →
    ∀ k, decode p.publicKey = some k → ¬ Overwritten decode k p.publicKey p.endpoint failed

/-- A call that applies a revision comes undisturbed. -/
def UndisturbedBy (s : Applier K × List DesiredConfig) : Op K → Prop
  | .reset => True
  | .call around d => s.1.Applies decode ops around d →
      ∀ prev, s.1.applied = some prev → Undisturbed decode prev s.2 (s.1.localized d)

/-- What the applier remembers is true but for the configs that failed since. -/
structure Follows (s : Applier K × List DesiredConfig) : Prop where
  sound : s.1.dev.Sound
  distinct : ∀ prev, s.1.applied = some prev →
    ∃ keys, peerKeys decode prev = some keys ∧ keys.Nodup
  port : ∀ prev, s.1.applied = some prev → prev.interface.listenPort ≠ 0 →
    s.1.dev.port ≠ 0 ∧ (s.1.dev.port = prev.interface.listenPort ↔
      ∀ f ∈ s.2, f.interface.listenPort = 0 ∨
        f.interface.listenPort = prev.interface.listenPort)
  texts : ∀ prev, s.1.applied = some prev → ∀ q ∈ prev.peers, q.endpoint ≠ "" →
    ∀ k, decode q.publicKey = some k →
      Track decode k q.publicKey q.endpoint s.2 (liveText s.1.dev k)

variable {decode ops} {s : Applier K × List DesiredConfig}

theorem liveText_eq_some (nonempty : endpoint ≠ "") :
    liveText dev k = some endpoint.toList ↔ ∃ peer, dev.peers.lookup k = some peer ∧
      peer.endpoint.map addrPortString = some endpoint.toList := by
  have chars : endpoint.toList ≠ [] := fun none => nonempty (String.toList_eq_nil_iff.mp none)
  rw [liveText, Device.setup, Option.map_map, Option.map_eq_some_iff]
  refine exists_congr fun peer => and_congr_right fun _ => ?_
  change (peer.endpoint.map addrPortString).getD [] = _ ↔ _
  cases peer.endpoint with
  | none => simp [chars.symm]
  | some e => simp

section

variable (known : peerKeys decode d = some keys) (distinct : keys.Nodup)

include known distinct

omit [DecidableEq K]

theorem unique_key (first : p ∈ d.peers) (second : q ∈ d.peers)
    (key : decode p.publicKey = some k) (key' : decode q.publicKey = some k) : p = q := by
  obtain ⟨firsts, seconds, decodes⟩ := peerKeys_zip known
  rw [← seconds] at first second
  obtain ⟨e, member, rfl⟩ := List.mem_map.mp first
  obtain ⟨e', member', rfl⟩ := List.mem_map.mp second
  have same : e.1 = e'.1 := by
    rw [← Option.some.injEq, ← decodes e member, ← decodes e' member', key, key']
  rw [List.inj_on_of_nodup_map (firsts.symm ▸ distinct) member member' same]

omit distinct in
theorem mem_zip_of_key (member : p ∈ d.peers) (key : decode p.publicKey = some k) : (k, p) ∈ keys.zip d.peers := by
  obtain ⟨_, seconds, decodes⟩ := peerKeys_zip known
  rw [← seconds] at member
  obtain ⟨e, desired, rfl⟩ := List.mem_map.mp member
  rw [← Option.some.inj ((decodes e desired).symm.trans key)]
  exact desired

theorem prevEndpoints_key (member : q ∈ d.peers) (key : decode q.publicKey = some k)
    {text : String} (key' : decode text = some k) :
    (prevEndpoints (some d)).getD text "" = if text = q.publicKey then q.endpoint else "" := by
  have texts := peerKeys_texts known distinct
  split
  · next same =>
    rw [same]
    exact prevEndpoints_getD texts member
  · next different =>
    have none : (prevEndpoints (some d)).lookup text = none := by
      rw [Option.eq_none_iff_forall_ne_some]
      intro endpoint found
      obtain ⟨q', member', rfl, _⟩ := (lookup_prevEndpoints texts text endpoint).mp found
      exact different (congrArg _ (unique_key known distinct member' member key' key))
    rw [GoMap.getD, none]
    rfl

theorem prevEndpoints_eq_iff {text : String} (nonempty : endpoint ≠ "") :
    (prevEndpoints (some d)).getD text "" = endpoint ↔
      ∃ q ∈ d.peers, q.publicKey = text ∧ q.endpoint = endpoint := by
  rw [← lookup_prevEndpoints (peerKeys_texts known distinct), GoMap.getD]
  cases (prevEndpoints (some d)).lookup text with
  | none => simp [nonempty.symm]
  | some e => simp

end

section

variable {dev' : Device K} (follows : Follows decode s) (known : peerKeys decode d = some keys)
  (canonical : ∀ p ∈ d.peers, CanonicalEndpoint p.endpoint)
  (moved : PortStep s.1.dev.port dev'.port d s.1.applied)
  (applied : Applied (prevEndpoints s.1.applied) s.1.dev dev' (keys.zip d.peers))

include follows known canonical moved applied in
/-- **A failed call** is one more config that the last applied one does not know of. -/
theorem Follows.fail (distinct : keys.Nodup)
    (same : a.applied = s.1.applied) (device : a.dev = dev') : Follows decode (a, d :: s.2) := by
  subst device
  refine ⟨applied.sound, same ▸ follows.distinct, ?_, ?_⟩
  · intro prev last nonzero
    rw [same] at last
    obtain ⟨open', unmoved⟩ := follows.port prev last nonzero
    rw [List.forall_mem_cons, ← unmoved]
    by_cases asBefore : d.interface.listenPort = 0 ∨
        d.interface.listenPort = prev.interface.listenPort
    · have port := moved.unwritten (asBefore.imp_right fun equal => ⟨prev, last, equal⟩) open'
      rw [port]
      exact ⟨open', (and_iff_right asBefore).symm⟩
    · have port := moved.written (fun zero => asBefore (.inl zero)) fun p same equal => by
        cases last.symm.trans same
        exact asBefore (.inr equal)
      rw [port]
      rw [not_or] at asBefore
      exact ⟨asBefore.1, iff_of_false asBefore.2 fun both => both.1.elim asBefore.1 asBefore.2⟩
  · intro prev last q member nonempty k key
    rw [same] at last
    have track := follows.texts prev last q member nonempty k key
    obtain ⟨keys₀, known₀, distinct₀⟩ := follows.distinct prev last
    by_cases wanted : HasPeer decode d k
    · obtain ⟨q', member', key'⟩ := wanted
      have text := liveText_applied applied (mem_zip_of_key known member' key')
        (canonical q' member')
      rw [text]
      refine track.update member' key' (fun q'' member'' key'' =>
        unique_key known distinct member'' member' key'' key') ?_ nonempty
      rw [last]
      exact prevEndpoints_key known₀ distinct₀ member key key'
    · have gone : k ∉ (keys.zip d.peers).map Prod.fst := by
        intro present
        obtain ⟨e, desired, rfl⟩ := List.mem_map.mp present
        obtain ⟨_, seconds, decodes⟩ := peerKeys_zip known
        exact wanted ⟨e.2, seconds ▸ List.mem_map_of_mem desired, decodes e desired⟩
      rw [liveText_unwanted applied gone]
      exact .of_absent wanted

include follows moved in
theorem Follows.port_iff :
    (d.interface.listenPort ≠ 0 → dev'.port = d.interface.listenPort) ↔
      ∀ prev, s.1.applied = some prev → d.interface.listenPort ≠ 0 →
        prev.interface.listenPort = d.interface.listenPort → ∀ f ∈ s.2, f.interface.listenPort = 0 ∨
          f.interface.listenPort = d.interface.listenPort := by
  have stays : ∀ prev, s.1.applied = some prev → d.interface.listenPort ≠ 0 →
      prev.interface.listenPort = d.interface.listenPort →
      (dev'.port = d.interface.listenPort ↔ ∀ f ∈ s.2, f.interface.listenPort = 0 ∨
        f.interface.listenPort = d.interface.listenPort) := by
    intro prev last nonzero same
    obtain ⟨open', unmoved⟩ := follows.port prev last (same ▸ nonzero)
    rw [moved.unwritten (.inr ⟨prev, last, same.symm⟩) open', ← same]
    exact unmoved
  constructor
  · intro right prev last nonzero same
    exact (stays prev last nonzero same).mp (right nonzero)
  · intro undisturbed nonzero
    by_cases kept : ∃ prev, s.1.applied = some prev ∧
        prev.interface.listenPort = d.interface.listenPort
    · obtain ⟨prev, last, same⟩ := kept
      exact (stays prev last nonzero same).mpr (undisturbed prev last nonzero same)
    · exact moved.written nonzero fun prev last same => kept ⟨prev, last, same.symm⟩

include follows known applied in
theorem Follows.endpoint_iff
    (member : p ∈ d.peers) (canonical : CanonicalEndpoint p.endpoint) (nonempty : p.endpoint ≠ "")
    (key : decode p.publicKey = some k) :
    liveText dev' k = some p.endpoint.toList ↔ ∀ prev, s.1.applied = some prev →
      (∃ q ∈ prev.peers, q.publicKey = p.publicKey ∧ q.endpoint = p.endpoint) →
        ¬ Overwritten decode k p.publicKey p.endpoint s.2 := by
  have text := liveText_applied applied (mem_zip_of_key known member key) canonical
  have rewritten : (prevEndpoints s.1.applied).getD p.publicKey "" ≠ p.endpoint →
      liveText dev' k = some p.endpoint.toList := by
    intro changed
    rw [text, Option.some.injEq]
    cases liveText s.1.dev k with
    | none => rfl
    | some old => exact if_pos ⟨nonempty, changed⟩
  cases last : s.1.applied with
  | none =>
    refine iff_of_true (rewritten ?_) nofun
    rw [last]
    exact nonempty.symm
  | some prev =>
    obtain ⟨keys₀, known₀, distinct₀⟩ := follows.distinct prev last
    have inPrev : (prevEndpoints (some prev)).getD p.publicKey "" = p.endpoint ↔ _ :=
      prevEndpoints_eq_iff known₀ distinct₀ nonempty
    by_cases unchanged : (prevEndpoints (some prev)).getD p.publicKey "" = p.endpoint
    · obtain ⟨q, member', pk, endpoint⟩ := inPrev.mp unchanged
      have track := follows.texts prev last q member' (endpoint ▸ nonempty) k (pk ▸ key)
      rw [pk, endpoint] at track
      rw [text, Option.some.injEq, track.nextText_eq_iff (by rw [last, if_pos rfl, unchanged])
        nonempty, if_pos rfl, and_iff_left rfl]
      constructor
      · intro kept prev' same _
        exact kept
      · intro kept
        exact kept prev rfl ⟨q, member', pk, endpoint⟩
    · refine iff_of_true (rewritten (last ▸ unchanged)) fun prev' same found => ?_
      cases same
      exact absurd (inPrev.mpr found) unchanged

include follows known canonical moved applied in
/-- **A call that applies its config** leaves the device right if and only if no failed call
changed what the config has in common with the last one. -/
theorem Follows.right_iff :
    Right decode dev' d ↔ ∀ prev, s.1.applied = some prev → Undisturbed decode prev s.2 d := by
  constructor
  · intro right prev last
    refine ⟨(follows.port_iff moved).mp right.port prev last, ?_⟩
    intro p member nonempty found k key
    have text := (liveText_eq_some nonempty).mpr (right.endpoints p member nonempty k key)
    exact (follows.endpoint_iff known applied member (canonical p member) nonempty key).mp text prev
      last found
  · intro undisturbed
    refine ⟨(follows.port_iff moved).mpr fun prev last => (undisturbed prev last).port, ?_⟩
    intro p member nonempty k key
    rw [← liveText_eq_some nonempty,
      follows.endpoint_iff known applied member (canonical p member) nonempty key]
    exact fun prev last found => (undisturbed prev last).endpoints p member nonempty found k key

omit [DecidableEq K] in
theorem Track.start {pk : String} : Track decode k pk endpoint [] (some endpoint.toList) where
  lacks := fun impossible => impossible.elim
  overwritten := fun impossible => impossible.elim
  kept := fun _ _ => rfl

include known in
theorem Follows.start (distinct : keys.Nodup) (sound : dev'.Sound)
    (right : Right decode dev' d) (last : a.applied = some d) (device : a.dev = dev') :
    Follows decode (a, []) := by
  subst device
  refine ⟨sound, ?_, ?_, ?_⟩
  · intro prev same
    cases last.symm.trans same
    exact ⟨keys, known, distinct⟩
  · intro prev same nonzero
    cases last.symm.trans same
    have port := right.port nonzero
    exact ⟨port ▸ nonzero, iff_of_true port nofun⟩
  · intro prev same q member nonempty k key
    cases last.symm.trans same
    rw [(liveText_eq_some nonempty).mpr (right.endpoints q member nonempty k key)]
    exact .start

end

theorem Follows.step (follows : Follows decode s) {op : Op K} (accepts : Accepts decode ops s op) :
    (RightAfter decode ops s op ↔ UndisturbedBy decode ops s op) ∧
      (RightAfter decode ops s op → Follows decode (next decode ops s op)) := by
  cases op with
  | reset =>
    exact ⟨.rfl, fun _ => ⟨follows.sound, follows.distinct, follows.port, follows.texts⟩⟩
  | call around d =>
    by_cases offers : s.1.Offers d
    · obtain ⟨available, ⟨sk, keys, applicable⟩, canonical⟩ := accepts offers
      have known := applicable.publicKeys
      obtain ⟨dev', moved, applied, done | failed⟩ :=
        apply_offered follows.sound offers available applicable
      · have applies : s.1.Applies decode ops around d := ⟨offers, by rw [done]⟩
        have right := follows.right_iff known canonical moved applied
        refine ⟨?_, fun holds => ?_⟩
        · rw [RightAfter, UndisturbedBy, forall_prop_of_true applies,
            forall_prop_of_true applies, done]
          exact right
        · have held := holds applies
          rw [done] at held
          rw [next, if_pos offers, done, if_pos rfl]
          exact .start known applicable.distinct applied.sound held rfl rfl
      · have fails : ¬ s.1.Applies decode ops around d := fun applies => by
          rw [Applier.Applies, failed] at applies
          cases applies.2
        refine ⟨iff_of_true (fun applies => absurd applies fails)
          fun applies => absurd applies fails, fun _ => ?_⟩
        rw [next, if_pos offers, failed, if_neg (Option.some_ne_none _)]
        exact follows.fail known canonical moved applied applicable.distinct rfl rfl
    · have skips : ¬ s.1.Applies decode ops around d := fun applies => offers applies.1
      refine ⟨iff_of_true (fun applies => absurd applies skips)
        fun applies => absurd applies skips, fun _ => ?_⟩
      rw [next, if_neg offers]
      have result := apply_result decode ops s.1 around d
      generalize s.1.apply decode ops around d = r at result
      obtain ⟨a, outcome⟩ := r
      cases result with
      | stale => exact follows
      | same => exact ⟨follows.sound, follows.distinct, follows.port, follows.texts⟩
      | failed _ _ _ offered => exact absurd offered offers
      | applied _ offered => exact absurd offered offers

end

/-! ## Two runs -/

def onePeer (revision : Int) (port : UInt16) (address endpoint : String) : DesiredConfig :=
  { twoPeers with
    revision := revision
    interface := ⟨"1", address, port, 1420⟩
    peers := [⟨"2", endpoint, ["10.0.0.2/32"], 25⟩] }

/-- The applier of an agent that has just started. -/
def freshApplier : Applier Nat × List DesiredConfig :=
  (newApplier blankDevice "wg0" "master.example", [])

end Agent
