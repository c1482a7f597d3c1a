import WireguardMesh.Wire.Messages

/-! # Round trips and safety of the control plane

What a message has to keep to for the wire (`Kind.Fits`), and that its reader then gives it back
(`readsAll_message`), except that an address loses its zone. On arbitrary bytes every reader
returns, and a message without an error keeps to the limits (`message_ensures`). The one exception
is the release of an `UpdateCmd` on a platform whose `int` has 32 bits: a length of `2 ^ 31` or
more becomes negative there, passes the checks, and the slice panics (`read_updateCmd_eq_none`).
-/

namespace Wire

open Sticky

variable {m : Stats} {r r' : Reader UInt8 WireError} (size : IntSize)

/-! ## What fits on the wire -/

def Hello.Fits (m : Hello) : Prop :=
  m.token.length ≤ maxString ∧ m.version.length ≤ maxString ∧ m.publicV4.is4In6 = false ∧
    m.publicV6.is4In6 = false

def ForwardStat.Fits (f : ForwardStat) : Prop :=
  f.protocol.length ≤ maxString ∧ f.listen.length ≤ maxString

structure Stats.Fits (m : Stats) : Prop where
  peers : m.peers.length ≤ maxPeers
  ips : m.ips.length ≤ maxIPs
  forwards : m.forwards.length ≤ maxForwards
  addrs : ∀ s ∈ m.ips, s.ip.is4In6 = false
  texts : ∀ f ∈ m.forwards, f.Fits

def UpdateCmd.Fits (m : UpdateCmd) : Prop :=
  m.proxy.length ≤ maxString ∧ m.release.length ≤ maxReleaseBytes

def Presence.Fits (m : Presence) : Prop :=
  m.nodes.length ≤ maxPresenceNodes ∧ ∀ e ∈ m.nodes, e.nodeID.length ≤ maxString

/-- A message within the limits of the wire and without IPv4-mapped addresses. -/
def Kind.Fits : (kind : Kind) → kind.Message → Prop
  | hello => Hello.Fits
  | helloAck => fun m => m.nodeID.length ≤ maxString
  | stats => Stats.Fits
  | ping => fun _ => True
  | configAck => fun m => m.error.length ≤ maxString
  | errorMsg => fun m => m.message.length ≤ maxString
  | updateCmd => UpdateCmd.Fits
  | updateAck => fun m => m.message.length ≤ maxString
  | uiHello => fun m => m.token.length ≤ maxString
  | uiHelloAck => fun _ => True
  | uiSubscribe => fun m => m.nodeID.length ≤ maxString
  | presence => Presence.Fits

def Kind.addrs : (kind : Kind) → kind.Message → List Net.Addr
  | hello => fun m => [m.publicV4, m.publicV6]
  | stats => fun m => m.ips.map IPStat.ip
  | helloAck | ping | configAck | errorMsg | updateCmd | updateAck | uiHello | uiHelloAck
  | uiSubscribe | presence => fun _ => []

/-- No address of the message has a zone. -/
def Kind.ZoneFree (kind : Kind) (m : kind.Message) : Prop :=
  ∀ addr ∈ kind.addrs m, unzoned addr = addr

/-- The lists of a message are within their limits. -/
def Kind.Bounded : (kind : Kind) → kind.Message → Prop
  | stats => fun m =>
    m.peers.length ≤ maxPeers ∧ m.ips.length ≤ maxIPs ∧ m.forwards.length ≤ maxForwards
  | updateCmd => fun m => m.release.length ≤ maxReleaseBytes
  | presence => fun m => m.nodes.length ≤ maxPresenceNodes
  | hello | helloAck | ping | configAck | errorMsg | updateAck | uiHello | uiHelloAck
  | uiSubscribe => fun _ => True

/-! ## A message is read as it was written, without zones -/

def IPStat.unzoned (s : IPStat) : IPStat :=
  { s with ip := Wire.unzoned s.ip }

/-- The message without the zones of its addresses. -/
def Kind.unzoned : (kind : Kind) → kind.Message → kind.Message
  | hello => fun m =>
    { m with publicV4 := Wire.unzoned m.publicV4, publicV6 := Wire.unzoned m.publicV6 }
  | stats => fun m => { m with ips := m.ips.map IPStat.unzoned }
  | helloAck | ping | configAck | errorMsg | updateCmd | updateAck | uiHello | uiHelloAck
  | uiSubscribe | presence => id

theorem unzoned_eq_iff (kind : Kind) (m : kind.Message) : kind.unzoned m = m ↔ kind.ZoneFree m := by
  cases kind with
  | hello =>
    obtain ⟨token, version, publicV4, publicV6⟩ := m
    simp [Kind.unzoned, Kind.ZoneFree, Kind.addrs]
  | stats =>
    obtain ⟨unixMilli, rxBytes, txBytes, peers, ips, forwards⟩ := m
    have entry (s : IPStat) : s.unzoned = s ↔ Wire.unzoned s.ip = s.ip := by
      obtain ⟨ip, rxBytes, txBytes⟩ := s
      simp [IPStat.unzoned]
    have entries : ips.map IPStat.unzoned = ips ↔ ∀ s ∈ ips, s.unzoned = s := by
      simpa using List.map_inj_left (l := ips) (f := IPStat.unzoned) (g := id)
    simp [Kind.unzoned, Kind.ZoneFree, Kind.addrs, entries, entry]
  | helloAck | ping | configAck | errorMsg | updateCmd | updateAck | uiHello | uiHelloAck
  | uiSubscribe | presence =>
    exact iff_of_true rfl nofun

theorem reads_list {α γ : Type} {max : Nat} (what : String) {read : Decoder α}
    {write : γ → Bytes} {value : γ → α} {list : List γ} (fits : list.length ≤ max) (small : max < 2 ^ 16)
    (one : ∀ c ∈ list, Reads read (write c) (value c)) :
    Reads (readList max what read) (writeList max write list) (list.map value) := by
  rw [writeList, List.take_of_length_le fits]
  exact (reads_count what fits small).bind (Reads.ok.bind (.times one))

theorem reads_hello {m : Hello} (fits : m.Fits) :
    Reads Hello.read m.marshal (Kind.hello.unzoned m) := by
  obtain ⟨token, version, plainV4, plainV6⟩ := fits
  refine (reads_str token).bind ((reads_str version).bind ((reads_ip plainV4).bind ?_))
  exact (reads_ip plainV6).bind_nil (.pure _)

/-- The peer as it is before its round trip time is read. -/
def PeerStat.withoutRTT (p : PeerStat) : PeerStat :=
  { p with handshakeRTTMicros := 0 }

/-- The value without the round trip times. -/
def Stats.withoutRTTs (m : Stats) : Stats :=
  { m with peers := m.peers.map PeerStat.withoutRTT }

theorem reads_peer (p : PeerStat) : Reads PeerStat.read p.write p.withoutRTT := by
  have key : Reads (bytes WireError.short 32) p.publicKey.val _ :=
    .bytes _ (congrArg Nat.cast p.publicKey.property)
  have copied : PublicKey.copy p.publicKey.val = p.publicKey := dif_pos p.publicKey.property
  refine key.bind ((reads_u64 _).bind ((reads_u64 _).bind ((reads_i64 _).bind_nil ?_)))
  rw [Option.getD_some, copied]
  exact .pure _

theorem reads_ipStat {s : IPStat} (plain : s.ip.is4In6 = false) :
    Reads IPStat.read s.write s.unzoned :=
  (reads_ip plain).bind ((reads_u64 _).bind ((reads_u64 _).bind_nil (.pure _)))

theorem reads_forward {f : ForwardStat} (fits : f.Fits) : Reads ForwardStat.read f.write f :=
  (reads_str fits.1).bind ((reads_str fits.2).bind
    ((reads_u64 _).bind ((reads_u64 _).bind_nil (.pure _))))

/-- A reader that stops after the forwards gets everything but the round trip times. -/
theorem reads_body (fits : m.Fits) :
    Reads Stats.readBody m.body (Stats.withoutRTTs (Kind.stats.unzoned m)) := by
  have peers := reads_list "peers" fits.peers (by decide) fun p _ => reads_peer p
  have ips := reads_list "ips" fits.ips (by decide) fun s listed =>
    reads_ipStat (fits.addrs s listed)
  have forwards := reads_list "forwards" fits.forwards (by decide) fun f listed =>
    reads_forward (fits.texts f listed)
  rw [List.map_id'] at forwards
  refine (reads_i64 _).bind ((reads_u64 _).bind ((reads_u64 _).bind (peers.bind (ips.bind ?_))))
  exact forwards.bind_nil (.pure _)

theorem reads_rtt (p : PeerStat) :
    Reads (PeerStat.readRTT p.withoutRTT) (writeU32 p.handshakeRTTMicros) p :=
  (reads_u32 _).bind_nil (.pure _)

theorem reads_trailer (fits : m.peers.length ≤ maxPeers) :
    Reads m.withoutRTTs.readTrailer m.trailer m := by
  have times : Reads (each PeerStat.readRTT m.withoutRTTs.peers)
      (m.peers.flatMap fun p => writeU32 p.handshakeRTTMicros) (m.peers.map id) :=
    .each fun p _ => reads_rtt p
  have asMany : m.peers.length = m.withoutRTTs.peers.length := List.length_map _ |>.symm
  rw [List.map_id] at times
  rw [Stats.trailer, writeList, List.take_of_length_le fits]
  refine Reads.more_bind (List.append_ne_nil_of_left_ne_nil ?_ _) ?_
  · exact List.ne_nil_of_length_eq_add_one (length_bigEndian 2 _)
  · refine (reads_count _ fits (by decide)).bind (Reads.ok.bind ?_)
    rw [asMany, BEq.rfl, Bool.and_true, if_pos rfl]
    exact times.bind_nil (.pure m)

theorem reads_stats (fits : m.Fits) : Reads Stats.read m.marshal (Kind.stats.unzoned m) :=
  (reads_body fits).bind (reads_trailer (m := Kind.stats.unzoned m) fits.peers)

theorem ofUInt32_int32 (v : UInt32) :
    IntSize.int32.ofUInt32 v = if v.toNat < 2 ^ 31 then (v.toNat : Int) else v.toNat - 2 ^ 32 := by
  have bits : IntSize.int32.ofUInt32 v = v.toBitVec.toInt := rfl
  have value : v.toBitVec.toNat = v.toNat := rfl
  rw [bits, BitVec.toInt_eq_toNat_cond, value]
  split
  · rw [if_pos (by omega)]
  · rw [if_neg (by omega)]
    rfl

/-- On every platform the length of a release that fits is that length as an `int`. -/
theorem ofUInt32_length {n : Nat} (fits : n ≤ maxReleaseBytes) :
    size.ofUInt32 (UInt32.ofNat n) = n := by
  have small : n < 2 ^ 31 := Nat.lt_of_le_of_lt fits (by decide)
  have value : (UInt32.ofNat n).toNat = n := by
    rw [UInt32.toNat_ofNat']
    omega
  cases size with
  | int32 => rw [ofUInt32_int32, value, if_pos small]
  | int64 => exact congrArg Nat.cast value

theorem reads_release (force : Bool) {proxy release : Bytes}
    (shortProxy : proxy.length ≤ maxString) (smallRelease : release.length ≤ maxReleaseBytes) :
    Reads (UpdateCmd.readRelease size force)
      (writeStr proxy ++ (writeU32 (UInt32.ofNat release.length) ++ release))
      ⟨force, proxy, release⟩ := by
  have length := ofUInt32_length size smallRelease
  have field := Reads.bytes WireError.short length.symm
  have within : ¬ (maxReleaseBytes : Int) < size.ofUInt32 (UInt32.ofNat release.length) := by
    rw [length]
    omega
  have manifest : Reads (readManifest (size.ofUInt32 (UInt32.ofNat release.length))) release
      (some release) := by
    rw [readManifest, if_neg within]
    exact field
  exact (reads_str shortProxy).bind ((reads_u32 _).bind (manifest.bind_nil (.pure _)))

theorem readsAll_updateCmd {m : UpdateCmd} (fits : m.Fits) :
    ReadsAll (UpdateCmd.read size) m.marshal m := by
  obtain ⟨shortProxy, smallRelease⟩ := fits
  have sent : m.sentRelease = m.release := if_neg (Nat.not_lt.mpr smallRelease)
  rw [UpdateCmd.marshal, sent]
  split
  · next empty =>
    obtain ⟨force, proxy, release⟩ := m
    obtain ⟨rfl, rfl⟩ := empty
    rw [← List.append_nil (writeBool _)]
    exact (reads_bool force).bind_all (.more_bind rfl)
  · refine (reads_bool m.force).bind_all (Reads.all (.more_bind ?_ ?_))
    · exact List.append_ne_nil_of_left_ne_nil (List.append_ne_nil_of_left_ne_nil
        (List.ne_nil_of_length_eq_add_one (length_bigEndian 2 _)) _) _
    · exact reads_release size m.force shortProxy smallRelease

theorem reads_presenceNode {e : PresenceNode} (fits : e.nodeID.length ≤ maxString) :
    Reads PresenceNode.read e.write e :=
  (reads_str fits).bind ((reads_u8 _).bind ((reads_i64 _).bind ((reads_u64 _).bind
    ((reads_u64 _).bind ((reads_u32 _).bind_nil (.pure _))))))

theorem reads_presence {m : Presence} (fits : m.Fits) : Reads Presence.read m.marshal m := by
  have nodes : Reads (timesWhileOk PresenceNode.read m.nodes.length)
      (m.nodes.flatMap PresenceNode.write) (m.nodes.map id) :=
    .timesWhileOk fun e listed => reads_presenceNode (fits.2 e listed)
  rw [List.map_id] at nodes
  rw [Presence.marshal, writeList, List.take_of_length_le fits.1]
  exact (reads_i64 _).bind ((reads_count _ fits.1 (by decide)).bind
    (Reads.ok.bind (nodes.bind_nil (.pure _))))

/-- **Round trip.** Every message within the limits is read as it was written, but without
zones. -/
theorem readsAll_message (kind : Kind) {m : kind.Message} (fits : kind.Fits m) :
    ReadsAll (kind.read size) (kind.marshal m) (kind.unzoned m) := by
  cases kind with
  | hello => exact (reads_hello fits).all
  | helloAck => exact ((reads_str fits).bind ((reads_u32 _).bind_nil (.pure m))).all
  | stats => exact (reads_stats fits).all
  | ping => exact ((reads_i64 _).bind_nil (.pure m)).all
  | configAck =>
    exact ((reads_u32 _).bind ((reads_bool _).bind ((reads_str fits).bind_nil (.pure m)))).all
  | errorMsg => exact ((reads_u16 _).bind ((reads_str fits).bind_nil (.pure m))).all
  | updateCmd => exact readsAll_updateCmd size fits
  | updateAck => exact ((reads_bool _).bind ((reads_str fits).bind_nil (.pure m))).all
  | uiHello => exact ((reads_str fits).bind_nil (.pure m)).all
  | uiHelloAck => exact ((reads_u32 _).bind_nil (.pure m)).all
  | uiSubscribe => exact ((reads_str fits).bind_nil (.pure m)).all
  | presence => exact (reads_presence fits).all

theorem unmarshal_marshal (kind : Kind) {m : kind.Message}
    (fits : kind.Fits m) : kind.unmarshal size (kind.marshal m) = some (kind.unzoned m, none) := by
  rw [Kind.unmarshal, readsAll_message size kind fits]
  rfl

/-! ## Arbitrary bytes -/

theorem meets_list {α : Type} (max : Nat) (what : String) {read : Decoder α} (one : Safe read) :
    Meets (readList max what read) fun list => list.length ≤ max := by
  refine (meets_count max what).bind fun n => Meets.ok.bind fun fine => .ite ?_ ?_
  · refine ⟨(Meets.times one n).safe, fun r r' list done none _ _ within => ?_⟩
    rw [(Meets.times one n).ensures done none]
    exact within
  · exact .pure fun failed yes => absurd yes failed

theorem safe_peer : Safe PeerStat.read :=
  (Safe.bytes _ (by decide)).bind fun _ => safe_u64.bind fun _ => safe_u64.bind fun _ =>
    safe_i64.bind fun _ => .pure _

theorem safe_ipStat : Safe IPStat.read :=
  safe_ip.bind fun _ => safe_u64.bind fun _ => safe_u64.bind fun _ => .pure _

theorem safe_forward : Safe ForwardStat.read :=
  safe_str.bind fun _ => safe_str.bind fun _ => safe_u64.bind fun _ => safe_u64.bind fun _ =>
    .pure _

theorem safe_presenceNode : Safe PresenceNode.read :=
  safe_str.bind fun _ => safe_u8.bind fun _ => safe_i64.bind fun _ => safe_u64.bind fun _ =>
    safe_u64.bind fun _ => safe_u32.bind fun _ => .pure _

theorem safe_rtt (p : PeerStat) : Safe p.readRTT :=
  safe_u32.bind fun _ => .pure _

theorem meets_body : Meets Stats.readBody (Kind.Bounded .stats) := by
  refine safe_i64.meets.bind fun _ => safe_u64.meets.bind fun _ => safe_u64.meets.bind fun _ => ?_
  refine (meets_list maxPeers _ safe_peer).bind fun _ => ?_
  refine (meets_list maxIPs _ safe_ipStat).bind fun _ => ?_
  refine (meets_list maxForwards _ safe_forward).bind fun _ => ?_
  exact .pure fun forwards ips peers _ _ _ => ⟨peers, ips, forwards⟩

theorem meets_trailer (m : Stats) :
    Meets m.readTrailer fun m' => Kind.Bounded .stats m → Kind.Bounded .stats m' := by
  refine Safe.more.meets.bind fun _ => .ite ?_ (.pure fun _ _ bounded => bounded)
  refine (meets_count maxPeers _).bind fun n => Meets.ok.bind fun fine => .ite ?_ ?_
  · refine (Meets.each safe_rtt m.peers).bind fun peers => .pure fun length _ _ _ _ _ bounded => ?_
    refine ⟨?_, bounded.2⟩
    rw [length]
    exact bounded.1
  · exact .pure fun _ _ _ _ _ bounded => bounded

theorem meets_presence : Meets Presence.read (Kind.Bounded .presence) := by
  refine safe_i64.meets.bind fun nowMs => (meets_count maxPresenceNodes _).bind fun n => ?_
  refine Meets.ok.bind fun fine => .ite ?_ (.pure fun failed yes => absurd yes failed)
  refine (Meets.timesWhileOk safe_presenceNode n).bind fun nodes => ?_
  exact .pure fun length _ _ within _ => length.le.trans within

/-! ### The release of an update -/

theorem sound_manifest (n : Int) : Sound (readManifest n) := by
  rw [readManifest]
  split
  · exact (Safe.fail _).sound.bind fun _ => .bytes _ n
  · exact .bytes _ n

theorem manifest_ensures (n : Int) :
    Ensures (readManifest n) fun release => (release.getD []).length ≤ maxReleaseBytes := by
  rw [readManifest]
  split
  · exact (Ensures.fail _ fun _ => False).bind (fun _ => .bytes _ n) fun _ impossible =>
      impossible.elim
  · next within =>
    intro r r' release done fine
    obtain ⟨natural, rfl⟩ := (bytes_took done).2 fine
    rw [Option.getD_some, List.length_take]
    omega

theorem readManifest_eq_none {n : Int} : readManifest n r = none ↔ n < 0 ∧ r.err = none := by
  rw [readManifest]
  split
  · next large =>
    obtain ⟨release, r', done⟩ := ((Safe.fail (.releaseTooLarge n)).bind fun _ =>
      .bytes WireError.short (show 0 ≤ n by omega)).returns r
    rw [done]
    exact iff_of_false nofun fun both => by omega
  · exact bytes_eq_none

theorem sound_release (force : Bool) : Sound (UpdateCmd.readRelease size force) :=
  safe_str.sound.bind fun _ => safe_u32.sound.bind fun _ => (sound_manifest _).bind fun _ =>
    .pure _

theorem sound_updateCmd : Sound (UpdateCmd.read size) := by
  refine safe_bool.sound.bind fun force => Safe.more.sound.bind fun more => ?_
  cases more with
  | false => exact .pure _
  | true => exact sound_release size force

theorem updateCmd_ensures :
    Ensures (UpdateCmd.read size) (Kind.Bounded .updateCmd) := by
  intro r r' m done fine
  obtain ⟨force, r₁, -, rest⟩ := bind_eq_some.mp done
  obtain ⟨more, r₂, -, rest⟩ := bind_eq_some.mp rest
  cases more with
  | false =>
    cases rest
    exact Nat.zero_le _
  | true =>
    obtain ⟨proxy, r₃, -, rest⟩ := bind_eq_some.mp rest
    obtain ⟨length, r₄, -, rest⟩ := bind_eq_some.mp rest
    obtain ⟨release, r₅, taken, rest⟩ := bind_eq_some.mp rest
    cases rest
    exact manifest_ensures _ taken fine

/-- The length of the release, after the flag and the proxy, is `2 ^ 31` or more. -/
def NegativeRelease (b : Bytes) : Prop :=
  let proxy := ofBigEndian ((b.drop 1).take 2)
  7 + proxy ≤ b.length ∧ 2 ^ 31 ≤ ofBigEndian ((b.drop (3 + proxy)).take 4)

instance (b : Bytes) : Decidable (NegativeRelease b) :=
  inferInstanceAs (Decidable (_ ∧ _))

theorem readNat_took {n v : Nat} (done : readNat n r = some (v, r')) :
    Took n r r' ∧ (r'.err = none → v = ofBigEndian (r.b.take n)) := by
  obtain ⟨bytes, between, taken, rest⟩ := bind_eq_some.mp done
  cases rest
  obtain ⟨took, value⟩ := bytes_took taken
  refine ⟨took, fun fine => ?_⟩
  rw [(value fine).2]
  rfl

theorem ofBigEndian_take_lt (n : Nat) (list : Bytes) : ofBigEndian (list.take n) < 256 ^ n :=
  (ofBigEndian_lt _).trans_le (Nat.pow_le_pow_right (by decide) (List.length_take_le n list))

theorem readStr_took {v : Bytes} (done : readStr r = some (v, r')) :
    ∃ length, Took (2 + length) r r' ∧
      (r.err = none → 2 ≤ r.b.length → length = ofBigEndian (r.b.take 2)) := by
  obtain ⟨number, between, read, rest⟩ := bind_eq_some.mp done
  obtain ⟨bytes, after, taken, rest⟩ := bind_eq_some.mp rest
  cases rest
  obtain ⟨value, counted, rfl⟩ := of_map_eq_some read
  obtain ⟨first, known⟩ := readNat_took counted
  refine ⟨_, first.trans (bytes_took taken).1, fun fine long => ?_⟩
  rw [known (first.fine.mpr ⟨fine, long⟩), Int.toNat_natCast, UInt16.toNat_ofNat']
  exact Nat.mod_eq_of_lt (ofBigEndian_take_lt 2 _)

/-- An `int` of 64 bits holds every length, and one of 32 bits those below `2 ^ 31`. -/
theorem ofUInt32_neg_iff (v : UInt32) :
    size.ofUInt32 v < 0 ↔ size = .int32 ∧ 2 ^ 31 ≤ v.toNat := by
  have fits := v.toNat_lt
  cases size with
  | int32 =>
    rw [ofUInt32_int32]
    split
    · next small => exact iff_of_false (by omega) fun both => by omega
    · next large => exact iff_of_true (by omega) ⟨rfl, Nat.not_lt.mp large⟩
  | int64 => exact iff_of_false (Int.not_lt.mpr (Int.natCast_nonneg _)) fun both => nomatch both.1

/-- The reader of an update panics at the slice of the release, if it gets there. -/
theorem UpdateCmd.read_eq_none {r₁ r₂ r₃ : Reader UInt8 WireError} {force : Bool}
    {proxy : Bytes} {length : UInt32} (flag : readBool r = some (force, r₁))
    (text : readStr r₁ = some (proxy, r₂)) (number : readU32 r₂ = some (length, r₃)) :
    UpdateCmd.read size r = none ↔
      (r₁.err.isNone && !r₁.b.isEmpty) = true ∧ size.ofUInt32 length < 0 ∧ r₃.err = none := by
  have looked : more r₁ = some (r₁.err.isNone && !r₁.b.isEmpty, r₁) := rfl
  rw [UpdateCmd.read, bind_of_some flag, bind_of_some looked]
  split
  · next goesOn =>
    rw [UpdateCmd.readRelease, bind_of_some text, bind_of_some number, bind_eq,
      Option.bind_eq_none_iff, ← readManifest_eq_none, and_iff_right goesOn]
    cases readManifest (size.ofUInt32 length) r₃ with
    | none => exact iff_of_true nofun rfl
    | some result => exact iff_of_false (fun ends => nomatch ends _ rfl) nofun
  · next stops => exact iff_of_false nofun fun both => stops both.1

/-- **Where the reader of an update panics.** -/
theorem read_updateCmd_eq_none (b : Bytes) :
    UpdateCmd.read size ⟨b, none⟩ = none ↔ size = .int32 ∧ NegativeRelease b := by
  obtain ⟨force, r₁, flag⟩ := safe_bool.returns ⟨b, none⟩
  obtain ⟨proxy, r₂, text⟩ := safe_str.returns r₁
  obtain ⟨length, r₃, number⟩ := safe_u32.returns r₂
  rw [UpdateCmd.read_eq_none size flag text number, ofUInt32_neg_iff]
  obtain ⟨byte, flag, -⟩ := of_map_eq_some flag
  obtain ⟨value, flag, -⟩ := of_map_eq_some flag
  obtain ⟨value, counted, rfl⟩ := of_map_eq_some number
  obtain ⟨one, -⟩ := readNat_took flag
  obtain ⟨length, field, known⟩ := readStr_took text
  obtain ⟨four, amount⟩ := readNat_took counted
  have whole : r₃.err = none ↔ none = none ∧ 1 + (2 + length) + 4 ≤ b.length :=
    ((one.trans field).trans four).fine
  by_cases long : 3 ≤ b.length
  · have fine : r₁.err = none := one.fine.mpr ⟨rfl, by dsimp only; omega⟩
    have left : r₁.b = b.drop 1 := one.left fine
    have rest : 2 ≤ r₁.b.length := by rw [left, List.length_drop]; omega
    have goesOn : (r₁.err.isNone && !r₁.b.isEmpty) = true := by
      rw [fine, List.isEmpty_eq_false_iff.mpr (List.ne_nil_of_length_pos (by omega))]
      rfl
    have same := known fine rest
    have value (fine₃ : r₃.err = none) : (UInt32.ofNat value).toNat =
        ofBigEndian ((b.drop (3 + length)).take 4) := by
      rw [amount fine₃, (one.trans field).left (four.fine.mp fine₃).1, UInt32.toNat_ofNat',
        ← Nat.add_assoc]
      exact Nat.mod_eq_of_lt (ofBigEndian_take_lt 4 _)
    rw [left] at same
    rw [and_iff_right goesOn, and_assoc, NegativeRelease, ← same]
    refine and_congr_right fun _ => ⟨fun both => ?_, fun both => ?_⟩
    · have enough := (whole.mp both.2).2
      exact ⟨by omega, both.1.trans_eq (value both.2)⟩
    · have fine₃ := whole.mpr ⟨rfl, by omega⟩
      exact ⟨both.2.trans_eq (value fine₃).symm, fine₃⟩
  · refine iff_of_false (fun both => ?_) fun both => ?_
    · have enough := (whole.mp both.2.2).2
      omega
    · have enough := both.2.1
      omega

theorem meets_message {kind : Kind} (other : kind ≠ .updateCmd) :
    Meets (kind.read size) kind.Bounded := by
  cases kind with
  | hello =>
    exact (safe_str.bind fun _ => safe_str.bind fun _ => safe_ip.bind fun _ =>
      safe_ip.bind fun _ => .pure _).meets
  | helloAck => exact (safe_str.bind fun _ => safe_u32.bind fun _ => .pure _).meets
  | stats =>
    refine meets_body.bind fun m => ?_
    exact meets_trailer m
  | ping => exact (safe_i64.bind fun _ => .pure _).meets
  | configAck =>
    exact (safe_u32.bind fun _ => safe_bool.bind fun _ => safe_str.bind fun _ => .pure _).meets
  | errorMsg => exact (safe_u16.bind fun _ => safe_str.bind fun _ => .pure _).meets
  | updateCmd => exact absurd rfl other
  | updateAck => exact (safe_bool.bind fun _ => safe_str.bind fun _ => .pure _).meets
  | uiHello => exact (safe_str.bind fun _ => .pure _).meets
  | uiHelloAck => exact (safe_u32.bind fun _ => .pure _).meets
  | uiSubscribe => exact (safe_str.bind fun _ => .pure _).meets
  | presence => exact meets_presence

theorem message_ensures (kind : Kind) : Ensures (kind.read size) kind.Bounded := by
  by_cases update : kind = .updateCmd
  · subst update
    exact updateCmd_ensures size
  · exact (meets_message size update).ensures

theorem sound_message (kind : Kind) : Sound (kind.read size) := by
  by_cases update : kind = .updateCmd
  · subst update
    exact sound_updateCmd size
  · exact (meets_message size update).safe.sound

theorem read_eq_none_iff (kind : Kind) (b : Bytes) :
    kind.read size ⟨b, none⟩ = none ↔ size = .int32 ∧ kind = .updateCmd ∧ NegativeRelease b := by
  by_cases update : kind = .updateCmd
  · subst update
    refine (read_updateCmd_eq_none size b).trans (and_congr_right fun _ => ?_)
    exact (and_iff_right rfl).symm
  · obtain ⟨m, r, done⟩ := (meets_message size update).safe.returns ⟨b, none⟩
    rw [done]
    exact iff_of_false (nomatch ·) fun panics => update panics.2.1

/-- The reader returns a rest of the input, and without an error a message within the limits. -/
def Kind.ReadsSafely (size : IntSize) (kind : Kind) (b : Bytes) : Prop :=
  ∃ m r, kind.read size ⟨b, none⟩ = some (m, r) ∧ r.b <:+ b ∧ (r.err = none → kind.Bounded m)

theorem readsSafely_iff (kind : Kind) (b : Bytes) :
    kind.ReadsSafely size b ↔ kind.read size ⟨b, none⟩ ≠ none := by
  constructor
  · rintro ⟨m, r, done, -⟩
    rw [done]
    exact Option.some_ne_none _
  · intro returns
    obtain ⟨⟨m, r⟩, done⟩ := Option.ne_none_iff_exists'.mp returns
    obtain ⟨used, split⟩ := (sound_message size kind done).rest
    exact ⟨m, r, done, ⟨used, split.symm⟩, message_ensures size kind done⟩

theorem unmarshalBody_marshal (fits : m.Fits) :
    Stats.unmarshalBody m.marshal = some (Stats.withoutRTTs (Kind.stats.unzoned m), none) := by
  rw [Stats.unmarshalBody, Stats.marshal, reads_body fits]
  rfl

/-- Only the zones can make a difference to a reader that leaves out the round trip times. -/
theorem withoutRTTs_unzoned_eq_iff (m : Stats) :
    Stats.withoutRTTs (Kind.stats.unzoned m) = m.withoutRTTs ↔ Kind.stats.ZoneFree m := by
  rw [← unzoned_eq_iff]
  constructor
  · intro same
    obtain ⟨unixMilli, rxBytes, txBytes, peers, ips, forwards⟩ := m
    have ips := congrArg Stats.ips same
    exact congrArg (Stats.mk unixMilli rxBytes txBytes peers · forwards) ips
  · intro same
    rw [same]

theorem unmarshal_marshal_eq_iff (kind : Kind) {m : kind.Message}
    (fits : kind.Fits m) :
    kind.unmarshal size (kind.marshal m) = some (m, none) ↔ kind.ZoneFree m := by
  rw [unmarshal_marshal size kind fits, ← unzoned_eq_iff, Option.some_inj, Prod.mk.injEq]
  exact and_iff_left rfl

/-- **Codec of the control plane.** A message within the limits of the wire comes back as it was
sent, alone and in a frame, exactly when none of its addresses has a zone; a reader of the
statistics that stops after the forwards misses the round trip times only. On arbitrary bytes a
reader returns, within the input and the limits, exactly when it is not the reader of an update
with an `int` of 32 bits at a release length of `2 ^ 31` or more. -/
theorem controlPlaneCodec : (∀ (kind : Kind) (m : kind.Message), kind.Fits m →
      (kind.unmarshal size (kind.marshal m) = some (m, none) ↔ kind.ZoneFree m) ∧
      ∀ (type : UInt8) (seq : UInt32), headerLen + (kind.marshal m).length ≤ maxFrameBytes →
        ∃ frame, decodeFrame (encodeFrame type seq (kind.marshal m)) = .ok frame ∧
          frame.type = type ∧ frame.seq = seq ∧
          (kind.unmarshal size frame.payload = some (m, none) ↔ kind.ZoneFree m)) ∧
    (∀ m : Stats, m.Fits →
      (Stats.unmarshalBody m.marshal = some (m.withoutRTTs, none) ↔ Kind.stats.ZoneFree m)) ∧
    ∀ (kind : Kind) (b : Bytes), kind.ReadsSafely size b ↔
      ¬ (size = .int32 ∧ kind = .updateCmd ∧ NegativeRelease b) := by
  refine ⟨fun kind m fits => ?_, fun m fits => ?_, fun kind b => ?_⟩
  · have roundTrip := unmarshal_marshal_eq_iff size kind fits
    refine ⟨roundTrip, fun type seq framed => ?_⟩
    exact ⟨_, decodeFrame_encodeFrame type seq framed, rfl, rfl, roundTrip⟩
  · rw [unmarshalBody_marshal fits, Option.some_inj, Prod.mk.injEq, and_iff_left rfl]
    exact withoutRTTs_unzoned_eq_iff m
  · rw [readsSafely_iff, Ne, read_eq_none_iff]

/-- A node that announces itself with two public addresses. -/
def announced : Hello :=
  ⟨[0x74], [0x76, 0x31], .v4 0xcb007105#32, .v6 0x20010db8000000000000000000000001#128 []⟩

theorem announced_roundTrip :
    Kind.unmarshal .int32 .hello announced.marshal = some (announced, none) ∧
      Kind.ReadsSafely .int32 .updateCmd [1, 0, 0, 0, 0, 0, 1, 0x7b] := by
  have codec := controlPlaneCodec .int32
  have fits : Kind.Fits .hello announced := ⟨by decide, by decide, by decide, by decide⟩
  have zoneFree : Kind.ZoneFree .hello announced := by
    intro addr listed
    rcases List.mem_pair.mp listed with rfl | rfl
    · rfl
    · rfl
  refine ⟨((codec.1 .hello announced fits).1).mpr zoneFree, (codec.2.2 _ _).mpr fun wraps => ?_⟩
  exact absurd wraps.2.2 (by decide)

/-- A node that announces itself with a link-local address and its zone. -/
def zoned : Hello :=
  { announced with publicV6 := .v6 0xfe800000000000000000000000000001#128 "eth0".toList }

/-- With an `int` of 32 bits a release length of `2 ^ 31` makes the reader of an update panic, and
nowhere does the zone of an address come back. -/
theorem longRelease_panics : Kind.unmarshal .int32 .updateCmd [0, 0, 0, 0x80, 0, 0, 0] = none ∧
      Kind.Fits .hello zoned ∧ Kind.unmarshal .int64 .hello zoned.marshal ≠ some (zoned, none) := by
  refine ⟨by decide +kernel, ⟨by decide, by decide, by decide, by decide⟩, by decide +kernel⟩

end Wire
