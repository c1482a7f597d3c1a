import WireguardMesh.Device.Sections
import WireguardMesh.Tunnel.Desired

/-! # The section of one peer

`ApplyDesiredConfig` writes the section of a desired peer from a snapshot of the device. The
section adds the prefixes that the peer wants and did not have, removes those it had and does not
want, and sets keepalive and endpoint; run on a device that still has the peer of the snapshot, it
is a visit of the peer (`runLines_peerSection`).
-/

namespace Tunnel

open Core GoText Net Wireguard

variable {K : Type} [DecidableEq K]

/-! ## The snapshot -/

/-- What `readLivePeers` finds out about a peer. -/
def liveOf (dev : Device K) (peer : Peer) : LivePeer where
  endpoint := (peer.endpoint.map addrPortString).getD []
  keepalive := peer.keepalive
  allowed := (dev.allowedips.entriesForPeer peer.ref).foldl (fun m p => m.insert p.string ()) ∅

theorem readLine_entries (m : GoMap K LivePeer) (key : K) (entries : List Prefix) :
    ∀ live : LivePeer,
      (entries.map fun p => GetLine.allowedIP p.string).foldl readLine (m.insert key live, some key) =
        (m.insert key { live with
          allowed := entries.foldl (fun m p => m.insert p.string ()) live.allowed }, some key) := by
  induction entries with
  | nil => exact fun _ => rfl
  | cons p entries ih =>
    intro live
    simp only [List.map_cons, List.foldl_cons, readLine, readLine.onCur, GoMap.modify_insert]
    exact ih _

theorem readLine_peerLines (dev : Device K) (m : GoMap K LivePeer) (cur : Option K) (key : K)
    (peer : Peer) : (peerLines dev key peer).foldl readLine (m, cur) =
      (m.insert key (liveOf dev peer), some key) := by
  rw [peerLines, List.cons_append, List.foldl_cons, List.foldl_append, List.foldl_cons, liveOf]
  cases peer.endpoint with
  | none =>
    simp only [Option.map_none, Option.toList_none, List.foldl_nil, Option.getD_none, readLine,
      readLine.onCur, GoMap.modify_insert]
    exact readLine_entries m key _ _
  | some e =>
    simp only [Option.map_some, Option.toList_some, List.foldl_cons, List.foldl_nil,
      Option.getD_some, readLine, readLine.onCur, GoMap.modify_insert]
    exact readLine_entries m key _ _

/-- **The snapshot.** -/
theorem lookup_readLivePeers (order : RangeOrder (Site K)) (dev : Device K) (key : K) :
    (readLivePeers order dev).lookup key = (dev.peers.lookup key).map (liveOf dev) := by
  have read : ∀ (entries : List (Sigma fun _ : K => Peer)) (m : GoMap K LivePeer) (cur : Option K),
      ((entries.flatMap fun e => peerLines dev e.1 e.2).foldl readLine (m, cur)).1 =
        entries.foldl (fun m e => m.insert e.1 (liveOf dev e.2)) m := by
    intro entries
    induction entries with
    | nil => exact fun _ _ => rfl
    | cons e entries ih =>
      intro m cur
      rw [List.flatMap_cons, List.foldl_append, readLine_peerLines, ih, List.foldl_cons]
  have perm := order.perm .keyMap dev.peers.entries
  have distinct : (order.range .keyMap dev.peers.entries).NodupKeys :=
    (List.perm_nodupKeys perm).mpr dev.peers.nodupKeys
  refine Option.ext fun live => ?_
  rw [readLivePeers, ipcGetOperation, read, GoMap.lookup_foldl_insert_of_nodup distinct,
    Option.map_eq_some_iff]
  simp [← Option.mem_def, AList.mem_lookup_iff]

omit [DecidableEq K] in
theorem mem_keys_allowed {dev : Device K} {peer : Peer} {text : List Char} :
    text ∈ (liveOf dev peer).allowed.keys ↔
      ∃ p ∈ dev.allowedips.entriesForPeer peer.ref, p.string = text := by
  rw [← AList.mem_keys]
  exact GoMap.mem_foldl_insert.trans (or_iff_right (AList.notMem_empty text))

theorem mem_keys_allowed_iff {dev : Device K} {key : K} {peer : Peer}
    (found : dev.peers.lookup key = some peer) (q : ValidPrefix) :
    q.1.masked.string ∈ (liveOf dev peer).allowed.keys ↔ dev.Routes q key := by
  obtain ⟨valid, masked⟩ := Prefix.masked_self q.2 _ rfl
  have setup : dev.setup key = some peer.setup := by rw [Device.setup, found]; rfl
  rw [mem_keys_allowed, Device.Routes, setup]
  simp only [Option.some.injEq, exists_eq_left', AllowedIPs.mem_entriesForPeer]
  constructor
  · rintro ⟨p, ⟨valid', _, owner⟩, same⟩
    rw [← AllowedIPs.find_masked q.2, ← Prefix.string_injective valid' valid same]
    exact owner
  · intro owner
    exact ⟨_, ⟨valid, masked, (AllowedIPs.find_masked q.2).trans owner⟩, rfl⟩

/-! ## Canonical texts -/

/-- A text that stands for a prefix: one with a length, or a bare address. -/
def IsPrefixText (text : List Char) : Prop :=
  (parsePrefix text).isSome = true ∨ (parseAddr text).isSome = true

instance (text : List Char) : Decidable (IsPrefixText text) :=
  inferInstanceAs (Decidable (_ ∨ _))

theorem prefixFrom_full {addr : Addr} (present : addr ≠ .zero) :
    (prefixFrom addr addr.bitLen).isValid = true ∧
      (prefixFrom addr addr.bitLen).masked = prefixFrom addr addr.bitLen := by
  have nonzero : addr.withoutZone ≠ .zero := by
    cases addr with
    | zero => exact absurd rfl present
    | v4 a => exact Addr.noConfusion
    | v6 a zone => exact Addr.noConfusion
  obtain ⟨ip, bits⟩ := prefixFrom_of_fits addr nonzero (le_rfl)
  have valid : (prefixFrom addr addr.bitLen).isValid = true := by
    rw [Prefix.isValid, bits]
    exact decide_eq_true (Nat.succ_pos _)
  refine ⟨valid, ?_⟩
  obtain ⟨maskedIp, maskedBits, maskedValid⟩ := Prefix.masked_parts valid
  have length : (prefixFrom addr addr.bitLen).bits = addr.bitLen := by
    rw [Prefix.bits, bits, Nat.add_sub_cancel]
  apply Prefix.ext
  · rw [maskedIp, ip, length]
    cases addr <;> simp [Addr.withoutZone, Addr.mask, Addr.bitLen]
  · rw [Prefix.bitsPlusOne_of_isValid maskedValid, maskedBits, Prefix.bitsPlusOne_of_isValid valid]

theorem canonicalPrefix_eq {text : List Char} (isPrefix : IsPrefixText text) :
    ∃ p : Prefix, p.isValid = true ∧ p.masked = p ∧ canonicalPrefix text = p.string := by
  rw [canonicalPrefix]
  cases parsed : parsePrefix text with
  | some p =>
    have valid := isValid_of_parsePrefix parsed
    exact ⟨p.masked, (Prefix.masked_parts valid).2.2, Prefix.masked_idem valid, rfl⟩
  | none =>
    rw [IsPrefixText, parsed] at isPrefix
    obtain ⟨addr, read⟩ := Option.isSome_iff_exists.mp (isPrefix.resolve_left Bool.false_ne_true)
    have present : addr ≠ .zero := by
      rintro rfl
      rcases parseAddr_family read with ⟨six, _⟩ | ⟨_, four, _⟩
      · cases six
      · cases four
    obtain ⟨valid, masked⟩ := prefixFrom_full present
    rw [read]
    exact ⟨_, valid, masked, rfl⟩

omit [DecidableEq K] in
theorem added_string {p : Prefix} (valid : p.isValid = true) :
    (Line.allowedIP p.string : Line K).added = some p := by
  have parsed := parsePrefix_string valid
  rw [Line.added.eq_def]
  split
  · next rest same =>
    rw [Line.allowedIP.inj same, parsePrefix_head (by decide) (by decide)] at parsed
    cases parsed
  · next same => rw [← Line.allowedIP.inj same, parsed]
  · next other => exact absurd rfl (other _)

omit [DecidableEq K] in
theorem removed_string {p : Prefix} (valid : p.isValid = true) :
    (Line.allowedIP p.string : Line K).removed = none := by
  have added := added_string (K := K) valid
  rw [Line.removed.eq_def]
  split
  · next rest same =>
    rw [Line.allowedIP.inj same] at added
    cases added
  · rfl

/-! ## The body of a section -/

/-- A desired peer whose lines the device accepts. -/
structure PeerFits (p : DesiredPeer) : Prop where
  prefixes : ∀ text ∈ allowedTexts p, IsPrefixText text
  endpoint : p.endpoint = "" ∨ (parseAddrPort p.endpoint.toList).isSome = true
  keepalive : 0 ≤ p.keepalive ∧ p.keepalive < 65536

def Wanted (p : DesiredPeer) (q : ValidPrefix) : Prop :=
  q.1.masked.string ∈ wantedPrefixes p

theorem PeerFits.wanted_text {p : DesiredPeer} (fits : PeerFits p) {text : List Char}
    (member : text ∈ wantedPrefixes p) :
    ∃ pfx : Prefix, pfx.isValid = true ∧ pfx.masked = pfx ∧ text = pfx.string := by
  obtain ⟨cidr, given, rfl⟩ := List.mem_map.mp member
  exact canonicalPrefix_eq (fits.prefixes cidr given)

section

variable {order : RangeOrder (Site K)} {prevEp : GoMap String String} {dev : Device K} {key : K}
  {p : DesiredPeer}

/-- The body of the section of a peer, from the snapshot of a device. -/
def body (order : RangeOrder (Site K)) (prevEp : GoMap String String) (dev : Device K) (key : K)
    (p : DesiredPeer) : List (Line K) :=
  peerBuf order prevEp key ((readLivePeers order dev).lookup key) p

theorem mem_body {l : Line K} : l ∈ body order prevEp dev key p ↔
    l ∈ endpointLines prevEp ((readLivePeers order dev).lookup key) p ∨
    l ∈ addLines ((readLivePeers order dev).lookup key) p ∨
    l ∈ removeLines order key ((readLivePeers order dev).lookup key) p ∨
    l ∈ keepaliveLines ((readLivePeers order dev).lookup key) p := by
  rw [body, peerBuf, List.mem_append, List.mem_append, List.mem_append, or_assoc, or_assoc]

omit [DecidableEq K] in
theorem eq_of_mem_endpointLines {cur : Option LivePeer} {l : Line K}
    (member : l ∈ endpointLines prevEp cur p) :
    p.endpoint ≠ "" ∧ l = .endpoint p.endpoint.toList := by
  rw [endpointLines] at member
  split at member
  · next written => exact ⟨written.1, List.mem_singleton.mp member⟩
  · cases member

omit [DecidableEq K] in
theorem eq_of_mem_keepaliveLines {cur : Option LivePeer} {l : Line K}
    (member : l ∈ keepaliveLines cur p) : l = .keepalive p.keepalive := by
  rw [keepaliveLines] at member
  split at member
  · exact List.mem_singleton.mp member
  · cases member

theorem mem_addLines {l : Line K} : l ∈ addLines ((readLivePeers order dev).lookup key) p ↔
      ∃ text ∈ wantedPrefixes p, l = .allowedIP text ∧
        ∀ peer, dev.peers.lookup key = some peer → text ∉ (liveOf dev peer).allowed.keys := by
  rw [addLines, List.mem_map, lookup_readLivePeers]
  simp only [List.mem_filter, and_assoc]
  refine exists_congr fun text => and_congr_right fun _ => and_comm.trans (and_congr eq_comm ?_)
  cases dev.peers.lookup key with
  | none => simp
  | some peer => simp

theorem mem_removeLines {l : Line K} :
    l ∈ removeLines order key ((readLivePeers order dev).lookup key) p ↔
      ∃ peer, dev.peers.lookup key = some peer ∧ ∃ text ∈ (liveOf dev peer).allowed.keys,
        text ∉ wantedPrefixes p ∧ l = .allowedIP ('-' :: text) := by
  rw [lookup_readLivePeers]
  cases dev.peers.lookup key with
  | none => simp [removeLines]
  | some peer =>
    rw [Option.map_some, removeLines, List.mem_map]
    simp only [Option.some.injEq, exists_eq_left', List.mem_filter, RangeOrder.mem_range,
      decide_eq_true_eq, and_assoc]
    exact exists_congr fun text => and_congr_right fun _ => and_congr_right fun _ => eq_comm

theorem body_adds (fits : PeerFits p) (q : ValidPrefix) :
    (∃ l ∈ body order prevEp dev key p, l.Adds q) ↔ Wanted p q ∧ ¬ dev.Routes q key := by
  obtain ⟨valid, masked⟩ := Prefix.masked_self q.2 _ rfl
  constructor
  · rintro ⟨l, member, pfx, added, same⟩
    rcases mem_body.mp member with member | member | member | member
    · rw [(eq_of_mem_endpointLines member).2] at added
      cases added
    · obtain ⟨text, wanted, rfl, absent⟩ := mem_addLines.mp member
      obtain ⟨canonical, valid', masked', rfl⟩ := fits.wanted_text wanted
      cases (added_string valid').symm.trans added
      have text : q.1.masked.string = pfx.string := by rw [same, masked']
      refine ⟨by rw [Wanted, text]; exact wanted, ?_⟩
      intro routed
      have ⟨own, found, _⟩ := routed
      obtain ⟨peer, known, _⟩ := Option.map_eq_some_iff.mp found
      exact absent peer known (text ▸ (mem_keys_allowed_iff known q).mpr routed)
    · obtain ⟨_, _, text, _, _, rfl⟩ := mem_removeLines.mp member
      cases added
    · rw [eq_of_mem_keepaliveLines member] at added
      cases added
  · rintro ⟨wanted, foreign⟩
    refine ⟨.allowedIP q.1.masked.string, mem_body.mpr (.inr (.inl (mem_addLines.mpr
      ⟨_, wanted, rfl, ?_⟩))), q.1.masked, added_string valid, masked.symm⟩
    intro peer known present
    exact foreign ((mem_keys_allowed_iff known q).mp present)

theorem body_removes (fits : PeerFits p) (q : ValidPrefix) :
    (∃ l ∈ body order prevEp dev key p, l.Removes q) ↔ dev.Routes q key ∧ ¬ Wanted p q := by
  obtain ⟨valid, masked⟩ := Prefix.masked_self q.2 _ rfl
  constructor
  · rintro ⟨l, member, pfx, removed, same⟩
    rcases mem_body.mp member with member | member | member | member
    · rw [(eq_of_mem_endpointLines member).2] at removed
      cases removed
    · obtain ⟨text, wanted, rfl, _⟩ := mem_addLines.mp member
      obtain ⟨canonical, valid', _, rfl⟩ := fits.wanted_text wanted
      cases (removed_string valid').symm.trans removed
    · obtain ⟨peer, known, text, present, unwanted, rfl⟩ := mem_removeLines.mp member
      obtain ⟨entry, owned, rfl⟩ := mem_keys_allowed.mp present
      obtain ⟨valid', masked', _⟩ := AllowedIPs.mem_entriesForPeer.mp owned
      cases (parsePrefix_string valid').symm.trans removed
      have text : q.1.masked.string = pfx.string := by rw [same, masked']
      exact ⟨(mem_keys_allowed_iff known q).mp (text ▸ present), by rw [Wanted, text]; exact unwanted⟩
    · rw [eq_of_mem_keepaliveLines member] at removed
      cases removed
  · rintro ⟨routed, unwanted⟩
    have ⟨own, found, _⟩ := routed
    obtain ⟨peer, known, _⟩ := Option.map_eq_some_iff.mp found
    refine ⟨.allowedIP ('-' :: q.1.masked.string), mem_body.mpr (.inr (.inr (.inl
      (mem_removeLines.mpr ⟨peer, known, _, (mem_keys_allowed_iff known q).mpr routed, unwanted,
        rfl⟩)))), q.1.masked, parsePrefix_string valid, masked.symm⟩

theorem body_sets (fits : PeerFits p) : ∀ l ∈ body order prevEp dev key p, l.Sets := by
  intro l member
  rcases mem_body.mp member with member | member | member | member
  · obtain ⟨nonempty, rfl⟩ := eq_of_mem_endpointLines member
    exact fits.endpoint.resolve_left nonempty
  · obtain ⟨text, wanted, rfl, _⟩ := mem_addLines.mp member
    obtain ⟨canonical, valid, _, rfl⟩ := fits.wanted_text wanted
    rw [Line.Sets, added_string valid]
    rfl
  · obtain ⟨peer, _, text, present, _, rfl⟩ := mem_removeLines.mp member
    obtain ⟨entry, owned, rfl⟩ := mem_keys_allowed.mp present
    have parsed : (Line.allowedIP ('-' :: entry.string) : Line K).removed = some entry :=
      parsePrefix_string (AllowedIPs.mem_entriesForPeer.mp owned).1
    rw [Line.Sets, parsed]
    rfl
  · rw [eq_of_mem_keepaliveLines member]
    exact fits.keepalive

theorem body_kept (fits : PeerFits p) : ∀ l ∈ body order prevEp dev key p,
    ∀ l' ∈ body order prevEp dev key p, ∀ q, l.Adds q → ¬ l'.Removes q := by
  intro l member l' member' q adds removes
  have wanted := ((body_adds fits q).mp ⟨l, member, adds⟩).1
  exact ((body_removes fits q).mp ⟨l', member', removes⟩).2 wanted

/-! ## Settings of a peer -/

omit [DecidableEq K] in
theorem changes_append (lines lines' : List (Line K)) (own : Setup) :
    changes (lines ++ lines') own = changes lines' (changes lines own) :=
  List.foldl_append

omit [DecidableEq K] in
theorem changes_allowedIP {α : Type} (list : List α) (text : α → List Char) (own : Setup) :
    changes (list.map fun a => (.allowedIP (text a) : Line K)) own = own := by
  induction list with
  | nil => rfl
  | cons a list ih => exact ih

/-- The endpoint line is written: the peer is new, or its endpoint is not the desired one, which
the Master changed. -/
def EndpointWritten (prevEp : GoMap String String) (dev : Device K) (key : K) (p : DesiredPeer) :
    Prop :=
  p.endpoint ≠ "" ∧ ∀ own, dev.setup key = some own →
    (own.endpoint.map addrPortString).getD [] ≠ p.endpoint.toList ∧
      prevEp.getD p.publicKey "" ≠ p.endpoint

theorem endpointLines_eq (order : RangeOrder (Site K)) (prevEp : GoMap String String)
    (dev : Device K) (key : K) (p : DesiredPeer) : (EndpointWritten prevEp dev key p ∧
      endpointLines prevEp ((readLivePeers order dev).lookup key) p =
        [(.endpoint p.endpoint.toList : Line K)]) ∨ (¬ EndpointWritten prevEp dev key p ∧
      endpointLines prevEp ((readLivePeers order dev).lookup key) p = ([] : List (Line K))) := by
  have written : (p.endpoint ≠ "" ∧ (((readLivePeers order dev).lookup key).all fun cur =>
      cur.endpoint ≠ p.endpoint.toList && prevEp.getD p.publicKey "" ≠ p.endpoint) = true) ↔
        EndpointWritten prevEp dev key p := by
    rw [EndpointWritten, lookup_readLivePeers, Device.setup]
    cases dev.peers.lookup key with
    | none => simp
    | some peer => simp [liveOf, Peer.setup]
  rw [endpointLines]
  split
  · next yes => exact .inl ⟨written.mp yes, rfl⟩
  · next no => exact .inr ⟨fun yes => no (written.mpr yes), rfl⟩

theorem keepalive_keepaliveLines (fits : PeerFits p) {own : Setup}
    (same : own.keepalive = (dev.setupOrNew key).keepalive) :
    ((changes (keepaliveLines ((readLivePeers order dev).lookup key) p : List (Line K)) own).keepalive
      : Int) = p.keepalive := by
  have positive := fits.keepalive.1
  rw [keepaliveLines, lookup_readLivePeers]
  split
  · exact Int.toNat_of_nonneg positive
  · next kept =>
    change (own.keepalive : Int) = p.keepalive
    rw [Device.setupOrNew, Device.setup] at same
    cases found : dev.peers.lookup key with
    | none =>
      simp [found] at kept same
      omega
    | some peer =>
      simp [found, liveOf, Peer.setup] at kept same
      omega

omit [DecidableEq K] in
theorem keepaliveLines_keeps (cur : Option LivePeer) (own : Setup) :
    (changes (keepaliveLines cur p : List (Line K)) own).ref = own.ref ∧
      (changes (keepaliveLines cur p : List (Line K)) own).endpoint = own.endpoint := by
  rw [keepaliveLines]
  split <;> exact ⟨rfl, rfl⟩

theorem changes_body_eq (own : Setup) : changes (body order prevEp dev key p) own =
    changes (keepaliveLines ((readLivePeers order dev).lookup key) p : List (Line K))
      (changes (endpointLines prevEp ((readLivePeers order dev).lookup key) p : List (Line K))
        own) := by
  have removes : ∀ own, changes (removeLines order key ((readLivePeers order dev).lookup key) p) own =
      own := by
    intro own
    rw [removeLines.eq_def]
    split
    · rfl
    · exact changes_allowedIP _ _ own
  rw [body, peerBuf, changes_append, changes_append, changes_append, removes, addLines]
  exact congrArg _ (changes_allowedIP _ (fun text => text) _)

variable (order prevEp) in
/-- **What a section sets.** -/
theorem changes_body (fits : PeerFits p) {own : Setup}
    (same : own.keepalive = (dev.setupOrNew key).keepalive) :
    (changes (body order prevEp dev key p) own).ref = own.ref ∧
    ((changes (body order prevEp dev key p) own).keepalive : Int) = p.keepalive ∧
    (EndpointWritten prevEp dev key p →
      (changes (body order prevEp dev key p) own).endpoint = parseAddrPort p.endpoint.toList) ∧
    (¬ EndpointWritten prevEp dev key p →
      (changes (body order prevEp dev key p) own).endpoint = own.endpoint) := by
  rw [changes_body_eq]
  rcases endpointLines_eq order prevEp dev key p with ⟨written, lines⟩ | ⟨unwritten, lines⟩
  · have parsed := fits.endpoint.resolve_left written.1
    obtain ⟨ref, endpoint⟩ := keepaliveLines_keeps (K := K) (p := p)
      ((readLivePeers order dev).lookup key)
      ((.endpoint p.endpoint.toList : Line K).onSetup own)
    rw [lines]
    refine ⟨ref, keepalive_keepaliveLines fits same, fun _ => endpoint.trans ?_,
      fun unwritten => absurd written unwritten⟩
    rw [Line.onSetup]
    exact Option.or_of_isSome parsed
  · obtain ⟨ref, endpoint⟩ := keepaliveLines_keeps (K := K) (p := p)
      ((readLivePeers order dev).lookup key) own
    rw [lines]
    exact ⟨ref, keepalive_keepaliveLines fits same, fun written => absurd written unwritten,
      fun _ => endpoint⟩

variable (order prevEp dev) in
/-- **The section of a peer.** An unchanged peer has none, and needs none. -/
theorem runLines_peerSection (ops : KeyOps K) (listen : UInt16 → Option UInt16) {s : SetState K}
    (sound : s.dev.Sound) (notSelf : s.dev.publicKey ≠ key)
    (room : (s.dev.setup key).isSome = true ∨ s.dev.peers.keys.length < maxPeers)
    (fits : PeerFits p) (snapshot : s.dev.setup key = dev.setup key) :
    ∃ s', runLines ops listen (peerSection order prevEp (readLivePeers order dev) key p) s =
        (s', none) ∧ s.dev.Visited s'.dev key (body order prevEp dev key p) := by
  rw [peerSection]
  split
  · next unchanged =>
    have empty : body order prevEp dev key p = [] := unchanged.2
    have present : (s.dev.setup key).isSome = true := by
      rw [snapshot, Device.setup, Option.isSome_map]
      rw [lookup_readLivePeers, Option.isSome_map] at unchanged
      exact unchanged.1
    rw [empty]
    exact ⟨s, rfl, .refl sound present⟩
  · exact runLines_section ops listen sound notSelf room (body_sets fits) (body_kept fits)

end

end Tunnel
