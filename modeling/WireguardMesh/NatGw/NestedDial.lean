import WireguardMesh.Net.Addr

/-! # The nested-dial filter

`natgw_filter.go`: a NAT client must not reach the upstream of the gateway through the tunnel, so
the inbound filter of the device drops its packets to the upstream's address and port. The filter
walks the extension headers of an IPv6 packet; the length byte of a header is increased before it
is widened, so a header of the greatest length has length zero, and the loop may stay where it is
for ever (`selfHeader_hangs`). Without headers of that length the loop ends and finds what the walk
along the headers finds (`isNestedUpstreamDial_exact`).
-/

namespace NatGw

open Net

/-- The byte of a packet at a position within its length. -/
def byteAt (packet : List UInt8) (i : Nat) : UInt8 :=
  packet.getD i 0

/-- `binary.BigEndian.Uint16`. -/
def uint16At (packet : List UInt8) (i : Nat) : Nat :=
  (byteAt packet i).toNat * 256 + (byteAt packet (i + 1)).toNat

/-- `netip.AddrFromSlice` of the four bytes at a position. -/
def addr4At (packet : List UInt8) (i : Nat) : Addr :=
  .v4 (Addr.ofOctets (byteAt packet i).toNat (byteAt packet (i + 1)).toNat
    (byteAt packet (i + 2)).toNat (byteAt packet (i + 3)).toNat)

/-- `netip.AddrFromSlice` of the sixteen bytes at a position. -/
def addr16At (packet : List UInt8) (i : Nat) : Addr :=
  .v6 (Addr.ofBytes (((packet.drop i).take 16).map UInt8.toNat)) []

/-- Hop-by-hop options, routing and destination options: headers with a length byte. -/
def Options (proto : UInt8) : Prop :=
  proto = 0 ∨ proto = 43 ∨ proto = 60

instance (proto : UInt8) : Decidable (Options proto) :=
  inferInstanceAs (Decidable (proto = 0 ∨ proto = 43 ∨ proto = 60))

/-- One round of the loop over the extension headers; `none` when the loop ends. -/
def nextHeader (packet : List UInt8) (proto : UInt8) (offset : Nat) : Option (UInt8 × Nat) :=
  if proto ≠ 6 ∧ proto ≠ 17 ∧ proto ≠ 59 ∧ offset + 8 ≤ packet.length then
    if Options proto then
      -- the sum is a byte
      some (byteAt packet offset, offset + (byteAt packet (offset + 1) + 1).toNat * 8)
    else if proto = 44 then some (byteAt packet offset, offset + 8)
    else none
  else none

/-- The loop, for so many rounds. -/
def headerLoop (packet : List UInt8) : Nat → UInt8 → Nat → Option (UInt8 × Nat)
  | 0, _, _ => none
  | rounds + 1, proto, offset =>
    match nextHeader packet proto offset with
    | none => some (proto, offset)
    | some (proto, offset) => headerLoop packet rounds proto offset

/-- The branch of `isNestedUpstreamDial` for IPv4. -/
def isDial4 (packet : List UInt8) (upIP : Addr) (upPort : Nat) : Bool :=
  if packet.length < 20 then false
  else
    let ihl := (byteAt packet 0).toNat % 16 * 4
    if ihl < 20 ∨ packet.length < ihl then false
    else if (addr4At packet 16).unmap ≠ upIP.unmap then false
    else if byteAt packet 9 ≠ 6 ∧ byteAt packet 9 ≠ 17 then false
    else if packet.length < ihl + 4 then false
    else uint16At packet (ihl + 2) = upPort

/-- The branch of `isNestedUpstreamDial` for IPv6, with a bound on the rounds of its loop; `none`
while it runs. -/
def isDial6 (rounds : Nat) (packet : List UInt8) (upIP : Addr) (upPort : Nat) : Option Bool :=
  if packet.length < 40 then some false
  else if addr16At packet 24 ≠ upIP then some false
  else (headerLoop packet rounds (byteAt packet 6) 40).map fun (proto, offset) =>
    if proto ≠ 6 ∧ proto ≠ 17 then false
    else if packet.length < offset + 4 then false
    else uint16At packet (offset + 2) = upPort

def isNestedUpstreamDial (rounds : Nat) (packet : List UInt8) (upIP : Addr) (upPort : Nat) :
    Option Bool :=
  if packet.length < 1 then some false
  else if (byteAt packet 0).toNat / 16 = 4 then some (isDial4 packet upIP upPort)
  else if (byteAt packet 0).toNat / 16 = 6 then isDial6 rounds packet upIP upPort
  else some false

/-! ## The walk over the headers -/

/-- From a header of the given kind at an offset, the walk reaches another: over options of `(len +
1) * 8` bytes and fragment headers within the packet. -/
inductive UpperHeader (packet : List UInt8) : UInt8 → Nat → UInt8 → Nat → Prop
  | here (proto : UInt8) (offset : Nat) : UpperHeader packet proto offset proto offset
  | options {proto upper : UInt8} {offset last : Nat} : Options proto →
      offset + ((byteAt packet (offset + 1)).toNat + 1) * 8 ≤ packet.length →
      UpperHeader packet (byteAt packet offset)
        (offset + ((byteAt packet (offset + 1)).toNat + 1) * 8) upper last →
      UpperHeader packet proto offset upper last
  | fragment {upper : UInt8} {offset last : Nat} : offset + 8 ≤ packet.length →
      UpperHeader packet (byteAt packet offset) (offset + 8) upper last →
      UpperHeader packet 44 offset upper last

/-- A TCP or UDP header for the port. -/
def DialAt (packet : List UInt8) (upPort : Nat) (proto : UInt8) (offset : Nat) : Prop :=
  (proto = 6 ∨ proto = 17) ∧ offset + 4 ≤ packet.length ∧ uint16At packet (offset + 2) = upPort

/-- The packet is a dial of the upstream. -/
def NestedDial (packet : List UInt8) (upIP : Addr) (upPort : Nat) : Prop :=
  (20 ≤ packet.length ∧ (byteAt packet 0).toNat / 16 = 4 ∧
      5 ≤ (byteAt packet 0).toNat % 16 ∧ (addr4At packet 16).unmap = upIP.unmap ∧
      DialAt packet upPort (byteAt packet 9) ((byteAt packet 0).toNat % 16 * 4)) ∨
    (40 ≤ packet.length ∧ (byteAt packet 0).toNat / 16 = 6 ∧ addr16At packet 24 = upIP ∧
      ∃ proto offset, UpperHeader packet (byteAt packet 6) 40 proto offset ∧
        DialAt packet upPort proto offset)

/-- No header on the walk has the greatest length, unless what follows it ends the walk. -/
def Sized (packet : List UInt8) (first : UInt8) (start : Nat) : Prop :=
  ∀ proto offset, UpperHeader packet first start proto offset → Options proto →
    offset + 8 ≤ packet.length → byteAt packet (offset + 1) = 255 →
      byteAt packet offset ∉ [0, 6, 17, 43, 44, 60]

/-! ## The loop follows the walk -/

variable {packet : List UInt8} {proto upper : UInt8} {offset last : Nat}

theorem Options.not_dial (options : Options proto) : ¬ (proto = 6 ∨ proto = 17) := by
  obtain rfl | rfl | rfl := options <;> decide

theorem Options.ne_fragment (options : Options proto) : proto ≠ 44 := by
  obtain rfl | rfl | rfl := options <;> decide

/-- The walk ends at a header that is no extension header, or that does not lie within the
packet. -/
theorem UpperHeader.eq_of_ends (walk : UpperHeader packet proto offset upper last)
    (options : Options proto →
      packet.length < offset + ((byteAt packet (offset + 1)).toNat + 1) * 8)
    (fragment : proto = 44 → packet.length < offset + 8) : upper = proto ∧ last = offset := by
  cases walk with
  | here => exact ⟨rfl, rfl⟩
  | options kind fits _ => exact (Nat.not_le_of_lt (options kind) fits).elim
  | fragment fits _ => exact (Nat.not_le_of_lt (fragment rfl) fits).elim

theorem nextHeader_eq_none (ended : nextHeader packet proto offset = none) :
    (Options proto → packet.length < offset + ((byteAt packet (offset + 1)).toNat + 1) * 8) ∧
      (proto = 44 → packet.length < offset + 8) := by
  rw [nextHeader] at ended
  split at ended
  · split at ended
    · cases ended
    · next other =>
      split at ended
      · cases ended
      · next notFragment =>
        exact ⟨fun kind => (other kind).elim, fun kind => (notFragment kind).elim⟩
  · next stop =>
    have short : Options proto ∨ proto = 44 → packet.length < offset + 8 := by
      intro kind
      by_contra fits
      refine stop ⟨?_, ?_, ?_, Nat.le_of_not_lt fits⟩ <;>
        obtain (rfl | rfl | rfl) | rfl := kind <;> decide
    refine ⟨fun kind => ?_, fun kind => short (.inr kind)⟩
    have := short (.inl kind)
    omega

theorem nextHeader_of_other (options : ¬ Options proto) (fragment : proto ≠ 44) :
    nextHeader packet proto offset = none := by
  rw [nextHeader, if_neg options, if_neg fragment]
  split <;> rfl

theorem nextHeader_of_short (short : packet.length < offset + 8) :
    nextHeader packet proto offset = none := by
  rw [nextHeader, if_neg fun go => Nat.not_le_of_lt short go.2.2.2]

/-- The state of the loop after a round has the same transport headers before it, further on. -/
structure Follows (packet : List UInt8) (proto : UInt8) (offset : Nat) (next : UInt8)
    (after : Nat) : Prop where
  further : offset + 8 ≤ after
  within : after ≤ packet.length
  back : ∀ {upper last}, UpperHeader packet next after upper last →
    UpperHeader packet proto offset upper last
  on : ∀ {upper last}, UpperHeader packet proto offset upper last → upper = 6 ∨ upper = 17 →
    UpperHeader packet next after upper last

/-- The walk finds no transport header, and the loop ends without one as well. -/
structure Fails (packet : List UInt8) (proto : UInt8) (offset : Nat) (next : UInt8)
    (after : Nat) : Prop where
  walk : ∀ {upper last}, UpperHeader packet proto offset upper last → ¬ (upper = 6 ∨ upper = 17)
  ends : nextHeader packet next after = none
  loop : ¬ (next = 6 ∨ next = 17) ∨ packet.length < after

theorem options_round (kind : Options proto) (length : byteAt packet (offset + 1) ≠ 255) :
    Follows packet proto offset (byteAt packet offset)
        (offset + (byteAt packet (offset + 1) + 1).toNat * 8) ∨
      Fails packet proto offset (byteAt packet offset)
        (offset + (byteAt packet (offset + 1) + 1).toNat * 8) := by
  have widened : (byteAt packet (offset + 1) + 1).toNat =
      (byteAt packet (offset + 1)).toNat + 1 := by
    have differs : (byteAt packet (offset + 1)).toNat ≠ 255 :=
      fun same => length (UInt8.toNat_inj.mp same)
    have bound := (byteAt packet (offset + 1)).toNat_lt
    rw [UInt8.toNat_add]
    change ((byteAt packet (offset + 1)).toNat + 1) % 256 = _
    omega
  rw [widened]
  by_cases fits : offset + ((byteAt packet (offset + 1)).toNat + 1) * 8 ≤ packet.length
  · refine .inl ⟨by omega, fits, fun walk => .options kind fits walk, fun walk dial => ?_⟩
    cases walk with
    | here => exact (kind.not_dial dial).elim
    | options _ _ walk => exact walk
    | fragment _ _ => exact (kind.ne_fragment rfl).elim
  · refine .inr ⟨fun walk dial => ?_, nextHeader_of_short (by omega), .inr (by omega)⟩
    obtain ⟨rfl, -⟩ := walk.eq_of_ends (fun _ => by omega) fun same => (kind.ne_fragment same).elim
    exact kind.not_dial dial

theorem longest_round (kind : Options proto)
    (harmless : byteAt packet offset ∉ [0, 6, 17, 43, 44, 60]) :
    Fails packet proto offset (byteAt packet offset)
      (offset + (byteAt packet (offset + 1) + 1).toNat * 8) := by
  have notDial : ¬ (byteAt packet offset = 6 ∨ byteAt packet offset = 17) := by
    rintro (same | same) <;> (rw [same] at harmless; exact harmless (by decide))
  have notOptions : ¬ Options (byteAt packet offset) := by
    rintro (same | same | same) <;> (rw [same] at harmless; exact harmless (by decide))
  have notFragment : byteAt packet offset ≠ 44 := by
    intro same
    rw [same] at harmless
    exact harmless (by decide)
  refine ⟨fun walk dial => ?_, nextHeader_of_other notOptions notFragment, .inl notDial⟩
  cases walk with
  | here => exact kind.not_dial dial
  | options _ _ walk =>
    obtain ⟨rfl, -⟩ := walk.eq_of_ends (fun kind => (notOptions kind).elim)
      fun same => (notFragment same).elim
    exact notDial dial
  | fragment _ _ => exact kind.ne_fragment rfl

/-- A round of the loop is a step of the walk, or both end without a transport header. -/
theorem nextHeader_eq_some {next : UInt8} {after : Nat} (sized : Sized packet proto offset)
    (round : nextHeader packet proto offset = some (next, after)) : offset + 8 ≤ packet.length ∧
      (Follows packet proto offset next after ∨ Fails packet proto offset next after) := by
  rw [nextHeader] at round
  split at round
  · next go =>
    refine ⟨go.2.2.2, ?_⟩
    split at round
    · next kind =>
      cases round
      by_cases length : byteAt packet (offset + 1) = 255
      · exact .inr (longest_round kind
          (sized proto offset (.here _ _) kind go.2.2.2 length))
      · exact options_round kind length
    · split at round
      · next kind =>
        subst kind
        cases round
        refine .inl ⟨le_rfl, go.2.2.2, fun walk => .fragment go.2.2.2 walk,
          fun walk dial => ?_⟩
        cases walk with
        | here => exact absurd dial (by decide)
        | options kind _ _ => exact (kind.ne_fragment rfl).elim
        | fragment _ walk => exact walk
      · cases round
  · cases round

/-- **The loop ends at the transport header of the walk.** By induction on the bytes left; every
round takes at least eight. -/
theorem headerLoop_spec (sized : Sized packet proto offset) : ∃ rounds proto' offset',
      (∀ more, rounds ≤ more → headerLoop packet more proto offset = some (proto', offset')) ∧
        ∀ port, DialAt packet port proto' offset' ↔
          ∃ upper last, UpperHeader packet proto offset upper last ∧
            DialAt packet port upper last := by
  induction left : packet.length - offset using Nat.strong_induction_on
    generalizing proto offset with
  | _ left ih =>
    cases round : nextHeader packet proto offset with
    | none =>
      obtain ⟨options, fragment⟩ := nextHeader_eq_none round
      refine ⟨1, proto, offset, fun more some => ?_, fun port => ⟨fun dial => ?_, ?_⟩⟩
      · obtain ⟨more, rfl⟩ := Nat.exists_eq_add_of_le' some
        rw [headerLoop, round]
      · exact ⟨proto, offset, .here _ _, dial⟩
      · rintro ⟨upper, last, walk, dial⟩
        obtain ⟨rfl, rfl⟩ := walk.eq_of_ends options fragment
        exact dial
    | some state =>
      obtain ⟨next, after⟩ := state
      obtain ⟨room, follows | fails⟩ := nextHeader_eq_some sized round
      · have onward : Sized packet next after :=
          fun proto offset walk => sized proto offset (follows.back walk)
        have further := follows.further
        obtain ⟨rounds, proto', offset', runs, found⟩ :=
          ih (packet.length - after) (by omega) onward rfl
        refine ⟨rounds + 1, proto', offset', fun more enough => ?_, fun port => ?_⟩
        · obtain ⟨more, rfl⟩ :=
            Nat.exists_eq_add_of_le' (Nat.le_trans (Nat.le_add_left 1 _) enough)
          rw [headerLoop, round]
          exact runs more (by omega)
        · rw [found port]
          constructor
          · rintro ⟨upper, last, walk, dial⟩
            exact ⟨upper, last, follows.back walk, dial⟩
          · rintro ⟨upper, last, walk, dial⟩
            exact ⟨upper, last, follows.on walk dial.1, dial⟩
      · refine ⟨2, next, after, fun more enough => ?_, fun port => ⟨fun dial => ?_, ?_⟩⟩
        · obtain ⟨more, rfl⟩ := Nat.exists_eq_add_of_le' enough
          rw [headerLoop, round]
          dsimp only
          rw [headerLoop, fails.ends]
        · obtain notDial | beyond := fails.loop
          · exact (notDial dial.1).elim
          · have room := dial.2.1
            omega
        · rintro ⟨upper, last, walk, dial⟩
          exact (fails.walk walk dial.1).elim

/-- A header of the greatest length that names such a header as the next is read again and
again. -/
theorem headerLoop_hangs (kind : Options proto) (room : offset + 8 ≤ packet.length)
    (length : byteAt packet (offset + 1) = 255) (again : Options (byteAt packet offset))
    (rounds : Nat) : headerLoop packet rounds proto offset = none := by
  induction rounds generalizing proto with
  | zero => rfl
  | succ rounds ih =>
    have stays : nextHeader packet proto offset = some (byteAt packet offset, offset) := by
      have go : proto ≠ 6 ∧ proto ≠ 17 ∧ proto ≠ 59 ∧ offset + 8 ≤ packet.length := by
        refine ⟨?_, ?_, ?_, room⟩ <;> obtain rfl | rfl | rfl := kind <;> decide
      rw [nextHeader, if_pos go, if_pos kind, length]
      rfl
    rw [headerLoop, stays]
    exact ih again

/-- The filter ends with an answer, which says whether the packet is a dial of the upstream. -/
def Exact (packet : List UInt8) (upIP : Addr) (upPort : Nat) : Prop :=
  ∃ rounds result,
    (∀ more, rounds ≤ more → isNestedUpstreamDial more packet upIP upPort = some result) ∧
      (result = true ↔ NestedDial packet upIP upPort)

theorem dialAt_iff {upPort : Nat} : ((if proto ≠ 6 ∧ proto ≠ 17 then false
      else if packet.length < offset + 4 then false
      else decide (uint16At packet (offset + 2) = upPort)) = true) ↔
        DialAt packet upPort proto offset := by
  rw [DialAt]
  split_ifs with notTransport cut
  · exact ⟨nofun, fun dial => by
      obtain same | same := dial.1
      · exact (notTransport.1 same).elim
      · exact (notTransport.2 same).elim⟩
  · exact ⟨nofun, fun dial => by omega⟩
  · rw [decide_eq_true_iff]
    refine ⟨fun port => ⟨?_, by omega, port⟩, fun dial => dial.2.2⟩
    by_contra neither
    exact notTransport (not_or.mp neither)

theorem isDial4_iff {upIP : Addr} {upPort : Nat} : isDial4 packet upIP upPort = true ↔
      20 ≤ packet.length ∧ 5 ≤ (byteAt packet 0).toNat % 16 ∧
        (addr4At packet 16).unmap = upIP.unmap ∧
          DialAt packet upPort (byteAt packet 9) ((byteAt packet 0).toNat % 16 * 4) := by
  rw [isDial4]
  split
  · exact ⟨nofun, fun dial => by omega⟩
  · dsimp only
    split
    · next bad => exact ⟨nofun, fun ⟨_, _, _, _, room, _⟩ => by omega⟩
    · split
      · next other => exact ⟨nofun, fun dial => (other dial.2.2.1).elim⟩
      · next same =>
        rw [dialAt_iff]
        exact ⟨fun dial => ⟨by omega, by omega, not_not.mp same, dial⟩, fun dial => dial.2.2.2⟩

theorem exact6 {upIP : Addr} {upPort : Nat} (version : (byteAt packet 0).toNat / 16 = 6)
    (sized : addr16At packet 24 = upIP → Sized packet (byteAt packet 6) 40) :
    ∃ rounds result, (∀ more, rounds ≤ more → isDial6 more packet upIP upPort = some result) ∧
      (result = true ↔ NestedDial packet upIP upPort) := by
  have only6 : NestedDial packet upIP upPort ↔ 40 ≤ packet.length ∧ addr16At packet 24 = upIP ∧
      ∃ proto offset, UpperHeader packet (byteAt packet 6) 40 proto offset ∧
        DialAt packet upPort proto offset := by
    refine ⟨?_, fun ⟨long, upstream, dial⟩ => .inr ⟨long, version, upstream, dial⟩⟩
    rintro (⟨-, other, -⟩ | ⟨long, -, upstream, dial⟩)
    · omega
    · exact ⟨long, upstream, dial⟩
  rw [only6]
  unfold isDial6
  by_cases short : packet.length < 40
  · exact ⟨0, false, fun _ _ => if_pos short, nofun, fun dial => by omega⟩
  · by_cases upstream : addr16At packet 24 = upIP
    · obtain ⟨rounds, proto, offset, runs, found⟩ := headerLoop_spec (sized upstream)
      refine ⟨rounds, _, fun more enough => ?_, dialAt_iff.trans ((found upPort).trans ?_)⟩
      · rw [if_neg short, if_neg (not_not.mpr upstream), runs more enough]
        rfl
      · exact ⟨fun dial => ⟨Nat.le_of_not_lt short, upstream, dial⟩, fun dial => dial.2.2⟩
    · refine ⟨0, false, fun _ _ => ?_, nofun, fun dial => (upstream dial.2.1).elim⟩
      rw [if_neg short, if_pos upstream]

/-- **The filter is exact** on every packet without a header of the greatest length on its walk to
the upstream (before a header on which the walk could go on). -/
theorem isNestedUpstreamDial_exact (packet : List UInt8) (upIP : Addr) (upPort : Nat)
    (sized : (byteAt packet 0).toNat / 16 = 6 → addr16At packet 24 = upIP →
      Sized packet (byteAt packet 6) 40) : Exact packet upIP upPort := by
  unfold Exact isNestedUpstreamDial
  by_cases empty : packet.length < 1
  · refine ⟨0, false, fun _ _ => if_pos empty, nofun, ?_⟩
    rintro (⟨long, -⟩ | ⟨long, -⟩) <;> omega
  · simp only [if_neg empty]
    by_cases version4 : (byteAt packet 0).toNat / 16 = 4
    · refine ⟨0, isDial4 packet upIP upPort, fun _ _ => if_pos version4, isDial4_iff.trans ?_⟩
      refine ⟨fun ⟨long, size, upstream, dial⟩ => .inl ⟨long, version4, size, upstream, dial⟩, ?_⟩
      rintro (⟨long, -, size, upstream, dial⟩ | ⟨-, other, -⟩)
      · exact ⟨long, size, upstream, dial⟩
      · omega
    · simp only [if_neg version4]
      by_cases version6 : (byteAt packet 0).toNat / 16 = 6
      · simp only [if_pos version6]
        exact exact6 version6 (sized version6)
      · simp only [if_neg version6]
        refine ⟨0, false, fun _ _ => rfl, nofun, ?_⟩
        rintro (⟨-, version, -⟩ | ⟨-, version, -⟩) <;> omega

/-- A TCP packet to port 443 of `2001:db8::1`. -/
def tcpPacket : List UInt8 :=
  [0x60, 0, 0, 0, 0, 4, 6, 64] ++ List.replicate 16 0 ++
    [0x20, 0x01, 0x0d, 0xb8, 0, 0, 0, 0, 0, 0, 0, 0, 0, 0, 0, 1] ++ [0, 80, 1, 187]

/-- A packet to `2001:db8::1` with a hop-by-hop header that names another as the next and has the
greatest length. -/
def selfHeader : List UInt8 :=
  [0x60, 0, 0, 0, 0, 8, 0, 64] ++ List.replicate 16 0 ++
    [0x20, 0x01, 0x0d, 0xb8, 0, 0, 0, 0, 0, 0, 0, 0, 0, 0, 0, 1] ++ [0, 255, 0, 0, 0, 0, 0, 0]

/-- `2001:db8::1`. -/
def upstreamAddr : Addr :=
  .v6 0x20010db8000000000000000000000001 []

theorem tcpPacket_exact :
    Sized tcpPacket (byteAt tcpPacket 6) 40 ∧ Exact tcpPacket upstreamAddr 443 := by
  have sized : Sized tcpPacket (byteAt tcpPacket 6) 40 := by
    intro proto offset walk options
    obtain ⟨rfl, -⟩ := walk.eq_of_ends (fun kind => absurd kind (by decide))
      (fun kind => absurd kind (by decide))
    exact absurd options (by decide)
  exact ⟨sized, isNestedUpstreamDial_exact tcpPacket upstreamAddr 443 fun _ _ => sized⟩

theorem selfHeader_hangs : ¬ Exact selfHeader upstreamAddr 443 := by
  rintro ⟨rounds, result, runs, -⟩
  have answer := runs rounds (le_rfl)
  have hangs : headerLoop selfHeader rounds (byteAt selfHeader 6) 40 = none :=
    headerLoop_hangs (by decide) (by decide) (by decide) (by decide) rounds
  have loops : isNestedUpstreamDial rounds selfHeader upstreamAddr 443 =
      (headerLoop selfHeader rounds (byteAt selfHeader 6) 40).map _ := rfl
  rw [loops, hangs] at answer
  cases answer

end NatGw
