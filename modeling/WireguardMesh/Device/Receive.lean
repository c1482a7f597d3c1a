import WireguardMesh.Device.AllowedIPs

/-! # Inner packets

`RoutineSequentialReceiver` cuts every decrypted packet to the length that its IP header announces
and passes it on. An IPv4 packet that announces less than its header is dropped. The length of an
IPv6 packet is computed in 16 bits, so that a payload length from 65496 on wraps around to less
than the header, and such a packet is cut down to that and passed on. These are the only packets
with an inconsistent length (`Wireguard.passed_consistent_iff`).
-/

namespace Wireguard

/-- `binary.BigEndian.Uint16` of the two bytes at an offset. -/
def uint16At (packet : List UInt8) (offset : Nat) : UInt16 :=
  .ofNat (256 * (packet.getD offset 0).toNat + (packet.getD (offset + 1) 0).toNat)

/-- The version in the first byte of a packet. -/
def ipVersion (packet : List UInt8) : UInt8 :=
  packet.headD 0 >>> 4

/-- `ipv4.HeaderLen` and `ipv6.HeaderLen`. -/
def headerLen4 : Nat := 20
def headerLen6 : Nat := 40

def totalLength4 (packet : List UInt8) : UInt16 :=
  uint16At packet 2

def payloadLength6 (packet : List UInt8) : UInt16 :=
  uint16At packet 4

def source4 (packet : List UInt8) : List UInt8 :=
  (packet.drop 12).take 4

def source6 (packet : List UInt8) : List UInt8 :=
  (packet.drop 8).take 16

/-- What the receiver of a peer uses of its device, at the time of one packet. -/
structure Receiver where
  peer : PeerRef
  /-- `allowedips.Lookup` -/
  lookup : List UInt8 → Option PeerRef
  /-- the inbound filter with the key of the peer, if there is one -/
  filter : Option (List UInt8 → Bool)
  /-- whether there is a traffic counter -/
  counts : Bool

/-- An element of the inbound queue: its content, or none if it could not be decrypted, and whether
the replay filter takes its counter. -/
structure InboundElement where
  packet : Option (List UInt8)
  validCounter : Bool

/-- Where packets are passed to. -/
inductive Sink
  | filter
  | counter
  | tun
deriving DecidableEq

namespace Receiver

variable (r : Receiver)

/-- The switch on the version: the packet cut to its length, if it is not dropped. The source
address is read from the same memory, also where the packet is now shorter. -/
def cut (packet : List UInt8) : Option (List UInt8) :=
  if ipVersion packet = 4 then
    if packet.length < headerLen4 then none
    else
      let length := totalLength4 packet
      if packet.length < length.toNat ∨ length.toNat < headerLen4 then none
      else if r.lookup (source4 packet) = some r.peer then some (packet.take length.toNat)
      else none
  else if ipVersion packet = 6 then
    if packet.length < headerLen6 then none
    else
      let length := payloadLength6 packet + .ofNat headerLen6
      if packet.length < length.toNat then none
      else if r.lookup (source6 packet) = some r.peer then some (packet.take length.toNat)
      else none
  else none

/-- Where a packet is passed to after it has been cut. -/
def sinks (packet : List UInt8) : List Sink :=
  let onward := (if r.counts then [.counter] else []) ++ [.tun]
  match r.filter with
  | none => onward
  | some filter => .filter :: if filter packet then onward else []

/-- The body of the loop over the elements of a container. -/
def receive (elem : InboundElement) : List (Sink × List UInt8) :=
  match elem.packet with
  | none => []
  | some packet =>
    if !elem.validCounter then []
    -- a keepalive
    else if packet = [] then []
    else match r.cut packet with
    | none => []
    | some packet => (r.sinks packet).map fun sink => (sink, packet)

end Receiver

/-- `RoutineSequentialReceiver` over its queue. The device may be configured anew between two
elements. -/
def routineSequentialReceiver (queue : List (Receiver × InboundElement)) :
    List (Sink × List UInt8) :=
  queue.flatMap fun (r, elem) => r.receive elem

/-! ## Lengths -/

/-- A packet has the header of its version and the length that announces. -/
def Consistent (packet : List UInt8) : Prop :=
  (ipVersion packet = 4 ∧ headerLen4 ≤ packet.length ∧
      packet.length = (totalLength4 packet).toNat) ∨
    (ipVersion packet = 6 ∧ headerLen6 ≤ packet.length ∧
      packet.length = (payloadLength6 packet).toNat + headerLen6)

instance (packet : List UInt8) : Decidable (Consistent packet) :=
  inferInstanceAs (Decidable (_ ∨ _))

/-- An IPv6 packet with its header whose length does not fit in 16 bits. -/
def Wraps (packet : List UInt8) : Prop :=
  ipVersion packet = 6 ∧ headerLen6 ≤ packet.length ∧
    2 ^ 16 ≤ (payloadLength6 packet).toNat + headerLen6

theorem uint16At_take {packet : List UInt8} {length offset : Nat} (inside : offset + 2 ≤ length) :
    uint16At (packet.take length) offset = uint16At packet offset := by
  rw [uint16At, uint16At]
  simp only [List.getD_eq_getElem?_getD]
  rw [List.getElem?_take_of_lt (by omega), List.getElem?_take_of_lt (by omega)]

theorem ipVersion_take {packet : List UInt8} {length : Nat} (inside : 0 < length) :
    ipVersion (packet.take length) = ipVersion packet := by
  cases packet with
  | nil => rw [List.take_nil]
  | cons first packet =>
    obtain ⟨n, rfl⟩ := Nat.exists_eq_succ_of_ne_zero inside.ne'
    rfl

theorem toNat_add_headerLen6 (n : UInt16) :
    (n + .ofNat headerLen6).toNat = (n.toNat + headerLen6) % 2 ^ 16 := by
  rw [UInt16.toNat_add]
  rfl

variable {r : Receiver} {packet out : List UInt8}

theorem cut_eq_some (cut : r.cut packet = some out) :
    (ipVersion packet = 4 ∧ r.lookup (source4 packet) = some r.peer ∧
      headerLen4 ≤ (totalLength4 packet).toNat ∧ (totalLength4 packet).toNat ≤ packet.length ∧
      out = packet.take (totalLength4 packet).toNat) ∨
    (ipVersion packet = 6 ∧ r.lookup (source6 packet) = some r.peer ∧ headerLen6 ≤ packet.length ∧
      ((payloadLength6 packet).toNat + headerLen6) % 2 ^ 16 ≤ packet.length ∧
      out = packet.take (((payloadLength6 packet).toNat + headerLen6) % 2 ^ 16)) := by
  simp only [Receiver.cut, toNat_add_headerLen6] at cut
  split at cut
  · next version =>
    split at cut
    · cases cut
    · split at cut
      · cases cut
      · next lengths =>
        split at cut
        · next allowed =>
          rw [not_or, Nat.not_lt, Nat.not_lt] at lengths
          exact .inl ⟨version, allowed, lengths.2, lengths.1, (Option.some.inj cut).symm⟩
        · cases cut
  · split at cut
    · next version =>
      split at cut
      · cases cut
      · next header =>
        split at cut
        · cases cut
        · next inside =>
          split at cut
          · next allowed =>
            exact .inr ⟨version, allowed, Nat.not_lt.mp header, Nat.not_lt.mp inside,
              (Option.some.inj cut).symm⟩
          · cases cut
    · cases cut

theorem consistent_cut (cut : r.cut packet = some out) (fits : ¬ Wraps packet) :
    Consistent out := by
  rcases cut_eq_some cut with ⟨version, -, header, inside, rfl⟩ | ⟨version, -, header, inside, rfl⟩
  · have long : 20 ≤ (totalLength4 packet).toNat := header
    refine .inl ⟨?_, ?_, ?_⟩
    · rw [ipVersion_take (by omega), version]
    · rw [List.length_take_of_le inside]
      exact header
    · rw [List.length_take_of_le inside]
      exact congrArg UInt16.toNat (uint16At_take (by omega)).symm
  · have small : (payloadLength6 packet).toNat + headerLen6 < 2 ^ 16 := by
      by_contra large
      exact fits ⟨version, header, Nat.not_lt.mp large⟩
    rw [Nat.mod_eq_of_lt small] at inside ⊢
    have forty : headerLen6 = 40 := rfl
    refine .inr ⟨?_, ?_, ?_⟩
    · rw [ipVersion_take (by omega), version]
    · rw [List.length_take_of_le inside]
      omega
    · rw [List.length_take_of_le inside]
      exact congrArg (fun n : UInt16 => n.toNat + headerLen6) (uint16At_take (by omega)).symm

/-- A packet that wraps and comes from the right peer is cut to less than its header. -/
theorem cut_of_wraps (wraps : Wraps packet) (allowed : r.lookup (source6 packet) = some r.peer) :
    ∃ out, r.cut packet = some out ∧ out.length < headerLen6 := by
  obtain ⟨version, header, large⟩ := wraps
  have bound := (payloadLength6 packet).toNat_lt
  have forty : headerLen6 = 40 := rfl
  have short : ((payloadLength6 packet).toNat + headerLen6) % 2 ^ 16 < headerLen6 := by omega
  have inside : ¬ packet.length < ((payloadLength6 packet).toNat + headerLen6) % 2 ^ 16 := by omega
  refine ⟨packet.take (((payloadLength6 packet).toNat + headerLen6) % 2 ^ 16), ?_, ?_⟩
  · have other : ipVersion packet ≠ 4 := by
      rw [version]
      decide
    simp only [Receiver.cut, toNat_add_headerLen6, if_neg other, if_pos version,
      if_neg (Nat.not_lt.mpr header), if_neg inside, if_pos allowed]
  · rw [List.length_take_of_le (Nat.not_lt.mp inside)]
    exact short

/-! ## Everything that is passed on -/

theorem exists_sink (r : Receiver) (packet : List UInt8) : ∃ sink, sink ∈ r.sinks packet := by
  rw [Receiver.sinks]
  cases r.filter with
  | none => exact ⟨.tun, List.mem_append_right _ (.head _)⟩
  | some filter => exact ⟨.filter, .head _⟩

theorem mem_receive {elem : InboundElement} {passed : Sink × List UInt8}
    (member : passed ∈ r.receive elem) :
    ∃ packet ∈ elem.packet, elem.validCounter = true ∧ r.cut packet = some passed.2 := by
  rw [Receiver.receive] at member
  split at member
  · cases member
  · next packet content =>
    split at member
    · cases member
    · next valid =>
      split at member
      · cases member
      · split at member
        · cases member
        · next out cut =>
          obtain ⟨sink, -, rfl⟩ := List.mem_map.mp member
          exact ⟨packet, content, by simpa using valid, cut⟩

theorem exists_receive {elem : InboundElement} (content : packet ∈ elem.packet)
    (valid : elem.validCounter = true) (cut : r.cut packet = some out) :
    ∃ sink, (sink, out) ∈ r.receive elem := by
  have nonempty : packet ≠ [] := by
    rintro rfl
    cases cut
  rw [Receiver.receive, Option.mem_def.mp content]
  simp only [valid, Bool.not_true, Bool.false_eq_true, if_false, if_neg nonempty, cut]
  obtain ⟨sink, member⟩ := exists_sink r out
  exact ⟨sink, List.mem_map_of_mem member⟩

/-- **When inner packets have consistent lengths.** Every packet passed to the filter, the counter
or the device has its header and the length it announces, if and only if no IPv6 packet from an
allowed source announces a length that does not fit in 16 bits. -/
theorem passed_consistent_iff (queue : List (Receiver × InboundElement)) :
    (∀ passed ∈ routineSequentialReceiver queue, Consistent passed.2) ↔
      ∀ entry ∈ queue, entry.2.validCounter = true → ∀ packet ∈ entry.2.packet,
        Wraps packet → entry.1.lookup (source6 packet) ≠ some entry.1.peer := by
  constructor
  · intro consistent entry member valid packet content wraps allowed
    obtain ⟨out, cut, short⟩ := cut_of_wraps wraps allowed
    obtain ⟨sink, passed⟩ := exists_receive content valid cut
    have version : ipVersion packet = 6 := wraps.1
    rcases consistent (sink, out) (List.mem_flatMap.mpr ⟨entry, member, passed⟩) with four | six
    · rcases cut_eq_some cut with ⟨other, -⟩ | ⟨-, -, -, -, same⟩
      · rw [version] at other
        exact absurd other (by decide)
      · -- a part of the packet that is not empty has its version
        have long : 20 ≤ out.length := four.2.1
        have positive : 0 < ((payloadLength6 packet).toNat + headerLen6) % 2 ^ 16 := by
          rw [same, List.length_take] at long
          omega
        have kept := four.1
        rw [same, ipVersion_take positive, version] at kept
        exact absurd kept (by decide)
    · exact absurd six.2.1 (Nat.not_le.mpr short)
  · intro fits passed member
    obtain ⟨entry, listed, member⟩ := List.mem_flatMap.mp member
    obtain ⟨packet, content, valid, cut⟩ := mem_receive member
    refine consistent_cut cut fun wraps => ?_
    rcases cut_eq_some cut with ⟨version, -⟩ | ⟨-, allowed, -⟩
    · rw [wraps.1] at version
      exact absurd version (by decide)
    · exact fits entry listed valid packet content wraps allowed

/-- An IPv6 header from fd00::2 to fd00::1 that announces 65535 bytes of payload. -/
def overlongHeader : List UInt8 :=
  [0x60, 0, 0, 0, 0xff, 0xff, 59, 64] ++ [0xfd, 0, 0, 0, 0, 0, 0, 0, 0, 0, 0, 0, 0, 0, 0, 2] ++
    [0xfd, 0, 0, 0, 0, 0, 0, 0, 0, 0, 0, 0, 0, 0, 0, 1]

/-- The header is passed on without its last byte. -/
theorem overlongHeader_passed :
    routineSequentialReceiver [(⟨7, fun _ => some 7, none, false⟩, ⟨some overlongHeader, true⟩)] =
        [(.tun, overlongHeader.take 39)] ∧ ¬ Consistent (overlongHeader.take 39) := by
  decide

end Wireguard
