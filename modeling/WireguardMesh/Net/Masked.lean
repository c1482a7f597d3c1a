import WireguardMesh.Net.Prefix

/-! # Masked prefixes

A masked prefix is known by its family and the bits that its addresses begin with
(`Net.Prefix.masked_eq_iff`). Prefix tries are keyed by these bits.
-/

namespace Net

/-- The first bits of an address. -/
def leadingBits {w : Nat} (a : BitVec w) (n : Nat) : List Bool :=
  (List.range n).map a.getMsbD

theorem getMsbD_masked {w : Nat} (a : BitVec w) {n i : Nat} (fits : n ≤ w) :
    (a >>> (w - n) <<< (w - n)).getMsbD i = (decide (i < n) && a.getMsbD i) := by
  rw [BitVec.getMsbD_shiftLeft, BitVec.getMsbD_ushiftRight]
  by_cases inside : i < n
  · have within : i + (w - n) < w := by omega
    simp [inside, within]
  · have beyond : ¬ i + (w - n) < w := by omega
    simp [inside, beyond]

/-- Addresses agree on their first bits exactly when they are equal after masking. -/
theorem masks_eq_iff_leadingBits {w : Nat} {a b : BitVec w} {n m : Nat} (fits : n ≤ w) :
    (a >>> (w - n) <<< (w - n) = b >>> (w - m) <<< (w - m) ∧ n = m) ↔
      leadingBits a n = leadingBits b m := by
  constructor
  · rintro ⟨same, rfl⟩
    rw [leadingBits, leadingBits, List.map_inj_left]
    intro i member
    have bits := congrArg (fun c => c.getMsbD i) same
    rw [List.mem_range] at member
    simpa only [getMsbD_masked a fits, getMsbD_masked b fits, member, decide_true,
      Bool.true_and] using bits
  · intro same
    obtain rfl : n = m := by
      simpa only [leadingBits, List.length_map, List.length_range] using congrArg List.length same
    rw [leadingBits, leadingBits, List.map_inj_left] at same
    refine ⟨BitVec.eq_of_getMsbD_eq fun i _ => ?_, rfl⟩
    rw [getMsbD_masked a fits, getMsbD_masked b fits]
    by_cases inside : i < n
    · rw [same i (List.mem_range.mpr inside)]
    · simp [inside]

namespace Prefix

/-- The bits that addresses of the prefix begin with. -/
def leading (p : Prefix) : List Bool :=
  match p.ip with
  | .zero => []
  | .v4 a => leadingBits a p.bits
  | .v6 a _ => leadingBits a p.bits

variable {p q : Prefix} (valid : p.isValid = true)

include valid

theorem ip_ne_zero : p.ip ≠ .zero :=
  (p.fits (of_decide_eq_true valid)).1

theorem masked_parts :
    p.masked.ip = p.ip.mask p.bits ∧ p.masked.bits = p.bits ∧ p.masked.isValid = true := by
  have bound := bits_le valid
  have present := ip_ne_zero valid
  have parts : (p.ip.mask p.bits).withoutZone = p.ip.mask p.bits ∧
      (p.ip.mask p.bits) ≠ .zero ∧ (p.ip.mask p.bits).bitLen = p.ip.bitLen := by
    cases ip : p.ip with
    | zero => exact absurd ip present
    | v4 a => exact ⟨rfl, by simp [Addr.mask], rfl⟩
    | v6 a zone => exact ⟨rfl, by simp [Addr.mask], rfl⟩
  obtain ⟨noZone, nonzero, width⟩ := parts
  obtain ⟨ip, bits⟩ := prefixFrom_of_fits (p.ip.mask p.bits) (by rwa [noZone]) (width ▸ bound)
  rw [masked, if_pos valid]
  refine ⟨by rw [ip, noZone], by rw [Prefix.bits, bits, Nat.add_sub_cancel], ?_⟩
  rw [isValid, bits]
  exact decide_eq_true (Nat.succ_pos _)

theorem masked_eq_masked (valid' : q.isValid = true) :
    p.masked = q.masked ↔ p.ip.mask p.bits = q.ip.mask q.bits ∧ p.bits = q.bits := by
  obtain ⟨ip, bits, masked⟩ := masked_parts valid
  obtain ⟨ip', bits', masked'⟩ := masked_parts valid'
  constructor
  · intro same
    exact ⟨by rw [← ip, ← ip', same], by rw [← bits, ← bits', same]⟩
  · rintro ⟨sameIp, sameBits⟩
    apply Prefix.ext
    · rw [ip, ip', sameIp]
    · rw [bitsPlusOne_of_isValid masked, bitsPlusOne_of_isValid masked', bits, bits', sameBits]

/-- **Masked prefixes.** Prefixes are the same after masking exactly when they have one family and
begin with the same bits. -/
theorem masked_eq_iff (valid' : q.isValid = true) :
    p.masked = q.masked ↔ p.ip.is4 = q.ip.is4 ∧ p.leading = q.leading := by
  have bound := bits_le valid
  rw [masked_eq_masked valid valid', leading, leading]
  cases ip : p.ip with
  | zero => exact absurd ip (ip_ne_zero valid)
  | v4 a =>
    cases ip' : q.ip with
    | zero => exact absurd ip' (ip_ne_zero valid')
    | v4 b =>
      rw [ip, Addr.bitLen] at bound
      simpa only [Addr.mask, Addr.v4.injEq, Addr.is4, true_and] using
        masks_eq_iff_leadingBits bound
    | v6 b zone => simp [Addr.mask, Addr.is4]
  | v6 a zone =>
    cases ip' : q.ip with
    | zero => exact absurd ip' (ip_ne_zero valid')
    | v4 b => simp [Addr.mask, Addr.is4]
    | v6 b zone' =>
      rw [ip, Addr.bitLen] at bound
      simpa only [Addr.mask, Addr.v6.injEq, Addr.is4, and_true, true_and] using
        masks_eq_iff_leadingBits bound

theorem masked_idem : p.masked.masked = p.masked := by
  obtain ⟨ip, bits, masked⟩ := masked_parts valid
  rw [masked_eq_masked masked valid, ip, bits]
  refine ⟨?_, rfl⟩
  cases p.ip with
  | zero => rfl
  | v4 a => simp only [Addr.mask, shiftLeft_ushiftRight_ushiftRight]
  | v6 a zone => simp only [Addr.mask, shiftLeft_ushiftRight_ushiftRight]

theorem masked_self (q : Prefix) (same : q = p.masked) :
    q.isValid = true ∧ q.masked = q :=
  same ▸ ⟨(masked_parts valid).2.2, masked_idem valid⟩

end Prefix

end Net
