import WireguardMesh.Net.IPv6

/-! # IP prefixes

`net/netip.Prefix`: an address and a number of bits, invalid by default. Printing is
injective on valid prefixes, because `netip.ParsePrefix` reads it back
(`Net.parsePrefix_string`). A masked prefix is determined by its length and any address it contains
(`Net.Prefix.eq_of_contains`).
-/

namespace Net

open GoText

variable {p q : Prefix} {s : List Char} {a b : BitVec 32}

def Addr.withoutZone : Addr → Addr
  | .v6 bits _ => .v6 bits []
  | addr => addr

@[simp] theorem Addr.withoutZone_withoutZone (addr : Addr) :
    addr.withoutZone.withoutZone = addr.withoutZone := by
  cases addr <;> rfl

@[simp] theorem Addr.bitLen_withoutZone (addr : Addr) : addr.withoutZone.bitLen = addr.bitLen := by
  cases addr <;> rfl

/-- `netip.Prefix`; `bitsPlusOne` is zero in an invalid one. The package never builds a prefix with
a zone, or with more bits than its address has. -/
structure Prefix where
  ip : Addr
  bitsPlusOne : Nat
  noZone : ip.withoutZone = ip
  fits : 0 < bitsPlusOne → ip ≠ .zero ∧ bitsPlusOne ≤ ip.bitLen + 1
deriving DecidableEq

/-- `netip.PrefixFrom`: invalid when the length does not fit the address. -/
def prefixFrom (ip : Addr) (bits : Nat) : Prefix :=
  if fits : ip.withoutZone ≠ .zero ∧ bits ≤ ip.withoutZone.bitLen then
    ⟨ip.withoutZone, bits + 1, ip.withoutZone_withoutZone,
      fun _ => ⟨fits.1, Nat.succ_le_succ fits.2⟩⟩
  else
    ⟨ip.withoutZone, 0, ip.withoutZone_withoutZone, fun impossible => absurd impossible (by decide)⟩

/-- The low bits of an address set to zero, from a prefix length on. -/
def Addr.mask (addr : Addr) (bits : Nat) : Addr :=
  match addr with
  | .zero => .zero
  | .v4 a => .v4 (a >>> (32 - bits) <<< (32 - bits))
  | .v6 a _ => .v6 (a >>> (128 - bits) <<< (128 - bits)) []

namespace Prefix

/-- The zero value `netip.Prefix{}`. -/
def zero : Prefix :=
  ⟨.zero, 0, rfl, fun impossible => absurd impossible (by decide)⟩

/-- `Prefix.IsValid`. -/
def isValid (p : Prefix) : Bool :=
  0 < p.bitsPlusOne

/-- `Prefix.Bits` of a valid prefix. -/
def bits (p : Prefix) : Nat :=
  p.bitsPlusOne - 1

/-- `Prefix.Masked`. -/
def masked (p : Prefix) : Prefix :=
  if p.isValid then prefixFrom (p.ip.mask p.bits) p.bits else zero

/-- `Prefix.Contains`. -/
def contains (p : Prefix) (addr : Addr) : Bool :=
  p.isValid && match p.ip, addr with
  | .v4 a, .v4 b => (a ^^^ b) >>> (32 - p.bits) = 0
  | .v6 a _, .v6 b zone => zone = [] && (a ^^^ b) >>> (128 - p.bits) = 0
  | _, _ => false

/-- `Prefix.Overlaps`. -/
def overlaps (p o : Prefix) : Bool :=
  p.isValid && o.isValid &&
    (p = o || (p.ip.is4 = o.ip.is4 && (min p.bits o.bits = 0 ||
      p.ip.mask (min p.bits o.bits) = o.ip.mask (min p.bits o.bits))))

/-- `Prefix.String`. -/
def string (p : Prefix) : List Char :=
  if p.isValid then p.ip.string ++ '/' :: itoa p.bits else "invalid Prefix".toList

end Prefix

/-- `netip.ParsePrefix`: no zone, and a length without sign or leading zeros that fits the
address. -/
def parsePrefix (s : List Char) : Option Prefix :=
  match splitLast '/' s with
  | none => none
  | some (addrText, bitsText) =>
    match parseAddr addrText with
    | none => none
    | some addr =>
      if addr.withoutZone ≠ addr then none
      else if 1 < bitsText.length ∧ ¬ ('1' ≤ bitsText.headD '0' ∧ bitsText.headD '0' ≤ '9') then
        none
      else match atoi bitsText with
      | none => none
      | some bits =>
        if bits < 0 ∨ bits > addr.bitLen then none else some (prefixFrom addr bits.toNat)

/-! ## Parts of a prefix -/


namespace Prefix

@[ext] theorem ext (ip : p.ip = q.ip) (bits : p.bitsPlusOne = q.bitsPlusOne) : p = q := by
  cases p
  cases q
  cases ip
  cases bits
  rfl

theorem bitsPlusOne_of_isValid (valid : p.isValid = true) : p.bitsPlusOne = p.bits + 1 := by
  have positive : 0 < p.bitsPlusOne := of_decide_eq_true valid
  rw [bits]
  omega

theorem bits_le (valid : p.isValid = true) : p.bits ≤ p.ip.bitLen := by
  have fits := p.fits (of_decide_eq_true valid)
  rw [bits]
  omega

end Prefix

theorem ip_prefixFrom (ip : Addr) (bits : Nat) : (prefixFrom ip bits).ip = ip.withoutZone := by
  rw [prefixFrom]
  split <;> rfl

theorem prefixFrom_of_fits (ip : Addr) {bits : Nat} (valid : ip.withoutZone ≠ .zero)
    (fits : bits ≤ ip.bitLen) :
    (prefixFrom ip bits).ip = ip.withoutZone ∧ (prefixFrom ip bits).bitsPlusOne = bits + 1 := by
  rw [prefixFrom, dif_pos ⟨valid, by rwa [Addr.bitLen_withoutZone]⟩]
  exact ⟨rfl, rfl⟩

theorem prefixFrom_ip_bits (valid : p.isValid = true) : prefixFrom p.ip p.bits = p := by
  have fits := p.fits (of_decide_eq_true valid)
  obtain ⟨ip, bits⟩ := prefixFrom_of_fits p.ip (by rw [p.noZone]; exact fits.1)
    (Prefix.bits_le valid)
  apply Prefix.ext
  · rw [ip, p.noZone]
  · rw [bits, Prefix.bitsPlusOne_of_isValid valid]

/-! ## Printed prefixes -/

theorem slash_not_mem_itoa (n : Nat) : '/' ∉ itoa n :=
  fun member => absurd (isDigit_of_mem_itoa member) (by decide)

/-- **Prefixes round-trip.** Every valid prefix is read back from its printed form. -/
theorem parsePrefix_string (valid : p.isValid = true) : parsePrefix p.string = some p := by
  have fits := p.fits (of_decide_eq_true valid)
  have bits := Prefix.bits_le valid
  have limit : p.ip.bitLen ≤ 128 := by
    cases p.ip <;> simp only [Addr.bitLen] <;> decide
  rw [parsePrefix, Prefix.string, if_pos valid,
    splitLast_eq_some.mpr ⟨rfl, slash_not_mem_itoa _⟩]
  have canonical : ¬ (1 < (itoa p.bits).length ∧
      ¬ ('1' ≤ (itoa p.bits).headD '0' ∧ (itoa p.bits).headD '0' ≤ '9')) :=
    fun bad => bad.2 (headD_itoa_of_pos (by
      rcases Nat.eq_zero_or_pos p.bits with zero | positive
      · rw [zero] at bad
        exact absurd bad.1 (by decide)
      · exact positive))
  have inRange : ¬ (Int.ofNat p.bits < 0 ∨ Int.ofNat p.bits > (p.ip.bitLen : Int)) := by
    rw [Int.ofNat_eq_natCast]
    omega
  simp only [parseAddr_string fits.1, p.noZone, ne_eq, not_true_eq_false, ↓reduceIte,
    if_neg canonical, atoi_itoa (Nat.lt_of_le_of_lt (Nat.le_trans bits limit) (by decide)),
    if_neg inRange]
  exact congrArg some (prefixFrom_ip_bits valid)

theorem Prefix.string_injective (valid : p.isValid = true)
    (valid' : q.isValid = true) (same : p.string = q.string) : p = q := by
  have parsed := parsePrefix_string valid
  rw [same, parsePrefix_string valid'] at parsed
  exact (Option.some.inj parsed).symm

theorem parsePrefix_eq_some (parsed : parsePrefix s = some p) :
    ∃ addrText bitsText addr, ∃ bits : Int, splitLast '/' s = some (addrText, bitsText) ∧
      parseAddr addrText = some addr ∧ addr.withoutZone = addr ∧ bitsText ≠ [] ∧
      bitsText.all Char.isDigit = true ∧ bits.toNat ≤ addr.bitLen ∧
      p = prefixFrom addr bits.toNat := by
  rw [parsePrefix] at parsed
  split at parsed
  · cases parsed
  · next addrText bitsText cut =>
    split at parsed
    · cases parsed
    · next addr read =>
      split at parsed
      · cases parsed
      · next noZone =>
        split at parsed
        · cases parsed
        · next canonical =>
          split at parsed
          · cases parsed
          · next bits number =>
            split at parsed
            · cases parsed
            · next inRange =>
              cases parsed
              obtain ⟨nonempty, digits⟩ := isDigit_of_atoi number canonical
              exact ⟨addrText, bitsText, addr, bits, cut, read,
                Decidable.not_not.mp noZone, nonempty, digits, by omega, rfl⟩

theorem isValid_of_parsePrefix (parsed : parsePrefix s = some p) : p.isValid = true := by
  obtain ⟨_, _, addr, bits, _, read, same, _, _, fits, rfl⟩ := parsePrefix_eq_some parsed
  have valid : addr.withoutZone ≠ .zero := by
    rw [same]
    rintro rfl
    rcases parseAddr_family read with ⟨six, _⟩ | ⟨_, four, _⟩
    · cases six
    · cases four
  rw [Prefix.isValid, (prefixFrom_of_fits addr valid fits).2]
  exact decide_eq_true (Nat.succ_pos _)

/-- The text of an IPv4 prefix: the dotted address, a slash and decimal digits. -/
theorem parsePrefix_v4 (parsed : parsePrefix s = some p) (family : p.ip.is4 = true) :
    p.isValid = true ∧ ∃ a digits, p.ip = .v4 a ∧ s = string4 a ++ '/' :: digits ∧ digits ≠ [] ∧
      digits.all Char.isDigit = true := by
  have valid := isValid_of_parsePrefix parsed
  obtain ⟨addrText, bitsText, addr, bits, cut, read, same, nonempty, digits, _, rfl⟩ :=
    parsePrefix_eq_some parsed
  rw [ip_prefixFrom, same] at family
  cases addr with
  | zero => cases family
  | v6 b zone => cases family
  | v4 a =>
    refine ⟨valid, a, bitsText, ip_prefixFrom _ _, ?_, nonempty, digits⟩
    rw [← parseAddr_eq_v4.mp read]
    exact (splitLast_eq_some.mp cut).1

/-! ## Containment -/

namespace Prefix

theorem contains_v4 (ip : p.ip = .v4 a) : p.contains (.v4 b) = true ↔
      p.isValid = true ∧ a >>> (32 - p.bits) = b >>> (32 - p.bits) := by
  unfold contains
  rw [ip, Bool.and_eq_true, decide_eq_true_eq, BitVec.ushiftRight_xor_distrib]
  exact and_congr_right' BitVec.xor_eq_zero_iff

theorem ip_of_contains_v4 (covers : p.contains (.v4 b) = true) : ∃ a, p.ip = .v4 a := by
  unfold contains at covers
  cases ip : p.ip with
  | v4 a => exact ⟨a, rfl⟩
  | zero => simp only [ip, Bool.and_false, Bool.false_eq_true] at covers
  | v6 a zone => simp only [ip, Bool.and_false, Bool.false_eq_true] at covers

theorem isValid_of_contains {addr : Addr} (covers : p.contains addr = true) : p.isValid = true := by
  unfold contains at covers
  rw [Bool.and_eq_true] at covers
  exact covers.1

theorem bits_le_of_contains_v4 (covers : p.contains (.v4 b) = true) : p.bits ≤ 32 := by
  obtain ⟨a, ip⟩ := ip_of_contains_v4 covers
  have bound := bits_le (isValid_of_contains covers)
  rwa [ip] at bound

theorem masked_v4 (valid : p.isValid = true) (ip : p.ip = .v4 a) :
    p.masked.ip = .v4 (a >>> (32 - p.bits) <<< (32 - p.bits)) ∧ p.masked.bits = p.bits ∧
      p.masked.isValid = true := by
  have bound := bits_le valid
  rw [ip] at bound
  rw [masked, if_pos valid, ip, Addr.mask]
  obtain ⟨maskedIp, maskedBits⟩ := prefixFrom_of_fits
    (.v4 (a >>> (32 - p.bits) <<< (32 - p.bits))) (nofun) bound
  refine ⟨maskedIp, ?_, ?_⟩
  · rw [bits, maskedBits, Nat.add_sub_cancel]
  · rw [isValid, maskedBits]
    exact decide_eq_true (Nat.succ_pos _)

theorem shiftLeft_ushiftRight_ushiftRight {w : Nat} (a : BitVec w) (k : Nat) :
    (a >>> k <<< k) >>> k = a >>> k := by
  apply BitVec.eq_of_getLsbD_eq
  intro i inside
  simp only [BitVec.getLsbD_ushiftRight, BitVec.getLsbD_shiftLeft]
  by_cases within : k + i < w
  · simp [within]
  · simp [within, BitVec.getLsbD_of_ge a (k + i) (Nat.le_of_not_lt within)]

theorem contains_masked
    (valid : p.isValid = true) (ip : p.ip = .v4 a) : p.masked.contains (.v4 a) = true := by
  obtain ⟨maskedIp, maskedBits, maskedValid⟩ := masked_v4 valid ip
  rw [contains_v4 maskedIp, maskedBits]
  exact ⟨maskedValid, shiftLeft_ushiftRight_ushiftRight a _⟩

/-- **Masked prefixes are determined by length and member.** Two of one length that contain a
common IPv4 address are equal. -/
theorem eq_of_contains {addr : BitVec 32}
    (maskedP : p.masked = p) (maskedQ : q.masked = q) (covers : p.contains (.v4 addr) = true)
    (covers' : q.contains (.v4 addr) = true) (same : p.bits = q.bits) : p = q := by
  have form : ∀ r : Prefix, r.masked = r → r.contains (.v4 addr) = true →
      r.ip = .v4 (addr >>> (32 - r.bits) <<< (32 - r.bits)) := by
    intro r masked covers
    obtain ⟨a, ip⟩ := ip_of_contains_v4 covers
    obtain ⟨valid, leading⟩ := (contains_v4 ip).mp covers
    have own := (masked_v4 valid ip).1
    rw [masked, leading] at own
    exact own
  apply Prefix.ext
  · rw [form p maskedP covers, form q maskedQ covers', same]
  · rw [bitsPlusOne_of_isValid (isValid_of_contains covers),
      bitsPlusOne_of_isValid (isValid_of_contains covers'), same]

theorem ushiftRight_eq_of_le
    {k l : Nat} (further : k ≤ l) (same : a >>> k = b >>> k) : a >>> l = b >>> l := by
  rw [← Nat.add_sub_cancel' further, BitVec.shiftRight_add, BitVec.shiftRight_add, same]

theorem overlaps_of_contains {addr : BitVec 32} (covers : p.contains (.v4 addr) = true)
    (covers' : q.contains (.v4 addr) = true) : p.overlaps q = true := by
  obtain ⟨a, ip⟩ := ip_of_contains_v4 covers
  obtain ⟨b, ip'⟩ := ip_of_contains_v4 covers'
  obtain ⟨valid, leading⟩ := (contains_v4 ip).mp covers
  obtain ⟨valid', leading'⟩ := (contains_v4 ip').mp covers'
  have masks : p.ip.mask (min p.bits q.bits) = q.ip.mask (min p.bits q.bits) := by
    have first := ushiftRight_eq_of_le (by omega : 32 - p.bits ≤ 32 - min p.bits q.bits) leading
    have second := ushiftRight_eq_of_le (by omega : 32 - q.bits ≤ 32 - min p.bits q.bits) leading'
    rw [ip, ip', Addr.mask, Addr.mask, first, second]
  have family : p.ip.is4 = q.ip.is4 := by rw [ip, ip']; rfl
  rw [overlaps, valid, valid', decide_eq_true family, decide_eq_true masks]
  simp

end Prefix

theorem prefixFrom_host (a : BitVec 32) :
    (prefixFrom (.v4 a) 32).ip = .v4 a ∧ (prefixFrom (.v4 a) 32).bits = 32 ∧
      (prefixFrom (.v4 a) 32).isValid = true :=
  ⟨rfl, rfl, rfl⟩

theorem contains_host : (prefixFrom (.v4 a) 32).contains (.v4 b) = true ↔ b = a := by
  rw [Prefix.contains_v4 (prefixFrom_host a).1, (prefixFrom_host a).2.1, Nat.sub_self,
    BitVec.ushiftRight_zero, BitVec.ushiftRight_zero]
  exact ⟨fun covers => covers.2.symm, fun same => ⟨rfl, same.symm⟩⟩

theorem masked_host (a : BitVec 32) : (prefixFrom (.v4 a) 32).masked = prefixFrom (.v4 a) 32 := by
  obtain ⟨ip, bits, valid⟩ := Prefix.masked_v4 (prefixFrom_host a).2.2 (prefixFrom_host a).1
  apply Prefix.ext
  · rw [ip, (prefixFrom_host a).2.1, Nat.sub_self, BitVec.ushiftRight_zero, BitVec.shiftLeft_zero]
    rfl
  · rw [Prefix.bitsPlusOne_of_isValid valid, bits]
    rfl
end Net
