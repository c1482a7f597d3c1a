import WireguardMesh.Foundation.StickyReader

/-! # Internet checksums

`checksumNoFold` adds a text in native byte order, in blocks of up to sixteen words of 64 bits with
end-around carry. A carry never overflows a second time (`Holds.add`), and carries and folds keep
the one's-complement class of a number (`Alike`), as does the swap of its bytes up to a factor. So
`checksum` is the Internet checksum (`Checksum.checksum_exact`).
-/

namespace Checksum

open Sticky

inductive Endian
  | little
  | big

/-- `NativeEndian.Uint16`, `Uint32` or `Uint64` of as many bytes. -/
def Endian.uint : Endian → List UInt8 → Nat
  | .little, b => ofBigEndian b.reverse
  | .big, b => ofBigEndian b

/-- `NativeEndian.PutUint64`. -/
def Endian.putUint64 : Endian → Nat → List UInt8
  | .little, v => (bigEndian 8 v).reverse
  | .big, v => bigEndian 8 v

/-- `bits.Add64`. -/
def add64 (x y carry : Nat) : Nat × Nat :=
  ((x + y + carry) % 2 ^ 64, (x + y + carry) / 2 ^ 64)

/-- The chain of `bits.Add64` of a block, for so many words of `size` bytes, and `ac += carry`. -/
def add (e : Endian) (size : Nat) : Nat → Nat → Nat × List UInt8 → Nat × List UInt8
  | 0, carry, (ac, b) => ((ac + carry) % 2 ^ 64, b)
  | count + 1, carry, (ac, b) =>
    let sum := add64 ac (e.uint (b.take size)) carry
    add e size count sum.2 (sum.1, b.drop size)

/-- A block of `checksumNoFold`. The state is `ac` and `b`. -/
def block (e : Endian) (size count : Nat) (s : Nat × List UInt8) : Nat × List UInt8 :=
  if size * count ≤ s.2.length then add e size count 0 s else s

theorem length_add (e : Endian) (size count carry : Nat) (s : Nat × List UInt8) :
    (add e size count carry s).2.length = s.2.length - size * count := by
  induction count generalizing carry s with
  | zero => rfl
  | succ count ih =>
    rw [add, ih, List.length_drop, Nat.mul_succ]
    omega

/-- The loop of `checksumNoFold`. -/
def loop (e : Endian) (s : Nat × List UInt8) : Nat × List UInt8 :=
  if 128 ≤ s.2.length then loop e (add e 8 16 0 s) else s
termination_by s.2.length
decreasing_by rw [length_add]; omega

/-- The last byte, if there is one. -/
def addLast (e : Endian) : Nat × List UInt8 → Nat
  | (ac, [last]) => (add e 2 1 0 (ac, [last, 0])).1
  | (ac, _) => ac

/-- `BigEndian.Uint64` of what `NativeEndian.PutUint64` has written. -/
def swap (e : Endian) (v : Nat) : Nat :=
  ofBigEndian (e.putUint64 v)

def checksumNoFold (e : Endian) (b : List UInt8) (initial : Nat) : Nat :=
  let s := loop e (swap e initial, b)
  let s := block e 8 8 s
  let s := block e 8 4 s
  let s := block e 8 2 s
  let s := block e 8 1 s
  let s := block e 4 1 s
  let s := block e 2 1 s
  swap e (addLast e s)

/-- `(ac >> 16) + (ac & 0xffff)`. -/
def foldOnce (ac : Nat) : Nat :=
  ac / 2 ^ 16 + ac % 2 ^ 16

def fold (ac : Nat) : Nat :=
  foldOnce (foldOnce (foldOnce (foldOnce ac))) % 2 ^ 16

def checksum (e : Endian) (b : List UInt8) (initial : Nat) : Nat :=
  fold (checksumNoFold e b initial)

def pseudoHeaderChecksumNoFold (e : Endian) (protocol : UInt8) (srcAddr dstAddr : List UInt8)
    (totalLen : UInt16) : Nat :=
  let sum := checksumNoFold e srcAddr 0
  let sum := checksumNoFold e dstAddr sum
  let sum := checksumNoFold e [0, protocol] sum
  checksumNoFold e (bigEndian 2 totalLen.toNat) sum

/-! ## One's-complement sums -/

/-- One's-complement addition of words of 16 bits. -/
def onesAdd (x y : Nat) : Nat :=
  if x + y < 2 ^ 16 then x + y else x + y - 2 ^ 16 + 1

/-- The one's-complement sum of the words of a text, with a zero byte after an odd one. -/
def onesSum : List UInt8 → Nat
  | [] => 0
  | [x] => x.toNat * 256
  | x :: y :: rest => onesAdd (x.toNat * 256 + y.toNat) (onesSum rest)

/-- Numbers with one one's-complement sum of their words: zero is apart. -/
def Alike (x y : Nat) : Prop :=
  x % 65535 = y % 65535 ∧ (x = 0 ↔ y = 0)

/-- A word of 64 bits with the class of a number. -/
def Sums (x v : Nat) : Prop :=
  x < 2 ^ 64 ∧ Alike x v

def wordSum : List UInt8 → Nat
  | [] => 0
  | [x] => x.toNat * 256
  | x :: y :: rest => x.toNat * 256 + y.toNat + wordSum rest

variable {e : Endian} {b first second : List UInt8} {x y v ac size count : Nat}

theorem Alike.eq (alike : Alike x y) (left : x < 2 ^ 16) (right : y < 2 ^ 16) : x = y := by
  unfold Alike at alike
  omega

theorem onesSum_spec (b : List UInt8) : onesSum b < 2 ^ 16 ∧ Alike (onesSum b) (wordSum b) := by
  induction b using onesSum.induct with
  | case1 => exact ⟨by decide, rfl, Iff.rfl⟩
  | case2 x =>
    have small := x.toNat_lt
    exact ⟨by rw [onesSum]; omega, rfl, Iff.rfl⟩
  | case3 x y rest ih =>
    have small := x.toNat_lt
    have small' := y.toNat_lt
    simp only [onesSum, wordSum, onesAdd, Alike] at ih ⊢
    split <;> omega

theorem even_rest {x y : UInt8} {rest : List UInt8} (even : (x :: y :: rest).length % 2 = 0) :
    rest.length % 2 = 0 := by
  simp only [List.length_cons] at even
  omega

theorem wordSum_append (even : first.length % 2 = 0) :
    wordSum (first ++ second) = wordSum first + wordSum second := by
  induction first using wordSum.induct with
  | case1 => simp [wordSum]
  | case2 => simp at even
  | case3 x y rest ih =>
    rw [List.cons_append, List.cons_append, wordSum, wordSum, ih (even_rest even)]
    omega

theorem toNat_eq_zero {byte : UInt8} : byte.toNat = 0 ↔ byte = 0 :=
  UInt8.toNat_inj (b := 0)

theorem wordSum_eq_zero : wordSum b = 0 ↔ ∀ x ∈ b, x = 0 := by
  induction b using wordSum.induct with
  | case1 => simp [wordSum]
  | case2 x => simp [wordSum, toNat_eq_zero]
  | case3 x y rest ih => simp [wordSum, ih, toNat_eq_zero, and_assoc]

/-! ## Byte orders -/

/-- What reading in native order multiplies a sum by. -/
def Endian.factor : Endian → Nat
  | .little => 256
  | .big => 1

theorem uint_alike (e : Endian) (even : b.length % 2 = 0) :
    Alike (e.uint b) (e.factor * wordSum b) := by
  cases e with
  | little =>
    induction b using wordSum.induct with
    | case1 => exact ⟨rfl, Iff.rfl⟩
    | case2 => simp at even
    | case3 x y rest ih =>
      have ih := ih (even_rest even)
      simp only [Alike, Endian.uint, Endian.factor, List.reverse_cons, ofBigEndian_concat,
        wordSum] at ih ⊢
      omega
  | big =>
    suffices ∀ v, Alike (b.foldl (fun v byte => v * 256 + byte.toNat) v) (v + wordSum b) by
      simpa [Endian.factor, Endian.uint, ofBigEndian] using this 0
    induction b using wordSum.induct with
    | case1 => exact fun v => ⟨rfl, Iff.rfl⟩
    | case2 => simp at even
    | case3 x y rest ih =>
      intro v
      have ih := ih (even_rest even) ((v * 256 + x.toNat) * 256 + y.toNat)
      simp only [Alike, List.foldl_cons, wordSum] at ih ⊢
      omega

theorem uint_lt (e : Endian) (short : b.length ≤ 8) : e.uint b < 2 ^ 64 := by
  refine Nat.lt_of_lt_of_le ?_ (Nat.pow_le_pow_right (show 0 < 256 by decide) short)
  cases e with
  | little => simpa [Endian.uint] using ofBigEndian_lt b.reverse
  | big => exact ofBigEndian_lt b

theorem length_putUint64 (e : Endian) (v : Nat) : (e.putUint64 v).length = 8 := by
  cases e <;> simp [Endian.putUint64]

theorem swap_spec (e : Endian) (fits : v < 2 ^ 64) : Sums (swap e v) (e.factor * v) := by
  have length := length_putUint64 e v
  have back : e.uint (e.putUint64 v) = v := by
    cases e <;> simpa [Endian.uint, Endian.putUint64] using ofBigEndian_bigEndian_of_lt fits
  have bound := uint_lt .big (b := e.putUint64 v) (by omega)
  have native := uint_alike e (b := e.putUint64 v) (by omega)
  have big := uint_alike .big (b := e.putUint64 v) (by omega)
  rw [back] at native
  refine ⟨bound, ?_⟩
  cases e <;> simp only [Alike, Endian.uint, Endian.factor, swap] at * <;> omega

/-! ## Blocks -/

/-- What is added and what is left have the class of a number. -/
def Holds (e : Endian) (v : Nat) (s : Nat × List UInt8) : Prop :=
  s.1 < 2 ^ 64 ∧ Alike (s.1 + e.factor * wordSum s.2) v

variable {s : Nat × List UInt8}

/-- **No carry is lost.** After every addition there is room for the carry. -/
theorem Holds.add {carry : Nat} (even : size % 2 = 0) (most : size ≤ 8)
    (long : size * count ≤ s.2.length) (holds : Holds e v (s.1 + carry, s.2)) :
    Holds e v (add e size count carry s) := by
  induction count generalizing carry s with
  | zero =>
    rw [Checksum.add, Nat.mod_eq_of_lt holds.1]
    exact holds
  | succ count ih =>
    rw [Nat.mul_succ] at long
    have taken : (s.2.take size).length = size := List.length_take_of_le (by omega)
    have bound := uint_lt e (taken ▸ most)
    have word := uint_alike e (taken.symm ▸ even)
    have split : wordSum s.2 = _ := List.take_append_drop .. ▸ wordSum_append (taken.symm ▸ even)
    obtain ⟨room, left⟩ := holds
    refine ih (by rw [List.length_drop]; omega) ⟨?_, ?_⟩
    · simp only [add64] at *
      omega
    · cases e <;> simp only [add64, Alike, Endian.factor] at * <;> omega

theorem Holds.loop (holds : Holds e v s) :
    Holds e v (loop e s) ∧ (loop e s).2.length < 128 := by
  induction s using Checksum.loop.induct e with
  | case1 s long ih =>
    rw [Checksum.loop, if_pos long]
    exact ih (holds.add rfl (Nat.le_refl 8) long)
  | case2 s short =>
    rw [Checksum.loop, if_neg short]
    exact ⟨holds, Nat.not_le.mp short⟩

/-- **One block.** It halves the bound of what is left. -/
theorem Holds.block (size count : Nat) (even : size % 2 = 0) (most : size ≤ 8)
    (holds : Holds e v s ∧ s.2.length < 2 * (size * count)) :
    Holds e v (block e size count s) ∧ (block e size count s).2.length < size * count := by
  rw [Checksum.block]
  split
  · next long =>
    refine ⟨holds.1.add even most long, ?_⟩
    rw [length_add]
    omega
  · next short => exact ⟨holds.1, Nat.not_le.mp short⟩

theorem Holds.addLast (holds : Holds e v s) (short : s.2.length < 2) : Sums (addLast e s) v := by
  obtain ⟨ac, b⟩ := s
  cases b with
  | nil => simpa [Checksum.addLast, Holds, Sums, wordSum] using holds
  | cons last rest =>
    cases List.length_eq_zero_iff.mp (Nat.lt_one_iff.mp (Nat.lt_of_succ_lt_succ short))
    have padded : Holds e v (ac, [last, 0]) := by simpa [Holds, wordSum] using holds
    have added : Holds e v (Checksum.add e 2 1 0 (ac, [last, 0])) :=
      padded.add rfl (by decide) (Nat.le_refl 2)
    simpa [Holds, Sums, Checksum.add, Checksum.addLast, wordSum] using added

/-- **The class of the sum** is that of the initial value and the words. -/
theorem checksumNoFold_spec (e : Endian) (b : List UInt8) (fits : v < 2 ^ 64) :
    Sums (checksumNoFold e b v) (v + wordSum b) := by
  obtain ⟨bound, swapped⟩ := swap_spec e fits
  have start : Holds e (e.factor * (v + wordSum b)) (swap e v, b) := by
    refine ⟨bound, ?_⟩
    cases e <;> simp only [Alike, Endian.factor] at * <;> omega
  obtain ⟨holds, short⟩ := start.loop |> Holds.block 8 8 rfl (by decide) |>
    Holds.block 8 4 rfl (by decide) |> Holds.block 8 2 rfl (by decide) |>
    Holds.block 8 1 rfl (by decide) |> Holds.block 4 1 rfl (by decide) |>
    Holds.block 2 1 rfl (by decide)
  obtain ⟨room, added⟩ := holds.addLast short
  obtain ⟨bound, back⟩ := swap_spec e room
  rw [checksumNoFold]
  refine ⟨bound, ?_⟩
  cases e <;> simp only [Alike, Endian.factor] at * <;> omega

theorem foldOnce_spec {q : Nat} (bound : v ≤ 2 ^ 16 * q + 65534) :
    foldOnce v ≤ q + 65534 ∧ Alike (foldOnce v) v := by
  simp only [foldOnce, Alike]
  omega

/-- Four folds are enough. -/
theorem fold_spec (fits : v < 2 ^ 64) : fold v < 2 ^ 16 ∧ Alike (fold v) v := by
  have first := foldOnce_spec (q := 2 ^ 48) (show v ≤ 2 ^ 64 + 65534 by omega)
  have second := foldOnce_spec (q := 2 ^ 32) first.1
  have third := foldOnce_spec (q := 2 ^ 16) second.1
  have fourth := foldOnce_spec (q := 1) third.1
  simp only [fold, Alike] at *
  omega

/-- A sum with the class of a text is folded to the sum of the text. -/
theorem fold_eq_onesSum (sum : Sums v (wordSum b)) : fold v = onesSum b := by
  obtain ⟨bound, folded⟩ := fold_spec sum.1
  obtain ⟨small, same⟩ := onesSum_spec b
  refine Alike.eq ?_ bound small
  unfold Sums Alike at *
  omega

theorem checksumNoFold_zero (e : Endian) (b : List UInt8) :
    Sums (checksumNoFold e b 0) (wordSum b) := by
  simpa using checksumNoFold_spec e b (Nat.two_pow_pos 64)

theorem checksum_eq_onesSum (e : Endian) (b : List UInt8) : checksum e b 0 = onesSum b :=
  fold_eq_onesSum (checksumNoFold_zero e b)

/-- Sums chain after a text of even length. -/
theorem checksumNoFold_chain (e : Endian) (second : List UInt8) (even : first.length % 2 = 0)
    (sum : Sums v (wordSum first)) :
    Sums (checksumNoFold e second v) (wordSum (first ++ second)) := by
  obtain ⟨bound, added⟩ := checksumNoFold_spec e second sum.1
  rw [wordSum_append even]
  refine ⟨bound, ?_⟩
  unfold Sums Alike at *
  omega

/-- **Internet checksums**, on either byte order: `checksum` is the one's-complement sum, zero only
for zeroes; sums chain over a split after an even number of bytes; and the pseudo header of
addresses of even length has the sum of its layout for IPv4, and of that for IPv6. -/
theorem checksum_exact (e : Endian) :
    (∀ b, checksum e b 0 = onesSum b ∧ (checksum e b 0 = 0 ↔ ∀ x ∈ b, x = 0)) ∧
    (∀ first second, first.length % 2 = 0 →
      fold (checksumNoFold e second (checksumNoFold e first 0)) = checksum e (first ++ second) 0) ∧
    ∀ protocol srcAddr dstAddr totalLen, srcAddr.length % 2 = 0 → dstAddr.length % 2 = 0 →
      let sum := fold (pseudoHeaderChecksumNoFold e protocol srcAddr dstAddr totalLen)
      sum = onesSum (srcAddr ++ dstAddr ++ [0, protocol] ++ bigEndian 2 totalLen.toNat) ∧
      sum = onesSum (srcAddr ++ dstAddr ++ bigEndian 4 totalLen.toNat ++ [0, 0, 0, protocol]) := by
  refine ⟨fun b => ?_, fun first second even => ?_, fun protocol src dst len evenSrc evenDst => ?_⟩
  · obtain ⟨-, sum⟩ := onesSum_spec b
    rw [checksum_eq_onesSum, sum.2, wordSum_eq_zero]
    exact ⟨rfl, Iff.rfl⟩
  · have chained := checksumNoFold_chain e second even (checksumNoFold_zero e first)
    rw [checksum_eq_onesSum, fold_eq_onesSum chained]
  · have sum := checksumNoFold_zero e src |> checksumNoFold_chain e dst evenSrc |>
      checksumNoFold_chain e [0, protocol] (by simp; omega) |>
      checksumNoFold_chain e (bigEndian 2 len.toNat) (by simp; omega)
    have pair : (src ++ dst).length % 2 = 0 := by rw [List.length_append]; omega
    have same : wordSum (src ++ dst ++ bigEndian 4 len.toNat ++ [0, 0, 0, protocol]) =
        wordSum (src ++ dst ++ [0, protocol] ++ bigEndian 2 len.toNat) := by
      have small := len.toNat_lt
      have high : len.toNat / 256 / 256 = 0 := by omega
      rw [List.append_assoc, wordSum_append pair, List.append_assoc (src ++ dst),
        wordSum_append pair]
      simp only [bigEndian, high, List.nil_append, List.cons_append, wordSum, UInt8.toNat_ofNat']
      simp
      omega
    exact ⟨fold_eq_onesSum sum, fold_eq_onesSum (same ▸ sum)⟩

theorem checksum_exact_ping :
    fold (checksumNoFold .little [7] (checksumNoFold .little [8, 0] 0)) =
      checksum .little [8, 0, 7] 0 ∧
    fold (pseudoHeaderChecksumNoFold .little 17 [10, 0, 0, 1] [10, 0, 0, 2] 9) =
      onesSum [10, 0, 0, 1, 10, 0, 0, 2, 0, 17, 0, 9] :=
  ⟨(checksum_exact .little).2.1 [8, 0] [7] rfl,
    ((checksum_exact .little).2.2 17 [10, 0, 0, 1] [10, 0, 0, 2] 9 rfl rfl).1⟩

end Checksum
