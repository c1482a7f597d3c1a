import WireguardMesh.Net.Addr

/-! # The dotted form of an IPv4 address

`netip.parseIPv4` refuses leading zeros, so the dotted form is canonical: a text parses to
an address exactly when it is that address printed (`Net.parseIPv4_eq_some`). The parser's
loop is followed with the state of the octet being read (`Net.OctetState`).
-/

namespace Net
open GoText

@[simp] theorem joinWith_cons_cons (sep : Char) (s t : List Char) (rest : List (List Char)) :
    joinWith sep (s :: t :: rest) = s ++ sep :: joinWith sep (t :: rest) := rfl

def octetText (value digits : Nat) : List Char :=
  if digits = 0 then [] else itoa value

/-- The states of the dotted-quad loop: no digit of the octet is read yet, or its digits
are the canonical text of its value. -/
structure OctetState (value digits : Nat) : Prop where
  bound : value ≤ 255
  fresh : digits = 0 → value = 0
  canonical : value = 0 → digits ≤ 1

theorem parseIPv4Fields_sound {s : List Char} {value digits : Nat} {fields out : List Nat}
    (state : OctetState value digits) (few : fields.length ≤ 3) (open' : digits = 0 → s ≠ [])
    (parsed : parseIPv4Fields s value digits fields = some out) :
    ∃ tail, out = fields ++ tail ∧ out.length = 4 ∧ (∀ v ∈ tail, v ≤ 255) ∧
      octetText value digits ++ s = joinWith '.' (tail.map itoa) := by
  induction s generalizing value digits fields with
  | nil =>
    rw [parseIPv4Fields] at parsed
    have full : ¬ fields.length < 3 := by
      intro short
      rw [if_pos short] at parsed
      cases parsed
    rw [if_neg full] at parsed
    cases parsed
    have started : digits ≠ 0 := fun none => open' none rfl
    refine ⟨[value], rfl, ?_, ?_, ?_⟩
    · simp only [List.length_append, List.length_singleton]
      omega
    · simpa only [List.mem_singleton, forall_eq] using state.bound
    · simp [octetText, started, joinWith]
  | cons c s ih =>
    rw [parseIPv4Fields] at parsed
    by_cases digit : c.isDigit = true
    · rw [if_pos digit] at parsed
      have leading : ¬ (digits = 1 ∧ value = 0) := by
        intro zero
        rw [if_pos zero] at parsed
        cases parsed
      rw [if_neg leading] at parsed
      have inRange : ¬ value * 10 + (c.toNat - '0'.toNat) > 255 := by
        intro big
        simp only [if_pos big, reduceCtorEq] at parsed
      simp only [if_neg inRange] at parsed
      obtain ⟨shape, small⟩ := digitChar_of_isDigit digit
      have next : OctetState (value * 10 + (c.toNat - '0'.toNat)) (digits + 1) := by
        refine ⟨Nat.le_of_not_lt inRange, fun none => (Nat.succ_ne_zero _ none).elim, ?_⟩
        intro zero
        have : value = 0 := by omega
        have := state.canonical this
        have := state.fresh
        omega
      obtain ⟨tail, split, length, bounds, text⟩ := ih next few
        (fun none => (Nat.succ_ne_zero _ none).elim) parsed
      refine ⟨tail, split, length, bounds, ?_⟩
      rw [← text, octetText, octetText, if_neg (Nat.succ_ne_zero digits)]
      by_cases started : digits = 0
      · rw [if_pos started, state.fresh started, Nat.zero_mul, Nat.zero_add, itoa_of_lt_ten small,
          ← shape]
        rfl
      · have positive : 0 < value := by
          have := state.canonical
          omega
        rw [if_neg started, ← itoa_append_digitChar positive small, ← shape, List.append_assoc]
        rfl
    · rw [if_neg digit] at parsed
      by_cases dot : c = '.'
      · rw [if_pos dot] at parsed
        have proper : ¬ (digits = 0 ∨ s = []) := by
          intro bad
          rw [if_pos bad] at parsed
          cases parsed
        rw [if_neg proper] at parsed
        have room : ¬ fields.length = 3 := by
          intro full
          rw [if_pos full] at parsed
          cases parsed
        rw [if_neg room] at parsed
        have shorter : (fields ++ [value]).length ≤ 3 := by
          simp only [List.length_append, List.length_singleton]
          omega
        obtain ⟨tail, split, length, bounds, text⟩ := ih ⟨by decide, fun _ => rfl, fun _ => by decide⟩
          shorter (fun _ empty => proper (.inr empty)) parsed
        refine ⟨value :: tail, ?_, length, ?_, ?_⟩
        · rw [split, List.append_assoc, List.singleton_append]
        · intro v member
          rcases List.mem_cons.mp member with rfl | later
          · exact state.bound
          · exact bounds v later
        · have more : tail ≠ [] := by
            intro none
            rw [none] at split
            rw [split, List.append_nil] at length
            omega
          obtain ⟨next, rest, rfl⟩ := List.exists_cons_of_ne_nil more
          rw [List.map_cons, List.map_cons, joinWith_cons_cons, ← List.map_cons, ← text, dot,
            octetText, octetText, if_neg (fun none => proper (.inl none)), if_pos rfl]
          rfl
      · rw [if_neg dot] at parsed
        cases parsed

theorem parseIPv4Fields_digit {s : List Char} {value digits d : Nat} {fields : List Nat}
    (small : d < 10) (positive : digits = 0 ∨ 0 < value) (bound : value * 10 + d ≤ 255) :
    parseIPv4Fields (Nat.digitChar d :: s) value digits fields =
      parseIPv4Fields s (value * 10 + d) (digits + 1) fields := by
  have digit : (Nat.digitChar d).isDigit = true :=
    Nat.isDigit_of_mem_toDigits (b := 10) (n := d) (by decide) (by decide)
      (by rw [Nat.toDigits_of_lt_base small]; exact .head _)
  have leading : ¬ (digits = 1 ∧ value = 0) := by omega
  rw [parseIPv4Fields, if_pos digit, if_neg leading, digitChar_toNat_sub small]
  simp only [if_neg (Nat.not_lt.mpr bound)]

theorem parseIPv4Fields_itoa {s : List Char} {n : Nat} {fields : List Nat} (bound : n ≤ 255) :
    parseIPv4Fields (itoa n ++ s) 0 0 fields = parseIPv4Fields s n (itoa n).length fields := by
  induction n using Nat.strongRecOn generalizing s with
  | _ n ih =>
    by_cases small : n < 10
    · rw [itoa_of_lt_ten small, List.singleton_append,
        parseIPv4Fields_digit small (.inl rfl) (by omega), Nat.zero_mul, Nat.zero_add]
      rfl
    · have text : itoa n = itoa (n / 10) ++ [Nat.digitChar (n % 10)] := by
        rw [itoa_append_digitChar (by omega) (Nat.mod_lt _ (by decide)), Nat.div_add_mod']
      rw [text, List.append_assoc, ih (n / 10) (by omega) (by omega), List.singleton_append,
        parseIPv4Fields_digit (Nat.mod_lt _ (by decide)) (.inr (by omega)) (by omega),
        Nat.div_add_mod', List.length_append]
      rfl

theorem parseIPv4Fields_dot {s : List Char} {value digits : Nat} {fields : List Nat}
    (started : digits ≠ 0) (more : s ≠ []) (room : fields.length < 3) :
    parseIPv4Fields ('.' :: s) value digits fields = parseIPv4Fields s 0 0 (fields ++ [value]) := by
  have notDigit : ¬ '.'.isDigit = true := by decide
  rw [parseIPv4Fields, if_neg notDigit, if_pos rfl, if_neg (by simp [started, more]),
    if_neg (by omega)]

theorem length_itoa_ne_zero (n : Nat) : (itoa n).length ≠ 0 :=
  fun none => itoa_ne_nil n (List.length_eq_zero_iff.mp none)

theorem parseIPv4Fields_joined {a b c d : Nat} (ha : a ≤ 255) (hb : b ≤ 255) (hc : c ≤ 255)
    (hd : d ≤ 255) :
    parseIPv4Fields (joinWith '.' [itoa a, itoa b, itoa c, itoa d]) 0 0 [] = some [a, b, c, d] := by
  have nonempty (n : Nat) (rest : List Char) : itoa n ++ rest ≠ [] :=
    fun none => itoa_ne_nil n (List.append_eq_nil_iff.mp none).1
  simp only [joinWith]
  rw [parseIPv4Fields_itoa ha, parseIPv4Fields_dot (length_itoa_ne_zero a) (nonempty _ _) (by simp),
    parseIPv4Fields_itoa hb, parseIPv4Fields_dot (length_itoa_ne_zero b) (nonempty _ _) (by simp),
    parseIPv4Fields_itoa hc, parseIPv4Fields_dot (length_itoa_ne_zero c) (itoa_ne_nil _) (by simp),
    ← List.append_nil (itoa d), parseIPv4Fields_itoa hd]
  rfl

theorem octet_le (bits : BitVec 32) (i : Nat) : Addr.octet bits i ≤ 255 :=
  Nat.le_of_lt_succ (Nat.mod_lt _ (by decide))

theorem ofOctets_octet (bits : BitVec 32) :
    Addr.ofOctets (Addr.octet bits 0) (Addr.octet bits 1) (Addr.octet bits 2) (Addr.octet bits 3) =
      bits := by
  apply BitVec.eq_of_toNat_eq
  have bound := bits.isLt
  simp only [Addr.ofOctets, Addr.octet, BitVec.toNat_ofNat]
  omega

theorem octet_ofOctets {a b c d : Nat} (ha : a ≤ 255) (hb : b ≤ 255) (hc : c ≤ 255) (hd : d ≤ 255) :
    Addr.octet (Addr.ofOctets a b c d) 0 = a ∧ Addr.octet (Addr.ofOctets a b c d) 1 = b ∧
      Addr.octet (Addr.ofOctets a b c d) 2 = c ∧ Addr.octet (Addr.ofOctets a b c d) 3 = d := by
  simp only [Addr.ofOctets, Addr.octet, BitVec.toNat_ofNat]
  omega

theorem parseIPv4Fields_string4 (bits : BitVec 32) :
    parseIPv4Fields (string4 bits) 0 0 [] = some [Addr.octet bits 0, Addr.octet bits 1,
      Addr.octet bits 2, Addr.octet bits 3] :=
  parseIPv4Fields_joined (octet_le _ _) (octet_le _ _) (octet_le _ _) (octet_le _ _)

/-- **The dotted form is canonical.** A text parses to an IPv4 address exactly when it is
that address printed. -/
theorem parseIPv4_eq_some {s : List Char} {bits : BitVec 32} :
    parseIPv4 s = some bits ↔ s = string4 bits := by
  constructor
  · intro parsed
    rw [parseIPv4] at parsed
    cases fields : parseIPv4Fields s 0 0 [] with
    | none => rw [fields] at parsed; cases parsed
    | some out =>
      have started : s ≠ [] := by
        rintro rfl
        cases fields
      obtain ⟨tail, whole, length, bounds, text⟩ := parseIPv4Fields_sound
        ⟨by decide, fun _ => rfl, fun _ => by decide⟩ (by simp) (fun _ => started) fields
      rw [List.nil_append] at whole
      subst whole
      obtain ⟨a, b, c, d, rfl⟩ : ∃ a b c d, out = [a, b, c, d] := by
        match out, length with
        | [a, b, c, d], _ => exact ⟨a, b, c, d, rfl⟩
      rw [fields] at parsed
      cases parsed
      obtain ⟨first, second, third, fourth⟩ := octet_ofOctets (bounds a (by simp))
        (bounds b (by simp)) (bounds c (by simp)) (bounds d (by simp))
      rw [string4, first, second, third, fourth]
      exact text
  · rintro rfl
    rw [parseIPv4, parseIPv4Fields_string4]
    exact congrArg some (ofOctets_octet bits)
end Net
