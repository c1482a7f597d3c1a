import WireguardMesh.Core.Models
import WireguardMesh.Foundation.Framing

/-! # Printed instants

`Time.Format(time.RFC3339Nano)` for instants in UTC. The parts after the year have a fixed
width, and trailing zeros of the nanoseconds can be filled in again, so different instants
are printed differently (`Time.format_injective`).
-/

namespace Core

open GoText

/-- `appendInt` of the `time` package: a decimal number with at least `width` digits. -/
def appendInt (n : Int) (width : Nat) : List Char :=
  let digits := itoa n.natAbs
  (if n < 0 then ['-'] else []) ++ List.replicate (width - digits.length) '0' ++ digits

/-- `appendNano`: the nanoseconds after a dot, without trailing zeros; nothing for zero. -/
def appendNano (nano : Nat) : List Char :=
  let digits := (appendInt nano 9).rdropWhile (· = '0')
  if digits = [] then [] else '.' :: digits

def Time.date (t : Time) : List Char :=
  appendInt t.year 4 ++ '-' :: appendInt t.month 2 ++ '-' :: appendInt t.day 2

/-- The time of day of an instant, with the zone of UTC. -/
def Time.clock (t : Time) : List Char :=
  appendInt t.hour 2 ++ ':' :: appendInt t.minute 2 ++ ':' :: appendInt t.second 2 ++
    appendNano t.nano ++ ['Z']

/-- `Time.Format(time.RFC3339Nano)` of an instant in UTC. -/
def Time.format (t : Time) : List Char :=
  t.date ++ 'T' :: t.clock

/-! ## Padded numbers -/

theorem mem_appendInt {n : Int} {width : Nat} {c : Char} (member : c ∈ appendInt n width) :
    c.isDigit = true ∨ c = '-' := by
  rw [appendInt, List.mem_append, List.mem_append] at member
  rcases member with (sign | zero) | digit
  · split at sign
    · exact .inr (List.mem_singleton.mp sign)
    · cases sign
  · rw [List.eq_of_mem_replicate zero]
    exact .inl rfl
  · exact .inl (isDigit_of_mem_itoa digit)

theorem ofDigitChars_padded (k n : Nat) :
    Nat.ofDigitChars 10 (List.replicate k '0' ++ itoa n) 0 = n := by
  rw [Nat.ofDigitChars_append, Nat.ofDigitChars_replicate_zero, Nat.mul_zero, itoa,
    Nat.ofDigitChars_ten_toDigits]

theorem appendInt_injective {n m : Int} {width : Nat} (same : appendInt n width = appendInt m width) :
    n = m := by
  have noSign (k a b : Nat) (t : List Char) :
      List.replicate k '0' ++ itoa a ≠ '-' :: (List.replicate b '0' ++ t) := by
    intro shape
    have sign : '-' ∈ List.replicate k '0' ++ itoa a := by
      rw [shape]
      exact .head _
    rcases List.mem_append.mp sign with zero | digit
    · exact absurd (List.eq_of_mem_replicate zero) (by decide)
    · exact absurd (isDigit_of_mem_itoa digit) (by decide)
  have magnitude {a b : Nat} (equal : List.replicate (width - (itoa a).length) '0' ++ itoa a =
      List.replicate (width - (itoa b).length) '0' ++ itoa b) : a = b := by
    rw [← ofDigitChars_padded (width - (itoa a).length) a, equal, ofDigitChars_padded]
  unfold appendInt at same
  split at same
  · split at same
    · have equal := magnitude (List.cons.inj same).2
      omega
    · exact (noSign _ _ _ _ same.symm).elim
  · split at same
    · exact (noSign _ _ _ _ same).elim
    · have equal := magnitude same
      omega

theorem length_appendInt {n width : Nat} (positive : 0 < width) (small : n < 10 ^ width) :
    (appendInt n width).length = width := by
  have fits : (itoa n).length ≤ width :=
    (Nat.length_toDigits_le_iff (by decide) positive).mpr small
  have sign : ¬ (n : Int) < 0 := by omega
  simp only [appendInt, if_neg sign, Int.natAbs_natCast, List.nil_append, List.length_append,
    List.length_replicate]
  omega

/-! ## Nanoseconds -/

theorem rdropWhile_zero_injective {left right : List Char} (size : left.length = right.length)
    (same : left.rdropWhile (· = '0') = right.rdropWhile (· = '0')) : left = right := by
  have zeros (s : List Char) : s.rtakeWhile (· = '0') =
      List.replicate (s.length - (s.rdropWhile (· = '0')).length) '0' := by
    have parts := congrArg List.length (List.rdropWhile_append_rtakeWhile (p := (· = '0')) (l := s))
    rw [List.length_append] at parts
    rw [List.eq_replicate_iff]
    refine ⟨by omega, fun c member => ?_⟩
    simpa using List.mem_rtakeWhile_imp member
  rw [← List.rdropWhile_append_rtakeWhile (p := (· = '0')) (l := left),
    ← List.rdropWhile_append_rtakeWhile (p := (· = '0')) (l := right), zeros, zeros, same, size]

theorem appendNano_injective {n m : Nat} (smallN : n < 1000000000) (smallM : m < 1000000000)
    (same : appendNano n = appendNano m) : n = m := by
  have digits : (appendInt n 9).rdropWhile (· = '0') = (appendInt m 9).rdropWhile (· = '0') := by
    unfold appendNano at same
    dsimp only at same
    split at same
    · next none =>
      split at same
      · next none' => rw [none, none']
      · cases same
    · split at same
      · cases same
      · exact (List.cons.inj same).2
  have size : (appendInt n 9).length = (appendInt m 9).length := by
    rw [length_appendInt (by decide) smallN, length_appendInt (by decide) smallM]
  exact Int.ofNat.inj (appendInt_injective (rdropWhile_zero_injective size digits))

/-! ## Instants -/

theorem mem_date {t : Time} {c : Char} (member : c ∈ t.date) : c.isDigit = true ∨ c = '-' := by
  simp only [Time.date, List.mem_append, List.mem_cons] at member
  rcases member with (year | dash | month) | dash | day
  · exact mem_appendInt year
  · exact .inr dash
  · exact mem_appendInt month
  · exact .inr dash
  · exact mem_appendInt day

theorem mem_appendNano {n : Nat} {c : Char} (member : c ∈ appendNano n) :
    c.isDigit = true ∨ c = '-' ∨ c = '.' := by
  unfold appendNano at member
  dsimp only at member
  split at member
  · cases member
  · rcases List.mem_cons.mp member with dot | digit
    · exact .inr (.inr dot)
    · have printed := mem_appendInt ((List.rdropWhile_prefix _ _).subset digit)
      exact printed.imp_right .inl

theorem mem_format {t : Time} {c : Char} (member : c ∈ t.format) :
    c.isDigit = true ∨ c ∈ ['-', 'T', ':', '.', 'Z'] := by
  have number {n : Int} {width : Nat} (inside : c ∈ appendInt n width) :
      c.isDigit = true ∨ c ∈ ['-', 'T', ':', '.', 'Z'] :=
    (mem_appendInt inside).imp_right fun dash => by simp [dash]
  simp only [Time.format, Time.clock, List.mem_append, List.mem_cons, List.not_mem_nil,
    or_false] at member
  rcases member with date | sep | (((hour | sep | minute) | sep | second) | nano) | zone
  · exact (mem_date date).imp_right fun dash => by simp [dash]
  · exact .inr (by simp [sep])
  · exact number hour
  · exact .inr (by simp [sep])
  · exact number minute
  · exact .inr (by simp [sep])
  · exact number second
  · rcases mem_appendNano nano with digit | dash | dot
    · exact .inl digit
    · exact .inr (by simp [dash])
    · exact .inr (by simp [dot])
  · exact .inr (by simp [zone])

/-- A separator and two digits at the end of a text are determined, and so is the rest. -/
theorem append_two_injective {left right : List Char} {sep : Char} {n m : Nat} (smallN : n < 100)
    (smallM : m < 100) (same : left ++ sep :: appendInt n 2 = right ++ sep :: appendInt m 2) :
    left = right ∧ n = m := by
  have size : (sep :: appendInt n 2).length = (sep :: appendInt m 2).length := by
    rw [List.length_cons, List.length_cons, length_appendInt (by decide) smallN,
      length_appendInt (by decide) smallM]
  obtain ⟨front, back⟩ := List.append_inj' same size
  exact ⟨front, Int.ofNat.inj (appendInt_injective (List.cons.inj back).2)⟩

theorem Time.date_injective {t u : Time} (same : t.date = u.date) :
    t.year = u.year ∧ t.month = u.month ∧ t.day = u.day := by
  have rangeT := t.inRange
  have rangeU := u.inRange
  obtain ⟨front, day⟩ := append_two_injective (by omega) (by omega) same
  obtain ⟨year, month⟩ := append_two_injective (by omega) (by omega) front
  exact ⟨appendInt_injective year, month, day⟩

theorem Time.clock_injective {t u : Time} (same : t.clock = u.clock) :
    t.hour = u.hour ∧ t.minute = u.minute ∧ t.second = u.second ∧ t.nano = u.nano := by
  have rangeT := t.inRange
  have rangeU := u.inRange
  have size (v : Time) : (appendInt v.hour 2 ++ ':' :: appendInt v.minute 2 ++
      ':' :: appendInt v.second 2).length = 8 := by
    have range := v.inRange
    have two {n : Nat} (small : n < 100) : (appendInt n 2).length = 2 :=
      length_appendInt (by decide) small
    simp [two (n := v.hour) (by omega), two (n := v.minute) (by omega),
      two (n := v.second) (by omega)]
  obtain ⟨whole, _⟩ := List.append_inj' same rfl
  obtain ⟨digits, nano⟩ := List.append_inj whole (by rw [size, size])
  obtain ⟨front, second⟩ := append_two_injective (by omega) (by omega) digits
  obtain ⟨hour, minute⟩ := append_two_injective (by omega) (by omega) front
  exact ⟨Int.ofNat.inj (appendInt_injective hour), minute, second,
    appendNano_injective (by omega) (by omega) nano⟩

/-- **Different instants are printed differently.** -/
theorem Time.format_injective : Function.Injective Time.format := by
  intro t u same
  have noT (v : Time) : 'T' ∉ v.date := by
    intro member
    rcases mem_date member with digit | dash
    · exact absurd digit (by decide)
    · exact absurd dash (by decide)
  obtain ⟨dates, clocks⟩ := Framing.append_sep_injective (noT t) (noT u) same
  obtain ⟨year, month, day⟩ := Time.date_injective dates
  obtain ⟨hour, minute, second, nano⟩ := Time.clock_injective clocks
  cases t
  cases u
  cases year
  cases month
  cases day
  cases hour
  cases minute
  cases second
  cases nano
  rfl

end Core
