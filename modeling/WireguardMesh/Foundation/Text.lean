import Mathlib.Algebra.Group.Int.Defs
import Mathlib.Algebra.Group.Nat.Defs
import Mathlib.Data.List.Basic
import Mathlib.Data.List.DropRight

/-! # Go text functions

The functions of Go's `strings`, `strconv` and `unicode` packages that the program
calls, over lists of characters. Splitting at a separator is stated once as an
equation of lists (`GoText.splitLast_eq_some`, `GoText.splitFirst_eq_some`), and the
decimal conversions are inverse on their ranges (`GoText.parseUint_itoa`).
-/

namespace GoText

variable {s : List Char} {sep c : Char} {n : Nat}

instance lawfulTexts : LawfulBEq (List Char) :=
  inferInstance

/-- `unicode.IsSpace`. -/
def isSpace (c : Char) : Bool :=
  c ∈ ['\t', '\n', '\x0b', '\x0c', '\r', ' ', '\u0085', '\u00a0', '\u1680', '\u2028', '\u2029',
    '\u202f', '\u205f', '\u3000'] || ('\u2000' ≤ c && c ≤ '\u200a')

/-- `strings.TrimFunc`. -/
def trimFunc (drop : Char → Bool) (s : List Char) : List Char :=
  (s.dropWhile drop).rdropWhile drop

/-- `strings.TrimSpace`. -/
def trimSpace (s : List Char) : List Char :=
  trimFunc isSpace s

/-- `strings.Trim` with the cutset given as characters. -/
def trim (s cutset : List Char) : List Char :=
  trimFunc (fun c => c ∈ cutset) s

/-- `strings.ContainsAny`. -/
def containsAny (s chars : List Char) : Bool :=
  s.any (fun c => c ∈ chars)

/-- `strings.CutPrefix`: the text after a leading part, if it leads. -/
def cutPrefix (s lead : List Char) : Option (List Char) :=
  s.dropPrefix? lead

theorem cutPrefix_eq_some {lead rest : List Char} :
    cutPrefix s lead = some rest ↔ s = lead ++ rest := by
  rw [cutPrefix, List.dropPrefix?_eq_some_iff]
  constructor
  · rintro ⟨front, whole, same⟩
    rwa [eq_of_beq same] at whole
  · intro whole
    exact ⟨lead, whole, beq_self_eq_true lead⟩

/-- The text before and after the last occurrence of a separator. -/
def splitLast (sep : Char) : List Char → Option (List Char × List Char)
  | [] => none
  | c :: s =>
    match splitLast sep s with
    | some (before, after) => some (c :: before, after)
    | none => if c = sep then some ([], s) else none

/-- The text before and after the first occurrence of a separator. -/
def splitFirst (sep : Char) : List Char → Option (List Char × List Char)
  | [] => none
  | c :: s =>
    if c = sep then some ([], s)
    else (splitFirst sep s).map fun parts => (c :: parts.1, parts.2)

theorem splitLast_eq_none : splitLast sep s = none ↔ sep ∉ s := by
  induction s with
  | nil => simp [splitLast]
  | cons c s ih =>
    cases found : splitLast sep s with
    | some parts =>
      have present : sep ∈ s := by
        by_contra absent
        rw [ih.mpr absent] at found
        exact Option.some_ne_none _ found.symm
      simp [splitLast, found, present]
    | none =>
      have absent := ih.mp found
      by_cases same : c = sep
      · simp [splitLast, found, same]
      · simp [splitLast, found, same, absent, Ne.symm same]

theorem splitLast_eq_some {before after : List Char} :
    splitLast sep s = some (before, after) ↔ s = before ++ sep :: after ∧ sep ∉ after := by
  induction s generalizing before after with
  | nil =>
    simp [splitLast]
  | cons c s ih =>
    cases found : splitLast sep s with
    | some parts =>
      obtain ⟨front, back⟩ := parts
      obtain ⟨shape, clean⟩ := ih.mp found
      simp only [splitLast, found, Option.some.injEq, Prod.mk.injEq]
      constructor
      · rintro ⟨rfl, rfl⟩
        exact ⟨by rw [shape, List.cons_append], clean⟩
      · rintro ⟨whole, absent⟩
        cases before with
        | nil =>
          have rest : s = after := (List.cons.inj whole).2
          rw [← rest, shape] at absent
          exact (absent (List.mem_append_right _ (.head _))).elim
        | cons d before =>
          obtain ⟨rfl, rest⟩ := List.cons.inj whole
          have same := found.symm.trans (ih.mpr ⟨rest, absent⟩)
          obtain ⟨rfl, rfl⟩ := Prod.mk.inj (Option.some.inj same)
          exact ⟨rfl, rfl⟩
    | none =>
      have absent := splitLast_eq_none.mp found
      -- With no separator in the tail, the split is at the head or nowhere.
      have head : c :: s = before ++ sep :: after → before = [] := by
        intro whole
        cases before with
        | nil => rfl
        | cons d before =>
          rw [(List.cons.inj whole).2] at absent
          exact (absent (List.mem_append_right _ (.head _))).elim
      by_cases same : c = sep
      · subst same
        simp only [splitLast, found, ↓reduceIte, Option.some.injEq, Prod.mk.injEq]
        constructor
        · rintro ⟨rfl, rfl⟩
          exact ⟨rfl, absent⟩
        · rintro ⟨whole, _⟩
          obtain rfl := head whole
          exact ⟨rfl, (List.cons.inj whole).2⟩
      · simp only [splitLast, found, same, ↓reduceIte, reduceCtorEq, false_iff, not_and]
        intro whole _
        obtain rfl := head whole
        exact same (List.cons.inj whole).1

theorem splitFirst_eq_none : splitFirst sep s = none ↔ sep ∉ s := by
  induction s with
  | nil => simp [splitFirst]
  | cons c s ih =>
    by_cases same : c = sep
    · simp [splitFirst, same]
    · simp [splitFirst, same, ih, Ne.symm same]

theorem splitFirst_eq_some {before after : List Char} :
    splitFirst sep s = some (before, after) ↔ s = before ++ sep :: after ∧ sep ∉ before := by
  induction s generalizing before with
  | nil =>
    simp [splitFirst]
  | cons c s ih =>
    by_cases same : c = sep
    · subst same
      simp only [splitFirst, ↓reduceIte, Option.some.injEq, Prod.mk.injEq]
      constructor
      · rintro ⟨rfl, rfl⟩
        exact ⟨rfl, List.not_mem_nil⟩
      · rintro ⟨whole, absent⟩
        cases before with
        | nil => exact ⟨rfl, (List.cons.inj whole).2⟩
        | cons d before =>
          exact (absent (by rw [(List.cons.inj whole).1]; exact .head _)).elim
    · simp only [splitFirst, same, ↓reduceIte, Option.map_eq_some_iff, Prod.mk.injEq,
        Prod.exists]
      constructor
      · rintro ⟨front, back, found, rfl, rfl⟩
        obtain ⟨shape, clean⟩ := ih.mp found
        refine ⟨by rw [shape, List.cons_append], ?_⟩
        simp [Ne.symm same, clean]
      · rintro ⟨whole, absent⟩
        cases before with
        | nil => exact (same (List.cons.inj whole).1).elim
        | cons d before =>
          obtain ⟨rfl, rest⟩ := List.cons.inj whole
          exact ⟨before, after, ih.mpr ⟨rest, fun inside => absent (.tail _ inside)⟩,
            rfl, rfl⟩

/-! ## Numbers -/

/-- `strconv.Itoa` of a non-negative number. -/
def itoa (n : Nat) : List Char :=
  Nat.toDigits 10 n

/-- `strconv.Itoa`. -/
def itoaInt (n : Int) : List Char :=
  if n < 0 then '-' :: itoa n.natAbs else itoa n.natAbs

/-- `strconv.FormatBool`. -/
def formatBool (b : Bool) : List Char :=
  if b then "true".toList else "false".toList

/-- The value of a non-empty run of decimal digits. -/
def digits? (s : List Char) : Option Nat :=
  if s ≠ [] ∧ s.all Char.isDigit then some (Nat.ofDigitChars 10 s 0) else none

/-- `strconv.ParseUint(s, 10, bits)`. -/
def parseUint (s : List Char) (bits : Nat) : Option Nat :=
  (digits? s).filter (fun n => n < 2 ^ bits)

/-- `strconv.Atoi` on a platform with 64-bit `int`: an optional sign and decimal digits. -/
def atoi : List Char → Option Int
  | '-' :: s => ((digits? s).filter (fun n => n ≤ 2 ^ 63)).map fun n => -Int.ofNat n
  | '+' :: s => ((digits? s).filter (fun n => n < 2 ^ 63)).map Int.ofNat
  | s => ((digits? s).filter (fun n => n < 2 ^ 63)).map Int.ofNat

theorem itoa_ne_nil (n : Nat) : itoa n ≠ [] :=
  Nat.toDigits_ne_nil

theorem isDigit_of_mem_itoa (member : c ∈ itoa n) : c.isDigit = true :=
  Nat.isDigit_of_mem_toDigits (by decide) (by decide) member

theorem itoa_all_isDigit (n : Nat) : (itoa n).all Char.isDigit = true :=
  List.all_eq_true.mpr fun _ member => isDigit_of_mem_itoa member

theorem itoa_injective : Function.Injective itoa := by
  intro first second same
  rw [← Nat.ofDigitChars_ten_toDigits (n := first), ← Nat.ofDigitChars_ten_toDigits (n := second)]
  exact congrArg (fun s => Nat.ofDigitChars 10 s 0) same

@[simp] theorem digits?_itoa (n : Nat) : digits? (itoa n) = some n := by
  rw [digits?, if_pos ⟨itoa_ne_nil n, itoa_all_isDigit n⟩, itoa, Nat.ofDigitChars_ten_toDigits]

theorem digitChar_toNat_sub {d : Nat} (small : d < 10) :
    (Nat.digitChar d).toNat - '0'.toNat = d := by
  rw [Nat.toNat_digitChar_of_lt_ten small]
  exact Nat.add_sub_cancel_left ..

theorem itoa_of_lt_ten (small : n < 10) : itoa n = [Nat.digitChar n] :=
  Nat.toDigits_of_lt_base small

theorem itoa_append_digitChar {d : Nat} (positive : 0 < n) (small : d < 10) :
    itoa n ++ [Nat.digitChar d] = itoa (n * 10 + d) := by
  have joined := Nat.toDigits_append_toDigits (b := 10) (n := n) (d := d) (by decide) positive small
  rw [Nat.toDigits_of_lt_base small] at joined
  rw [itoa, joined, itoa, Nat.mul_comm]

theorem digitChar_of_isDigit (digit : c.isDigit = true) :
    c = Nat.digitChar (c.toNat - '0'.toNat) ∧ c.toNat - '0'.toNat < 10 := by
  have range : 48 ≤ c.toNat ∧ c.toNat ≤ 57 := by
    exact Char.isDigit_iff_toNat.mp digit
  have zero : '0'.toNat = 48 := rfl
  have small : c.toNat - '0'.toNat < 10 := by omega
  refine ⟨Char.toNat_inj.mp ?_, small⟩
  rw [Nat.toNat_digitChar_of_lt_ten small]
  omega

theorem headD_itoa_of_pos (positive : 0 < n) :
    '1' ≤ (itoa n).headD '0' ∧ (itoa n).headD '0' ≤ '9' := by
  induction n using Nat.strongRecOn with
  | _ n ih =>
    by_cases small : n < 10
    · have digits : ∀ d < 10, 0 < d → '1' ≤ Nat.digitChar d ∧ Nat.digitChar d ≤ '9' := by decide
      rw [itoa_of_lt_ten small]
      exact digits n small positive
    · have head := ih (n / 10) (by omega) (by omega)
      obtain ⟨c, s, shape⟩ := List.exists_cons_of_ne_nil (itoa_ne_nil (n / 10))
      rw [← Nat.div_add_mod' n 10, ← itoa_append_digitChar (by omega) (Nat.mod_lt n (by decide)),
        shape]
      rw [shape] at head
      exact head

theorem atoi_itoa (small : n < 2 ^ 63) : atoi (itoa n) = some (Int.ofNat n) := by
  have read : digits? (itoa n) = some n := digits?_itoa n
  obtain ⟨c, s, shape⟩ := List.exists_cons_of_ne_nil (itoa_ne_nil n)
  have digit : c.isDigit = true := isDigit_of_mem_itoa (shape ▸ List.mem_cons_self)
  rw [shape] at read ⊢
  rw [atoi.eq_def]
  split
  · next minus =>
    cases minus
    exact absurd digit (by decide)
  · next plus =>
    cases plus
    exact absurd digit (by decide)
  · rw [read, Option.filter_some, if_pos (decide_eq_true small), Option.map_some]

theorem parseUint_itoa {bits : Nat} (bound : n < 2 ^ bits) : parseUint (itoa n) bits = some n := by
  rw [parseUint, digits?_itoa, Option.filter_some, if_pos (decide_eq_true bound)]

theorem digits?_eq_some (found : digits? s = some n) :
    s ≠ [] ∧ s.all Char.isDigit = true ∧ Nat.ofDigitChars 10 s 0 = n := by
  unfold digits? at found
  split at found
  · rename_i shape
    exact ⟨shape.1, shape.2, Option.some.inj found⟩
  · exact (Option.some_ne_none _ found.symm).elim

/-- A character that is a decimal digit is none of the given non-digits. -/
theorem not_mem_of_isDigit
    (digits : s.all Char.isDigit = true) (other : c.isDigit = false) : c ∉ s := by
  intro member
  exact Bool.false_ne_true (other.symm.trans (List.all_eq_true.mp digits c member))

/-- Trimming leaves a text alone exactly when its first and last characters are kept. -/
theorem trimFunc_eq_self_iff {drop : Char → Bool} :
    trimFunc drop s = s ↔ (∀ c, s.head? = some c → drop c = false) ∧
      ∀ c, s.getLast? = some c → drop c = false := by
  have front : s.dropWhile drop = s ↔ ∀ c, s.head? = some c → drop c = false := by
    cases s with
    | nil => simp
    | cons c s => simp [List.dropWhile_eq_self_iff]
  have back : s.rdropWhile drop = s ↔ ∀ c, s.getLast? = some c → drop c = false := by
    cases s using List.reverseRecOn with
    | nil => simp
    | append_singleton s c => simp [List.rdropWhile_eq_self_iff]
  constructor
  · intro same
    have kept : s.dropWhile drop = s := by
      apply List.IsSuffix.eq_of_length (List.dropWhile_suffix drop)
      apply Nat.le_antisymm (List.dropWhile_suffix drop).length_le
      calc s.length = (trimFunc drop s).length := by rw [same]
        _ ≤ (s.dropWhile drop).length := (List.rdropWhile_prefix drop _).length_le
    rw [trimFunc, kept] at same
    exact ⟨front.mp kept, back.mp same⟩
  · rintro ⟨first, last⟩
    rw [trimFunc, front.mpr first, back.mpr last]

theorem trimFunc_trimFunc (drop : Char → Bool) (s : List Char) :
    trimFunc drop (trimFunc drop s) = trimFunc drop s := by
  have front : (trimFunc drop s).dropWhile drop = trimFunc drop s := by
    rw [List.dropWhile_eq_self_iff]
    intro long
    have first := List.IsPrefix.getElem (List.rdropWhile_prefix drop (s.dropWhile drop)) long
    rw [show (trimFunc drop s)[0] = _ from first]
    exact List.dropWhile_get_zero_not drop s _
  rw [trimFunc, front, trimFunc, List.rdropWhile_idempotent]

theorem isSpace_of_isDigit (digit : c.isDigit = true) : isSpace c = false := by
  obtain ⟨shape, small⟩ := digitChar_of_isDigit digit
  have clear : ∀ d < 10, isSpace (Nat.digitChar d) = false := by decide
  rw [shape]
  exact clear _ small

/-- A number text without sign and without leading zeros consists of digits. -/
theorem isDigit_of_atoi {n : Int} (parsed : atoi s = some n)
    (canonical : ¬ (1 < s.length ∧ ¬ ('1' ≤ s.headD '0' ∧ s.headD '0' ≤ '9'))) :
    s ≠ [] ∧ s.all Char.isDigit = true := by
  have unsigned : ∀ c, c.isDigit = false → ¬ ('1' ≤ c ∧ c ≤ '9') → ∀ t, s = c :: t →
      (digits? t).isSome = true → False := by
    intro c _ outside t shape some
    have more : t ≠ [] := by
      rintro rfl
      cases some
    apply canonical
    rw [shape]
    refine ⟨?_, outside⟩
    rw [List.length_cons]
    exact Nat.succ_lt_succ (List.length_pos_iff.mpr more)
  rw [atoi.eq_def] at parsed
  split at parsed
  · next t =>
    refine (unsigned '-' (by decide) (by decide) t rfl ?_).elim
    obtain ⟨_, found, _⟩ := Option.map_eq_some_iff.mp parsed
    rw [(Option.filter_eq_some_iff.mp found).1]
    rfl
  · next t =>
    refine (unsigned '+' (by decide) (by decide) t rfl ?_).elim
    obtain ⟨_, found, _⟩ := Option.map_eq_some_iff.mp parsed
    rw [(Option.filter_eq_some_iff.mp found).1]
    rfl
  · obtain ⟨_, found, _⟩ := Option.map_eq_some_iff.mp parsed
    obtain ⟨nonempty, digits, _⟩ := digits?_eq_some (Option.filter_eq_some_iff.mp found).1
    exact ⟨nonempty, digits⟩

/-- A text that `Atoi` reads as a positive number in range is read by `ParseUint` too, unless
it has a plus sign. -/
theorem parseUint_of_atoi {n : Int} {bits : Nat} (parsed : atoi s = some n)
    (positive : 0 < n) (bound : n < 2 ^ bits) :
    (parseUint s bits).isSome = true ↔ s.head? ≠ some '+' := by
  rw [atoi.eq_def] at parsed
  split at parsed
  · obtain ⟨k, _, rfl⟩ := Option.map_eq_some_iff.mp parsed
    rw [Int.ofNat_eq_natCast] at positive
    omega
  · next t =>
    have sign : digits? ('+' :: t) = none := rfl
    rw [parseUint, sign]
    simp
  · next plain =>
    obtain ⟨k, found, rfl⟩ := Option.map_eq_some_iff.mp parsed
    have read := (Option.filter_eq_some_iff.mp found).1
    have small : k < 2 ^ bits := by
      rw [Int.ofNat_eq_natCast] at bound
      exact_mod_cast bound
    refine iff_of_true ?_ fun first => ?_
    · rw [parseUint, read, Option.filter_some, if_pos (decide_eq_true small)]
      rfl
    · cases s with
      | nil => cases first
      | cons c s => exact plain s (by rw [Option.some.inj first])

end GoText
