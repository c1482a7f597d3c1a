import Mathlib.Algebra.Order.Group.Nat
import Mathlib.Data.List.Induction
import Mathlib.Data.Nat.ModEq

/-! # Readers with a sticky error

A decoder that walks over a list of bytes, keeps the first error it meets and goes on with
zero values after it. A program on such a reader either returns or panics, as a slice of a Go
program does outside its bounds (`slice`).

`Reads read w a` says that `read` takes `w` off the front of any input and returns `a`; it is
proved along the program. For arbitrary input, `Safe` says that a program returns, leaves a rest of
its input and keeps an error, and `Meets` also what is known of its value when no error is left.
-/

namespace Sticky

variable {β ε α γ : Type}

/-- The input that is left, and the first error. -/
structure Reader (β ε : Type) where
  b : List β
  err : Option ε

/-- A program on a reader; none when it panics. -/
abbrev Read (β ε α : Type) := StateT (Reader β ε) Option α

/-- Whether so much input is left; if not, the input is too short. -/
def need (short : ε) (n : Int) : Read β ε Bool := fun r =>
  if r.err.isSome then some (false, r)
  else if (r.b.length : Int) < n then some (false, { r with err := some short })
  else some (true, r)

/-- The first elements of the input, which panics when there are not as many. -/
def slice (n : Int) : Read β ε (List β) := fun r =>
  if 0 ≤ n ∧ n ≤ r.b.length then some (r.b.take n.toNat, { r with b := r.b.drop n.toNat })
  else none

/-- The first elements of the input, or none with an error. -/
def bytes (short : ε) (n : Int) : Read β ε (Option (List β)) := do
  if ← need short n then
    let v ← slice n
    pure (some v)
  else pure none

/-- An error, unless there is one already. -/
def fail (e : ε) : Read β ε Unit := fun r =>
  some ((), { r with err := r.err.or (some e) })

/-- Whether there is no error. -/
def ok : Read β ε Bool := fun r =>
  some (r.err.isNone, r)

/-- Whether there is no error and some input is left. -/
def more : Read β ε Bool := fun r =>
  some (r.err.isNone && !r.b.isEmpty, r)

/-- A program so many times. -/
def times (read : Read β ε α) : Nat → Read β ε (List α)
  | 0 => pure []
  | n + 1 => do
      let a ← read
      let rest ← times read n
      pure (a :: rest)

/-- A program so many times, unless there is an error. -/
def timesWhileOk (read : Read β ε α) : Nat → Read β ε (List α)
  | 0 => pure []
  | n + 1 => do
      if ← ok then
        let a ← read
        let rest ← timesWhileOk read n
        pure (a :: rest)
      else pure []

/-- A program for every element of a list. -/
def each (read : α → Read β ε γ) : List α → Read β ε (List γ)
  | [] => pure []
  | a :: list => do
      let c ← read a
      let rest ← each read list
      pure (c :: rest)

variable {x read : Read β ε α} {r r' : Reader β ε} {a : α} {f : α → Read β ε γ} {c : γ}
  {input w : List β} {n : Int} {P : α → Prop}

theorem bind_eq (x : Read β ε α) (f : α → Read β ε γ) (r : Reader β ε) :
    (x >>= f) r = (x r).bind fun result => f result.1 result.2 :=
  rfl

theorem bind_of_some (done : x r = some (a, r')) (f : α → Read β ε γ) : (x >>= f) r = f a r' := by
  rw [bind_eq, done]
  rfl

theorem bind_eq_some : (x >>= f) r = some (c, r') ↔ ∃ a between, x r = some (a, between) ∧
      f a between = some (c, r') := by
  rw [bind_eq, Option.bind_eq_some_iff]
  constructor
  · rintro ⟨⟨a, between⟩, first, second⟩
    exact ⟨a, between, first, second⟩
  · rintro ⟨a, between, first, second⟩
    exact ⟨⟨a, between⟩, first, second⟩

theorem of_map_eq_some {f : α → γ} (done : (f <$> x) r = some (c, r')) :
    ∃ a, x r = some (a, r') ∧ f a = c := by
  obtain ⟨a, between, first, second⟩ := bind_eq_some.mp
    (show (x >>= fun a => pure (f a)) r = some (c, r') from done)
  cases second
  exact ⟨a, first, rfl⟩

/-! ## Reading what was written -/

/-- A program that takes a text off the front of its input and returns a value. -/
def Reads (read : Read β ε α) (w : List β) (a : α) : Prop :=
  ∀ rest, read ⟨w ++ rest, none⟩ = some (a, ⟨rest, none⟩)

theorem Reads.pure (a : α) : Reads (pure a : Read β ε α) [] a :=
  fun _ => rfl

theorem Reads.bind {w' : List β} (first : Reads x w a) (second : Reads (f a) w' c) :
    Reads (x >>= f) (w ++ w') c := by
  intro rest
  rw [bind_eq, List.append_assoc, first]
  exact second rest

theorem Reads.bind_nil (first : Reads x w a) (second : Reads (f a) [] c) : Reads (x >>= f) w c := by
  rw [← List.append_nil w]
  exact first.bind second

theorem Reads.map {f : α → γ} (first : Reads x w a) : Reads (f <$> x) w (f a) :=
  Reads.bind_nil (f := fun a => Pure.pure (f a)) first (.pure (f a))

theorem Reads.ok : Reads (ok : Read β ε Bool) [] true :=
  fun _ => rfl

/-- **What `bytes` does**: nothing after an error, and otherwise an error, a slice or a panic. -/
theorem bytes_eq (short : ε) (n : Int) (r : Reader β ε) : bytes short n r =
    if r.err.isSome then some (none, r)
    else if (r.b.length : Int) < n then some (none, { r with err := some short })
    else if 0 ≤ n then some (some (r.b.take n.toNat), { r with b := r.b.drop n.toNat })
    else none := by
  rw [bytes, bind_eq, need]
  split
  · rfl
  · split
    · rfl
    · next long =>
      change (slice n >>= fun v => Pure.pure (some v)) r = _
      rw [bind_eq, slice]
      by_cases natural : 0 ≤ n
      · rw [if_pos ⟨natural, Int.not_lt.mp long⟩, if_pos natural]
        rfl
      · rw [if_neg fun inside => natural inside.1, if_neg natural]
        rfl

theorem Reads.bytes (short : ε) (length : (w.length : Int) = n) :
    Reads (bytes short n) w (some w) := by
  subst length
  intro rest
  rw [bytes_eq, if_neg nofun, if_neg (by rw [List.length_append]; omega),
    if_pos (Int.natCast_nonneg _), Int.toNat_natCast, List.take_left, List.drop_left]

theorem Reads.cons {w' : List β} {rest : Read β ε (List α)} {list : List α} (first : Reads x w a)
    (later : Reads rest w' list) :
    Reads (do let a ← x; let list ← rest; Pure.pure (a :: list)) (w ++ w') (a :: list) :=
  first.bind (later.bind_nil (.pure (a :: list)))

theorem Reads.times {write : γ → List β} {value : γ → α} {list : List γ}
    (one : ∀ c ∈ list, Reads read (write c) (value c)) :
    Reads (times read list.length) (list.flatMap write) (list.map value) := by
  induction list with
  | nil => exact .pure []
  | cons c list ih => exact (one c (.head _)).cons (ih fun c' later => one c' (.tail _ later))

theorem Reads.timesWhileOk {write : γ → List β} {value : γ → α} {list : List γ}
    (one : ∀ c ∈ list, Reads read (write c) (value c)) :
    Reads (timesWhileOk read list.length) (list.flatMap write) (list.map value) := by
  induction list with
  | nil => exact .pure []
  | cons c list ih =>
    exact Reads.ok.bind ((one c (.head _)).cons (ih fun c' later => one c' (.tail _ later)))

theorem Reads.each {δ : Type} {read : α → Read β ε γ} {start : δ → α} {write : δ → List β}
    {value : δ → γ} {list : List δ} (one : ∀ d ∈ list, Reads (read (start d)) (write d) (value d)) :
    Reads (each read (list.map start)) (list.flatMap write) (list.map value) := by
  induction list with
  | nil => exact .pure []
  | cons d list ih => exact (one d (.head _)).cons (ih fun d' later => one d' (.tail _ later))

theorem more_of_ne_nil (left : input ≠ []) :
    more ⟨input, (none : Option ε)⟩ = some (true, ⟨input, none⟩) := by
  rw [more, List.isEmpty_eq_false_iff.mpr left]
  rfl

theorem Reads.more_bind {f : Bool → Read β ε γ} (some : w ≠ []) (second : Reads (f true) w c) :
    Reads (more >>= f) w c := by
  intro rest
  rw [bind_of_some (more_of_ne_nil (List.append_ne_nil_of_left_ne_nil some rest))]
  exact second rest

/-- A program that takes a text as its whole input and returns a value. -/
def ReadsAll (read : Read β ε α) (w : List β) (a : α) : Prop :=
  read ⟨w, none⟩ = some (a, ⟨[], none⟩)

theorem Reads.all (reads : Reads read w a) : ReadsAll read w a := by
  have whole := reads []
  rwa [List.append_nil] at whole

theorem Reads.bind_all {w' : List β} (first : Reads x w a) (second : ReadsAll (f a) w' c) :
    ReadsAll (x >>= f) (w ++ w') c := by
  rw [ReadsAll, bind_eq, first]
  exact second

theorem ReadsAll.more_bind {f : Bool → Read β ε γ} (second : ReadsAll (f false) [] c) :
    ReadsAll (more >>= f) [] c :=
  second

/-! ## Arbitrary input -/

/-- What is left is a rest of what was there, and an error stays. -/
structure After (r r' : Reader β ε) : Prop where
  rest : ∃ used, r.b = used ++ r'.b
  err : r.err.isSome = true → r'.err.isSome = true

theorem After.refl (r : Reader β ε) : After r r :=
  ⟨⟨[], rfl⟩, fun failed => failed⟩

theorem After.trans {r'' : Reader β ε} (first : After r r') (second : After r' r'') :
    After r r'' := by
  obtain ⟨used, split⟩ := first.rest
  obtain ⟨used', split'⟩ := second.rest
  refine ⟨⟨used ++ used', ?_⟩, fun failed => second.err (first.err failed)⟩
  rw [List.append_assoc, ← split', split]

theorem After.fine (after : After r r') (fine : r'.err = none) : r.err = none := by
  by_contra failed
  have still := after.err (Option.isSome_iff_ne_none.mpr failed)
  rw [fine] at still
  cases still

/-- A program that leaves a rest of its input and keeps an error, when it returns. -/
def Sound (read : Read β ε α) : Prop :=
  ∀ ⦃r r' : Reader β ε⦄ ⦃a : α⦄, read r = some (a, r') → After r r'

/-- A program that returns on every input, leaves a rest of it and keeps an error. -/
structure Safe (read : Read β ε α) : Prop where
  returns : ∀ r, ∃ a r', read r = some (a, r')
  sound : Sound read

/-- What is known of the value when no error is left. -/
def Ensures (read : Read β ε α) (P : α → Prop) : Prop :=
  ∀ ⦃r r' : Reader β ε⦄ ⦃a : α⦄, read r = some (a, r') → r'.err = none → P a

theorem Sound.pure (a : α) : Sound (pure a : Read β ε α) := by
  intro r r' a' done
  cases done
  exact .refl r

theorem Sound.bind (first : Sound x) (second : ∀ a, Sound (f a)) : Sound (x >>= f) := by
  intro r r' c done
  obtain ⟨a, between, done, done'⟩ := bind_eq_some.mp done
  exact (first done).trans (second a done')

theorem Safe.pure (a : α) : Safe (pure a : Read β ε α) :=
  ⟨fun r => ⟨a, r, rfl⟩, .pure a⟩

theorem Safe.bind (first : Safe x) (second : ∀ a, Safe (f a)) : Safe (x >>= f) := by
  refine ⟨fun r => ?_, first.sound.bind fun a => (second a).sound⟩
  obtain ⟨a, between, done⟩ := first.returns r
  obtain ⟨c, r', done'⟩ := (second a).returns between
  exact ⟨c, r', bind_eq_some.mpr ⟨a, between, done, done'⟩⟩

theorem Safe.map {f : α → γ} (first : Safe x) : Safe (f <$> x) :=
  first.bind fun a => .pure (f a)

theorem Safe.ite {c : Prop} [Decidable c] {y : Read β ε α} (first : Safe x) (second : Safe y) :
    Safe (if c then x else y) := by
  split
  · exact first
  · exact second

theorem Ensures.pure (holds : P a) : Ensures (pure a : Read β ε α) P := by
  intro r r' a' done _
  cases done
  exact holds

theorem Ensures.bind {Q : γ → Prop} (first : Ensures x P) (sound : ∀ a, Sound (f a))
    (second : ∀ a, P a → Ensures (f a) Q) : Ensures (x >>= f) Q := by
  intro r r' c done fine
  obtain ⟨a, between, done, done'⟩ := bind_eq_some.mp done
  exact second a (first done ((sound a done').fine fine)) done' fine

theorem Ensures.trivial (read : Read β ε α) : Ensures read fun _ => True :=
  fun _ _ _ _ _ => True.intro

/-- A safe program, with what is known of its value when no error is left. -/
structure Meets (read : Read β ε α) (P : α → Prop) : Prop where
  safe : Safe read
  ensures : Ensures read P

theorem Safe.meets (safe : Safe read) : Meets read fun _ => True :=
  ⟨safe, .trivial read⟩

theorem Meets.pure (holds : P a) : Meets (pure a : Read β ε α) P :=
  ⟨.pure a, .pure holds⟩

theorem Meets.bind {Q : γ → Prop}
    (first : Meets x P) (second : ∀ a, Meets (f a) fun c => P a → Q c) : Meets (x >>= f) Q := by
  refine ⟨first.safe.bind fun a => (second a).safe, ?_⟩
  refine first.ensures.bind (fun a => (second a).safe.sound) fun a holds => ?_
  intro r r' c done fine
  exact (second a).ensures done fine holds

theorem Meets.ite {c : Prop} [Decidable c] {y : Read β ε α} (first : Meets x fun a => c → P a)
    (second : Meets y fun a => ¬ c → P a) : Meets (if c then x else y) P := by
  split
  · next holds => exact ⟨first.safe, fun _ _ _ done fine => first.ensures done fine holds⟩
  · next fails => exact ⟨second.safe, fun _ _ _ done fine => second.ensures done fine fails⟩

/-! ### The programs -/

theorem Sound.bytes (short : ε) (n : Int) : Sound (bytes short n : Read β ε _) := by
  intro r r' v done
  rw [bytes_eq] at done
  split at done
  · cases done
    exact .refl r
  · split at done
    · cases done
      exact ⟨⟨[], rfl⟩, fun _ => rfl⟩
    · split at done
      · cases done
        exact ⟨⟨_, (List.take_append_drop _ _).symm⟩, fun failed => failed⟩
      · cases done

/-- A slice of a negative length is taken whenever there is no error, and panics. -/
theorem bytes_eq_none {short : ε} : bytes short n r = none ↔ n < 0 ∧ r.err = none := by
  rw [bytes_eq]
  split
  · next failed => exact iff_of_false nofun fun both => by simp [both.2] at failed
  · next fine =>
    rw [Option.not_isSome_iff_eq_none] at fine
    split
    · next long => exact iff_of_false nofun fun both => by omega
    · split
      · next natural => exact iff_of_false nofun fun both => by omega
      · next negative => exact iff_of_true rfl ⟨Int.not_le.mp negative, fine⟩

theorem Safe.bytes (short : ε) (natural : 0 ≤ n) : Safe (bytes short n : Read β ε _) := by
  refine ⟨fun r => ?_, .bytes short n⟩
  have returns : Sticky.bytes short n r ≠ none := fun panics =>
    Int.not_lt.mpr natural (bytes_eq_none.mp panics).1
  obtain ⟨⟨v, r'⟩, done⟩ := Option.ne_none_iff_exists'.mp returns
  exact ⟨v, r', done⟩

/-- A program that takes so many elements, if there are as many and no error. -/
structure Took (n : Nat) (r r' : Reader β ε) : Prop where
  fine : r'.err = none ↔ r.err = none ∧ n ≤ r.b.length
  left : r'.err = none → r'.b = r.b.drop n

theorem Took.trans {k l : Nat} {r'' : Reader β ε} (first : Took k r r') (second : Took l r' r'') :
    Took (k + l) r r'' := by
  have both : r''.err = none ↔ r.err = none ∧ k + l ≤ r.b.length := by
    rw [second.fine, first.fine, and_assoc, and_congr_right_iff]
    intro fine
    by_cases long : k ≤ r.b.length
    · rw [first.left (first.fine.mpr ⟨fine, long⟩), List.length_drop]
      omega
    · omega
  refine ⟨both, fun fine => ?_⟩
  rw [second.left fine, first.left (second.fine.mp fine).1, List.drop_drop]

theorem bytes_took {short : ε} {v : Option (List β)} (done : bytes short n r = some (v, r')) :
    Took n.toNat r r' ∧ (r'.err = none → 0 ≤ n ∧ v = some (r.b.take n.toNat)) := by
  rw [bytes_eq] at done
  split at done
  · next failed =>
    have err : ¬ r.err = none := fun fine => by simp [fine] at failed
    cases done
    exact ⟨⟨iff_of_false err fun both => err both.1, fun fine => absurd fine err⟩,
      fun fine => absurd fine err⟩
  · next fine =>
    rw [Option.not_isSome_iff_eq_none] at fine
    split at done
    · next short =>
      cases done
      exact ⟨⟨iff_of_false nofun fun both => by omega, nofun⟩, nofun⟩
    · next long =>
      split at done
      · next natural =>
        cases done
        exact ⟨⟨iff_of_true fine ⟨fine, by omega⟩, fun _ => rfl⟩,
          fun _ => ⟨natural, rfl⟩⟩
      · cases done

theorem Safe.fail (e : ε) : Safe (fail e : Read β ε Unit) := by
  refine ⟨fun _ => ⟨(), _, rfl⟩, ?_⟩
  intro r r' a done
  cases done
  refine ⟨⟨[], rfl⟩, fun failed => ?_⟩
  rw [Option.isSome_or, failed]
  rfl

theorem Ensures.fail (e : ε) (P : Unit → Prop) : Ensures (fail e : Read β ε Unit) P := by
  intro r r' a done fine
  cases done
  rw [Option.or_eq_none_iff] at fine
  cases fine.2

theorem Meets.fail (e : ε) (P : Unit → Prop) : Meets (fail e : Read β ε Unit) P :=
  ⟨.fail e, .fail e P⟩

theorem Safe.ok : Safe (ok : Read β ε Bool) := by
  refine ⟨fun r => ⟨_, r, rfl⟩, ?_⟩
  intro r r' a done
  cases done
  exact .refl r

theorem Meets.ok : Meets (ok : Read β ε Bool) fun fine => fine = true := by
  refine ⟨.ok, ?_⟩
  intro r r' a done fine
  cases done
  rw [fine]
  rfl

theorem Safe.more : Safe (more : Read β ε Bool) := by
  refine ⟨fun r => ⟨_, r, rfl⟩, ?_⟩
  intro r r' a done
  cases done
  exact .refl r

section

variable {read : Read β ε α}

theorem Meets.times (one : Safe read) (n : Nat) :
    Meets (times read n) fun list => list.length = n := by
  induction n with
  | zero => exact .pure rfl
  | succ n ih =>
    refine one.meets.bind fun a => ih.bind fun rest => .pure fun length _ => ?_
    rw [List.length_cons, length]

theorem Meets.timesWhileOk (one : Safe read) (n : Nat) :
    Meets (timesWhileOk read n) fun list => list.length = n := by
  induction n with
  | zero => exact .pure rfl
  | succ n ih =>
    refine Meets.ok.bind fun fine => .ite ?_ (.pure fun failed yes => absurd yes failed)
    refine one.meets.bind fun a => ih.bind fun rest => .pure fun length _ _ _ => ?_
    rw [List.length_cons, length]

end

section

variable {read : α → Read β ε γ}

theorem Meets.each (one : ∀ a, Safe (read a)) (list : List α) :
    Meets (each read list) fun found => found.length = list.length := by
  induction list with
  | nil => exact .pure rfl
  | cons a list ih =>
    refine (one a).meets.bind fun c => ih.bind fun rest => .pure fun length _ => ?_
    rw [List.length_cons, length, List.length_cons]

end

/-! ## Numbers -/

/-- A number in so many bytes, the most significant first. -/
def bigEndian : Nat → Nat → List UInt8
  | 0, _ => []
  | n + 1, v => bigEndian n (v / 256) ++ [UInt8.ofNat v]

/-- The number that a list of bytes stands for. -/
def ofBigEndian (list : List UInt8) : Nat :=
  list.foldl (fun value byte => value * 256 + byte.toNat) 0

@[simp] theorem length_bigEndian (n v : Nat) : (bigEndian n v).length = n := by
  induction n generalizing v with
  | zero => rfl
  | succ n ih => rw [bigEndian, List.length_append, ih, List.length_singleton]

theorem ofBigEndian_concat (list : List UInt8) (byte : UInt8) :
    ofBigEndian (list ++ [byte]) = ofBigEndian list * 256 + byte.toNat := by
  rw [ofBigEndian, List.foldl_append]
  rfl

theorem ofBigEndian_bigEndian (n v : Nat) : ofBigEndian (bigEndian n v) = v % 256 ^ n := by
  induction n generalizing v with
  | zero => rw [pow_zero, Nat.mod_one]; rfl
  | succ n ih =>
    rw [bigEndian, ofBigEndian_concat, ih, UInt8.toNat_ofNat', pow_succ 256 n,
      Nat.mul_comm (256 ^ n) 256, Nat.mod_mul]
    omega

theorem ofBigEndian_lt (list : List UInt8) : ofBigEndian list < 256 ^ list.length := by
  induction list using List.reverseRecOn with
  | nil => decide
  | append_singleton list byte ih =>
    have small := byte.toNat_lt
    rw [ofBigEndian_concat, List.length_append, List.length_singleton, pow_succ]
    omega

theorem ofBigEndian_bigEndian_of_lt {n v : Nat} (fits : v < 256 ^ n) :
    ofBigEndian (bigEndian n v) = v := by
  rw [ofBigEndian_bigEndian, Nat.mod_eq_of_lt fits]

theorem ofBigEndian_cons (byte : UInt8) (list : List UInt8) :
    ofBigEndian (byte :: list) = byte.toNat * 256 ^ list.length + ofBigEndian list := by
  induction list using List.reverseRecOn with
  | nil => simp [ofBigEndian]
  | append_singleton list last ih =>
    rw [← List.cons_append, ofBigEndian_concat, ih, ofBigEndian_concat, List.length_append,
      List.length_singleton, pow_succ, Nat.add_mul, Nat.mul_assoc, Nat.add_assoc]

theorem bigEndian_ofBigEndian (list : List UInt8) :
    bigEndian list.length (ofBigEndian list) = list := by
  induction list using List.reverseRecOn with
  | nil => rfl
  | append_singleton list byte ih =>
    have small := byte.toNat_lt
    have front : (ofBigEndian list * 256 + byte.toNat) / 256 = ofBigEndian list := by omega
    have last : UInt8.ofNat (ofBigEndian list * 256 + byte.toNat) = byte := by
      apply UInt8.toNat_inj.mp
      rw [UInt8.toNat_ofNat']
      omega
    rw [List.length_append, List.length_singleton, bigEndian, ofBigEndian_concat, front, ih, last]

theorem bigEndian_eq_map (n v : Nat) :
    bigEndian n v = (List.range n).map fun i => UInt8.ofNat (v / 256 ^ (n - 1 - i)) := by
  induction n generalizing v with
  | zero => rfl
  | succ n ih =>
    rw [bigEndian, ih, List.range_succ, List.map_append]
    congr 1
    · apply List.map_congr_left
      intro i inRange
      have below := List.mem_range.mp inRange
      rw [Nat.div_div_eq_div_mul, ← pow_succ', show n - 1 - i + 1 = n + 1 - 1 - i by omega]
    · rw [List.map_singleton, show n + 1 - 1 - n = 0 by omega, pow_zero, Nat.div_one]

end Sticky
