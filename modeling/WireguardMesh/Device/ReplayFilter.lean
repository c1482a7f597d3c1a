import Mathlib.Logic.Function.Basic
import WireguardMesh.Foundation.Runs

/-! # The replay filter

`replay.Filter` keeps the counters of received messages in a ring of blocks of 64 bits. The ring
covers the blocks up to that of the largest counter; a block is cleared when the window reaches it
again, so `Reset` leaves all blocks but the first as they are. A bit of a block that is covered
says whether its counter has been accepted (`Filter.Tracks`). Counters have 64 bits, and no
operation on them overflows.
-/

namespace Wireguard

/-- The constants of the package. -/
def blockBitLog : Nat := 6
def blockBits : Nat := 1 <<< blockBitLog
def ringBlocks : Nat := 1 <<< 7
def windowSize : Nat := (ringBlocks - 1) * blockBits
def blockMask : Nat := ringBlocks - 1
def bitMask : Nat := blockBits - 1

/-- `replay.Filter`. -/
structure Filter where
  last : Nat
  ring : Nat → Nat

namespace Filter

/-- The zero value. -/
def new : Filter :=
  ⟨0, fun _ => 0⟩

/-- `Filter.Reset`. -/
def reset (f : Filter) : Filter :=
  ⟨0, Function.update f.ring 0 0⟩

/-- The loop that clears the blocks the window moves to. -/
def clear (ring : Nat → Nat) (blocks : List Nat) : Nat → Nat :=
  blocks.foldl (fun ring i => Function.update ring (i &&& blockMask) 0) ring

/-- The window moved forward to a counter. -/
def advance (f : Filter) (counter : Nat) : Filter :=
  let current := f.last >>> blockBitLog
  let diff := min (counter >>> blockBitLog - current) ringBlocks
  ⟨counter, clear f.ring (List.range' (current + 1) diff)⟩

/-- The bit of a counter checked and set. -/
def mark (f : Filter) (counter : Nat) : Filter × Bool :=
  let indexBlock := counter >>> blockBitLog &&& blockMask
  let old := f.ring indexBlock
  let new := old ||| 1 <<< (counter &&& bitMask)
  ({ f with ring := Function.update f.ring indexBlock new }, old ≠ new)

/-- `Filter.ValidateCounter`. -/
def validateCounter (f : Filter) (counter limit : Nat) : Filter × Bool :=
  if limit ≤ counter then (f, false)
  else if f.last < counter then (f.advance counter).mark counter
  else if windowSize < f.last - counter then (f, false)
  else f.mark counter

/-! ## The counters a filter has accepted -/

/-- The block of a counter is covered by the ring. -/
def Covers (f : Filter) (c : Nat) : Prop :=
  c / 64 ≤ f.last / 64 ∧ f.last / 64 < c / 64 + 128

/-- The bit of a counter. -/
def bit (f : Filter) (c : Nat) : Bool :=
  (f.ring (c / 64 % 128)).testBit (c % 64)

/-- **What the ring says.** The last counter is the largest accepted, and the bits of covered
counters say which of them were. -/
structure Tracks (f : Filter) (seen : List Nat) : Prop where
  largest : ∀ c ∈ seen, c ≤ f.last
  attained : f.last = 0 ∨ f.last ∈ seen
  exact : ∀ {c}, f.Covers c → (f.bit c = true ↔ c ∈ seen)

theorem block_eq (c : Nat) : c >>> blockBitLog = c / 64 :=
  Nat.shiftRight_eq_div_pow c 6

theorem ring_index (i : Nat) : i &&& blockMask = i % 128 :=
  Nat.and_two_pow_sub_one_eq_mod i 7

theorem bit_index (c : Nat) : c &&& bitMask = c % 64 :=
  Nat.and_two_pow_sub_one_eq_mod c 6

/-- Setting a bit changes a block that does not have it. -/
theorem or_bit_eq_self {block i : Nat} : block ||| 1 <<< i = block ↔ block.testBit i = true := by
  rw [Nat.one_shiftLeft]
  constructor
  · intro same
    rw [← same, Nat.testBit_or, Nat.testBit_two_pow_self, Bool.or_true]
  · intro set
    apply Nat.eq_of_testBit_eq
    intro j
    rw [Nat.testBit_or, Nat.testBit_two_pow]
    by_cases here : i = j
    · simp [← here, set]
    · simp [here]

theorem clear_apply (ring : Nat → Nat) (blocks : List Nat) (j : Nat) :
    clear ring blocks j = if ∃ i ∈ blocks, i % 128 = j then 0 else ring j := by
  induction blocks generalizing ring with
  | nil => simp [clear]
  | cons i blocks ih =>
    rw [clear, List.foldl_cons, ← clear, ih, ring_index]
    by_cases here : i % 128 = j
    · simp [here]
    · simp [here, Function.update_of_ne (Ne.symm here)]

theorem tracks_new : new.Tracks [] :=
  ⟨List.forall_mem_nil _, .inl rfl, by simp [bit, new]⟩

variable {f : Filter} {seen : List Nat} {counter : Nat}

/-- Only the first block is covered after a reset. -/
theorem tracks_reset (f : Filter) : f.reset.Tracks [] := by
  refine ⟨List.forall_mem_nil _, .inl rfl, fun {c} covered => ?_⟩
  have first : c / 64 ≤ 0 / 64 := covered.1
  rw [Nat.zero_div, Nat.le_zero] at first
  simp [bit, reset, first]

/-- A covered block has been cleared exactly if the window has just reached it. -/
theorem bit_advance (later : f.last < counter) {c : Nat} (covered : (f.advance counter).Covers c) :
    (f.advance counter).bit c = if f.last / 64 < c / 64 then false else f.bit c := by
  obtain ⟨low, high⟩ : c / 64 ≤ counter / 64 ∧ counter / 64 < c / 64 + 128 := covered
  have whole : ringBlocks = 128 := rfl
  have cleared : (∃ i ∈ List.range' (f.last / 64 + 1) (min (counter / 64 - f.last / 64) ringBlocks),
      i % 128 = c / 64 % 128) ↔ f.last / 64 < c / 64 := by
    simp only [List.mem_range'_1, whole]
    constructor
    · rintro ⟨i, bounds, same⟩
      omega
    · intro new
      -- the block itself, unless the loop ends before it, having cleared the whole ring
      by_cases near : c / 64 ≤ f.last / 64 + 128
      · exact ⟨c / 64, by omega, rfl⟩
      · exact ⟨f.last / 64 + 1 + (c / 64 + 127 - f.last / 64) % 128, by omega, by omega⟩
  simp only [bit, advance, clear_apply, block_eq, cleared]
  split
  · exact Nat.zero_testBit _
  · rfl

theorem Tracks.advance (tracks : f.Tracks seen) (later : f.last < counter) {c : Nat}
    (covered : (f.advance counter).Covers c) :
    (f.advance counter).bit c = true ↔ c ∈ seen := by
  rw [bit_advance later covered]
  split
  · next new =>
    refine ⟨by simp, fun member => ?_⟩
    have old := Nat.div_le_div_right (c := 64) (tracks.largest c member)
    omega
  · next old =>
    obtain ⟨_, high⟩ : c / 64 ≤ counter / 64 ∧ counter / 64 < c / 64 + 128 := covered
    exact tracks.exact ⟨Nat.le_of_not_lt old, by omega⟩

theorem bit_mark {c : Nat} (covered : f.Covers counter) (covered' : f.Covers c) :
    (f.mark counter).1.bit c = (f.bit c || decide (c = counter)) := by
  obtain ⟨low, high⟩ := covered
  obtain ⟨low', high'⟩ := covered'
  simp only [mark, bit, block_eq, ring_index, bit_index]
  by_cases here : c / 64 % 128 = counter / 64 % 128
  · have place : c = counter ↔ c % 64 = counter % 64 := by omega
    rw [here, Function.update_self, Nat.testBit_or, Nat.one_shiftLeft, Nat.testBit_two_pow]
    simp [place, eq_comm]
  · have other : c ≠ counter := fun same => here (by rw [same])
    simp [Function.update_of_ne here, other]

theorem Tracks.of_mem (tracks : f.Tracks (counter :: seen)) (old : counter ∈ seen) :
    f.Tracks seen := by
  have same : ∀ {c}, c ∈ counter :: seen ↔ c ∈ seen := by
    intro c
    rw [List.mem_cons, or_iff_right_of_imp]
    rintro rfl
    exact old
  exact ⟨fun c member => tracks.largest c (same.mpr member), tracks.attained.imp_right same.mp,
    fun covered => (tracks.exact covered).trans same⟩

/-- A counter is to be accepted: it is below the limit, new, and not too far behind. -/
def Acceptable (seen : List Nat) (counter limit : Nat) : Prop :=
  counter < limit ∧ counter ∉ seen ∧ ∀ c ∈ seen, c ≤ counter + windowSize

/-- The bit of a covered counter tells whether it is new, and is set. -/
theorem mark_spec {limit : Nat} (exact : ∀ {c}, f.Covers c → (f.bit c = true ↔ c ∈ seen))
    (covered : f.Covers counter) (largest : ∀ c ∈ counter :: seen, c ≤ f.last)
    (attained : f.last = 0 ∨ f.last ∈ counter :: seen) (below : counter < limit)
    (near : ∀ c ∈ seen, c ≤ counter + windowSize) :
    ((f.mark counter).2 = true ↔ Acceptable seen counter limit) ∧
      (f.mark counter).1.Tracks (if (f.mark counter).2 then counter :: seen else seen) := by
  have new : (f.mark counter).2 = true ↔ counter ∉ seen := by
    rw [← exact covered]
    simp only [mark, bit, block_eq, ring_index, bit_index, decide_eq_true_eq]
    rw [ne_comm, ne_eq, or_bit_eq_self]
  have kept : (f.mark counter).1.Tracks (counter :: seen) := by
    refine ⟨largest, attained, fun {c} covered' => ?_⟩
    rw [bit_mark covered covered', Bool.or_eq_true, decide_eq_true_eq, exact covered', or_comm,
      List.mem_cons]
  refine ⟨new.trans ⟨fun unseen => ⟨below, unseen, near⟩, fun good => good.2.1⟩, ?_⟩
  split
  · exact kept
  · next old => exact kept.of_mem (not_not.mp fun unseen => old (new.mpr unseen))

/-- **One call.** -/
theorem Tracks.validateCounter (tracks : f.Tracks seen) (limit : Nat) :
    ((f.validateCounter counter limit).2 = true ↔ Acceptable seen counter limit) ∧
      (f.validateCounter counter limit).1.Tracks
        (if (f.validateCounter counter limit).2 then counter :: seen else seen) := by
  have size : windowSize = 8128 := rfl
  rw [Filter.validateCounter]
  split
  · next reached => exact ⟨⟨by simp, fun good => absurd good.1 (Nat.not_lt.mpr reached)⟩, tracks⟩
  · next below =>
    split
    · next later =>
      have ahead : ∀ c ∈ seen, c ≤ counter := fun c member =>
        Nat.le_trans (tracks.largest c member) (Nat.le_of_lt later)
      refine mark_spec (tracks.advance later) ?_ ?_ (.inr (.head _)) (Nat.lt_of_not_le below)
        fun c member => Nat.le_add_right_of_le (ahead c member)
      · exact ⟨Nat.le_refl _, Nat.lt_add_of_pos_right (by decide)⟩
      · exact List.forall_mem_cons.mpr ⟨Nat.le_refl _, ahead⟩
    · next early =>
      have least := Nat.le_of_not_lt early
      split
      · next behind =>
        refine ⟨⟨by simp, fun good => ?_⟩, tracks⟩
        rcases tracks.attained with zero | member
        · omega
        · have near := good.2.2 _ member
          omega
      · next near =>
        refine mark_spec tracks.exact ⟨Nat.div_le_div_right least, by omega⟩
          (List.forall_mem_cons.mpr ⟨least, tracks.largest⟩) (tracks.attained.imp_right (.tail _))
          (Nat.lt_of_not_le below) fun c member => ?_
        have bound := tracks.largest c member
        omega

end Filter

inductive FilterCall
  | reset
  | validateCounter (counter limit : Nat)

namespace FilterCall

/-- A call, with the counters that have been accepted since the last reset. -/
def step (s : Filter × List Nat) : FilterCall → Filter × List Nat
  | reset => (s.1.reset, [])
  | validateCounter counter limit =>
    let (f, accepted) := s.1.validateCounter counter limit
    (f, if accepted then counter :: s.2 else s.2)

/-- The answer of a call is right. -/
def Exact (s : Filter × List Nat) : FilterCall → Prop
  | reset => True
  | validateCounter counter limit =>
    (s.1.validateCounter counter limit).2 = true ↔ Filter.Acceptable s.2 counter limit

end FilterCall

/-- **The replay filter.** In every sequence of calls, a counter is accepted if and only if it is
below the limit, has not been accepted since the last reset, and is at most `windowSize` behind
every counter that has. -/
theorem replayFilter_exact (calls : List FilterCall) :
    Runs.Along FilterCall.step FilterCall.Exact (.new, []) calls := by
  refine Runs.along_of_invariant (fun s => s.1.Tracks s.2) ?_ ?_ Filter.tracks_new
    (Runs.along_trivial _ calls)
  · intro s call tracks _
    cases call with
    | reset => exact Filter.tracks_reset s.1
    | validateCounter counter limit => exact (tracks.validateCounter limit).2
  · intro s call tracks _
    cases call with
    | reset => trivial
    | validateCounter counter limit => exact (tracks.validateCounter limit).1

end Wireguard
