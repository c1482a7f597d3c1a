import Mathlib.Algebra.Order.Field.Rat
import Mathlib.Order.WithBot
import Mathlib.Tactic.Linarith
import Mathlib.Tactic.NormNum
import WireguardMesh.Foundation.NestedMap
import WireguardMesh.Plan.Inputs

/-! # Choosing gateways

For every node and every subnet it routes to, `Choose` takes the candidate with the lowest
score, unless the present one is still a candidate and not clearly slower. A score is a
round-trip time in milliseconds; a mother nobody has measured has a high one, the relay a
higher one, and a dead mother an infinite one. Scores are rational numbers with infinity.

A choice is a candidate, a live mother where there is one and the relay before a dead mother
(`sound_pick`), and choosing again from what was chosen changes nothing (`choose_choose`).
-/

namespace Pathsel

open Core

variable {prev choice : String} {list : List String}

/-- A score: a time in milliseconds, or infinity. -/
abbrev Score := WithTop ℚ

def switchRatio : ℚ := 4 / 5
def switchMinGap : ℚ := 3
def scoreUnknown : ℚ := 10 ^ 9
def scoreRelay : ℚ := 10 ^ 12

/-- `RTTFunc`: the time a node measured toward another. -/
abbrev RTTFunc := String → String → Option ℚ

/-- The candidates of each node for each printed subnet. -/
abbrev Candidates := NestedMap String String (List String)

/-- The `range` statements of `Choose`. -/
inductive Site
  | nodes
  | subnets (node : String)

def score (rtt : RTTFunc) (alive : String → Bool) (node m : String) : Score :=
  if m = relayNodeID then scoreRelay
  else if alive m = false then ⊤
  else
    match rtt node m with
    | some r => r
    | none =>
      match rtt m node with
      | some r => r
      | none => scoreUnknown

section

variable (score : String → Score)

/-- One round of the search for the lowest score. -/
def lower (best : String × Score) (m : String) : String × Score :=
  if score m < best.2 then (m, score m) else best

/-- The candidate with the lowest score, and the score. -/
def best (first : String) (rest : List String) : String × Score :=
  rest.foldl (lower score) (first, score first)

/-- `bestScore < ps*switchRatio && ps-bestScore > switchMinGap`. The difference of infinite scores
is not a number. -/
def clearlyFaster : Score → Score → Bool
  | some b, some p => b < p * switchRatio ∧ p - b > switchMinGap
  | some _, none => true
  | none, _ => false

/-- The choice among the candidates of a node for a subnet; none without candidates. -/
def pick (prev : String) : List String → Option String
  | [] => none
  | first :: rest =>
    let found := best score first rest
    if prev ≠ "" ∧ prev ≠ found.1 ∧ prev ∈ first :: rest ∧
        clearlyFaster found.2 (score prev) = false then
      some prev
    else some found.1

end

/-- The choices in the order they are made. -/
def picks (order : RangeOrder Site) (cur : PathChoices) (cands : Candidates) (rtt : RTTFunc)
    (alive : String → Bool) : List (String × String × String) :=
  (order.range .nodes cands.entries).flatMap fun row =>
    (order.range (.subnets row.1) row.2.entries).filterMap fun entry =>
      (pick (score rtt alive row.1) (cur.choice row.1 entry.1) entry.2).map fun choice =>
        (row.1, entry.1, choice)

def choose (order : RangeOrder Site) (cur : PathChoices) (cands : Candidates) (rtt : RTTFunc)
    (alive : String → Bool) : PathChoices :=
  NestedMap.ofTriples (picks order cur cands rtt alive)

/-! ## One choice -/

section

variable {score : String → Score} {first : String} {rest : List String}

/-- The search finds a candidate, with its score, and none has a lower one. -/
theorem best_spec (score : String → Score) (first : String) (rest : List String) :
    (best score first rest).1 ∈ first :: rest ∧
      (best score first rest).2 = score (best score first rest).1 ∧
        ∀ m ∈ first :: rest, (best score first rest).2 ≤ score m := by
  rw [best]
  induction rest generalizing first with
  | nil =>
    refine ⟨List.mem_singleton.mpr rfl, rfl, ?_⟩
    intro m only
    rw [List.mem_singleton.mp only, List.foldl_nil]
  | cons next rest ih =>
    rw [List.foldl_cons, lower]
    split
    · next faster =>
      obtain ⟨member, own, lowest⟩ := ih next
      refine ⟨.tail _ member, own, ?_⟩
      intro m listed
      rcases List.mem_cons.mp listed with rfl | later
      · exact (lowest next (.head _)).trans faster.le
      · exact lowest m later
    · next slower =>
      obtain ⟨member, own, lowest⟩ := ih first
      refine ⟨?_, own, ?_⟩
      · rcases List.mem_cons.mp member with same | later
        · exact List.mem_cons.mpr (.inl same)
        · exact .tail _ (.tail _ later)
      · intro m listed
        rcases List.mem_cons.mp listed with rfl | later
        · exact lowest m (.head _)
        · rcases List.mem_cons.mp later with rfl | last
          · exact (lowest first (.head _)).trans (not_lt.mp slower)
          · exact lowest m (.tail _ last)

/-- A choice is a candidate with the lowest score, or one that is not clearly slower. -/
theorem pick_cases (picked : pick score prev list = some choice) :
    choice ∈ list ∧ ∃ lowest : String, lowest ∈ list ∧ (∀ m ∈ list, score lowest ≤ score m) ∧
      (choice = lowest ∨ clearlyFaster (score lowest) (score choice) = false) := by
  cases list with
  | nil => cases picked
  | cons first rest =>
    obtain ⟨member, own, lowest⟩ := best_spec score first rest
    rw [pick] at picked
    rw [own] at picked lowest
    split at picked
    · next kept =>
      cases picked
      exact ⟨kept.2.2.1, _, member, lowest, .inr kept.2.2.2⟩
    · cases picked
      exact ⟨member, _, member, lowest, .inl rfl⟩

/-- **Choosing again.** A choice made with an earlier choice as the present gateway is that
earlier choice. -/
theorem pick_pick (picked : pick score prev list = some choice) :
    pick score choice list = some choice := by
  cases list with
  | nil => cases picked
  | cons first rest =>
    rw [pick] at picked ⊢
    split at picked
    · next kept =>
      cases picked
      rw [if_pos kept]
    · cases picked
      rw [if_neg fun kept => kept.2.1 rfl]

theorem pick_isSome (score : String → Score) (prev : String) (candidates : list ≠ []) :
    ∃ choice, pick score prev list = some choice := by
  cases list with
  | nil => exact absurd rfl candidates
  | cons first rest =>
    rw [pick]
    split
    · exact ⟨_, rfl⟩
    · exact ⟨_, rfl⟩

end

/-! ## Live mothers first -/

/-- Times that are positive and below the score of an unknown one. -/
def Measured (rtt : RTTFunc) : Prop :=
  ∀ a b r, rtt a b = some r → 0 < r ∧ r < 10 ^ 9

section

variable {rtt : RTTFunc} {alive : String → Bool} {node : String}

theorem score_relay : score rtt alive node relayNodeID = scoreRelay :=
  if_pos rfl

theorem score_dead (rtt : RTTFunc) (node : String) {m : String} (mother : m ≠ relayNodeID) (dead : alive m = false) :
    score rtt alive node m = ⊤ := by
  rw [score, if_neg mother, if_pos dead]

theorem exists_score_live (node : String) (measured : Measured rtt) {m : String}
    (mother : m ≠ relayNodeID) (live : alive m = true) : ∃ r : ℚ, score rtt alive node m = r ∧ r ≤ scoreUnknown := by
  have awake : ¬ alive m = false := by rw [live]; exact nofun
  rw [score, if_neg mother, if_neg awake]
  split
  · next r known => exact ⟨r, rfl, (measured _ _ _ known).2.le⟩
  · split
    · next r known => exact ⟨r, rfl, (measured _ _ _ known).2.le⟩
    · exact ⟨scoreUnknown, rfl, le_rfl⟩

theorem clearlyFaster_relay {r : ℚ} (low : r ≤ scoreUnknown) :
    clearlyFaster (r : Score) (scoreRelay : ℚ) = true := by
  have bound : scoreUnknown = 1000000000 := by norm_num [scoreUnknown]
  have relay : scoreRelay = 1000000000000 := by norm_num [scoreRelay]
  rw [bound] at low
  refine decide_eq_true ⟨?_, ?_⟩
  · rw [relay, switchRatio]
    linarith
  · rw [relay, switchMinGap]
    linarith

/-- What is expected of the gateway chosen from a list: a member, a live mother if there is one,
and the relay if all mothers are dead. -/
structure Sound (alive : String → Bool) (list : List String) (gateway : String) : Prop where
  member : gateway ∈ list
  live : (∃ m ∈ list, m ≠ relayNodeID ∧ alive m = true) →
    gateway ≠ relayNodeID ∧ alive gateway = true
  relay : relayNodeID ∈ list → (∀ m ∈ list, m ≠ relayNodeID → alive m = false) →
    gateway = relayNodeID

variable (measured : Measured rtt) (picked : pick (score rtt alive node) prev list = some choice)

include picked

/-- A choice has a finite score if some candidate has. -/
theorem pick_ne_top {m : String} (listed : m ∈ list) (finite : score rtt alive node m ≠ ⊤) :
    score rtt alive node choice ≠ ⊤ := by
  obtain ⟨-, lowest, -, least, close⟩ := pick_cases picked
  obtain ⟨b, best⟩ := WithTop.ne_top_iff_exists.mp (ne_top_of_le_ne_top finite (least m listed))
  intro infinite
  rcases close with rfl | slow
  · exact WithTop.coe_ne_top (best.trans infinite)
  · rw [infinite, ← best] at slow
    cases slow

include measured in
theorem pick_live (some_live : ∃ m ∈ list, m ≠ relayNodeID ∧ alive m = true) :
    choice ≠ relayNodeID ∧ alive choice = true := by
  obtain ⟨m, listed, mother, live⟩ := some_live
  obtain ⟨r, scored, low⟩ := exists_score_live node measured mother live
  by_cases relay : choice = relayNodeID
  · subst relay
    obtain ⟨-, lowest, -, least, close⟩ := pick_cases picked
    -- The lowest score is a finite one below that of the relay.
    have below : score rtt alive node lowest ≤ (r : Score) := scored ▸ least m listed
    obtain ⟨b, best⟩ := WithTop.ne_top_iff_exists.mp (ne_top_of_le_ne_top WithTop.coe_ne_top below)
    rw [← best] at below close
    have low' : b ≤ scoreUnknown := (WithTop.coe_le_coe.mp below).trans low
    rcases close with same | slow
    · rw [← same, score_relay] at best
      have bound := WithTop.coe_injective best
      rw [bound, scoreRelay, scoreUnknown] at low'
      norm_num at low'
    · rw [score_relay, clearlyFaster_relay low'] at slow
      cases slow
  · refine ⟨relay, ?_⟩
    by_contra dead
    exact pick_ne_top picked listed (scored ▸ WithTop.coe_ne_top)
      (score_dead rtt node relay (Bool.eq_false_iff.mpr dead))

theorem pick_relay (listed : relayNodeID ∈ list)
    (all_dead : ∀ m ∈ list, m ≠ relayNodeID → alive m = false) : choice = relayNodeID := by
  by_contra mother
  refine pick_ne_top picked listed ?_
    (score_dead rtt node mother (all_dead _ (pick_cases picked).1 mother))
  rw [score_relay]
  exact WithTop.coe_ne_top

include measured in
/-- **A sound choice.** -/
theorem sound_pick : Sound alive list choice where
  member := (pick_cases picked).1
  live := pick_live measured picked
  relay := pick_relay picked

end

/-! ## All choices -/

section

variable {order : RangeOrder Site} {cur : PathChoices} {cands : Candidates} {rtt : RTTFunc}
  {alive : String → Bool}

theorem mem_picks (node sub gateway : String) :
    (node, sub, gateway) ∈ picks order cur cands rtt alive ↔
      ∃ list, cands.value? node sub = some list ∧
        pick (score rtt alive node) (cur.choice node sub) list = some gateway := by
  simp only [picks, List.mem_flatMap, RangeOrder.mem_range, List.mem_filterMap,
    Option.map_eq_some_iff, Prod.mk.injEq, NestedMap.value?, Option.bind_eq_some_iff]
  constructor
  · rintro ⟨⟨_, bySub⟩, row, ⟨_, list⟩, entry, _, picked, rfl, rfl, rfl⟩
    exact ⟨list, ⟨bySub, AList.mem_lookup_iff.mpr row, AList.mem_lookup_iff.mpr entry⟩, picked⟩
  · rintro ⟨list, ⟨bySub, row, entry⟩, picked⟩
    exact ⟨⟨node, bySub⟩, AList.mem_lookup_iff.mp row, ⟨sub, list⟩, AList.mem_lookup_iff.mp entry,
      gateway, picked, rfl, rfl, rfl⟩

theorem functional_picks : NestedMap.Functional (picks order cur cands rtt alive) := by
  intro node sub v v' first second
  obtain ⟨list, listed, picked⟩ := (mem_picks node sub v).mp first
  obtain ⟨list', listed', picked'⟩ := (mem_picks node sub v').mp second
  rw [listed, Option.some.injEq] at listed'
  rw [← listed', picked, Option.some.injEq] at picked'
  exact picked'

theorem value?_choose (node sub gateway : String) :
    NestedMap.value? (choose order cur cands rtt alive) node sub = some gateway ↔
      ∃ list, cands.value? node sub = some list ∧
        pick (score rtt alive node) (cur.choice node sub) list = some gateway := by
  rw [choose, NestedMap.value?_ofTriples functional_picks, mem_picks]

theorem same_choose {cur' : PathChoices} (order' : RangeOrder Site)
    (agree : ∀ node sub list, cands.value? node sub = some list →
      pick (score rtt alive node) (cur'.choice node sub) list =
        pick (score rtt alive node) (cur.choice node sub) list) :
    NestedMap.Same (choose order' cur' cands rtt alive) (choose order cur cands rtt alive) := by
  apply NestedMap.same_ofTriples functional_picks
  rintro ⟨node, sub, gateway⟩
  rw [mem_picks, mem_picks]
  constructor
  · rintro ⟨list, listed, picked⟩
    exact ⟨list, listed, agree node sub list listed ▸ picked⟩
  · rintro ⟨list, listed, picked⟩
    exact ⟨list, listed, (agree node sub list listed).trans picked⟩

/-- **Stability.** Choosing again, from choices that are the same as those just made, makes
the same choices. -/
theorem choose_choose (order order' : RangeOrder Site) {made : PathChoices}
    (same : NestedMap.Same made (choose order cur cands rtt alive)) :
    NestedMap.Same (choose order' made cands rtt alive) (choose order cur cands rtt alive) := by
  apply same_choose
  intro node sub list listed
  cases picked : pick (score rtt alive node) (cur.choice node sub) list with
  | none =>
    cases list with
    | nil => rfl
    | cons first rest =>
      obtain ⟨choice, found⟩ := pick_isSome (score rtt alive node)
        (cur.choice node sub) (List.cons_ne_nil first rest)
      rw [found] at picked
      cases picked
  | some choice =>
    have value := same.values node sub
    rw [(value?_choose node sub choice).mpr ⟨list, listed, picked⟩] at value
    rw [PathChoices.choice, NestedMap.getD_getD, value, Option.getD_some]
    exact pick_pick picked

end

end Pathsel
