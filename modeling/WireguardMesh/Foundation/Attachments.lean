import Mathlib.Data.List.Nodup
import Mathlib.Logic.Function.Basic

/-! # Leaves attached to hubs

A list of edges from leaves to hubs, over any type of vertices: every edge goes from a leaf to
a hub, no edge is listed twice and no leaf has more than a given number of edges
(`Attached`). A colour of the hubs is uniform when the hubs of one leaf all have the same one
(`Uniform`).
-/

namespace Attachments

variable {V C : Type} [DecidableEq V]

/-- Edges from leaves (`side` is false) to hubs (`side` is true), each once, and at most `bound`
for every leaf. A missing vertex has no side. -/
structure Attached (side : V → Option Bool) (bound : Nat) (edges : List (V × V)) : Prop where
  leaf : ∀ e ∈ edges, side e.1 = some false
  hub : ∀ e ∈ edges, side e.2 = some true
  once : edges.Nodup
  few : ∀ v, (edges.filter fun e => e.1 = v).length ≤ bound

/-- The hubs of every leaf have one colour. -/
def Uniform (colour : V → Option C) (edges : List (V × V)) : Prop :=
  ∀ e ∈ edges, ∀ e' ∈ edges, e.1 = e'.1 → colour e.2 = colour e'.2

instance [DecidableEq C] (colour : V → Option C) (edges : List (V × V)) :
    Decidable (Uniform colour edges) :=
  inferInstanceAs (Decidable (∀ e ∈ edges, ∀ e' ∈ edges, e.1 = e'.1 → colour e.2 = colour e'.2))

/-- The edges of a leaf replaced. -/
def reattach (edges : List (V × V)) (v : V) (hubs : List V) : List (V × V) :=
  (edges.filter fun e => e.1 ≠ v) ++ hubs.map fun hub => (v, hub)

/-- The edges that are left when a vertex changes its side: a hub has no hubs, and a leaf is
none. -/
def release (edges : List (V × V)) (v : V) (hub : Bool) : List (V × V) :=
  edges.filter fun e => if hub then e.1 ≠ v else e.2 ≠ v

section

variable {side side' : V → Option Bool} {bound : Nat} {edges edges' : List (V × V)}
  {colour colour' : V → Option C}

theorem attached_nil : Attached side bound [] where
  leaf _ none := by cases none
  hub _ none := by cases none
  once := List.nodup_nil
  few _ := Nat.zero_le _

theorem Attached.sublist (attached : Attached side bound edges) (fewer : edges'.Sublist edges) :
    Attached side bound edges' where
  leaf e listed := attached.leaf e (fewer.subset listed)
  hub e listed := attached.hub e (fewer.subset listed)
  once := attached.once.sublist fewer
  few v := Nat.le_trans (fewer.filter _).length_le (attached.few v)

theorem Attached.congr (attached : Attached side bound edges)
    (leaf : ∀ e ∈ edges, side' e.1 = side e.1) (hub : ∀ e ∈ edges, side' e.2 = side e.2) :
    Attached side' bound edges where
  leaf e listed := (leaf e listed).trans (attached.leaf e listed)
  hub e listed := (hub e listed).trans (attached.hub e listed)
  once := attached.once
  few := attached.few

/-- **Changing sides.** The edges that are left suit the new side. -/
theorem Attached.release (attached : Attached side bound edges) (v : V) (hub : Bool)
    (flipped : ∀ x, side' x = if x = v then (side x).map fun _ => hub else side x) :
    Attached side' bound (release edges v hub) := by
  have fewer : (Attachments.release edges v hub).Sublist edges := List.filter_sublist
  have kept := attached.sublist fewer
  refine ⟨?_, ?_, kept.once, kept.few⟩
  · intro e listed
    have stays := (List.mem_filter.mp listed).2
    rw [flipped, kept.leaf e listed]
    cases hub with
    | false => split <;> rfl
    | true =>
      have other : e.1 ≠ v := of_decide_eq_true stays
      rw [if_neg other]
  · intro e listed
    have stays := (List.mem_filter.mp listed).2
    rw [flipped, kept.hub e listed]
    cases hub with
    | false =>
      have other : e.2 ≠ v := of_decide_eq_true stays
      rw [if_neg other]
    | true => split <;> rfl

theorem filter_reattach (v w : V) (hubs : List V) :
    ((reattach edges v hubs).filter fun e => e.1 = w) =
      if w = v then hubs.map (fun hub => (v, hub)) else edges.filter fun e => e.1 = w := by
  rw [reattach, List.filter_append, List.filter_filter]
  split
  · next same =>
    subst same
    have none : (edges.filter fun e => decide (e.1 = w) && decide (e.1 ≠ w)) = [] := by
      apply List.filter_eq_nil_iff.mpr
      intro e _ both
      simp_all
    have all : ((hubs.map fun hub => (w, hub)).filter fun e => decide (e.1 = w)) =
        hubs.map fun hub => (w, hub) := by
      apply List.filter_eq_self.mpr
      intro e listed
      obtain ⟨_, _, rfl⟩ := List.mem_map.mp listed
      exact decide_eq_true rfl
    rw [none, all, List.nil_append]
  · next different =>
    have none : ((hubs.map fun hub => (v, hub)).filter fun e => decide (e.1 = w)) = [] := by
      apply List.filter_eq_nil_iff.mpr
      intro e listed
      obtain ⟨_, _, rfl⟩ := List.mem_map.mp listed
      exact fun same => different (of_decide_eq_true same).symm
    rw [none, List.append_nil]
    apply List.filter_congr
    intro e _
    by_cases own : e.1 = w
    · simp [own, different]
    · simp [own]

theorem mem_reattach {v : V} {hubs : List V} {e : V × V} :
    e ∈ reattach edges v hubs ↔ e ∈ edges ∧ e.1 ≠ v ∨ e.1 = v ∧ e.2 ∈ hubs := by
  obtain ⟨a, b⟩ := e
  rw [reattach, List.mem_append, List.mem_filter, List.mem_map]
  simp only [ne_eq, decide_eq_true_eq, Prod.mk.injEq, exists_eq_right_right, eq_comm (a := v)]
  tauto

/-- **Replacing the edges of a leaf.** -/
theorem Attached.reattach (attached : Attached side bound edges) {v : V} {hubs : List V}
    (leaf : hubs ≠ [] → side v = some false) (known : ∀ hub ∈ hubs, side hub = some true)
    (once : hubs.Nodup) (few : hubs.length ≤ bound) :
    Attached side bound (reattach edges v hubs) where
  leaf e listed := by
    rcases mem_reattach.mp listed with ⟨old, _⟩ | ⟨own, new⟩
    · exact attached.leaf e old
    · rw [own]
      exact leaf (List.ne_nil_of_mem new)
  hub e listed := by
    rcases mem_reattach.mp listed with ⟨old, _⟩ | ⟨_, new⟩
    · exact attached.hub e old
    · exact known _ new
  once := by
    apply List.Nodup.append (attached.once.filter _)
    · exact once.map fun _ _ same => (Prod.mk.inj same).2
    · intro e old new
      obtain ⟨_, _, rfl⟩ := List.mem_map.mp new
      exact of_decide_eq_true (List.mem_filter.mp old).2 rfl
  few w := by
    rw [filter_reattach]
    split
    · rwa [List.length_map]
    · exact attached.few w

/-- **First edges.** Free leaves get one edge each. -/
theorem Attached.add (attached : Attached side bound edges) {new : List (V × V)}
    (leaf : ∀ e ∈ new, side e.1 = some false) (hub : ∀ e ∈ new, side e.2 = some true)
    (free : ∀ e ∈ new, ∀ e' ∈ edges, e.1 ≠ e'.1) (once : (new.map Prod.fst).Nodup)
    (room : 1 ≤ bound) : Attached side bound (edges ++ new) where
  leaf e listed := (List.mem_append.mp listed).elim (attached.leaf e) (leaf e)
  hub e listed := (List.mem_append.mp listed).elim (attached.hub e) (hub e)
  once := List.Nodup.append attached.once (List.Nodup.of_map _ once)
    fun e old added => free e added e old rfl
  few v := by
    rw [List.filter_append]
    by_cases added : ∃ e ∈ new, e.1 = v
    · obtain ⟨e, listed, rfl⟩ := added
      have none : (edges.filter fun e' => decide (e'.1 = e.1)) = [] := by
        apply List.filter_eq_nil_iff.mpr
        intro e' old same
        exact free e listed e' old (of_decide_eq_true same).symm
      have one : (new.filter fun e' => decide (e'.1 = e.1)).length ≤ 1 := by
        rw [← List.countP_eq_length_filter]
        have counted := List.nodup_iff_count_le_one.mp once e.1
        rw [List.count, List.countP_map] at counted
        exact counted
      rw [none, List.nil_append]
      exact Nat.le_trans one room
    · have none : (new.filter fun e => decide (e.1 = v)) = [] := by
        apply List.filter_eq_nil_iff.mpr
        intro e listed same
        exact added ⟨e, listed, of_decide_eq_true same⟩
      rw [none, List.append_nil]
      exact attached.few v

/-! ## Colours -/

variable (uniform : Uniform colour edges)

include uniform

omit [DecidableEq V] in
theorem Uniform.subset (fewer : edges' ⊆ edges) :
    Uniform colour edges' :=
  fun e listed e' listed' => uniform e (fewer listed) e' (fewer listed')

omit [DecidableEq V] in
theorem Uniform.congr
    (same : ∀ e ∈ edges, colour' e.2 = colour e.2) : Uniform colour' edges := by
  intro e listed e' listed' shared
  rw [same e listed, same e' listed']
  exact uniform e listed e' listed' shared

theorem Uniform.reattach {v : V} {hubs : List V}
    (one : ∀ a ∈ hubs, ∀ b ∈ hubs, colour a = colour b) :
    Uniform colour (reattach edges v hubs) := by
  intro e listed e' listed' shared
  rcases mem_reattach.mp listed with ⟨old, other⟩ | ⟨own, new⟩
  · rcases mem_reattach.mp listed' with ⟨old', _⟩ | ⟨own', _⟩
    · exact uniform e old e' old' shared
    · exact absurd (shared.trans own') other
  · rcases mem_reattach.mp listed' with ⟨_, other'⟩ | ⟨_, new'⟩
    · exact absurd (shared.symm.trans own) other'
    · exact one _ new _ new'

omit [DecidableEq V] in
theorem Uniform.add {new : List (V × V)}
    (free : ∀ e ∈ new, ∀ e' ∈ edges, e.1 ≠ e'.1) (once : (new.map Prod.fst).Nodup) :
    Uniform colour (edges ++ new) := by
  intro e listed e' listed' shared
  rcases List.mem_append.mp listed with old | added
  · rcases List.mem_append.mp listed' with old' | added'
    · exact uniform e old e' old' shared
    · exact absurd shared.symm (free e' added' e old)
  · rcases List.mem_append.mp listed' with old' | added'
    · exact absurd shared (free e added e' old')
    · rw [List.inj_on_of_nodup_map once added added' shared]

end

end Attachments
