import WireguardMesh.Plan.Intents

/-! # The peers of a plan

The loop over the sorted intents gives every pair that is joined by an intent one entry on
each side, and marks one side as the dialer (`Roster.resolved_spec`). The passes that allow
prefixes change nothing else: the entry of a planned peer is the entry the loop made, with
the valid prefixes granted to it (`peerOf_planMesh`, `Allowed`).
-/

namespace Core

open GoText Net

variable {peers : Peers} {a b target : String} {intents : GoMap Intent Int} {pp : PlanPeer}

/-! ## Entries by node and peer -/

/-- A node has at most one entry for a peer. -/
def Keyed (peers : Peers) : Prop :=
  (peers.map fun entry => (entry.1, entry.2.peerID)).Nodup

theorem mem_of_peerOf (found : peerOf peers a b = some pp) :
    (a, pp) ∈ peers ∧ pp.peerID = b := by
  rw [peerOf, Option.map_eq_some_iff] at found
  obtain ⟨⟨node, peer⟩, search, rfl⟩ := found
  have key := List.find?_some search
  rw [decide_eq_true_eq] at key
  obtain ⟨rfl, same⟩ := key
  exact ⟨List.mem_of_find?_eq_some search, same⟩

theorem peerOf_of_mem (keyed : Keyed peers) (member : (a, pp) ∈ peers) :
    peerOf peers a pp.peerID = some pp := by
  cases found : peerOf peers a pp.peerID with
  | none =>
    rw [peerOf, Option.map_eq_none_iff, List.find?_eq_none] at found
    have absent := found _ member
    simp only [and_self, decide_true, not_true_eq_false] at absent
  | some other =>
    obtain ⟨inside, same⟩ := mem_of_peerOf found
    have equal := List.inj_on_of_nodup_map keyed inside member (Prod.ext rfl same)
    rw [(Prod.mk.inj equal).2]

theorem hasPeer_iff : hasPeer peers a b = true ↔ ∃ pp, (a, pp) ∈ peers ∧ pp.peerID = b := by
  constructor
  · intro has
    obtain ⟨pp, found⟩ := Option.isSome_iff_exists.mp has
    exact ⟨pp, mem_of_peerOf found⟩
  · rintro ⟨pp, member, same⟩
    rw [hasPeer, peerOf, Option.isSome_map, List.find?_isSome]
    exact ⟨(a, pp), member, decide_eq_true ⟨rfl, same⟩⟩

theorem not_key_of_hasPeer (absent : hasPeer peers a b = false)
    {entry : String × PlanPeer} (member : entry ∈ peers) :
    ¬ (entry.1 = a ∧ entry.2.peerID = b) := by
  rintro ⟨rfl, same⟩
  rw [hasPeer_iff.mpr ⟨entry.2, member, same⟩] at absent
  cases absent

theorem updatePeer_of_absent (f : PlanPeer → PlanPeer)
    (absent : hasPeer peers a b = false) : updatePeer peers a b f = peers := by
  rw [updatePeer]
  conv_rhs => rw [← List.map_id peers]
  apply List.map_congr_left
  intro entry member
  rw [if_neg (not_key_of_hasPeer absent member), id]

/-! ## The dialer of each pair -/

namespace Roster

variable (r : Roster)

/-- Whether a pair has entries: one of the two dials the other. -/
def Connected (a b : String) : Prop :=
  r.Dials a b ∨ r.Dials b a

/-- Whether the first of two nodes dials the second. Of a mutual pair the dialable side is
dialed, else the lower id dials. -/
def Dialer (a b : String) : Prop :=
  r.Dials a b ∧ (¬ r.Dials b a ∨ (r.exposed b = true ∧ r.exposed a = false) ∨
    (r.exposed a = r.exposed b ∧ a < b))

variable {r}

theorem Connected.symm (connected : r.Connected a b) : r.Connected b a :=
  Or.symm connected

theorem Dialer.asymm (dialer : r.Dialer a b) : ¬ r.Dialer b a := by
  rintro ⟨back, reason'⟩
  obtain ⟨there, reason⟩ := dialer
  rcases reason with oneWay | ⟨exposed, hidden⟩ | ⟨same, lower⟩
  · exact oneWay back
  · rcases reason' with oneWay | ⟨exposed', _⟩ | ⟨same, _⟩
    · exact oneWay there
    · exact Bool.false_ne_true (hidden.symm.trans exposed')
    · exact Bool.false_ne_true (hidden.symm.trans (same.symm.trans exposed))
  · rcases reason' with oneWay | ⟨exposed', hidden'⟩ | ⟨_, lower'⟩
    · exact oneWay there
    · exact Bool.false_ne_true (hidden'.symm.trans (same.symm.trans exposed'))
    · exact lt_asymm lower lower'

theorem Connected.dialer (different : a ≠ b) (connected : r.Connected a b) :
    r.Dialer a b ∨ r.Dialer b a := by
  by_cases there : r.Dials a b
  · by_cases back : r.Dials b a
    · by_cases same : r.exposed a = r.exposed b
      · rcases lt_or_gt_of_ne different with lower | higher
        · exact .inl ⟨there, .inr (.inr ⟨same, lower⟩)⟩
        · exact .inr ⟨back, .inr (.inr ⟨same.symm, higher⟩)⟩
      · cases exposedA : r.exposed a <;> cases exposedB : r.exposed b <;> simp_all [Dialer]
    · exact .inl ⟨there, .inl back⟩
  · exact .inr ⟨connected.resolve_left there, .inl there⟩

theorem Connected.ne (wf : r.WellFormed) (connected : r.Connected a b) : a ≠ b := by
  rcases connected with dials | dials
  · exact (dials.ends wf).2.1
  · exact (dials.ends wf).2.1.symm

theorem dialer_orient (wf : r.WellFormed) (order : RangeOrder Site) (dials : r.Dials a b) :
    (r.orient (r.intents order) (a, b) = (a, b) ∧ r.Dialer a b) ∨
      (r.orient (r.intents order) (a, b) = (b, a) ∧ r.Dialer b a) := by
  have different := (dials.ends wf).2.1
  rw [orient]
  split
  · next swapped =>
    obtain ⟨back, reason⟩ := swapped
    refine .inr ⟨rfl, (mem_intents order wf).mp back, .inr (reason.imp ?_ ?_)⟩
    · rintro ⟨exposed, hidden⟩
      exact ⟨exposed, Bool.eq_false_iff.mpr hidden⟩
    · rintro ⟨same, lower⟩
      exact ⟨same.symm, lower⟩
  · next kept =>
    refine .inl ⟨rfl, (Connected.dialer different (.inl dials)).resolve_right ?_⟩
    rintro ⟨back, reason⟩
    apply kept
    refine ⟨(mem_intents order wf).mpr back, (reason.resolve_left fun absent => absent dials).imp ?_ ?_⟩
    · rintro ⟨exposed, hidden⟩
      exact ⟨exposed, Bool.eq_false_iff.mp hidden⟩
    · rintro ⟨same, lower⟩
      exact ⟨same.symm, lower⟩

/-! ## The resolution loop -/

variable {dialer : String}

def pairEntries (intents : GoMap Intent Int) (dialer target : String) : Peers :=
  [(dialer, ⟨target, true, (intents.lookup (dialer, target)).getD 0, []⟩),
    (target, ⟨dialer, false, 0, []⟩)]

theorem resolveStep_of_absent {k : Intent} (oriented : r.orient intents k = (dialer, target)) (fresh : hasPeer peers k.1 k.2 = false)
    (different : dialer ≠ target) (there : hasPeer peers dialer target = false)
    (back : hasPeer peers target dialer = false) :
    r.resolveStep intents peers k = peers ++ pairEntries intents dialer target := by
  rw [resolveStep, if_neg (by rw [fresh]; decide), oriented]
  dsimp only
  have marked : updatePeer (ensurePeer peers dialer target) dialer target
      (fun pp => { pp with dial := true, keepalive := (intents.lookup (dialer, target)).getD 0 }) =
        peers ++ [(dialer, ⟨target, true, (intents.lookup (dialer, target)).getD 0, []⟩)] := by
    rw [ensurePeer, if_neg (by rw [there]; decide), updatePeer, List.map_append]
    have unchanged := updatePeer_of_absent
      (fun pp => { pp with dial := true, keepalive := (intents.lookup (dialer, target)).getD 0 })
      there
    rw [updatePeer] at unchanged
    rw [unchanged]
    simp
  rw [marked, ensurePeer, if_neg, List.append_assoc, pairEntries, List.singleton_append]
  rw [hasPeer_iff]
  rintro ⟨pp, member, same⟩
  rcases List.mem_append.mp member with old | new
  · exact not_key_of_hasPeer back old ⟨rfl, same⟩
  · exact different (Prod.mk.inj (List.mem_singleton.mp new)).1.symm

/-- The entry of a node for a peer it is connected to. -/
structure IsEntry (r : Roster) (intents : GoMap Intent Int) (a : String) (pp : PlanPeer) :
    Prop where
  empty : pp.allowed = []
  sides : (r.Dialer a pp.peerID ∧ pp.dial = true ∧
      pp.keepalive = (intents.lookup (a, pp.peerID)).getD 0) ∨
    (r.Dialer pp.peerID a ∧ pp.dial = false ∧ pp.keepalive = 0)

/-- What the loop has built after some of the intents: one entry for each direction of
their pairs. -/
structure Resolved (r : Roster) (intents : GoMap Intent Int) (done : List Intent)
    (peers : Peers) : Prop where
  keyed : Keyed peers
  entries : ∀ entry ∈ peers, r.IsEntry intents entry.1 entry.2
  present : ∀ a b, hasPeer peers a b = true ↔ (a, b) ∈ done ∨ (b, a) ∈ done

theorem mem_pairEntries (dials : r.Dialer dialer target)
    {entry : String × PlanPeer} (member : entry ∈ pairEntries intents dialer target) :
    r.IsEntry intents entry.1 entry.2 := by
  simp only [pairEntries, List.mem_cons, List.not_mem_nil, or_false] at member
  rcases member with rfl | rfl
  · exact ⟨rfl, .inl ⟨dials, rfl, rfl⟩⟩
  · exact ⟨rfl, .inr ⟨dials, rfl, rfl⟩⟩

theorem hasPeer_append_pairEntries : hasPeer (peers ++ pairEntries intents dialer target) a b = true ↔
      hasPeer peers a b = true ∨ (a = dialer ∧ b = target) ∨ (a = target ∧ b = dialer) := by
  simp only [hasPeer_iff, List.mem_append, pairEntries, List.mem_cons, Prod.mk.injEq,
    List.not_mem_nil, or_false, or_and_right, exists_or]
  refine or_congr_right (or_congr ⟨?_, ?_⟩ ⟨?_, ?_⟩)
  · rintro ⟨pp, ⟨rfl, rfl⟩, rfl⟩
    exact ⟨rfl, rfl⟩
  · rintro ⟨rfl, rfl⟩
    exact ⟨_, ⟨rfl, rfl⟩, rfl⟩
  · rintro ⟨pp, ⟨rfl, rfl⟩, rfl⟩
    exact ⟨rfl, rfl⟩
  · rintro ⟨rfl, rfl⟩
    exact ⟨_, ⟨rfl, rfl⟩, rfl⟩

theorem keyed_append_pairEntries (keyed : Keyed peers)
    (different : dialer ≠ target) (there : hasPeer peers dialer target = false)
    (back : hasPeer peers target dialer = false) :
    Keyed (peers ++ pairEntries intents dialer target) := by
  rw [Keyed, List.map_append, List.nodup_append]
  refine ⟨keyed, ?_, ?_⟩
  · simp only [pairEntries, List.map_cons, List.map_nil, List.nodup_cons, List.mem_singleton,
      Prod.mk.injEq, not_and, List.not_mem_nil, not_false_eq_true, List.nodup_nil, and_self,
      and_true]
    intro same
    exact (different same).elim
  · rintro _ old _ new rfl
    obtain ⟨entry, member, same⟩ := List.mem_map.mp old
    simp only [pairEntries, List.map_cons, List.map_nil, List.mem_cons, List.not_mem_nil,
      or_false] at new
    rcases new with forward | backward
    · rw [← same] at forward
      exact not_key_of_hasPeer there member (Prod.mk.inj forward)
    · rw [← same] at backward
      exact not_key_of_hasPeer back member (Prod.mk.inj backward)

theorem Resolved.step (wf : r.WellFormed) (order : RangeOrder Site) {done : List Intent}
    {k : Intent} (resolved : r.Resolved (r.intents order) done peers) (dials : r.Dials k.1 k.2) :
    r.Resolved (r.intents order) (done ++ [k]) (r.resolveStep (r.intents order) peers k) := by
  obtain ⟨a, b⟩ := k
  cases fresh : hasPeer peers a b with
  | true =>
    rw [resolveStep, if_pos fresh]
    refine ⟨resolved.keyed, resolved.entries, fun x y => ?_⟩
    have known := (resolved.present a b).mp fresh
    simp only [resolved.present, List.mem_append, List.mem_singleton, Prod.mk.injEq]
    constructor
    · rintro (old | old)
      · exact .inl (.inl old)
      · exact .inr (.inl old)
    · rintro ((old | ⟨rfl, rfl⟩) | (old | ⟨rfl, rfl⟩))
      · exact .inl old
      · exact known
      · exact .inr old
      · exact known.symm
  | false =>
    have back : hasPeer peers b a = false := by
      rw [Bool.eq_false_iff, ne_eq, resolved.present] at fresh ⊢
      exact fun known => fresh known.symm
    have different := (dials.ends wf).2.1
    have outcome (dialer target : String) (dialerDials : r.Dialer dialer target)
        (oriented : r.orient (r.intents order) (a, b) = (dialer, target))
        (sides : (dialer = a ∧ target = b) ∨ (dialer = b ∧ target = a)) :
        r.Resolved (r.intents order) (done ++ [(a, b)])
          (r.resolveStep (r.intents order) peers (a, b)) := by
      have apart : dialer ≠ target := by
        rcases sides with ⟨rfl, rfl⟩ | ⟨rfl, rfl⟩
        · exact different
        · exact different.symm
      have there : hasPeer peers dialer target = false := by
        rcases sides with ⟨rfl, rfl⟩ | ⟨rfl, rfl⟩ <;> assumption
      have here : hasPeer peers target dialer = false := by
        rcases sides with ⟨rfl, rfl⟩ | ⟨rfl, rfl⟩ <;> assumption
      rw [resolveStep_of_absent oriented fresh apart there here]
      refine ⟨keyed_append_pairEntries resolved.keyed apart there here, ?_, fun x y => ?_⟩
      · intro entry member
        rcases List.mem_append.mp member with old | new
        · exact resolved.entries entry old
        · exact mem_pairEntries dialerDials new
      · rw [hasPeer_append_pairEntries, resolved.present]
        simp only [List.mem_append, List.mem_singleton, Prod.mk.injEq]
        grind
    rcases dialer_orient wf order dials with ⟨oriented, dialer⟩ | ⟨oriented, dialer⟩
    · exact outcome a b dialer oriented (.inl ⟨rfl, rfl⟩)
    · exact outcome b a dialer oriented (.inr ⟨rfl, rfl⟩)

/-- **Peers.** The loop gives every connected pair one entry on each side, and marks the
entry of the dialer. -/
theorem resolved_spec (wf : r.WellFormed) (order : RangeOrder Site) : Keyed (r.resolved order) ∧
      (∀ entry ∈ r.resolved order, r.IsEntry (r.intents order) entry.1 entry.2) ∧
      ∀ a b, hasPeer (r.resolved order) a b = true ↔ r.Connected a b := by
  have visited (k : Intent) : k ∈ (order.range .intents (r.intents order).keys).insertionSort
      intentLE ↔ r.Dials k.1 k.2 := by
    rw [List.mem_insertionSort, RangeOrder.mem_range, ← AList.mem_keys]
    exact mem_intents order wf
  have start : r.Resolved (r.intents order) [] [] :=
    ⟨List.nodup_nil, fun _ member => (by cases member), fun a b => by
      simp only [hasPeer_iff, List.not_mem_nil, false_and, exists_false, or_self]⟩
  have final := Runs.foldl_rounds (r.Resolved (r.intents order))
    ((order.range .intents (r.intents order).keys).insertionSort intentLE)
    (fun _ k _ _ whole resolved => resolved.step wf order ((visited k).mp (whole ▸ by simp))) start
  refine ⟨final.keyed, final.entries, fun a b => ?_⟩
  rw [resolved, final.present, visited, visited]
  rfl

end Roster

/-! ## Granted prefixes -/

/-- The prefixes granted to the entry of a node for a peer, in program order. -/
def grantsFor (a b : String) (grants : List Roster.Grant) : List Prefix :=
  (grants.filter fun grant => grant.1 = a ∧ grant.2.1 = b).map fun grant => grant.2.2

theorem mem_grantsFor {grants : List Roster.Grant} {p : Prefix} :
    p ∈ grantsFor a b grants ↔ (a, b, p) ∈ grants := by
  rw [grantsFor, List.mem_map]
  constructor
  · rintro ⟨⟨_, _, _⟩, kept, rfl⟩
    obtain ⟨member, key⟩ := List.mem_filter.mp kept
    obtain ⟨rfl, rfl⟩ := of_decide_eq_true key
    exact member
  · intro member
    exact ⟨_, List.mem_filter.mpr ⟨member, decide_eq_true ⟨rfl, rfl⟩⟩, rfl⟩

theorem grantsFor_cons (a b : String) (grant : Roster.Grant) (grants : List Roster.Grant) :
    grantsFor a b (grant :: grants) =
      if grant.1 = a ∧ grant.2.1 = b then grant.2.2 :: grantsFor a b grants
      else grantsFor a b grants := by
  rw [grantsFor, List.filter_cons]
  simp only [decide_eq_true_eq]
  split <;> rfl

@[simp] theorem PlanPeer.allow_peerID (pp : PlanPeer) (p : Prefix) :
    (pp.allow p).peerID = pp.peerID := by
  rw [allow]
  split <;> rfl

theorem PlanPeer.foldl_allow_fields (prefixes : List Prefix) (pp : PlanPeer) :
    (prefixes.foldl allow pp).peerID = pp.peerID ∧ (prefixes.foldl allow pp).dial = pp.dial ∧
      (prefixes.foldl allow pp).keepalive = pp.keepalive := by
  induction prefixes generalizing pp with
  | nil => exact ⟨rfl, rfl, rfl⟩
  | cons p prefixes ih =>
    obtain ⟨peerID, dial, keepalive⟩ := ih (pp.allow p)
    rw [List.foldl_cons, peerID, dial, keepalive, allow]
    split <;> exact ⟨rfl, rfl, rfl⟩

theorem PlanPeer.mem_foldl_allow (prefixes : List Prefix) (pp : PlanPeer) (p : Prefix) :
    p ∈ (prefixes.foldl allow pp).allowed ↔ p ∈ pp.allowed ∨ (p ∈ prefixes ∧ p.isValid = true) := by
  have step (pp : PlanPeer) (q : Prefix) :
      p ∈ (pp.allow q).allowed ↔ p ∈ pp.allowed ∨ (p = q ∧ p.isValid = true) := by
    rw [allow]
    split
    · next refused =>
      refine ⟨.inl, ?_⟩
      rintro (old | ⟨rfl, valid⟩)
      · exact old
      · rcases refused with invalid | known
        · exact (Bool.false_ne_true (invalid.symm.trans valid)).elim
        · exact known
    · next accepted =>
      rw [not_or, Bool.not_eq_false] at accepted
      rw [List.mem_append, List.mem_singleton]
      refine or_congr_right ⟨?_, And.left⟩
      rintro rfl
      exact ⟨rfl, accepted.1⟩
  rw [Runs.foldl_iff (fun pp : PlanPeer => p ∈ pp.allowed) step]
  simp

/-- An entry with the prefixes granted to it. -/
def fillEntry (grants : List Roster.Grant) (entry : String × PlanPeer) : String × PlanPeer :=
  (entry.1, (grantsFor entry.1 entry.2.peerID grants).foldl PlanPeer.allow entry.2)

theorem comp_fillEntry {β : Type} (f : String → String → β) (grants : List Roster.Grant) :
    (fun entry => f entry.1 entry.2.peerID) ∘ fillEntry grants =
      fun entry => f entry.1 entry.2.peerID := by
  funext entry
  exact congrArg (f entry.1) (PlanPeer.foldl_allow_fields _ _).1

theorem foldl_applyGrant (grants : List Roster.Grant) (peers : Peers) :
    grants.foldl applyGrant peers = peers.map (fillEntry grants) := by
  induction grants generalizing peers with
  | nil =>
    rw [List.foldl_nil]
    exact (List.map_id peers).symm
  | cons grant grants ih =>
    rw [List.foldl_cons, ih, applyGrant, updatePeer, List.map_map]
    apply List.map_congr_left
    intro entry _
    rw [Function.comp_apply, fillEntry, fillEntry, grantsFor_cons]
    by_cases key : entry.1 = grant.1 ∧ entry.2.peerID = grant.2.1
    · rw [if_pos key, if_pos ⟨key.1.symm, key.2.symm⟩, PlanPeer.allow_peerID, List.foldl_cons]
    · rw [if_neg key, if_neg fun same => key ⟨same.1.symm, same.2.symm⟩]

variable {mesh : Mesh} (order : RangeOrder Site)

def Mesh.grants (mesh : Mesh) (order : RangeOrder Site) : List Roster.Grant :=
  mesh.roster.grants order (mesh.roster.resolved order)

theorem peers_planMesh : (planMesh order mesh).peers =
    (mesh.roster.resolved order).map (fillEntry (mesh.grants order)) :=
  foldl_applyGrant _ _

/-- The entry of a planned peer is the resolved one with its granted prefixes. -/
theorem peerOf_planMesh (a b : String) : peerOf (planMesh order mesh).peers a b =
    (peerOf (mesh.roster.resolved order) a b).map fun pp =>
      (grantsFor a b (mesh.grants order)).foldl PlanPeer.allow pp := by
  rw [peers_planMesh, peerOf, peerOf, List.find?_map, Option.map_map, Option.map_map,
    comp_fillEntry fun node peer => decide (node = a ∧ peer = b)]
  cases found : (mesh.roster.resolved order).find? fun entry => entry.1 = a ∧ entry.2.peerID = b with
  | none => rfl
  | some entry =>
    have key := List.find?_some found
    rw [decide_eq_true_eq] at key
    obtain ⟨rfl, rfl⟩ := key
    rfl

theorem hasPeer_planMesh (a b : String) :
    hasPeer (planMesh order mesh).peers a b = hasPeer (mesh.roster.resolved order) a b := by
  rw [hasPeer, hasPeer, peerOf_planMesh, Option.isSome_map]

/-- Whether the plan allows a prefix on the entry of a node for a peer. -/
def Plan.Allowed (plan : Plan) (a b : String) (p : Prefix) : Prop :=
  ∃ pp, peerOf plan.peers a b = some pp ∧ p ∈ pp.allowed

/-- **Allowed prefixes.** A prefix is allowed on an entry when the pair is connected, it is valid,
and some pass grants it. -/
theorem allowed_iff (wf : mesh.WellFormed) {p : Prefix} :
    (planMesh order mesh).Allowed a b p ↔
      mesh.roster.Connected a b ∧ (a, b, p) ∈ mesh.grants order ∧ p.isValid = true := by
  obtain ⟨_, entries, present⟩ := Roster.resolved_spec wf.roster order
  have empty {pp} (found : peerOf (mesh.roster.resolved order) a b = some pp) :
      pp.allowed = [] :=
    (entries _ (mem_of_peerOf found).1).empty
  rw [← present, hasPeer, Option.isSome_iff_exists]
  constructor
  · rintro ⟨pp, found, member⟩
    rw [peerOf_planMesh, Option.map_eq_some_iff] at found
    obtain ⟨base, search, rfl⟩ := found
    rw [PlanPeer.mem_foldl_allow, empty search, mem_grantsFor] at member
    exact ⟨⟨base, search⟩, member.resolve_left List.not_mem_nil⟩
  · rintro ⟨⟨base, search⟩, granted, valid⟩
    refine ⟨_, by rw [peerOf_planMesh, search]; rfl, ?_⟩
    rw [PlanPeer.mem_foldl_allow, mem_grantsFor]
    exact .inr ⟨granted, valid⟩

end Core
