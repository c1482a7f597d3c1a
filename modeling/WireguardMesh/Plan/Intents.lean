import Mathlib.Data.String.Basic
import WireguardMesh.Core.Plan
import WireguardMesh.Plan.Roster

/-! # Who wants to dial whom

`Roster.Dials` says when a node has an intent to dial another one, with one constructor
for each pass that adds intents. It does not mention the orders in which the passes visit
their maps, and it is what the intent map holds for every choice of them
(`Roster.mem_intents`).

No node intends to dial itself, and the relay dials nobody (`Roster.Dials.ends`).
-/

namespace Core

open GoText Net

variable {a b : String} {sub : Prefix} {pn : PlanNode}

namespace Roster

/-- The intents of a roster. -/
inductive Dials (r : Roster) : String → String → Prop
  /-- A child dials the mothers it is attached to. -/
  | attached {child mother : String} (attached : r.isAttached child mother = true) :
      Dials r child mother
  /-- A node dials every gateway candidate, and the relay only as the gateway in use. -/
  | candidate {pn : PlanNode} {sub : Prefix} {c : String} (member : pn ∈ r.active)
      (routed : sub ∈ r.vpnRoutes pn) (candidate : c ∈ r.candidates pn sub)
      (used : c = relayNodeID → r.gateway pn.id sub = relayNodeID) : Dials r pn.id c
  /-- A child with a gateway for its own subnet dials every dialable mother there. -/
  | sameSubnet {pn m : PlanNode} (member : pn ∈ r.active) (child : pn.mother = false)
      (gated : r.gateway pn.id pn.subnet ≠ "") (inActive : m ∈ r.active)
      (mother : m.mother = true) (served : m.subnet = pn.subnet) (exposed : m.exposed = true) :
      Dials r pn.id m.id
  /-- Of two mothers that mesh the lower id dials, unless the other is not dialable. -/
  | mesh {a b : String} (edge : r.meshEdge a b = true)
      (oriented : (a < b ∧ r.exposed b = true) ∨ (b < a ∧ r.exposed a = false)) : Dials r a b
  | generic {source target : PlanNode} {l : Link} (linked : (source, target, l) ∈ r.generic) :
      Dials r source.id target.id
  /-- The nodes of a subnet some node reaches through the relay dial the relay. -/
  | served {pn z : PlanNode} (member : pn ∈ r.active) (user : z ∈ r.active)
      (through : r.gateway z.id pn.subnet = relayNodeID) : Dials r pn.id relayNodeID

variable {r : Roster} (order : RangeOrder Site)

/-! ## The intent map -/

theorem mem_addIntent (intents : GoMap Intent Int) (call : Intent × Int) (k : Intent) :
    k ∈ addIntent intents call ↔ k ∈ intents ∨ k = call.1 := by
  rw [addIntent]
  split
  · rw [AList.mem_insert, or_comm]
  · next found =>
    have known : call.1 ∈ intents := AList.lookup_isSome.mp (by rw [found]; rfl)
    split
    · rw [AList.mem_insert, or_comm]
    · refine ⟨.inl, ?_⟩
      rintro (old | rfl)
      · exact old
      · exact known

theorem mem_foldl_addIntent (calls : List (Intent × Int)) (intents : GoMap Intent Int)
    (k : Intent) : k ∈ calls.foldl addIntent intents ↔ k ∈ intents ∨ ∃ ka, (k, ka) ∈ calls := by
  rw [Runs.foldl_iff (k ∈ ·) (mem_addIntent · · k)]
  refine or_congr_right ⟨?_, ?_⟩
  · rintro ⟨call, listed, rfl⟩
    exact ⟨call.2, listed⟩
  · rintro ⟨ka, listed⟩
    exact ⟨(k, ka), listed, rfl⟩

/-! ## The passes -/

theorem mem_attachIntents :
    (∃ ka, ((a, b), ka) ∈ r.attachIntents order) ↔ r.isAttached a b = true := by
  simp only [attachIntents, List.mem_flatMap, RangeOrder.mem_range, List.mem_map, Prod.mk.injEq,
    isAttached, decide_eq_true_eq]
  constructor
  · rintro ⟨_, child, _, m, member, ⟨rfl, rfl⟩, _⟩
    exact member
  · intro member
    exact ⟨_, a, GoMap.mem_keys_of_mem_getD member, b, member, ⟨rfl, rfl⟩, rfl⟩

theorem mem_sortedCands {site : Site} {keys : List Prefix} :
    sub ∈ sortedCands order site keys ↔ sub ∈ keys := by
  rw [sortedCands, List.mem_insertionSort, RangeOrder.mem_range]

theorem mem_keys_candRow :
    sub ∈ (r.candRow pn).map Prod.fst ↔ sub ∈ r.vpnRoutes pn ∧ r.candidates pn sub ≠ [] := by
  rw [candRow_eq, List.map_map]
  simp

theorem lookup_candRow (present : sub ∈ (r.candRow pn).map Prod.fst) :
    (r.candRow pn).lookup sub = some (r.candidates pn sub) := by
  obtain ⟨routed, several⟩ := mem_keys_candRow.mp present
  rw [candRow_eq, lookup_map, if_pos]
  exact List.mem_filter.mpr ⟨routed, decide_eq_true several⟩

theorem mem_candidateIntents :
    (∃ ka, ((a, b), ka) ∈ r.candidateIntents order pn) ↔ a = pn.id ∧ ∃ sub ∈ r.vpnRoutes pn,
      b ∈ r.candidates pn sub ∧ (b = relayNodeID → r.gateway pn.id sub = relayNodeID) := by
  simp only [candidateIntents, List.mem_flatMap, List.mem_filterMap, mem_sortedCands]
  constructor
  · rintro ⟨_, sub, present, c, member, kept⟩
    rw [lookup_candRow present, Option.getD_some] at member
    split at kept
    · cases kept
    · next used =>
      cases kept
      exact ⟨rfl, sub, (mem_keys_candRow.mp present).1, member, by
        simpa only [not_and, not_not] using used⟩
  · rintro ⟨rfl, sub, routed, member, used⟩
    have present := mem_keys_candRow.mpr ⟨routed, List.ne_nil_of_mem member⟩
    refine ⟨if pn.mother then motherKeepalive else childKeepalive, sub, present, b, ?_, ?_⟩
    · rw [lookup_candRow present]
      exact member
    · rw [if_neg (by simpa only [not_and, not_not] using used)]

theorem mem_genericIntents : (∃ ka, ((a, b), ka) ∈ r.genericIntents) ↔
    ∃ source target l, (source, target, l) ∈ r.generic ∧ source.id = a ∧ target.id = b := by
  simp only [genericIntents, List.mem_map, Prod.mk.injEq, Prod.exists]
  constructor
  · rintro ⟨_, source, target, l, linked, ⟨rfl, rfl⟩, _⟩
    exact ⟨source, target, l, linked, rfl, rfl⟩
  · rintro ⟨source, target, l, linked, rfl, rfl⟩
    exact ⟨_, source, target, l, linked, ⟨rfl, rfl⟩, rfl⟩

/-! ## Mothers that mesh -/

theorem mem_pairs {list : List String} (pair : (a, b) ∈ pairs list) : a ∈ list ∧ b ∈ list := by
  induction list with
  | nil => cases pair
  | cons c rest ih =>
    rw [pairs, List.mem_append, List.mem_map] at pair
    rcases pair with ⟨d, member, same⟩ | later
    · cases same
      exact ⟨.head _, .tail _ member⟩
    · exact ⟨.tail _ (ih later).1, .tail _ (ih later).2⟩

theorem pairs_complete {list : List String} (inA : a ∈ list) (inB : b ∈ list) (different : a ≠ b) :
    (a, b) ∈ pairs list ∨ (b, a) ∈ pairs list := by
  induction list with
  | nil => cases inA
  | cons c rest ih =>
    rw [pairs, List.mem_append, List.mem_append, List.mem_map, List.mem_map]
    rcases List.mem_cons.mp inA with rfl | laterA
    · rcases List.mem_cons.mp inB with rfl | laterB
      · exact (different rfl).elim
      · exact .inl (.inl ⟨b, laterB, rfl⟩)
    · rcases List.mem_cons.mp inB with rfl | laterB
      · exact .inr (.inl ⟨a, laterA, rfl⟩)
      · exact (ih laterA laterB).imp .inr .inr

theorem meshEdge_symm (a b : String) : r.meshEdge a b = r.meshEdge b a := by
  rw [meshEdge, meshEdge]
  cases r.node? a with
  | none => cases r.node? b <;> rfl
  | some pa =>
    cases r.node? b with
    | none => rfl
    | some pb =>
      apply decide_eq_decide.mpr
      constructor <;> rintro ⟨apart, first, second, exposed, mode, close⟩ <;>
        refine ⟨apart.symm, second, first, exposed.symm, mode.symm, close.imp Eq.symm ?_⟩ <;>
        rintro ⟨named, same⟩ <;>
        exact ⟨same ▸ named, same.symm⟩

theorem mem_meshDial {x y : String} : (∃ ka, ((a, b), ka) ∈ r.meshDial x y) ↔
    r.meshEdge a b = true ∧ ((a = x ∧ b = y) ∨ (a = y ∧ b = x)) ∧
      ((a < b ∧ r.exposed b = true) ∨ (b < a ∧ r.exposed a = false)) := by
  rw [meshDial]
  by_cases edge : r.meshEdge x y = true
  · have different : x ≠ y := by
      rintro rfl
      rw [meshEdge] at edge
      split at edge
      · exact (of_decide_eq_true edge).1 rfl
      · cases edge
    have edges : r.meshEdge y x = true := meshEdge_symm x y ▸ edge
    rw [if_pos edge]
    rcases lt_or_gt_of_ne different with lower | higher
    · rw [if_neg (lt_asymm lower)]
      dsimp only
      by_cases exposed : r.exposed y = true
      · rw [if_pos exposed]
        grind
      · rw [if_neg exposed]
        grind
    · rw [if_pos higher]
      dsimp only
      by_cases exposed : r.exposed x = true
      · rw [if_pos exposed]
        grind
      · rw [if_neg exposed]
        grind
  · rw [if_neg edge]
    simp only [List.not_mem_nil, exists_false, false_iff, not_and]
    rintro edge' (⟨rfl, rfl⟩ | ⟨rfl, rfl⟩)
    · exact (edge edge').elim
    · exact (edge (meshEdge_symm a b ▸ edge')).elim

theorem meshEdge_cases (wf : r.WellFormed) (edge : r.meshEdge a b = true) :
    ∃ pa ∈ r.active, ∃ pb ∈ r.active, pa.id = a ∧ pb.id = b ∧ a ≠ b ∧ pa.mother = true ∧
      pb.mother = true ∧ (pa.exposed = true ∨ pb.exposed = true) ∧ pa.n.udpMode = pb.n.udpMode ∧
      (pa.subnet = pb.subnet ∨ (pa.n.cluster ≠ "" ∧ pa.n.cluster = pb.n.cluster)) := by
  rw [meshEdge] at edge
  split at edge
  · next pa pb foundA foundB =>
    have facts := of_decide_eq_true edge
    exact ⟨pa, mem_of_node?_mother wf foundA facts.2.1, pb,
      mem_of_node?_mother wf foundB facts.2.2.1, id_of_node? wf foundA, id_of_node? wf foundB,
      facts⟩
  · cases edge

theorem mem_meshIntents {site : Site} {K : Type} [DecidableEq K] {groups : GoMap K (List String)} :
    (∃ ka, ((a, b), ka) ∈ r.meshIntents order site groups) ↔
      r.meshEdge a b = true ∧ (∃ key, a ∈ groups.getD key [] ∧ b ∈ groups.getD key []) ∧
        ((a < b ∧ r.exposed b = true) ∨ (b < a ∧ r.exposed a = false)) := by
  simp only [meshIntents, List.mem_flatMap, RangeOrder.mem_range]
  constructor
  · rintro ⟨ka, key, _, ⟨x, y⟩, pair, call⟩
    obtain ⟨edge, sides, oriented⟩ := mem_meshDial.mp ⟨ka, call⟩
    obtain ⟨inX, inY⟩ := mem_pairs pair
    rcases sides with ⟨rfl, rfl⟩ | ⟨rfl, rfl⟩
    · exact ⟨edge, ⟨key, inX, inY⟩, oriented⟩
    · exact ⟨edge, ⟨key, inY, inX⟩, oriented⟩
  · rintro ⟨edge, ⟨key, inA, inB⟩, oriented⟩
    have different : a ≠ b := by
      rcases oriented with lower | higher
      · exact lower.1.ne
      · exact higher.1.ne'
    have visited := GoMap.mem_keys_of_mem_getD inA
    rcases pairs_complete inA inB different with forward | backward
    · obtain ⟨ka, call⟩ := mem_meshDial.mpr ⟨edge, .inl ⟨rfl, rfl⟩, oriented⟩
      exact ⟨ka, key, visited, _, forward, call⟩
    · obtain ⟨ka, call⟩ := mem_meshDial.mpr ⟨edge, .inr ⟨rfl, rfl⟩, oriented⟩
      exact ⟨ka, key, visited, _, backward, call⟩

theorem sharedGroup_of_meshEdge (wf : r.WellFormed) (edge : r.meshEdge a b = true) :
    (∃ sub, a ∈ r.mothersIn.getD sub [] ∧ b ∈ r.mothersIn.getD sub []) ∨
      ∃ cluster, a ∈ r.clusterMothers.getD cluster [] ∧ b ∈ r.clusterMothers.getD cluster [] := by
  obtain ⟨pa, inA, pb, inB, rfl, rfl, _, motherA, motherB, _, _, close⟩ := meshEdge_cases wf edge
  rcases close with subnet | ⟨named, cluster⟩
  · exact .inl ⟨pa.subnet, mem_mothersIn.mpr ⟨pa, inA, motherA, rfl, rfl⟩,
      mem_mothersIn.mpr ⟨pb, inB, motherB, subnet.symm, rfl⟩⟩
  · exact .inr ⟨pa.n.cluster, mem_clusterMothers.mpr ⟨pa, inA, motherA, named, rfl, rfl⟩,
      mem_clusterMothers.mpr ⟨pb, inB, motherB, cluster ▸ named, cluster.symm, rfl⟩⟩

/-! ## The relay -/

theorem relayServed_iff (wf : r.WellFormed) : r.relayServed order sub = true ↔
    ∃ z ∈ r.active, r.gateway z.id sub = relayNodeID := by
  simp only [relayServed, List.any_eq_true, RangeOrder.mem_range, decide_eq_true_eq]
  refine exists_congr fun z => and_congr_right fun member => ?_
  rw [gateway_eq wf member, prefers, gwRow_eq]
  constructor
  · rintro ⟨entry, present, rfl, through⟩
    obtain ⟨_, kept, rfl⟩ := List.mem_map.mp present
    rw [if_pos (List.mem_filter.mp kept).1]
    exact through
  · intro through
    split at through
    · next routed =>
      have several : r.candidates z sub ≠ [] := by
        intro none
        rw [none, choose_nil] at through
        exact absurd through (by decide)
      exact ⟨(sub, _), List.mem_map.mpr ⟨sub, List.mem_filter.mpr
        ⟨routed, decide_eq_true several⟩, rfl⟩, rfl, through⟩
    · exact absurd through (by decide)

/-- **The intent map.** Whatever the orders of iteration, the intents are those of `Dials`. -/
theorem mem_intents (wf : r.WellFormed) : (a, b) ∈ r.intents order ↔ r.Dials a b := by
  rw [intents, mem_foldl_addIntent, or_iff_right (AList.notMem_empty _)]
  simp only [intentCalls, List.mem_append, exists_or, List.mem_flatMap, mem_attachIntents,
    mem_meshIntents, mem_genericIntents]
  constructor
  · rintro (((((attached | ⟨ka, pn, member, call | call⟩) | subnets) | clusters) | linked) | served)
    · exact .attached attached
    · obtain ⟨rfl, sub, routed, candidate, used⟩ := (mem_candidateIntents order).mp ⟨ka, call⟩
      exact .candidate member routed candidate used
    · rw [sameSubnetIntents] at call
      split at call
      · next child =>
        obtain ⟨id, dialable, same⟩ := List.mem_map.mp call
        obtain ⟨m, inActive, mother, home, exposed, _, rfl⟩ := (mem_dialable wf).mp dialable
        cases same
        exact .sameSubnet member child.1 child.2 inActive mother home exposed
      · cases call
    · exact .mesh subnets.1 subnets.2.2
    · exact .mesh clusters.1 clusters.2.2
    · obtain ⟨source, target, l, linked, rfl, rfl⟩ := linked
      exact .generic linked
    · obtain ⟨ka, call⟩ := served
      obtain ⟨pn, kept, same⟩ := List.mem_map.mp call
      cases same
      obtain ⟨member, served⟩ := List.mem_filter.mp kept
      obtain ⟨z, user, through⟩ := (relayServed_iff order wf).mp served
      exact .served member user through
  · intro dials
    cases dials with
    | attached attached => exact .inl (.inl (.inl (.inl (.inl attached))))
    | @candidate pn sub c member routed candidate used =>
      obtain ⟨ka, call⟩ := (mem_candidateIntents order).mpr ⟨rfl, sub, routed, candidate, used⟩
      exact .inl (.inl (.inl (.inl (.inr ⟨ka, pn, member, .inl call⟩))))
    | @sameSubnet pn m member child gated inActive mother home exposed =>
      have apart := wf.apart inActive member mother child
      refine .inl (.inl (.inl (.inl (.inr ⟨childKeepalive, pn, member, .inr ?_⟩))))
      rw [sameSubnetIntents, if_pos ⟨child, gated⟩]
      exact List.mem_map.mpr ⟨m.id, (mem_dialable wf).mpr
        ⟨m, inActive, mother, home, exposed, apart, rfl⟩, rfl⟩
    | mesh edge oriented =>
      rcases sharedGroup_of_meshEdge wf edge with subnets | clusters
      · exact .inl (.inl (.inl (.inr ⟨edge, subnets, oriented⟩)))
      · exact .inl (.inl (.inr ⟨edge, clusters, oriented⟩))
    | @generic source target l linked =>
      exact .inl (.inr ⟨source, target, l, linked, rfl, rfl⟩)
    | @served pn z member user through =>
      refine .inr ⟨childKeepalive, List.mem_map.mpr ⟨pn, List.mem_filter.mpr
        ⟨member, (relayServed_iff order wf).mpr ⟨z, user, through⟩⟩, rfl⟩⟩

/-! ## The ends of an intent -/

theorem mem_generic (wf : r.WellFormed) {source target : PlanNode} {l : Link}
    (linked : (source, target, l) ∈ r.generic) :
    source ∈ r.active ∧ target ∈ r.active ∧ source.id ≠ target.id ∧
      ¬ (source.mother = false ∧ target.mother = true) ∧
      l ∈ r.mesh.links ∧ source.id = l.fromNodeID ∧ target.id = l.toNodeID := by
  obtain ⟨link, member, kept⟩ := List.mem_filterMap.mp linked
  split at kept
  · next ends =>
    split at kept
    · cases kept
    · next kinds =>
      cases kept
      obtain ⟨inSource, inTarget, sourceId, targetId, different⟩ := linkEnds_mem wf member ends
      exact ⟨inSource, inTarget, different, kinds, member, sourceId, targetId⟩
  · cases kept

/-- **The ends of an intent.** The dialer is an active node, the target is another active
node or the relay, and the two are different. -/
theorem Dials.ends (wf : r.WellFormed) (dials : r.Dials a b) :
    (∃ pn ∈ r.active, pn.id = a) ∧ a ≠ b ∧
      ((∃ pn ∈ r.active, pn.id = b) ∨ (b = relayNodeID ∧ r.relayOn = true)) := by
  cases dials with
  | attached attached =>
    obtain ⟨x, inX, m, inM, rfl, rfl, child, mother⟩ := isAttached_cases wf attached
    exact ⟨⟨x, inX, rfl⟩, (wf.apart inM inX mother child).symm, .inl ⟨m, inM, rfl⟩⟩
  | @candidate pn sub c member routed candidate used =>
    refine ⟨⟨pn, member, rfl⟩, ?_⟩
    rcases mem_candidates wf candidate with ⟨m, inM, _, _, _, different, rfl⟩ | ⟨rfl, on, _⟩
    · exact ⟨different.symm, .inl ⟨m, inM, rfl⟩⟩
    · exact ⟨(wf.named pn member).2, .inr ⟨rfl, on⟩⟩
  | @sameSubnet pn m member child gated inActive mother served exposed =>
    exact ⟨⟨pn, member, rfl⟩, (wf.apart inActive member mother child).symm,
      .inl ⟨m, inActive, rfl⟩⟩
  | mesh edge oriented =>
    obtain ⟨pa, inA, pb, inB, rfl, rfl, different, _⟩ := meshEdge_cases wf edge
    exact ⟨⟨pa, inA, rfl⟩, different, .inl ⟨pb, inB, rfl⟩⟩
  | generic linked =>
    obtain ⟨inSource, inTarget, different, _⟩ := mem_generic wf linked
    exact ⟨⟨_, inSource, rfl⟩, different, .inl ⟨_, inTarget, rfl⟩⟩
  | @served pn z member user through =>
    exact ⟨⟨pn, member, rfl⟩, (wf.named pn member).2, .inr ⟨rfl, (gateway_relay wf user through).1⟩⟩

end Roster

end Core
