import WireguardMesh.Core.Roster

/-! # Facts about the planned nodes

`Mesh.WellFormed` is what planning needs of a mesh: node ids are distinct and not empty,
and neither a node nor the end of a link is named like the relay. Under it the active nodes of a
roster have distinct ids and distinct hosts (`Roster.WellFormed`), and every later module works
from that. A gateway is a dialable mother of the subnet or the relay (`Roster.gateway_cases`).
-/

namespace Core

open GoText Net

variable {mesh : Mesh} {pn : PlanNode} {id : String} {sub : Prefix}

/-- What planning needs of a mesh. -/
structure Mesh.WellFormed (mesh : Mesh) : Prop where
  distinct : (mesh.nodes.map Node.id).Nodup
  named : ∀ n ∈ mesh.nodes, n.id ≠ "" ∧ n.id ≠ relayNodeID
  links : ∀ l ∈ mesh.links, l.fromNodeID ≠ relayNodeID ∧ l.toNodeID ≠ relayNodeID

theorem Mesh.wellFormed_iff (mesh : Mesh) : mesh.WellFormed ↔
    (mesh.nodes.map Node.id).Nodup ∧ (∀ n ∈ mesh.nodes, n.id ≠ "" ∧ n.id ≠ relayNodeID) ∧
      ∀ l ∈ mesh.links, l.fromNodeID ≠ relayNodeID ∧ l.toNodeID ≠ relayNodeID :=
  ⟨fun wf => ⟨wf.distinct, wf.named, wf.links⟩, fun ⟨distinct, named, links⟩ =>
    ⟨distinct, named, links⟩⟩

instance (mesh : Mesh) : Decidable mesh.WellFormed :=
  decidable_of_iff' _ mesh.wellFormed_iff

/-- What the roster of a well-formed mesh satisfies. -/
structure Roster.WellFormed (r : Roster) : Prop where
  distinct : ∀ a ∈ r.active, ∀ b ∈ r.active, a.id = b.id → a = b
  nodup : (r.active.map PlanNode.id).Nodup
  named : ∀ pn ∈ r.active, pn.id ≠ "" ∧ pn.id ≠ relayNodeID
  relay : ∀ pn, r.relay = some pn → pn.id = relayNodeID ∧ pn.mother = false ∧ pn.exposed = true
  links : ∀ l ∈ r.mesh.links, l.fromNodeID ≠ relayNodeID ∧ l.toNodeID ≠ relayNodeID
  hosts : ∀ pn ∈ r.active, ∃ a, pn.host = prefixFrom (.v4 a) 32 ∧
    pn.subnet.masked = pn.subnet ∧ pn.subnet.contains (.v4 a) = true
  separate : ∀ a ∈ r.active, ∀ b ∈ r.active, a.host = b.host → a = b

/-! ## The roster of a well-formed mesh -/

theorem mem_activeNodes : pn ∈ activeNodes mesh ↔ pn.n ∈ mesh.nodes ∧ pn.n.disabled = false ∧
      pn.n.id ∉ conflictLosers mesh ∧ planNode pn.n = some pn := by
  rw [activeNodes, List.mem_filterMap]
  constructor
  · rintro ⟨n, member, kept⟩
    split at kept
    · cases kept
    · next usable =>
      have same : pn.n = n := by
        rw [planNode, Option.map_eq_some_iff] at kept
        obtain ⟨prefixes, _, rfl⟩ := kept
        rfl
      rw [not_or, Bool.not_eq_true] at usable
      subst same
      exact ⟨member, usable.1, usable.2, kept⟩
  · rintro ⟨member, enabled, wins, planned⟩
    refine ⟨pn.n, member, ?_⟩
    rw [if_neg (by rw [enabled]; simpa only [Bool.false_eq_true, false_or] using wins)]
    exact planned

theorem PlanNode.clash {P : Prop} (mother : pn.mother = true) (child : pn.mother = false) : P :=
  absurd (mother.symm.trans child) (by decide)

theorem mother_of_mem (member : pn ∈ activeNodes mesh) : pn.mother = pn.n.isMagnetParent := by
  obtain ⟨_, _, _, planned⟩ := mem_activeNodes.mp member
  rw [planNode, Option.map_eq_some_iff] at planned
  obtain ⟨prefixes, _, form⟩ := planned
  rw [← form]

theorem Mesh.WellFormed.findNode_of_mem
    (wf : mesh.WellFormed) (member : pn ∈ activeNodes mesh) : mesh.findNode pn.id = some pn.n :=
  Core.findNode_of_mem wf.distinct (mem_activeNodes.mp member).1

theorem hostPrefix_of_planNode {n : Node} (planned : planNode n = some pn) :
    hostPrefix n.address = some (pn.subnet, pn.host) := by
  rw [planNode, Option.map_eq_some_iff] at planned
  obtain ⟨prefixes, found, rfl⟩ := planned
  exact found

theorem nodup_activeNodes (distinct : (mesh.nodes.map Node.id).Nodup) :
    ((activeNodes mesh).map PlanNode.id).Nodup := by
  have sublist : ((activeNodes mesh).map PlanNode.id).Sublist (mesh.nodes.map Node.id) := by
    rw [activeNodes, List.map_filterMap]
    have each : ∀ n : Node, ∀ id, Option.map PlanNode.id
        (if n.disabled ∨ n.id ∈ conflictLosers mesh then none else planNode n) = some id →
        id = n.id := by
      intro n id found
      split at found
      · cases found
      · rw [planNode, Option.map_map, Option.map_eq_some_iff] at found
        obtain ⟨_, _, rfl⟩ := found
        rfl
    induction mesh.nodes with
    | nil => exact List.Sublist.refl _
    | cons n nodes ih =>
      rw [List.filterMap_cons, List.map_cons]
      split
      · exact ih.cons _
      · next id found =>
        rw [each n id found]
        exact ih.cons_cons _
  exact distinct.sublist sublist

/-- The active nodes of a well-formed mesh have different hosts: of two nodes with one host,
one loses it. -/
theorem separate_activeNodes {a b : PlanNode} (memberA : a ∈ activeNodes mesh)
    (memberB : b ∈ activeNodes mesh) (same : a.host = b.host) : a = b := by
  obtain ⟨inA, _, winsA, plannedA⟩ := mem_activeNodes.mp memberA
  obtain ⟨inB, _, winsB, plannedB⟩ := mem_activeNodes.mp memberB
  have foundA := hostPrefix_of_planNode plannedA
  have foundB := hostPrefix_of_planNode plannedB
  rw [same] at foundA
  obtain ⟨text, textA, textB⟩ := hostFromAddress_of_sameHost foundA foundB
  obtain ⟨i, atI⟩ := List.mem_iff_getElem?.mp inA
  obtain ⟨j, atJ⟩ := List.mem_iff_getElem?.mp inB
  by_cases position : i = j
  · subst position
    rw [Option.some.inj (atI.symm.trans atJ)] at plannedA
    exact Option.some.inj (plannedA.symm.trans plannedB)
  · exact ((loser_of_sameHost atI atJ position textA textB).elim winsA winsB).elim

/-- **Rosters are well formed.** The roster of a well-formed mesh has active nodes with distinct
ids, not that of the relay, and distinct hosts inside their subnets. -/
theorem Mesh.WellFormed.roster (wf : mesh.WellFormed) : mesh.roster.WellFormed where
  distinct := List.inj_on_of_nodup_map (nodup_activeNodes wf.distinct)
  nodup := nodup_activeNodes wf.distinct
  named := fun _ member => wf.named _ (mem_activeNodes.mp member).1
  relay := by
    intro pn found
    have relayOn : (relayNode mesh) = some pn := found
    rw [relayNode, Option.bind_eq_some_iff] at relayOn
    obtain ⟨relay, _, chosen⟩ := relayOn
    split at chosen
    · cases chosen
      exact ⟨rfl, rfl, rfl⟩
    · cases chosen
  links := wf.links
  hosts := by
    intro pn member
    obtain ⟨a, host, masked, contains, _⟩ :=
      hostPrefix_eq_some (hostPrefix_of_planNode (mem_activeNodes.mp member).2.2.2)
    exact ⟨a, host, masked, contains⟩
  separate := fun _ memberA _ memberB same => separate_activeNodes memberA memberB same

namespace Roster

variable {r : Roster} (wf : r.WellFormed)

/-! ## Nodes by id -/

theorem node?_cases (found : r.node? id = some pn) :
    (pn ∈ r.active ∧ pn.id = id) ∨ (r.relay = some pn ∧ id = relayNodeID) := by
  have search : (r.active.find? fun other => other.id = id) = some pn →
      pn ∈ r.active ∧ pn.id = id := fun found =>
    ⟨List.mem_of_find?_eq_some found,
      by simpa only [decide_eq_true_eq] using List.find?_some found⟩
  rw [node?] at found
  split at found
  · next relay on =>
    split at found
    · next named =>
      cases found
      exact .inr ⟨on, named⟩
    · exact .inl (search found)
  · exact .inl (search found)

include wf

theorem WellFormed.apart {m : PlanNode} (inM : m ∈ r.active) (member : pn ∈ r.active)
    (mother : m.mother = true) (child : pn.mother = false) : m.id ≠ pn.id := by
  intro same
  rw [wf.distinct m inM pn member same] at mother
  exact pn.clash mother child

theorem find?_of_mem (member : pn ∈ r.active) :
    (r.active.find? fun other => other.id = pn.id) = some pn := by
  cases found : r.active.find? fun other => other.id = pn.id with
  | none =>
    have absent := List.find?_eq_none.mp found pn member
    simp only [decide_true, not_true_eq_false] at absent
  | some other =>
    have same : other.id = pn.id := by simpa only [decide_eq_true_eq] using List.find?_some found
    rw [wf.distinct other (List.mem_of_find?_eq_some found) pn member same]

theorem node?_of_mem (member : pn ∈ r.active) : r.node? pn.id = some pn := by
  rw [node?]
  split
  · rw [if_neg (wf.named pn member).2]
    exact find?_of_mem wf member
  · exact find?_of_mem wf member

theorem id_of_node? (found : r.node? id = some pn) : pn.id = id := by
  rcases node?_cases found with ⟨_, same⟩ | ⟨on, named⟩
  · exact same
  · rw [named]
    exact (wf.relay pn on).1

theorem mem_of_node?_mother (found : r.node? id = some pn)
    (mother : pn.mother = true) : pn ∈ r.active := by
  rcases node?_cases found with ⟨member, _⟩ | ⟨on, _⟩
  · exact member
  · exact pn.clash mother (wf.relay pn on).2.1

theorem exposed_of_mem (member : pn ∈ r.active) : r.exposed pn.id = pn.exposed := by
  rw [exposed, node?_of_mem wf member, Option.any_some]

omit wf

/-! ## Mothers and attachments -/

theorem mem_mothersIn : id ∈ r.mothersIn.getD sub [] ↔
    ∃ m ∈ r.active, m.mother = true ∧ m.subnet = sub ∧ m.id = id := by
  rw [mothersIn, GoMap.getD_groupBy]
  simp only [List.mem_map, List.mem_filter, decide_eq_true_eq, and_assoc]

theorem mem_clusterMothers {cluster : String} : id ∈ r.clusterMothers.getD cluster [] ↔
    ∃ m ∈ r.active, m.mother = true ∧ m.n.cluster ≠ "" ∧ m.n.cluster = cluster ∧ m.id = id := by
  rw [clusterMothers, GoMap.getD_groupBy]
  simp only [List.mem_map, List.mem_filter, decide_eq_true_eq, and_assoc]

theorem isAttached_iff {child mother : String} : r.isAttached child mother = true ↔
    ∃ l ∈ r.mesh.links, (child, mother) ∈ r.linkAttachments l := by
  rw [isAttached, decide_eq_true_eq, attached, GoMap.mem_getD_groupUnique, List.mem_flatMap]

include wf

theorem linkEnds_mem {l : Link} (member : l ∈ r.mesh.links) {source target : PlanNode}
    (ends : r.linkEnds l = some (source, target)) :
    source ∈ r.active ∧ target ∈ r.active ∧ source.id = l.fromNodeID ∧ target.id = l.toNodeID ∧
      source.id ≠ target.id := by
  obtain ⟨fromName, toName⟩ := wf.links l member
  rw [linkEnds] at ends
  split at ends
  · next foundSource foundTarget =>
    split at ends
    · cases ends
    · next different =>
      cases ends
      obtain ⟨inSource, sourceId⟩ := (node?_cases foundSource).resolve_right
        fun relay => fromName relay.2
      obtain ⟨inTarget, targetId⟩ := (node?_cases foundTarget).resolve_right
        fun relay => toName relay.2
      exact ⟨inSource, inTarget, sourceId, targetId, different⟩
  · cases ends

theorem isAttached_cases {child mother : String} (attached : r.isAttached child mother = true) :
    ∃ x ∈ r.active, ∃ m ∈ r.active, x.id = child ∧ m.id = mother ∧ x.mother = false ∧
      m.mother = true := by
  obtain ⟨l, member, entry⟩ := isAttached_iff.mp attached
  rw [linkAttachments] at entry
  split at entry
  · next source target ends =>
    obtain ⟨inSource, inTarget, _⟩ := linkEnds_mem wf member ends
    split at entry
    · next kinds =>
      obtain ⟨id, choice, same⟩ := List.mem_map.mp entry
      cases same
      rcases List.mem_cons.mp choice with rfl | sibling
      · exact ⟨source, inSource, target, inTarget, rfl, rfl, kinds⟩
      · obtain ⟨m, inActive, isMother, _, _, named⟩ := mem_clusterMothers.mp sibling
        exact ⟨source, inSource, m, inActive, rfl, named, kinds.1, isMother⟩
    · cases entry
  · cases entry

/-! ## Gateways -/

theorem mem_dialable : id ∈ (r.mothersIn.getD sub []).filter (fun m => m ≠ pn.id ∧ r.exposed m) ↔
      ∃ m ∈ r.active, m.mother = true ∧ m.subnet = sub ∧ m.exposed = true ∧ m.id ≠ pn.id ∧
        m.id = id := by
  rw [List.mem_filter, mem_mothersIn, decide_eq_true_eq]
  constructor
  · rintro ⟨⟨m, member, mother, home, rfl⟩, different, exposed⟩
    rw [exposed_of_mem wf member] at exposed
    exact ⟨m, member, mother, home, exposed, different, rfl⟩
  · rintro ⟨m, member, mother, home, exposed, different, rfl⟩
    rw [← exposed_of_mem wf member] at exposed
    exact ⟨⟨m, member, mother, home, rfl⟩, different, exposed⟩

theorem mem_candidates {c : String} (member : c ∈ r.candidates pn sub) :
    (∃ m ∈ r.active, m.mother = true ∧ m.subnet = sub ∧ m.exposed = true ∧ m.id ≠ pn.id ∧
        m.id = c) ∨ (c = relayNodeID ∧ r.relayOn = true ∧ sub ≠ pn.subnet ∧ r.udp pn = false) := by
  rw [candidates, List.mem_append] at member
  rcases member with mother | relay
  · left
    apply (mem_dialable wf).mp
    split at mother
    · exact mother
    · exact (List.mem_filter.mp mother).1
  · right
    split at relay
    · next usable =>
      rw [Bool.and_eq_true, Bool.and_eq_true, decide_eq_true_eq, Bool.not_eq_true'] at usable
      exact ⟨List.mem_singleton.mp relay, usable.1.1, usable.1.2, usable.2⟩
    · cases relay

omit wf

theorem choose_mem {cands : List String} (nonempty : cands ≠ []) :
    r.choose pn sub cands ∈ cands := by
  unfold choose
  dsimp only
  split
  · next wanted => exact wanted.2
  · cases cands with
    | nil => exact (nonempty rfl).elim
    | cons first rest => exact .head _

@[simp] theorem choose_nil (pn : PlanNode) (sub : Prefix) : r.choose pn sub [] = "" := by
  unfold choose
  simp

variable (r) in
/-- The candidate a node prefers for a subnet, read off the mesh: none when the subnet is no VPN
subnet in its routes, or has no candidates. -/
def prefers (pn : PlanNode) (sub : Prefix) : String :=
  if sub ∈ r.vpnRoutes pn then r.choose pn sub (r.candidates pn sub) else ""

theorem lookup_map {α β : Type} [DecidableEq α] (f : α → β) (keys : List α) (k : α) :
    (keys.map fun key => (key, f key)).lookup k = if k ∈ keys then some (f k) else none := by
  induction keys with
  | nil => rfl
  | cons key keys ih =>
    rw [List.map_cons, List.lookup_cons, ih]
    by_cases same : k = key
    · subst same
      simp [BEq.rfl]
    · simp [beq_false_of_ne same, same]

theorem candRow_eq (pn : PlanNode) : r.candRow pn =
    ((r.vpnRoutes pn).filter fun sub => r.candidates pn sub ≠ []).map fun sub =>
      (sub, r.candidates pn sub) := by
  rw [candRow, List.filter_map]
  rfl

theorem gwRow_eq (pn : PlanNode) : r.gwRow pn =
    ((r.vpnRoutes pn).filter fun sub => r.candidates pn sub ≠ []).map fun sub =>
      (sub, r.choose pn sub (r.candidates pn sub)) := by
  rw [gwRow, candRow_eq, List.map_map]
  rfl

include wf

theorem gateway_eq (member : pn ∈ r.active) (sub : Prefix) :
    r.gateway pn.id sub = r.prefers pn sub := by
  rw [prefers, gateway, find?_of_mem wf member, Option.bind_some, gwRow_eq, lookup_map]
  by_cases routed : sub ∈ r.vpnRoutes pn
  · by_cases none : r.candidates pn sub = []
    · simp [routed, none, choose_nil]
    · simp [routed, none]
  · simp [routed]

theorem gateway_mem (member : pn ∈ r.active) (nonempty : r.gateway pn.id sub ≠ "") :
    sub ∈ r.vpnRoutes pn ∧ r.gateway pn.id sub ∈ r.candidates pn sub := by
  rw [gateway_eq wf member, prefers] at nonempty ⊢
  by_cases routed : sub ∈ r.vpnRoutes pn
  · rw [if_pos routed] at nonempty ⊢
    refine ⟨routed, choose_mem ?_⟩
    intro none
    rw [none, choose_nil] at nonempty
    exact nonempty rfl
  · rw [if_neg routed] at nonempty
    exact (nonempty rfl).elim

/-- **Gateways.** The gateway of a node for a subnet is another, dialable mother of it, or the
relay for a subnet that is not the node's own. -/
theorem gateway_cases (member : pn ∈ r.active) (nonempty : r.gateway pn.id sub ≠ "") :
    (∃ m ∈ r.active, m.mother = true ∧ m.subnet = sub ∧ m.exposed = true ∧ m.id ≠ pn.id ∧
        m.id = r.gateway pn.id sub) ∨
      (r.gateway pn.id sub = relayNodeID ∧ r.relayOn = true ∧ sub ≠ pn.subnet ∧ r.udp pn = false) :=
  mem_candidates wf (gateway_mem wf member nonempty).2

theorem gateway_relay (member : pn ∈ r.active) (through : r.gateway pn.id sub = relayNodeID) :
    r.relayOn = true ∧ sub ≠ pn.subnet ∧ r.udp pn = false := by
  have nonempty : r.gateway pn.id sub ≠ "" := by
    rw [through]
    decide
  rcases gateway_cases wf member nonempty with ⟨m, inM, _, _, _, _, named⟩ | relay
  · exact ((wf.named m inM).2 (named.trans through)).elim
  · exact relay.2

theorem gateway_ne_empty (member : pn ∈ r.active) (routed : sub ∈ r.vpnRoutes pn)
    (nonempty : r.candidates pn sub ≠ []) : r.gateway pn.id sub ≠ "" := by
  rw [gateway_eq wf member, prefers, if_pos routed]
  rcases mem_candidates wf (choose_mem nonempty) with ⟨m, inActive, _, _, _, _, named⟩ | ⟨named, _⟩
  · rw [← named]
    exact (wf.named m inActive).1
  · rw [named]
    decide

theorem subnet_of_gateway {m : PlanNode} (inActive : m ∈ r.active) (member : pn ∈ r.active)
    (gate : r.gateway pn.id sub = m.id) :
    m.mother = true ∧ m.subnet = sub ∧ m.exposed = true ∧ m.id ≠ pn.id := by
  have nonempty : r.gateway pn.id sub ≠ "" := by
    rw [gate]
    exact (wf.named m inActive).1
  rcases gateway_cases wf member nonempty with ⟨g, inG, mother, home, exposed, different, named⟩ | relay
  · obtain rfl := wf.distinct g inG m inActive (named.trans gate)
    exact ⟨mother, home, exposed, different⟩
  · exact ((wf.named m inActive).2 (gate.symm.trans relay.1)).elim

theorem not_mother_of_gateway
    (member : pn ∈ r.active) (nonempty : r.gateway pn.id pn.subnet ≠ "") : pn.mother = false := by
  have routed := (gateway_mem wf member nonempty).1
  rw [vpnRoutes, List.mem_filter] at routed
  simpa using (Bool.and_eq_true_iff.mp routed.2).2

/-- The gateway of a node for its own subnet is a dialable mother there. -/
theorem gateway_own (member : pn ∈ r.active) (nonempty : r.gateway pn.id pn.subnet ≠ "") :
    ∃ m ∈ r.active, m.mother = true ∧ m.subnet = pn.subnet ∧ m.exposed = true ∧ m.id ≠ pn.id ∧
      m.id = r.gateway pn.id pn.subnet :=
  (gateway_cases wf member nonempty).resolve_right fun relay => relay.2.2.1 rfl

/-! ## Homes -/

theorem dialable_of_attached {t : PlanNode} (member : t ∈ r.active) {h : String}
    (home : h ∈ (r.attached.getD t.id []).filter fun m =>
      (r.node? m).any fun pm => pm.exposed ∧ pm.subnet = t.subnet) :
    ∃ m ∈ r.active, m.mother = true ∧ m.subnet = t.subnet ∧ m.exposed = true ∧ m.id ≠ t.id ∧
      m.id = h := by
  obtain ⟨attached, usable⟩ := List.mem_filter.mp home
  obtain ⟨x, inX, m, inM, xId, rfl, child, mother⟩ :=
    isAttached_cases wf (decide_eq_true attached : r.isAttached t.id h = true)
  obtain rfl := wf.distinct x inX t member xId
  rw [node?_of_mem wf inM, Option.any_some, decide_eq_true_eq] at usable
  exact ⟨m, inM, mother, usable.2, usable.1, wf.apart inM inX mother child, rfl⟩

/-- The homes of a child with a gateway for its own subnet are dialable mothers there. -/
theorem mem_homes {t : PlanNode} (member : t ∈ r.active) {h : String} (home : h ∈ r.homes t) :
    ∃ m ∈ r.active, m.mother = true ∧ m.subnet = t.subnet ∧ m.exposed = true ∧ m.id ≠ t.id ∧
      m.id = h := by
  rw [homes] at home
  split at home
  · exact dialable_of_attached wf member home
  · split at home
    · next nonempty =>
      obtain rfl := List.mem_singleton.mp home
      exact gateway_own wf member nonempty
    · cases home

theorem gateway_mem_homes {t : PlanNode} (member : t ∈ r.active)
    (nonempty : r.gateway t.id t.subnet ≠ "") : r.gateway t.id t.subnet ∈ r.homes t := by
  rw [homes]
  split
  · next attachments =>
    -- The attachments that make the homes are candidates, so the gateway is one of them.
    obtain ⟨h, home⟩ := List.exists_mem_of_ne_nil _ attachments
    have several : (((r.mothersIn.getD t.subnet []).filter fun m => m ≠ t.id ∧
        r.exposed m).filter fun m => r.isAttached t.id m) ≠ [] :=
      List.ne_nil_of_mem (List.mem_filter.mpr ⟨(mem_dialable wf).mpr
        (dialable_of_attached wf member home), decide_eq_true (List.mem_filter.mp home).1⟩)
    have chosen := (gateway_mem wf member nonempty).2
    rw [candidates, if_neg several] at chosen
    simp only [ne_eq, not_true_eq_false, decide_false, Bool.and_false, Bool.false_and,
      Bool.false_eq_true, ↓reduceIte, List.append_nil] at chosen
    obtain ⟨dialable, attachedGate⟩ := List.mem_filter.mp chosen
    obtain ⟨g, inG, _, served, exposed, _, named⟩ := (mem_dialable wf).mp dialable
    refine List.mem_filter.mpr ⟨of_decide_eq_true attachedGate, ?_⟩
    rw [← named, node?_of_mem wf inG, Option.any_some, decide_eq_true_eq]
    exact ⟨exposed, served⟩
  · exact .head _

end Roster

end Core
