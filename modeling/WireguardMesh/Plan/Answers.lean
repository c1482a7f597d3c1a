import WireguardMesh.Plan.Exclusive

/-! # Do answers come back on the same tunnel?

A child keeps the host of every mother it dials on that mother's tunnel. The mother
answers there only if it has the child's host on the child's own entry
(`lookup_mother_iff`): a mother that is merely one of the gateway candidates of a child of
another subnet has it on the mother that was chosen instead.

A node that routes into a subnet through the relay is carried by the relay, and so are the
nodes of that subnet (`relay_owns`). A node there accepts the relayed packet only if its own
table points back to the relay (`relay_answers_iff`).
-/

namespace Core

open GoText Net Roster

namespace Roster

variable (r : Roster)

/-- Whether a mother reaches a child it is connected to over the child's own tunnel, read off the
mesh: the child is of its subnet, prefers it as a gateway or is attached to it; no other node
brings the child's host as a LAN route; and that is not also a subnet the mother routes to through
the relay. -/
def AnswersChild (m x : PlanNode) : Prop :=
  (x.subnet = m.subnet ∨ r.prefers x m.subnet = m.id ∨
      (r.isAttached x.id m.id = true ∧ m.exposed = true)) ∧
    (∀ z, r.lanClaimant m x.host = some z → z = x) ∧
    ¬ (x.subnet = x.host ∧ r.prefers m x.subnet = relayNodeID)

/-- The LAN routes a node carries: a mother those of the nodes that prefer it as a gateway,
a child its own if it has a gateway for its subnet. -/
def CarriesLan (y : PlanNode) (lan : Prefix) : Prop :=
  if y.mother then ∃ z ∈ r.active, r.prefers z y.subnet = y.id ∧ lan ∈ r.lanRoutes z
  else r.prefers y y.subnet ≠ "" ∧ lan ∈ r.lanRoutes y

/-- Whether a node reached through the relay answers through it, read off the mesh: it prefers the
relay for the sender's subnet, is not connected to the sender as a mother and carries no LAN route
over the sender that is as long as the subnet; or the two are children, it does not route to the
sender's subnet and carries no LAN route equal to the sender. -/
def AnswersRelay (x y : PlanNode) : Prop :=
  (r.prefers y x.subnet = relayNodeID ∧ ¬ (x.mother = true ∧ r.Connected x.id y.id) ∧
      ∀ lan, r.CarriesLan y lan → lan.contains x.addr = true → lan.bits < x.subnet.bits) ∨
    (r.prefers y x.subnet = "" ∧ x.mother = false ∧ y.mother = false ∧
      ∀ lan, r.CarriesLan y lan → lan.contains x.addr = true → lan.bits < 32)

variable {r}

section

variable (wf : r.WellFormed)

include wf

/-- A prefix of full length that contains the address of a node is its host. -/
theorem eq_host_of_bits {x : PlanNode} (inX : x ∈ r.active) {p : Prefix}
    (covers : p.contains x.addr = true) (full : 32 ≤ p.bits) : p = x.host := by
  obtain ⟨a, addr, host, _⟩ := host_addr wf inX
  rw [addr] at covers
  have bits : p.bits = 32 := le_antisymm (Prefix.bits_le_of_contains_v4 covers) full
  obtain ⟨b, ip⟩ := Prefix.ip_of_contains_v4 covers
  obtain ⟨valid, same⟩ := (Prefix.contains_v4 ip).mp covers
  rw [bits, Nat.sub_self, BitVec.ushiftRight_zero, BitVec.ushiftRight_zero] at same
  rw [host]
  apply Prefix.ext
  · rw [ip, same]
    rfl
  · rw [Prefix.bitsPlusOne_of_isValid valid, bits]
    rfl

theorem not_dials_child (noLink : r.generic = []) {x : PlanNode} (inX : x ∈ r.active)
    (child : x.mother = false) (a : String) : ¬ r.Dials a x.id := by
  intro dials
  generalize goal : x.id = b at dials
  cases dials with
  | attached attached =>
    obtain ⟨_, _, g, inG, _, named, _, motherG⟩ := isAttached_cases wf attached
    exact wf.apart inG inX motherG child (named.trans goal.symm)
  | candidate member routed candidate used =>
    rcases mem_candidates wf candidate with ⟨g, inG, motherG, _, _, _, named⟩ | ⟨relay, _⟩
    · exact wf.apart inG inX motherG child (named.trans goal.symm)
    · exact (wf.named x inX).2 (goal.trans relay)
  | sameSubnet member _ _ inG motherG _ _ => exact wf.apart inG inX motherG child goal.symm
  | mesh edge _ =>
    obtain ⟨_, _, g, inG, _, named, _, _, motherG, _⟩ := meshEdge_cases wf edge
    exact wf.apart inG inX motherG child (named.trans goal.symm)
  | generic linked =>
    rw [noLink] at linked
    cases linked
  | served member _ _ => exact (wf.named x inX).2 goal

theorem ownedBy_self_iff (noLink : r.generic = []) {m x : PlanNode} (inX : x ∈ r.active)
    (child : x.mother = false) (connected : r.Connected x.id m.id) :
    r.OwnedBy m x x.id ↔ (x.subnet = m.subnet ∨ r.prefers x m.subnet = m.id ∨
      (r.isAttached x.id m.id = true ∧ m.exposed = true)) := by
  have dials : r.Dials x.id m.id :=
    connected.resolve_right (not_dials_child wf noLink inX child m.id)
  have outside : ¬ (x.mother = true ∧ x.subnet = m.subnet) := by
    rintro ⟨motherX, _⟩
    exact x.clash motherX child
  rw [← gateway_eq wf inX]
  constructor
  · rintro ⟨_, ⟨motherX, close, _⟩ | ⟨_, ⟨direct, _⟩ | ⟨_, gate, _⟩⟩⟩
    · exact (outside ⟨motherX, close⟩).elim
    · rcases direct with gate | attached | ⟨close, _⟩
      · exact .inr (.inl gate)
      · exact .inr (.inr attached)
      · exact .inl close
    · exact ((subnet_of_gateway wf inX inX gate).2.2.2 rfl).elim
  · intro reached
    refine ⟨connected.ne wf, .inr ⟨outside, .inl ⟨?_, rfl⟩⟩⟩
    rcases reached with close | gate | attached
    · exact .inr (.inr ⟨close, dials⟩)
    · exact .inl gate
    · exact .inr (.inl attached)

theorem LanVia.ne_relay {y : PlanNode} (inY : y ∈ r.active) {lan : Prefix} {b : String}
    (via : r.LanVia y lan b) : b ≠ relayNodeID := by
  cases via with
  | claimed _ claimed => exact (wf.named _ (lanClaimant_eq_some claimed).1).2
  | home _ gated _ =>
    obtain ⟨m, inM, _, _, _, _, named⟩ := gateway_own wf inY gated
    rw [← named]
    exact (wf.named m inM).2

theorem carriesLan_iff {y : PlanNode} (inY : y ∈ r.active) {lan : Prefix} :
    r.CarriesLan y lan ↔ ∃ b, r.LanVia y lan b := by
  rw [CarriesLan]
  split
  · next mother =>
    constructor
    · rintro ⟨z, inZ, gate, routed⟩
      have found : (r.lanClaimant y lan).isSome = true := by
        rw [lanClaimant, List.find?_isSome]
        exact ⟨z, inZ, decide_eq_true ⟨(gateway_eq wf inZ _).trans gate, routed⟩⟩
      obtain ⟨w, claimed⟩ := Option.isSome_iff_exists.mp found
      exact ⟨w.id, .claimed mother claimed⟩
    · rintro ⟨b, via⟩
      cases via with
      | claimed _ claimed =>
        obtain ⟨inZ, gate, routed⟩ := lanClaimant_eq_some claimed
        exact ⟨_, inZ, (gateway_eq wf inZ _).symm.trans gate, routed⟩
      | home child _ _ => exact y.clash mother child
  · next child =>
    rw [← gateway_eq wf inY]
    constructor
    · rintro ⟨gated, routed⟩
      exact ⟨_, .home (Bool.eq_false_iff.mpr child) gated routed⟩
    · rintro ⟨b, via⟩
      cases via with
      | claimed mother _ => exact (child mother).elim
      | home _ gated routed => exact ⟨gated, routed⟩

end

end Roster

variable {mesh : Mesh} (wf : mesh.WellFormed) (links : mesh.AttachmentsOnly)
  (disjoint : mesh.DisjointSubnets) (order : RangeOrder Site)

/-! ## Dialed mothers -/

section Mothers

include wf links disjoint

/-- **Answers of mothers.** A child carries the host of every mother it is connected to on that
mother, whose longest match for the child is the child exactly when `AnswersChild` holds. -/
theorem lookup_mother_iff {x m : PlanNode} (inX : x ∈ mesh.roster.active)
    (inM : m ∈ mesh.roster.active) (child : x.mother = false) (mother : m.mother = true)
    (peers : hasPeer (planMesh order mesh).peers x.id m.id = true) :
    (planMesh order mesh).Allowed x.id m.id m.host ∧
      ((planMesh order mesh).lookup m.id x.addr = some x.id ↔ mesh.roster.AnswersChild m x) := by
  rw [hasPeer_planMesh, hasPeer_resolved wf.roster] at peers
  refine ⟨(allowed_iff_carries wf order).mpr ⟨.warm inX inM mother peers,
    isValid_host wf.roster inM⟩, ?_⟩
  have ownedIff := ownedBy_self_iff wf.roster (links.generic wf) inX child peers
  have noGateway : mesh.roster.gateway m.id x.subnet ≠ x.id := by
    exact fun gate => x.clash (subnet_of_gateway wf.roster inX inM gate).1 child
  rw [Plan.lookup_eq_some wf, Roster.AnswersChild]
  constructor
  · rintro ⟨p, carries, covers, longest⟩
    have short := bits_le_of_contains wf.roster inX covers
    have owned : mesh.roster.OwnedBy m x x.id := by
      generalize target : x.id = b at carries
      cases (covers_of_carries wf links disjoint inM inX carries covers).2 mother with
      | host owned => rw [← target] at owned ⊢; exact owned
      | @lan z lan claimed =>
        obtain ⟨inZ, gate, _⟩ := lanClaimant_eq_some claimed
        rw [wf.roster.distinct z inZ x inX target.symm] at gate
        exact (ownedBy_of_gateway wf.roster inM inX gate).mpr target.symm
      | subnet gated => exact (noGateway target.symm).elim
      | warm motherX _ => exact x.clash motherX child
    refine ⟨ownedIff.mp owned, ?_, ?_⟩
    · intro z claimed
      by_contra other
      obtain ⟨inZ, _, _⟩ := lanClaimant_eq_some claimed
      have longer := longest z.id x.host (.lan inM mother claimed)
        ((contains_host_iff wf.roster inX inX).mpr rfl)
        fun same => other (wf.roster.distinct z inZ x inX same)
      rw [bits_host wf.roster inX] at longer
      omega
    · rintro ⟨single, relay⟩
      rw [← gateway_eq wf.roster inM] at relay
      have carriesRelay : mesh.roster.Carries m.id (mesh.roster.gateway m.id x.subnet) x.subnet :=
        .subnet inM (by rw [relay]; decide)
      have longer := longest _ _ carriesRelay (contains_subnet wf.roster inX) noGateway
      rw [single, bits_host wf.roster inX] at longer
      omega
  · rintro ⟨reached, noLan, noRelay⟩
    have owned := ownedIff.mpr reached
    refine ⟨x.host, .host inM mother inX owned,
      (contains_host_iff wf.roster inX inX).mpr rfl, ?_⟩
    intro c q carries covers other
    rw [bits_host wf.roster inX]
    by_contra full
    have whole := eq_host_of_bits wf.roster inX covers (not_lt.mp full)
    cases (covers_of_carries wf links disjoint inM inX carries covers).2 mother with
    | host owned' => exact other (owned'.unique wf.roster owned)
    | lan claimed =>
      rw [whole] at claimed
      exact other (by rw [noLan _ claimed])
    | subnet gated =>
      rcases gateway_single wf.roster inM inX whole gated with ⟨_, motherX⟩ | relay
      · exact x.clash motherX child
      · exact noRelay ⟨whole, (gateway_eq wf.roster inM _).symm.trans relay⟩
    | warm motherX _ => exact x.clash motherX child

end Mothers

/-- The mother of a single family answers its children. -/
theorem oneHome_answers : ∃ x ∈ oneHome.roster.active, ∃ m ∈ oneHome.roster.active,
    x.mother = false ∧ m.mother = true ∧
      hasPeer (planMesh (.stored Site) oneHome).peers x.id m.id = true ∧
      (planMesh (.stored Site) oneHome).lookup m.id x.addr = some x.id := by
  have inX := oneHome.activeAt_mem (i := 1) (by decide +kernel)
  have inM := oneHome.activeAt_mem (i := 0) (by decide +kernel)
  have peers : hasPeer (planMesh (.stored Site) oneHome).peers (oneHome.activeAt 1 (by
      decide +kernel)).id (oneHome.activeAt 0 (by decide +kernel)).id = true := by decide +kernel
  have noClaim : oneHome.roster.lanClaimant (oneHome.activeAt 0 (by decide +kernel))
      (oneHome.activeAt 1 (by decide +kernel)).host = none := by decide +kernel
  refine ⟨_, inX, _, inM, by decide +kernel, by decide +kernel, peers, ?_⟩
  refine (lookup_mother_iff (by decide +kernel) (by decide +kernel) (by decide +kernel)
    (.stored Site) inX inM (by decide +kernel) (by decide +kernel) peers).2.mpr
    ⟨.inl (by decide +kernel), ?_, by decide +kernel⟩
  intro z claimed
  rw [noClaim] at claimed
  cases claimed

/-- Two mothers of one subnet, and a child of another subnet that routes into it. -/
def foreignChild : Mesh :=
  Mesh.sample [
    .sample "00000000-0000-4000-8000-0000000000a1" "10.1.0.1/24" 51820 "192.0.2.1:51820"
      ["10.1.0.0/24"],
    .sample "00000000-0000-4000-8000-0000000000a2" "10.1.0.2/24" 51820 "192.0.2.2:51820"
      ["10.1.0.0/24"],
    .sample "00000000-0000-4000-8000-0000000000b1" "10.2.0.11/24" 0 "" ["10.1.0.0/24"]] [] none

/-- The child dials both mothers and keeps both hosts, but the mother it did not choose has the
child's host on the chosen one, and drops its packets. -/
theorem foreignChild_unanswered :
    Store.validateMesh foreignChild = .ok () ∧ foreignChild.AttachmentsOnly ∧
      foreignChild.DisjointSubnets ∧ ∃ x ∈ foreignChild.roster.active,
        ∃ m ∈ foreignChild.roster.active, x.mother = false ∧ m.mother = true ∧
          ∀ order : RangeOrder Site, hasPeer (planMesh order foreignChild).peers x.id m.id = true ∧
              (planMesh order foreignChild).lookup m.id x.addr ≠ some x.id := by
  have accepted : Store.validateMesh foreignChild = .ok () := by decide +kernel
  refine ⟨accepted, by decide +kernel, by decide +kernel, _,
    foreignChild.activeAt_mem (i := 2) (by decide +kernel), _,
    foreignChild.activeAt_mem (i := 1) (by decide +kernel), by decide +kernel, by decide +kernel,
    fun order => ?_⟩
  rw [planMesh_order _ order (.stored Site)]
  decide +kernel

/-! ## Paths through the relay -/

section Relay

include wf links

/-- The relay carries a node that routes through it and every node of the subnet it routes
to, and owns their hosts. -/
theorem relay_owns {x y : PlanNode} (inX : x ∈ mesh.roster.active)
    (inY : y ∈ mesh.roster.active) (gate : mesh.roster.gateway x.id y.subnet = relayNodeID) :
    (hasPeer (planMesh order mesh).peers relayNodeID x.id = true ∧
        (planMesh order mesh).lookup relayNodeID x.addr = some x.id) ∧
      hasPeer (planMesh order mesh).peers relayNodeID y.id = true ∧
        (planMesh order mesh).lookup relayNodeID y.addr = some y.id := by
  have dialsX : mesh.roster.Dials x.id relayNodeID := by
    have gated : mesh.roster.gateway x.id y.subnet ≠ "" := by rw [gate]; decide
    exact gate ▸ dials_gateway wf.roster inX gated
  have dialsY : mesh.roster.Dials y.id relayNodeID := .served inY inX gate
  simp only [hasPeer_planMesh, hasPeer_resolved wf.roster]
  exact ⟨⟨.inr dialsX, lookup_relay wf links order inX (.inr dialsX)⟩, .inr dialsY,
    lookup_relay wf links order inY (.inr dialsY)⟩

include disjoint

/-- What a node carries over the address of another one is that node's host, a LAN route, or
that node's subnet on its gateway. -/
theorem covers_cases {a z : PlanNode} (inA : a ∈ mesh.roster.active)
    (inZ : z ∈ mesh.roster.active) {b : String} {p : Prefix}
    (carries : mesh.roster.Carries a.id b p) (covers : p.contains z.addr = true) :
    (p = z.host ∧ mesh.roster.HostVia a z b) ∨ mesh.roster.LanVia a p b ∨
      (p = z.subnet ∧ b = mesh.roster.gateway a.id z.subnet ∧
        mesh.roster.gateway a.id z.subnet ≠ "") := by
  rcases carries_cases wf.roster (links.generic wf) inA carries with
    ⟨w, inW, rfl, host⟩ | lan | ⟨rfl, gated⟩
  · obtain rfl := (contains_host_iff wf.roster inW inZ).mp covers
    exact .inl ⟨rfl, host⟩
  · exact .inr (.inl lan)
  · obtain ⟨w, inW, rfl⟩ :=
      subnet_of_vpnRoutes (gateway_mem wf.roster inA gated).1
    rw [disjoint.subnet_eq wf inZ inW covers] at gated ⊢
    exact .inr (.inr ⟨rfl, rfl, gated⟩)

omit links disjoint in
/-- A node that sends to a mother through the relay is not connected to it. -/
theorem not_connected_of_relayed {x y : PlanNode} (inX : x ∈ mesh.roster.active)
    (inY : y ∈ mesh.roster.active)
    (sends : (planMesh order mesh).lookup x.id y.addr = some relayNodeID) :
    ¬ (y.mother = true ∧ mesh.roster.Connected x.id y.id) := by
  rintro ⟨mother, connected⟩
  obtain ⟨p, _, covers, longest⟩ := (Plan.lookup_eq_some wf order).mp sends
  have short := bits_le_of_contains wf.roster inY covers
  have longer := longest y.id y.host (.warm inX inY mother connected)
    ((contains_host_iff wf.roster inY inY).mpr rfl) (wf.roster.named y inY).2
  rw [bits_host wf.roster inY] at longer
  omega

omit links disjoint in
/-- On the far side of a path through the relay, the sender's host is on the relay between children
when the far side has no gateway, or on the sender itself if a mother. -/
theorem hostVia_relayed {x y : PlanNode} (inY : y ∈ mesh.roster.active)
    (gate : mesh.roster.gateway x.id y.subnet = relayNodeID) (apart : y.subnet ≠ x.subnet)
    (notConnected : ¬ (y.mother = true ∧ mesh.roster.Connected x.id y.id)) {b : String}
    (host : mesh.roster.HostVia y x b) : (b = relayNodeID ∧ x.mother = false ∧ y.mother = false ∧
        mesh.roster.gateway y.id x.subnet = "") ∨
      (b = x.id ∧ x.mother = true ∧ mesh.roster.Connected x.id y.id) := by
  cases host with
  | owned mother owned =>
    obtain ⟨_, ⟨_, close, _⟩ | ⟨_, ⟨direct, _⟩ | ⟨_, gateway, edge⟩⟩⟩ := owned
    · exact (apart close.symm).elim
    · rcases direct with gateY | ⟨attached, _⟩ | ⟨close, _⟩
      · exact ((wf.roster.named y inY).2 (gateY.symm.trans gate)).elim
      · exact (notConnected ⟨mother, .inl (.attached attached)⟩).elim
      · exact (apart close.symm).elim
    · obtain ⟨_, _, g, inG, _, named, _⟩ := meshEdge_cases wf.roster edge
      exact ((wf.roster.named g inG).2 (named.trans (gateway.symm.trans gate))).elim
  | pin _ close _ _ => exact (apart close.symm).elim
  | cross childY childX _ moved _ =>
    have choice := pairVia_cases y.id (mesh.roster.gateway y.id x.subnet) x.id
      (mesh.roster.gateway x.id y.subnet)
    have relay : mesh.roster.crossVia y x = relayNodeID :=
      (choice.1.resolve_left moved).trans gate
    refine .inl ⟨relay, childX, childY, ?_⟩
    refine (choice.2.2 relay).1.resolve_left fun own => moved (relay.trans own.symm)
  | warm mother connected => exact .inr ⟨rfl, mother, connected.symm⟩

/-- **Answers through the relay.** When a node sends to another through the relay as its gateway,
the relay owns both hosts, and the other node's longest match for the sender is the relay exactly
when `AnswersRelay` holds. -/
theorem relay_answers_iff {x y : PlanNode} (inX : x ∈ mesh.roster.active)
    (inY : y ∈ mesh.roster.active) (gate : mesh.roster.gateway x.id y.subnet = relayNodeID)
    (sends : (planMesh order mesh).lookup x.id y.addr = some relayNodeID) :
    ((hasPeer (planMesh order mesh).peers relayNodeID x.id = true ∧
        (planMesh order mesh).lookup relayNodeID x.addr = some x.id) ∧
      hasPeer (planMesh order mesh).peers relayNodeID y.id = true ∧
        (planMesh order mesh).lookup relayNodeID y.addr = some y.id) ∧
      ((planMesh order mesh).lookup y.id x.addr = some relayNodeID ↔
        mesh.roster.AnswersRelay x y) := by
  refine ⟨relay_owns wf links order inX inY gate, ?_⟩
  have apart := (gateway_relay wf.roster inX gate).2.1
  have notConnected := not_connected_of_relayed wf order inX inY sends
  rw [Plan.lookup_eq_some wf, Roster.AnswersRelay, ← gateway_eq wf.roster inY]
  simp only [carriesLan_iff wf.roster inY]
  constructor
  · rintro ⟨p, carries, covers, longest⟩
    have lanShorter (lan : Prefix) (carried : ∃ b, mesh.roster.LanVia y lan b)
        (within : lan.contains x.addr = true) : lan.bits < p.bits := by
      obtain ⟨b, via⟩ := carried
      exact longest b lan (via.carries inY) within (via.ne_relay wf.roster inY)
    rcases covers_cases wf links disjoint inY inX carries covers with
      ⟨rfl, host⟩ | lan | ⟨rfl, same, gated⟩
    · rcases hostVia_relayed wf inY gate apart notConnected host with
        ⟨_, childX, childY, none⟩ | ⟨named, _, _⟩
      · rw [bits_host wf.roster inX] at lanShorter
        exact .inr ⟨none, childX, childY, lanShorter⟩
      · exact ((wf.roster.named x inX).2 named.symm).elim
    · exact (lan.ne_relay wf.roster inY rfl).elim
    · refine .inl ⟨same.symm, ?_, lanShorter⟩
      rintro ⟨mother, connected⟩
      have short := bits_le_of_contains wf.roster inX covers
      have longer := longest x.id x.host (.warm inY inX mother connected.symm)
        ((contains_host_iff wf.roster inX inX).mpr rfl) (wf.roster.named x inX).2
      rw [bits_host wf.roster inX] at longer
      omega
  · rintro (⟨relay, separate, lanShorter⟩ | ⟨none, childX, childY, lanShorter⟩)
    · have gated : mesh.roster.gateway y.id x.subnet ≠ "" := by rw [relay]; decide
      refine ⟨x.subnet, relay ▸ .subnet inY gated, contains_subnet wf.roster inX, ?_⟩
      intro c q carries covers other
      rcases covers_cases wf links disjoint inY inX carries covers with
        ⟨rfl, host⟩ | lan | ⟨rfl, same, _⟩
      · rcases hostVia_relayed wf inY gate apart notConnected host with
          ⟨same, _⟩ | ⟨_, mother, connected⟩
        · exact (other same).elim
        · exact (separate ⟨mother, connected⟩).elim
      · exact lanShorter q ⟨c, lan⟩ covers
      · exact (other (same.trans relay)).elim
    · have via : mesh.roster.crossVia y x = relayNodeID := by
        rw [crossVia, none, gate, pairVia, if_pos (.inl rfl), String.empty_append]
      have pinned : mesh.roster.Carries y.id (mesh.roster.crossVia y x) x.host :=
        .cross inY inX childY childX apart.symm (by rw [via]; decide) (by rw [via, none]; decide)
          (by rw [via]; exact .inl (.served inY inX gate))
      rw [via] at pinned
      refine ⟨x.host, pinned, (contains_host_iff wf.roster inX inX).mpr rfl, ?_⟩
      intro c q carries covers other
      rw [bits_host wf.roster inX]
      rcases covers_cases wf links disjoint inY inX carries covers with
        ⟨rfl, host⟩ | lan | ⟨rfl, _, gated⟩
      · rcases hostVia_relayed wf inY gate apart notConnected host with
          ⟨same, _⟩ | ⟨_, mother, _⟩
        · exact (other same).elim
        · exact x.clash mother childX
      · exact lanShorter q ⟨c, lan⟩ covers
      · exact (gated none).elim

end Relay

/-- Two children of different subnets; the first routes into the other's subnet, where only
the relay leads. -/
def relayedChildren : Mesh :=
  Mesh.sample [
    .sample "00000000-0000-4000-8000-0000000000b1" "10.1.0.11/24" 0 "" ["10.2.0.0/24"],
    .sample "00000000-0000-4000-8000-0000000000b2" "10.2.0.12/24" 0 "" []] []
    (some ⟨"relay", 51830, ""⟩)

theorem relayedChildren_answers : ∃ x ∈ relayedChildren.roster.active,
    ∃ y ∈ relayedChildren.roster.active,
      relayedChildren.roster.gateway x.id y.subnet = relayNodeID ∧
      (planMesh (.stored Site) relayedChildren).lookup x.id y.addr = some relayNodeID ∧
      (planMesh (.stored Site) relayedChildren).lookup y.id x.addr = some relayNodeID := by
  have inX := relayedChildren.activeAt_mem (i := 0) (by decide +kernel)
  have inY := relayedChildren.activeAt_mem (i := 1) (by decide +kernel)
  have noLan : relayedChildren.roster.lanRoutes
      (relayedChildren.activeAt 1 (by decide +kernel)) = [] := by decide +kernel
  have answers := (relay_answers_iff (by decide +kernel) (by decide +kernel) (by decide +kernel)
    (.stored Site) inX inY (by decide +kernel) (by decide +kernel)).2.mpr
    (.inr ⟨by decide +kernel, by decide +kernel, by decide +kernel, ?_⟩)
  · exact ⟨_, inX, _, inY, by decide +kernel, by decide +kernel, answers⟩
  · intro lan carried
    rw [Roster.CarriesLan, if_neg (by decide +kernel), noLan] at carried
    cases carried.2

/-- A child that routes into a subnet whose only node is a mother that cannot be dialed. -/
def relayedMother : Mesh :=
  Mesh.sample [
    .sample "00000000-0000-4000-8000-0000000000b1" "10.1.0.11/24" 0 "" ["10.2.0.0/24"],
    .sample "00000000-0000-4000-8000-0000000000a2" "10.2.0.1/24" 51820 "" ["10.2.0.0/24"]] []
    (some ⟨"relay", 51830, ""⟩)

/-- The child sends to the mother through the relay, but the mother has no entry for the child, and
drops it. -/
theorem relayedMother_unanswered :
    Store.validateMesh relayedMother = .ok () ∧ relayedMother.AttachmentsOnly ∧
      relayedMother.DisjointSubnets ∧ relayedMother.roster.relayOn = true ∧
      ∃ x ∈ relayedMother.roster.active, ∃ y ∈ relayedMother.roster.active,
        relayedMother.roster.gateway x.id y.subnet = relayNodeID ∧ ∀ order : RangeOrder Site,
            (planMesh order relayedMother).lookup x.id y.addr = some relayNodeID ∧
              (planMesh order relayedMother).lookup y.id x.addr ≠ some relayNodeID := by
  have accepted : Store.validateMesh relayedMother = .ok () := by decide +kernel
  refine ⟨accepted, by decide +kernel, by decide +kernel, by decide +kernel, _,
    relayedMother.activeAt_mem (i := 0) (by decide +kernel), _,
    relayedMother.activeAt_mem (i := 1) (by decide +kernel), by decide +kernel, fun order => ?_⟩
  rw [planMesh_order _ order (.stored Site)]
  decide +kernel

end Core
