import WireguardMesh.Plan.Tables
import WireguardMesh.Store.Validate

/-! # Prefixes on two peers

WireGuard keeps a prefix on one peer only. A plan puts a host on two peers in two situations
(`allowed_unique_iff`). A mother carries the host of a mother of another subnet both on
the mother through which that one routes back and, to keep the tunnel warm, on that one
itself (`Roster.MotherTwice`). And where a VPN subnet is the single address of a node, a
node that routes to it through the relay may also carry that address as a host
(`Roster.AddressTwice`).
-/

namespace Core

open GoText Net

variable {a z : PlanNode} {lan : Prefix} {b : String}

namespace Roster

variable (r : Roster)

/-- Whether a mother carries the host of a foreign mother twice: the two are connected, and the
foreign one prefers another mother, meshed with this one, as its gateway here. -/
def MotherTwice (m z : PlanNode) : Prop :=
  z.mother = true ∧ z.subnet ≠ m.subnet ∧ r.Connected m.id z.id ∧
    ∃ g ∈ r.active, r.prefers z m.subnet = g.id ∧ r.meshEdge m.id g.id = true

/-- Whether a node carries the address of a node alone in its VPN subnet twice: it prefers the
relay for that subnet, and has a second way to the other node. -/
def AddressTwice (a z : PlanNode) : Prop :=
  z.subnet = z.host ∧ r.prefers a z.subnet = relayNodeID ∧
    ((z.mother = true ∧ r.Connected a.id z.id) ∨
      (a.mother = true ∧ (r.prefers z a.subnet = a.id ∨
        (r.isAttached z.id a.id = true ∧ a.exposed = true) ∨
        ∃ g ∈ r.active, r.prefers z a.subnet = g.id ∧ r.meshEdge a.id g.id = true)) ∨
      (a.mother = false ∧ z.mother = false ∧
        ∃ g ∈ r.active, r.prefers z a.subnet = g.id ∧ r.Connected a.id g.id))

/-- The peers on which a node carries the host of another one. -/
inductive HostVia (a z : PlanNode) : String → Prop
  | owned {peer : String} (mother : a.mother = true) (owned : r.OwnedBy a z peer) :
      HostVia a z peer
  | pin {via : String} (child : z.mother = false) (close : z.subnet = a.subnet)
      (childA : a.mother = false) (home : r.pinHome z = some via) : HostVia a z via
  | cross (childA : a.mother = false) (child : z.mother = false) (apart : z.subnet ≠ a.subnet)
      (moved : r.crossVia a z ≠ r.gateway a.id z.subnet)
      (connected : r.Connected a.id (r.crossVia a z)) : HostVia a z (r.crossVia a z)
  | warm (mother : z.mother = true) (connected : r.Connected a.id z.id) : HostVia a z z.id

/-- The peer on which a node carries a LAN route. -/
inductive LanVia (a : PlanNode) (lan : Prefix) : String → Prop
  | claimed {z : PlanNode} (mother : a.mother = true) (claimed : r.lanClaimant a lan = some z) :
      LanVia a lan z.id
  | home (child : a.mother = false) (gated : r.gateway a.id a.subnet ≠ "")
      (routed : lan ∈ r.lanRoutes a) : LanVia a lan (r.gateway a.id a.subnet)

variable {r}

theorem LanVia.unique {c : String} (first : r.LanVia a lan b) (second : r.LanVia a lan c) :
    b = c := by
  cases first with
  | claimed mother claimed =>
    cases second with
    | claimed _ claimed' => rw [Option.some.inj (claimed.symm.trans claimed')]
    | home child _ _ => exact a.clash mother child
  | home child _ _ =>
    cases second with
    | claimed mother _ => exact a.clash mother child
    | home _ _ _ => rfl

theorem LanVia.routed (via : r.LanVia a lan b) (inA : a ∈ r.active) :
    ∃ pn ∈ r.active, lan ∈ r.lanRoutes pn := by
  cases via with
  | claimed _ claimed =>
    obtain ⟨inZ, _, routed⟩ := lanClaimant_eq_some claimed
    exact ⟨_, inZ, routed⟩
  | home _ _ routed => exact ⟨a, inA, routed⟩

theorem LanVia.carries (via : r.LanVia a lan b) (inA : a ∈ r.active) : r.Carries a.id b lan := by
  cases via with
  | claimed mother claimed => exact .lan inA mother claimed
  | home _ gated routed => exact .lanHome inA gated routed

section

variable (wf : r.WellFormed)

include wf

/-- What an active node carries is a host, a LAN route, or a subnet on its gateway. -/
theorem carries_cases
    (noLink : r.generic = []) (inA : a ∈ r.active) {p : Prefix} (carries : r.Carries a.id b p) :
    (∃ z ∈ r.active, p = z.host ∧ r.HostVia a z b) ∨ r.LanVia a p b ∨
      (b = r.gateway a.id p ∧ r.gateway a.id p ≠ "") := by
  have self {pn : PlanNode} (member : pn ∈ r.active) (same : pn.id = a.id) : pn = a :=
    wf.distinct pn member a inA same
  generalize source : a.id = id at carries
  cases carries with
  | host member mother inZ owned =>
    obtain rfl := self member source.symm
    exact .inl ⟨_, inZ, rfl, .owned mother owned⟩
  | lan member mother claimed =>
    obtain rfl := self member source.symm
    exact .inr (.inl (.claimed mother claimed))
  | subnet member gated =>
    obtain rfl := self member source.symm
    exact .inr (.inr ⟨rfl, gated⟩)
  | pin member gated inT child close other away home =>
    obtain rfl := self member source.symm
    exact .inl ⟨_, inT, rfl, .pin child close (not_mother_of_gateway wf member gated) home⟩
  | lanHome member gated routed =>
    obtain rfl := self member source.symm
    exact .inr (.inl (.home (not_mother_of_gateway wf member gated) gated routed))
  | cross member inZ childA child apart routed moved connected =>
    obtain rfl := self member source.symm
    exact .inl ⟨_, inZ, rfl, .cross childA child apart moved connected⟩
  | relay member connected => exact ((wf.named a inA).2 source).elim
  | link linked | linkBack linked =>
    rw [noLink] at linked
    cases linked
  | warm member inM mother connected =>
    obtain rfl := self member source.symm
    exact .inl ⟨_, inM, rfl, .warm mother connected⟩

variable (inA : a ∈ r.active) (inZ : z ∈ r.active)

include inZ

theorem subnet_eq_host {w : PlanNode} (inW : w ∈ r.active) (same : z.host = w.subnet) :
    w = z ∧ z.subnet = z.host := by
  have inside := contains_subnet wf inW
  rw [← same, contains_host_iff wf inZ inW] at inside
  subst inside
  exact ⟨rfl, same.symm⟩

include inA in
/-- The gateway into the subnet of a single node is that node or the relay. -/
theorem gateway_single (single : z.subnet = z.host)
    (gated : r.gateway a.id z.subnet ≠ "") : (r.gateway a.id z.subnet = z.id ∧ z.mother = true) ∨
      r.gateway a.id z.subnet = relayNodeID := by
  rcases gateway_cases wf inA gated with ⟨m, inM, mother, served, _, _, named⟩ | ⟨relay, _⟩
  · obtain ⟨rfl, _⟩ := subnet_eq_host wf inZ inM (single.symm.trans served.symm)
    exact .inl ⟨named.symm, mother⟩
  · exact .inr relay

theorem OwnedBy.indirect {m : PlanNode} {peer : String} (owned : r.OwnedBy m z peer)
    (other : peer ≠ z.id) : ¬ (z.mother = true ∧ z.subnet = m.subnet) ∧
      ∃ g ∈ r.active, r.prefers z m.subnet = g.id ∧ r.meshEdge m.id g.id = true ∧ peer = g.id := by
  obtain ⟨_, ⟨_, _, _, rfl⟩ | ⟨outside, ⟨_, rfl⟩ | ⟨_, gate, edge⟩⟩⟩ := owned
  · exact (other rfl).elim
  · exact (other rfl).elim
  · obtain ⟨_, _, g, inG, _, rfl, _⟩ := meshEdge_cases wf edge
    exact ⟨outside, g, inG, (gateway_eq wf inZ _).symm.trans gate, edge, rfl⟩

theorem HostVia.unique {c : String} (first : r.HostVia a z b) (second : r.HostVia a z c)
    (once : ¬ r.MotherTwice a z) : b = c := by
  have warmOwned {peer : String} (owned : r.OwnedBy a z peer) (mother : z.mother = true)
      (connected : r.Connected a.id z.id) : peer = z.id := by
    by_contra other
    obtain ⟨outside, g, inG, gate, edge, _⟩ := owned.indirect wf inZ other
    exact once ⟨mother, fun close => outside ⟨mother, close⟩, connected, g, inG, gate, edge⟩
  cases first with
  | owned mother owned =>
    cases second with
    | owned _ owned' => exact owned.unique wf owned'
    | pin child close childA home => exact a.clash mother childA
    | cross childA _ _ _ _ => exact a.clash mother childA
    | warm motherZ connected => exact warmOwned owned motherZ connected
  | pin child close childA home =>
    cases second with
    | owned mother owned => exact a.clash mother childA
    | pin _ _ _ home' => exact Option.some.inj (home.symm.trans home')
    | cross _ _ apart _ _ => exact (apart close).elim
    | warm motherZ connected => exact z.clash motherZ child
  | cross childA child apart moved connected =>
    cases second with
    | owned mother owned => exact a.clash mother childA
    | pin _ close _ _ => exact (apart close).elim
    | cross _ _ _ _ _ => rfl
    | warm motherZ connected => exact z.clash motherZ child
  | warm motherZ connected =>
    cases second with
    | owned mother owned => exact (warmOwned owned motherZ connected).symm
    | pin child close childA home => exact z.clash motherZ child
    | cross _ child _ _ _ => exact z.clash motherZ child
    | warm _ _ => rfl

include inA

/-- A gateway for a single address that is carried elsewhere as a host is the relay. -/
theorem HostVia.addressTwice (host : r.HostVia a z b) (single : z.subnet = z.host)
    (gated : r.gateway a.id z.subnet ≠ "") (other : b ≠ r.gateway a.id z.subnet)
    (once : ¬ r.MotherTwice a z) : r.AddressTwice a z := by
  rcases gateway_single wf inA inZ single gated with ⟨gate, mother⟩ | relay
  · -- The node itself is the gateway, so it also is the one peer of its host.
    have warm : r.HostVia a z z.id := .warm mother (by
      have dials := dials_gateway wf inA gated
      rw [gate] at dials
      exact .inl dials)
    exact (other ((host.unique wf inZ warm once).trans gate.symm)).elim
  · have apart := (gateway_relay wf inA relay).2.1
    refine ⟨single, (gateway_eq wf inA _).symm.trans relay, ?_⟩
    cases host with
    | owned mother owned =>
      refine .inr (.inl ⟨mother, ?_⟩)
      rw [← gateway_eq wf inZ]
      obtain ⟨_, ⟨_, close, _⟩ | ⟨_, ⟨direct, _⟩ | ⟨_, gate, edge⟩⟩⟩ := owned
      · exact (apart close).elim
      · rcases direct with gate | attached | ⟨close, _⟩
        · exact .inl gate
        · exact .inr (.inl attached)
        · exact (apart close).elim
      · obtain ⟨_, _, g, inG, _, named, _⟩ := meshEdge_cases wf edge
        exact .inr (.inr ⟨g, inG, gate.trans named.symm, named ▸ edge⟩)
    | pin child close childA home => exact (apart close).elim
    | cross childA child apart' moved connected =>
      refine .inr (.inr ⟨childA, child, ?_⟩)
      rw [relay] at moved
      have foreign := (crossVia_cases a z).resolve_left fun own => moved (own.trans relay)
      rw [foreign] at moved connected
      obtain ⟨pn, inPn, named⟩ | ⟨named, _⟩ : (∃ pn ∈ r.active,
          pn.id = r.gateway z.id a.subnet) ∨ (r.gateway z.id a.subnet = relayNodeID ∧ _) := by
        rcases connected with dials | dials
        · exact (dials.ends wf).2.2
        · exact .inl (dials.ends wf).1
      · exact ⟨pn, inPn, (gateway_eq wf inZ _).symm.trans named.symm, named ▸ connected⟩
      · exact (moved named).elim
    | warm mother connected => exact .inl ⟨mother, connected⟩

/-- A mother that carries the host of a foreign mother twice carries it on two peers. -/
theorem MotherTwice.conflict (twice : r.MotherTwice a z) :
    ∃ g, g ≠ z.id ∧ r.Carries a.id g z.host ∧ r.Carries a.id z.id z.host := by
  obtain ⟨mother, apart, connected, g, inG, gate, edge⟩ := twice
  obtain ⟨pa, inPa, _, _, samePa, _, different, motherA, _⟩ := meshEdge_cases wf edge
  rw [wf.distinct pa inPa a inA samePa] at motherA
  rw [← gateway_eq wf inZ] at gate
  have indirect : ¬ r.Direct a z := by
    rintro (gateA | ⟨attached, _⟩ | ⟨close, _⟩)
    · exact different (gateA.symm.trans gate)
    · obtain ⟨x, inX, _, _, named, _, child, _⟩ := isAttached_cases wf attached
      exact wf.apart inZ inX mother child named.symm
    · exact apart close
  refine ⟨g.id, (subnet_of_gateway wf inG inZ gate).2.2.2, ?_, .warm inA inZ mother connected⟩
  exact .host inA motherA inZ ⟨(connected.ne wf).symm, .inr ⟨fun both => apart both.2,
    .inr ⟨indirect, gate, edge⟩⟩⟩

/-- A mother that a node of another subnet reaches, or whose mesh it reaches, has an owner
for that node's host. -/
theorem ownedBy_of_reached (apart : z.subnet ≠ a.subnet)
    (reached : r.gateway z.id a.subnet = a.id ∨ (r.isAttached z.id a.id = true ∧ a.exposed = true) ∨
      ∃ g ∈ r.active, r.gateway z.id a.subnet = g.id ∧ r.meshEdge a.id g.id = true) :
    ∃ pn ∈ r.active, r.OwnedBy a z pn.id := by
  have other : z.id ≠ a.id := fun same => apart (by rw [wf.distinct z inZ a inA same])
  have outside : ¬ (z.mother = true ∧ z.subnet = a.subnet) := fun both => apart both.2
  by_cases direct : r.Direct a z
  · exact ⟨z, inZ, other, .inr ⟨outside, .inl ⟨direct, rfl⟩⟩⟩
  · rcases reached with gate | attached | ⟨g, inG, gate, edge⟩
    · exact (direct (.inl gate)).elim
    · exact (direct (.inr (.inl attached))).elim
    · exact ⟨g, inG, other, .inr ⟨outside, .inr ⟨direct, gate, edge⟩⟩⟩

/-- A node that carries the single address of a subnet twice carries it on two peers. -/
theorem AddressTwice.conflict (twice : r.AddressTwice a z) :
    ∃ peer, peer ≠ relayNodeID ∧ r.Carries a.id peer z.host ∧ r.Carries a.id relayNodeID z.host := by
  obtain ⟨single, relay, second⟩ := twice
  simp only [← gateway_eq wf inA, ← gateway_eq wf inZ] at relay second
  have gated : r.gateway a.id z.subnet ≠ "" := by
    rw [relay]
    decide
  have apart := (gateway_relay wf inA relay).2.1
  have viaRelay : r.Carries a.id relayNodeID z.host := by
    have carries := Carries.subnet inA gated
    rw [relay, single] at carries
    exact carries
  rcases second with ⟨mother, connected⟩ | ⟨mother, reached⟩ | ⟨childA, child, g, inG, gate, connected⟩
  · exact ⟨z.id, (wf.named z inZ).2, .warm inA inZ mother connected, viaRelay⟩
  · obtain ⟨pn, inPn, owned⟩ := ownedBy_of_reached wf inA inZ apart reached
    exact ⟨pn.id, (wf.named pn inPn).2, .host inA mother inZ owned, viaRelay⟩
  · have notRelay := (wf.named g inG).2
    have via : r.crossVia a z = g.id := by
      rw [crossVia, relay, gate, pairVia, if_neg (not_or.mpr ⟨by decide, (wf.named g inG).1⟩),
        if_pos ⟨rfl, notRelay⟩]
    have pinned : r.Carries a.id (r.crossVia a z) z.host :=
      .cross inA inZ childA child apart (by rw [via]; exact (wf.named g inG).1)
        (by rw [via, relay]; exact notRelay) (by rw [via]; exact connected)
    rw [via] at pinned
    exact ⟨g.id, notRelay, pinned, viaRelay⟩

theorem hostVia_eq_gateway (host : r.HostVia a z b)
    (gated : r.gateway a.id z.host ≠ "") (once : ¬ r.MotherTwice a z)
    (onceAddress : ¬ r.AddressTwice a z) : b = r.gateway a.id z.host := by
  obtain ⟨w, inW, served⟩ := subnet_of_vpnRoutes (gateway_mem wf inA gated).1
  obtain ⟨_, single⟩ := subnet_eq_host wf inZ inW served.symm
  rw [← single] at gated ⊢
  by_contra other
  exact onceAddress (host.addressTwice wf inA inZ single gated other once)

end

end Roster

/-- No LAN route of an active node is the host of one. -/
def Mesh.NoHostLan (mesh : Mesh) : Prop :=
  ∀ pn ∈ mesh.roster.active, ∀ z ∈ mesh.roster.active, z.host ∉ mesh.roster.lanRoutes pn

instance (mesh : Mesh) : Decidable mesh.NoHostLan :=
  inferInstanceAs (Decidable (∀ pn ∈ mesh.roster.active, ∀ z ∈ mesh.roster.active, _))

section Exclusive

variable {mesh : Mesh} (wf : mesh.WellFormed)

include wf

/-- **Exclusive prefixes.** No prefix is allowed on two peers of a node, unless it is the host of a
foreign mother, or of a node alone in its subnet, carried twice. -/
theorem allowed_unique_iff (links : mesh.AttachmentsOnly) (noHostLan : mesh.NoHostLan)
    (order : RangeOrder Site) {a : PlanNode} (inA : a ∈ mesh.roster.active) :
    (∀ b c p, (planMesh order mesh).Allowed a.id b p → (planMesh order mesh).Allowed a.id c p →
        b = c) ↔
      ∀ z ∈ mesh.roster.active, ¬ mesh.roster.MotherTwice a z ∧ ¬ mesh.roster.AddressTwice a z := by
  constructor
  · intro unique z inZ
    have never (b c : String) (first : mesh.roster.Carries a.id b z.host)
        (second : mesh.roster.Carries a.id c z.host) : b = c := by
      have valid := Roster.isValid_host wf.roster inZ
      exact unique b c z.host ((allowed_iff_carries wf order).mpr ⟨first, valid⟩)
        ((allowed_iff_carries wf order).mpr ⟨second, valid⟩)
    refine ⟨fun twice => ?_, fun twice => ?_⟩
    · obtain ⟨g, other, first, second⟩ := twice.conflict wf.roster inA inZ
      exact other (never _ _ first second)
    · obtain ⟨peer, other, first, second⟩ := twice.conflict wf.roster inA inZ
      exact other (never _ _ first second)
  · intro once b c p first second
    rw [allowed_iff_carries wf] at first second
    have kinds {b : String} {p : Prefix} (carries : mesh.roster.Carries a.id b p) :=
      Roster.carries_cases wf.roster (links.generic wf) inA carries
    have lanNotSubnet {b : String} (via : mesh.roster.LanVia a p b) :
        mesh.roster.gateway a.id p = "" := by
      by_contra gated
      obtain ⟨pn, inPn, lan⟩ := via.routed inA
      have routed := (Roster.gateway_mem wf.roster inA gated).1
      rw [Roster.vpnRoutes, List.mem_filter, Bool.and_eq_true] at routed
      rw [Roster.lanRoutes, List.mem_filter, routed.2.1] at lan
      exact absurd lan.2 (by decide)
    have lanNotHost {b : String} (via : mesh.roster.LanVia a p b) {z : PlanNode}
        (inZ : z ∈ mesh.roster.active) : p ≠ z.host := by
      rintro rfl
      obtain ⟨pn, inPn, lan⟩ := via.routed inA
      exact noHostLan pn inPn z inZ lan
    rcases kinds first.1 with ⟨z, inZ, rfl, host⟩ | lan | ⟨rfl, gated⟩
    · rcases kinds second.1 with ⟨w, inW, same, host'⟩ | lan | ⟨rfl, gated⟩
      · obtain rfl := wf.roster.separate z inZ w inW same
        exact host.unique wf.roster inZ host' (once z inZ).1
      · exact (lanNotHost lan inZ rfl).elim
      · exact Roster.hostVia_eq_gateway wf.roster inA inZ host gated (once z inZ).1 (once z inZ).2
    · rcases kinds second.1 with ⟨w, inW, same, _⟩ | lan' | ⟨rfl, gated⟩
      · exact (lanNotHost lan inW same).elim
      · exact lan.unique lan'
      · exact (gated (lanNotSubnet lan)).elim
    · rcases kinds second.1 with ⟨w, inW, rfl, host'⟩ | lan' | ⟨rfl, _⟩
      · exact (Roster.hostVia_eq_gateway wf.roster inA inW host' gated (once w inW).1
          (once w inW).2).symm
      · exact (gated (lanNotSubnet lan')).elim
      · rfl

end Exclusive

/-- The mother of a single family carries every prefix on one peer. -/
theorem oneHome_unique : ∃ a ∈ oneHome.roster.active, a.mother = true ∧ ∀ b c p,
    (planMesh (.stored Site) oneHome).Allowed a.id b p →
      (planMesh (.stored Site) oneHome).Allowed a.id c p → b = c := by
  have shared : ∀ z ∈ oneHome.roster.active,
      z.subnet = (oneHome.activeAt 0 (by decide +kernel)).subnet ∧ z.subnet ≠ z.host := by
    decide +kernel
  refine ⟨_, oneHome.activeAt_mem (i := 0) (by decide +kernel), by decide +kernel, ?_⟩
  exact (allowed_unique_iff (by decide +kernel) (by decide +kernel) (by decide +kernel)
    (.stored Site) (oneHome.activeAt_mem _)).mpr fun z inZ =>
      ⟨fun twice => twice.2.1 (shared z inZ).1, fun twice => (shared z inZ).2 twice.1⟩

/-- Two mothers of one subnet, and a mother of another subnet that routes into the first. -/
def foreignMother : Mesh :=
  Mesh.sample [
    .sample "00000000-0000-4000-8000-0000000000a1" "10.1.0.1/24" 51820 "192.0.2.1:51820"
      ["10.1.0.0/24"],
    .sample "00000000-0000-4000-8000-0000000000a2" "10.1.0.2/24" 51820 "192.0.2.2:51820"
      ["10.1.0.0/24"],
    .sample "00000000-0000-4000-8000-0000000000c1" "10.2.0.1/24" 51820 "192.0.2.3:51820"
      ["10.1.0.0/24", "10.2.0.0/24"]] [] none

/-- The second mother carries the host of the foreign mother on the first, through which that one
routes, and on that one itself. -/
theorem foreignMother_twice :
    Store.validateMesh foreignMother = .ok () ∧ foreignMother.AttachmentsOnly ∧
      foreignMother.NoHostLan ∧ ∃ a ∈ foreignMother.roster.active, ∃ b c p, b ≠ c ∧
        ∀ order : RangeOrder Site, (planMesh order foreignMother).Allowed a.id b p ∧
          (planMesh order foreignMother).Allowed a.id c p := by
  have accepted : Store.validateMesh foreignMother = .ok () := by decide +kernel
  have wf := Store.wellFormed_of_validateMesh accepted
  have twice : ∀ peer ∈ ["00000000-0000-4000-8000-0000000000a1",
      "00000000-0000-4000-8000-0000000000c1"],
      (peer, (foreignMother.activeAt 2 (by decide +kernel)).host) ∈
        (planMesh (.stored Site) foreignMother).table
          (foreignMother.activeAt 1 (by decide +kernel)).id := by decide +kernel
  have allowed (order : RangeOrder Site) {peer : String} (listed : peer ∈
      ["00000000-0000-4000-8000-0000000000a1", "00000000-0000-4000-8000-0000000000c1"]) := by
    have entry := twice peer listed
    rw [planMesh_order _ (.stored Site) order, mem_table wf] at entry
    exact entry
  exact ⟨accepted, by decide +kernel, by decide +kernel, _, foreignMother.activeAt_mem _, _, _, _,
    by decide, fun order => ⟨allowed order (.head _),
      allowed order (.tail _ (.head _))⟩⟩

end Core
