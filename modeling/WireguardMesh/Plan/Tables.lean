import WireguardMesh.Foundation.Forwarding
import WireguardMesh.Plan.Grants
import WireguardMesh.Plan.Order

/-! # Forwarding tables of a plan

The allowed prefixes of a node are its forwarding table: WireGuard sends a packet to the
peer with the longest prefix that contains the destination, and accepts one only from the
peer with the longest prefix that contains the source. `Plan.table` is that table for a
node or for the relay, and `Plan.lookup` the longest match in it.

The conditions that results about routing share are predicates of the mesh: it has only
links from a child to a mother (`Mesh.AttachmentsOnly`), its VPN subnets are disjoint
(`Mesh.DisjointSubnets`), its active nodes have no LAN routes (`Mesh.NoLanRoutes`).
-/

namespace Core

open GoText Net Forwarding Roster

variable {mesh : Mesh} {b : String} {p : Prefix} {pn other y : PlanNode}

/-- IP prefixes, by what they contain and their length. -/
def prefixSpace : PrefixSystem Prefix Addr where
  covers := Prefix.contains
  length := Prefix.bits

/-- The forwarding table of a node: its peers with their allowed prefixes. -/
def Plan.table (plan : Plan) (id : String) : Table String Prefix :=
  (plan.peers.filter fun entry => entry.1 = id).flatMap fun entry =>
    entry.2.allowed.map fun p => (entry.2.peerID, p)

/-- The peer of a node with the longest prefix that contains an address. -/
def Plan.lookup (plan : Plan) (id : String) (address : Addr) : Option String :=
  longestMatch prefixSpace (plan.table id) address

def PlanNode.addr (pn : PlanNode) : Addr :=
  pn.host.ip

/-- A packet from one node to another arrives: it is forwarded by longest match, and every receiver
checks its source. -/
def Plan.Reaches (plan : Plan) (x y : PlanNode) : Prop :=
  Delivers prefixSpace plan.table x.addr y.addr y.id x.id

/-! ## Conditions on a mesh -/

/-- Every link goes from a child to a mother. -/
def Mesh.AttachmentsOnly (mesh : Mesh) : Prop :=
  ∀ l ∈ mesh.links, (mesh.findNode l.fromNodeID).all (fun n => !n.isMagnetParent) = true ∧
    (mesh.findNode l.toNodeID).all Node.isMagnetParent = true

/-- Different VPN subnets do not overlap. -/
def Mesh.DisjointSubnets (mesh : Mesh) : Prop :=
  ∀ a ∈ mesh.roster.active, ∀ b ∈ mesh.roster.active, a.subnet ≠ b.subnet →
    a.subnet.overlaps b.subnet = false

/-- No active node has a LAN route. -/
def Mesh.NoLanRoutes (mesh : Mesh) : Prop :=
  ∀ pn ∈ mesh.roster.active, mesh.roster.lanRoutes pn = []

instance (mesh : Mesh) : Decidable mesh.AttachmentsOnly :=
  inferInstanceAs (Decidable (∀ l ∈ mesh.links, _ ∧ _))

instance (mesh : Mesh) : Decidable mesh.DisjointSubnets :=
  inferInstanceAs (Decidable (∀ a ∈ mesh.roster.active, ∀ b ∈ mesh.roster.active, _))

instance (mesh : Mesh) : Decidable mesh.NoLanRoutes :=
  inferInstanceAs (Decidable (∀ pn ∈ mesh.roster.active, _))

/-! ## Meshes written out -/

/-- A node with the fields that planning reads most, for meshes that are written out. -/
def Node.sample (id address : String) (listenPort : UInt16) (endpoint : String)
    (routes : List String) : Node where
  id := id
  role := .client
  publicKey := "public"
  privateKey := "private"
  address := address
  listenPort := listenPort
  endpoint := endpoint
  mtu := 0
  token := "token"
  interface := ""
  pollInterval := ""
  transport := ""
  udpMode := false
  disabled := false
  routes := routes
  addressChangedAt := .zero
  cluster := ""
  publicV4 := ""

/-- A mesh of nodes and links, without forwards, path choices and standbys. -/
def Mesh.sample (nodes : List Node) (links : List Link) (relay : Option Relay) : Mesh where
  revision := 0
  nodes := nodes
  links := links
  forwards := []
  paths := ∅
  relay := relay
  standby := ∅

/-- An active node by its position. -/
def Mesh.activeAt (mesh : Mesh) (i : Nat) (inside : i < mesh.roster.active.length) : PlanNode :=
  mesh.roster.active.get ⟨i, inside⟩

theorem Mesh.activeAt_mem {i : Nat} (inside : i < mesh.roster.active.length) :
    mesh.activeAt i inside ∈ mesh.roster.active :=
  List.get_mem _ _

/-- A subnet with a dialable mother and two children attached to it. -/
def oneHome : Mesh :=
  Mesh.sample [
    .sample "00000000-0000-4000-8000-0000000000a1" "10.1.0.1/24" 51820 "192.0.2.1:51820"
      ["10.1.0.0/24"],
    .sample "00000000-0000-4000-8000-0000000000b1" "10.1.0.11/24" 0 "" ["10.1.0.0/24"],
    .sample "00000000-0000-4000-8000-0000000000b2" "10.1.0.12/24" 0 "" ["10.1.0.0/24"]]
    [⟨"00000000-0000-4000-8000-0000000000b1", "00000000-0000-4000-8000-0000000000a1", [], 0⟩,
      ⟨"00000000-0000-4000-8000-0000000000b2", "00000000-0000-4000-8000-0000000000a1", [], 0⟩] none

/-! ## Tables and allowed prefixes -/

theorem keyed_planMesh (wf : mesh.WellFormed) (order : RangeOrder Site) :
    Keyed (planMesh order mesh).peers := by
  rw [Keyed, peers_planMesh, List.map_map, comp_fillEntry Prod.mk]
  exact (resolved_spec wf.roster order).1

theorem mem_table (wf : mesh.WellFormed) (order : RangeOrder Site) {a : String} :
    (b, p) ∈ (planMesh order mesh).table a ↔ (planMesh order mesh).Allowed a b p := by
  rw [Plan.table, List.mem_flatMap]
  constructor
  · rintro ⟨⟨node, pp⟩, kept, entry⟩
    obtain ⟨member, same⟩ := List.mem_filter.mp kept
    obtain rfl : node = a := of_decide_eq_true same
    obtain ⟨q, allowed, equal⟩ := List.mem_map.mp entry
    cases equal
    exact ⟨pp, peerOf_of_mem (keyed_planMesh wf order) member, allowed⟩
  · rintro ⟨pp, found, allowed⟩
    obtain ⟨member, rfl⟩ := mem_of_peerOf found
    exact ⟨(a, pp), List.mem_filter.mpr ⟨member, decide_eq_true rfl⟩,
      List.mem_map.mpr ⟨p, allowed, rfl⟩⟩

theorem Plan.lookup_eq_some (wf : mesh.WellFormed) (order : RangeOrder Site) {a : String}
    {address : Addr} : (planMesh order mesh).lookup a address = some b ↔
      ∃ p, mesh.roster.Carries a b p ∧ p.contains address = true ∧
        ∀ c q, mesh.roster.Carries a c q → q.contains address = true → c ≠ b → q.bits < p.bits := by
  rw [Plan.lookup, longestMatch_eq_some]
  constructor
  · rintro ⟨p, entry, covers, dominates⟩
    rw [mem_table wf, allowed_iff_carries wf] at entry
    refine ⟨p, entry.1, covers, fun c q carries inside different => ?_⟩
    apply dominates (c, q) _ inside different
    rw [mem_table wf, allowed_iff_carries wf]
    exact ⟨carries, Prefix.isValid_of_contains inside⟩
  · rintro ⟨p, carries, covers, dominates⟩
    refine ⟨p, ?_, covers, ?_⟩
    · rw [mem_table wf, allowed_iff_carries wf]
      exact ⟨carries, Prefix.isValid_of_contains covers⟩
    · rintro ⟨c, q⟩ entry inside different
      rw [mem_table wf, allowed_iff_carries wf] at entry
      exact dominates c q entry.1 inside different

/-! ## Addresses -/

namespace Roster

variable {r : Roster} (wf : r.WellFormed)

include wf

section

variable (member : pn ∈ r.active)

include member

theorem host_addr : ∃ a, pn.addr = .v4 a ∧ pn.host = prefixFrom (.v4 a) 32 ∧
      pn.subnet.contains (.v4 a) = true := by
  obtain ⟨a, host, _, contains⟩ := wf.hosts pn member
  exact ⟨a, by rw [PlanNode.addr, host]; rfl, host, contains⟩

@[simp] theorem bits_host : pn.host.bits = 32 := by
  obtain ⟨a, _, host, _⟩ := host_addr wf member
  rw [host]
  rfl

theorem contains_host_iff (inOther : other ∈ r.active) :
    pn.host.contains other.addr = true ↔ pn = other := by
  obtain ⟨a, _, host, _⟩ := host_addr wf member
  obtain ⟨b, addr, host', _⟩ := host_addr wf inOther
  rw [host, addr, contains_host]
  constructor
  · rintro rfl
    exact wf.separate pn member other inOther (host.trans host'.symm)
  · rintro rfl
    have equal : Addr.v4 a = .v4 b := congrArg Prefix.ip (host.symm.trans host')
    cases equal
    rfl

theorem isValid_host : pn.host.isValid = true :=
  Prefix.isValid_of_contains ((contains_host_iff wf member member).mpr rfl)

theorem contains_subnet : pn.subnet.contains pn.addr = true := by
  obtain ⟨a, addr, _, contains⟩ := host_addr wf member
  rw [addr]
  exact contains

theorem bits_le_of_contains (covers : p.contains pn.addr = true) : p.bits ≤ 32 := by
  obtain ⟨a, addr, _, _⟩ := host_addr wf member
  rw [addr] at covers
  exact Prefix.bits_le_of_contains_v4 covers

theorem bits_subnet_lt (inOther : other ∈ r.active) (close : other.subnet = pn.subnet)
    (different : other ≠ pn) : pn.subnet.bits < 32 := by
  obtain ⟨a, addr, host, contains⟩ := host_addr wf member
  obtain ⟨b, addr', host', contains'⟩ := host_addr wf inOther
  obtain ⟨_, _, masked, _⟩ := wf.hosts pn member
  have bound := Prefix.bits_le_of_contains_v4 contains
  apply lt_of_le_of_ne bound
  intro full
  rw [close] at contains'
  have whole : pn.subnet = prefixFrom (.v4 a) 32 :=
    Prefix.eq_of_contains masked (masked_host a) contains (contains_host.mpr rfl) full
  rw [whole, contains_host] at contains'
  subst contains'
  exact different (wf.separate other inOther pn member (host'.trans host.symm))

end

end Roster

/-- The subnet of a node is the only VPN subnet that contains its address. -/
theorem Mesh.DisjointSubnets.subnet_eq
    (disjoint : mesh.DisjointSubnets) (wf : mesh.WellFormed) (member : pn ∈ mesh.roster.active)
    (inOther : other ∈ mesh.roster.active) (covers : other.subnet.contains pn.addr = true) :
    other.subnet = pn.subnet := by
  by_contra different
  have apart := disjoint other inOther pn member different
  obtain ⟨a, addr, _, contains⟩ := host_addr wf.roster member
  rw [addr] at covers
  rw [Prefix.overlaps_of_contains covers contains] at apart
  cases apart

theorem Roster.subnet_of_vpnRoutes {r : Roster} {sub : Prefix} (routed : sub ∈ r.vpnRoutes pn) :
    ∃ z ∈ r.active, z.subnet = sub := by
  rw [vpnRoutes, List.mem_filter, Bool.and_eq_true, isVPNSubnet, List.any_eq_true] at routed
  obtain ⟨z, member, same⟩ := routed.2.1
  exact ⟨z, member, of_decide_eq_true same⟩

theorem Mesh.AttachmentsOnly.generic (links : mesh.AttachmentsOnly) (wf : mesh.WellFormed) :
    mesh.roster.generic = [] := by
  apply List.eq_nil_iff_forall_not_mem.mpr
  rintro ⟨source, target, l⟩ linked
  obtain ⟨inSource, inTarget, _, kinds, member, sourceId, targetId⟩ := mem_generic wf.roster linked
  obtain ⟨child, mother⟩ := links l member
  rw [← sourceId, wf.findNode_of_mem inSource, Option.all_some, Bool.not_eq_true'] at child
  rw [← targetId, wf.findNode_of_mem inTarget, Option.all_some] at mother
  exact kinds ⟨(mother_of_mem inSource).trans child, (mother_of_mem inTarget).trans mother⟩

/-! ## Entries that cover an address -/

namespace Roster

variable (r : Roster)

/-- The entries of a child that can cover the address of another node. -/
inductive CoversChild (x y : PlanNode) : String → Prefix → Prop
  | subnet (gated : r.gateway x.id y.subnet ≠ "") :
      CoversChild x y (r.gateway x.id y.subnet) y.subnet
  | pin {via : String} (gated : r.gateway x.id x.subnet ≠ "") (child : y.mother = false)
      (close : y.subnet = x.subnet) (away : r.gateway x.id x.subnet ∉ r.homes y)
      (home : r.pinHome y = some via) : CoversChild x y via y.host
  | lan {lan : Prefix} (gated : r.gateway x.id x.subnet ≠ "") (routed : lan ∈ r.lanRoutes x) :
      CoversChild x y (r.gateway x.id x.subnet) lan
  | cross (child : y.mother = false) (apart : y.subnet ≠ x.subnet) (routed : r.crossVia x y ≠ "")
      (moved : r.crossVia x y ≠ r.gateway x.id y.subnet)
      (connected : r.Connected x.id (r.crossVia x y)) : CoversChild x y (r.crossVia x y) y.host
  | warm (mother : y.mother = true) (connected : r.Connected x.id y.id) :
      CoversChild x y y.id y.host

/-- The entries of a mother that can cover the address of another node. -/
inductive CoversMother (m y : PlanNode) : String → Prefix → Prop
  | host {peer : String} (owned : r.OwnedBy m y peer) : CoversMother m y peer y.host
  | lan {z : PlanNode} {lan : Prefix} (claimed : r.lanClaimant m lan = some z) :
      CoversMother m y z.id lan
  | subnet (gated : r.gateway m.id y.subnet ≠ "") :
      CoversMother m y (r.gateway m.id y.subnet) y.subnet
  | warm (mother : y.mother = true) (connected : r.Connected m.id y.id) :
      CoversMother m y y.id y.host

end Roster

section Coverage

variable {mesh : Mesh} (wf : mesh.WellFormed) (links : mesh.AttachmentsOnly)
  (disjoint : mesh.DisjointSubnets)

include wf links disjoint

/-- What a node carries and covers the address of another node is one of the entries of a
child, or one of those of a mother. -/
theorem covers_of_carries {x : PlanNode} (inX : x ∈ mesh.roster.active)
    (inY : y ∈ mesh.roster.active) (carries : mesh.roster.Carries x.id b p)
    (covers : p.contains y.addr = true) :
    (x.mother = false → mesh.roster.CoversChild x y b p) ∧
      (x.mother = true → mesh.roster.CoversMother x y b p) := by
  have self {pn : PlanNode} (member : pn ∈ mesh.roster.active) (same : x.id = pn.id) : x = pn :=
    wf.roster.distinct x inX pn member same
  have target {pn : PlanNode} (member : pn ∈ mesh.roster.active)
      (covers : pn.host.contains y.addr = true) : pn = y :=
    (contains_host_iff wf.roster member inY).mp covers
  generalize source : x.id = a at carries
  cases carries with
  | host member mother inZ owned =>
    obtain rfl := self member source
    obtain rfl := target inZ covers
    exact ⟨fun child => PlanNode.clash mother child, fun _ => .host owned⟩
  | lan member mother claimed =>
    obtain rfl := self member source
    exact ⟨fun child => PlanNode.clash mother child, fun _ => .lan claimed⟩
  | subnet member gated =>
    obtain rfl := self member source
    obtain ⟨z, inZ, rfl⟩ :=
      subnet_of_vpnRoutes (gateway_mem wf.roster member gated).1
    rw [disjoint.subnet_eq wf inY inZ covers] at gated ⊢
    exact ⟨fun _ => .subnet gated, fun _ => .subnet gated⟩
  | pin member gated inT childT close other away home =>
    obtain rfl := self member source
    obtain rfl := target inT covers
    have child := not_mother_of_gateway wf.roster member gated
    exact ⟨fun _ => .pin gated childT close away home, fun mother => PlanNode.clash mother child⟩
  | lanHome member gated routed =>
    obtain rfl := self member source
    have child := not_mother_of_gateway wf.roster member gated
    exact ⟨fun _ => .lan gated routed, fun mother => PlanNode.clash mother child⟩
  | cross member inZ childX childZ apart routed moved connected =>
    obtain rfl := self member source
    obtain rfl := target inZ covers
    exact ⟨fun _ => .cross childZ apart routed moved connected,
      fun mother => PlanNode.clash mother childX⟩
  | relay member connected => exact ((wf.roster.named x inX).2 source).elim
  | link linked | linkBack linked => cases links.generic wf ▸ linked
  | warm member inM mother connected =>
    obtain rfl := self member source
    obtain rfl := target inM covers
    exact ⟨fun _ => .warm mother connected, fun _ => .warm mother connected⟩

omit disjoint in
theorem covers_relay (inY : y ∈ mesh.roster.active) (carries : mesh.roster.Carries relayNodeID b p)
    (covers : p.contains y.addr = true) : b = y.id ∧ p = y.host := by
  generalize source : relayNodeID = a at carries
  cases carries with
  | host member | lan member | subnet member | pin member | lanHome member | cross member
  | warm member => exact ((wf.roster.named _ member).2 source.symm).elim
  | relay member connected =>
    rw [(contains_host_iff wf.roster member inY).mp covers]
    exact ⟨rfl, rfl⟩
  | link linked | linkBack linked => cases links.generic wf ▸ linked

omit disjoint in
theorem lookup_relay (order : RangeOrder Site) (inY : y ∈ mesh.roster.active)
    (connected : mesh.roster.Connected relayNodeID y.id) :
    (planMesh order mesh).lookup relayNodeID y.addr = some y.id := by
  rw [Plan.lookup_eq_some wf]
  refine ⟨y.host, .relay inY connected, (contains_host_iff wf.roster inY inY).mpr rfl, ?_⟩
  intro c q carries covers different
  exact (different (covers_relay wf links inY carries covers).1).elim

end Coverage

end Core
