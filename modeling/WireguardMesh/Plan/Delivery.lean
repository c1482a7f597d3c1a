import WireguardMesh.Plan.Tables
import WireguardMesh.Store.Validate

/-! # Delivery between children

Two children of one subnet exchange packets over a mother of that subnet. Each of them
sends to its preferred mother if the other child lives there, and otherwise to the
preferred mother of the other child (`lookup_sameSubnet`). The receiver checks the source
against its own choice, so a packet arrives exactly when the two choices agree
(`sameSubnet_reaches_iff`).

Two children of different subnets use the gateway that `pairVia` picks for the pair, which
is the same for both directions, and packets arrive (`crossSubnet_reaches`).
-/

namespace Core

open GoText Net Roster Forwarding

namespace Roster

variable (r : Roster)

/-- The dialable mothers of its own subnet that a child is attached to. -/
def ownAttachments (x : PlanNode) : List String :=
  (r.attached.getD x.id []).filter fun m =>
    (r.node? m).any fun pm => pm.exposed ∧ pm.subnet = x.subnet

/-- Whether a child lives under a mother: one it is attached to, and only without such
attachments the one it prefers. -/
def LivesUnder (x : PlanNode) (m : String) : Prop :=
  if r.ownAttachments x = [] then m = r.prefers x x.subnet else m ∈ r.ownAttachments x

instance (r : Roster) (x : PlanNode) (m : String) : Decidable (r.LivesUnder x m) :=
  inferInstanceAs (Decidable (if r.ownAttachments x = [] then m = r.prefers x x.subnet
    else m ∈ r.ownAttachments x))

/-- Whether two children of a subnet choose one mother for their packets: they prefer the same, or
exactly one lives under the mother the other prefers. -/
def ShareMother (x y : PlanNode) : Prop :=
  r.prefers x x.subnet = r.prefers y y.subnet ∨
    Xor (r.LivesUnder y (r.prefers x x.subnet)) (r.LivesUnder x (r.prefers y y.subnet))

variable {r} (wf : r.WellFormed)

include wf

theorem mem_homes_iff_livesUnder {x : PlanNode} (member : x ∈ r.active)
    (gated : r.gateway x.id x.subnet ≠ "") {m : String} : m ∈ r.homes x ↔ r.LivesUnder x m := by
  change (m ∈ if r.ownAttachments x ≠ [] then r.ownAttachments x
    else if r.gateway x.id x.subnet ≠ "" then [r.gateway x.id x.subnet] else []) ↔ _
  rw [LivesUnder]
  by_cases none : r.ownAttachments x = []
  · rw [if_pos none, if_neg (not_not_intro none), if_pos gated, List.mem_singleton,
      gateway_eq wf member]
  · rw [if_neg none, if_pos none]

end Roster

variable {mesh : Mesh} (wf : mesh.WellFormed) (links : mesh.AttachmentsOnly)
  (noLan : mesh.NoLanRoutes) (disjoint : mesh.DisjointSubnets) (order : RangeOrder Site)

section SameSubnet

include wf links noLan disjoint

/-! ## Lookups of mothers -/

/-- A mother sends to a node that owns its own host there, and accepts its packets. -/
theorem lookup_mother {m y : PlanNode} (inM : m ∈ mesh.roster.active)
    (mother : m.mother = true) (inY : y ∈ mesh.roster.active)
    (owned : mesh.roster.OwnedBy m y y.id) (wide : y.subnet.bits < 32) :
    (planMesh order mesh).lookup m.id y.addr = some y.id := by
  rw [Plan.lookup_eq_some wf]
  refine ⟨y.host, .host inM mother inY owned,
    (contains_host_iff wf.roster inY inY).mpr rfl, ?_⟩
  intro c q carries covers different
  rw [bits_host wf.roster inY]
  cases (covers_of_carries wf links disjoint inM inY carries covers).2 mother with
  | host other => exact (different (other.unique wf.roster owned)).elim
  | lan claimed =>
    obtain ⟨inZ, _, routed⟩ := lanClaimant_eq_some claimed
    rw [noLan _ inZ] at routed
    cases routed
  | subnet gated => exact wide
  | warm motherY connected => exact (different rfl).elim

section

variable {x y : PlanNode} (inX : x ∈ mesh.roster.active) (inY : y ∈ mesh.roster.active)
  (gatedX : mesh.roster.gateway x.id x.subnet ≠ "")

include inX gatedX

omit links noLan disjoint in
/-- A dialable mother owns the children of its subnet that have a gateway there. -/
theorem ownedBy_mother {m : PlanNode} (inM : m ∈ mesh.roster.active)
    (mother : m.mother = true) (served : m.subnet = x.subnet) (exposed : m.exposed = true) :
    mesh.roster.OwnedBy m x x.id := by
  have child := not_mother_of_gateway wf.roster inX gatedX
  refine ⟨?_, .inr ⟨?_, .inl ⟨.inr (.inr ⟨served.symm, ?_⟩), rfl⟩⟩⟩
  · exact (wf.roster.apart inM inX mother child).symm
  · exact fun both => x.clash both.1 child
  · exact dials_mother wf.roster inX gatedX inM mother served exposed

variable (gatedY : mesh.roster.gateway y.id y.subnet ≠ "")

include inY gatedY

/-- The entries of a child that cover the address of another one. -/
theorem child_entry {c : String} {q : Prefix} (carries : mesh.roster.Carries x.id c q)
    (covers : q.contains y.addr = true) :
    c = mesh.roster.gateway x.id y.subnet ∧ q = y.subnet ∨
      (y.subnet = x.subnet ∧ mesh.roster.gateway x.id x.subnet ∉ mesh.roster.homes y ∧
        mesh.roster.pinHome y = some c) ∨ y.subnet ≠ x.subnet ∧ c = mesh.roster.crossVia x y := by
  have childX := not_mother_of_gateway wf.roster inX gatedX
  have childY := not_mother_of_gateway wf.roster inY gatedY
  cases (covers_of_carries wf links disjoint inX inY carries covers).1 childX with
  | subnet gated => exact .inl ⟨rfl, rfl⟩
  | pin gated child close away home => exact .inr (.inl ⟨close, away, home⟩)
  | lan gated routed =>
    rw [noLan x inX] at routed
    cases routed
  | cross child apart routed moved connected => exact .inr (.inr ⟨apart, rfl⟩)
  | warm mother connected => exact y.clash mother childY

/-! ## One subnet -/

/-- A child sends to its own gateway if the other child lives there, else to the gateway of
the other child. -/
theorem lookup_sameSubnet (different : x ≠ y) (close : y.subnet = x.subnet) :
    (planMesh order mesh).lookup x.id y.addr =
      some (if mesh.roster.gateway x.id x.subnet ∈ mesh.roster.homes y
        then mesh.roster.gateway x.id x.subnet else mesh.roster.gateway y.id y.subnet) := by
  have pinned : mesh.roster.pinHome y = some (mesh.roster.gateway y.id y.subnet) := by
    rw [pinHome, if_pos gatedY]
  have entry {c : String} {q : Prefix} := child_entry wf links noLan disjoint inX inY gatedX gatedY
    (c := c) (q := q)
  rw [Plan.lookup_eq_some wf]
  split
  · next shared =>
    refine ⟨x.subnet, .subnet inX gatedX, ?_, ?_⟩
    · rw [← close]
      exact contains_subnet wf.roster inY
    intro c q carries covers other
    rcases entry carries covers with ⟨own, _⟩ | ⟨_, away, _⟩ | ⟨apart, _⟩
    · exact (other (by rw [own, close])).elim
    · exact (away shared).elim
    · exact (apart close).elim
  · next separate =>
    refine ⟨y.host, .pin inX gatedX inY (not_mother_of_gateway wf.roster inY gatedY) close
      ?_ separate pinned, (contains_host_iff wf.roster inY inY).mpr rfl, ?_⟩
    · intro same
      exact different (wf.roster.distinct x inX y inY same.symm)
    intro c q carries covers other
    rw [bits_host wf.roster inY]
    rcases entry carries covers with ⟨_, rfl⟩ | ⟨_, _, home⟩ | ⟨apart, _⟩
    · exact bits_subnet_lt wf.roster inY inX close.symm different
    · exact (other (Option.some.inj (home.symm.trans pinned))).elim
    · exact (apart close).elim

end

/-- **Delivery inside a subnet.** A packet between two children of one subnet that both have a
gateway there arrives exactly when both choose the same mother for it. -/
theorem sameSubnet_reaches_iff {x y : PlanNode} (inX : x ∈ mesh.roster.active)
    (inY : y ∈ mesh.roster.active) (different : x ≠ y) (close : y.subnet = x.subnet)
    (gatedX : mesh.roster.gateway x.id x.subnet ≠ "")
    (gatedY : mesh.roster.gateway y.id y.subnet ≠ "") :
    (planMesh order mesh).Reaches x y ↔ mesh.roster.ShareMother x y := by
  have sends := lookup_sameSubnet wf links noLan disjoint order inX inY gatedX gatedY different close
  have checks := lookup_sameSubnet wf links noLan disjoint order inY inX gatedY gatedX
    different.symm close.symm
  -- Whichever of the two gateways the packet takes, it is a dialable mother of the subnet,
  -- and such a mother owns both children.
  have through (via : String) (mother : ∃ m ∈ mesh.roster.active, m.mother = true ∧
      m.subnet = x.subnet ∧ m.exposed = true ∧ m.id = via) :
      via ≠ y.id ∧ (planMesh order mesh).lookup via x.addr = some x.id ∧
        (planMesh order mesh).lookup via y.addr = some y.id := by
    obtain ⟨m, inM, mother, served, exposed, rfl⟩ := mother
    refine ⟨?_, ?_, ?_⟩
    · exact wf.roster.apart inM inY mother (not_mother_of_gateway wf.roster inY gatedY)
    · exact lookup_mother wf links noLan disjoint order inM mother inX
        (ownedBy_mother wf inX gatedX inM mother served exposed)
        (bits_subnet_lt wf.roster inX inY close different.symm)
    · exact lookup_mother wf links noLan disjoint order inM mother inY
        (ownedBy_mother wf inY gatedY inM mother (served.trans close.symm) exposed)
        (bits_subnet_lt wf.roster inY inX close.symm different)
  have gateX := gateway_own wf.roster inX gatedX
  have gateY := gateway_own wf.roster inY gatedY
  obtain ⟨between, accepts, forwards⟩ := through (if mesh.roster.gateway x.id x.subnet ∈
      mesh.roster.homes y then mesh.roster.gateway x.id x.subnet
      else mesh.roster.gateway y.id y.subnet) (by
    split
    · obtain ⟨m, inM, mother, served, exposed, _, named⟩ := gateX
      exact ⟨m, inM, mother, served, exposed, named⟩
    · obtain ⟨m, inM, mother, served, exposed, _, named⟩ := gateY
      exact ⟨m, inM, mother, served.trans close, exposed, named⟩)
  have away : x.id ≠ y.id := fun same => different (wf.roster.distinct x inX y inY same)
  rw [Plan.Reaches, delivers_via_iff away between sends accepts forwards]
  change (planMesh order mesh).lookup y.id x.addr = _ ↔ _
  have homeX := gateway_mem_homes wf.roster inX gatedX
  have homeY := gateway_mem_homes wf.roster inY gatedY
  rw [checks, Option.some.injEq, Roster.ShareMother, Xor,
    ← mem_homes_iff_livesUnder wf.roster inX gatedX,
    ← mem_homes_iff_livesUnder wf.roster inY gatedY,
    ← gateway_eq wf.roster inX, ← gateway_eq wf.roster inY]
  grind

end SameSubnet

/-- Under one mother the children reach each other. -/
theorem oneHome_reached : ∃ x y : PlanNode, x ≠ y ∧ x ∈ oneHome.roster.active ∧
    y ∈ oneHome.roster.active ∧ (planMesh (.stored Site) oneHome).Reaches x y := by
  have different : oneHome.activeAt 1 (by decide +kernel) ≠
      oneHome.activeAt 2 (by decide +kernel) := by decide +kernel
  refine ⟨_, _, different, oneHome.activeAt_mem _, oneHome.activeAt_mem _, ?_⟩
  exact (sameSubnet_reaches_iff (by decide +kernel) (by decide +kernel) (by decide +kernel)
    (by decide +kernel) (.stored Site) (oneHome.activeAt_mem _) (oneHome.activeAt_mem _) different
    (by decide +kernel) (by decide +kernel) (by decide +kernel)).mpr (.inl (by decide +kernel))

/-- A packet that an intermediate node hands to its target is lost when the target expects it from
another peer. -/
theorem not_reaches_of_lookups (plan : Plan) (same : plan = planMesh (.stored Site) mesh)
    {x y : PlanNode} (via : String) (away : x.id ≠ y.id) (between : via ≠ y.id)
    (lookups : plan.lookup x.id y.addr = some via ∧ plan.lookup via x.addr = some x.id ∧
      plan.lookup via y.addr = some y.id ∧ plan.lookup y.id x.addr ≠ some via) :
    ¬ (planMesh order mesh).Reaches x y := by
  subst same
  rw [planMesh_order mesh (.stored Site) order] at lookups
  obtain ⟨sends, accepts, forwards, refuses⟩ := lookups
  intro reaches
  exact refuses ((delivers_via_iff away between sends accepts forwards).mp reaches)

/-- A subnet with two dialable mothers and two children, each attached to another mother. -/
def twoHomes : Mesh :=
  Mesh.sample [
    .sample "00000000-0000-4000-8000-0000000000a1" "10.1.0.1/24" 51820 "192.0.2.1:51820"
      ["10.1.0.0/24"],
    .sample "00000000-0000-4000-8000-0000000000a2" "10.1.0.2/24" 51820 "192.0.2.2:51820"
      ["10.1.0.0/24"],
    .sample "00000000-0000-4000-8000-0000000000b1" "10.1.0.11/24" 0 "" ["10.1.0.0/24"],
    .sample "00000000-0000-4000-8000-0000000000b2" "10.1.0.12/24" 0 "" ["10.1.0.0/24"]]
    [⟨"00000000-0000-4000-8000-0000000000b1", "00000000-0000-4000-8000-0000000000a1", [], 0⟩,
      ⟨"00000000-0000-4000-8000-0000000000b2", "00000000-0000-4000-8000-0000000000a2", [], 0⟩] none

/-- The two children do not reach each other: each sends through the other's mother, and expects
packets through its own. -/
theorem twoHomes_not_reached :
    Store.validateMesh twoHomes = .ok () ∧ twoHomes.AttachmentsOnly ∧ twoHomes.NoLanRoutes ∧
      twoHomes.DisjointSubnets ∧
      (∀ pn ∈ twoHomes.roster.active, pn.subnet ∈ routePrefixes pn.n.routes) ∧
      ∃ x ∈ twoHomes.roster.active, ∃ y ∈ twoHomes.roster.active, x ≠ y ∧ y.subnet = x.subnet ∧
        x.mother = false ∧ y.mother = false ∧ twoHomes.roster.gateway x.id x.subnet ≠ "" ∧
        twoHomes.roster.gateway y.id y.subnet ≠ "" ∧
        ∀ order : RangeOrder Site, ¬ (planMesh order twoHomes).Reaches x y := by
  have accepted : Store.validateMesh twoHomes = .ok () := by decide +kernel
  refine ⟨accepted, by decide +kernel, by decide +kernel, by decide +kernel, by decide +kernel,
    twoHomes.activeAt 2 (by decide +kernel), twoHomes.activeAt_mem _,
    twoHomes.activeAt 3 (by decide +kernel), twoHomes.activeAt_mem _, by decide +kernel,
    by decide +kernel, by decide +kernel, by decide +kernel, by decide +kernel,
    by decide +kernel, fun order => ?_⟩
  exact not_reaches_of_lookups order _ rfl "00000000-0000-4000-8000-0000000000a2"
    (by decide +kernel) (by decide +kernel) (by decide +kernel)

/-! ## Two subnets -/

section CrossSubnet

include wf

section

variable {x y : PlanNode} (inX : x ∈ mesh.roster.active) (inY : y ∈ mesh.roster.active)
  (gatedX : mesh.roster.gateway x.id x.subnet ≠ "") (routed : mesh.roster.crossVia x y ≠ "")

include inX inY gatedX routed

theorem connected_crossVia : mesh.roster.Connected x.id (mesh.roster.crossVia x y) := by
  rcases crossVia_cases x y with same | same
  · rw [same] at routed ⊢
    exact .inl (dials_gateway wf.roster inX routed)
  · rw [same] at routed ⊢
    rcases gateway_cases wf.roster inY routed with
      ⟨m, inM, mother, served, exposed, _, named⟩ | ⟨relay, _⟩
    · rw [← named]
      exact .inl (dials_mother wf.roster inX gatedX inM mother served exposed)
    · rw [relay]
      exact .inl (.served inX inY relay)

omit inY routed in
theorem wide_of_gateway : x.subnet.bits < 32 := by
  obtain ⟨m, inM, _, served, _, different, _⟩ := gateway_own wf.roster inX gatedX
  exact bits_subnet_lt wf.roster inX inM served fun same => different (by rw [same])

omit gatedX routed in
theorem crossVia_ne_child (child : y.mother = false) : mesh.roster.crossVia x y ≠ y.id := by
  have outside {z : PlanNode} (inZ : z ∈ mesh.roster.active) {sub : Prefix} :
      mesh.roster.gateway z.id sub ≠ y.id :=
    fun same => y.clash (subnet_of_gateway wf.roster inY inZ same).1 child
  rcases crossVia_cases x y with same | same
  · rw [same]
    exact outside inX
  · rw [same]
    exact outside inY

include links noLan disjoint

theorem lookup_crossVia :
    (planMesh order mesh).lookup (mesh.roster.crossVia x y) x.addr = some x.id := by
  have connected := connected_crossVia wf inX inY gatedX routed
  have wide := wide_of_gateway wf inX gatedX
  by_cases relay : mesh.roster.crossVia x y = relayNodeID
  · rw [relay] at connected ⊢
    exact lookup_relay wf links order inX connected.symm
  rcases crossVia_cases x y with same | same
  · rw [same] at routed relay ⊢
    obtain ⟨m, inM, mother, served, _, _, named⟩ :=
      (gateway_cases wf.roster inX routed).resolve_right fun facts => relay facts.1
    rw [← named]
    refine lookup_mother wf links noLan disjoint order inM mother inX ?_ wide
    exact (ownedBy_of_gateway wf.roster inM inX (by rw [served, named])).mpr rfl
  · rw [same] at routed relay ⊢
    obtain ⟨m, inM, mother, served, exposed, _, named⟩ :=
      (gateway_cases wf.roster inY routed).resolve_right fun facts => relay facts.1
    rw [← named]
    exact lookup_mother wf links noLan disjoint order inM mother inX
      (ownedBy_mother wf inX gatedX inM mother served exposed) wide

variable (gatedY : mesh.roster.gateway y.id y.subnet ≠ "") (apart : y.subnet ≠ x.subnet)

include gatedY apart

/-- A child sends to a child of another subnet through the gateway of the pair. -/
theorem lookup_crossSubnet :
    (planMesh order mesh).lookup x.id y.addr = some (mesh.roster.crossVia x y) := by
  have childX := not_mother_of_gateway wf.roster inX gatedX
  have childY := not_mother_of_gateway wf.roster inY gatedY
  have connected := connected_crossVia wf inX inY gatedX routed
  have entry {c : String} {q : Prefix} := child_entry wf links noLan disjoint inX inY gatedX gatedY
    (c := c) (q := q)
  rw [Plan.lookup_eq_some wf]
  by_cases own : mesh.roster.crossVia x y = mesh.roster.gateway x.id y.subnet
  · refine ⟨y.subnet, ?_, contains_subnet wf.roster inY, ?_⟩
    · rw [own]
      exact .subnet inX (own ▸ routed)
    intro c q carries covers other
    rcases entry carries covers with ⟨gate, _⟩ | ⟨close, _⟩ | ⟨_, via⟩
    · exact (other (gate.trans own.symm)).elim
    · exact (apart close).elim
    · exact (other via).elim
  · refine ⟨y.host, .cross inX inY childX childY apart routed own connected,
      (contains_host_iff wf.roster inY inY).mpr rfl, ?_⟩
    intro c q carries covers other
    rw [bits_host wf.roster inY]
    rcases entry carries covers with ⟨_, rfl⟩ | ⟨close, _⟩ | ⟨_, via⟩
    · exact wide_of_gateway wf inY gatedY
    · exact (apart close).elim
    · exact (other via).elim

theorem reaches_crossSubnet : (planMesh order mesh).Reaches x y := by
  have away : x.id ≠ y.id := fun same =>
    apart (by rw [wf.roster.distinct x inX y inY same])
  have back : mesh.roster.crossVia y x = mesh.roster.crossVia x y := crossVia_comm away.symm
  have between := crossVia_ne_child wf inX inY
    (not_mother_of_gateway wf.roster inY gatedY)
  have sends := lookup_crossSubnet wf links noLan disjoint order inX inY gatedX routed gatedY apart
  have accepts := lookup_crossVia wf links noLan disjoint order inX inY gatedX routed
  have forwards := lookup_crossVia wf links noLan disjoint order inY inX gatedY (back ▸ routed)
  have checks := lookup_crossSubnet wf links noLan disjoint order inY inX gatedY (back ▸ routed)
    gatedX apart.symm
  rw [back] at forwards checks
  exact (delivers_via_iff away between sends accepts forwards).mpr checks

end

include links noLan disjoint

/-- **Delivery between subnets.** Packets between two children of different subnets arrive in both
directions, over one gateway, when one has a gateway for the other's subnet. -/
theorem crossSubnet_reaches {x y : PlanNode} (inX : x ∈ mesh.roster.active)
    (inY : y ∈ mesh.roster.active) (apart : y.subnet ≠ x.subnet)
    (gatedX : mesh.roster.gateway x.id x.subnet ≠ "")
    (gatedY : mesh.roster.gateway y.id y.subnet ≠ "")
    (routed : mesh.roster.gateway x.id y.subnet ≠ "" ∨ mesh.roster.gateway y.id x.subnet ≠ "") :
    (planMesh order mesh).Reaches x y ∧ (planMesh order mesh).Reaches y x ∧
      ∃ via, (planMesh order mesh).lookup x.id y.addr = some via ∧
        (planMesh order mesh).lookup y.id x.addr = some via := by
  have away : x.id ≠ y.id := fun same =>
    apart (by rw [wf.roster.distinct x inX y inY same])
  have back : mesh.roster.crossVia y x = mesh.roster.crossVia x y := crossVia_comm away.symm
  have there : mesh.roster.crossVia x y ≠ "" := (pairVia_cases x.id _ y.id _).2.1 routed
  refine ⟨reaches_crossSubnet wf links noLan disjoint order inX inY gatedX there gatedY apart,
    reaches_crossSubnet wf links noLan disjoint order inY inX gatedY (back ▸ there) gatedX
      apart.symm, mesh.roster.crossVia x y,
    lookup_crossSubnet wf links noLan disjoint order inX inY gatedX there gatedY apart, ?_⟩
  rw [← back]
  exact lookup_crossSubnet wf links noLan disjoint order inY inX gatedY (back ▸ there) gatedX
    apart.symm

end CrossSubnet

/-- Two subnets with a mother and a child each; only the second child routes into the
subnet of the first. -/
def twoSubnets : Mesh :=
  Mesh.sample [
    .sample "00000000-0000-4000-8000-0000000000a1" "10.1.0.1/24" 51820 "192.0.2.1:51820"
      ["10.1.0.0/24"],
    .sample "00000000-0000-4000-8000-0000000000a2" "10.2.0.1/24" 51820 "192.0.2.2:51820"
      ["10.2.0.0/24"],
    .sample "00000000-0000-4000-8000-0000000000b1" "10.1.0.11/24" 0 "" ["10.1.0.0/24"],
    .sample "00000000-0000-4000-8000-0000000000b2" "10.2.0.12/24" 0 ""
      ["10.1.0.0/24", "10.2.0.0/24"]] [] none

/-- The two children reach each other through the mother of the first subnet. -/
theorem twoSubnets_reached : ∃ x ∈ twoSubnets.roster.active, ∃ y ∈ twoSubnets.roster.active,
    x ≠ y ∧ (planMesh (.stored Site) twoSubnets).Reaches x y ∧
      (planMesh (.stored Site) twoSubnets).Reaches y x := by
  have delivered := crossSubnet_reaches (by decide +kernel) (by decide +kernel) (by decide +kernel)
    (by decide +kernel) (.stored Site) (twoSubnets.activeAt_mem (i := 2) (by decide +kernel))
    (twoSubnets.activeAt_mem (i := 3) (by decide +kernel)) (by decide +kernel) (by decide +kernel)
    (by decide +kernel) (by decide +kernel)
  exact ⟨_, twoSubnets.activeAt_mem _, _, twoSubnets.activeAt_mem _, by decide +kernel,
    delivered.1, delivered.2.1⟩

end Core
