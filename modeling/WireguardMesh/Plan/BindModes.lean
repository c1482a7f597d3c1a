import WireguardMesh.Plan.Tables
import WireguardMesh.Store.Validate

/-! # Bind modes of peers

A mother listens in UDP or in TCP mode, a child takes the mode of the first mother it is
linked to, and the relay is TCP only. Peers of different modes cannot handshake. The mesh of
mothers and the use of the relay as a gateway respect the modes; the other passes that make peers
do not look at them. All peers agree exactly when those do (`modes_agree_iff`).
-/

namespace Core

open GoText Net Roster

/-- The UDP flag of a planned node; the relay counts as TCP. -/
def Roster.mode (r : Roster) (id : String) : Bool :=
  if id = relayNodeID then false else (r.node? id).any r.udp

/-- The mothers a node is linked to, by the order of the links. -/
def Mesh.mothersOf (mesh : Mesh) (id : String) : List Node :=
  (mesh.links.filter fun l => l.fromNodeID = id).filterMap fun l =>
    (mesh.findNode l.toNodeID).filter Node.isMagnetParent

/-- No child is linked to mothers of different modes. -/
def Mesh.UnmixedLinks (mesh : Mesh) : Prop :=
  ∀ n ∈ mesh.nodes, n.isMagnetParent = false → ∀ m ∈ mesh.mothersOf n.id,
    ∀ m' ∈ mesh.mothersOf n.id, m.udpMode = m'.udpMode

instance (mesh : Mesh) : Decidable mesh.UnmixedLinks :=
  inferInstanceAs (Decidable (∀ n ∈ mesh.nodes, _))

/-- The conditions under which the passes that do not look at modes join equal modes. -/
structure Roster.ModesFit (r : Roster) : Prop where
  /-- The mothers of a cluster have the mode of the member a child is linked to. -/
  siblings : ∀ l ∈ r.mesh.links, ∀ x m, r.linkEnds l = some (x, m) → x.mother = false →
    m.mother = true → ∀ s ∈ r.active, s.mother = true → s.n.cluster ≠ "" →
      s.n.cluster = m.n.cluster → s.n.udpMode = m.n.udpMode
  /-- The mothers that are gateway candidates of a node have its mode. -/
  candidates : ∀ pn ∈ r.active, ∀ sub ∈ r.vpnRoutes pn, ∀ m ∈ r.active,
    m.id ∈ r.candidates pn sub → r.udp pn = m.n.udpMode
  /-- The dialable mothers of the subnet of a child that has a gateway there have its mode. -/
  sameSubnet : ∀ pn ∈ r.active, pn.mother = false → r.prefers pn pn.subnet ≠ "" →
    ∀ m ∈ r.active, m.mother = true → m.subnet = pn.subnet → m.exposed = true →
      r.udp pn = m.n.udpMode
  /-- Generic links join equal modes. -/
  links : ∀ link ∈ r.generic, r.udp link.1 = r.udp link.2.1
  /-- The nodes of a subnet that some node reaches through the relay are TCP. -/
  relayed : ∀ pn ∈ r.active, ∀ z ∈ r.active, r.prefers z pn.subnet = relayNodeID →
    r.udp pn = false

namespace Roster

variable {mesh : Mesh} (wf : mesh.WellFormed)

include wf

theorem mode_of_mem {pn : PlanNode} (member : pn ∈ mesh.roster.active) :
    mesh.roster.mode pn.id = mesh.roster.udp pn := by
  rw [mode, if_neg (wf.roster.named pn member).2, node?_of_mem wf.roster member, Option.any_some]

omit wf in
theorem ownBindConfig_mode (n : Node) (defaults : String) :
    (n.ownBindConfig defaults).2 = n.udpMode := by
  rw [Node.ownBindConfig]
  split
  · next on => exact on.symm
  · next off => split <;> exact (Bool.eq_false_iff.mpr off).symm

omit wf in
theorem udp_of_mother {m : PlanNode} (inM : m ∈ mesh.roster.active) (mother : m.mother = true) :
    mesh.roster.udp m = m.n.udpMode := by
  rw [mother_of_mem inM] at mother
  rw [udp, resolveBindConfig, if_pos mother, ownBindConfig_mode]

theorem udp_of_link (unmixed : mesh.UnmixedLinks) {l : Link} (linked : l ∈ mesh.links)
    {x m : PlanNode} (ends : mesh.roster.linkEnds l = some (x, m)) (child : x.mother = false)
    (mother : m.mother = true) : mesh.roster.udp x = m.n.udpMode := by
  obtain ⟨inX, inM, sourceId, targetId, _⟩ := linkEnds_mem wf.roster linked ends
  rw [mother_of_mem inX] at child
  rw [mother_of_mem inM] at mother
  have listed : m.n ∈ mesh.mothersOf x.n.id := by
    refine List.mem_filterMap.mpr ⟨l, List.mem_filter.mpr ⟨linked, decide_eq_true sourceId.symm⟩, ?_⟩
    rw [← targetId, wf.findNode_of_mem inM, Option.filter_some, if_pos mother]
  have first : mesh.firstMother x.n.id = (mesh.mothersOf x.n.id).head? := by
    rw [Mesh.mothersOf, List.head?_filterMap]
    rfl
  cases head : (mesh.mothersOf x.n.id).head? with
  | none =>
    rw [List.head?_eq_none_iff.mp head] at listed
    cases listed
  | some chosen =>
    rw [head] at first
    have same := unmixed x.n (mem_activeNodes.mp inX).1 child chosen (List.mem_of_mem_head? head)
      m.n listed
    have roster : mesh.roster.mesh = mesh := rfl
    rw [udp, resolveBindConfig, if_neg (by rw [child]; decide), roster, first, ← same]
    exact ownBindConfig_mode chosen ""

theorem udp_of_attached (unmixed : mesh.UnmixedLinks) (fit : mesh.roster.ModesFit) {x m : PlanNode}
    (inX : x ∈ mesh.roster.active) (inM : m ∈ mesh.roster.active)
    (attached : mesh.roster.isAttached x.id m.id = true) : mesh.roster.udp x = m.n.udpMode := by
  obtain ⟨l, linked, entry⟩ := isAttached_iff.mp attached
  rw [linkAttachments] at entry
  split at entry
  · next source target ends =>
    split at entry
    · next kinds =>
      obtain ⟨id, choice, same⟩ := List.mem_map.mp entry
      obtain ⟨sourceId, rfl⟩ := Prod.mk.inj same
      obtain ⟨inSource, inTarget, _⟩ := linkEnds_mem wf.roster linked ends
      obtain rfl := wf.roster.distinct source inSource x inX sourceId
      rw [udp_of_link wf unmixed linked ends kinds.1 kinds.2]
      rcases List.mem_cons.mp choice with own | sibling
      · rw [wf.roster.distinct m inM target inTarget own]
      · obtain ⟨s, inS, motherS, named, cluster, sId⟩ := mem_clusterMothers.mp sibling
        obtain rfl := wf.roster.distinct s inS m inM sId
        exact (fit.siblings l linked source target ends kinds.1 kinds.2 s inS motherS named
          cluster).symm
    · cases entry
  · cases entry

end Roster

section

variable {mesh : Mesh} (wf : mesh.WellFormed) (unmixed : mesh.UnmixedLinks)

include wf unmixed

theorem mode_of_dials (fit : mesh.roster.ModesFit) {a b : String} (dials : mesh.roster.Dials a b) :
    mesh.roster.mode a = mesh.roster.mode b := by
  have relayMode : mesh.roster.mode relayNodeID = false := if_pos rfl
  cases dials with
  | attached attached =>
    obtain ⟨x, inX, m, inM, rfl, rfl, _, mother⟩ := isAttached_cases wf.roster attached
    rw [mode_of_mem wf inX, mode_of_mem wf inM,
      udp_of_attached wf unmixed fit inX inM attached, udp_of_mother inM mother]
  | candidate member routed candidate used =>
    rw [mode_of_mem wf member]
    rcases mem_candidates wf.roster candidate with
      ⟨m, inM, mother, _, _, _, rfl⟩ | ⟨rfl, _, _, tcp⟩
    · rw [mode_of_mem wf inM, udp_of_mother inM mother]
      exact fit.candidates _ member _ routed m inM candidate
    · rw [relayMode, tcp]
  | sameSubnet member child gated inM mother served exposed =>
    rw [mode_of_mem wf member, mode_of_mem wf inM, udp_of_mother inM mother]
    rw [gateway_eq wf.roster member] at gated
    exact fit.sameSubnet _ member child gated _ inM mother served exposed
  | mesh edge _ =>
    obtain ⟨pa, inA, pb, inB, rfl, rfl, _, motherA, motherB, _, same, _⟩ :=
      meshEdge_cases wf.roster edge
    rw [mode_of_mem wf inA, mode_of_mem wf inB, udp_of_mother inA motherA,
      udp_of_mother inB motherB, same]
  | generic linked =>
    obtain ⟨inSource, inTarget, _⟩ := mem_generic wf.roster linked
    rw [mode_of_mem wf inSource, mode_of_mem wf inTarget]
    exact fit.links _ linked
  | served member user through =>
    rw [gateway_eq wf.roster user] at through
    rw [mode_of_mem wf member, relayMode]
    exact fit.relayed _ member _ user through

/-- **Agreement of modes.** In a mesh whose children are linked to mothers of one mode, all peers
have the same mode exactly when the passes blind to modes join equal ones. -/
theorem modes_agree_iff (order : RangeOrder Site) :
    (∀ a b, hasPeer (planMesh order mesh).peers a b = true →
      mesh.roster.mode a = mesh.roster.mode b) ↔ mesh.roster.ModesFit := by
  simp only [hasPeer_planMesh, hasPeer_resolved wf.roster]
  constructor
  · intro agree
    have equal {a b : PlanNode} (inA : a ∈ mesh.roster.active) (inB : b ∈ mesh.roster.active)
        (dials : mesh.roster.Dials a.id b.id) : mesh.roster.udp a = mesh.roster.udp b := by
      rw [← mode_of_mem wf inA, ← mode_of_mem wf inB]
      exact agree _ _ (.inl dials)
    refine ⟨?_, ?_, ?_, ?_, ?_⟩
    · intro l linked x m ends child mother s inS motherS named cluster
      obtain ⟨inX, inM, _⟩ := linkEnds_mem wf.roster linked ends
      have attached : mesh.roster.isAttached x.id s.id = true := by
        refine isAttached_iff.mpr ⟨l, linked, ?_⟩
        rw [linkAttachments, ends]
        dsimp only
        rw [if_pos ⟨child, mother⟩]
        exact List.mem_map.mpr ⟨s.id, .tail _ (mem_clusterMothers.mpr
          ⟨s, inS, motherS, named, cluster, rfl⟩), rfl⟩
      rw [← udp_of_mother inS motherS, ← equal inX inS (.attached attached)]
      exact udp_of_link wf unmixed linked ends child mother
    · intro pn member sub routed m inM candidate
      rcases mem_candidates wf.roster candidate with
        ⟨g, inG, mother, _, _, _, same⟩ | ⟨relay, _⟩
      · rw [wf.roster.distinct g inG m inM same] at mother
        rw [← udp_of_mother inM mother]
        exact equal member inM (.candidate member routed candidate fun relay =>
          ((wf.roster.named m inM).2 relay).elim)
      · exact ((wf.roster.named m inM).2 relay).elim
    · intro pn member child gated m inM mother served exposed
      rw [← gateway_eq wf.roster member] at gated
      rw [← udp_of_mother inM mother]
      exact equal member inM (.sameSubnet member child gated inM mother served exposed)
    · rintro ⟨source, target, l⟩ linked
      obtain ⟨inSource, inTarget, _⟩ := mem_generic wf.roster linked
      exact equal inSource inTarget (.generic linked)
    · intro pn member z user through
      rw [← gateway_eq wf.roster user] at through
      rw [← mode_of_mem wf member, agree _ _ (.inl (.served member user through))]
      exact if_pos rfl
  · rintro fit a b (dials | dials)
    · exact mode_of_dials wf unmixed fit dials
    · exact (mode_of_dials wf unmixed fit dials).symm

end

/-- In a single family of TCP nodes all peers agree. -/
theorem oneHome_modes : oneHome.UnmixedLinks ∧ ∀ a b,
    hasPeer (planMesh (.stored Site) oneHome).peers a b = true →
      oneHome.roster.mode a = oneHome.roster.mode b := by
  have wf : oneHome.WellFormed := by decide +kernel
  have unmixed : oneHome.UnmixedLinks := by decide +kernel
  have tcp : ∀ pn ∈ oneHome.roster.active, oneHome.roster.udp pn = false ∧
      pn.n.udpMode = false := by decide +kernel
  refine ⟨unmixed, (modes_agree_iff wf unmixed (.stored Site)).mpr ⟨?_, ?_, ?_, ?_, ?_⟩⟩
  · intro l linked x m ends _ _ s inS _ _ _
    obtain ⟨_, inM, _⟩ := linkEnds_mem wf.roster linked ends
    rw [(tcp s inS).2, (tcp m inM).2]
  · intro pn member _ _ m inM _
    rw [(tcp pn member).1, (tcp m inM).2]
  · intro pn member _ _ m inM _ _ _
    rw [(tcp pn member).1, (tcp m inM).2]
  · rintro ⟨source, target, l⟩ linked
    obtain ⟨inSource, inTarget, _⟩ := mem_generic wf.roster linked
    rw [(tcp source inSource).1, (tcp target inTarget).1]
  · intro pn member _ _ _
    exact (tcp pn member).1

/-- A UDP mother, and a child of its subnet without attachments. -/
def udpMother : Mesh :=
  Mesh.sample [
    { Node.sample "00000000-0000-4000-8000-0000000000a1" "10.1.0.1/24" 51820 "192.0.2.1:51820"
        ["10.1.0.0/24"] with udpMode := true },
    .sample "00000000-0000-4000-8000-0000000000b1" "10.1.0.11/24" 0 "" ["10.1.0.0/24"]] [] none

/-- The child is TCP but has the UDP mother as its gateway, so the two are peers. -/
theorem udpMother_disagrees :
    Store.validateMesh udpMother = .ok () ∧ udpMother.UnmixedLinks ∧ ∃ a b,
      udpMother.roster.mode a ≠ udpMother.roster.mode b ∧ ∀ order : RangeOrder Site,
        hasPeer (planMesh order udpMother).peers a b = true := by
  have accepted : Store.validateMesh udpMother = .ok () := by decide +kernel
  refine ⟨accepted, by decide +kernel, "00000000-0000-4000-8000-0000000000b1",
    "00000000-0000-4000-8000-0000000000a1", by decide +kernel, fun order => ?_⟩
  rw [planMesh_order _ order (.stored Site)]
  decide +kernel

end Core
