import WireguardMesh.Core.Compile

/-! # What planning reads

`PlanMesh` reads some fields of the nodes, the links, the gateway choices and the relay; of
the endpoint it reads only whether there is one to dial. `Mesh.keyed` blanks everything else
and puts other maps of path choices in place. The plans of a mesh and of the blanked one have the
same peers, as long as the two maps of path choices agree on their entries (`peers_keyed`).
-/

namespace Core

open GoText Net Roster

/-- A node without the fields that planning does not read, with one endpoint in place of all that
can be dialed. -/
def Node.keyed (n : Node) : Node :=
  { n with
    role := .other "", privateKey := "", mtu := 0, token := "", interface := "",
    pollInterval := "", publicV4 := "", endpoint := if n.dialEndpoint = "" then "" else "host:1" }

/-- A mesh without what planning does not read, and with given path choices. -/
def Mesh.keyed (mesh : Mesh) (paths : PathChoices) : Mesh where
  revision := 0
  nodes := mesh.nodes.map Node.keyed
  links := mesh.links
  forwards := []
  paths := paths
  relay := mesh.relay
  standby := ∅

/-- The gateway the Master chose for a node and a printed subnet, empty for none. -/
def PathChoices.choice (paths : PathChoices) (id sub : String) : String :=
  (paths.getD id ∅).getD sub ""

/-- A planned node whose node is blanked. -/
def PlanNode.keyed (pn : PlanNode) : PlanNode :=
  { pn with n := pn.n.keyed }

/-- A roster of blanked nodes. -/
def Roster.keyed (r : Roster) (paths : PathChoices) : Roster where
  mesh := r.mesh.keyed paths
  active := r.active.map PlanNode.keyed
  relay := r.relay.map PlanNode.keyed

@[simp] theorem Node.keyed_id (n : Node) : n.keyed.id = n.id := by
  rfl

@[simp] theorem Node.keyed_disabled (n : Node) : n.keyed.disabled = n.disabled := by
  rfl

@[simp] theorem Node.keyed_isMagnetParent (n : Node) :
    n.keyed.isMagnetParent = n.isMagnetParent := by
  rfl

@[simp] theorem Node.keyed_ownBindConfig (n : Node) (defaults : String) :
    n.keyed.ownBindConfig defaults = n.ownBindConfig defaults := by
  rfl

@[simp] theorem PlanNode.keyed_n (pn : PlanNode) : pn.keyed.n = pn.n.keyed := by
  rfl

@[simp] theorem Node.keyed_routes (n : Node) : n.keyed.routes = n.routes := by
  rfl

@[simp] theorem PlanNode.keyed_id (pn : PlanNode) : pn.keyed.id = pn.id := by
  rfl

@[simp] theorem PlanNode.keyed_subnet (pn : PlanNode) : pn.keyed.subnet = pn.subnet := by
  rfl

@[simp] theorem PlanNode.keyed_host (pn : PlanNode) : pn.keyed.host = pn.host := by
  rfl

@[simp] theorem PlanNode.keyed_mother (pn : PlanNode) : pn.keyed.mother = pn.mother := by
  rfl

@[simp] theorem PlanNode.keyed_exposed (pn : PlanNode) : pn.keyed.exposed = pn.exposed := by
  rfl

theorem Node.keyed_dialEndpoint (n : Node) : n.keyed.dialEndpoint = "" ↔ n.dialEndpoint = "" := by
  by_cases hidden : n.dialEndpoint = ""
  · have blank : n.keyed.endpoint = "" := if_pos hidden
    have text : trimSpace "".toList = [] := rfl
    have unknown : n.keyed.listenPort = 0 ∨ n.keyed.publicV4 = "" := .inr rfl
    rw [Node.dialEndpoint, blank]
    simp only [text, ne_eq, not_true_eq_false, ↓reduceIte]
    rw [if_pos unknown]
    exact iff_of_true rfl hidden
  · have shown : n.keyed.endpoint = "host:1" := if_neg hidden
    have text : trimSpace "host:1".toList = "host:1".toList := by decide
    have split : (splitHostPort "host:1".toList).isSome = true := by decide
    rw [Node.dialEndpoint, shown]
    simp only [text]
    rw [if_pos (by decide), if_pos (.inl split)]
    exact iff_of_false (by decide) hidden

/-! ## The active nodes -/

section

variable (mesh : Mesh) (paths : PathChoices)

theorem conflictLosers_keyed :
    conflictLosers (mesh.keyed paths) = conflictLosers mesh := by
  have step (contest : Contest) (entry : Node × Nat) :
      contest.enter (mesh.nodes.map Node.keyed) (entry.1.keyed, entry.2) =
        contest.enter mesh.nodes entry := by
    have ids (i : Nat) : (mesh.nodes.map Node.keyed)[i]?.map Node.id = mesh.nodes[i]?.map Node.id := by
      rw [List.getElem?_map, Option.map_map]
      rfl
    simp only [Contest.enter, ids]
    rfl
  rw [conflictLosers, conflictLosers]
  simp only [Mesh.keyed, List.zipIdx_map, List.foldl_map, Prod.map, id_eq, step]

theorem activeNodes_keyed :
    activeNodes (mesh.keyed paths) = (activeNodes mesh).map PlanNode.keyed := by
  rw [activeNodes, activeNodes, conflictLosers_keyed]
  simp only [Mesh.keyed, List.filterMap_map, List.map_filterMap]
  apply List.filterMap_congr
  intro n _
  simp only [Function.comp_apply, Node.keyed_disabled, Node.keyed_id]
  by_cases off : n.disabled = true ∨ n.id ∈ conflictLosers mesh
  · rw [if_pos off, if_pos off]
    rfl
  · have exposed : decide (n.keyed.dialEndpoint ≠ "") = decide (n.dialEndpoint ≠ "") :=
      decide_eq_decide.mpr (not_congr n.keyed_dialEndpoint)
    rw [if_neg off, if_neg off, planNode, planNode, Option.map_map, exposed]
    rfl

theorem roster_keyed :
    (mesh.keyed paths).roster = mesh.roster.keyed paths := by
  have relay : relayNode (mesh.keyed paths) = (relayNode mesh).map PlanNode.keyed := by
    rw [relayNode, relayNode, Mesh.keyed]
    cases mesh.relay with
    | none => rfl
    | some r =>
      simp only [Option.bind_some]
      split <;> rfl
  rw [Mesh.roster, Mesh.roster, keyed, activeNodes_keyed, relay]

/-! ## Bind modes -/

theorem findNode_keyed (id : String) :
    (mesh.keyed paths).findNode id = (mesh.findNode id).map Node.keyed := by
  rw [Mesh.findNode, Mesh.findNode, Mesh.keyed, List.find?_map]
  rfl

theorem resolveBindConfig_keyed (n : Node) (defaults : String) :
    resolveBindConfig (mesh.keyed paths) n.keyed defaults = resolveBindConfig mesh n defaults := by
  have first : (mesh.keyed paths).firstMother n.id = (mesh.firstMother n.id).map Node.keyed := by
    rw [Mesh.firstMother, Mesh.firstMother, List.map_findSome?]
    congr 1
    funext l
    rw [findNode_keyed]
    simp [Option.filter_map, Function.comp_def]
  rw [resolveBindConfig, resolveBindConfig]
  simp only [Node.keyed_isMagnetParent, Node.keyed_ownBindConfig, Node.keyed_id, first]
  cases mesh.firstMother n.id <;> rfl

end

/-! ## Gateways -/

namespace Roster

variable (r : Roster) (paths : PathChoices) (pn : PlanNode)

@[simp] theorem node?_keyed (id : String) :
    (r.keyed paths).node? id = (r.node? id).map PlanNode.keyed := by
  have search : ((r.active.map PlanNode.keyed).find? fun pn => pn.id = id) =
      (r.active.find? fun pn => pn.id = id).map PlanNode.keyed := by
    rw [List.find?_map]
    rfl
  rw [node?, node?, keyed]
  rw [search]
  cases r.relay with
  | none => rfl
  | some pn =>
    dsimp only [Option.map_some]
    split <;> rfl

theorem active_keyed : (r.keyed paths).active = r.active.map PlanNode.keyed :=
  rfl

@[simp] theorem relayOn_keyed : (r.keyed paths).relayOn = r.relayOn := by
  rw [relayOn, relayOn, keyed, Option.isSome_map]

@[simp] theorem isVPNSubnet_keyed (p : Prefix) :
    (r.keyed paths).isVPNSubnet p = r.isVPNSubnet p := by
  rw [isVPNSubnet, isVPNSubnet, keyed, List.any_map]
  rfl

@[simp] theorem mothersIn_keyed : (r.keyed paths).mothersIn = r.mothersIn := by
  rw [mothersIn, mothersIn, keyed, List.filter_map, GoMap.groupBy_map]
  rfl

@[simp] theorem clusterMothers_keyed : (r.keyed paths).clusterMothers = r.clusterMothers := by
  rw [clusterMothers, clusterMothers, keyed, List.filter_map, GoMap.groupBy_map]
  rfl

@[simp] theorem linkEnds_keyed (l : Link) : (r.keyed paths).linkEnds l =
    (r.linkEnds l).map fun ends => (ends.1.keyed, ends.2.keyed) := by
  rw [linkEnds, linkEnds, node?_keyed, node?_keyed]
  cases r.node? l.fromNodeID with
  | none => rfl
  | some source =>
    cases r.node? l.toNodeID with
    | none => rfl
    | some target =>
      simp only [Option.map_some, PlanNode.keyed_id]
      split <;> rfl

@[simp] theorem linkAttachments_keyed (l : Link) :
    (r.keyed paths).linkAttachments l = r.linkAttachments l := by
  rw [linkAttachments, linkAttachments, linkEnds_keyed, clusterMothers_keyed]
  cases r.linkEnds l <;> rfl

@[simp] theorem attached_keyed : (r.keyed paths).attached = r.attached := by
  rw [attached, attached, funext (linkAttachments_keyed r paths)]
  rfl

@[simp] theorem isAttached_keyed (child mother : String) :
    (r.keyed paths).isAttached child mother = r.isAttached child mother := by
  simp only [isAttached, attached_keyed]

@[simp] theorem generic_keyed : (r.keyed paths).generic =
    r.generic.map fun link => (link.1.keyed, link.2.1.keyed, link.2.2) := by
  rw [generic, generic, List.map_filterMap]
  apply List.filterMap_congr
  intro l _
  rw [linkEnds_keyed]
  cases r.linkEnds l with
  | none => rfl
  | some ends =>
    simp only [Option.map_some, PlanNode.keyed_mother]
    split <;> rfl

@[simp] theorem exposed_keyed (id : String) : (r.keyed paths).exposed id = r.exposed id := by
  rw [exposed, exposed, node?_keyed, Option.any_map]
  rfl

@[simp] theorem udp_keyed : (r.keyed paths).udp pn.keyed = r.udp pn :=
  congrArg Prod.snd (resolveBindConfig_keyed r.mesh paths pn.n "")

@[simp] theorem lanRoutes_keyed :
    (r.keyed paths).lanRoutes pn.keyed = r.lanRoutes pn := by
  simp [lanRoutes]

@[simp] theorem vpnRoutes_keyed :
    (r.keyed paths).vpnRoutes pn.keyed = r.vpnRoutes pn := by
  simp [vpnRoutes]

@[simp] theorem candidates_keyed (p : Prefix) :
    (r.keyed paths).candidates pn.keyed p = r.candidates pn p := by
  simp [candidates]

@[simp] theorem meshEdge_keyed (a b : String) : (r.keyed paths).meshEdge a b = r.meshEdge a b := by
  rw [meshEdge, meshEdge, node?_keyed, node?_keyed]
  cases r.node? a <;> cases r.node? b <;> rfl

@[simp] theorem hostOf_keyed (id : String) : (r.keyed paths).hostOf id = r.hostOf id := by
  rw [hostOf, hostOf, node?_keyed, Option.map_map]
  rfl

/-- Path choices that agree with those of the mesh on every entry. -/
def Agrees : Prop :=
  ∀ id sub, paths.choice id sub = r.mesh.paths.choice id sub

section

variable {r paths pn} (agree : r.Agrees paths)

include agree

theorem choose_keyed (p : Prefix) (cands : List String) :
    (r.keyed paths).choose pn.keyed p cands = r.choose pn p cands := by
  have want := agree pn.id (String.ofList p.string)
  rw [PathChoices.choice, PathChoices.choice] at want
  simp only [choose, PlanNode.keyed_id]
  rw [show (r.keyed paths).mesh.paths = paths from rfl, want]

theorem gwRow_keyed : (r.keyed paths).gwRow pn.keyed = r.gwRow pn := by
  simp only [gwRow, candRow, vpnRoutes_keyed, candidates_keyed, choose_keyed agree]

theorem gateway_keyed (id : String) (sub : Prefix) :
    (r.keyed paths).gateway id sub = r.gateway id sub := by
  have search : ((r.keyed paths).active.find? fun pn => pn.id = id) =
      (r.active.find? fun pn => pn.id = id).map PlanNode.keyed := by
    rw [keyed, List.find?_map]
    rfl
  rw [gateway, gateway, search]
  cases r.active.find? fun pn => pn.id = id with
  | none => rfl
  | some pn => simp [gwRow_keyed agree]

theorem homes_keyed (t : PlanNode) : (r.keyed paths).homes t.keyed = r.homes t := by
  simp [homes, gateway_keyed agree, Option.any_map]

end

/-! ## Intents -/

@[simp] theorem meshDial_keyed (a b : String) : (r.keyed paths).meshDial a b = r.meshDial a b := by
  simp [meshDial]

section

variable {r paths pn} (agree : r.Agrees paths) (order : RangeOrder Site)

include agree

theorem candidateIntents_keyed :
    (r.keyed paths).candidateIntents order pn.keyed = r.candidateIntents order pn := by
  simp [candidateIntents, candRow, gateway_keyed agree]

theorem sameSubnetIntents_keyed :
    (r.keyed paths).sameSubnetIntents pn.keyed = r.sameSubnetIntents pn := by
  simp [sameSubnetIntents, gateway_keyed agree]

theorem relayServed_keyed (sub : Prefix) :
    (r.keyed paths).relayServed order sub = r.relayServed order sub := by
  rw [relayServed, relayServed, keyed, List.any_map]
  congr 1
  funext pn
  rw [Function.comp_apply, ← keyed, gwRow_keyed agree, PlanNode.keyed_id]

theorem relayIntents_keyed : (r.keyed paths).relayIntents order = r.relayIntents order := by
  rw [relayIntents, relayIntents, funext (relayServed_keyed agree order), keyed,
    List.filter_map, List.map_map]
  rfl

theorem intentCalls_keyed : (r.keyed paths).intentCalls order = r.intentCalls order := by
  have attach : (r.keyed paths).attachIntents order = r.attachIntents order := by
    simp [attachIntents]
  have nodes : ((r.keyed paths).active.flatMap fun pn =>
      (r.keyed paths).candidateIntents order pn ++ (r.keyed paths).sameSubnetIntents pn) =
      r.active.flatMap fun pn => r.candidateIntents order pn ++ r.sameSubnetIntents pn := by
    rw [active_keyed, List.flatMap_map]
    simp only [candidateIntents_keyed agree, sameSubnetIntents_keyed agree]
  have mesh (site : Site) {K : Type} [DecidableEq K] (groups : GoMap K (List String)) :
      (r.keyed paths).meshIntents order site groups = r.meshIntents order site groups := by
    simp [meshIntents]
  have generic : (r.keyed paths).genericIntents = r.genericIntents := by
    simp [genericIntents, Function.comp_def]
  simp only [intentCalls, attach, nodes, mesh, generic, relayIntents_keyed agree, mothersIn_keyed,
    clusterMothers_keyed]

theorem intents_keyed : (r.keyed paths).intents order = r.intents order := by
  rw [intents, intents, intentCalls_keyed agree]

/-! ## Dialers -/

theorem resolved_keyed : (r.keyed paths).resolved order = r.resolved order := by
  have step (intents : GoMap Intent Int) :
      (r.keyed paths).resolveStep intents = r.resolveStep intents := by
    funext peers k
    have oriented : (r.keyed paths).orient intents k = r.orient intents k := by
      simp only [orient, exposed_keyed]
    rw [resolveStep, resolveStep, oriented]
  simp only [resolved, intents_keyed agree, step]

/-! ## Allowed prefixes -/

theorem owner_keyed (intents : GoMap Intent Int) (m z : PlanNode) :
    (r.keyed paths).owner intents m.keyed z.keyed = r.owner intents m z := by
  simp [owner, gateway_keyed agree]

theorem ownerGrants_keyed (intents : GoMap Intent Int) (peers : Peers) (m : PlanNode) :
    (r.keyed paths).ownerGrants intents peers m.keyed = r.ownerGrants intents peers m := by
  have step (state : List Prefix × List Grant) (z : PlanNode) :
      (r.keyed paths).ownerStep intents peers m.keyed state z.keyed =
        r.ownerStep intents peers m state z := by
    simp only [ownerStep, owner_keyed agree, gateway_keyed agree, lanRoutes_keyed,
      PlanNode.keyed_id, PlanNode.keyed_host, PlanNode.keyed_subnet]
  rw [ownerGrants, ownerGrants, active_keyed,
    List.foldl_map]
  simp only [step, PlanNode.keyed_mother]

theorem sameSubnetPin_keyed (peers : Peers) (g : String) (t : PlanNode) :
    (r.keyed paths).sameSubnetPin peers pn.keyed g t.keyed = r.sameSubnetPin peers pn g t := by
  simp only [sameSubnetPin, viaHome, homes_keyed agree, gateway_keyed agree, PlanNode.keyed_id,
    PlanNode.keyed_host, PlanNode.keyed_subnet, PlanNode.keyed_mother]

theorem gatewayGrants_keyed (peers : Peers) :
    (r.keyed paths).gatewayGrants order peers pn.keyed = r.gatewayGrants order peers pn := by
  have pins (sub : Prefix) (g : String) :
      (((r.keyed paths).active.filter fun t => t.subnet = sub).filterMap
        ((r.keyed paths).sameSubnetPin peers pn.keyed g)) =
      (r.active.filter fun t => t.subnet = sub).filterMap (r.sameSubnetPin peers pn g) := by
    rw [active_keyed, List.filter_map,
      List.filterMap_map]
    simp only [Function.comp_def, sameSubnetPin_keyed agree, PlanNode.keyed_subnet]
  simp only [gatewayGrants, gwRow_keyed agree, gateway_keyed agree, pins, PlanNode.keyed_id,
    PlanNode.keyed_mother, PlanNode.keyed_subnet]

theorem homeGrants_keyed (peers : Peers) :
    (r.keyed paths).homeGrants peers pn.keyed = r.homeGrants peers pn := by
  simp only [homeGrants, gateway_keyed agree, lanRoutes_keyed, PlanNode.keyed_id,
    PlanNode.keyed_mother, PlanNode.keyed_subnet]

theorem crossGrants_keyed (peers : Peers) (x : PlanNode) :
    (r.keyed paths).crossGrants order peers x.keyed = r.crossGrants order peers x := by
  have subnets : (r.keyed paths).subnets order = r.subnets order := by
    rw [subnets, subnets, keyed, GoMap.groupBy_map]
    rfl
  have pin (y : PlanNode) :
      (r.keyed paths).crossPin peers x.keyed y.keyed = r.crossPin peers x y := by
    simp only [crossPin, gateway_keyed agree, PlanNode.keyed_id, PlanNode.keyed_mother,
      PlanNode.keyed_subnet, PlanNode.keyed_host]
  have pins (sub : Prefix) : (((r.keyed paths).active.filter fun y => y.subnet = sub).filterMap
      ((r.keyed paths).crossPin peers x.keyed)) =
      (r.active.filter fun y => y.subnet = sub).filterMap (r.crossPin peers x) := by
    rw [active_keyed, List.filter_map,
      List.filterMap_map]
    simp only [Function.comp_def, pin, PlanNode.keyed_subnet]
  simp only [crossGrants, subnets, pins, PlanNode.keyed_mother, PlanNode.keyed_subnet]

theorem grants_keyed (peers : Peers) :
    (r.keyed paths).grants order peers = r.grants order peers := by
  have active {β : Type} (f : PlanNode → List β) :
      (r.keyed paths).active.flatMap f = r.active.flatMap fun pn => f pn.keyed :=
    List.flatMap_map ..
  have generic : (r.keyed paths).generic.flatMap genericGrants = r.generic.flatMap genericGrants := by
    rw [generic_keyed, List.flatMap_map]
    rfl
  have relay : (r.keyed paths).relayGrants peers = r.relayGrants peers := by
    simp only [relayGrants, hostOf_keyed]
  have warm (pn : PlanNode) :
      (r.keyed paths).keepWarmGrants peers pn.keyed = r.keepWarmGrants peers pn := by
    simp [keepWarmGrants, Option.bind_map]
  simp only [grants, intents_keyed agree, active, ownerGrants_keyed agree,
    gatewayGrants_keyed agree, homeGrants_keyed agree, crossGrants_keyed agree, generic, relay,
    warm]

end

end Roster

variable {mesh : Mesh} {paths : PathChoices}

/-- **Planning reads nothing else.** The plan of a mesh has the peers of the plan of the
blanked mesh with agreeing path choices. -/
theorem peers_keyed (order : RangeOrder Site) (agree : mesh.roster.Agrees paths) :
    (planMesh order (mesh.keyed paths)).peers = (planMesh order mesh).peers := by
  simp only [planMesh, roster_keyed, resolved_keyed agree, grants_keyed agree]

theorem peersFor_keyed (order : RangeOrder Site) (agree : mesh.roster.Agrees paths) (id : String) :
    (planMesh order (mesh.keyed paths)).peersFor id = (planMesh order mesh).peersFor id := by
  have index (pp : PlanPeer) :
      ((planMesh order (mesh.keyed paths)).roster.active.findIdx? fun pn => pn.id = pp.peerID) =
        (planMesh order mesh).roster.active.findIdx? fun pn => pn.id = pp.peerID := by
    change ((mesh.keyed paths).roster.active.findIdx? _) = mesh.roster.active.findIdx? _
    rw [roster_keyed, keyed, List.findIdx?_map]
    rfl
  simp only [Plan.peersFor, peers_keyed order agree, index]

/-- Meshes with the same inputs of planning have plans with the same peers. -/
theorem peersFor_congr (order : RangeOrder Site) {first second : Mesh}
    (nodes : first.nodes.map Node.keyed = second.nodes.map Node.keyed)
    (links : first.links = second.links) (relay : first.relay = second.relay)
    (paths : ∀ id sub, first.paths.choice id sub = second.paths.choice id sub) (id : String) :
    (planMesh order first).peersFor id = (planMesh order second).peersFor id := by
  have same : first.keyed first.paths = second.keyed first.paths := by
    rw [Mesh.keyed, Mesh.keyed, nodes, links, relay]
  have own : first.roster.Agrees first.paths := fun _ _ => rfl
  have other : second.roster.Agrees first.paths := paths
  rw [← peersFor_keyed order own, same, peersFor_keyed order other]

end Core
