import WireguardMesh.Core.Conflict

/-! # Who takes part in a plan

The first phases of `PlanMesh`: the active nodes, the mothers of each subnet and of each
cluster, the attachments and the generic links, and for every node and VPN subnet in its
routes the gateway candidates and the gateway.

Node ids are distinct in every mesh the store accepts, so the map from ids to planned
nodes is a search in the list of active nodes.
-/

namespace Core

open GoText Net

structure PlanNode where
  n : Node
  subnet : Prefix
  host : Prefix
  mother : Bool
  exposed : Bool
deriving DecidableEq

def PlanNode.id (pn : PlanNode) : String :=
  pn.n.id

/-- A node with its subnet and host; none when its address is not an IPv4 prefix. -/
def planNode (n : Node) : Option PlanNode :=
  (hostPrefix n.address).map fun prefixes =>
    ⟨n, prefixes.1, prefixes.2, n.isMagnetParent, n.dialEndpoint ≠ ""⟩

/-- The nodes of the plan in mesh order: enabled, not a conflict loser, with an IPv4
address. -/
def activeNodes (mesh : Mesh) : List PlanNode :=
  let losers := conflictLosers mesh
  mesh.nodes.filterMap fun n => if n.disabled ∨ n.id ∈ losers then none else planNode n

/-- The pseudo node of the Master's relay. -/
def relayPlanNode (r : Relay) : PlanNode where
  n := {
    id := relayNodeID, role := .other "", publicKey := r.publicKey, privateKey := "",
    address := "", listenPort := 0, endpoint := "", mtu := 0, token := "", interface := "",
    pollInterval := "", transport := "", udpMode := false, disabled := false, routes := [],
    addressChangedAt := .zero, cluster := "", publicV4 := "" }
  subnet := .zero
  host := .zero
  mother := false
  exposed := true

/-- The relay takes part when it has a key and a port. -/
def relayNode (mesh : Mesh) : Option PlanNode :=
  mesh.relay.bind fun r => if r.publicKey ≠ "" ∧ 0 < r.port then some (relayPlanNode r) else none

/-- The planned nodes of a mesh. -/
structure Roster where
  mesh : Mesh
  active : List PlanNode
  relay : Option PlanNode

def Mesh.roster (mesh : Mesh) : Roster :=
  ⟨mesh, activeNodes mesh, relayNode mesh⟩

namespace Roster

variable (r : Roster)

def relayOn : Bool :=
  r.relay.isSome

/-- `p.nodes[id]`: the relay's entry is written last. -/
def node? (id : String) : Option PlanNode :=
  match r.relay with
  | some pn => if id = relayNodeID then some pn else r.active.find? fun pn => pn.id = id
  | none => r.active.find? fun pn => pn.id = id

def isVPNSubnet (p : Prefix) : Bool :=
  r.active.any fun pn => pn.subnet = p

/-- The ids of the mothers of each subnet. -/
def mothersIn : GoMap Prefix (List String) :=
  GoMap.groupBy PlanNode.subnet PlanNode.id (r.active.filter PlanNode.mother)

def clusterMothers : GoMap String (List String) :=
  GoMap.groupBy (fun pn => pn.n.cluster) PlanNode.id
    (r.active.filter fun pn => pn.mother ∧ pn.n.cluster ≠ "")

/-- The planned ends of a link, unless it is a loop. -/
def linkEnds (l : Link) : Option (PlanNode × PlanNode) :=
  match r.node? l.fromNodeID, r.node? l.toNodeID with
  | some source, some target => if source.id = target.id then none else some (source, target)
  | _, _ => none

/-- The attachments a link makes: to its mother, and to the mothers of that one's cluster. -/
def linkAttachments (l : Link) : List (String × String) :=
  match r.linkEnds l with
  | some (source, target) =>
    if source.mother = false ∧ target.mother = true then
      (target.id :: r.clusterMothers.getD target.n.cluster []).map fun m => (source.id, m)
    else []
  | none => []

/-- The mothers each node is attached to. -/
def attached : GoMap String (List String) :=
  GoMap.groupUnique (r.mesh.links.flatMap r.linkAttachments)

def isAttached (child mother : String) : Bool :=
  mother ∈ r.attached.getD child []

/-- The links that are no attachments, with their planned ends. -/
def generic : List (PlanNode × PlanNode × Link) :=
  r.mesh.links.filterMap fun l =>
    match r.linkEnds l with
    | some (source, target) =>
      if source.mother = false ∧ target.mother = true then none else some (source, target, l)
    | none => none

/-- Whether the node with an id can be dialed. -/
def exposed (id : String) : Bool :=
  (r.node? id).any PlanNode.exposed

/-! ## Gateways -/

def udp (pn : PlanNode) : Bool :=
  (resolveBindConfig r.mesh pn.n "").2

/-- The routes of a node that are no VPN subnets. -/
def lanRoutes (pn : PlanNode) : List Prefix :=
  (routePrefixes pn.n.routes).filter fun p => !r.isVPNSubnet p

/-- The VPN subnets a node needs a gateway for: those in its routes, but not the subnet a
mother serves itself. -/
def vpnRoutes (pn : PlanNode) : List Prefix :=
  (routePrefixes pn.n.routes).filter fun p => r.isVPNSubnet p && !(pn.mother && pn.subnet = p)

/-- The gateway candidates of a node for a subnet: the dialable mothers it is attached to,
else all dialable mothers; and the relay as last resort into other subnets. -/
def candidates (pn : PlanNode) (p : Prefix) : List String :=
  let dialable := (r.mothersIn.getD p []).filter fun m => m ≠ pn.id ∧ r.exposed m
  let own := dialable.filter fun m => r.isAttached pn.id m
  (if own = [] then dialable else own) ++
    if r.relayOn && p ≠ pn.subnet && !r.udp pn then [relayNodeID] else []

/-- The gateway among candidates: the one the Master chose, else the first. -/
def choose (pn : PlanNode) (p : Prefix) (cands : List String) : String :=
  let want := (r.mesh.paths.getD pn.id ∅).getD (String.ofList p.string) ""
  if want ≠ "" ∧ want ∈ cands then want else cands.headD ""

/-- `p.cands[id]`: the subnets with candidates. -/
def candRow (pn : PlanNode) : List (Prefix × List String) :=
  ((r.vpnRoutes pn).map fun p => (p, r.candidates pn p)).filter fun entry => entry.2 ≠ []

/-- `p.gw[id]`: the gateway of a node for each subnet. -/
def gwRow (pn : PlanNode) : List (Prefix × String) :=
  (r.candRow pn).map fun entry => (entry.1, r.choose pn entry.1 entry.2)

/-- `p.gw[id][sub]`, empty for none. -/
def gateway (id : String) (sub : Prefix) : String :=
  ((r.active.find? fun pn => pn.id = id).bind fun pn => (r.gwRow pn).lookup sub).getD ""

/-- `meshEdge`: whether two mothers mesh. -/
def meshEdge (a b : String) : Bool :=
  match r.node? a, r.node? b with
  | some pa, some pb =>
    a ≠ b ∧ pa.mother ∧ pb.mother ∧ (pa.exposed ∨ pb.exposed) ∧ pa.n.udpMode = pb.n.udpMode ∧
      (pa.subnet = pb.subnet ∨ (pa.n.cluster ≠ "" ∧ pa.n.cluster = pb.n.cluster))
  | _, _ => false

/-- `homes`: the mothers a child lives under, its dialable attachments in its own subnet, else its
gateway there. -/
def homes (t : PlanNode) : List String :=
  let own := (r.attached.getD t.id []).filter fun m =>
    (r.node? m).any fun pm => pm.exposed ∧ pm.subnet = t.subnet
  if own ≠ [] then own
  else if r.gateway t.id t.subnet ≠ "" then [r.gateway t.id t.subnet] else []

end Roster

end Core
