import WireguardMesh.Core.Roster

/-! # The plan

The later phases of `PlanMesh`: the dial intents, the dialer of each pair, and the allowed
prefixes of each peer. A `range` over a Go map visits its keys in an order of the runtime's
choosing; every such statement is a `Site`, and a plan is computed for a choice of orders. Intents
and allowed prefixes are listed in program order and then applied, because no pass looks at what an
earlier one of its phase stored, save for the LAN routes a mother has already claimed.
-/

namespace Core

open GoText Net

/-- The `range` statements over maps in `PlanMesh`. -/
inductive Site
  | attached
  | mothersIn
  | clusterMothers
  | candidates (id : String)
  | gateways (id : String)
  | served (id : String)
  | intents
  | subnets

def childKeepalive : Int := 5
def motherKeepalive : Int := 25

/-- A dial intent, from one node to another. -/
abbrev Intent := String × String

/-- `planPeer`. The map of prefixes seen so far has the keys of `allowed`. -/
structure PlanPeer where
  peerID : String
  dial : Bool
  keepalive : Int
  allowed : List Prefix
deriving DecidableEq

def PlanPeer.allow (pp : PlanPeer) (p : Prefix) : PlanPeer :=
  if p.isValid = false ∨ p ∈ pp.allowed then pp else { pp with allowed := pp.allowed ++ [p] }

/-- `p.peers` and `p.peerOrder`: the peers of each node, in the order they were added. -/
abbrev Peers := List (String × PlanPeer)

def peerOf (peers : Peers) (a b : String) : Option PlanPeer :=
  (peers.find? fun entry => entry.1 = a ∧ entry.2.peerID = b).map Prod.snd

/-- Whether one node has another as a peer. -/
def hasPeer (peers : Peers) (a b : String) : Bool :=
  (peerOf peers a b).isSome

def ensurePeer (peers : Peers) (a b : String) : Peers :=
  if hasPeer peers a b then peers else peers ++ [(a, ⟨b, false, 0, []⟩)]

/-- A change of the entry one node has for another. -/
def updatePeer (peers : Peers) (a b : String) (f : PlanPeer → PlanPeer) : Peers :=
  peers.map fun entry => if entry.1 = a ∧ entry.2.peerID = b then (entry.1, f entry.2) else entry

/-- `sortedCands`: the keys of a map of prefixes, by their printed form. -/
def sortedCands (order : RangeOrder Site) (site : Site) (keys : List Prefix) : List Prefix :=
  (order.range site keys).insertionSort fun a b => String.ofList a.string ≤ String.ofList b.string

namespace Roster

variable (r : Roster) (order : RangeOrder Site)

/-! ## Dial intents -/

/-- `meshDial`: the intent of two mothers that mesh, toward a dialable one. -/
def meshDial (a b : String) : List (Intent × Int) :=
  if r.meshEdge a b then
    let (a, b) := if b < a then (b, a) else (a, b)
    if r.exposed b then [((a, b), motherKeepalive)] else [((b, a), motherKeepalive)]
  else []

/-- The pairs of a list, the earlier member first. -/
def pairs : List String → List (String × String)
  | [] => []
  | a :: rest => rest.map (fun b => (a, b)) ++ pairs rest

/-- `meshDial` over all pairs of each group of mothers. -/
def meshIntents (site : Site) {K : Type} [DecidableEq K] (groups : GoMap K (List String)) :
    List (Intent × Int) :=
  (order.range site groups.keys).flatMap fun key =>
    (pairs (groups.getD key [])).flatMap fun pair => r.meshDial pair.1 pair.2

def attachIntents : List (Intent × Int) :=
  (order.range .attached r.attached.keys).flatMap fun child =>
    (r.attached.getD child []).map fun m => ((child, m), childKeepalive)

/-- The intents of a node toward its gateway candidates; the relay is dialed only as a
gateway in use. -/
def candidateIntents (pn : PlanNode) : List (Intent × Int) :=
  let ka := if pn.mother then motherKeepalive else childKeepalive
  (sortedCands order (.candidates pn.id) ((r.candRow pn).map Prod.fst)).flatMap fun sub =>
    (((r.candRow pn).lookup sub).getD []).filterMap fun c =>
      if c = relayNodeID ∧ r.gateway pn.id sub ≠ relayNodeID then none else some ((pn.id, c), ka)

/-- The intents of a child toward every dialable mother of its subnet. -/
def sameSubnetIntents (pn : PlanNode) : List (Intent × Int) :=
  if pn.mother = false ∧ r.gateway pn.id pn.subnet ≠ "" then
    ((r.mothersIn.getD pn.subnet []).filter fun m => m ≠ pn.id ∧ r.exposed m).map fun m =>
      ((pn.id, m), childKeepalive)
  else []

def genericIntents : List (Intent × Int) :=
  r.generic.map fun (source, target, link) =>
    let ka := if link.keepalive = 0 ∧ source.id ≠ "" ∧ source.mother = false then childKeepalive
      else link.keepalive
    ((source.id, target.id), ka)

/-- `relayServed`: whether some node routes into a subnet through the relay. -/
def relayServed (sub : Prefix) : Bool :=
  r.active.any fun pn => (order.range (.served pn.id) (r.gwRow pn)).any fun entry =>
    entry.1 = sub ∧ entry.2 = relayNodeID

def relayIntents : List (Intent × Int) :=
  (r.active.filter fun pn => r.relayServed order pn.subnet).map fun pn =>
    ((pn.id, relayNodeID), childKeepalive)

/-- The calls of `addIntent` in program order. -/
def intentCalls : List (Intent × Int) :=
  r.attachIntents order ++
    r.active.flatMap (fun pn => r.candidateIntents order pn ++ r.sameSubnetIntents pn) ++
    r.meshIntents order .mothersIn r.mothersIn ++
    r.meshIntents order .clusterMothers r.clusterMothers ++
    r.genericIntents ++ r.relayIntents order

/-- `addIntent`: a repeated intent keeps the shortest positive keepalive. -/
def addIntent (intents : GoMap Intent Int) (call : Intent × Int) : GoMap Intent Int :=
  match intents.lookup call.1 with
  | none => intents.insert call.1 call.2
  | some cur =>
    if 0 < call.2 ∧ (cur = 0 ∨ call.2 < cur) then intents.insert call.1 call.2 else intents

def intents : GoMap Intent Int :=
  (r.intentCalls order).foldl addIntent ∅

/-! ## Dialers -/

/-- The order of intents by source, then target. -/
def intentLE (a b : Intent) : Prop :=
  a.1 < b.1 ∨ (a.1 = b.1 ∧ a.2 ≤ b.2)

instance : DecidableRel intentLE :=
  fun a b => inferInstanceAs (Decidable (a.1 < b.1 ∨ (a.1 = b.1 ∧ a.2 ≤ b.2)))

/-- The dialer and the dialed node of an intent: of a mutual pair, the dialable side is
dialed, else the lower id dials. -/
def orient (intents : GoMap Intent Int) (k : Intent) : Intent :=
  if (k.2, k.1) ∈ intents ∧ ((r.exposed k.1 ∧ ¬ r.exposed k.2) ∨
      (r.exposed k.1 = r.exposed k.2 ∧ k.2 < k.1)) then (k.2, k.1)
  else k

/-- One round of the loop that resolves each pair to one dialer. -/
def resolveStep (intents : GoMap Intent Int) (peers : Peers) (k : Intent) : Peers :=
  if hasPeer peers k.1 k.2 then peers
  else
    let (dialer, target) := r.orient intents k
    let ka := (intents.lookup (dialer, target)).getD 0
    let dialed := updatePeer (ensurePeer peers dialer target) dialer target fun pp =>
      { pp with dial := true, keepalive := ka }
    ensurePeer dialed target dialer

/-- The peers of every node, before prefixes are allowed. -/
def resolved : Peers :=
  let intents := r.intents order
  ((order.range .intents intents.keys).insertionSort intentLE).foldl (r.resolveStep intents) []

/-! ## Owners -/

/-- `owner[m][z]`: the peer of a mother that carries the host of another node. -/
def owner (intents : GoMap Intent Int) (m z : PlanNode) : Option String :=
  if z.id = m.id then none
  else if z.mother = true ∧ z.subnet = m.subnet then
    if r.meshEdge m.id z.id then some z.id else none
  else
    let g := r.gateway z.id m.subnet
    if g = m.id ∨ (r.isAttached z.id m.id ∧ m.exposed) ∨
        (z.subnet = m.subnet ∧ (z.id, m.id) ∈ intents) then some z.id
    else if g ≠ "" ∧ r.meshEdge m.id g then some g
    else none

/-! ## Allowed prefixes -/

/-- A prefix allowed on the entry of a node for a peer. -/
abbrev Grant := String × String × Prefix

/-- The LAN routes of a node that a mother has not claimed yet go to that node. -/
def claimLan (id peer : String) (state : List Prefix × List Grant) (lan : Prefix) :
    List Prefix × List Grant :=
  if lan ∈ state.1 then state else (state.1 ++ [lan], state.2 ++ [(id, peer, lan)])

/-- What a mother carries for another node: its host on its owner, and its LAN routes when
the mother is its gateway. -/
def ownerStep (intents : GoMap Intent Int) (peers : Peers) (m : PlanNode)
    (state : List Prefix × List Grant) (z : PlanNode) : List Prefix × List Grant :=
  match r.owner intents m z with
  | none => state
  | some peer =>
    if hasPeer peers m.id peer = false then state
    else
      let state := (state.1, state.2 ++ [(m.id, peer, z.host)])
      if peer = z.id ∧ r.gateway z.id m.subnet = m.id then
        (r.lanRoutes z).foldl (claimLan m.id peer) state
      else state

def ownerGrants (intents : GoMap Intent Int) (peers : Peers) (m : PlanNode) : List Grant :=
  if m.mother then (r.active.foldl (r.ownerStep intents peers m) ([], [])).2 else []

/-- The peer through which a child reaches another child of its subnet: the target's gateway if
that is one of its homes, else its first home. -/
def viaHome (peers : Peers) (id : String) (t : PlanNode) : Option String :=
  let th := r.gateway t.id t.subnet
  if th ∈ r.homes t ∧ hasPeer peers id th then some th
  else (r.homes t).find? fun h => hasPeer peers id h

/-- The pin of a child with gateway `g` for a node of its own subnet. -/
def sameSubnetPin (peers : Peers) (pn : PlanNode) (g : String) (t : PlanNode) : Option Grant :=
  if t.id = pn.id ∨ t.id = g then none
  else if t.mother then if hasPeer peers pn.id t.id then some (pn.id, t.id, t.host) else none
  else if g ∈ r.homes t then none
  else (r.viaHome peers pn.id t).map fun via => (pn.id, via, t.host)

/-- The subnets on their gateways, and for the own subnet of a child the pins of its nodes. -/
def gatewayGrants (peers : Peers) (pn : PlanNode) : List Grant :=
  (sortedCands order (.gateways pn.id) ((r.gwRow pn).map Prod.fst)).flatMap fun sub =>
    let g := r.gateway pn.id sub
    if hasPeer peers pn.id g = false then []
    else (pn.id, g, sub) ::
      if pn.mother = true ∨ sub ≠ pn.subnet then []
      else (r.active.filter fun t => t.subnet = sub).filterMap (r.sameSubnetPin peers pn g)

/-- The LAN routes of a child on the gateway of its own subnet. -/
def homeGrants (peers : Peers) (pn : PlanNode) : List Grant :=
  let home := r.gateway pn.id pn.subnet
  if pn.mother = false ∧ home ≠ "" ∧ hasPeer peers pn.id home then
    (r.lanRoutes pn).map fun lan => (pn.id, home, lan)
  else []

/-- `pairVia`: the gateway both directions of a cross-subnet pair use. -/
def pairVia (x gx y gy : String) : String :=
  if gx = "" ∨ gy = "" then gx ++ gy
  else if gx = relayNodeID ∧ gy ≠ relayNodeID then gy
  else if gy = relayNodeID ∧ gx ≠ relayNodeID then gx
  else if x < y then gx
  else gy

/-- The subnets of the active nodes, sorted. -/
def subnets : List Prefix :=
  sortedCands order .subnets
    (GoMap.groupBy PlanNode.subnet PlanNode.id r.active).keys

/-- The pin of a child for a child of another subnet, when the pair does not use the gateway of its
own subnet route. -/
def crossPin (peers : Peers) (x y : PlanNode) : Option Grant :=
  if y.mother then none
  else
    let gx := r.gateway x.id y.subnet
    let via := pairVia x.id gx y.id (r.gateway y.id x.subnet)
    if via = "" ∨ via = gx then none
    else if hasPeer peers x.id via then some (x.id, via, y.host) else none

def crossGrants (peers : Peers) (x : PlanNode) : List Grant :=
  if x.mother then []
  else ((r.subnets order).filter fun sub => sub ≠ x.subnet).flatMap fun sub =>
    (r.active.filter fun y => y.subnet = sub).filterMap (r.crossPin peers x)

/-- The host of a planned node. -/
def hostOf (id : String) : Prefix :=
  ((r.node? id).map PlanNode.host).getD .zero

/-- The hosts of the relay's peers. -/
def relayGrants (peers : Peers) : List Grant :=
  (peers.filter fun entry => entry.1 = relayNodeID).map fun entry =>
    (relayNodeID, entry.2.peerID, r.hostOf entry.2.peerID)

/-- The prefixes of a generic link: its allowed addresses or the target's host, and on the
other side the source's host, unless the target is a mother. -/
def genericGrants (link : PlanNode × PlanNode × Link) : List Grant :=
  let (source, target, l) := link
  (if l.allowedIPs ≠ [] then
    (routePrefixes l.allowedIPs).map fun p => (source.id, target.id, p)
  else [(source.id, target.id, target.host)]) ++
    if target.mother = false then [(target.id, source.id, source.host)] else []

/-- The hosts of the mothers among a node's peers. -/
def keepWarmGrants (peers : Peers) (pn : PlanNode) : List Grant :=
  (peers.filter fun entry => entry.1 = pn.id).filterMap fun entry =>
    (r.node? entry.2.peerID).bind fun peer =>
      if peer.mother then some (pn.id, entry.2.peerID, peer.host) else none

/-- The calls of `allow` in program order. -/
def grants (peers : Peers) : List Grant :=
  let intents := r.intents order
  r.active.flatMap (fun pn => r.ownerGrants intents peers pn ++ r.gatewayGrants order peers pn ++
      r.homeGrants peers pn) ++
    r.active.flatMap (r.crossGrants order peers) ++
    r.relayGrants peers ++ r.generic.flatMap genericGrants ++
    r.active.flatMap (r.keepWarmGrants peers)

end Roster

/-- `Plan`: the roster and the peers of every node. -/
structure Plan where
  roster : Roster
  peers : Peers

/-- A call of `allow` on the entry it names, if there is one. -/
def applyGrant (peers : Peers) (grant : Roster.Grant) : Peers :=
  updatePeer peers grant.1 grant.2.1 fun pp => pp.allow grant.2.2

/-- `PlanMesh`, for a choice of iteration orders. -/
def planMesh (order : RangeOrder Site) (mesh : Mesh) : Plan :=
  let r := mesh.roster
  let peers := r.resolved order
  ⟨r, (r.grants order peers).foldl applyGrant peers⟩

/-- `p.peersFor`: the peers of a node in mesh order; the relay counts as the first node. -/
def Plan.peersFor (plan : Plan) (id : String) : List PlanPeer :=
  let position := fun pp : PlanPeer =>
    (plan.roster.active.findIdx? fun pn => pn.id = pp.peerID).getD 0
  ((plan.peers.filter fun entry => entry.1 = id).map Prod.snd).insertionSort fun a b =>
    position a ≤ position b

end Core
