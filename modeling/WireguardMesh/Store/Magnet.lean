import WireguardMesh.Core.Ports
import WireguardMesh.Core.Routes
import WireguardMesh.Store.Endpoint
import WireguardMesh.Store.Validate

/-! # Mothers, cards and clusters

`store_magnet.go` and `store_cluster.go`: the edits of a loaded mesh that turn a node into a
mother or back, attach cards to mothers and keep the members of a cluster alike. The source
edits nodes through pointers into the mesh; `Mesh.modify` changes the node with an id.
-/

namespace Core

/-- The node with an id changed in place. -/
def Mesh.modify (m : Mesh) (id : String) (f : Node → Node) : Mesh :=
  { m with nodes := m.nodes.map fun n => if n.id = id then f n else n }

def Mesh.clusterMembers (m : Mesh) (c : String) : List String :=
  if c = "" then [] else (m.nodes.filter fun n => n.cluster = c).map Node.id

end Core

namespace Store

open Core GoText Net

inductive StoreError
  /-- `node %q not found` -/
  | nodeNotFound (id : String)
  /-- `node %q is disabled` -/
  | nodeDisabled (id : String)
  /-- `node %q is attached under a mother; detach first` -/
  | nodeAttached (id : String)
  /-- `cannot swap a node with itself` -/
  | swapWithItself
  /-- `cannot add node %q via mesh edit; agents must enroll` -/
  | cannotAddNode (id : String)
  /-- `role must be server or client` -/
  | roleUnknown
  /-- the errors of `validateMesh` -/
  | mesh (e : MeshError)
  /-- `UNIQUE constraint failed`, from the database -/
  | constraint
  /-- `sql: no rows in result set` -/
  | noRows
  /-- an address or a route that does not parse, with the error of the parser -/
  | badPrefix
  /-- `cluster peer %q not found` -/
  | clusterPeerNotFound (id : String)
  /-- `只能与同类卡片组成集群（母卡配母卡，普通卡配普通卡）` -/
  | clusterKinds
  /-- `a cluster holds at most %d cards` -/
  | clusterFull
  /-- `at most %d mothers per card` -/
  | tooManyMothers
  /-- `a node with a listen port cannot attach to another node` -/
  | motherAttaches
  /-- `parent %q not found` -/
  | parentNotFound (id : String)
  /-- `parent %q has no listen port` -/
  | parentNoPort (id : String)
  /-- `不能同时吸附 UDP 与 TCP 伪装母卡` -/
  | mixedModes
  /-- `name longer than %d` -/
  | nameTooLong
  /-- `address must be CIDR like 10.10.0.5/24: %w` -/
  | addressForm
  /-- `address must be IPv4` -/
  | addressNotIPv4
  /-- `address prefix too narrow` -/
  | addressNarrow
  /-- `at most %d routes` -/
  | tooManyRoutes
  /-- the errors of `normalizeEndpoint` -/
  | endpoint (e : EndpointError)
  /-- `udpMode is only set on mother cards` -/
  | udpModeCard
  /-- `transport is only set on mother cards` -/
  | transportCard
  /-- `transportJson must not be empty` -/
  | transportEmpty
  /-- `transportJson: invalid JSON` -/
  | transportInvalid
  /-- `transportJson must be a JSON object` -/
  | transportNotObject
  /-- `enrollToken must be at least 8 characters` -/
  | enrollTokenShort
  /-- `enrollToken must be at most 128 characters without spaces or quotes` -/
  | enrollTokenForm
  /-- `vpnSubnet: invalid CIDR`, or `vpnSubnet: %w` with the error of the parser -/
  | vpnSubnetInvalid
  /-- `vpnSubnet must be IPv4` -/
  | vpnSubnetNotIPv4
  /-- `vpnSubnet prefix must be between /8 and /30` -/
  | vpnSubnetBits
  /-- `vpnSubnet too small` -/
  | vpnSubnetSmall
  /-- `vpnSubnet %s exhausted` -/
  | vpnSubnetExhausted (subnet : String)
  /-- `relayPort must be 0 (disabled) or 1-65535` -/
  | relayPort
  /-- the errors of `normalizeRelayHost` -/
  | relayHost (e : RelayHostError)
  /-- `node is already in %s` -/
  | alreadyIn (subnet : String)
  /-- `at most %d forwards` -/
  | tooManyForwards
  /-- `forward %d: protocol must be tcp, udp, or tcp/udp` -/
  | forwardProtocol (i : Nat)
  /-- `forward %d: %w` -/
  | forwardPorts (i : Nat) (e : PortError)
  /-- `forward %d: unknown destination node` -/
  | forwardDest (i : Nat)
  /-- `forward %d: duplicate %s listen %s` -/
  | forwardDuplicate (i : Nat) (protocol listen : String)
deriving DecidableEq

/-! ## Mothers and cards -/

def magnetKeepalive : Int := 5
def maxMagnetParents : Nat := 8

def dropLinks (links : List Link) (drop : Link → Bool) : List Link :=
  links.filter fun l => !drop l

def setListenPort (m : Mesh) (id : String) (port : UInt16) : Mesh :=
  if 0 < port then
    { m.modify id fun n => { n with listenPort := port, role := .server } with
      links := dropLinks m.links fun l => l.fromNodeID = id }
  else
    { m.modify id fun n => { n with listenPort := port, role := .client } with
      links := dropLinks m.links fun l => l.toNodeID = id }

/-- The trimmed texts of a list without the empty one, each once. -/
def uniqueTexts : List String → List String → List String
  | [], ids => ids
  | text :: texts, ids =>
    let pid := String.ofList (trimSpace text.toList)
    if pid = "" ∨ pid ∈ ids then uniqueTexts texts ids else uniqueTexts texts (ids ++ [pid])

/-- The loop of `setParents` that checks the mothers, with the mode of those before. -/
def checkParents (m : Mesh) (childID : String) : List String → Option Bool → Except StoreError Unit
  | [], _ => .ok ()
  | pid :: ids, udp =>
    match m.findNode pid with
    | none => .error (.parentNotFound pid)
    | some parent =>
      if parent.id = childID then .error (.parentNotFound pid)
      else if parent.isMagnetParent = false then .error (.parentNoPort pid)
      else if udp.getD parent.udpMode ≠ parent.udpMode then .error .mixedModes
      else checkParents m childID ids (some parent.udpMode)

def setParents (m : Mesh) (childID : String) (parentIDs : List String) : Except StoreError Mesh :=
  match m.findNode childID with
  | none => .error (.nodeNotFound childID)
  | some child =>
    let ids := uniqueTexts parentIDs []
    if ids.length > maxMagnetParents then .error .tooManyMothers
    else if ids ≠ [] ∧ child.isMagnetParent then .error .motherAttaches
    else match checkParents m childID ids none with
    | .error e => .error e
    | .ok () => .ok { m with
        links := (dropLinks m.links fun l => l.fromNodeID = childID) ++
          ids.map fun pid => ⟨childID, pid, [], magnetKeepalive⟩ }

def attachTo (m : Mesh) (childID parentID : String) : Except StoreError Mesh :=
  if parentID = "" then setParents m childID [] else setParents m childID [parentID]

/-! ## Clusters -/

def maxClusterSize : Nat := 8

/-- `clusterSync`: which parts of a config are copied between members. -/
structure ClusterSync where
  port : Bool
  routes : Bool
  parents : Bool
  forwards : Bool
  transport : Bool
deriving DecidableEq

def syncAll : ClusterSync :=
  ⟨true, true, true, true, true⟩

def clusterRoutes (src dst : Node) : Except StoreError (List String) :=
  let routes := match vpnPrefixFromAddress src.address, vpnPrefixFromAddress dst.address with
    | some sp, some dp => replaceVPNRoute src.routes sp dp
    | _, _ => (normalizeRouteCIDRs src.routes).map (List.map String.ofList)
  match routes with
  | none => .error .badPrefix
  | some routes => .ok routes

/-- The part of `copyClusterConfig` that copies the listen port. -/
def copyPort (src dst : Node) (what : ClusterSync) (m : Mesh) : Mesh :=
  if what.port ∧ dst.listenPort ≠ src.listenPort then setListenPort m dst.id src.listenPort else m

/-- The part that copies the transport and the UDP flag. -/
def copyTransport (src dst : Node) (what : ClusterSync) (m : Mesh) : Mesh :=
  if what.transport then
    m.modify dst.id fun n => { n with udpMode := src.udpMode, transport := src.transport }
  else m

/-- The part that copies the routes. -/
def copyRoutes (src dst : Node) (what : ClusterSync) (m : Mesh) : Except StoreError Mesh :=
  if what.routes then
    (clusterRoutes src dst).map fun routes => m.modify dst.id fun n => { n with routes := routes }
  else .ok m

/-- The part that copies the mothers of a card. -/
def copyParents (src dst : Node) (what : ClusterSync) (m : Mesh) : Except StoreError Mesh :=
  if what.parents ∧ src.isMagnetParent = false then
    let parents := (m.links.filter fun l => l.fromNodeID = src.id ∧ l.toNodeID ≠ dst.id ∧
      (m.findNode l.toNodeID).any Node.isMagnetParent).map Link.toNodeID
    setParents m dst.id parents
  else .ok m

/-- The part that copies the forwards. -/
def copyForwards (src dst : Node) (what : ClusterSync) (m : Mesh) : Mesh :=
  if what.forwards then
    { m with
      forwards := (m.forwards.filter fun f => f.nodeID ≠ dst.id) ++
        (m.forwards.filter fun f => f.nodeID = src.id).map fun f =>
          { f with
            nodeID := dst.id
            destNodeID := if f.destNodeID = src.id then dst.id else f.destNodeID } }
  else m

/-- `copyClusterConfig`, for two different nodes. -/
def copyClusterConfig (m : Mesh) (srcID dstID : String) (what : ClusterSync) :
    Except StoreError Mesh :=
  match m.findNode srcID, m.findNode dstID with
  | some src, some dst =>
    match copyRoutes src dst what (copyTransport src dst what (copyPort src dst what m)) with
    | .error e => .error e
    | .ok m => (copyParents src dst what m).map (copyForwards src dst what)
  | _, _ => .ok m

/-- The loop of `syncCluster` over the other members. -/
def syncMembers (srcID : String) (what : ClusterSync) : List String → Mesh → Except StoreError Mesh
  | [], m => .ok m
  | id :: ids, m =>
    if id = srcID then syncMembers srcID what ids m
    else match copyClusterConfig m srcID id what with
    | .error e => .error e
    | .ok m => syncMembers srcID what ids m

def syncCluster (m : Mesh) (srcID : String) (what : ClusterSync) : Except StoreError Mesh :=
  match m.findNode srcID with
  | none => .ok m
  | some src =>
    if src.cluster = "" then .ok m else syncMembers srcID what (m.clusterMembers src.cluster) m

/-- `joinCluster`, with the id that `newClusterID` draws. -/
def joinCluster (m : Mesh) (id peerID newClusterID : String) : Except StoreError Mesh :=
  match m.findNode id, m.findNode peerID with
  | some n, some peer =>
    if id = peerID then .error (.clusterPeerNotFound peerID)
    else if n.isMagnetParent ≠ peer.isMagnetParent then .error .clusterKinds
    else if peer.cluster ≠ "" ∧ peer.cluster = n.cluster then .ok m
    else
      let cluster := if peer.cluster = "" then newClusterID else peer.cluster
      let m := m.modify peerID fun p => { p with cluster := cluster }
      if (m.clusterMembers cluster).length ≥ maxClusterSize then .error .clusterFull
      else copyClusterConfig (m.modify id fun n => { n with cluster := cluster }) peerID id syncAll
  | _, _ => .error (.clusterPeerNotFound peerID)

def leaveCluster (m : Mesh) (id : String) : Mesh :=
  m.modify id fun n => { n with cluster := "" }

/-- `pruneClusters`: a cluster of one is none. -/
def pruneClusters (m : Mesh) : Mesh :=
  { m with nodes := m.nodes.map fun n =>
      if n.cluster ≠ "" ∧ (m.nodes.filter fun o => o.cluster = n.cluster).length < 2 then
        { n with cluster := "" }
      else n }

end Store
