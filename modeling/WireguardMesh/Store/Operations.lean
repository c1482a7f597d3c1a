import WireguardMesh.Foundation.Json
import WireguardMesh.Store.Forwards
import WireguardMesh.Store.State

/-! # The operations of the store

The operations that change what agents are configured with. Seven of them load the mesh,
edit it and write it back under the next revision (`rewriteMesh`); the others write single
values and each has its own rule for the revision. Identifiers, keys and tokens the source
draws at random and the current time are arguments.
-/

namespace Store

open Core GoText Net

/-- The part the rewriting operations share: load, edit, next revision, check, store. -/
def rewriteMesh {α : Type} (codec : Codec) (check : Mesh → Except MeshError Unit)
    (edit : Settings → Mesh → Except StoreError (Mesh × α)) : Operation α := do
  let m ← loadMeshLocked codec
  let s ← get
  let edited ← Effect.lift (edit s.settings m)
  let m := { edited.1 with revision := m.revision + 1 }
  Effect.lift ((check m).mapError .mesh)
  replaceMeshLocked m
  pure edited.2

/-! ## Addresses -/

def defaultVPNSubnet : String := "10.10.0.0/24"

def defaultServerListenPort : UInt16 := 25590

/-- `hostIP4`; none for its errors. -/
def hostIP4 (cidr : String) : Option (BitVec 32) :=
  let text := trimSpace cidr.toList
  let host := match splitFirst '/' text with
    | some (host, _) => host
    | none => text
  match parseAddr host with
  | some (.v4 bits) => some bits
  | _ => none

/-- The loop of `nextAddress`, from host number `i` on. -/
def nextHost (start : BitVec 32) (used : List (BitVec 32)) : Nat → Nat → Option (BitVec 32)
  | 0, _ => none
  | left + 1, i =>
    if start + BitVec.ofNat 32 i ∈ used then nextHost start used left (i + 1)
    else some (start + BitVec.ofNat 32 i)

def nextAddress (subnet : String) (nodes : List Node) : Except StoreError String :=
  let subnet := if subnet = "" then defaultVPNSubnet else subnet
  match parsePrefix subnet.toList with
  | none => .error .vpnSubnetInvalid
  | some p =>
    match p.ip with
    | .v4 start =>
      if 32 - p.bits < 2 then .error .vpnSubnetSmall
      else
        let maxHosts : BitVec 32 := (1 <<< (32 - p.bits)) - 2
        match nextHost start (nodes.filterMap fun n => hostIP4 n.address) maxHosts.toNat 1 with
        | none => .error (.vpnSubnetExhausted subnet)
        | some ip => .ok (String.ofList (string4 ip ++ '/' :: itoa p.bits))
    | _ => .error .vpnSubnetNotIPv4

/-! ## Enrolling and deleting -/

/-- What `Enroll` draws: `GenerateNodeID`, `GenerateKeyPair`, `GenerateToken` and the time. -/
structure Fresh where
  id : String
  privateKey : String
  publicKey : String
  token : String
  now : Time

/-- The links a new node gets: a card joins the first mother, and a mother adopts every unattached
card. -/
def autoAttach (m : Mesh) (n : Node) : List Link :=
  if n.isMagnetParent then
    (m.nodes.filter fun peer => peer.id ≠ n.id ∧ peer.isMagnetParent = false ∧
      peer.id ∉ m.links.map Link.fromNodeID).map fun peer => ⟨peer.id, n.id, [], magnetKeepalive⟩
  else
    ((m.nodes.find? fun peer => peer.id ≠ n.id ∧ peer.isMagnetParent).map fun peer =>
      (⟨n.id, peer.id, [], magnetKeepalive⟩ : Link)).toList

/-- The edit of `Enroll`. -/
def enrollNode (role : Role) (endpoint : String) (listenPort : UInt16) (fresh : Fresh)
    (settings : Settings) (m : Mesh) : Except StoreError (Mesh × Node) :=
  match nextAddress settings.vpnSubnet m.nodes with
  | .error e => .error e
  | .ok addr =>
    let port := if role = .server ∧ listenPort = 0 then defaultServerListenPort else listenPort
    let n : Node := {
      id := fresh.id, role := role, publicKey := fresh.publicKey, privateKey := fresh.privateKey,
      address := addr, listenPort := port, endpoint := endpoint, mtu := 0, token := fresh.token,
      interface := settings.defaultIface, pollInterval := settings.defaultPoll,
      transport := if 0 < port then settings.transportJSON else "",
      udpMode := false, disabled := false, routes := (vpnPrefixFromAddress addr).toList,
      addressChangedAt := fresh.now, cluster := "", publicV4 := "" }
    let m := { m with nodes := m.nodes ++ [n] }
    .ok ({ m with links := m.links ++ autoAttach m n }, n)

def enroll (codec : Codec) (role : Role) (endpoint : String) (listenPort : UInt16)
    (fresh : Fresh) : Operation Node :=
  let role := if role = .other "" then .client else role
  if role ≠ .server ∧ role ≠ .client then throw .roleUnknown
  else rewriteMesh codec validateMesh (enrollNode role endpoint listenPort fresh)

/-- `Store.DeleteNode`, which does not check the mesh again. -/
def deleteNode (codec : Codec) (id : String) : Operation Unit :=
  rewriteMesh codec (fun _ => .ok ()) fun _ m =>
    if (m.findNode id).isNone then .error (.nodeNotFound id)
    else .ok ({ m with
      nodes := m.nodes.filter fun n => n.id ≠ id
      links := m.links.filter fun l => l.fromNodeID ≠ id ∧ l.toNodeID ≠ id
      forwards := m.forwards.filter fun f => f.nodeID ≠ id ∧ f.destNodeID ≠ id }, ())

/-! ## Editing nodes -/

def maxNodeNameLen : Nat := 64
def maxNodeRoutes : Nat := 64

def normalizeAddress (s : String) : Except StoreError String :=
  match parsePrefix (trimSpace s.toList) with
  | none => .error .addressForm
  | some p =>
    if p.ip.is4 = false then .error .addressNotIPv4
    else if p.bits ≥ 31 then .error .addressNarrow
    else .ok (String.ofList p.string)

def normalizeRoutes (routes : List String) : Except StoreError (List String) :=
  if routes.length > maxNodeRoutes then .error .tooManyRoutes
  else match normalizeRouteCIDRs routes with
  | none => .error .badPrefix
  | some out => .ok (out.map String.ofList)

def normalizeTransportJSON (raw : String) : Except StoreError String :=
  let raw := trimSpace raw.toList
  if raw = [] then .error .transportEmpty
  else match (if raw.head? = some '"' then (Json.unquote raw).map trimSpace else some raw) with
  | none => .error .transportInvalid
  | some raw => if Json.isObject raw then .ok (String.ofList raw) else .error .transportNotObject

structure NodePatch where
  name : Option String
  address : Option String
  enabled : Option Bool
  routes : Option (List String)
  listenPort : Option UInt16
  endpoint : Option String
  parentID : Option String
  parentIDs : Option (List String)
  clusterWith : Option String
  udpMode : Option Bool
  transport : Option String

/-- A field of a patch, which leaves the mesh alone when it is absent. -/
def patchField {α : Type} (field : Option α) (edit : α → Mesh → Except StoreError Mesh) (m : Mesh) :
    Except StoreError Mesh :=
  match field with
  | none => .ok m
  | some value => edit value m

section

variable (id : String)

/-- The name is checked only: no config shows it. -/
def patchName (name : String) (m : Mesh) : Except StoreError Mesh :=
  if (String.ofList (trimSpace name.toList)).utf8ByteSize > maxNodeNameLen then .error .nameTooLong
  else .ok m

/-- The address, with the node's own subnet route unless the patch sets the routes. -/
def patchAddress (now : Time) (setsRoutes : Bool) (n : Node) (text : String) (m : Mesh) :
    Except StoreError Mesh :=
  match normalizeAddress text with
  | .error e => .error e
  | .ok addr =>
    if addr = n.address then .ok m
    else
      let newPfx := (vpnPrefixFromAddress addr).getD ""
      let routes := match vpnPrefixFromAddress n.address with
        | none => some n.routes
        | some oldPfx =>
          if setsRoutes = false ∧ oldPfx ≠ newPfx then replaceVPNRoute n.routes oldPfx newPfx
          else some n.routes
      match routes with
      | none => .error .badPrefix
      | some routes => .ok (m.modify id fun n =>
        { n with address := addr, addressChangedAt := now, routes := routes })

def patchEnabled (enabled : Bool) (m : Mesh) : Except StoreError Mesh :=
  .ok (m.modify id fun n => { n with disabled := !enabled })

def patchRoutes (routes : List String) (m : Mesh) : Except StoreError Mesh :=
  (normalizeRoutes routes).map fun routes => m.modify id fun n => { n with routes := routes }

def patchEndpoint (endpoint : String) (m : Mesh) : Except StoreError Mesh :=
  ((normalizeEndpoint endpoint).mapError .endpoint).map fun ep =>
    m.modify id fun n => { n with endpoint := ep }

/-- The listen port: a new mother without transport gets the default one, and a card has no
UDP mode. -/
def patchListenPort (settings : Settings) (n : Node) (port : UInt16) (m : Mesh) :
    Except StoreError Mesh :=
  .ok ((setListenPort m id port).modify id fun new =>
    if new.isMagnetParent then
      if n.isMagnetParent = false ∧ new.transport = "" then
        { new with transport := settings.transportJSON }
      else new
    else { new with udpMode := false })

def patchUdpMode (udpMode : Bool) (m : Mesh) : Except StoreError Mesh :=
  if (m.findNode id).any Node.isMagnetParent = false then .error .udpModeCard
  else .ok (m.modify id fun n => { n with udpMode := udpMode })

/-- The transport, which selects TCP unless the patch sets the mode. -/
def patchTransport (setsMode : Bool) (transport : String) (m : Mesh) : Except StoreError Mesh :=
  if (m.findNode id).any Node.isMagnetParent = false then .error .transportCard
  else (normalizeTransportJSON transport).map fun raw => m.modify id fun n =>
    { n with transport := raw, udpMode := n.udpMode && setsMode }

def patchParentID (parentID : String) (m : Mesh) : Except StoreError Mesh :=
  attachTo m id (String.ofList (trimSpace parentID.toList))

def patchParentIDs (parentIDs : List String) (m : Mesh) : Except StoreError Mesh :=
  setParents m id parentIDs

def patchClusterWith (newClusterID : String) (peer : String) (m : Mesh) : Except StoreError Mesh :=
  let peer := String.ofList (trimSpace peer.toList)
  if peer = "" then .ok (leaveCluster m id) else joinCluster m id peer newClusterID

end

/-- What the other members of the node's cluster take over. -/
def NodePatch.sync (p : NodePatch) : ClusterSync where
  port := p.listenPort.isSome
  routes := p.routes.isSome
  parents := p.parentID.isSome || p.parentIDs.isSome
  forwards := false
  transport := p.transport.isSome || p.udpMode.isSome

/-- The edit of `PatchNode`. -/
def patchMesh (id : String) (p : NodePatch) (now : Time) (newClusterID : String)
    (settings : Settings) (m : Mesh) : Except StoreError (Mesh × Node) :=
  match m.findNode id with
  | none => .error (.nodeNotFound id)
  | some n => do
      let m ← patchField p.name patchName m
      let m ← patchField p.address (patchAddress id now p.routes.isSome n) m
      let m ← patchField p.enabled (patchEnabled id) m
      let m ← patchField p.routes (patchRoutes id) m
      let m ← patchField p.endpoint (patchEndpoint id) m
      let m ← patchField p.listenPort (patchListenPort id settings n) m
      let m ← patchField p.udpMode (patchUdpMode id) m
      let m ← patchField p.transport (patchTransport id p.udpMode.isSome) m
      let m ← patchField p.parentID (patchParentID id) m
      let m ← patchField p.parentIDs (patchParentIDs id) m
      let m ← if p.sync = ⟨false, false, false, false, false⟩ then .ok m else syncCluster m id p.sync
      let m ← patchField p.clusterWith (patchClusterWith id newClusterID) m
      let m := pruneClusters m
      match m.findNode id with
      | none => .error (.nodeNotFound id)
      | some out => .ok (m, out)

def patchNode (codec : Codec) (id : String) (p : NodePatch) (now : Time) (newClusterID : String) :
    Operation Node :=
  rewriteMesh codec validateMesh (patchMesh id p now newClusterID)

def preserveServerFields (now : Time) (n cur : Node) : Node :=
  { n with
    privateKey := if n.privateKey = "" then cur.privateKey else n.privateKey
    token := if n.token = "" then cur.token else n.token
    publicV4 := cur.publicV4
    addressChangedAt := if n.address ≠ cur.address then now else cur.addressChangedAt }

/-- The loop of `PutMesh` over the nodes of the new mesh. -/
def preserveNodes (now : Time) (cur : Mesh) : List Node → Except StoreError (List Node)
  | [] => .ok []
  | n :: nodes =>
    match cur.findNode n.id with
    | none => .error (.cannotAddNode n.id)
    | some c => (preserveNodes now cur nodes).map (preserveServerFields now n c :: ·)

def putMesh (codec : Codec) (m : Mesh) (now : Time) : Operation Unit :=
  rewriteMesh codec validateMesh fun _ cur =>
    (preserveNodes now cur m.nodes).map fun nodes => ({ m with nodes := nodes }, ())

def putNodeForwards (codec : Codec) (id : String) (fwds : List Forward) :
    Operation (List Forward) :=
  if fwds.length > maxNodeFwds then throw .tooManyForwards
  else rewriteMesh codec validateMesh fun _ => putForwards id fwds

/-! ## Subnets -/

def isMagnetChild (m : Mesh) (id : String) : Bool :=
  (m.links.filter fun l => l.fromNodeID = id).any fun l =>
    (m.findNode l.toNodeID).any Node.isMagnetParent

/-- `subnetSwapGuard`; it gives the node. -/
def subnetSwapGuard (m : Mesh) (id : String) : Except StoreError Node :=
  match m.findNode id with
  | none => .error (.nodeNotFound id)
  | some n =>
    if n.disabled then .error (.nodeDisabled id)
    else if isMagnetChild m id then .error (.nodeAttached id)
    else .ok n

/-- A node moved to an address, with its VPN route. -/
def moveNode (n : Node) (addr oldPrefix newPrefix : String) (now : Time) : Except StoreError Node :=
  match replaceVPNRoute n.routes oldPrefix newPrefix with
  | none => .error .badPrefix
  | some routes => .ok { n with address := addr, addressChangedAt := now, routes := routes }

/-- The edit of `SwapNodeAddresses`. -/
def swapAddresses (aID bID : String) (now : Time) (m : Mesh) : Except StoreError (Mesh × Unit) := do
  let a ← subnetSwapGuard m aID
  let b ← subnetSwapGuard m bID
  match vpnPrefixFromAddress a.address, vpnPrefixFromAddress b.address with
  | some oldA, some oldB => do
      let movedA ← moveNode a b.address oldA oldB now
      let movedB ← moveNode b a.address oldB oldA now
      .ok ((m.modify aID fun _ => movedA).modify bID fun _ => movedB, ())
  | _, _ => .error .badPrefix

def swapNodeAddresses (codec : Codec) (aID bID : String) (now : Time) : Operation Unit :=
  if aID = bID then throw .swapWithItself
  else rewriteMesh codec validateMesh fun _ => swapAddresses aID bID now

def nodesInVPNPrefix (m : Mesh) (subnet : String) : List Node :=
  match parsePrefix subnet.toList with
  | none => []
  | some want => m.nodes.filter fun n =>
    vpnPrefixFromAddress n.address = some (String.ofList want.masked.string)

/-- The edit of `ReassignNodeSubnet`. -/
def reassignSubnet (nodeID targetPrefix : String) (now : Time) (m : Mesh) :
    Except StoreError (Mesh × Unit) := do
  let n ← subnetSwapGuard m nodeID
  match vpnPrefixFromAddress n.address with
  | none => .error .badPrefix
  | some oldPrefix =>
    if oldPrefix = targetPrefix then .error (.alreadyIn targetPrefix)
    else do
      let others := (nodesInVPNPrefix m targetPrefix).filter fun x => x.id ≠ nodeID
      let addr ← nextAddress targetPrefix others
      let n ← moveNode n addr oldPrefix targetPrefix now
      .ok (m.modify nodeID fun _ => n, ())

def reassignNodeSubnet (codec : Codec) (nodeID targetPrefix : String) (now : Time) :
    Operation Unit :=
  match parsePrefix (trimSpace targetPrefix.toList) with
  | none => throw .badPrefix
  | some p => rewriteMesh codec validateMesh fun _ =>
    reassignSubnet nodeID (String.ofList p.masked.string) now

/-! ## Single values -/

structure SettingsPatch where
  enrollToken : Option String
  vpnSubnet : Option String
  transportJSON : Option String
  relayPort : Option Int
  relayHost : Option String

def normalizeEnrollToken (v : String) : Except StoreError String :=
  let v := String.ofList (trimSpace v.toList)
  if v.utf8ByteSize < 8 then .error .enrollTokenShort
  else if v.utf8ByteSize > 128 ∨ containsAny v.toList [' ', '\t', '\r', '\n', '"'] then
    .error .enrollTokenForm
  else .ok v

def normalizePool (v : String) : Except StoreError String :=
  match parsePrefix (trimSpace v.toList) with
  | none => .error .vpnSubnetInvalid
  | some p =>
    if p.ip.is4 = false then .error .vpnSubnetNotIPv4
    else if p.bits < 8 ∨ p.bits > 30 then .error .vpnSubnetBits
    else .ok (String.ofList p.masked.string)

def normalizeRelayPort (p : Int) : Except StoreError UInt16 :=
  if p < 0 ∨ p > 65535 then .error .relayPort else .ok (UInt16.ofNat p.toNat)

/-- A field of a settings patch: its normalized value, or the old one. -/
def patchSetting {α β : Type} (field : Option α) (normalize : α → Except StoreError β) (old : β) :
    Except StoreError β :=
  match field with
  | none => .ok old
  | some value => normalize value

/-- `Store.UpdateSettings`: the revision goes up with the port or the host of the relay. -/
def updateSettings (p : SettingsPatch) : Operation Unit := do
  let s ← get
  let enrollToken ← Effect.lift
    (patchSetting p.enrollToken normalizeEnrollToken s.settings.enrollToken)
  let vpnSubnet ← Effect.lift (patchSetting p.vpnSubnet normalizePool s.settings.vpnSubnet)
  let transportJSON ← Effect.lift
    (patchSetting p.transportJSON normalizeTransportJSON s.settings.transportJSON)
  let port ← Effect.lift (patchSetting p.relayPort normalizeRelayPort s.relay.port)
  let host ← Effect.lift (patchSetting p.relayHost
    (fun v => (normalizeRelayHost v).mapError .relayHost) s.relay.host)
  set { s with
    settings := { s.settings with
      enrollToken := enrollToken, vpnSubnet := vpnSubnet, transportJSON := transportJSON }
    relay := { s.relay with port := port, host := host }
    revision := if p.relayPort.isSome || p.relayHost.isSome then s.revision + 1 else s.revision }

def emptyObject : String := "\x7b\x7d"

/-- A value written with the next revision, unless its text is the same as before: whether
anything changed. -/
def storeText (prev next : String) (changed : State) : Operation Bool :=
  if prev = next then pure false
  else do
    set { changed with revision := changed.revision + 1 }
    pure true

/-- `Store.SetPaths`: whether anything changed. -/
def setPaths (codec : Codec) (p : PathChoices) : Operation Bool := do
  let s ← get
  let next := if p.keys = [] then emptyObject else codec.marshalPaths p
  let prev := if s.pathsJSON = "" then emptyObject else s.pathsJSON
  storeText prev next { s with pathsJSON := next }

/-- `Store.SetStandby`: whether anything changed. -/
def setStandby (codec : Codec) (sb : GoMap String String) : Operation Bool := do
  let s ← get
  let next := if sb.keys = [] then emptyObject else codec.marshalStandby sb
  let prev := if trimSpace s.standbyJSON.toList = [] then emptyObject else s.standbyJSON
  storeText prev next { s with standbyJSON := next }

/-- The rows of the table of nodes with the public address of one node changed. -/
def withPublicV4 (id v4 : String) (nodes : List Node) : List Node :=
  nodes.map fun n => if n.id = id then { n with publicV4 := v4 } else n

theorem map_withPublicV4 {β : Type} (key : Node → β) (id v4 : String) (nodes : List Node)
    (unread : ∀ n, key { n with publicV4 := v4 } = key n) :
    (withPublicV4 id v4 nodes).map key = nodes.map key := by
  rw [withPublicV4, List.map_map]
  apply List.map_congr_left
  intro n _
  rw [Function.comp_apply]
  split
  · exact unread n
  · rfl

/-- `Store.SetPublicIPs`, without the IPv6 address, which no config shows: whether the
revision went up. -/
def setPublicIPs (nodeID v4 : String) : Operation Bool := do
  let s ← get
  match s.nodes.find? fun n => n.id = nodeID with
  | none => throw .noRows
  | some n =>
    let bump : Bool := ¬ (n.listenPort = 0 ∨ n.endpoint ≠ "" ∨ n.publicV4 = v4)
    set { s with
      nodes := withPublicV4 nodeID v4 s.nodes
      ids := by rw [map_withPublicV4 Node.id nodeID v4 s.nodes fun _ => rfl]; exact s.ids
      tokens := by rw [map_withPublicV4 Node.token nodeID v4 s.nodes fun _ => rfl]; exact s.tokens
      revision := if bump then s.revision + 1 else s.revision }
    pure bump

/-- `Store.SetRelayPublicV4`: whether the revision went up. -/
def setRelayPublicV4 (v4 : String) : Operation Bool := do
  let s ← get
  let v4 := String.ofList (trimSpace v4.toList)
  if v4 = "" ∨ s.relay.publicV4 = v4 then pure false
  else
    let pinned : Bool := trimSpace s.relay.host.toList ≠ []
    set { s with
      relay := { s.relay with publicV4 := v4 }
      revision := if pinned then s.revision else s.revision + 1 }
    pure !pinned

end Store
