import WireguardMesh.Foundation.Effect
import WireguardMesh.Core.Plan

/-! # Desired configs

`CompileDesiredWithPlan` cuts a node's config out of a plan, and `RelayPeers` the peer list
of the Master's relay.
-/

namespace Core

open GoText Net

structure DesiredDefaults where
  interfaceName : String
  pollInterval : String
  transport : String
deriving DecidableEq

structure DesiredIface where
  privateKey : String
  address : String
  listenPort : UInt16
  mtu : Int
deriving DecidableEq

structure DesiredPeer where
  publicKey : String
  endpoint : String
  allowedIPs : List String
  keepalive : Int
deriving DecidableEq

structure DesiredForward where
  protocol : String
  listen : String
  destHost : String
  dest : String
  destPort : UInt16
deriving DecidableEq

structure DesiredConfig where
  revision : Int
  nodeID : String
  role : Role
  interfaceName : String
  pollInterval : String
  interface : DesiredIface
  ipForward : Bool
  transport : String
  udpMode : Bool
  peers : List DesiredPeer
  forwards : List DesiredForward
deriving DecidableEq

/-- The errors of `CompileDesiredWithPlan`. -/
inductive CompileError
  /-- `node %q not found` -/
  | nodeNotFound (id : String)
  /-- `node %q missing privateKey` -/
  | missingPrivateKey (id : String)
  /-- `forward dest unknown node %q` -/
  | forwardDestUnknown (id : String)
  /-- `empty address` -/
  | emptyAddress
deriving DecidableEq

/-- The first non-empty text of a list. -/
def firstNonempty (texts : List String) : String :=
  (texts.find? fun text => text ≠ "").getD ""

/-- The key and the dial endpoint of a peer id, from the mesh. -/
def peerContact (mesh : Mesh) (id : String) : Option (String × String) :=
  match (if id = relayNodeID then mesh.relay else none) with
  | some relay => some (relay.publicKey, relay.endpoint)
  | none => (mesh.findNode id).map fun peer => (peer.publicKey, peer.dialEndpoint)

/-- The config entry of a planned peer. -/
def desiredPeer (mesh : Mesh) (pp : PlanPeer) : Option DesiredPeer :=
  (peerContact mesh pp.peerID).map fun (pub, ep) =>
    let dials := pp.dial ∧ ep ≠ ""
    { publicKey := pub
      endpoint := if dials then ep else ""
      allowedIPs := pp.allowed.map fun p => String.ofList p.string
      keepalive := if dials then pp.keepalive else 0 }

/-- The protocols of a forward; an empty text means TCP. -/
def forwardProtocols (protocol : String) : List String :=
  let proto := protocol.toLower
  let proto := if proto = "" then "tcp" else proto
  if proto = "tcp/udp" ∨ proto = "udp/tcp" then ["tcp", "udp"] else [proto]

/-- The forwards of one entry of the mesh: its destination is the standby if one is usable,
and an unusable destination is skipped. -/
def desiredForward (mesh : Mesh) (fw : Forward) : Except CompileError (List DesiredForward) :=
  let excluded := fun n : Node => n.disabled ∨ n.id ∈ conflictLosers mesh
  match mesh.findNode fw.destNodeID with
  | none => .error (.forwardDestUnknown fw.destNodeID)
  | some dest =>
    let standby := (mesh.findNode (mesh.standby.getD dest.id "")).filter fun sb => ¬ excluded sb
    let dest := standby.getD dest
    if excluded dest then .ok []
    else match hostFromAddress dest.address with
    | none => .error .emptyAddress
    | some host => .ok <| (forwardProtocols fw.protocol).map fun p =>
      ⟨p, fw.listen, String.ofList host, fw.dest, fw.destPort⟩

def compileDesiredWithPlan (mesh : Mesh) (plan : Plan) (nodeID : String)
    (defaults : DesiredDefaults) : Except CompileError DesiredConfig :=
  match mesh.findNode nodeID with
  | none => .error (.nodeNotFound nodeID)
  | some n =>
    if n.privateKey = "" then .error (.missingPrivateKey nodeID)
    else
      let (transport, udpMode) := resolveBindConfig mesh n defaults.transport
      let out : DesiredConfig := {
        revision := mesh.revision
        nodeID := n.id
        role := n.role
        interfaceName := firstNonempty [n.interface, defaults.interfaceName, "lc0"]
        pollInterval := firstNonempty [n.pollInterval, defaults.pollInterval, "10s"]
        interface := {
          privateKey := n.privateKey
          address := n.address
          listenPort := n.listenPort
          mtu := if n.mtu = 0 then 1420 else n.mtu }
        ipForward := n.role = .server ∨ n.isMagnetParent ∨ n.routes ≠ []
        transport := transport
        udpMode := udpMode
        peers := []
        forwards := [] }
      if n.disabled then .ok out
      else
        ((mesh.forwards.filter fun fw => fw.nodeID = nodeID).mapM (desiredForward mesh)).map
          fun forwards => { out with
            peers := (plan.peersFor nodeID).filterMap (desiredPeer mesh)
            forwards := forwards.flatten }

/-- A compiled config belongs to a known node, and unless that is disabled it lists the
planned peers. -/
theorem peers_compileDesiredWithPlan {mesh : Mesh} {plan : Plan} {nodeID : String}
    {defaults : DesiredDefaults} {d : DesiredConfig}
    (compiled : compileDesiredWithPlan mesh plan nodeID defaults = .ok d) :
    ∃ n, mesh.findNode nodeID = some n ∧
      d.peers = if n.disabled then [] else (plan.peersFor nodeID).filterMap (desiredPeer mesh) := by
  rw [compileDesiredWithPlan] at compiled
  split at compiled
  · cases compiled
  · next n found =>
    refine ⟨n, found, ?_⟩
    dsimp only at compiled
    split at compiled
    · cases compiled
    · split at compiled
      · next off =>
        cases compiled
        rw [if_pos off]
      · next on =>
        rw [if_neg on]
        obtain ⟨_, _, rfl⟩ := Effect.except_map_eq_ok.mp compiled
        rfl

theorem forwards_compileDesiredWithPlan {mesh : Mesh} {plan : Plan} {nodeID : String} {n : Node}
    {defaults : DesiredDefaults} {d : DesiredConfig} (found : mesh.findNode nodeID = some n)
    (on : n.disabled = false) (compiled : compileDesiredWithPlan mesh plan nodeID defaults = .ok d) :
    ∃ lists, (mesh.forwards.filter fun fw => fw.nodeID = nodeID).mapM (desiredForward mesh) =
      .ok lists ∧ d.forwards = lists.flatten := by
  rw [compileDesiredWithPlan, found] at compiled
  dsimp only at compiled
  split at compiled
  · cases compiled
  · rw [on, if_neg Bool.false_ne_true] at compiled
    obtain ⟨lists, forwards, rfl⟩ := Effect.except_map_eq_ok.mp compiled
    exact ⟨lists, forwards, rfl⟩

def compileDesired (order : RangeOrder Site) (mesh : Mesh) (nodeID : String)
    (defaults : DesiredDefaults) : Except CompileError DesiredConfig :=
  compileDesiredWithPlan mesh (planMesh order mesh) nodeID defaults

/-- The relay's entry for a planned peer; the relay dials nobody. -/
def Plan.relayPeer (plan : Plan) (pp : PlanPeer) : Option DesiredPeer :=
  (plan.roster.node? pp.peerID).map fun pn =>
    { publicKey := pn.n.publicKey
      endpoint := ""
      allowedIPs := pp.allowed.map fun p => String.ofList p.string
      keepalive := 0 }

def Plan.relayPeers (plan : Plan) : List DesiredPeer :=
  (plan.peersFor relayNodeID).filterMap plan.relayPeer

end Core
