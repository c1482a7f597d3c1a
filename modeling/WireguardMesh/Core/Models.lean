import WireguardMesh.Foundation.GoMap
import WireguardMesh.Net.HostPort

/-! # The mesh table

The data model of the `core` package and the functions of single nodes and links. Texts are
strings, an absent JSON value is the empty string, and an instant is its civil time in UTC. Fields
of a node that neither planning nor compilation reads (its name, when it was last seen, its
location) are left out.
-/

namespace Core

open GoText Net

/-- An instant, as its civil time in UTC. -/
structure Time where
  year : Int
  month : Nat
  day : Nat
  hour : Nat
  minute : Nat
  second : Nat
  nano : Nat
  inRange : (1 ≤ month ∧ month ≤ 12) ∧ (1 ≤ day ∧ day ≤ 31) ∧ hour < 24 ∧ minute < 60 ∧
    second < 60 ∧ nano < 1000000000
deriving DecidableEq

namespace Time

/-- A number that orders instants as their civil times do. -/
def stamp (t : Time) : Int :=
  (((((t.year * 13 + t.month) * 32 + t.day) * 24 + t.hour) * 60 + t.minute) * 60 + t.second) *
    1000000000 + t.nano

/-- The zero `time.Time`: the start of the year 1. -/
def zero : Time :=
  ⟨1, 1, 1, 0, 0, 0, 0, by decide⟩

/-- `Time.IsZero`. -/
def isZero (t : Time) : Bool :=
  t = zero

/-- `Time.Before`. -/
def before (a b : Time) : Bool :=
  a.stamp < b.stamp

end Time

inductive Role
  | server
  | client
  | other (text : String)
deriving DecidableEq

structure Node where
  id : String
  role : Role
  publicKey : String
  privateKey : String
  address : String
  listenPort : UInt16
  endpoint : String
  mtu : Int
  token : String
  interface : String
  pollInterval : String
  transport : String
  udpMode : Bool
  disabled : Bool
  routes : List String
  addressChangedAt : Time
  cluster : String
  publicV4 : String
deriving DecidableEq

/-- `core.Link`: `fromNode` dials `toNode`. -/
structure Link where
  fromNodeID : String
  toNodeID : String
  allowedIPs : List String
  keepalive : Int
deriving DecidableEq

structure Forward where
  nodeID : String
  protocol : String
  listen : String
  destNodeID : String
  dest : String
  destPort : UInt16
deriving DecidableEq

structure Relay where
  publicKey : String
  port : UInt16
  host : String
deriving DecidableEq

/-- `core.PathChoices`: per node and printed subnet, the gateway in use. -/
abbrev PathChoices := GoMap String (GoMap String String)

structure Mesh where
  revision : Int
  nodes : List Node
  links : List Link
  forwards : List Forward
  paths : PathChoices
  relay : Option Relay
  standby : GoMap String String

def relayNodeID : String := "master"

def relayEndpointHost : String := "@master"

def Relay.endpoint (r : Relay) : String :=
  let host := trimSpace r.host.toList
  let host := if host = [] then relayEndpointHost.toList else host
  String.ofList (joinHostPort host (itoa r.port.toNat))

/-- `Node.IsMagnetParent`: a node with a listen port is a mother. -/
def Node.isMagnetParent (n : Node) : Bool :=
  0 < n.listenPort

def Node.dialEndpoint (n : Node) : String :=
  let ep := trimSpace n.endpoint.toList
  if ep ≠ [] then
    if (splitHostPort ep).isSome ∨ n.listenPort = 0 then String.ofList ep
    else String.ofList (joinHostPort (trim ep ['[', ']']) (itoa n.listenPort.toNat))
  else if n.listenPort = 0 ∨ n.publicV4 = "" then ""
  else String.ofList (joinHostPort n.publicV4.toList (itoa n.listenPort.toNat))

def Mesh.findNode (mesh : Mesh) (id : String) : Option Node :=
  mesh.nodes.find? fun n => n.id = id

theorem findNode_id {m : Mesh} {x : String} {n : Node} (found : m.findNode x = some n) : n.id = x :=
  of_decide_eq_true (List.find?_some (p := fun n : Node => n.id = x) found)

theorem findNode_of_mem {m : Mesh} (ids : (m.nodes.map Node.id).Nodup) {n : Node}
    (listed : n ∈ m.nodes) : m.findNode n.id = some n := by
  cases found : m.findNode n.id with
  | none =>
    have absent := List.find?_eq_none.mp found n listed
    exact absurd (decide_eq_true rfl) absent
  | some o =>
    have inside : o ∈ m.nodes := List.mem_of_find?_eq_some found
    rw [List.inj_on_of_nodup_map ids inside listed (findNode_id found)]

/-- The transport and mode a mother gives itself and the nodes attached to it. -/
def Node.ownBindConfig (n : Node) (defaults : String) : String × Bool :=
  if n.udpMode then ("", true)
  else if n.transport = "" then (defaults, false)
  else (n.transport, false)

/-- The first mother a node is linked to, by the order of the links. -/
def Mesh.firstMother (mesh : Mesh) (id : String) : Option Node :=
  (mesh.links.filter fun l => l.fromNodeID = id).findSome? fun l =>
    (mesh.findNode l.toNodeID).filter Node.isMagnetParent

/-- `core.ResolveBindConfig`: the transport, empty for none, and the UDP flag. -/
def resolveBindConfig (mesh : Mesh) (n : Node) (defaults : String) : String × Bool :=
  if n.isMagnetParent then n.ownBindConfig defaults
  else match mesh.firstMother n.id with
  | some mother => mother.ownBindConfig defaults
  | none => (defaults, false)

/-- The loop of `NormalizeRouteCIDRs`, with the printed prefixes so far; none when a route does not
parse or is a default route. -/
def normalizeRouteLoop : List String → List (List Char) → Option (List (List Char))
  | [], out => some out
  | r :: routes, out =>
    let text := trimSpace r.toList
    if text = [] then normalizeRouteLoop routes out
    else match parsePrefix text with
    | none => none
    | some p =>
      if p.masked.bits = 0 then none
      else if p.masked.string ∈ out then normalizeRouteLoop routes out
      else normalizeRouteLoop routes (out ++ [p.masked.string])

def normalizeRouteCIDRs (routes : List String) : Option (List (List Char)) :=
  normalizeRouteLoop routes []

/-- The prefixes `PlanMesh` parses from normalized routes; a list with a bad route counts
as empty. -/
def routePrefixes (routes : List String) : List Prefix :=
  ((normalizeRouteCIDRs routes).getD []).filterMap parsePrefix

end Core
