import WireguardMesh.Core.Plan
import WireguardMesh.Core.TimeFormat

/-! # The fingerprint of the planning inputs

`PlanKey` writes what `PlanMesh` reads into a hash: every field is followed by a zero byte,
and every node and every link by a one byte. `planKeyText` is the text that is hashed.
-/

namespace Core

open GoText Net Framing

/-- The symbol after a field. -/
def fieldEnd : Char := '\x00'

/-- The symbol after a node or a link. -/
def recordEnd : Char := '\x01'

/-- The fields of a node: ten fixed ones, the transport if there is one, and the routes. -/
def Node.keyFields (n : Node) : List (List Char) :=
  [n.id.toList, n.publicKey.toList, n.address.toList, itoa n.listenPort.toNat, n.endpoint.toList,
    n.publicV4.toList, formatBool n.disabled, formatBool n.udpMode, n.addressChangedAt.format,
    n.cluster.toList] ++
    (if n.transport ≠ "" then [n.transport.toList] else []) ++ n.routes.map String.toList

/-- The fields of a link: its ends, the keepalive and the allowed addresses. -/
def Link.keyFields (l : Link) : List (List Char) :=
  [l.fromNodeID.toList, l.toNodeID.toList, itoaInt l.keepalive] ++ l.allowedIPs.map String.toList

/-- The `range` statements over maps in `PlanKey`. -/
inductive KeySite
  | paths
  | subnets (id : String)

def sortedKeys {V : Type} (order : RangeOrder KeySite) (site : KeySite) (m : GoMap String V) :
    List String :=
  (order.range site m.keys).insertionSort (· ≤ ·)

/-- The fields of the path choices: for each node and subnet, both and the gateway. -/
def Mesh.pathFields (order : RangeOrder KeySite) (mesh : Mesh) : List (List (List Char)) :=
  (sortedKeys order .paths mesh.paths).flatMap fun id =>
    let bySub := mesh.paths.getD id ∅
    (sortedKeys order (.subnets id) bySub).map fun sub =>
      [id.toList, sub.toList, (bySub.getD sub "").toList]

def Relay.keyFields (r : Relay) : List (List Char) :=
  ["relay".toList, r.publicKey.toList, itoa r.port.toNat, r.host.toList]

/-- What `PlanKey` writes into the hash. -/
def planKeyText (order : RangeOrder KeySite) (mesh : Mesh) : List Char :=
  records fieldEnd recordEnd (mesh.nodes.map Node.keyFields) ++
    records fieldEnd recordEnd (mesh.links.map Link.keyFields) ++
    (mesh.pathFields order).flatMap (fields fieldEnd) ++
    (mesh.relay.map fun r => fields fieldEnd r.keyFields).getD []

/-- `PlanKey`, for the function that gives the hexadecimal SHA-256 digest of a text. -/
def planKey (sha256 : String → String) (order : RangeOrder KeySite) (mesh : Mesh) : String :=
  sha256 (String.ofList (planKeyText order mesh))

end Core
