import WireguardMesh.Store.Magnet

/-! # The forwards of a node

The part of `PutNodeForwards` that works on a loaded mesh: every entry is checked and put
into its canonical form, no two entries may listen on one port, and a TCP and a UDP entry
that agree otherwise become one.
-/

namespace Store

open Core GoText Net

def maxNodeFwds : Nat := 256

/-- `normalizeForwardProtocol`; empty for an unknown protocol. -/
def normalizeForwardProtocol (p : String) : String :=
  let p := (String.ofList (trimSpace p.toList)).toLower
  if p = "tcp" then "tcp"
  else if p = "udp" then "udp"
  else if p ∈ ["tcp/udp", "udp/tcp", "tcp,udp", "udp,tcp", "both"] then "tcp/udp"
  else ""

def expandForwardProtocols (p : String) : List String :=
  if p = "tcp/udp" then ["tcp", "udp"] else [p]

/-- A port some entry listens on: what `seen` collects. -/
structure Listener where
  protocol : String
  port : UInt16
  host : String
deriving DecidableEq

/-- The loop over the ports of a range, for entry number `i` of the list. -/
def claimPorts (i : Nat) (protocol host listen : String) :
    List UInt16 → List Listener → Except StoreError (List Listener)
  | [], seen => .ok seen
  | port :: ports, seen =>
    if seen.any fun l => l.protocol = protocol ∧ l.port = port ∧
        (l.host = "0.0.0.0" ∨ host = "0.0.0.0" ∨ l.host = host) then
      .error (.forwardDuplicate i protocol listen)
    else claimPorts i protocol host listen ports (seen ++ [⟨protocol, port, host⟩])

/-- The loop over the protocols of an entry. -/
def claimProtocols (i : Nat) (host listen : String) (ports : List UInt16) :
    List String → List Listener → Except StoreError (List Listener)
  | [], seen => .ok seen
  | protocol :: protocols, seen =>
    match claimPorts i protocol host listen ports seen with
    | .error e => .error e
    | .ok seen => claimProtocols i host listen ports protocols seen

/-- One entry in canonical form, and the listeners with those of the entry. -/
def cleanForward (m : Mesh) (id : String) (i : Nat) (f : Forward) (seen : List Listener) :
    Except StoreError (Forward × List Listener) :=
  let protocol := normalizeForwardProtocol f.protocol
  let listen := String.ofList (trimSpace f.listen.toList)
  if protocol = "" then .error (.forwardProtocol i)
  else match parseListenExpr listen with
  | .error e => .error (.forwardPorts i e)
  | .ok (host, listenSpan) =>
    match resolveDest listenSpan f.dest f.destPort with
    | .error e => .error (.forwardPorts i e)
    | .ok destSpan =>
      let star := trimSpace f.dest.toList = ['*']
      let clean : Forward := {
        nodeID := id, protocol := protocol, listen := listen, destNodeID := f.destNodeID,
        dest := if star then "*" else destSpan.canon,
        destPort := if star then 0 else destSpan.start }
      if (m.findNode f.destNodeID).isNone then .error (.forwardDest i)
      else (claimProtocols i host listen listenSpan.ports (expandForwardProtocols protocol)
        seen).map fun seen => (clean, seen)

/-- The loop over the entries, which are numbered from one. -/
def cleanForwards (m : Mesh) (id : String) :
    Nat → List Forward → List Listener → List Forward → Except StoreError (List Forward)
  | _, [], _, clean => .ok clean
  | i, f :: fwds, seen, clean =>
    match cleanForward m id i f seen with
    | .error e => .error e
    | .ok (f, seen) => cleanForwards m id (i + 1) fwds seen (clean ++ [f])

/-- What entries of a pair have in common. -/
def forwardKey (f : Forward) : String × String × String × UInt16 :=
  (f.listen, f.destNodeID, f.dest, f.destPort)

/-- The entries of one key after merging: other protocols first, then the pair. -/
def mergedEntries (group : List Forward) : List Forward :=
  let tcp := (group.filter fun f => f.protocol = "tcp").getLast?
  let udp := (group.filter fun f => f.protocol = "udp").getLast?
  let others := group.filter fun f => f.protocol ≠ "tcp" ∧ f.protocol ≠ "udp"
  match tcp, udp with
  | some t, some _ => others ++ [{ t with protocol := "tcp/udp" }]
  | _, _ => others ++ tcp.toList ++ udp.toList

/-- `mergeForwardPairs`: the keys keep the order of their first entries. -/
def mergeForwardPairs (fwds : List Forward) : List Forward :=
  (fwds.map forwardKey).eraseDups.flatMap fun key =>
    mergedEntries (fwds.filter fun f => forwardKey f = key)

/-- The edit of `PutNodeForwards`, with the list it returns. -/
def putForwards (id : String) (fwds : List Forward) (m : Mesh) :
    Except StoreError (Mesh × List Forward) :=
  if (m.findNode id).isNone then .error (.nodeNotFound id)
  else match cleanForwards m id 1 fwds [] [] with
  | .error e => .error e
  | .ok clean =>
    let clean := mergeForwardPairs clean
    let m := { m with forwards := (m.forwards.filter fun f => f.nodeID ≠ id) ++ clean }
    (syncCluster m id ⟨false, false, false, true, false⟩).map fun m => (m, clean)

end Store
