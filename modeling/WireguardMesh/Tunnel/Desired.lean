import WireguardMesh.Core.Compile
import WireguardMesh.Core.Ports
import WireguardMesh.Device.Uapi

/-! # Hot-applying a desired config

`ApplyDesiredConfig` reads the peers of the device, writes the difference to the desired
config as one UAPI set operation, and then sets up the interface of the operating system.
Unchanged peers get no section. The last applied config decides whether a port or an endpoint that
differs on the device is written: only if the Master changed it.
-/

namespace Tunnel

open Core GoText Net Wireguard

structure LivePeer where
  endpoint : List Char
  keepalive : Int
  allowed : GoMap (List Char) Unit

/-- The `range` statements over maps. -/
inductive Site (K : Type)
  /-- `device.peers.keyMap` in `IpcGetOperation` -/
  | keyMap
  /-- `cur.allowed` of one peer -/
  | allowed (key : K)
  /-- `live` -/
  | live

/-- Where applying a config fails. -/
inductive ApplyError
  /-- `privateKey: %w` -/
  | privateKey
  /-- `peer publicKey: %w` -/
  | publicKey
  /-- `forward listen %q: %w` -/
  | forward (listen : String)
  /-- `apply desired uapi: %w` -/
  | uapi (failed : IpcError)
  /-- The error of `applyIfaceNetConfig`. -/
  | iface
deriving DecidableEq

def canonicalPrefix (s : List Char) : List Char :=
  match parsePrefix s with
  | some p => p.masked.string
  | none =>
    match parseAddr s with
    | some ip => (prefixFrom ip ip.bitLen).string
    | none => s

def prevEndpoints (prev : Option DesiredConfig) : GoMap String String :=
  match prev with
  | none => ∅
  | some prev => prev.peers.foldl (fun out p => out.insert p.publicKey p.endpoint) ∅

def sameIfaceNet (prev : Option DesiredConfig) (d : DesiredConfig) : Bool :=
  prev.any fun prev => prev.interfaceName = d.interfaceName &&
    prev.interface.address = d.interface.address && prev.interface.mtu = d.interface.mtu

/-- The listener that `ExpandForward` makes for one port. -/
structure PortForwardSpec where
  proto : String
  listenHost : String
  listenPort : Nat
  destHost : String
  destPort : Nat
  statListen : String
  bestEffort : Bool
deriving DecidableEq

def expandForward (fw : DesiredForward) : Except PortError (List PortForwardSpec) :=
  match parseListenExpr fw.listen with
  | .error e => .error e
  | .ok (host, listenSpan) =>
    match resolveDest listenSpan fw.dest fw.destPort with
    | .error e => .error e
    | .ok destSpan =>
      let proto := if fw.protocol = "" then "tcp" else fw.protocol.toLower
      .ok ((List.range listenSpan.len.toNat).map fun i =>
        { proto := proto
          listenHost := host
          listenPort := listenSpan.start.toNat + i
          destHost := fw.destHost
          destPort := destSpan.start.toNat + i
          statListen := String.ofList (trimSpace fw.listen.toList)
          bestEffort := 64 < listenSpan.len })

section

variable {K : Type} [DecidableEq K]

/-! ## The live peers -/

/-- The lines of a get operation that `readLivePeers` looks at. -/
inductive GetLine (K : Type)
  | publicKey (key : K)
  | endpoint (text : List Char)
  | keepalive (seconds : Nat)
  | allowedIP (text : List Char)

/-- The lines of one peer in `IpcGetOperation`. -/
def peerLines (dev : Device K) (key : K) (peer : Peer) : List (GetLine K) :=
  .publicKey key :: (peer.endpoint.map fun e => GetLine.endpoint (addrPortString e)).toList ++
    .keepalive peer.keepalive ::
      (dev.allowedips.entriesForPeer peer.ref).map fun p => .allowedIP p.string

/-- The peers in `Device.IpcGetOperation`. -/
def ipcGetOperation (order : RangeOrder (Site K)) (dev : Device K) : List (GetLine K) :=
  (order.range .keyMap dev.peers.entries).flatMap fun entry => peerLines dev entry.1 entry.2

/-- One round of the loop of `readLivePeers`, with the peer that `cur` points to. -/
def readLine (state : GoMap K LivePeer × Option K) : GetLine K → GoMap K LivePeer × Option K
  | .publicKey key => (state.1.insert key ⟨[], 0, ∅⟩, some key)
  | .endpoint text => (onCur fun live => { live with endpoint := text }, state.2)
  | .keepalive seconds => (onCur fun live => { live with keepalive := seconds }, state.2)
  | .allowedIP text =>
    (onCur fun live => { live with allowed := live.allowed.insert text () }, state.2)
where
  onCur (f : LivePeer → LivePeer) : GoMap K LivePeer :=
    match state.2 with
    | none => state.1
    | some key => state.1.modify key f

def readLivePeers (order : RangeOrder (Site K)) (dev : Device K) : GoMap K LivePeer :=
  ((ipcGetOperation order dev).foldl readLine (∅, none)).1

/-! ## The difference -/

/-- The texts of a peer's `AllowedIPs` that are not blank. -/
def allowedTexts (p : DesiredPeer) : List (List Char) :=
  (p.allowedIPs.map fun cidr => trimSpace cidr.toList).filter fun cidr => cidr ≠ []

/-- The set `want` of a peer. -/
def wantedPrefixes (p : DesiredPeer) : List (List Char) :=
  (allowedTexts p).map canonicalPrefix

section

variable (order : RangeOrder (Site K)) (prevEp : GoMap String String)

/-- The endpoint line: the Master changed it, or the peer is new. -/
def endpointLines (cur : Option LivePeer) (p : DesiredPeer) : List (Line K) :=
  if p.endpoint ≠ "" ∧ cur.all fun cur =>
      cur.endpoint ≠ p.endpoint.toList && prevEp.getD p.publicKey "" ≠ p.endpoint then
    [.endpoint p.endpoint.toList]
  else []

/-- The prefixes to add. -/
def addLines (cur : Option LivePeer) (p : DesiredPeer) : List (Line K) :=
  ((wantedPrefixes p).filter fun pfx => cur.all fun cur => pfx ∉ cur.allowed.keys).map .allowedIP

def removeLines (key : K) (cur : Option LivePeer) (p : DesiredPeer) : List (Line K) :=
  match cur with
  | none => []
  | some cur =>
    ((order.range (.allowed key) cur.allowed.keys).filter fun pfx =>
      pfx ∉ wantedPrefixes p).map fun pfx => .allowedIP ('-' :: pfx)

def keepaliveLines (cur : Option LivePeer) (p : DesiredPeer) : List (Line K) :=
  if cur.elim (0 < p.keepalive : Bool) fun cur => cur.keepalive ≠ p.keepalive then
    [.keepalive p.keepalive]
  else []

/-- `peerBuf` of a peer. -/
def peerBuf (key : K) (cur : Option LivePeer) (p : DesiredPeer) : List (Line K) :=
  endpointLines prevEp cur p ++ addLines cur p ++ removeLines order key cur p ++
    keepaliveLines cur p

/-- The section of a desired peer, which an unchanged peer does not have. -/
def peerSection (live : GoMap K LivePeer) (key : K) (p : DesiredPeer) : List (Line K) :=
  let body := peerBuf order prevEp key (live.lookup key) p
  if (live.lookup key).isSome ∧ body = [] then [] else .publicKey key :: body

end

/-- The sections that remove the live peers that are not wanted. -/
def removalSections (order : RangeOrder (Site K)) (live : GoMap K LivePeer) (wanted : List K) :
    List (Line K) :=
  ((order.range .live live.keys).filter fun key => key ∉ wanted).flatMap fun key =>
    [.publicKey key, .remove]

def listenPortLines (dev : Device K) (d : DesiredConfig) (prev : Option DesiredConfig) :
    List (Line K) :=
  let want := d.interface.listenPort
  if want ≠ 0 ∧ want ≠ dev.port ∧ prev.all (fun prev => want ≠ prev.interface.listenPort) then
    [.listenPort want]
  else []

section

variable (decode : String → Option K)

def peerKeys (d : DesiredConfig) : Option (List K) :=
  d.peers.mapM fun p => decode p.publicKey

/-- The set operation that `ApplyDesiredConfig` writes; `decode` is `base64ToHex`. -/
def desiredLines (order : RangeOrder (Site K)) (dev : Device K) (d : DesiredConfig)
    (prev : Option DesiredConfig) : Except ApplyError (List (Line K)) :=
  match decode d.interface.privateKey with
  | none => .error .privateKey
  | some privateKey =>
    match peerKeys decode d with
    | none => .error .publicKey
    | some keys =>
      match d.forwards.find? fun fw => !(expandForward fw).isOk with
      | some fw => .error (.forward fw.listen)
      | none =>
        let live := readLivePeers order dev
        .ok (.privateKey privateKey :: listenPortLines dev d prev ++
          (keys.zip d.peers).flatMap (fun peer =>
            peerSection order (prevEndpoints prev) live peer.1 peer.2) ++
          removalSections order live keys)

/-- What the surroundings of a call decide: the map orders, the system's answers to requests for
ports, and whether `applyIfaceNetConfig` succeeds. -/
structure Surroundings (K : Type) where
  order : RangeOrder (Site K)
  listen : UInt16 → Option UInt16
  iface : Bool

/-- `ApplyDesiredConfig`. Errors of routes and of IP forwarding are only logged. -/
def applyDesiredConfig (ops : KeyOps K) (around : Surroundings K) (dev : Device K)
    (d : DesiredConfig) (prev : Option DesiredConfig) : Device K × Option ApplyError :=
  match desiredLines decode around.order dev d prev with
  | .error failed => (dev, some failed)
  | .ok lines =>
    match ipcSetOperation ops around.listen dev lines with
    | ((dev, _), some failed) => (dev, some (.uapi failed))
    | ((dev, _), none) =>
      (dev, if sameIfaceNet prev d || around.iface then none else some .iface)

end

end

end Tunnel
