import WireguardMesh.Device.AllowedIPs
import WireguardMesh.Foundation.GoMap
import WireguardMesh.Net.HostPort

/-! # The device and its configuration protocol

The part of `device.Device` that the UAPI configures. A set operation is a list of lines, executed
one after the other; a `public_key` line starts the section of a peer, which the lines after it act
on. The texts of keys and numbers are kept as values; endpoints and prefixes are texts, as the bind
and `netip` read them. The peers that a set operation sends an immediate keepalive are part of its
result.
-/

namespace Wireguard

open GoText Net

/-- What the device computes from keys: `FromMaybeZeroHex` clamps a private key, and `publicKey` is
that of a clamped one. -/
structure KeyOps (K : Type) where
  clamp : K → K
  publicKey : K → K

/-- The fields of `device.Peer` that the UAPI sets. -/
structure Peer where
  ref : PeerRef
  endpoint : Option (Addr × Nat)
  disableRoaming : Bool
  keepalive : Nat
deriving DecidableEq

/-- `new(Peer)`. -/
def Peer.blank (ref : PeerRef) : Peer :=
  ⟨ref, none, false, 0⟩

def maxPeers : Nat := 65536

/-- `device.Device`. The bind moves its listener in place (`movable`) or is reopened for
another port. New peer objects are numbered from `fresh` on. -/
structure Device (K : Type) where
  privateKey : K
  publicKey : K
  port : UInt16
  up : Bool
  movable : Bool
  brokenRoaming : Bool
  peers : GoMap K Peer
  allowedips : AllowedIPs
  fresh : PeerRef

section

variable {K : Type} [DecidableEq K]

namespace Device

/-- `removePeerLocked` of the peer with a key, if there is one. -/
def removePeer (dev : Device K) (key : K) : Device K :=
  match dev.peers.lookup key with
  | none => dev
  | some peer =>
    { dev with
      allowedips := dev.allowedips.removeByPeer peer.ref
      peers := dev.peers.erase key }

def removeAllPeers (dev : Device K) : Device K :=
  dev.peers.keys.foldl removePeer dev

def setPrivateKey (ops : KeyOps K) (dev : Device K) (sk : K) : Device K :=
  if sk = dev.privateKey then dev
  else
    { dev.removePeer (ops.publicKey sk) with
      privateKey := sk
      publicKey := ops.publicKey sk }

/-- `Device.NewPeer`, for a key without peer. -/
def newPeer (dev : Device K) (key : K) : Device K :=
  { dev with
    peers := dev.peers.insert key (.blank dev.fresh)
    fresh := dev.fresh + 1 }

end Device

/-- Why a line fails. -/
inductive IpcError
  /-- `failed to set listen_port` -/
  | listenPort
  /-- `failed to create new peer: too many peers` -/
  | tooManyPeers
  /-- `failed to set endpoint` -/
  | endpoint
  /-- `failed to set persistent keepalive interval` -/
  | keepalive
  /-- `failed to set allowed ip` -/
  | allowedIP
  /-- `invalid UAPI device key` -/
  | deviceKey
  /-- `invalid UAPI peer key` -/
  | peerKey
deriving DecidableEq

inductive Line (K : Type)
  | privateKey (key : K)
  | listenPort (port : UInt16)
  | replacePeers
  | publicKey (key : K)
  | updateOnly
  | remove
  | endpoint (text : List Char)
  | keepalive (seconds : Int)
  | replaceAllowedIPs
  | allowedIP (text : List Char)
deriving DecidableEq

/-- The state of a set operation: the device, `deviceConfig`, and the fields of `ipcSetPeer`. The
current peer is the one with a key of the device, or `placeholder` if it is a `dummy`. The keys of
the peers that were sent a keepalive are recorded. -/
structure SetState (K : Type) where
  dev : Device K
  deviceConfig : Bool
  current : Option K
  dummy : Bool
  placeholder : Peer
  created : Bool
  pkaOn : Bool
  endpointSet : Bool
  keepalives : List K

def SetState.start (dev : Device K) : SetState K :=
  ⟨dev, true, none, false, .blank 0, false, false, false, []⟩

namespace SetState

/-- The peer that the lines of the section act on. -/
def peer (s : SetState K) : Option Peer :=
  if s.dummy then some s.placeholder else s.current.bind s.dev.peers.lookup

/-- A change of the current peer. -/
def modifyPeer (s : SetState K) (f : Peer → Peer) : SetState K :=
  if s.dummy then { s with placeholder := f s.placeholder }
  else match s.current with
  | none => s
  | some key => { s with dev := { s.dev with peers := s.dev.peers.modify key f } }

/-- A change of the table for the current peer, which a dummy does not make. -/
def modifyTable (s : SetState K) (f : PeerRef → AllowedIPs → AllowedIPs) : SetState K :=
  if s.dummy then s
  else match s.peer with
  | none => s
  | some peer => { s with dev := { s.dev with allowedips := f peer.ref s.dev.allowedips } }

/-- The removal of the current peer, which leaves a dummy. -/
def dropPeer (s : SetState K) : SetState K :=
  { s with
    dev := if s.dummy then s.dev else s.current.elim s.dev s.dev.removePeer
    placeholder := .blank 0
    dummy := true }

/-- A new peer with an endpoint does not roam if the bind cannot. -/
def markRoaming (s : SetState K) : SetState K :=
  if s.created then
    s.modifyPeer fun p => { p with disableRoaming := s.dev.brokenRoaming && p.endpoint.isSome }
  else s

def handlePostConfig (s : SetState K) : SetState K :=
  if s.dummy then s
  else match s.current, s.peer with
  | some key, some peer =>
    if s.dev.up && (s.pkaOn || (s.endpointSet && 0 < peer.keepalive)) then
      { s.markRoaming with keepalives := s.keepalives ++ [key] }
    else s.markRoaming
  | _, _ => s

end SetState

section

variable (ops : KeyOps K) (listen : UInt16 → Option UInt16)

/-- `Device.BindSetListenPort`; the system answers with the port it opened, or refuses. -/
def bindSetListenPort (dev : Device K) (port : UInt16) : Device K × Option IpcError :=
  if port ≠ 0 ∧ port = dev.port then (dev, none)
  else match listen port with
  | some actual => ({ dev with port := actual }, none)
  | none =>
    (if dev.movable && dev.up then dev else { dev with port := 0 }, some .listenPort)

/-- `Device.BindReplace` by a bind that can or cannot move its listener; it opens the port of the
old one. -/
def bindReplace (dev : Device K) (movable : Bool) : Device K × Bool :=
  if dev.up then
    match listen dev.port with
    | some actual => ({ dev with movable := movable, port := actual }, true)
    | none => ({ dev with movable := movable, port := 0 }, false)
  else ({ dev with movable := movable }, true)

def handleDeviceLine (s : SetState K) : Line K → SetState K × Option IpcError
  | .privateKey key => ({ s with dev := s.dev.setPrivateKey ops (ops.clamp key) }, none)
  | .listenPort port =>
    let (dev, failed) := bindSetListenPort listen s.dev port
    ({ s with dev := dev }, failed)
  | .replacePeers => ({ s with dev := s.dev.removeAllPeers }, none)
  | _ => (s, some .deviceKey)

/-- `handlePublicKeyLine`, after the post-config step of the section before. -/
def handlePublicKeyLine (s : SetState K) (key : K) : SetState K × Option IpcError :=
  if s.dev.publicKey = key then
    ({ s with current := some key, dummy := true, placeholder := .blank 0, created := false }, none)
  else if (s.dev.peers.lookup key).isSome then
    ({ s with current := some key, dummy := false, created := false }, none)
  else if maxPeers ≤ s.dev.peers.keys.length then
    ({ s with current := none, dummy := false, created := true }, some .tooManyPeers)
  else
    ({ s with dev := s.dev.newPeer key, current := some key, dummy := false, created := true },
      none)

def handlePeerLine (s : SetState K) : Line K → SetState K × Option IpcError
  | .updateOnly => (if s.created && !s.dummy then s.dropPeer else s, none)
  | .remove => (s.dropPeer, none)
  | .endpoint text =>
    match parseAddrPort text with
    | none => (s, some .endpoint)
    | some endpoint =>
      ({ s.modifyPeer (fun p => { p with endpoint := some endpoint }) with
        endpointSet := true }, none)
  | .keepalive seconds =>
    if 0 ≤ seconds ∧ seconds < 65536 then
      let old := (s.peer.map Peer.keepalive).getD 0
      ({ s.modifyPeer (fun p => { p with keepalive := seconds.toNat }) with
        pkaOn := old = 0 && seconds ≠ 0 }, none)
    else (s, some .keepalive)
  | .replaceAllowedIPs => (s.modifyTable fun ref table => table.removeByPeer ref, none)
  | .allowedIP ('-' :: text) =>
    match parsed : parsePrefix text with
    | none => (s, some .allowedIP)
    | some p =>
      (s.modifyTable fun ref table => table.remove p (isValid_of_parsePrefix parsed) ref, none)
  | .allowedIP text =>
    match parsed : parsePrefix text with
    | none => (s, some .allowedIP)
    | some p =>
      (s.modifyTable fun ref table => table.insert p (isValid_of_parsePrefix parsed) ref, none)
  | _ => (s, some .peerKey)

/-- One round of the loop of `IpcSetOperation`. -/
def handleLine (s : SetState K) (line : Line K) : SetState K × Option IpcError :=
  match line with
  | .publicKey key => handlePublicKeyLine { s.handlePostConfig with deviceConfig := false } key
  | line => if s.deviceConfig then handleDeviceLine ops listen s line else handlePeerLine s line

/-- The loop of `IpcSetOperation`, which ends at the first error. -/
def runLines : List (Line K) → SetState K → SetState K × Option IpcError
  | [], s => (s, none)
  | line :: lines, s =>
    match handleLine ops listen s line with
    | (s, none) => runLines lines s
    | (s, some failed) => (s, some failed)

/-- `Device.IpcSetOperation`, with the peers that were sent a keepalive. -/
def ipcSetOperation (dev : Device K) (lines : List (Line K)) :
    (Device K × List K) × Option IpcError :=
  match runLines ops listen lines (.start dev) with
  | (s, none) =>
    let s := s.handlePostConfig
    ((s.dev, s.keepalives), none)
  | (s, some failed) => ((s.dev, s.keepalives), some failed)

end

end

end Wireguard
