import WireguardMesh.Wire.Codec

/-! # Messages of the control plane

The messages of the agent channel and of the admin UI, each with the writer `marshal` and the
reader `unmarshal` of its payload. Strings are their bytes, and floats their bits. `Kind` names the
messages, so that what holds of all of them is said once. The reader of `UpdateCmd` turns an
unsigned 32-bit length into an `int`, whose size depends on the platform (`IntSize`).
-/

namespace Wire

open Sticky (Read)

/-! ## Hello -/

structure Hello where
  token : Bytes
  version : Bytes
  publicV4 : Net.Addr
  publicV6 : Net.Addr
deriving DecidableEq

def Hello.marshal (m : Hello) : Bytes :=
  writeStr m.token ++ (writeStr m.version ++ (writeIp m.publicV4 ++ writeIp m.publicV6))

def Hello.read : Decoder Hello := do
  let token ← readStr
  let version ← readStr
  let publicV4 ← readIp
  let publicV6 ← readIp
  pure ⟨token, version, publicV4, publicV6⟩

structure HelloAck where
  nodeID : Bytes
  statsIntervalMs : UInt32
deriving DecidableEq

def HelloAck.marshal (m : HelloAck) : Bytes :=
  writeStr m.nodeID ++ writeU32 m.statsIntervalMs

def HelloAck.read : Decoder HelloAck := do
  let nodeID ← readStr
  let statsIntervalMs ← readU32
  pure ⟨nodeID, statsIntervalMs⟩

/-! ## Stats -/

def maxPeers : Nat := 4096

def maxIPs : Nat := 8192

def maxForwards : Nat := 1024

/-- `[32]byte`. -/
abbrev PublicKey := { key : Bytes // key.length = 32 }

/-- The key that a slice is copied into. -/
def PublicKey.copy (key : Bytes) : PublicKey :=
  if length : key.length = 32 then ⟨key, length⟩ else ⟨List.replicate 32 0, rfl⟩

structure PeerStat where
  publicKey : PublicKey
  rxBytes : UInt64
  txBytes : UInt64
  lastHandshakeNano : Int64
  handshakeRTTMicros : UInt32
deriving DecidableEq

structure IPStat where
  ip : Net.Addr
  rxBytes : UInt64
  txBytes : UInt64
deriving DecidableEq

structure ForwardStat where
  protocol : Bytes
  listen : Bytes
  rxBytes : UInt64
  txBytes : UInt64
deriving DecidableEq

structure Stats where
  unixMilli : Int64
  rxBytes : UInt64
  txBytes : UInt64
  peers : List PeerStat
  ips : List IPStat
  forwards : List ForwardStat
deriving DecidableEq

/-- A list cut off at its limit, after its length. -/
def writeList {α : Type} (max : Nat) (write : α → Bytes) (list : List α) : Bytes :=
  let list := list.take max
  writeU16 (UInt16.ofNat list.length) ++ list.flatMap write

/-- A peer without its round trip time. -/
def PeerStat.write (p : PeerStat) : Bytes :=
  p.publicKey.val ++ (writeU64 p.rxBytes ++ (writeU64 p.txBytes ++ writeI64 p.lastHandshakeNano))

def IPStat.write (s : IPStat) : Bytes :=
  writeIp s.ip ++ (writeU64 s.rxBytes ++ writeU64 s.txBytes)

def ForwardStat.write (f : ForwardStat) : Bytes :=
  writeStr f.protocol ++ (writeStr f.listen ++ (writeU64 f.rxBytes ++ writeU64 f.txBytes))

/-- The payload up to the forwards, which is all that an older Master reads. -/
def Stats.body (m : Stats) : Bytes :=
  writeI64 m.unixMilli ++ (writeU64 m.rxBytes ++ (writeU64 m.txBytes ++
    (writeList maxPeers PeerStat.write m.peers ++ (writeList maxIPs IPStat.write m.ips ++
      writeList maxForwards ForwardStat.write m.forwards))))

/-- The trailing section with the round trip times. -/
def Stats.trailer (m : Stats) : Bytes :=
  writeList maxPeers (fun p => writeU32 p.handshakeRTTMicros) m.peers

def Stats.marshal (m : Stats) : Bytes :=
  m.body ++ m.trailer

/-- A count and as many entries, or none when the count is an error. -/
def readList {α : Type} (max : Nat) (what : String) (read : Decoder α) : Decoder (List α) := do
  let n ← readCount max what
  if ← Sticky.ok then Sticky.times read n else pure []

def PeerStat.read : Decoder PeerStat := do
  let key ← Sticky.bytes .short 32
  let rxBytes ← readU64
  let txBytes ← readU64
  let lastHandshakeNano ← readI64
  pure ⟨.copy (key.getD []), rxBytes, txBytes, lastHandshakeNano, 0⟩

def IPStat.read : Decoder IPStat := do
  let ip ← readIp
  let rxBytes ← readU64
  let txBytes ← readU64
  pure ⟨ip, rxBytes, txBytes⟩

def ForwardStat.read : Decoder ForwardStat := do
  let protocol ← readStr
  let listen ← readStr
  let rxBytes ← readU64
  let txBytes ← readU64
  pure ⟨protocol, listen, rxBytes, txBytes⟩

/-- The reader that stops after the forwards. -/
def Stats.readBody : Decoder Stats := do
  let unixMilli ← readI64
  let rxBytes ← readU64
  let txBytes ← readU64
  let peers ← readList maxPeers "peers" PeerStat.read
  let ips ← readList maxIPs "ips" IPStat.read
  let forwards ← readList maxForwards "forwards" ForwardStat.read
  pure ⟨unixMilli, rxBytes, txBytes, peers, ips, forwards⟩

def PeerStat.readRTT (p : PeerStat) : Decoder PeerStat := do
  let micros ← readU32
  pure { p with handshakeRTTMicros := micros }

/-- The round trip times, for as many peers as were read before. -/
def Stats.readTrailer (m : Stats) : Decoder Stats := do
  if ← Sticky.more then
    let n ← readCount maxPeers "peer rtts"
    let fine ← Sticky.ok
    if fine && n == m.peers.length then
      let peers ← Sticky.each PeerStat.readRTT m.peers
      pure { m with peers := peers }
    else pure m
  else pure m

def Stats.read : Decoder Stats := do
  let m ← Stats.readBody
  m.readTrailer

/-! ## Ping, acknowledgements and errors -/

structure Ping where
  unixNano : Int64
deriving DecidableEq

def Ping.marshal (m : Ping) : Bytes :=
  writeI64 m.unixNano

def Ping.read : Decoder Ping := do
  let unixNano ← readI64
  pure ⟨unixNano⟩

structure ConfigAck where
  revision : UInt32
  ok : Bool
  error : Bytes
deriving DecidableEq

def ConfigAck.marshal (m : ConfigAck) : Bytes :=
  writeU32 m.revision ++ (writeBool m.ok ++ writeStr m.error)

def ConfigAck.read : Decoder ConfigAck := do
  let revision ← readU32
  let ok ← readBool
  let error ← readStr
  pure ⟨revision, ok, error⟩

structure ErrorMsg where
  code : UInt16
  message : Bytes
deriving DecidableEq

def ErrorMsg.marshal (m : ErrorMsg) : Bytes :=
  writeU16 m.code ++ writeStr m.message

def ErrorMsg.read : Decoder ErrorMsg := do
  let code ← readU16
  let message ← readStr
  pure ⟨code, message⟩

/-! ## Updates -/

def maxReleaseBytes : Nat := 256 <<< 10

structure UpdateCmd where
  force : Bool
  proxy : Bytes
  release : Bytes
deriving DecidableEq

/-- A release that is too large is left out. -/
def UpdateCmd.sentRelease (m : UpdateCmd) : Bytes :=
  if maxReleaseBytes < m.release.length then [] else m.release

def UpdateCmd.marshal (m : UpdateCmd) : Bytes :=
  if m.proxy = [] ∧ m.sentRelease = [] then writeBool m.force
  else writeBool m.force ++ (writeStr m.proxy ++
    (writeU32 (UInt32.ofNat m.sentRelease.length) ++ m.sentRelease))

/-- The size of the platform's `int`. -/
inductive IntSize where
  | int32
  | int64
deriving DecidableEq, Repr

/-- `int(v)`. -/
def IntSize.ofUInt32 (v : UInt32) : IntSize → Int
  | int32 => v.toInt32.toInt
  | int64 => v.toNat

/-- The bytes of a release, with an error for too many. -/
def readManifest (n : Int) : Decoder (Option Bytes) := do
  if maxReleaseBytes < n then
    Sticky.fail (.releaseTooLarge n)
    Sticky.bytes .short n
  else Sticky.bytes .short n

/-- The optional fields. -/
def UpdateCmd.readRelease (size : IntSize) (force : Bool) : Decoder UpdateCmd := do
  let proxy ← readStr
  let length ← readU32
  let release ← readManifest (size.ofUInt32 length)
  pure ⟨force, proxy, release.getD []⟩

def UpdateCmd.read (size : IntSize) : Decoder UpdateCmd := do
  let force ← readBool
  if ← Sticky.more then UpdateCmd.readRelease size force else pure ⟨force, [], []⟩

structure UpdateAck where
  ok : Bool
  message : Bytes
deriving DecidableEq

def UpdateAck.marshal (m : UpdateAck) : Bytes :=
  writeBool m.ok ++ writeStr m.message

def UpdateAck.read : Decoder UpdateAck := do
  let ok ← readBool
  let message ← readStr
  pure ⟨ok, message⟩

/-! ## The admin UI -/

def maxPresenceNodes : Nat := 8192

structure UIHello where
  token : Bytes
deriving DecidableEq

def UIHello.marshal (m : UIHello) : Bytes :=
  writeStr m.token

def UIHello.read : Decoder UIHello := do
  let token ← readStr
  pure ⟨token⟩

structure UIHelloAck where
  presenceIntervalMs : UInt32
deriving DecidableEq

def UIHelloAck.marshal (m : UIHelloAck) : Bytes :=
  writeU32 m.presenceIntervalMs

def UIHelloAck.read : Decoder UIHelloAck := do
  let presenceIntervalMs ← readU32
  pure ⟨presenceIntervalMs⟩

structure UISubscribe where
  nodeID : Bytes
deriving DecidableEq

def UISubscribe.marshal (m : UISubscribe) : Bytes :=
  writeStr m.nodeID

def UISubscribe.read : Decoder UISubscribe := do
  let nodeID ← readStr
  pure ⟨nodeID⟩

/-- A node of the presence broadcast; the rates are the bits of floats. -/
structure PresenceNode where
  nodeID : Bytes
  link : UInt8
  lastSeenMs : Int64
  rxRate : UInt64
  txRate : UInt64
  rttMicros : UInt32
deriving DecidableEq

structure Presence where
  nowMs : Int64
  nodes : List PresenceNode
deriving DecidableEq

def PresenceNode.write (e : PresenceNode) : Bytes :=
  writeStr e.nodeID ++ (writeU8 e.link ++ (writeI64 e.lastSeenMs ++ (writeU64 e.rxRate ++
    (writeU64 e.txRate ++ writeU32 e.rttMicros))))

def Presence.marshal (m : Presence) : Bytes :=
  writeI64 m.nowMs ++ writeList maxPresenceNodes PresenceNode.write m.nodes

def PresenceNode.read : Decoder PresenceNode := do
  let nodeID ← readStr
  let link ← readU8
  let lastSeenMs ← readI64
  let rxRate ← readU64
  let txRate ← readU64
  let rttMicros ← readU32
  pure ⟨nodeID, link, lastSeenMs, rxRate, txRate, rttMicros⟩

/-- Unlike the other lists, the nodes end at the first error. -/
def Presence.read : Decoder Presence := do
  let nowMs ← readI64
  let n ← readCount maxPresenceNodes "presence nodes"
  if ← Sticky.ok then
    let nodes ← Sticky.timesWhileOk PresenceNode.read n
    pure ⟨nowMs, nodes⟩
  else pure ⟨nowMs, []⟩

/-! ## All messages -/

inductive Kind where
  | hello
  | helloAck
  | stats
  | ping
  | configAck
  | errorMsg
  | updateCmd
  | updateAck
  | uiHello
  | uiHelloAck
  | uiSubscribe
  | presence
deriving DecidableEq, Repr

@[reducible] def Kind.Message : Kind → Type
  | hello => Hello
  | helloAck => HelloAck
  | stats => Stats
  | ping => Ping
  | configAck => ConfigAck
  | errorMsg => ErrorMsg
  | updateCmd => UpdateCmd
  | updateAck => UpdateAck
  | uiHello => UIHello
  | uiHelloAck => UIHelloAck
  | uiSubscribe => UISubscribe
  | presence => Presence

def Kind.marshal : (kind : Kind) → kind.Message → Bytes
  | hello => Hello.marshal
  | helloAck => HelloAck.marshal
  | stats => Stats.marshal
  | ping => Ping.marshal
  | configAck => ConfigAck.marshal
  | errorMsg => ErrorMsg.marshal
  | updateCmd => UpdateCmd.marshal
  | updateAck => UpdateAck.marshal
  | uiHello => UIHello.marshal
  | uiHelloAck => UIHelloAck.marshal
  | uiSubscribe => UISubscribe.marshal
  | presence => Presence.marshal

def Kind.read (size : IntSize) : (kind : Kind) → Decoder kind.Message
  | hello => Hello.read
  | helloAck => HelloAck.read
  | stats => Stats.read
  | ping => Ping.read
  | configAck => ConfigAck.read
  | errorMsg => ErrorMsg.read
  | updateCmd => UpdateCmd.read size
  | updateAck => UpdateAck.read
  | uiHello => UIHello.read
  | uiHelloAck => UIHelloAck.read
  | uiSubscribe => UISubscribe.read
  | presence => Presence.read

/-- `Unmarshal`: the message and the error; none when it panics. -/
def Kind.unmarshal (size : IntSize) (kind : Kind) (b : Bytes) :
    Option (kind.Message × Option WireError) :=
  (kind.read size ⟨b, none⟩).map fun result => (result.1, result.2.err)

/-- The reader of an older Master, which stops after the forwards. -/
def Stats.unmarshalBody (b : Bytes) : Option (Stats × Option WireError) :=
  (Stats.readBody ⟨b, none⟩).map fun result => (result.1, result.2.err)

end Wire
