import WireguardMesh.Conn.Camouflage
import WireguardMesh.Foundation.StickyReader

/-! # The client side of the Minecraft handshake

`performMCCamouflageClient` in its modes: shallow, deep and secure. The client probes the server
like a server list does, logs in, and proves the secret by a plugin response (deep) or by the
reply to the server's hello, which travels as the modulus of an RSA key (secure).
-/

namespace Conn

/-- Library functions that only the client calls. -/
structure ClientPrimitives where
  /-- `json.Valid`. -/
  validJSON : Bytes → Bool
  /-- The non-empty text of a chat message in JSON, if it is one. -/
  chatText : Bytes → Option Bytes
  /-- `x509.ParsePKIXPublicKey`: the modulus of an RSA key, or none for a key of another kind. -/
  parsePublicKey : Bytes → Except Err (Option Nat)

def defaultMCProtocol : Nat := 765

variable (lib : Primitives) (clientLib : ClientPrimitives)

/-! ## Packets -/

/-- The bytes of a text, as a string. -/
def textOf (bytes : Bytes) : String :=
  String.ofList (bytes.map fun b => Char.ofNat b.toNat)

def encodeMCHandshake (protocolVersion : Nat) (serverHost : Bytes) (serverPort : UInt16)
    (nextState : Nat) : Bytes :=
  writeMCVarInt mcIDHandshake ++ writeMCVarInt protocolVersion ++ writeMCString serverHost ++
    [UInt8.ofNat (serverPort.toNat / 256), UInt8.ofNat serverPort.toNat] ++ writeMCVarInt nextState

def encodeMCStatusRequest : Bytes :=
  writeMCVarInt mcIDStatusRequest

def decodeMCStatusResponse (payload : Bytes) : Except Err Unit := do
  let (packetID, rest) ← mcPacketHead payload
  if packetID ≠ mcIDStatusResponse then throw (unexpectedPacketID packetID)
  let (body, r) ← readMCString rest
  if clientLib.validJSON body = false then throw (.text "status response is not valid json")
  if r.length ≠ 0 then throw (.text "unexpected trailing data in status response")

def encodeMCPing (timestamp : BitVec 64) : Bytes :=
  writeMCVarInt mcIDPingRequest ++ uint64Bytes timestamp

def decodeMCPong (payload : Bytes) (want : BitVec 64) : Except Err Unit := do
  let (packetID, rest) ← mcPacketHead payload
  if packetID ≠ mcIDPongResponse then throw (unexpectedPacketID packetID)
  if rest.length ≠ 8 then throw (.text "invalid pong payload size")
  let got := BitVec.ofNat 64 (rest.foldl (fun value b => value * 256 + b.toNat) 0)
  if got ≠ want then
    throw (.text ("pong timestamp mismatch got " ++ toString got.toInt ++ " want " ++
      toString want.toInt))

def encodeMCLoginStart (username : Bytes) : Bytes :=
  writeMCVarInt mcIDLoginStart ++ writeMCString username

def encodeMCLoginStartUUID (username : Bytes) : Bytes :=
  writeMCVarInt mcIDLoginStart ++ writeMCString username ++ offlinePlayerUUID lib username

/-- `decodeMCLoginPluginRequest`: the channel and the challenge. -/
def decodeMCLoginPluginRequest (payload : Bytes) : Except Err (Bytes × Bytes) := do
  let (packetID, rest) ← mcPacketHead payload
  if packetID ≠ mcIDLoginPluginRequest then throw (unexpectedPacketID packetID)
  let (channel, r) ← readMCString rest
  let (data, r) ← readMCByteArray r
  if r.length ≠ 0 then throw (.text "unexpected trailing data in login plugin request")
  return (channel, data)

def encodeMCLoginPluginResponse (channel data : Bytes) : Bytes :=
  writeMCVarInt mcIDLoginPluginResponse ++ writeMCString channel ++ writeMCByteArray data

def decodeMCDisconnectMessage (rest : Bytes) : Bytes :=
  match readMCString rest with
  | .error _ => ascii "disconnect"
  | .ok (s, _) => if s = [] then ascii "disconnect" else (clientLib.chatText s).getD s

/-- What `decodeMCLoginSuccess` says of a packet with another id. -/
def loginRefusal (packetID : Nat) (rest : Bytes) : Err :=
  if packetID = mcIDDisconnect then
    .text ("server rejected MC login (" ++ textOf (decodeMCDisconnectMessage clientLib rest) ++
      "); check lasitan-cluster-transport.json loginPluginSecret/loginPluginChannel match on " ++
      "both peers")
  else unexpectedPacketID packetID

/-- `io.ReadFull` of the 16 bytes of a UUID from a `bytes.Reader`. -/
def readUUID (r : Bytes) : Except Err (Bytes × Bytes) :=
  if r.length < 16 then .error (if r = [] then .eof else .unexpectedEOF)
  else .ok (r.take 16, r.drop 16)

def decodeMCLoginSuccess (payload wantUsername : Bytes) : Except Err Unit := do
  let (packetID, rest) ← mcPacketHead payload
  if packetID ≠ mcIDLoginSuccess then throw (loginRefusal clientLib packetID rest)
  let (_, r) ← readUUID rest
  let (username, r) ← readMCString r
  if username ≠ wantUsername then throw (.text ("unexpected username " ++ (textOf username).quote))
  let (propCount, r) ← readMCVarInt r
  if propCount ≠ 0 then throw (.text ("unexpected property count " ++ toString propCount))
  if r.length ≠ 0 then throw (.text "unexpected trailing data in login success")

/-- `decodeMCEncryptionRequest`: the hello in the modulus of the server's key. -/
def decodeMCEncryptionRequest (rest : Bytes) : Except Err Bytes := do
  let (_, r) ← readMCString rest
  let (der, r) ← readMCByteArray r
  let _ ← readMCByteArray r
  let pub ← clientLib.parsePublicKey der
  match pub with
  | none => throw (.text "unexpected server key")
  | some modulus =>
    if modulus.size ≠ secureBlobLen * 8 then throw (.text "unexpected server key")
    else return Sticky.bigEndian secureBlobLen modulus

def encodeMCEncryptionResponse (sharedSecret verifyToken : Bytes) : Bytes :=
  writeMCVarInt mcIDEncryptionResponse ++ writeMCByteArray sharedSecret ++
    writeMCByteArray verifyToken

/-! ## The client -/

/-- Where the client dials: the printed address and the port. -/
structure DialTarget where
  host : Bytes
  port : UInt16

/-- What a run of the client draws at random, and the time of its ping. -/
structure ClientRandom where
  pingTime : BitVec 64
  secure : SecureRandom
  verifyToken : Except Err Bytes

variable (net : Network) (dst : DialTarget) (random : ClientRandom) (cfg : McDeepConfig)

/-- The status handshake, status request and status response of all three client modes. -/
def queryStatus (handshake request response invalid : String) : Session Unit := do
  within handshake
    (writeMCPacket net (encodeMCHandshake defaultMCProtocol dst.host dst.port mcStateStatus))
  within request (writeMCPacket net encodeMCStatusRequest)
  let statusResp ← within response (readMCPacket net)
  within invalid (Effect.lift (decodeMCStatusResponse clientLib statusResp))

def sendLoginStart (handshake start : String) (payload : Bytes) : Session Unit := do
  within handshake
    (writeMCPacket net (encodeMCHandshake defaultMCProtocol dst.host dst.port mcStateLogin))
  within start (writeMCPacket net payload)

def mcStatusPingClient : Session Unit := do
  queryStatus clientLib net dst "mc status handshake" "mc status request" "mc status response"
    "mc status invalid"
  within "mc ping" (writeMCPacket net (encodeMCPing random.pingTime))
  let pong ← within "mc pong" (readMCPacket net)
  Effect.lift (decodeMCPong pong random.pingTime)

def performMCCamouflageClientShallow : Session Unit := do
  setDeadline net
  queryStatus clientLib net dst "mc shallow client handshake" "mc shallow client status request"
    "mc shallow client status response" "mc shallow client status invalid"

/-- `performMCCamouflageClientDeep` up to the challenge it has to answer. -/
def mcDeepClientChallenge : Session Bytes := do
  setDeadline net
  queryStatus clientLib net dst "mc deep client status handshake" "mc deep client status request"
    "mc deep client status response" "mc deep client status invalid"
  within "mc deep client ping" (writeMCPacket net (encodeMCPing random.pingTime))
  let pong ← within "mc deep client pong" (readMCPacket net)
  within "mc deep client pong invalid" (Effect.lift (decodeMCPong pong random.pingTime))
  sendLoginStart net dst "mc deep client login handshake" "mc deep client login start"
    (encodeMCLoginStart cfg.loginUsername)
  let pluginReq ← within "mc deep client login plugin request" (readMCPacket net)
  let (channel, data) ← within "mc deep client login plugin request invalid"
    (Effect.lift (decodeMCLoginPluginRequest pluginReq))
  Effect.lift (validatePluginChannel channel cfg.pluginChannel)
  return data

def performMCCamouflageClientDeep (toNAT : Bool) : Session Unit := do
  let challenge ← mcDeepClientChallenge clientLib net dst random cfg
  within "mc deep client login plugin response"
    (writeMCPacket net (encodeMCLoginPluginResponse cfg.pluginChannel
      (buildPluginResponse lib cfg.pluginSecret challenge toNAT)))
  let loginSuccess ← within "mc deep client login success" (readMCPacket net)
  within "mc deep client login success invalid"
    (Effect.lift (decodeMCLoginSuccess clientLib loginSuccess cfg.loginUsername))

/-- The switch of `performMCCamouflageClientSecure` over the server's packet. -/
def checkEncryptionRequest (packetID : Nat) (rest : Bytes) : Except Err Unit :=
  if packetID = mcIDEncryptionRequest then .ok ()
  else if packetID = mcIDDisconnect then
    .error (.text ("server rejected MC login (" ++
      textOf (decodeMCDisconnectMessage clientLib rest) ++ ")"))
  else if packetID = mcIDLoginPluginRequest then
    .error (.text ("peer runs legacy (unencrypted) camouflage; upgrade it or set " ++
      "camouflage.secure=false on every node"))
  else .error (unexpectedPacketID packetID)

/-- `readMCPacket` on a connection that may decrypt, which returns it at its new offset. -/
def readMCPacketFrom (conn : NetConn) : Session (Bytes × NetConn) :=
  match conn with
  | .raw => do
      let payload ← readMCPacket net
      return (payload, .raw)
  | .secure rd wr rdOff wrOff => fun s =>
    match splitPacket net.ended (xorKeyStream lib rd rdOff s.input) with
    | .ok (payload, rest) =>
      let used := s.input.length - rest.length
      .ok (payload, .secure rd wr (rdOff + used) wrOff) { s with input := s.input.drop used }
    | .error e => .error e s

def performMCCamouflageClientSecure (toNAT : Bool) : Session NetConn := do
  setDeadline net
  mcStatusPingClient clientLib net dst random
  sendLoginStart net dst "mc login handshake" "mc login start"
    (encodeMCLoginStartUUID lib cfg.loginUsername)
  let pkt ← within "mc encryption request" (readMCPacket net)
  let (packetID, rest) ← Effect.lift (mcPacketHead pkt)
  Effect.lift (checkEncryptionRequest clientLib packetID rest)
  let hello ← within "mc encryption request invalid"
    (Effect.lift (decodeMCEncryptionRequest clientLib rest))
  let psk := securePSK lib cfg.pluginSecret
  let (reply, keys) ← within "mc encryption request" (Effect.lift
    ((secureClientReply lib random.secure psk hello toNAT).mapError
      (.noted · "possible MITM, or loginPluginSecret differs")))
  let token ← Effect.lift random.verifyToken
  within "mc encryption response" (writeMCPacket net (encodeMCEncryptionResponse reply token))
  let sc ← Effect.lift (newSecureConn lib keys false)
  let (success, sc) ← within "mc login success" (readMCPacketFrom lib net sc)
  within "mc login success invalid (possible MITM)"
    (Effect.lift (decodeMCLoginSuccess clientLib success cfg.loginUsername))
  return sc

def performMCCamouflageClient (secure toNAT : Bool) : Session NetConn :=
  if cfg.enabled = false then pure .raw
  else if secure then performMCCamouflageClientSecure lib clientLib net dst random cfg toNAT
  else if cfg.deep = false then do
    performMCCamouflageClientShallow clientLib net dst
    return .raw
  else do
    performMCCamouflageClientDeep lib clientLib net dst random cfg toNAT
    return .raw

end Conn
