import WireguardMesh.Conn.Secure

/-! # The server side of the Minecraft handshake

`performMCCamouflageServer` in its modes: off, shallow, deep and secure. The server
answers a server-list probe, reads a login, sends a challenge (deep) or a hello (secure)
and judges the client's follow-up packet. A `return` of the Go code with a nil error is a
normal return here, with the connection and the NAT flag as its value.
-/

namespace Conn

structure McDeepConfig where
  enabled : Bool
  deep : Bool
  loginUsername : Bytes
  pluginChannel : Bytes
  pluginSecret : Bytes
  rejectMessage : Bytes
deriving DecidableEq

/-- What a run of the server draws: the JSON of the server-list answer, the challenge of deep mode,
and the ephemeral key, blob filler and verify token of secure mode. -/
structure Randomness where
  statusJSON : Bytes
  challenge : Except Err Bytes
  ephemeralKey : Except Err Bytes
  blobFiller : Except Err Bytes
  verifyToken : Except Err Bytes

variable (lib : Primitives) (net : Network) (random : Randomness) (cfg : McDeepConfig)

/-- The status handshake, status request and status response of all three server modes. -/
def serveStatus (handshake request response : String) : Session Unit := do
  let hs ← within handshake (readMCPacket net)
  within (handshake ++ " invalid") (Effect.lift (decodeMCHandshake hs mcStateStatus))
  let req ← within request (readMCPacket net)
  within (request ++ " invalid") (Effect.lift (decodeMCStatusRequest req))
  within response (writeMCPacket net (encodeMCStatusResponse random.statusJSON))

/-- The ping that follows a status response. -/
def receivePing (context : String) : Session (BitVec 64) := do
  let ping ← within context (readMCPacket net)
  within (context ++ " invalid") (Effect.lift (decodeMCPing ping))

def receiveLoginStart (handshake start : String) : Session Unit := do
  let hs ← within handshake (readMCPacket net)
  within (handshake ++ " invalid") (Effect.lift (decodeMCHandshake hs mcStateLogin))
  let login ← within start (readMCPacket net)
  let _ ← within (start ++ " invalid") (Effect.lift (decodeMCLoginStart login))

def mcStatusPingServer : Session Unit := do
  serveStatus net random "mc status handshake" "mc status request" "mc status response"
  let t ← receivePing net "mc ping"
  writeMCPacket net (encodeMCPong t)

def sendMCDisconnect (message : Bytes) : Session Unit :=
  writeMCPacket net (encodeMCDisconnect lib message)

def performMCCamouflageServerShallow : Session Unit := do
  setDeadline net
  serveStatus net random "mc shallow server handshake" "mc shallow server status request"
    "mc shallow server status response"

/-- The switch of `performMCCamouflageServerDeep` over the client's follow-up packet. -/
def judgeDeep (challenge : Bytes) (packetID : Nat) (rest : Bytes) : Session Bool :=
  if packetID = mcIDLoginPluginResponse then do
    let (channel, data) ← within "mc deep server login plugin response invalid"
      (Effect.lift (decodeMCLoginPluginResponseBody rest))
    Effect.lift (validatePluginChannel channel cfg.pluginChannel)
    let (ok, toNAT) := verifyPluginResponse lib cfg.pluginSecret challenge data
    if ok = false then
      -- The Go code returns the error of this write, nil when it succeeds.
      sendMCDisconnect lib net cfg.rejectMessage
      return false
    within "mc deep server login success"
      (writeMCPacket net (encodeMCLoginSuccess lib cfg.loginUsername))
    return toNAT
  else do
    sendMCDisconnect lib net cfg.rejectMessage
    return false

def performMCCamouflageServerDeep : Session Bool := do
  setDeadline net
  serveStatus net random "mc deep server status handshake" "mc deep server status request"
    "mc deep server status response"
  let pingTime ← receivePing net "mc deep server ping"
  within "mc deep server pong" (writeMCPacket net (encodeMCPong pingTime))
  receiveLoginStart net "mc deep server login handshake" "mc deep server login start"
  let challenge ← Effect.lift random.challenge
  within "mc deep server login plugin request"
    (writeMCPacket net (encodeMCLoginPluginRequest cfg.pluginChannel challenge))
  setDeadline net
  let next ← within "mc deep server login follow-up" (readMCPacket net)
  let (packetID, rest) ← within "mc deep server login follow-up invalid"
    (Effect.lift (mcPacketHead next))
  judgeDeep lib net cfg challenge packetID rest

/-- The encryption response of a follow-up packet, if it is one. -/
def encryptionReply (packet : Bytes) : Option Bytes :=
  match mcPacketHead packet with
  | .error _ => none
  | .ok (packetID, rest) =>
    if packetID ≠ mcIDEncryptionResponse then none
    else (decodeMCEncryptionResponse rest).toOption

/-- The end of `performMCCamouflageServerSecure`, from the client's follow-up packet on. -/
def judgeSecure (psk hello priv packet : Bytes) : Session (Option NetConn × Bool) :=
  match encryptionReply packet with
  | none => do
      -- As in deep mode, but the connection returned with a nil error is nil.
      sendMCDisconnect lib net cfg.rejectMessage
      return (none, false)
  | some reply => do
      let (keys, toNAT) ← Effect.lift (secureServerFinish lib psk hello priv reply)
      let sc ← Effect.lift (newSecureConn lib keys true)
      let sc ← within "mc login success"
        (writeMCPacketTo lib net sc (encodeMCLoginSuccess lib cfg.loginUsername))
      return (some sc, toNAT)

/-- `performMCCamouflageServerSecure`. The result of the deferred deadline reset is
discarded by the source. -/
def performMCCamouflageServerSecure : Session (Option NetConn × Bool) := do
  setDeadline net
  mcStatusPingServer net random
  receiveLoginStart net "mc login handshake" "mc login start"
  let psk := securePSK lib cfg.pluginSecret
  let (hello, priv) ← Effect.lift
    (secureServerHello lib random.ephemeralKey random.blobFiller psk)
  let verify ← Effect.lift random.verifyToken
  let req ← Effect.lift (encodeMCEncryptionRequest lib hello verify)
  within "mc encryption request" (writeMCPacket net req)
  let packet ← within "mc encryption response" (readMCPacket net)
  judgeSecure lib net cfg psk hello priv packet

/-- `performMCCamouflageServer`: the connection and the NAT flag it returns with a nil
error. -/
def performMCCamouflageServer (secure : Bool) : Session (Option NetConn × Bool) :=
  if cfg.enabled = false then pure (some .raw, false)
  else if secure then performMCCamouflageServerSecure lib net random cfg
  else if cfg.deep = false then do
    performMCCamouflageServerShallow net random
    return (some .raw, false)
  else do
    let toNAT ← performMCCamouflageServerDeep lib net random cfg
    return (some .raw, toNAT)

end Conn
