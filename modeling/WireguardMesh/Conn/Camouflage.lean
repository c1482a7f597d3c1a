import WireguardMesh.Conn.Cover
import WireguardMesh.Conn.MinecraftServer

/-! # The camouflage handshakes

`camouflage.go` and the profiles `source`, `terraria`, `steam`, `bedrock` and `fivem`: a short
exchange that looks like the query of a game server. In deep mode the client then proves the
shared secret by a MAC over a challenge, which each profile takes from what has been said so far.
With the secure exchange on, both ends go on with authenticated blobs.

Most reads wait for a number of bytes (`readFull`). A few are a single `conn.Read`; how many bytes
that returns in a run is an input of the model (`readOnce`).
-/

namespace Conn

/-- The fields of `camoSharedConfig` that handshakes depend on. -/
structure CamoConfig extends CamoSharedConfig where
  deep : Bool
  secure : Bool
  loginUsername : Bytes
  rejectMessage : Bytes
  serverName : Bytes
deriving DecidableEq

/-- The Minecraft config that `loadCamouflageConfig` makes for the profile `minecraft`. -/
def CamoConfig.mcDeepConfig (cfg : CamoConfig) : McDeepConfig where
  enabled := true
  deep := cfg.deep
  loginUsername := cfg.loginUsername
  pluginChannel := cfg.pluginChannel
  pluginSecret := cfg.pluginSecret
  rejectMessage := cfg.rejectMessage

variable (lib : Primitives) (net : Network)

/-! ## Reading from the connection -/

/-- `io.ReadFull` into a buffer of the given size. -/
def readFull (size : Nat) : Session Bytes := fun s =>
  if s.input.length < size then
    .error (if net.ended = .eof ∧ s.input ≠ [] then .unexpectedEOF else net.ended) s
  else .ok (s.input.take size) { s with input := s.input.drop size }

/-- `conn.Read` into a buffer, in a run in which it returns so many bytes: at least one, and no
more than the buffer holds. -/
def readOnce (size taken : Nat) : Session Bytes := fun s =>
  let taken := max 1 (min taken size)
  if s.input.length < taken then .error net.ended s
  else .ok (s.input.take taken) { s with input := s.input.drop taken }

/-! ## The proof of the secret -/

def camoAuthClient (secret challenge : Bytes) : Session Unit :=
  writeAll net (lib.hmac secret challenge)

/-- Whether the proof is the MAC of the challenge. -/
def checkProof (secret challenge proof : Bytes) : Except Err Unit :=
  if proof ≠ lib.hmac secret challenge then .error (.text "camo auth rejected") else .ok ()

def camoAuthServer (secret challenge : Bytes) : Session Unit := do
  let proof ← within "camo auth read" (readFull net 32)
  Effect.lift (checkProof lib secret challenge proof)

/-- How each client ends, once it has the challenge. -/
def proveIfDeep (cfg : CamoConfig) (challenge : Bytes) : Session Unit :=
  if cfg.deep = false then pure () else camoAuthClient lib net cfg.pluginSecret challenge

/-- How each server ends, once it has the challenge. -/
def verifyIfDeep (cfg : CamoConfig) (challenge : Bytes) : Session Unit :=
  if cfg.deep = false then pure () else camoAuthServer lib net cfg.pluginSecret challenge

/-! ## Source -/

def sourceEngineQuery : Bytes :=
  [0xFF, 0xFF, 0xFF, 0xFF] ++ ascii "TSource Engine Query" ++ [0]

/-- `writeSourceCString`. -/
def sourceCString (s : Bytes) : Bytes :=
  s ++ [0]

def buildSourceInfoResponse (serverName : Bytes) : Bytes :=
  [0xFF, 0xFF, 0xFF, 0xFF] ++ ascii "I" ++ [17] ++ sourceCString serverName ++
    sourceCString (ascii "survival") ++ [0, 32] ++ ascii "d" ++ sourceCString (ascii "csgo") ++
    sourceCString (ascii "Counter-Strike 2") ++ [0, 0, 0, 0, 0, 0, 0, 0, 0] ++ [0x80] ++
    sourceCString (ascii "de_dust2")

/-- The challenge in the part of the response that the client has read. -/
def sourceChallenge (resp : Bytes) : Except Err Bytes :=
  if resp.length < 5 ∨ resp.getD 4 0 ≠ 0x49 then .error (.text "source info invalid")
  else .ok (resp.take 32)

/-- `performSourceCamouflageClient` up to its challenge. -/
def sourceClientQuery (taken : Nat) : Session Bytes := do
  setDeadline net
  writeAll net sourceEngineQuery
  let resp ← within "source info" (readOnce net 512 taken)
  Effect.lift (sourceChallenge resp)

/-- Whether the bytes are the query. -/
def checkSourceQuery (query : Bytes) : Except Err Unit :=
  if query ≠ sourceEngineQuery then .error (.text "source query mismatch") else .ok ()

/-- `performSourceCamouflageServer` up to its challenge. -/
def sourceServerReply (cfg : CamoConfig) : Session Bytes := do
  setDeadline net
  let query ← within "source query read" (readFull net sourceEngineQuery.length)
  Effect.lift (checkSourceQuery query)
  writeAll net (buildSourceInfoResponse cfg.serverName)
  return (buildSourceInfoResponse cfg.serverName).take 32

/-! ## Terraria -/

def terrariaConnectMsg : Nat := 82

/-- `binary.LittleEndian.PutUint16`. -/
def putUint16LE (value : Nat) : Bytes :=
  [UInt8.ofNat value, UInt8.ofNat (value / 256)]

/-- `binary.LittleEndian.Uint16` of the two bytes at a position. -/
def uint16LE (b : Bytes) (i : Nat) : Nat :=
  (b.getD i 0).toNat + 256 * (b.getD (i + 1) 0).toNat

def writeTerrariaPacket (msgType : Nat) (payload : Bytes) : Session Unit := do
  writeAll net (putUint16LE (payload.length + 2) ++ putUint16LE msgType)
  writeAll net payload

/-- The length of the payload that a header announces. -/
def terrariaPayloadLen (hdr : Bytes) : Except Err Nat :=
  if uint16LE hdr 0 < 2 then .error (.text "terraria short packet") else .ok (uint16LE hdr 0 - 2)

def readTerrariaPacket : Session (Nat × Bytes) := do
  let hdr ← readFull net 4
  let payloadLen ← Effect.lift (terrariaPayloadLen hdr)
  let payload ← readFull net payloadLen
  return (uint16LE hdr 2, payload)

def terrariaConnectPayload : Bytes :=
  [193] ++ ascii "Terraria255.255.255.255:7777" ++ [0]

/-- The challenge that either end takes from the packet it has read. -/
def terrariaChallenge (packet : Nat × Bytes) : Bytes :=
  UInt8.ofNat packet.1 :: packet.2

/-- `performTerrariaCamouflageClient` up to its challenge. The type of the reply is not looked
at. -/
def terrariaClientQuery : Session Bytes := do
  setDeadline net
  writeTerrariaPacket net terrariaConnectMsg terrariaConnectPayload
  let packet ← within "terraria connect reply" (readTerrariaPacket net)
  return terrariaChallenge packet

/-- Whether the packet is a connect. -/
def checkTerrariaConnect (msgType : Nat) : Except Err Unit :=
  if msgType ≠ terrariaConnectMsg then
    .error (.text ("terraria expected connect, got " ++ toString msgType))
  else .ok ()

/-- The text of the disconnect, with its default. -/
def terrariaReject (cfg : CamoConfig) : Bytes :=
  if cfg.rejectMessage = [] then ascii "Authenticating to server..." else cfg.rejectMessage

/-- `performTerrariaCamouflageServer` up to its challenge. -/
def terrariaServerReply (cfg : CamoConfig) : Session Bytes := do
  setDeadline net
  let packet ← within "terraria connect" (readTerrariaPacket net)
  Effect.lift (checkTerrariaConnect packet.1)
  writeTerrariaPacket net 2 (terrariaReject cfg ++ [0])
  return terrariaChallenge packet

/-! ## Steam -/

def steamRequest : Bytes :=
  [0xFF, 0xFF, 0xFF, 0xFF, 0x55, 0xFF, 0xFF, 0xFF, 0xFF]

/-- The response of the server, whose last four bytes stay zero. -/
def steamResponse : Bytes :=
  [0xFF, 0xFF, 0xFF, 0xFF, 0x41, 0x00, 0x11, 0x22, 0x33, 0, 0, 0, 0]

/-- The challenge in the part of the response that the client has read. -/
def steamChallenge (resp : Bytes) : Except Err Bytes :=
  if resp.length < 9 ∨ resp.getD 4 0 ≠ 0x41 then .error (.text "steam challenge invalid")
  else .ok (resp.take 32)

/-- `performSteamCamouflageClient` up to its challenge. -/
def steamClientQuery (taken : Nat) : Session Bytes := do
  setDeadline net
  writeAll net steamRequest
  let resp ← within "steam challenge" (readOnce net 64 taken)
  Effect.lift (steamChallenge resp)

/-- Whether the header asks for a challenge. -/
def checkSteamRequest (hdr : Bytes) : Except Err Unit :=
  if hdr.getD 4 0 ≠ 0x55 then .error (.text "steam request type") else .ok ()

/-- `performSteamCamouflageServer` up to its challenge. -/
def steamServerReply : Session Bytes := do
  setDeadline net
  let hdr ← within "steam request" (readFull net 9)
  Effect.lift (checkSteamRequest hdr)
  writeAll net steamResponse
  return steamResponse

/-! ## Bedrock -/

def bedrockPing : Bytes :=
  [0x01, 0, 0, 0, 0, 0, 0, 0, 0] ++ ascii "MCPE;"

def bedrockPong (serverName : Bytes) : Bytes :=
  [0x1c] ++ bedrockPing.drop 9 ++ serverName ++ ascii ";193;20;"

/-- The challenge in the part of the pong that the client has read. -/
def bedrockChallenge (resp : Bytes) : Except Err Bytes :=
  if resp.length < 1 ∨ resp.getD 0 0 ≠ 0x1c then .error (.text "bedrock pong invalid")
  else .ok (resp.take 32)

/-- `performBedrockCamouflageClient` up to its challenge. -/
def bedrockClientQuery (taken : Nat) : Session Bytes := do
  setDeadline net
  writeAll net bedrockPing
  let resp ← within "bedrock pong" (readOnce net 256 taken)
  Effect.lift (bedrockChallenge resp)

/-- `performBedrockCamouflageServer` up to its challenge. The ping is not looked at. -/
def bedrockServerReply (cfg : CamoConfig) : Session Bytes := do
  setDeadline net
  let _ ← within "bedrock ping" (readFull net bedrockPing.length)
  writeAll net (bedrockPong cfg.serverName)
  return (bedrockPong cfg.serverName).take 32

/-! ## FiveM -/

def fiveMRequest : Bytes :=
  ascii "GET /info.json HTTP/1.1\r\nHost: cfx.re\r\nConnection: close\r\n\r\n"

/-- The JSON body of the response. -/
def fiveMBody (serverName : Bytes) : Bytes :=
  ascii "\x7b\"server\":\"" ++ serverName ++
    ascii "\",\"vars\":\x7b\"gamename\":\"gta5\"\x7d,\"maxClients\":48\x7d"

def fiveMResponse (serverName : Bytes) : Bytes :=
  ascii "HTTP/1.1 200 OK\r\nContent-Type: application/json\r\nContent-Length: " ++
    ascii (toString (fiveMBody serverName).length) ++ ascii "\r\nConnection: close\r\n\r\n" ++
    fiveMBody serverName

/-- The challenge in the part of the response that the client has read. -/
def fiveMChallenge (resp : Bytes) : Except Err Bytes :=
  if resp.length < 12 ∨ resp.take 4 ≠ ascii "HTTP" then .error (.text "fivem info invalid")
  else .ok (resp.take 32)

/-- `performFiveMCamouflageClient` up to its challenge. -/
def fiveMClientQuery (taken : Nat) : Session Bytes := do
  setDeadline net
  writeAll net fiveMRequest
  let resp ← within "fivem info" (readOnce net 512 taken)
  Effect.lift (fiveMChallenge resp)

/-- Whether the request is a GET. -/
def checkFiveMRequest (req : Bytes) : Except Err Unit :=
  if req.length < 3 ∨ req.take 3 ≠ ascii "GET" then .error (.text "fivem expected GET")
  else .ok ()

/-- `performFiveMCamouflageServer` up to its challenge, which is the body of the response. -/
def fiveMServerReply (taken : Nat) (cfg : CamoConfig) : Session Bytes := do
  setDeadline net
  let req ← within "fivem request" (readOnce net 128 taken)
  Effect.lift (checkFiveMRequest req)
  writeAll net (fiveMResponse cfg.serverName)
  return fiveMBody cfg.serverName

/-! ## The handshakes of these profiles -/

def performSourceCamouflageClient (taken : Nat) (cfg : CamoConfig) : Session Unit :=
  sourceClientQuery net taken >>= proveIfDeep lib net cfg

def performSourceCamouflageServer (cfg : CamoConfig) : Session Unit :=
  sourceServerReply net cfg >>= verifyIfDeep lib net cfg

def performTerrariaCamouflageClient (cfg : CamoConfig) : Session Unit :=
  terrariaClientQuery net >>= proveIfDeep lib net cfg

def performTerrariaCamouflageServer (cfg : CamoConfig) : Session Unit :=
  terrariaServerReply net cfg >>= verifyIfDeep lib net cfg

def performSteamCamouflageClient (taken : Nat) (cfg : CamoConfig) : Session Unit :=
  steamClientQuery net taken >>= proveIfDeep lib net cfg

def performSteamCamouflageServer (cfg : CamoConfig) : Session Unit :=
  steamServerReply net >>= verifyIfDeep lib net cfg

def performBedrockCamouflageClient (taken : Nat) (cfg : CamoConfig) : Session Unit :=
  bedrockClientQuery net taken >>= proveIfDeep lib net cfg

def performBedrockCamouflageServer (cfg : CamoConfig) : Session Unit :=
  bedrockServerReply net cfg >>= verifyIfDeep lib net cfg

def performFiveMCamouflageClient (taken : Nat) (cfg : CamoConfig) : Session Unit :=
  fiveMClientQuery net taken >>= proveIfDeep lib net cfg

def performFiveMCamouflageServer (taken : Nat) (cfg : CamoConfig) : Session Unit :=
  fiveMServerReply net taken cfg >>= verifyIfDeep lib net cfg

/-! ## The secure exchange of these profiles -/

def secureConfirmSz : Nat := 16

/-- `io.ReadFull` on a connection that may decrypt, which returns it at its new offset. -/
def readFullFrom (conn : NetConn) (size : Nat) : Session (Bytes × NetConn) :=
  match conn with
  | .raw => do
      let data ← readFull net size
      return (data, .raw)
  | .secure rd wr rdOff wrOff => do
      let data ← readFull net size
      return (xorKeyStream lib rd rdOff data, .secure rd wr (rdOff + size) wrOff)

/-- `writeAll` on a connection that may encrypt, which returns it at its new offset. -/
def writeAllTo (conn : NetConn) (data : Bytes) : Session NetConn :=
  match conn with
  | .raw => do
      writeAll net data
      return .raw
  | .secure rd wr rdOff wrOff => do
      writeAll net (xorKeyStream lib wr wrOff data)
      return .secure rd wr rdOff (wrOff + data.length)

/-- What an end of the secure exchange draws at random: its ephemeral key and the bytes its blob
starts from. -/
structure SecureRandom where
  ephemeralKey : Except Err Bytes
  blobFiller : Except Err Bytes

/-- `secureClientReply`: the reply to an authentic hello and the stream keys. -/
def secureClientReply (random : SecureRandom) (psk hello : Bytes) (toNAT : Bool) :
    Except Err (Bytes × SecureKeys) := do
  let (spub, _) ← openSecureBlob lib psk "server" [] hello
  let peer ← (lib.newPublicKey spub).mapError fun _ => errSecureAuth
  let priv ← random.ephemeralKey
  let shared ← (lib.ecdh priv peer).mapError fun _ => errSecureAuth
  let filler ← random.blobFiller
  let reply ← sealSecureBlob lib filler psk "client" hello (lib.publicKey priv)
    (if toNAT then 1 else 0)
  let keys ← deriveSecureKeys lib psk shared hello reply
  return (reply, keys)

/-- Whether the confirm decrypts to zeros. -/
def checkConfirm (confirm : Bytes) : Except Err Unit :=
  if confirm.all (· == 0) then .ok () else .error errSecureAuth

def secureGenericClient (random : SecureRandom) (toNAT : Bool) (cfg : CamoConfig) :
    Session NetConn := do
  setDeadline net
  let psk := securePSK lib cfg.pluginSecret
  let hello ← within "secure hello" (readFull net secureBlobLen)
  let (reply, keys) ← within "secure hello" (Effect.lift
    ((secureClientReply lib random psk hello toNAT).mapError
      (.noted · "check loginPluginSecret on both peers")))
  writeAll net reply
  let sc ← Effect.lift (newSecureConn lib keys false)
  let (confirm, sc) ← within "secure confirm" (readFullFrom lib net sc secureConfirmSz)
  Effect.lift (checkConfirm confirm)
  return sc

def secureGenericServer (random : SecureRandom) (cfg : CamoConfig) : Session (NetConn × Bool) := do
  setDeadline net
  let psk := securePSK lib cfg.pluginSecret
  let (hello, priv) ← Effect.lift
    (secureServerHello lib random.ephemeralKey random.blobFiller psk)
  writeAll net hello
  let reply ← readFull net secureBlobLen
  let (keys, toNAT) ← Effect.lift (secureServerFinish lib psk hello priv reply)
  let sc ← Effect.lift (newSecureConn lib keys true)
  let sc ← writeAllTo lib net sc (List.replicate secureConfirmSz 0)
  return (sc, toNAT)

end Conn
