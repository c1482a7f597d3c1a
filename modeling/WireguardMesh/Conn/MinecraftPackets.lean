import WireguardMesh.Conn.Wire

/-! # Packets of the Minecraft login

The packets `mc_camouflage.go` exchanges before it hands a connection to the bind, as
far as the server reads and writes them, and the plugin response that carries the
proof of the shared secret in deep mode. Hash functions, the DER encoding of a public
key and the JSON encoding of a chat message are parameters (`Primitives`).
-/

namespace Conn

def mcStateStatus : Nat := 1
def mcStateLogin : Nat := 2
def mcIDHandshake : Nat := 0x00
def mcIDStatusRequest : Nat := 0x00
def mcIDStatusResponse : Nat := 0x00
def mcIDPingRequest : Nat := 0x01
def mcIDPongResponse : Nat := 0x01
def mcIDLoginStart : Nat := 0x00
def mcIDEncryptionResponse : Nat := 0x01
def mcIDLoginPluginResponse : Nat := 0x02
def mcIDDisconnect : Nat := 0x00
def mcIDEncryptionRequest : Nat := 0x01
def mcIDLoginSuccess : Nat := 0x02
def mcIDLoginPluginRequest : Nat := 0x04

/-- Library functions the handshake calls and whose values it does not inspect. -/
structure Primitives where
  /-- HMAC-SHA256 of a message under a key. -/
  hmac : Bytes → Bytes → Bytes
  sha256 : Bytes → Bytes
  md5 : Bytes → Bytes
  /-- The first bytes of an HKDF-SHA256 stream, from secret, salt and info. -/
  hkdf : Bytes → Bytes → Bytes → Nat → Except Err Bytes
  /-- `x509.MarshalPKIXPublicKey` of the RSA key with the given modulus bytes. -/
  marshalPublicKey : Bytes → Except Err Bytes
  /-- `json.Marshal` of a chat message with the given text. -/
  marshalChat : Bytes → Bytes
  /-- `ecdh.X25519().NewPublicKey`. -/
  newPublicKey : Bytes → Except Err Bytes
  /-- The public key of an X25519 private key. -/
  publicKey : Bytes → Bytes
  /-- `priv.ECDH(peer)`. -/
  ecdh : Bytes → Bytes → Except Err Bytes
  /-- `aes.NewCipher`. -/
  newCipher : Bytes → Except Err Unit
  /-- The AES-CTR keystream under a 32-byte key followed by a 16-byte IV. -/
  keyStream : Bytes → Nat → UInt8

/-- `fmt.Errorf("unexpected packet id %d", id)`. -/
def unexpectedPacketID (id : Nat) : Err :=
  .text ("unexpected packet id " ++ toString id)

def decodeMCHandshake (payload : Bytes) (wantNextState : Nat) : Except Err Unit := do
  let (packetID, r) ← readMCVarInt payload
  if packetID ≠ mcIDHandshake then throw (unexpectedPacketID packetID)
  let (_, r) ← readMCVarInt r
  let (_, r) ← readMCString r
  let (_, r) ← readUint16 r
  let (nextState, r) ← readMCVarInt r
  if nextState ≠ wantNextState then
    throw (.text ("unexpected next state " ++ toString nextState ++ " want " ++
      toString wantNextState))
  if r.length ≠ 0 then throw (.text "unexpected trailing data in handshake")

def decodeMCStatusRequest (payload : Bytes) : Except Err Unit := do
  let (packetID, rest) ← mcPacketHead payload
  if packetID ≠ mcIDStatusRequest then throw (unexpectedPacketID packetID)
  if rest.length ≠ 0 then throw (.text "unexpected trailing data in status request")

def encodeMCStatusResponse (statusJSON : Bytes) : Bytes :=
  writeMCVarInt mcIDStatusResponse ++ writeMCString statusJSON

/-- The big-endian bytes of a 64-bit value. -/
def uint64Bytes (value : BitVec 64) : Bytes :=
  (List.range 8).map fun i => UInt8.ofNat (value.toNat / 256 ^ (7 - i))

/-- `decodeMCPing`; the timestamp is kept as its bit pattern. -/
def decodeMCPing (payload : Bytes) : Except Err (BitVec 64) := do
  let (packetID, rest) ← mcPacketHead payload
  if packetID ≠ mcIDPingRequest then throw (unexpectedPacketID packetID)
  if rest.length ≠ 8 then throw (.text "invalid ping payload size")
  return BitVec.ofNat 64 (rest.foldl (fun value b => value * 256 + b.toNat) 0)

def encodeMCPong (timestamp : BitVec 64) : Bytes :=
  writeMCVarInt mcIDPongResponse ++ uint64Bytes timestamp

/-- `decodeMCLoginStart`: newer clients append the player's UUID. -/
def decodeMCLoginStart (payload : Bytes) : Except Err Bytes := do
  let (packetID, rest) ← mcPacketHead payload
  if packetID ≠ mcIDLoginStart then throw (unexpectedPacketID packetID)
  let (username, r) ← readMCString rest
  if r.length ≠ 0 ∧ r.length ≠ 16 then
    throw (.text "unexpected trailing data in login start")
  return username

def encodeMCLoginPluginRequest (channel data : Bytes) : Bytes :=
  writeMCVarInt mcIDLoginPluginRequest ++ writeMCString channel ++ writeMCByteArray data

/-- `decodeMCLoginPluginResponseBody`: the channel and the data. -/
def decodeMCLoginPluginResponseBody (rest : Bytes) : Except Err (Bytes × Bytes) := do
  let (channel, r) ← readMCString rest
  let (data, r) ← readMCByteArray r
  if r.length ≠ 0 then throw (.text "unexpected trailing data in login plugin response")
  return (channel, data)

def validatePluginChannel (got want : Bytes) : Except Err Unit :=
  if got ≠ want then .error (.pluginChannel got want) else .ok ()

theorem validatePluginChannel_eq_ok {got want : Bytes} {u : Unit} :
    validatePluginChannel got want = .ok u ↔ got = want := by
  rw [validatePluginChannel]
  split
  · next different => simp only [reduceCtorEq, false_iff]; exact different
  · next same => exact ⟨fun _ => Decidable.not_not.mp same, fun _ => rfl⟩

/-- `encodeMCEncryptionRequest`: the hello travels as the modulus of a public key. -/
def encodeMCEncryptionRequest (lib : Primitives) (hello verifyToken : Bytes) :
    Except Err Bytes := do
  let der ← lib.marshalPublicKey hello
  return writeMCVarInt mcIDEncryptionRequest ++ writeMCString [] ++ writeMCByteArray der ++
    writeMCByteArray verifyToken

def secureBlobLen : Nat := 128

def decodeMCEncryptionResponse (rest : Bytes) : Except Err Bytes := do
  let (secret, r) ← readMCByteArray rest
  let (_, r) ← readMCByteArray r
  if r.length ≠ 0 ∨ secret.length ≠ secureBlobLen then
    throw (.text "bad encryption response")
  return secret

/-- `offlinePlayerUUID`: an MD5 digest with the version and variant bits set. -/
def offlinePlayerUUID (lib : Primitives) (username : Bytes) : Bytes :=
  let digest := lib.md5 (ascii "OfflinePlayer:" ++ username)
  (digest.modify 6 fun b => b &&& 0x0f ||| 0x30).modify 8 fun b => b &&& 0x3f ||| 0x80

def encodeMCLoginSuccess (lib : Primitives) (username : Bytes) : Bytes :=
  writeMCVarInt mcIDLoginSuccess ++ offlinePlayerUUID lib username ++ writeMCString username ++
    writeMCVarInt 0

def encodeMCDisconnect (lib : Primitives) (message : Bytes) : Bytes :=
  writeMCVarInt mcIDDisconnect ++ writeMCString (lib.marshalChat message)

/-- `buildPluginResponse`: a MAC over the challenge and the NAT flag, then the flag. -/
def buildPluginResponse (lib : Primitives) (secret challenge : Bytes) (toNAT : Bool) : Bytes :=
  let flag : UInt8 := if toNAT then 1 else 0
  lib.hmac secret (challenge ++ [flag]) ++ [flag]

/-- `verifyPluginResponse`: whether the proof is right, and the NAT flag it carries. -/
def verifyPluginResponse (lib : Primitives) (secret challenge data : Bytes) : Bool × Bool :=
  if data.length ≠ 33 then (false, false)
  else
    let flag := data.getD 32 0
    if flag > 1 then (false, false)
    else if data.take 32 ≠ lib.hmac secret (challenge ++ [flag]) then (false, false)
    else (true, flag = 1)

end Conn
