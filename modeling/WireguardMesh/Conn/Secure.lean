import WireguardMesh.Conn.MinecraftPackets

/-! # The secure camouflage exchange

`camo_secure.go`: the hello and reply blobs that authenticate an ephemeral X25519
exchange with the shared secret, and the stream keys both ends derive from it. The
server's random choices of a run are inputs.
-/

namespace Conn

def secureTagOff : Nat := 49
def secureTagLen : Nat := 16
def secureInfo : Bytes := ascii "lasitan-secure-v1"

def errSecureAuth : Err :=
  .text "camouflage peer failed secret authentication"

variable (lib : Primitives)

def securePSK (secret : Bytes) : Bytes :=
  lib.sha256 (secureInfo ++ [0] ++ ascii "psk" ++ [0] ++ secret)

def secureMask (psk salt : Bytes) : Except Err Bytes :=
  lib.hkdf psk salt (secureInfo ++ ascii " mask") 33

def secureTag (psk : Bytes) (label : String) (prior head : Bytes) : Bytes :=
  (lib.hmac psk (ascii label ++ prior ++ head)).take secureTagLen

/-- `sealSecureBlob`, with the random bytes the blob starts from. -/
def sealSecureBlob (random : Bytes) (psk : Bytes) (label : String) (prior pub : Bytes)
    (flags : UInt8) : Except Err Bytes := do
  let blob := (random.modify 0 (· ||| 0x80)).modify (secureBlobLen - 1) (· ||| 1)
  let mask ← secureMask lib psk (blob.take 16)
  let head := blob.take 16 ++ List.zipWith (· ^^^ ·) (pub.take 32) mask ++
    [flags ^^^ mask.getD 32 0]
  return head ++ secureTag lib psk label prior head ++ blob.drop (secureTagOff + secureTagLen)

/-- `openSecureBlob`: the public key and the flags of an authentic blob. -/
def openSecureBlob (psk : Bytes) (label : String) (prior blob : Bytes) :
    Except Err (Bytes × UInt8) := do
  if blob.length ≠ secureBlobLen then throw errSecureAuth
  let tag := (blob.drop secureTagOff).take secureTagLen
  if tag ≠ secureTag lib psk label prior (blob.take secureTagOff) then throw errSecureAuth
  let mask ← secureMask lib psk (blob.take 16)
  return (List.zipWith (· ^^^ ·) ((blob.drop 16).take 32) mask,
    blob.getD 48 0 ^^^ mask.getD 32 0)

/-- `secureKeys`: a key and an IV for each direction. -/
structure SecureKeys where
  c2s : Bytes
  s2c : Bytes
deriving DecidableEq

def deriveSecureKeys (psk shared hello reply : Bytes) : Except Err SecureKeys := do
  let stream ← lib.hkdf (shared ++ psk) (lib.sha256 (hello ++ reply))
    (secureInfo ++ ascii " stream") 96
  return ⟨stream.take 48, stream.drop 48⟩

/-- `secureServerHello`, with the ephemeral key and the random bytes of the run: the hello
blob and the key. -/
def secureServerHello (generated random : Except Err Bytes) (psk : Bytes) :
    Except Err (Bytes × Bytes) := do
  let priv ← generated
  let random ← random
  let blob ← sealSecureBlob lib random psk "server" [] (lib.publicKey priv) 0
  return (blob, priv)

/-- `secureServerFinish`: the stream keys and the NAT flag of an authentic reply to the
given hello. -/
def secureServerFinish (psk hello priv reply : Bytes) : Except Err (SecureKeys × Bool) :=
  match openSecureBlob lib psk "client" hello reply with
  | .error _ => .error errSecureAuth
  | .ok (cpub, flags) =>
    if flags > 1 then .error errSecureAuth
    else match lib.newPublicKey cpub with
    | .error _ => .error errSecureAuth
    | .ok peer =>
      match lib.ecdh priv peer with
      | .error _ => .error errSecureAuth
      | .ok shared =>
        (deriveSecureKeys lib psk shared hello reply).map fun keys => (keys, flags = 1)

/-- The `net.Conn` a handshake returns: the raw connection, or one that encrypts each
direction from an offset of its keystream. -/
inductive NetConn
  | raw
  | secure (rd wr : Bytes) (rdOff wrOff : Nat)
deriving DecidableEq

/-- `newSecureConn` on the raw connection. -/
def newSecureConn (keys : SecureKeys) (server : Bool) : Except Err NetConn := do
  let (rd, wr) := if server then (keys.c2s, keys.s2c) else (keys.s2c, keys.c2s)
  lib.newCipher (rd.take 32)
  lib.newCipher (wr.take 32)
  return .secure rd wr 0 0

/-- `XORKeyStream` from an offset of the keystream. -/
def xorKeyStream (key : Bytes) (offset : Nat) (data : Bytes) : Bytes :=
  data.mapIdx fun i b => b ^^^ lib.keyStream key (offset + i)

/-- `writeMCPacket` on a connection that may encrypt, which returns it at its new offset. -/
def writeMCPacketTo (net : Network) (conn : NetConn) (payload : Bytes) : Session NetConn :=
  match conn with
  | .raw => do
      writeMCPacket net payload
      return .raw
  | .secure rd wr rdOff wrOff => do
      writeAll net (xorKeyStream lib wr wrOff (packetFrame payload))
      return .secure rd wr rdOff (wrOff + (packetFrame payload).length)

end Conn
