import Mathlib.Data.Nat.Size
import WireguardMesh.Conn.FrameSizes
import WireguardMesh.Conn.MinecraftClient

/-! # Minecraft packets are decoded as they were encoded

Each packet that one end of the handshake encodes is what the other end decodes, as long as its
strings fit the 32 bits of their lengths and the packet fits its frame (`splitPacket_packetFrame`).
Most decoders take nothing but the encoded bytes (`Conn.Exact`).
-/

namespace Conn

open Effect Sticky

/-! ## Frames -/

theorem splitPacket_packetFrame (ended : Err) {payload : Bytes} (fits : payload.length < 2 ^ 32)
    (rest : Bytes) : splitPacket ended (packetFrame payload ++ rest) =
      if payload.length > 2 ^ 20 then
        .error (.text ("invalid mc packet size " ++ toString payload.length))
      else .ok (payload, rest) := by
  rw [splitPacket, packetFrame, List.append_assoc, varIntLoop_writeMCVarInt ended _ fits]
  change (if payload.length > 2 ^ 20 then _ else if (payload ++ rest).length < payload.length
    then _ else _) = _
  rw [List.take_left, List.drop_left]
  split
  · rfl
  · exact if_neg (Nat.not_lt.mpr (List.length_append ▸ Nat.le_add_right _ _))

theorem length_of_splitPacket {ended : Err} {input packet tail : Bytes}
    (read : splitPacket ended input = .ok (packet, tail)) : packet.length ≤ 2 ^ 20 := by
  obtain ⟨⟨size, rest⟩, -, framed⟩ := except_bind_eq_ok.mp read
  dsimp only at framed
  split at framed
  · cases framed
  · next small =>
    split at framed
    · cases framed
    · cases framed
      exact (List.length_take_le _ _).trans (Nat.not_lt.mp small)

/-! ## Parts of a packet -/

theorem readMCString_append {data : Bytes} (fits : data.length < 2 ^ 32) (rest : Bytes) :
    readMCString (writeMCString data ++ rest) = .ok (data, rest) :=
  readSized_append "invalid string size" fits rest

theorem readMCByteArray_append {data : Bytes} (fits : data.length < 2 ^ 32) (rest : Bytes) :
    readMCByteArray (writeMCByteArray data ++ rest) = .ok (data, rest) :=
  readSized_append "invalid byte array size" fits rest

theorem length_writeMCVarInt_le (value : Nat) : (writeMCVarInt value).length ≤ 5 :=
  varIntBytes_length_le 5 _

theorem length_writeMCString_le (data : Bytes) : (writeMCString data).length ≤ data.length + 5 := by
  rw [writeMCString, List.length_append, Nat.add_comm]
  exact Nat.add_le_add_left (length_writeMCVarInt_le _) _

theorem length_writeMCByteArray_le (data : Bytes) :
    (writeMCByteArray data).length ≤ data.length + 5 :=
  length_writeMCString_le data

theorem length_encodeMCStatusResponse_le (statusJSON : Bytes) :
    (encodeMCStatusResponse statusJSON).length ≤ statusJSON.length + 10 := by
  have id := length_writeMCVarInt_le mcIDStatusResponse
  have json := length_writeMCString_le statusJSON
  rw [encodeMCStatusResponse, List.length_append]
  omega

theorem length_encodeMCLoginPluginRequest_le (channel data : Bytes) :
    (encodeMCLoginPluginRequest channel data).length ≤ channel.length + data.length + 15 := by
  have id := length_writeMCVarInt_le mcIDLoginPluginRequest
  have text := length_writeMCString_le channel
  have bytes := length_writeMCByteArray_le data
  rw [encodeMCLoginPluginRequest, List.length_append, List.length_append]
  omega

/-- The decoder takes the value from these bytes, and fails if more bytes follow. -/
def Exact {α : Type} (decode : Bytes → Except Err α) (bytes : Bytes) (value : α) : Prop :=
  decode bytes = .ok value ∧ ∀ extra, extra ≠ [] → ∃ e, decode (bytes ++ extra) = .error e

section

variable {α β : Type} {decode : Bytes → Except Err α} {bytes : Bytes} {value : α}

theorem exact_of_append (e : Err) (read : ∀ extra : Bytes,
      decode (bytes ++ extra) = if extra.length = 0 then .ok value else .error e) :
    Exact decode bytes value := by
  refine ⟨?_, fun extra some => ⟨e, ?_⟩⟩
  · rw [← List.append_nil bytes, read]
    rfl
  · rw [read, if_neg (mt List.length_eq_zero_iff.mp some)]

end

/-! ## The plugin request -/

theorem length_of_decodeMCLoginPluginRequest {payload channel data : Bytes}
    (decoded : decodeMCLoginPluginRequest payload = .ok (channel, data)) :
    channel.length ≤ payload.length := by
  obtain ⟨⟨packetID, rest⟩, head, body⟩ := except_bind_eq_ok.mp decoded
  dsimp only at body
  split at body
  · cases body
  · obtain ⟨⟨channel', r⟩, text, body⟩ := except_bind_eq_ok.mp body
    obtain ⟨⟨data', r'⟩, -, body⟩ := except_bind_eq_ok.mp body
    dsimp only at body
    split at body
    · cases body
    · cases body
      have shorter := readMCVarInt_length head
      have sized := readSized_length text
      omega

theorem decodeMCLoginPluginRequest_encode {channel challenge : Bytes}
    (channelFits : channel.length < 2 ^ 32) (fits : challenge.length < 2 ^ 32) :
    Exact decodeMCLoginPluginRequest (encodeMCLoginPluginRequest channel challenge)
      (channel, challenge) := by
  refine exact_of_append (.text "unexpected trailing data in login plugin request") fun extra => ?_
  simp only [decodeMCLoginPluginRequest, encodeMCLoginPluginRequest, mcPacketHead,
    List.append_assoc, readMCVarInt_writeMCVarInt (show mcIDLoginPluginRequest < 2 ^ 32 by decide),
    readMCString_append channelFits, readMCByteArray_append fits, ok_bind, ne_eq, ite_not,
    if_true]
  rfl

/-! ## The server-list probe -/

theorem decodeMCHandshake_encode {protocolVersion nextState : Nat} {host : Bytes}
    (versionFits : protocolVersion < 2 ^ 32) (hostFits : host.length < 2 ^ 32) (port : UInt16)
    (stateFits : nextState < 2 ^ 32) :
    Exact (decodeMCHandshake · nextState) (encodeMCHandshake protocolVersion host port nextState)
      () := by
  refine exact_of_append (.text "unexpected trailing data in handshake") fun extra => ?_
  simp only [decodeMCHandshake, encodeMCHandshake, List.append_assoc, List.cons_append,
    List.nil_append, readMCVarInt_writeMCVarInt (show mcIDHandshake < 2 ^ 32 by decide),
    readMCVarInt_writeMCVarInt versionFits, readMCString_append hostFits, readUint16,
    readMCVarInt_writeMCVarInt stateFits, ok_bind, ne_eq, ite_not, if_true]
  rfl

theorem decodeMCStatusRequest_encode : Exact decodeMCStatusRequest encodeMCStatusRequest () := by
  refine exact_of_append (.text "unexpected trailing data in status request") fun extra => ?_
  simp only [decodeMCStatusRequest, encodeMCStatusRequest, mcPacketHead,
    readMCVarInt_writeMCVarInt (show mcIDStatusRequest < 2 ^ 32 by decide), ok_bind, ne_eq,
    ite_not, if_true]
  rfl

theorem decodeMCStatusResponse_encode (clientLib : ClientPrimitives) {statusJSON : Bytes}
    (fits : statusJSON.length < 2 ^ 32) (valid : clientLib.validJSON statusJSON = true) :
    Exact (decodeMCStatusResponse clientLib) (encodeMCStatusResponse statusJSON) () := by
  refine exact_of_append (.text "unexpected trailing data in status response") fun extra => ?_
  simp only [decodeMCStatusResponse, encodeMCStatusResponse, mcPacketHead, List.append_assoc,
    readMCVarInt_writeMCVarInt (show mcIDStatusResponse < 2 ^ 32 by decide),
    readMCString_append fits, valid, ok_bind, ne_eq, ite_not, if_true, Bool.true_eq_false,
    if_false]
  rfl

theorem uint64_uint64Bytes (value : BitVec 64) :
    BitVec.ofNat 64 ((uint64Bytes value).foldl (fun value b => value * 256 + b.toNat) 0) =
      value := by
  have read : ofBigEndian (uint64Bytes value) = value.toNat := by
    rw [show uint64Bytes value = _ from (bigEndian_eq_map 8 value.toNat).symm]
    exact ofBigEndian_bigEndian_of_lt (value.isLt.trans_eq (by decide))
  rw [ofBigEndian] at read
  rw [read, BitVec.ofNat_toNat, BitVec.setWidth_eq]

theorem length_uint64Bytes (value : BitVec 64) : (uint64Bytes value).length = 8 := by
  rw [uint64Bytes, List.length_map, List.length_range]

theorem length_encodeMCPong_le (timestamp : BitVec 64) : (encodeMCPong timestamp).length ≤ 13 := by
  rw [encodeMCPong, List.length_append, length_uint64Bytes]
  exact Nat.add_le_add_right (length_writeMCVarInt_le mcIDPongResponse) 8

theorem decodeMCPing_encode (timestamp : BitVec 64) :
    Exact decodeMCPing (encodeMCPing timestamp) timestamp := by
  refine exact_of_append (.text "invalid ping payload size") fun extra => ?_
  simp only [decodeMCPing, encodeMCPing, mcPacketHead, List.append_assoc,
    readMCVarInt_writeMCVarInt (show mcIDPingRequest < 2 ^ 32 by decide), ok_bind, ne_eq,
    List.length_append, length_uint64Bytes, Nat.add_eq_left, ite_not, if_true]
  split
  · next none =>
    rw [List.length_eq_zero_iff.mp none, List.append_nil, uint64_uint64Bytes]
    rfl
  · rfl

theorem decodeMCPong_encode (timestamp : BitVec 64) :
    Exact (decodeMCPong · timestamp) (encodeMCPong timestamp) () := by
  refine exact_of_append (.text "invalid pong payload size") fun extra => ?_
  simp only [decodeMCPong, encodeMCPong, mcPacketHead, List.append_assoc,
    readMCVarInt_writeMCVarInt (show mcIDPongResponse < 2 ^ 32 by decide), ok_bind, ne_eq,
    List.length_append, length_uint64Bytes, Nat.add_eq_left, ite_not, if_true]
  split
  · next none =>
    rw [List.length_eq_zero_iff.mp none, List.append_nil, uint64_uint64Bytes, if_pos rfl]
    rfl
  · rfl

/-! ## The login -/

theorem decodeMCLoginStart_append {username : Bytes} (fits : username.length < 2 ^ 32)
    (extra : Bytes) : decodeMCLoginStart (encodeMCLoginStart username ++ extra) =
      if extra.length ≠ 0 ∧ extra.length ≠ 16 then
        .error (.text "unexpected trailing data in login start") else .ok username := by
  simp only [decodeMCLoginStart, encodeMCLoginStart, mcPacketHead, List.append_assoc,
    readMCVarInt_writeMCVarInt (show mcIDLoginStart < 2 ^ 32 by decide), readMCString_append fits,
    ok_bind, ne_eq, ite_not, if_true]
  rfl

theorem decodeMCLoginStart_encode {username : Bytes} (fits : username.length < 2 ^ 32) :
    decodeMCLoginStart (encodeMCLoginStart username) = .ok username := by
  have read := decodeMCLoginStart_append fits []
  rwa [List.append_nil] at read

variable {lib : Primitives}

theorem length_offlinePlayerUUID (digests : ∀ data, (lib.md5 data).length = 16)
    (username : Bytes) : (offlinePlayerUUID lib username).length = 16 := by
  rw [offlinePlayerUUID, List.length_modify, List.length_modify, digests]

theorem decodeMCLoginStart_encodeUUID (digests : ∀ data, (lib.md5 data).length = 16)
    {username : Bytes} (fits : username.length < 2 ^ 32) :
    Exact decodeMCLoginStart (encodeMCLoginStartUUID lib username) username := by
  refine exact_of_append (.text "unexpected trailing data in login start") fun extra => ?_
  change decodeMCLoginStart (encodeMCLoginStart username ++ _ ++ extra) = _
  rw [List.append_assoc, decodeMCLoginStart_append fits, List.length_append,
    length_offlinePlayerUUID digests]
  by_cases none : extra.length = 0
  · rw [none, if_pos rfl, if_neg (by decide)]
  · rw [if_neg none, if_pos (by omega)]

theorem readUUID_append {uuid : Bytes} (length : uuid.length = 16) (rest : Bytes) :
    readUUID (uuid ++ rest) = .ok (uuid, rest) := by
  rw [readUUID, if_neg (by rw [List.length_append]; omega), List.take_left' length,
    List.drop_left' length]

theorem decodeMCLoginSuccess_encode (clientLib : ClientPrimitives)
    (digests : ∀ data, (lib.md5 data).length = 16) {username : Bytes}
    (fits : username.length < 2 ^ 32) :
    Exact (decodeMCLoginSuccess clientLib · username) (encodeMCLoginSuccess lib username) () := by
  refine exact_of_append (.text "unexpected trailing data in login success") fun extra => ?_
  simp only [decodeMCLoginSuccess, encodeMCLoginSuccess, mcPacketHead, List.append_assoc,
    readMCVarInt_writeMCVarInt (show mcIDLoginSuccess < 2 ^ 32 by decide),
    readUUID_append (length_offlinePlayerUUID digests username), readMCString_append fits,
    readMCVarInt_writeMCVarInt (show 0 < 2 ^ 32 by decide), ok_bind, ne_eq, ite_not, if_true]
  rfl

/-! ## The proofs of the secret -/

theorem mcPacketHead_pluginResponse (channel data : Bytes) :
    mcPacketHead (encodeMCLoginPluginResponse channel data) =
      .ok (mcIDLoginPluginResponse, writeMCString channel ++ writeMCByteArray data) := by
  rw [encodeMCLoginPluginResponse, List.append_assoc]
  exact readMCVarInt_writeMCVarInt (by decide) _

theorem decodeMCLoginPluginResponseBody_encode {channel data : Bytes}
    (channelFits : channel.length < 2 ^ 32) (fits : data.length < 2 ^ 32) :
    Exact decodeMCLoginPluginResponseBody (writeMCString channel ++ writeMCByteArray data)
      (channel, data) := by
  refine exact_of_append (.text "unexpected trailing data in login plugin response") fun extra => ?_
  simp only [decodeMCLoginPluginResponseBody, List.append_assoc, readMCString_append channelFits,
    readMCByteArray_append fits, ok_bind, ne_eq, ite_not]
  rfl

theorem verifyPluginResponse_build (macs : ∀ key message, (lib.hmac key message).length = 32)
    (secret challenge : Bytes) (toNAT : Bool) :
    verifyPluginResponse lib secret challenge (buildPluginResponse lib secret challenge toNAT) =
      (true, toNAT) := by
  have mac := macs secret (challenge ++ [if toNAT then 1 else 0])
  have flag : (buildPluginResponse lib secret challenge toNAT).getD 32 0 =
      if toNAT then 1 else 0 := by
    rw [buildPluginResponse, List.getD_append_right _ _ _ _ (Nat.le_of_eq mac), mac]
    rfl
  have proof : (buildPluginResponse lib secret challenge toNAT).take 32 =
      lib.hmac secret (challenge ++ [if toNAT then 1 else 0]) := List.take_left' mac
  have length : (buildPluginResponse lib secret challenge toNAT).length = 33 := by
    rw [buildPluginResponse, List.length_append, mac, List.length_singleton]
  rw [verifyPluginResponse, if_neg (not_not_intro length)]
  rw [flag, proof, if_neg (by cases toNAT <;> decide), if_neg (not_not_intro rfl)]
  cases toNAT <;> rfl

theorem decodeMCEncryptionResponse_encode {reply token : Bytes}
    (length : reply.length = secureBlobLen) (fits : token.length < 2 ^ 32) :
    Exact decodeMCEncryptionResponse (writeMCByteArray reply ++ writeMCByteArray token) reply := by
  refine exact_of_append (.text "bad encryption response") fun extra => ?_
  simp only [decodeMCEncryptionResponse, List.append_assoc, readMCByteArray_append fits,
    readMCByteArray_append (show reply.length < 2 ^ 32 by rw [length]; decide), length,
    ok_bind, ne_eq, not_true_eq_false, or_false, ite_not]
  rfl

theorem encryptionReply_encode {reply token : Bytes} (length : reply.length = secureBlobLen)
    (fits : token.length < 2 ^ 32) :
    encryptionReply (encodeMCEncryptionResponse reply token) = some reply := by
  have head : mcPacketHead (encodeMCEncryptionResponse reply token) =
      .ok (mcIDEncryptionResponse, writeMCByteArray reply ++ writeMCByteArray token) := by
    rw [encodeMCEncryptionResponse, List.append_assoc]
    exact readMCVarInt_writeMCVarInt (by decide) _
  rw [encryptionReply, head]
  dsimp only
  rw [if_neg (not_not_intro rfl), (decodeMCEncryptionResponse_encode length fits).1]
  rfl

/-! ## The hello in a public key -/

theorem size_of_bounds {value : Nat} (bits : Nat) (above : 2 ^ bits ≤ value)
    (below : value < 2 ^ (bits + 1)) : value.size = bits + 1 :=
  Nat.le_antisymm (Nat.size_le.mpr below) (Nat.lt_size.mpr above)

theorem size_ofBigEndian {blob : Bytes} (length : blob.length = secureBlobLen)
    (full : 0x80 ≤ blob.getD 0 0) : (Sticky.ofBigEndian blob).size = secureBlobLen * 8 := by
  cases blob with
  | nil => cases length
  | cons byte rest =>
    have tail : rest.length = 127 := Nat.succ.inj length
    have top : 128 ≤ byte.toNat := full
    have below : ofBigEndian (byte :: rest) < 2 ^ (7 + 8 * 127 + 1) := by
      rw [show 7 + 8 * 127 + 1 = 8 * 128 from rfl, pow_mul]
      have bound := ofBigEndian_lt (byte :: rest)
      rwa [length] at bound
    have above : 2 ^ (7 + 8 * 127) ≤ ofBigEndian (byte :: rest) := by
      rw [ofBigEndian_cons, tail, pow_add, pow_mul]
      exact (Nat.mul_le_mul_right _ top).trans (Nat.le_add_right _ _)
    exact size_of_bounds (7 + 8 * 127) above below

theorem encodeMCEncryptionRequest_decode {clientLib : ClientPrimitives}
    {hello der verifyToken : Bytes} (length : hello.length = secureBlobLen)
    (full : 0x80 ≤ hello.getD 0 0) (marshalled : lib.marshalPublicKey hello = .ok der)
    (parsed : clientLib.parsePublicKey der = .ok (some (Sticky.ofBigEndian hello)))
    (derFits : der.length < 2 ^ 32) (tokenFits : verifyToken.length < 2 ^ 32) :
    ∃ request rest, encodeMCEncryptionRequest lib hello verifyToken = .ok request ∧
      request.length ≤ der.length + verifyToken.length + 20 ∧
      request = writeMCVarInt mcIDEncryptionRequest ++ rest ∧
      ∀ extra, decodeMCEncryptionRequest clientLib (rest ++ extra) = .ok hello := by
  refine ⟨writeMCVarInt mcIDEncryptionRequest ++ writeMCString [] ++ writeMCByteArray der ++
      writeMCByteArray verifyToken,
    writeMCString [] ++ writeMCByteArray der ++ writeMCByteArray verifyToken, ?_, ?_, ?_, ?_⟩
  · rw [encodeMCEncryptionRequest, marshalled]
    rfl
  · have key := length_writeMCByteArray_le der
    have token := length_writeMCByteArray_le verifyToken
    have id := length_writeMCVarInt_le mcIDEncryptionRequest
    have empty := length_writeMCString_le []
    simp only [List.length_append, List.length_nil] at empty ⊢
    omega
  · simp
  · intro extra
    simp only [decodeMCEncryptionRequest, List.append_assoc,
      readMCString_append (show ([] : Bytes).length < 2 ^ 32 by decide),
      readMCByteArray_append derFits, readMCByteArray_append tokenFits, parsed, ok_bind,
      size_ofBigEndian length full, ne_eq, not_true_eq_false, if_false]
    rw [← length, bigEndian_ofBigEndian]
    rfl

end Conn
