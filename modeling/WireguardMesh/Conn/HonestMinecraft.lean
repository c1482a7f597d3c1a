import WireguardMesh.Conn.HonestHandshakes

/-! # The conversation of the Minecraft handshake

Two honest ends with the same config in each mode of the profile `minecraft`: the server-list probe
alone, followed by a login that proves the secret in a plugin response (deep), or by a login whose
encryption request and response carry the blobs of the secure exchange (secure).
-/

namespace Conn

open Conversation

variable {lib : Primitives} {clientLib : ClientPrimitives}

/-- The strings of the Minecraft handshake leave room for the rest of a packet of 1 MiB. -/
structure StringsFit (cfg : CamoConfig) (client : ClientRun) (server : ServerRun) : Prop where
  host : client.dst.host.length + 64 ≤ 2 ^ 20
  statusJSON : server.random.statusJSON.length + 64 ≤ 2 ^ 20
  username : cfg.loginUsername.length + 64 ≤ 2 ^ 20
  channel : cfg.pluginChannel.length + 64 ≤ 2 ^ 20

/-- The server-list probe. -/
def probeTalk (dst : DialTarget) (statusJSON : Bytes) : Talk UInt8 :=
  [(.left, packetFrame (encodeMCHandshake defaultMCProtocol dst.host dst.port mcStateStatus)),
    (.left, packetFrame encodeMCStatusRequest),
    (.right, packetFrame (encodeMCStatusResponse statusJSON))]

def pingTalk (pingTime : BitVec 64) : Talk UInt8 :=
  [(.left, packetFrame (encodeMCPing pingTime)), (.right, packetFrame (encodeMCPong pingTime))]

def loginTalk (dst : DialTarget) (start : Bytes) : Talk UInt8 :=
  [(.left, packetFrame (encodeMCHandshake defaultMCProtocol dst.host dst.port mcStateLogin)),
    (.left, packetFrame start)]

section Minecraft

variable {client : ClientRun} {server : ServerRun} {cfg : CamoConfig}

theorem below {size : Nat} (fits : size + 64 ≤ 2 ^ 20) : size < 2 ^ 32 := by
  omega

variable (lawful : lib.Lawful clientLib) (honest : HonestRuns clientLib client server)
  (fits : StringsFit cfg client server)

include fits

theorem StringsFit.handshakePacket (state : Nat) :
    (encodeMCHandshake defaultMCProtocol client.dst.host client.dst.port state).length ≤
      2 ^ 20 := by
  have size := fits.host
  have id := length_writeMCVarInt_le mcIDHandshake
  have version := length_writeMCVarInt_le defaultMCProtocol
  have host := length_writeMCString_le client.dst.host
  have next := length_writeMCVarInt_le state
  simp only [encodeMCHandshake, List.length_append, List.length_cons, List.length_nil]
  omega

theorem StringsFit.statusPacket :
    (encodeMCStatusResponse server.random.statusJSON).length ≤ 2 ^ 20 :=
  (length_encodeMCStatusResponse_le _).trans (by have := fits.statusJSON; omega)

theorem StringsFit.loginPacket : (encodeMCLoginStart cfg.loginUsername).length ≤ 2 ^ 20 := by
  have size := fits.username
  have id := length_writeMCVarInt_le mcIDLoginStart
  have username := length_writeMCString_le cfg.loginUsername
  rw [encodeMCLoginStart, List.length_append]
  omega

theorem StringsFit.loginPacketUUID (digest : ∀ data, (lib.md5 data).length = 16) :
    (encodeMCLoginStartUUID lib cfg.loginUsername).length ≤ 2 ^ 20 := by
  have size := fits.username
  have id := length_writeMCVarInt_le mcIDLoginStart
  have username := length_writeMCString_le cfg.loginUsername
  simp only [encodeMCLoginStartUUID, List.length_append, length_offlinePlayerUUID digest]
  omega

theorem StringsFit.successPacket (digest : ∀ data, (lib.md5 data).length = 16) :
    (encodeMCLoginSuccess lib cfg.loginUsername).length ≤ 2 ^ 20 := by
  have size := fits.username
  have id := length_writeMCVarInt_le mcIDLoginSuccess
  have username := length_writeMCString_le cfg.loginUsername
  have properties := length_writeMCVarInt_le 0
  simp only [encodeMCLoginSuccess, List.length_append, length_offlinePlayerUUID digest]
  omega

theorem StringsFit.requestPacket {data : Bytes} (small : data.length ≤ 33) :
    (encodeMCLoginPluginRequest cfg.pluginChannel data).length ≤ 2 ^ 20 :=
  (length_encodeMCLoginPluginRequest_le _ _).trans (by have := fits.channel; omega)

theorem StringsFit.responsePacket {data : Bytes} (small : data.length ≤ 33) :
    (encodeMCLoginPluginResponse cfg.pluginChannel data).length ≤ 2 ^ 20 := by
  have size := fits.channel
  have id := length_writeMCVarInt_le mcIDLoginPluginResponse
  have channel := length_writeMCString_le cfg.pluginChannel
  have response := length_writeMCByteArray_le data
  rw [encodeMCLoginPluginResponse, List.length_append, List.length_append]
  omega

include honest in
theorem queryStatus_speaks (handshake request response invalid : String) :
    Speaks .left (queryStatus clientLib calmNetwork client.dst handshake request response invalid)
      (probeTalk client.dst server.random.statusJSON) () := by
  refine .sends ?_
  refine .sends ?_
  refine .receives fits.statusPacket ?_
  exact (Speaks.lift (decodeMCStatusResponse_encode clientLib (below fits.statusJSON)
    honest.statusJSON).1).within _

theorem serveStatus_speaks (handshake request response : String) :
    Speaks .right (serveStatus calmNetwork server.random handshake request response)
      (probeTalk client.dst server.random.statusJSON) () := by
  refine .receives (fits.handshakePacket mcStateStatus) ?_
  refine .checks (decodeMCHandshake_encode (by decide) (below fits.host) _ (by decide)).1 ?_
  refine .receives (show encodeMCStatusRequest.length ≤ 2 ^ 20 by decide) ?_
  refine .checks decodeMCStatusRequest_encode.1 ?_
  exact (Speaks.writeMCPacket _ _).within _

omit fits in
theorem length_encodeMCPing (timestamp : BitVec 64) : (encodeMCPing timestamp).length ≤ 2 ^ 20 := by
  have head := length_writeMCVarInt_le mcIDPingRequest
  rw [encodeMCPing, List.length_append, length_uint64Bytes]
  omega

omit fits in
theorem length_encodeMCPong (timestamp : BitVec 64) : (encodeMCPong timestamp).length ≤ 2 ^ 20 :=
  (length_encodeMCPong_le timestamp).trans (by decide)

omit fits in
theorem receivePing_speaks (context : String) (timestamp : BitVec 64) :
    Speaks .right (receivePing calmNetwork context)
      [(.left, packetFrame (encodeMCPing timestamp))] timestamp := by
  refine .receives (length_encodeMCPing timestamp) ?_
  exact (Speaks.lift (decodeMCPing_encode timestamp).1).within _

omit fits in
theorem sendLoginStart_speaks (handshake start : String) (dst : DialTarget) (payload : Bytes) :
    Speaks .left (sendLoginStart calmNetwork dst handshake start payload)
      (loginTalk dst payload) () := by
  refine .sends ?_
  exact (Speaks.writeMCPacket _ _).within _

theorem receiveLoginStart_speaks (handshake start : String) {payload username : Bytes} (small : payload.length ≤ 2 ^ 20)
    (decoded : decodeMCLoginStart payload = .ok username) :
    Speaks .right (receiveLoginStart calmNetwork handshake start)
      (loginTalk client.dst payload) () := by
  refine .receives (fits.handshakePacket mcStateLogin) ?_
  refine .checks (decodeMCHandshake_encode (by decide) (below fits.host) _ (by decide)).1 ?_
  refine .receives small ?_
  exact .checks decoded (Speaks.pure _ _)

include honest in
theorem mcStatusPingClient_speaks :
    Speaks .left (mcStatusPingClient clientLib calmNetwork client.dst client.random)
      (probeTalk client.dst server.random.statusJSON ++ pingTalk client.random.pingTime) () := by
  refine (queryStatus_speaks honest fits _ _ _ _).bind ?_ rfl
  refine .sends ?_
  refine .receives (length_encodeMCPong _) ?_
  exact Speaks.lift (decodeMCPong_encode _).1

theorem mcStatusPingServer_speaks (timestamp : BitVec 64) :
    Speaks .right (mcStatusPingServer calmNetwork server.random)
      (probeTalk client.dst server.random.statusJSON ++ pingTalk timestamp) () := by
  refine (serveStatus_speaks fits _ _ _).bind ?_ rfl
  refine (receivePing_speaks _ timestamp).bind ?_ rfl
  exact Speaks.writeMCPacket _ _

/-! ### Deep mode -/

/-- The messages of deep mode after the login. -/
def deepTalk (lib : Primitives) (cfg : CamoConfig) (challenge : Bytes) (toNAT : Bool) :
    Talk UInt8 :=
  [(.right, packetFrame (encodeMCLoginPluginRequest cfg.pluginChannel challenge)),
    (.left, packetFrame (encodeMCLoginPluginResponse cfg.pluginChannel
      (buildPluginResponse lib cfg.pluginSecret challenge toNAT))),
    (.right, packetFrame (encodeMCLoginSuccess lib cfg.loginUsername))]

omit fits in
theorem length_buildPluginResponse (sized : lib.Sized) (secret challenge : Bytes) (toNAT : Bool) :
    (buildPluginResponse lib secret challenge toNAT).length = 33 := by
  rw [buildPluginResponse, List.length_append, sized.mac, List.length_singleton]

include lawful

include honest in
theorem performMCCamouflageClientDeep_speaks {challenge : Bytes} (size : challenge.length = 8) :
    Speaks .left (performMCCamouflageClientDeep lib clientLib calmNetwork client.dst client.random
        cfg.mcDeepConfig client.toNAT)
      (probeTalk client.dst server.random.statusJSON ++ (pingTalk client.random.pingTime ++
        (loginTalk client.dst (encodeMCLoginStart cfg.loginUsername) ++
          deepTalk lib cfg challenge client.toNAT))) () := by
  have queried : Speaks .left
      (mcDeepClientChallenge clientLib calmNetwork client.dst client.random cfg.mcDeepConfig)
      (probeTalk client.dst server.random.statusJSON ++ (pingTalk client.random.pingTime ++
        (loginTalk client.dst (encodeMCLoginStart cfg.loginUsername) ++
          [(.right, packetFrame (encodeMCLoginPluginRequest cfg.pluginChannel challenge))])))
      challenge := by
    refine .deadline ?_
    refine (queryStatus_speaks honest fits _ _ _ _).bind ?_ rfl
    refine .sends ?_
    refine .receives (length_encodeMCPong _) ?_
    refine .checks (decodeMCPong_encode _).1 ?_
    refine (sendLoginStart_speaks _ _ _ _).bind ?_ rfl
    refine .receives (fits.requestPacket (by omega)) ?_
    refine .checks (decodeMCLoginPluginRequest_encode (below fits.channel) (by omega)).1 ?_
    refine .computes (a := ()) (validatePluginChannel_eq_ok.mpr rfl) ?_
    exact Speaks.pure _ _
  refine queried.bind ?_ rfl
  refine .sends ?_
  refine .receives (fits.successPacket lawful.digest) ?_
  exact (Speaks.lift (decodeMCLoginSuccess_encode clientLib lawful.digest
    (below fits.username)).1).within _

theorem judgeDeep_speaks (challenge : Bytes) (toNAT : Bool) :
    Speaks .right (judgeDeep lib calmNetwork cfg.mcDeepConfig challenge mcIDLoginPluginResponse
        (writeMCString cfg.pluginChannel ++
          writeMCByteArray (buildPluginResponse lib cfg.pluginSecret challenge toNAT)))
      [(.right, packetFrame (encodeMCLoginSuccess lib cfg.loginUsername))] toNAT := by
  have size := length_buildPluginResponse lawful.toSized cfg.pluginSecret challenge toNAT
  rw [judgeDeep, if_pos rfl]
  refine .checks (decodeMCLoginPluginResponseBody_encode (below fits.channel) (by omega)).1 ?_
  refine .computes (a := ()) (validatePluginChannel_eq_ok.mpr rfl) ?_
  have verified : verifyPluginResponse lib cfg.mcDeepConfig.pluginSecret challenge
      (buildPluginResponse lib cfg.pluginSecret challenge toNAT) = (true, toNAT) :=
    verifyPluginResponse_build lawful.mac cfg.pluginSecret challenge toNAT
  rw [verified]
  exact .sends (Speaks.pure _ _)

theorem performMCCamouflageServerDeep_speaks {challenge : Bytes}
    (drawn : server.random.challenge = .ok challenge) :
    Speaks .right (performMCCamouflageServerDeep lib calmNetwork server.random cfg.mcDeepConfig)
      (probeTalk client.dst server.random.statusJSON ++ (pingTalk client.random.pingTime ++
        (loginTalk client.dst (encodeMCLoginStart cfg.loginUsername) ++
          deepTalk lib cfg challenge client.toNAT))) client.toNAT := by
  have size := length_buildPluginResponse lawful.toSized cfg.pluginSecret challenge client.toNAT
  refine .deadline ?_
  refine (serveStatus_speaks fits _ _ _).bind ?_ rfl
  refine (receivePing_speaks _ client.random.pingTime).bind ?_ rfl
  refine .sends ?_
  refine (receiveLoginStart_speaks fits _ _ fits.loginPacket
    (decodeMCLoginStart_encode (below fits.username))).bind ?_ rfl
  refine .computes drawn ?_
  refine .sends ?_
  refine .deadline ?_
  refine .receives (fits.responsePacket (Nat.le_of_eq size)) ?_
  refine .checks (mcPacketHead_pluginResponse _ _) ?_
  exact judgeDeep_speaks lawful fits challenge client.toNAT

/-! ### Secure mode -/

/-- The messages of secure mode after the login. -/
def encryptionTalk (lib : Primitives) (cfg : CamoConfig) (request reply token : Bytes)
    (keys : SecureKeys) : Talk UInt8 :=
  [(.right, packetFrame request),
    (.left, packetFrame (encodeMCEncryptionResponse reply token)),
    (.right, xorKeyStream lib keys.s2c 0 (packetFrame (encodeMCLoginSuccess lib cfg.loginUsername)))]

omit fits lawful in
theorem length_encodeMCEncryptionResponse {reply token : Bytes}
    (replySize : reply.length = secureBlobLen) (tokenSize : token.length = secureBlobLen) :
    (encodeMCEncryptionResponse reply token).length ≤ 2 ^ 20 := by
  have id := length_writeMCVarInt_le mcIDEncryptionResponse
  have blob := length_writeMCByteArray_le reply
  have proof := length_writeMCByteArray_le token
  have size : secureBlobLen = 128 := rfl
  rw [encodeMCEncryptionResponse, List.length_append, List.length_append]
  omega

variable {hello priv reply request rest verify token : Bytes} {keys : SecureKeys}
  (exchanged : Exchanged lib client.random.secure server.secureRandom
    (securePSK lib cfg.pluginSecret) client.toNAT hello priv reply keys)

include exchanged

include honest in
theorem performMCCamouflageClientSecure_speaks (small : request.length ≤ 2 ^ 20)
    (head : mcPacketHead request = .ok (mcIDEncryptionRequest, rest))
    (decoded : decodeMCEncryptionRequest clientLib rest = .ok hello)
    (drawn : client.random.verifyToken = .ok token) :
    Speaks .left (performMCCamouflageClientSecure lib clientLib calmNetwork client.dst
        client.random cfg.mcDeepConfig client.toNAT)
      ((probeTalk client.dst server.random.statusJSON ++ pingTalk client.random.pingTime) ++
        (loginTalk client.dst (encodeMCLoginStartUUID lib cfg.loginUsername) ++
          encryptionTalk lib cfg request reply token keys)) (.secure keys.s2c keys.c2s
        (0 + (packetFrame (encodeMCLoginSuccess lib cfg.loginUsername)).length) 0) := by
  refine .deadline ?_
  refine (mcStatusPingClient_speaks honest fits).bind ?_ rfl
  refine (sendLoginStart_speaks _ _ _ _).bind ?_ rfl
  refine .receives small ?_
  refine .computes head ?_
  refine .computes (a := ()) rfl ?_
  refine .checks decoded ?_
  refine .checks (Effect.except_mapError_eq_ok.mpr exchanged.answered) ?_
  refine .computes drawn ?_
  refine .sends ?_
  refine .computes exchanged.clientConn ?_
  refine ((Speaks.readMCPacketFrom (fits.successPacket lawful.digest)).within _).bind ?_ rfl
  refine .checks (decodeMCLoginSuccess_encode clientLib lawful.digest (below fits.username)).1 ?_
  exact Speaks.pure _ _

theorem performMCCamouflageServerSecure_speaks (drawn : server.random.verifyToken = .ok verify)
    (encoded : encodeMCEncryptionRequest lib hello verify = .ok request)
    (size : token.length = secureBlobLen) :
    Speaks .right (performMCCamouflageServerSecure lib calmNetwork server.random cfg.mcDeepConfig)
      ((probeTalk client.dst server.random.statusJSON ++ pingTalk client.random.pingTime) ++
        (loginTalk client.dst (encodeMCLoginStartUUID lib cfg.loginUsername) ++
          encryptionTalk lib cfg request reply token keys)) (some (.secure keys.c2s keys.s2c 0
        (0 + (packetFrame (encodeMCLoginSuccess lib cfg.loginUsername)).length)),
        client.toNAT) := by
  refine .deadline ?_
  refine (mcStatusPingServer_speaks fits _).bind ?_ rfl
  refine (receiveLoginStart_speaks fits _ _ (fits.loginPacketUUID lawful.digest)
    (decodeMCLoginStart_encodeUUID lawful.digest (below fits.username)).1).bind ?_ rfl
  refine .computes exchanged.offered ?_
  refine .computes drawn ?_
  refine .computes encoded ?_
  refine .sends ?_
  refine .receives (length_encodeMCEncryptionResponse exchanged.length_reply size) ?_
  rw [judgeSecure, encryptionReply_encode exchanged.length_reply (by rw [size]; decide)]
  refine .computes exchanged.finished ?_
  refine .computes exchanged.serverConn ?_
  refine ((Speaks.writeMCPacketTo _ _).within _).bind ?_ rfl
  exact Speaks.pure _ _

omit exchanged

/-! ### All modes -/

include honest

theorem minecraftSecure_meet :
    Meet (performMCCamouflageClientSecure lib clientLib calmNetwork client.dst client.random
        cfg.mcDeepConfig client.toNAT)
      (performMCCamouflageServerSecure lib calmNetwork server.random cfg.mcDeepConfig)
      True client.toNAT := by
  obtain ⟨hello, priv, reply, keys, exchanged⟩ := exists_exchanged lawful honest.clientSecure
    honest.serverSecure (securePSK lib cfg.pluginSecret) client.toNAT
  obtain ⟨token, tokenDrawn, tokenSize⟩ := honest.clientToken
  obtain ⟨verify, verifyDrawn, verifySize⟩ := honest.serverToken
  obtain ⟨der, marshalled, derSize, parsed⟩ :=
    lawful.marshals exchanged.length_hello exchanged.top_hello
  obtain ⟨_, rest, encoded, requestSize, rfl, decoded⟩ :=
    encodeMCEncryptionRequest_decode exchanged.length_hello exchanged.top_hello marshalled parsed
      (by omega) (show verify.length < 2 ^ 32 by omega)
  exact ⟨_, _, _, client.toNAT,
    performMCCamouflageClientSecure_speaks lawful honest fits exchanged (by omega)
      (readMCVarInt_writeMCVarInt (by decide) rest) (List.append_nil rest ▸ decoded []) tokenDrawn,
    performMCCamouflageServerSecure_speaks lawful fits exchanged verifyDrawn encoded tokenSize,
    .secure, .secure, fun _ => rfl⟩

theorem minecraft_meet :
    Meet (performMCCamouflageClient lib clientLib client.net client.dst client.random
        cfg.mcDeepConfig cfg.secure client.toNAT)
      (performMCCamouflageServer lib server.net server.random cfg.mcDeepConfig cfg.secure)
      (cfg.secure = true ∨ cfg.deep = true) client.toNAT := by
  have on : cfg.mcDeepConfig.enabled ≠ false := nofun
  have same : cfg.mcDeepConfig.deep = cfg.deep := rfl
  rw [honest.clientNet, honest.serverNet, performMCCamouflageClient, performMCCamouflageServer,
    if_neg on, if_neg on, same]
  cases secure : cfg.secure with
  | true =>
    obtain ⟨talk, conn, conn', toNAT, left, right, paired, paired', flag⟩ :=
      minecraftSecure_meet lawful honest fits
    exact ⟨talk, conn, conn', toNAT, left, right, paired, paired', fun _ => flag trivial⟩
  | false =>
    cases deep : cfg.deep with
    | true =>
      obtain ⟨challenge, drawn, size⟩ := honest.challenge
      exact ⟨_, .raw, .raw, client.toNAT,
        (performMCCamouflageClientDeep_speaks lawful honest fits size).bind
          (Speaks.pure _ _) rfl,
        (performMCCamouflageServerDeep_speaks lawful fits drawn).bind (Speaks.pure _ _) rfl,
        .raw, .raw, fun _ => rfl⟩
    | false =>
      refine ⟨probeTalk client.dst server.random.statusJSON, .raw, .raw, false, ?_, ?_, .raw,
        .raw, by rintro (impossible | impossible) <;> cases impossible⟩
      · exact (Speaks.deadline (queryStatus_speaks honest fits _ _ _ _)).bind (Speaks.pure _ _) rfl
      · exact (Speaks.deadline (serveStatus_speaks fits _ _ _)).bind (Speaks.pure _ _) rfl

end Minecraft

end Conn
