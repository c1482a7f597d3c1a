import WireguardMesh.Conn.Dialogue
import WireguardMesh.Conn.SecureBlob

/-! # The conversations of the short profiles

What two honest ends with the same config say to each other: the query and the reply of the
profiles `source`, `terraria`, `steam`, `bedrock` and `fivem`, the proof of the secret, and the
secure exchange. The single reads of these profiles are taken to return the whole message of the
peer, and the challenges of the two ends to have the same MAC; both are hypotheses here.
-/

namespace Conn

open Conversation Effect

variable {taken : Nat} {challenge serverName : Bytes} {cfg : CamoConfig}

/-! ## Library functions and runs -/

/-- What the documentation of the library functions promises. -/
structure Primitives.Lawful (lib : Primitives) (clientLib : ClientPrimitives) : Prop
    extends lib.Sized where
  digest : ∀ data, (lib.md5 data).length = 16
  /-- HKDF-SHA256 gives up to 255 blocks -/
  derives : ∀ (secret salt info : Bytes) {size : Nat}, size ≤ 255 * 32 →
    ∃ bytes, lib.hkdf secret salt info size = .ok bytes
  cipher : ∀ {key : Bytes}, key.length = 32 → lib.newCipher key = .ok ()
  /-- two X25519 key pairs share a point -/
  agreement : ∀ {priv priv' : Bytes}, priv.length = 32 → priv'.length = 32 →
    ∃ peer peer' shared, lib.newPublicKey (lib.publicKey priv) = .ok peer ∧
      lib.newPublicKey (lib.publicKey priv') = .ok peer' ∧
      lib.ecdh priv peer' = .ok shared ∧ lib.ecdh priv' peer = .ok shared
  /-- a public RSA key is parsed as it was marshalled -/
  marshals : ∀ {modulus : Bytes}, modulus.length = secureBlobLen → 0x80 ≤ modulus.getD 0 0 →
    ∃ der, lib.marshalPublicKey modulus = .ok der ∧ der.length < 2 ^ 16 ∧
      clientLib.parsePublicKey der = .ok (some (Sticky.ofBigEndian modulus))

/-- The random source works, and gives an ephemeral key and a blob. -/
structure SecureRandom.Drawn (random : SecureRandom) : Prop where
  key : ∃ priv, random.ephemeralKey = .ok priv ∧ priv.length = 32
  filler : ∃ filler, random.blobFiller = .ok filler ∧ filler.length = secureBlobLen

/-- Runs on a calm network, with what they draw. -/
structure HonestRuns (clientLib : ClientPrimitives) (client : ClientRun) (server : ServerRun) :
    Prop where
  clientNet : client.net = calmNetwork
  serverNet : server.net = calmNetwork
  clientSecure : client.random.secure.Drawn
  serverSecure : server.secureRandom.Drawn
  clientToken : ∃ token, client.random.verifyToken = .ok token ∧ token.length = secureBlobLen
  serverToken : ∃ token, server.random.verifyToken = .ok token ∧ token.length = 4
  challenge : ∃ challenge, server.random.challenge = .ok challenge ∧ challenge.length = 8
  statusJSON : clientLib.validJSON server.random.statusJSON = true

variable {lib : Primitives} {clientLib : ClientPrimitives}

/-! ## The secure exchange -/

theorem exists_sealed (lawful : lib.Lawful clientLib) (random psk prior pub : Bytes)
    (label : String) (flags : UInt8) :
    ∃ blob, sealSecureBlob lib random psk label prior pub flags = .ok blob := by
  obtain ⟨mask, masked⟩ := lawful.derives psk (blobSalt random) (secureInfo ++ ascii " mask")
    (show 33 ≤ 255 * 32 by decide)
  exact ⟨_, except_bind_eq_ok.mpr ⟨mask, masked, rfl⟩⟩

theorem exists_keys (lawful : lib.Lawful clientLib) (psk shared hello reply : Bytes) :
    ∃ keys, deriveSecureKeys lib psk shared hello reply = .ok keys ∧
      keys.c2s.length = 48 ∧ keys.s2c.length = 48 := by
  obtain ⟨stream, made⟩ := lawful.derives (shared ++ psk) (lib.sha256 (hello ++ reply))
    (secureInfo ++ ascii " stream") (show 96 ≤ 255 * 32 by decide)
  have size := lawful.stream made
  refine ⟨⟨stream.take 48, stream.drop 48⟩, except_bind_eq_ok.mpr ⟨stream, made, rfl⟩, ?_⟩
  rw [List.length_take, List.length_drop, size]
  decide

/-- **The exchange of two honest ends**: what the server offers, the client's reply to it, and the
keys and the flag that both then have. -/
structure Exchanged (lib : Primitives) (client server : SecureRandom) (psk : Bytes) (toNAT : Bool)
    (hello priv reply : Bytes) (keys : SecureKeys) : Prop where
  offered : secureServerHello lib server.ephemeralKey server.blobFiller psk = .ok (hello, priv)
  length_hello : hello.length = secureBlobLen
  top_hello : 0x80 ≤ hello.getD 0 0
  answered : secureClientReply lib client psk hello toNAT = .ok (reply, keys)
  length_reply : reply.length = secureBlobLen
  finished : secureServerFinish lib psk hello priv reply = .ok (keys, toNAT)
  clientConn : newSecureConn lib keys false = .ok (.secure keys.s2c keys.c2s 0 0)
  serverConn : newSecureConn lib keys true = .ok (.secure keys.c2s keys.s2c 0 0)

theorem exists_exchanged (lawful : lib.Lawful clientLib) {client server : SecureRandom}
    (clientDrawn : client.Drawn) (serverDrawn : server.Drawn) (psk : Bytes) (toNAT : Bool) :
    ∃ hello priv reply keys, Exchanged lib client server psk toNAT hello priv reply keys := by
  obtain ⟨⟨priv, drawn, privSize⟩, filler, filled, full⟩ := serverDrawn
  obtain ⟨⟨priv', drawn', privSize'⟩, filler', filled', full'⟩ := clientDrawn
  have sized := lawful.toSized
  obtain ⟨peer, peer', shared, valid, valid', agreed, agreed'⟩ :=
    lawful.agreement privSize privSize'
  obtain ⟨hello, madeHello⟩ := exists_sealed lawful filler psk [] (lib.publicKey priv) "server" 0
  obtain ⟨reply, madeReply⟩ := exists_sealed lawful filler' psk hello (lib.publicKey priv')
    "client" (if toNAT then 1 else 0)
  obtain ⟨keys, derived, sizeC2s, sizeS2c⟩ := exists_keys lawful psk shared hello reply
  have openHello := openSecureBlob_sealSecureBlob sized full (sized.publicKey priv) madeHello
  have openReply := openSecureBlob_sealSecureBlob sized full' (sized.publicKey priv') madeReply
  obtain ⟨-, -, -, helloSize, -⟩ :=
    sealSecureBlob_parts sized full (sized.publicKey priv) madeHello
  obtain ⟨-, -, -, replySize, -⟩ :=
    sealSecureBlob_parts sized full' (sized.publicKey priv') madeReply
  have ciphers : lib.newCipher (keys.c2s.take 32) = .ok () ∧
      lib.newCipher (keys.s2c.take 32) = .ok () := by
    constructor
    · exact lawful.cipher (by rw [List.length_take, sizeC2s]; rfl)
    · exact lawful.cipher (by rw [List.length_take, sizeS2c]; rfl)
  refine ⟨hello, priv, reply, keys, ?_, helloSize, ?_, ?_, replySize, ?_, ?_, ?_⟩
  · simp only [secureServerHello, drawn, filled, madeHello, ok_bind]
    rfl
  · exact top_of_sealSecureBlob sized full (sized.publicKey priv) madeHello
  · simp only [secureClientReply, openHello, valid, drawn', agreed', filled', madeReply, derived,
      except_mapError_ok, ok_bind]
    rfl
  · refine secureServerFinish_eq_ok.mpr
      ⟨_, _, peer', shared, openReply, ?_, valid', agreed, derived, ?_⟩
    · cases toNAT <;> decide
    · cases toNAT <;> rfl
  · exact newSecureConn_eq_ok.mpr ⟨ciphers.1, ciphers.2, rfl⟩
  · exact newSecureConn_eq_ok.mpr ⟨ciphers.1, ciphers.2, rfl⟩

/-- The messages of the secure exchange. -/
def secureTalk (lib : Primitives) (hello reply : Bytes) (keys : SecureKeys) : Talk UInt8 :=
  [(.right, hello), (.left, reply),
    (.right, xorKeyStream lib keys.s2c 0 (List.replicate secureConfirmSz 0))]

variable {client server : SecureRandom} {cfg : CamoConfig} {toNAT : Bool}
  {hello priv reply : Bytes} {keys : SecureKeys}

variable (exchanged : Exchanged lib client server (securePSK lib cfg.pluginSecret) toNAT hello
  priv reply keys)

include exchanged

theorem secureGenericClient_speaks
    : Speaks .left (secureGenericClient lib calmNetwork client toNAT cfg)
      (secureTalk lib hello reply keys) (.secure keys.s2c keys.c2s secureConfirmSz 0) := by
  refine .deadline ?_
  refine ((Speaks.readFull exchanged.length_hello).within _).bind ?_ rfl
  refine .checks (except_mapError_eq_ok.mpr exchanged.answered) ?_
  refine (Speaks.writeAll _ reply).bind ?_ rfl
  refine .computes exchanged.clientConn ?_
  refine ((Speaks.readFullFrom List.length_replicate).within _).bind ?_ rfl
  refine .computes (a := ()) rfl ?_
  rw [Nat.zero_add]
  exact Speaks.pure _ _

theorem secureGenericServer_speaks
    : Speaks .right (secureGenericServer lib calmNetwork server cfg)
      (secureTalk lib hello reply keys) (.secure keys.c2s keys.s2c 0 secureConfirmSz, toNAT) := by
  refine .deadline ?_
  refine .computes exchanged.offered ?_
  refine (Speaks.writeAll _ hello).bind ?_ rfl
  refine (Speaks.readFull exchanged.length_reply).bind ?_ rfl
  refine .computes exchanged.finished ?_
  refine .computes exchanged.serverConn ?_
  refine (Speaks.writeAllTo _ _).bind ?_ rfl
  rw [Nat.zero_add, List.length_replicate]
  exact Speaks.pure _ _

omit exchanged

/-! ## The handshakes of the short profiles -/

/-- A client that sends a request, and whose single read returns the whole response. -/
theorem query_speaks
    {context : String} {size : Nat} {check : Bytes → Except Err Bytes} {request response : Bytes}
    (whole : response.length = max 1 (min taken size)) (checked : check response = .ok challenge) :
    Speaks .left (do
        setDeadline calmNetwork
        writeAll calmNetwork request
        let resp ← within context (readOnce calmNetwork size taken)
        Effect.lift (check resp))
      [(.left, request), (.right, response)] challenge := by
  refine .deadline ?_
  refine (Speaks.writeAll _ request).bind ?_ rfl
  refine ((Speaks.readOnce whole).within _).bind ?_ rfl
  exact Speaks.lift checked

theorem reply_speaks {read : Session Bytes}
    {check : Bytes → Except Err Unit} {request response : Bytes}
    (reads : Speaks .right read [(.left, request)] request) (checked : check request = .ok ()) :
    Speaks .right (do
        setDeadline calmNetwork
        let query ← read
        Effect.lift (check query)
        writeAll calmNetwork response
        return challenge)
      [(.left, request), (.right, response)] challenge := by
  refine .deadline ?_
  refine reads.bind ?_ rfl
  refine .computes checked ?_
  refine (Speaks.writeAll _ response).bind ?_ rfl
  exact Speaks.pure _ _

theorem sourceClientQuery_speaks
    (whole : (buildSourceInfoResponse serverName).length = max 1 (min taken 512)) :
    Speaks .left (sourceClientQuery calmNetwork taken)
      [(.left, sourceEngineQuery), (.right, buildSourceInfoResponse serverName)]
      ((buildSourceInfoResponse serverName).take 32) := by
  refine query_speaks whole ?_
  have checked := sourceChallenge_response serverName
  rwa [List.take_of_length_le (by omega)] at checked

theorem bedrockClientQuery_speaks (whole : (bedrockPong serverName).length = max 1 (min taken 256)) :
    Speaks .left (bedrockClientQuery calmNetwork taken)
      [(.left, bedrockPing), (.right, bedrockPong serverName)]
      ((bedrockPong serverName).take 32) := by
  refine query_speaks whole ?_
  have checked := bedrockChallenge_pong serverName
  rwa [List.take_of_length_le (by omega)] at checked

theorem bedrockServerReply_speaks (cfg : CamoConfig) :
    Speaks .right (bedrockServerReply calmNetwork cfg)
      [(.left, bedrockPing), (.right, bedrockPong cfg.serverName)]
      ((bedrockPong cfg.serverName).take 32) := by
  refine .deadline ?_
  refine ((Speaks.readFull rfl).within _).bind ?_ rfl
  refine (Speaks.writeAll _ _).bind ?_ rfl
  exact Speaks.pure _ _

theorem length_fiveMResponse (serverName : Bytes) : 12 ≤ (fiveMResponse serverName).length := by
  rw [fiveMResponse, List.append_assoc, List.append_assoc, List.length_append]
  exact Nat.le_add_right_of_le (by decide)

theorem fiveMClientQuery_speaks (whole : (fiveMResponse serverName).length = max 1 (min taken 512)) :
    Speaks .left (fiveMClientQuery calmNetwork taken)
      [(.left, fiveMRequest), (.right, fiveMResponse serverName)]
      ((fiveMResponse serverName).take 32) := by
  refine query_speaks whole ?_
  have long := length_fiveMResponse serverName
  rw [fiveMChallenge, if_neg]
  rintro (short | other)
  · omega
  · exact other rfl

/-! ### Terraria -/

theorem uint16LE_header {length msgType : Nat} (lengthFits : length < 2 ^ 16)
    (typeFits : msgType < 2 ^ 16) :
    uint16LE (putUint16LE length ++ putUint16LE msgType) 0 = length ∧
      uint16LE (putUint16LE length ++ putUint16LE msgType) 2 = msgType := by
  simp only [uint16LE, putUint16LE, List.cons_append, List.nil_append, List.getD_cons_zero,
    List.getD_cons_succ, UInt8.toNat_ofNat']
  omega

theorem writeTerrariaPacket_speaks (me : Conversation.Side) (msgType : Nat) (payload : Bytes) :
    Speaks me (writeTerrariaPacket calmNetwork msgType payload)
      [(me, putUint16LE (payload.length + 2) ++ putUint16LE msgType), (me, payload)] () :=
  (Speaks.writeAll me _).bind (Speaks.writeAll me _) rfl

theorem readTerrariaPacket_speaks (me : Conversation.Side) {msgType : Nat} {payload : Bytes}
    (fits : payload.length + 2 < 2 ^ 16) (typeFits : msgType < 2 ^ 16) :
    Speaks me (readTerrariaPacket calmNetwork)
      [(me.other, putUint16LE (payload.length + 2) ++ putUint16LE msgType), (me.other, payload)]
      (msgType, payload) := by
  obtain ⟨length, type⟩ := uint16LE_header fits typeFits
  have header : (putUint16LE (payload.length + 2) ++ putUint16LE msgType).length = 4 := rfl
  refine (Speaks.readFull header).bind ?_ rfl
  refine (Speaks.lift (a := payload.length) ?_).bind ?_ rfl
  · rw [terrariaPayloadLen, length, if_neg (by omega), Nat.add_sub_cancel]
  refine (Speaks.readFull rfl).bind ?_ rfl
  rw [type]
  exact Speaks.pure _ _

/-- The two packets of the Terraria handshake. -/
def terrariaTalk (cfg : CamoConfig) : Talk UInt8 :=
  [(.left, putUint16LE (terrariaConnectPayload.length + 2) ++ putUint16LE terrariaConnectMsg),
    (.left, terrariaConnectPayload),
    (.right, putUint16LE ((terrariaReject cfg ++ [0]).length + 2) ++ putUint16LE 2),
    (.right, terrariaReject cfg ++ [0])]

theorem terrariaClientQuery_speaks (fits : (terrariaReject cfg ++ [0]).length + 2 < 2 ^ 16) :
    Speaks .left (terrariaClientQuery calmNetwork) (terrariaTalk cfg)
      (2 :: (terrariaReject cfg ++ [0])) := by
  refine .deadline ?_
  refine (writeTerrariaPacket_speaks _ _ _).bind ?_ rfl
  refine ((readTerrariaPacket_speaks .left fits (show 2 < 2 ^ 16 by decide)).within _).bind ?_ rfl
  exact Speaks.pure _ _

theorem terrariaServerReply_speaks (cfg : CamoConfig) :
    Speaks .right (terrariaServerReply calmNetwork cfg) (terrariaTalk cfg)
      (82 :: terrariaConnectPayload) := by
  refine .deadline ?_
  have typeFits : terrariaConnectMsg < 2 ^ 16 := by decide
  refine ((readTerrariaPacket_speaks .right (by decide) typeFits).within _).bind ?_ rfl
  refine .computes (a := ()) rfl ?_
  refine (writeTerrariaPacket_speaks _ _ _).bind ?_ rfl
  exact Speaks.pure _ _

/-! ## The proof of the secret, and the secure exchange after it -/

/-- The proof that the client sends in deep mode. -/
def proofTalk (lib : Primitives) (cfg : CamoConfig) (challenge : Bytes) : Talk UInt8 :=
  if cfg.deep = false then [] else [(.left, lib.hmac cfg.pluginSecret challenge)]

theorem proveIfDeep_speaks (lib : Primitives) (cfg : CamoConfig) (challenge : Bytes) :
    Speaks .left (proveIfDeep lib calmNetwork cfg challenge) (proofTalk lib cfg challenge) () := by
  rw [proveIfDeep, proofTalk]
  split
  · exact Speaks.pure _ _
  · exact Speaks.writeAll _ _

theorem verifyIfDeep_speaks (sized : lib.Sized) {challenge' : Bytes}
    (same : cfg.deep = true → lib.hmac cfg.pluginSecret challenge = lib.hmac cfg.pluginSecret challenge') :
    Speaks .right (verifyIfDeep lib calmNetwork cfg challenge') (proofTalk lib cfg challenge)
      () := by
  rw [verifyIfDeep, proofTalk]
  split
  · exact Speaks.pure _ _
  · next deep =>
    refine ((Speaks.readFull (sized.mac _ _)).within _).bind ?_ rfl
    exact Speaks.lift (checkProof_eq_ok.mpr (same (Bool.eq_true_of_not_eq_false deep)))

/-- **The two ends meet**: both keep to one conversation and return connections that fit, and where
it matters the server learns the client's flag. -/
def Meet (client : Session NetConn) (server : Session (Option NetConn × Bool)) (matters : Prop)
    (dialToNAT : Bool) : Prop :=
  ∃ talk conn conn' toNAT, Speaks .left client talk conn ∧
    Speaks .right server talk (some conn', toNAT) ∧ Paired conn conn' ∧ Paired conn' conn ∧
    (matters → toNAT = dialToNAT)

theorem finish_meet (lawful : lib.Lawful clientLib) {client : ClientRun} {server : ServerRun}
    (honest : HonestRuns clientLib client server) {clientHandshake serverHandshake : Session Unit}
    {talk : Talk UInt8} (left : Speaks .left clientHandshake talk ())
    (right : Speaks .right serverHandshake talk ()) :
    Meet (finishClient lib client cfg clientHandshake)
      (finishServer lib server cfg serverHandshake) (cfg.secure = true) client.toNAT := by
  cases secure : cfg.secure with
  | false =>
    refine ⟨talk ++ [], .raw, .raw, false, left.bind ?_ rfl, right.bind ?_ rfl, .raw, .raw,
      nofun⟩
    · rw [secure]
      exact Speaks.pure _ _
    · rw [secure]
      exact Speaks.pure _ _
  | true =>
    obtain ⟨hello, priv, reply, keys, exchanged⟩ := exists_exchanged lawful honest.clientSecure
      honest.serverSecure (securePSK lib cfg.pluginSecret) client.toNAT
    refine ⟨talk ++ secureTalk lib hello reply keys,
      .secure keys.s2c keys.c2s secureConfirmSz 0, .secure keys.c2s keys.s2c 0 secureConfirmSz,
      client.toNAT, left.bind ?_ rfl, right.bind ?_ rfl, .secure, .secure, fun _ => rfl⟩
    · rw [secure, honest.clientNet]
      exact secureGenericClient_speaks exchanged
    · rw [secure, honest.serverNet]
      exact (secureGenericServer_speaks exchanged).bind (Speaks.pure _ _)
        (List.append_nil _).symm

theorem profile_meet (lawful : lib.Lawful clientLib) {client : ClientRun} {server : ServerRun}
    (honest : HonestRuns clientLib client server) (query reply : Network → Session Bytes)
    {talk : Talk UInt8} {challenge' : Bytes}
    (left : Speaks .left (query calmNetwork) talk challenge)
    (right : Speaks .right (reply calmNetwork) talk challenge')
    (same : cfg.deep = true → lib.hmac cfg.pluginSecret challenge = lib.hmac cfg.pluginSecret challenge') :
    Meet (finishClient lib client cfg (query client.net >>= proveIfDeep lib client.net cfg))
      (finishServer lib server cfg (reply server.net >>= verifyIfDeep lib server.net cfg))
      (cfg.secure = true) client.toNAT := by
  rw [honest.clientNet, honest.serverNet]
  exact finish_meet lawful honest (left.bind (proveIfDeep_speaks lib cfg challenge) rfl)
    (right.bind (verifyIfDeep_speaks lawful.toSized same) rfl)

end Conn
