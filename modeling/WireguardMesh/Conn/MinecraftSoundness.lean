import WireguardMesh.Conn.MinecraftServer

/-! # Soundness of the Minecraft handshake

`acceptLoop` installs a connection exactly when the handshake's error is nil, so the
handshake is sound when a nil error implies a connection and a proof of the secret in the
same run (`Conn.HandshakeSound`).

It is not sound. A refused follow-up packet is answered by a disconnect packet, and the
result of that write becomes the handshake's error, nil when the write succeeds. In deep
mode the refused client is then installed; in secure mode the caller gets a nil connection
(`Conn.stranger_refusal_unsound`). Soundness fails in no other way
(`Conn.performMCCamouflageServer_sound_iff`).
-/

namespace Conn

open Effect

variable {s s' : Stream} {u : Unit} {input packet challenge : Bytes}

/-! ## What the client sends -/

/-- The status handshake and request at the head of the input; the bytes after them. -/
def statusQuery (ended : Err) (input : Bytes) : Except Err Bytes := do
  let (hs, input) ← splitPacket ended input
  decodeMCHandshake hs mcStateStatus
  let (req, input) ← splitPacket ended input
  decodeMCStatusRequest req
  return input

/-- The ping at the head of the input; its timestamp and the bytes after it. -/
def pingRequest (ended : Err) (input : Bytes) : Except Err (BitVec 64 × Bytes) := do
  let (ping, input) ← splitPacket ended input
  let timestamp ← decodeMCPing ping
  return (timestamp, input)

/-- The login handshake and login start at the head of the input; the bytes after them. -/
def loginStart (ended : Err) (input : Bytes) : Except Err Bytes := do
  let (hs, input) ← splitPacket ended input
  decodeMCHandshake hs mcStateLogin
  let (login, input) ← splitPacket ended input
  let _ ← decodeMCLoginStart login
  return input

/-- The five packets of a well-formed probe and login, then a follow-up: the timestamp of the ping,
the follow-up, and the bytes after it. -/
def clientPackets (ended : Err) (input : Bytes) : Except Err (BitVec 64 × Bytes × Bytes) := do
  let input ← statusQuery ended input
  let (timestamp, input) ← pingRequest ended input
  let input ← loginStart ended input
  let (packet, input) ← splitPacket ended input
  return (timestamp, packet, input)

variable {lib : Primitives} {net : Network} {random : Randomness} {cfg : McDeepConfig}

theorem serveStatus_eq_ok {handshake request response : String} :
    serveStatus net random handshake request response s = .ok u s' ↔
      ∃ rest, statusQuery net.ended s.input = .ok rest ∧ net.writes s.writes = none ∧
        s' = { s with input := rest,
                      sent := s.sent ++ [packetFrame (encodeMCStatusResponse random.statusJSON)],
                      writes := s.writes + 1 } := by
  simp only [serveStatus, statusQuery, bind_eq_ok, except_bind_eq_ok,
    except_pure_eq_ok, within_eq_ok, readMCPacket_eq_ok, lift_eq_ok,
    writeMCPacket_eq_ok]
  constructor
  · rintro ⟨hs, _, ⟨rest, read, rfl⟩, _, _, ⟨decoded, rfl⟩, req, _, ⟨rest', read', rfl⟩, _, _,
      ⟨decoded', rfl⟩, written, rfl⟩
    exact ⟨rest', ⟨_, read, _, decoded, _, read', _, decoded', rfl⟩, written, rfl⟩
  · rintro ⟨_, ⟨⟨hs, rest⟩, read, _, decoded, ⟨req, _⟩, read', _, decoded', rfl⟩, written, rfl⟩
    exact ⟨hs, _, ⟨rest, read, rfl⟩, (), _, ⟨decoded, rfl⟩, req, _, ⟨_, read', rfl⟩, (), _,
      ⟨decoded', rfl⟩, written, rfl⟩

theorem receivePing_eq_ok {context : String} {timestamp : BitVec 64} :
    receivePing net context s = .ok timestamp s' ↔
      ∃ rest, pingRequest net.ended s.input = .ok (timestamp, rest) ∧
        s' = { s with input := rest } := by
  simp only [receivePing, pingRequest, bind_eq_ok, except_bind_eq_ok,
    except_pure_eq_ok, within_eq_ok, readMCPacket_eq_ok, lift_eq_ok]
  constructor
  · rintro ⟨ping, _, ⟨rest, read, rfl⟩, decoded, rfl⟩
    exact ⟨rest, ⟨_, read, _, decoded, rfl⟩, rfl⟩
  · rintro ⟨_, ⟨⟨ping, rest⟩, read, _, decoded, same⟩, rfl⟩
    cases same
    exact ⟨ping, _, ⟨rest, read, rfl⟩, decoded, rfl⟩

theorem receiveLoginStart_eq_ok {handshake start : String} :
    receiveLoginStart net handshake start s = .ok u s' ↔
      ∃ rest, loginStart net.ended s.input = .ok rest ∧ s' = { s with input := rest } := by
  simp only [receiveLoginStart, loginStart, bind_eq_ok, except_bind_eq_ok,
    except_pure_eq_ok, within_eq_ok, readMCPacket_eq_ok, lift_eq_ok,
    pure_eq_ok]
  constructor
  · rintro ⟨hs, _, ⟨rest, read, rfl⟩, _, _, ⟨decoded, rfl⟩, login, _, ⟨rest', read', rfl⟩, name, _,
      ⟨decoded', rfl⟩, _, rfl⟩
    exact ⟨rest', ⟨_, read, _, decoded, _, read', _, decoded', rfl⟩, rfl⟩
  · rintro ⟨_, ⟨⟨hs, rest⟩, read, _, decoded, ⟨login, _⟩, read', name, decoded', rfl⟩, rfl⟩
    exact ⟨hs, _, ⟨rest, read, rfl⟩, (), _, ⟨decoded, rfl⟩, login, _, ⟨_, read', rfl⟩, name, _,
      ⟨decoded', rfl⟩, trivial, rfl⟩

theorem clientPackets_eq_ok {ended : Err} {tail : Bytes} {timestamp : BitVec 64} :
    clientPackets ended input = .ok (timestamp, packet, tail) ↔
      ∃ first, statusQuery ended input = .ok first ∧
      ∃ second, pingRequest ended first = .ok (timestamp, second) ∧
      ∃ third, loginStart ended second = .ok third ∧
        splitPacket ended third = .ok (packet, tail) := by
  simp only [clientPackets, except_bind_eq_ok, except_pure_eq_ok]
  constructor
  · rintro ⟨first, status, ⟨_, second⟩, ping, third, login, ⟨_, _⟩, follow, same⟩
    cases same
    exact ⟨first, status, second, ping, third, login, follow⟩
  · rintro ⟨first, status, second, ping, third, login, follow⟩
    exact ⟨first, status, _, ping, third, login, _, follow, rfl⟩

/-! ## Runs that return -/

private theorem forall_lt_two {p : Nat → Prop} : (∀ n < 2, p n) ↔ p 0 ∧ p 1 := by
  simp only [Nat.forall_lt_succ_right, Nat.not_lt_zero, false_imp_iff, implies_true, true_and]

private theorem forall_lt_three {p : Nat → Prop} : (∀ n < 3, p n) ↔ p 0 ∧ p 1 ∧ p 2 := by
  rw [Nat.forall_lt_succ_right, forall_lt_two, and_assoc]

/-- The connection at the moment the server judges the follow-up packet. -/
def judged (random : Randomness) (timestamp : BitVec 64) (request tail : Bytes)
    (deadlines : Nat) : Stream where
  input := tail
  sent := [packetFrame (encodeMCStatusResponse random.statusJSON),
    packetFrame (encodeMCPong timestamp), packetFrame request]
  writes := 3
  deadlines := deadlines

/-- **Deep mode.** A run returns when the client's opening is well formed, the network takes three
packets and two deadlines, and the verdict returns. -/
theorem performMCCamouflageServerDeep_eq_ok {toNAT : Bool} {final : Stream} :
    performMCCamouflageServerDeep lib net random cfg (Stream.start input) = .ok toNAT final ↔
      (∀ call < 3, net.writes call = none) ∧ (∀ call < 2, net.deadlines call = none) ∧
      ∃ timestamp packet tail challenge packetID rest,
        clientPackets net.ended input = .ok (timestamp, packet, tail) ∧
        random.challenge = .ok challenge ∧ mcPacketHead packet = .ok (packetID, rest) ∧
        judgeDeep lib net cfg challenge packetID rest
          (judged random timestamp (encodeMCLoginPluginRequest cfg.pluginChannel challenge) tail 2) =
            .ok toNAT final := by
  simp only [performMCCamouflageServerDeep, bind_eq_ok, within_eq_ok, setDeadline_eq_ok,
    serveStatus_eq_ok, receivePing_eq_ok, receiveLoginStart_eq_ok, writeMCPacket_eq_ok,
    readMCPacket_eq_ok, lift_eq_ok, clientPackets_eq_ok, forall_lt_three, forall_lt_two]
  constructor
  · rintro ⟨_, _, ⟨deadline, rfl⟩, _, _, ⟨first, status, answered, rfl⟩, timestamp, _,
      ⟨second, ping, rfl⟩, _, _, ⟨ponged, rfl⟩, _, _, ⟨third, login, rfl⟩, challenge, _,
      ⟨drawn, rfl⟩, _, _, ⟨asked, rfl⟩, _, _, ⟨deadline', rfl⟩, packet, _, ⟨tail, follow, rfl⟩,
      ⟨packetID, rest⟩, _, ⟨head, rfl⟩, verdict⟩
    exact ⟨⟨answered, ponged, asked⟩, ⟨deadline, deadline'⟩, timestamp, packet, tail, challenge,
      packetID, rest, ⟨first, status, second, ping, third, login, follow⟩, drawn, head, verdict⟩
  · rintro ⟨⟨answered, ponged, asked⟩, ⟨deadline, deadline'⟩, timestamp, packet, tail, challenge,
      packetID, rest, ⟨first, status, second, ping, third, login, follow⟩, drawn, head, verdict⟩
    exact ⟨(), _, ⟨deadline, rfl⟩, (), _, ⟨first, status, answered, rfl⟩, timestamp, _,
      ⟨second, ping, rfl⟩, (), _, ⟨ponged, rfl⟩, (), _, ⟨third, login, rfl⟩, challenge, _,
      ⟨drawn, rfl⟩, (), _, ⟨asked, rfl⟩, (), _, ⟨deadline', rfl⟩, packet, _, ⟨tail, follow, rfl⟩,
      (packetID, rest), _, ⟨head, rfl⟩, verdict⟩

/-- What secure mode prepares before it sends its encryption request: the hello, the
ephemeral key and the request. -/
def encryptionOffer (lib : Primitives) (random : Randomness) (psk : Bytes) :
    Except Err (Bytes × Bytes × Bytes) := do
  let (hello, priv) ← secureServerHello lib random.ephemeralKey random.blobFiller psk
  let verify ← random.verifyToken
  let req ← encodeMCEncryptionRequest lib hello verify
  return (hello, priv, req)

/-- **Secure mode.** A run returns when the client's opening is well formed, the network takes
three packets and the deadline, and the verdict returns. -/
theorem performMCCamouflageServerSecure_eq_ok {result : Option NetConn × Bool} {final : Stream} :
    performMCCamouflageServerSecure lib net random cfg (Stream.start input) = .ok result final ↔
      (∀ call < 3, net.writes call = none) ∧ net.deadlines 0 = none ∧
      ∃ timestamp packet tail hello priv req,
        clientPackets net.ended input = .ok (timestamp, packet, tail) ∧
        encryptionOffer lib random (securePSK lib cfg.pluginSecret) = .ok (hello, priv, req) ∧
        judgeSecure lib net cfg (securePSK lib cfg.pluginSecret) hello priv packet
          (judged random timestamp req tail 1) = .ok result final := by
  simp only [performMCCamouflageServerSecure, mcStatusPingServer, encryptionOffer,
    bind_eq_ok, except_bind_eq_ok, except_pure_eq_ok, within_eq_ok,
    setDeadline_eq_ok, serveStatus_eq_ok, receivePing_eq_ok, receiveLoginStart_eq_ok,
    writeMCPacket_eq_ok, readMCPacket_eq_ok, lift_eq_ok, clientPackets_eq_ok, forall_lt_three]
  constructor
  · rintro ⟨_, _, ⟨deadline, rfl⟩, _, _, ⟨_, _, ⟨first, status, answered, rfl⟩, timestamp, _,
      ⟨second, ping, rfl⟩, ponged, rfl⟩, _, _, ⟨third, login, rfl⟩, ⟨hello, priv⟩, _,
      ⟨greeted, rfl⟩, verify, _, ⟨drawn, rfl⟩, req, _, ⟨encoded, rfl⟩, _, _, ⟨asked, rfl⟩, packet, _,
      ⟨tail, follow, rfl⟩, verdict⟩
    exact ⟨⟨answered, ponged, asked⟩, deadline, timestamp, packet, tail, hello, priv, req,
      ⟨first, status, second, ping, third, login, follow⟩,
      ⟨_, greeted, verify, drawn, req, encoded, rfl⟩, verdict⟩
  · rintro ⟨⟨answered, ponged, asked⟩, deadline, timestamp, packet, tail, _, _, _,
      ⟨first, status, second, ping, third, login, follow⟩,
      ⟨⟨hello, priv⟩, greeted, verify, drawn, req, encoded, same⟩, verdict⟩
    cases same
    exact ⟨(), _, ⟨deadline, rfl⟩, (), _, ⟨(), _, ⟨first, status, answered, rfl⟩, timestamp, _,
      ⟨second, ping, rfl⟩, ponged, rfl⟩, (), _, ⟨third, login, rfl⟩, _, _, ⟨greeted, rfl⟩, verify,
      _, ⟨drawn, rfl⟩, _, _, ⟨encoded, rfl⟩, (), _, ⟨asked, rfl⟩, packet, _,
      ⟨tail, follow, rfl⟩, verdict⟩

/-! ## The verdict -/

theorem writeAll_sent {data : Bytes} (written : writeAll net data s = .ok u s') :
    ∃ added, s'.sent = s.sent ++ added := by
  rw [writeAll] at written
  split at written
  · cases written
    exact ⟨[], (List.append_nil _).symm⟩
  · split at written
    · cases written
      exact ⟨[data], rfl⟩
    · cases written

theorem writeMCPacketTo_sent {conn conn' : NetConn} {payload : Bytes}
    (written : writeMCPacketTo lib net conn payload s = .ok conn' s') :
    ∃ added, s'.sent = s.sent ++ added := by
  cases conn with
  | raw =>
    simp only [writeMCPacketTo, writeMCPacket, bind_eq_ok, pure_eq_ok] at written
    obtain ⟨_, _, taken, _, rfl⟩ := written
    exact writeAll_sent taken
  | secure rd wr rdOff wrOff =>
    simp only [writeMCPacketTo, bind_eq_ok, pure_eq_ok] at written
    obtain ⟨_, _, taken, _, rfl⟩ := written
    exact writeAll_sent taken

/-- Whether a follow-up packet proves the secret in deep mode: a plugin response whose data answers
the challenge. -/
def provesSecret (lib : Primitives) (cfg : McDeepConfig) (challenge packet : Bytes) : Bool :=
  match mcPacketHead packet with
  | .error _ => false
  | .ok (packetID, rest) => packetID = mcIDLoginPluginResponse &&
      match decodeMCLoginPluginResponseBody rest with
      | .error _ => false
      | .ok (_, data) => (verifyPluginResponse lib cfg.pluginSecret challenge data).1

/-- Whether deep mode answers a follow-up with a disconnect: it is no plugin response, or one on
the right channel that does not answer the challenge. -/
def refusedDeep (lib : Primitives) (cfg : McDeepConfig) (challenge packet : Bytes) : Bool :=
  match mcPacketHead packet with
  | .error _ => false
  | .ok (packetID, rest) => packetID ≠ mcIDLoginPluginResponse ||
      match decodeMCLoginPluginResponseBody rest with
      | .error _ => false
      | .ok (channel, data) => channel = cfg.pluginChannel &&
          !(verifyPluginResponse lib cfg.pluginSecret challenge data).1

theorem not_provesSecret_of_refusedDeep (refused : refusedDeep lib cfg challenge packet = true) :
    provesSecret lib cfg challenge packet = false := by
  rw [refusedDeep] at refused
  rw [provesSecret]
  cases head : mcPacketHead packet with
  | error e => rfl
  | ok parts =>
    obtain ⟨packetID, rest⟩ := parts
    simp only [head] at refused ⊢
    by_cases response : packetID = mcIDLoginPluginResponse
    · cases decoded : decodeMCLoginPluginResponseBody rest with
      | error e => simp
      | ok body =>
        simp only [response, decoded, ne_eq, not_true_eq_false, decide_false, Bool.false_or,
          Bool.and_eq_true, Bool.not_eq_eq_eq_not, Bool.not_true] at refused
        simp [refused.2]
    · simp [response]

/-- A refused follow-up ends the run normally once the disconnect is written. -/
theorem judgeDeep_of_refusedDeep
    {rest : Bytes} {packetID : Nat} (head : mcPacketHead packet = .ok (packetID, rest))
    (refused : refusedDeep lib cfg challenge packet = true) (written : net.writes s.writes = none) :
    ∃ s', judgeDeep lib net cfg challenge packetID rest s = .ok false s' := by
  have disconnected : ∃ s', sendMCDisconnect lib net cfg.rejectMessage s = .ok () s' :=
    ⟨_, writeMCPacket_eq_ok.mpr ⟨written, rfl⟩⟩
  obtain ⟨s', disconnected⟩ := disconnected
  refine ⟨s', ?_⟩
  simp only [refusedDeep, head] at refused
  by_cases response : packetID = mcIDLoginPluginResponse
  · cases decoded : decodeMCLoginPluginResponseBody rest with
    | error e => simp only [response, decoded, ne_eq, not_true_eq_false, decide_false,
        Bool.or_self, Bool.false_eq_true] at refused
    | ok body =>
      obtain ⟨channel, data⟩ := body
      simp only [response, decoded, ne_eq, not_true_eq_false, decide_false, Bool.false_or,
        Bool.and_eq_true, decide_eq_true_eq, Bool.not_eq_eq_eq_not, Bool.not_true] at refused
      obtain ⟨rfl, failed⟩ := refused
      simp only [judgeDeep, if_pos response, bind_eq_ok, within_eq_ok,
        lift_eq_ok, validatePluginChannel_eq_ok]
      refine ⟨_, s, ⟨decoded, rfl⟩, (), s, ⟨rfl, rfl⟩, ?_⟩
      simp only [failed, ↓reduceIte, bind_eq_ok, pure_eq_ok]
      exact ⟨(), s', disconnected, trivial, rfl⟩
  · simp only [judgeDeep, if_neg response, bind_eq_ok, pure_eq_ok]
    exact ⟨(), s', disconnected, trivial, rfl⟩

/-- The verdict of deep mode returns after one more packet: a disconnect, if the follow-up is
refused, or a login success, if it proves the secret. -/
theorem judgeDeep_cases {rest : Bytes} {packetID : Nat} {toNAT : Bool}
    (head : mcPacketHead packet = .ok (packetID, rest))
    (returned : judgeDeep lib net cfg challenge packetID rest s = .ok toNAT s') :
    net.writes s.writes = none ∧ (∃ payload, s'.sent = s.sent ++ [packetFrame payload]) ∧
      (refusedDeep lib cfg challenge packet = true ∨
        provesSecret lib cfg challenge packet = true) := by
  by_cases response : packetID = mcIDLoginPluginResponse
  · rw [judgeDeep, if_pos response] at returned
    simp only [bind_eq_ok, within_eq_ok, lift_eq_ok,
      validatePluginChannel_eq_ok] at returned
    obtain ⟨⟨channel, data⟩, _, ⟨decoded, rfl⟩, _, _, ⟨same, rfl⟩, verdict⟩ := returned
    change channel = cfg.pluginChannel at same
    by_cases failed : (verifyPluginResponse lib cfg.pluginSecret challenge data).1 = false
    · rw [if_pos failed] at verdict
      simp only [sendMCDisconnect, bind_eq_ok, writeMCPacket_eq_ok,
        pure_eq_ok] at verdict
      obtain ⟨_, _, ⟨written, rfl⟩, _, rfl⟩ := verdict
      refine ⟨written, ⟨_, rfl⟩, .inl ?_⟩
      simp [refusedDeep, head, decoded, same, failed]
    · rw [if_neg failed] at verdict
      simp only [within_eq_ok, bind_eq_ok, writeMCPacket_eq_ok,
        pure_eq_ok] at verdict
      obtain ⟨_, _, ⟨written, rfl⟩, _, rfl⟩ := verdict
      refine ⟨written, ⟨_, rfl⟩, .inr ?_⟩
      simp only [provesSecret, head, response, decoded, decide_true, Bool.true_and]
      exact Bool.of_not_eq_false failed
  · simp only [judgeDeep, if_neg response, sendMCDisconnect, bind_eq_ok,
      writeMCPacket_eq_ok, pure_eq_ok] at returned
    obtain ⟨_, _, ⟨written, rfl⟩, _, rfl⟩ := returned
    refine ⟨written, ⟨_, rfl⟩, .inl ?_⟩
    simp [refusedDeep, head, response]

/-- The verdict of secure mode returns a nil connection, if the follow-up is no encryption
response and the disconnect is written, or a connection, if the reply is authentic. -/
theorem judgeSecure_cases {psk hello priv : Bytes} {result : Option NetConn × Bool}
    (returned : judgeSecure lib net cfg psk hello priv packet s = .ok result s') :
    (∃ added, s'.sent = s.sent ++ added) ∧
      ((encryptionReply packet = none ∧ net.writes s.writes = none) ∨
        (result.1.isSome = true ∧ ∃ reply, encryptionReply packet = some reply ∧
          ∃ outcome, secureServerFinish lib psk hello priv reply = .ok outcome)) := by
  cases reply : encryptionReply packet with
  | none =>
    simp only [judgeSecure, reply, sendMCDisconnect, bind_eq_ok, writeMCPacket_eq_ok,
      pure_eq_ok] at returned
    obtain ⟨_, _, ⟨written, rfl⟩, _, rfl⟩ := returned
    exact ⟨⟨_, rfl⟩, .inl ⟨rfl, written⟩⟩
  | some blob =>
    simp only [judgeSecure, reply, bind_eq_ok, within_eq_ok, lift_eq_ok,
      pure_eq_ok] at returned
    obtain ⟨outcome, _, ⟨finished, rfl⟩, sc, _, ⟨_, rfl⟩, _, _, written, rfl, rfl⟩ := returned
    refine ⟨writeMCPacketTo_sent written, .inr ⟨rfl, blob, rfl, outcome, finished⟩⟩

theorem judgeSecure_of_refused {psk hello priv : Bytes} (refused : encryptionReply packet = none)
    (written : net.writes s.writes = none) :
    ∃ s', judgeSecure lib net cfg psk hello priv packet s = .ok (none, false) s' := by
  simp only [judgeSecure, refused, sendMCDisconnect, bind_eq_ok, writeMCPacket_eq_ok,
    pure_eq_ok]
  exact ⟨_, (), _, ⟨written, rfl⟩, trivial, rfl⟩

/-! ## Soundness -/

/-- The client proved the secret in this run: it answered the challenge, or the hello, that this
run sent, and the check of the answer succeeded. -/
def SecretProved (lib : Primitives) (net : Network) (random : Randomness) (cfg : McDeepConfig)
    (secure : Bool) (input : Bytes) (final : Stream) : Prop :=
  ∃ timestamp packet tail, clientPackets net.ended input = .ok (timestamp, packet, tail) ∧
    if secure = true then
      ∃ hello priv req reply outcome,
        encryptionOffer lib random (securePSK lib cfg.pluginSecret) = .ok (hello, priv, req) ∧
        packetFrame req ∈ final.sent ∧ encryptionReply packet = some reply ∧
        secureServerFinish lib (securePSK lib cfg.pluginSecret) hello priv reply = .ok outcome
    else
      ∃ challenge, random.challenge = .ok challenge ∧
        packetFrame (encodeMCLoginPluginRequest cfg.pluginChannel challenge) ∈ final.sent ∧
        provesSecret lib cfg challenge packet = true

/-- A handshake is sound on a client's bytes: whenever it returns a nil error, the connection is
non-nil and the client proved the secret. -/
def HandshakeSound (lib : Primitives) (net : Network) (random : Randomness) (cfg : McDeepConfig)
    (secure : Bool) (input : Bytes) : Prop :=
  ∀ conn toNAT final,
    performMCCamouflageServer lib net random cfg secure (Stream.start input) =
      .ok (conn, toNAT) final →
    conn.isSome = true ∧ SecretProved lib net random cfg secure input final

/-- The client opens well, the network takes every packet, and the server answers the follow-up
with a disconnect. -/
def RefusalDelivered (lib : Primitives) (net : Network) (random : Randomness)
    (cfg : McDeepConfig) (secure : Bool) (input : Bytes) : Prop :=
  (∀ call < 4, net.writes call = none) ∧ net.deadlines 0 = none ∧
  ∃ timestamp packet tail, clientPackets net.ended input = .ok (timestamp, packet, tail) ∧
    if secure = true then
      (∃ offer, encryptionOffer lib random (securePSK lib cfg.pluginSecret) = .ok offer) ∧
        encryptionReply packet = none
    else
      net.deadlines 1 = none ∧
        ∃ challenge, random.challenge = .ok challenge ∧
          refusedDeep lib cfg challenge packet = true

theorem deep_sound_iff (enabled : cfg.enabled = true) (deep : cfg.deep = true) :
    HandshakeSound lib net random cfg false input ↔
      ¬ RefusalDelivered lib net random cfg false input := by
  have run : performMCCamouflageServer lib net random cfg false = (do
      let toNAT ← performMCCamouflageServerDeep lib net random cfg
      return (some .raw, toNAT)) := by
    simp [performMCCamouflageServer, enabled, deep]
  constructor
  · rintro sound ⟨writes, first, timestamp, packet, tail, packets, second, challenge, drawn, refused⟩
    have headed : ∃ packetID rest, mcPacketHead packet = .ok (packetID, rest) := by
      cases head : mcPacketHead packet with
      | ok parts => exact ⟨parts.1, parts.2, rfl⟩
      | error e => simp only [refusedDeep, head, Bool.false_eq_true] at refused
    obtain ⟨packetID, rest, head⟩ := headed
    have ended : ∃ final, judgeDeep lib net cfg challenge packetID rest
        (judged random timestamp (encodeMCLoginPluginRequest cfg.pluginChannel challenge) tail 2) =
          .ok false final :=
      judgeDeep_of_refusedDeep head refused (writes 3 (by decide))
    obtain ⟨final, verdict⟩ := ended
    have returned : performMCCamouflageServerDeep lib net random cfg (Stream.start input) =
        .ok false final := by
      exact performMCCamouflageServerDeep_eq_ok.mpr ⟨fun call small => writes call (by omega),
        forall_lt_two.mpr ⟨first, second⟩, timestamp, packet, tail, challenge, packetID, rest,
        packets, drawn, head, verdict⟩
    obtain ⟨_, timestamp', packet', tail', packets', proof⟩ := sound (some .raw) false final (by
      rw [run, bind_eq_ok]
      exact ⟨false, final, returned, rfl⟩)
    obtain ⟨challenge', drawn', _, proves⟩ := proof
    cases packets.symm.trans packets'
    cases drawn.symm.trans drawn'
    rw [not_provesSecret_of_refusedDeep refused] at proves
    exact Bool.false_ne_true proves
  · intro undelivered conn toNAT final returned
    simp only [run, bind_eq_ok, pure_eq_ok, Prod.mk.injEq] at returned
    obtain ⟨_, _, returned, ⟨rfl, rfl⟩, rfl⟩ := returned
    obtain ⟨writes, deadlines, timestamp, packet, tail, challenge, packetID, rest, packets, drawn,
      head, verdict⟩ := performMCCamouflageServerDeep_eq_ok.mp returned
    obtain ⟨written, ⟨payload, sent⟩, outcome⟩ := judgeDeep_cases head verdict
    refine ⟨rfl, timestamp, packet, tail, packets, challenge, drawn, ?_, ?_⟩
    · rw [sent]
      simp [judged]
    · rcases outcome with refused | proves
      · exact (undelivered ⟨Nat.forall_lt_succ_right.mpr ⟨writes, written⟩, deadlines 0 (by decide), timestamp,
          packet, tail, packets, deadlines 1 (by decide), challenge, drawn, refused⟩).elim
      · exact proves

theorem secure_sound_iff (enabled : cfg.enabled = true) :
    HandshakeSound lib net random cfg true input ↔
      ¬ RefusalDelivered lib net random cfg true input := by
  have run : performMCCamouflageServer lib net random cfg true =
      performMCCamouflageServerSecure lib net random cfg := by
    simp [performMCCamouflageServer, enabled]
  constructor
  · rintro sound ⟨writes, deadline, timestamp, packet, tail, packets, ⟨⟨hello, priv, req⟩, offered⟩,
      refused⟩
    have ended : ∃ final, judgeSecure lib net cfg (securePSK lib cfg.pluginSecret) hello priv packet
        (judged random timestamp req tail 1) = .ok (none, false) final :=
      judgeSecure_of_refused refused (writes 3 (by decide))
    obtain ⟨final, verdict⟩ := ended
    have returned : performMCCamouflageServerSecure lib net random cfg (Stream.start input) =
        .ok (none, false) final :=
      performMCCamouflageServerSecure_eq_ok.mpr ⟨fun call small => writes call (by omega), deadline,
        timestamp, packet, tail, hello, priv, req, packets, offered, verdict⟩
    have connected := (sound none false final (by rw [run]; exact returned)).1
    exact Bool.false_ne_true connected
  · intro undelivered conn toNAT final returned
    rw [run] at returned
    obtain ⟨writes, deadline, timestamp, packet, tail, hello, priv, req, packets, offered, verdict⟩ :=
      performMCCamouflageServerSecure_eq_ok.mp returned
    obtain ⟨⟨added, sent⟩, outcome⟩ := judgeSecure_cases verdict
    rcases outcome with ⟨refused, written⟩ | ⟨connected, reply, replied, finish, finished⟩
    · exact (undelivered ⟨Nat.forall_lt_succ_right.mpr ⟨writes, written⟩, deadline, timestamp, packet, tail,
        packets, ⟨_, offered⟩, refused⟩).elim
    · refine ⟨connected, timestamp, packet, tail, packets, hello, priv, req, reply, finish, offered,
        ?_, replied, finished⟩
      rw [sent]
      simp [judged]

/-- **When the handshake is sound.** In deep and in secure mode, whatever the client sends and the
network does: a nil error implies a connection and a proof of the secret, unless the server
delivers a disconnect to a client that opened well. -/
theorem performMCCamouflageServer_sound_iff (lib : Primitives) (net : Network)
    (random : Randomness) (cfg : McDeepConfig) (secure : Bool) (input : Bytes)
    (enabled : cfg.enabled = true) (mode : secure = true ∨ cfg.deep = true) :
    HandshakeSound lib net random cfg secure input ↔
      ¬ RefusalDelivered lib net random cfg secure input := by
  cases secure with
  | true => exact secure_sound_iff enabled
  | false => exact deep_sound_iff enabled (mode.resolve_left Bool.false_ne_true)

/-- Library functions with constant values. -/
def constantPrimitives : Primitives where
  hmac := fun _ _ => []
  sha256 := fun _ => []
  md5 := fun _ => []
  hkdf := fun _ _ _ _ => .ok []
  marshalPublicKey := fun _ => .ok []
  marshalChat := fun _ => []
  newPublicKey := fun _ => .ok []
  publicKey := fun _ => []
  ecdh := fun _ _ => .ok []
  newCipher := fun _ => .ok ()
  keyStream := fun _ _ => 0

/-- A network on which every call succeeds, until the peer hangs up. -/
def reliableNetwork : Network where
  ended := .eof
  writes := fun _ => none
  deadlines := fun _ => none

def constantRandomness : Randomness where
  statusJSON := []
  challenge := .ok []
  ephemeralKey := .ok []
  blobFiller := .ok []
  verifyToken := .ok []

def deepConfig : McDeepConfig where
  enabled := true
  deep := true
  loginUsername := []
  pluginChannel := []
  pluginSecret := []
  rejectMessage := []

/-- A probe and a login, then a packet with id 3, which no server mode expects. -/
def strangerBytes : Bytes :=
  [6, 0, 0, 0, 0, 0, 1] ++ [1, 0] ++ [9, 1, 0, 0, 0, 0, 0, 0, 0, 0] ++
    [6, 0, 0, 0, 0, 0, 2] ++ [2, 0, 0] ++ [1, 3]

/-- A stranger who knows nothing of the secret is installed in deep mode, and gives a nil
connection with a nil error in secure mode. -/
theorem stranger_refusal_unsound :
    ¬ HandshakeSound constantPrimitives reliableNetwork constantRandomness deepConfig false
        strangerBytes ∧
      ¬ HandshakeSound constantPrimitives reliableNetwork constantRandomness deepConfig true
        strangerBytes := by
  constructor
  · intro sound
    obtain ⟨_, _, packet, _, packets, challenge, drawn, _, proves⟩ := sound (some .raw) false _ rfl
    cases (show clientPackets .eof strangerBytes = .ok (0, [3], []) from rfl).symm.trans packets
    cases drawn
    exact Bool.false_ne_true proves
  · intro sound
    exact Bool.false_ne_true (sound none false _ rfl).1

theorem stranger_sound_iff : deepConfig.enabled = true ∧
      (HandshakeSound constantPrimitives reliableNetwork constantRandomness deepConfig false
          strangerBytes ↔
        ¬ RefusalDelivered constantPrimitives reliableNetwork constantRandomness deepConfig false
          strangerBytes) :=
  ⟨rfl, performMCCamouflageServer_sound_iff _ _ _ _ _ _ rfl (.inr rfl)⟩

end Conn
