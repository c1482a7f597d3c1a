import WireguardMesh.Conn.Handshake
import WireguardMesh.Conn.PacketTrip

/-! # Replays of a deep handshake

In deep mode the client proves the secret by a MAC over a challenge. The Minecraft server draws
eight random bytes for each run. The servers of `source`, `steam` and `bedrock` take the challenge
from their own reply, which is the same in every run, so what a client has sent to one run is
accepted by every other.

A `World` is any number of server runs, each of which hears bytes of an attacker's choice, and of
honest clients, each of which hears what one of these runs has written. With an ideal MAC a run
only accepts a message that some honest client has computed the MAC of (`World.Ideal`). A config
resists replays when that client took part in this very run (`ReplaySafe`), and `replaySafe_iff`
says for which profiles that is so. The servers of `terraria` and `fivem` ask for the MAC of a
message that no honest client computes.
-/

namespace Conn

open Effect

variable {request response challenge message heard : Bytes} {net : Network} {s : Stream}

/-! ## What the two ends compute -/

/-- The run takes a challenge from the exchange so far, and the bytes that follow prove it. -/
def ProvenAfter (lib : Primitives) (net : Network) (cfg : CamoConfig) (reply : Session Bytes)
    (heard message : Bytes) : Prop :=
  ∃ s s', reply (Stream.start heard) = .ok message s ∧
    camoAuthServer lib net cfg.pluginSecret message s = .ok () s'

def pluginResponseData (packet : Bytes) : Option Bytes :=
  match mcPacketHead packet with
  | .error _ => none
  | .ok (packetID, rest) =>
    if packetID ≠ mcIDLoginPluginResponse then none
    else (decodeMCLoginPluginResponseBody rest).toOption.map Prod.snd

/-- The Minecraft server returns, and the follow-up packet proves the challenge and a flag. -/
def DeepProven (lib : Primitives) (run : ServerRun) (cfg : CamoConfig) (heard message : Bytes) :
    Prop :=
  ∃ result final timestamp packet tail challenge data,
    performMCCamouflageServerDeep lib run.net run.random cfg.mcDeepConfig (Stream.start heard) =
      .ok result final ∧
    clientPackets run.net.ended heard = .ok (timestamp, packet, tail) ∧
    run.random.challenge = .ok challenge ∧ pluginResponseData packet = some data ∧
    (verifyPluginResponse lib cfg.pluginSecret challenge data).1 = true ∧
    message = challenge ++ [data.getD 32 0]

/-- The run of the server accepts a proof of this message. -/
def ServerRun.Accepts (lib : Primitives) (cfg : CamoConfig) (run : ServerRun)
    (heard message : Bytes) : Prop :=
  match cfg.profile with
  | .minecraft => DeepProven lib run cfg heard message
  | .source => ProvenAfter lib run.net cfg (sourceServerReply run.net cfg) heard message
  | .terraria => ProvenAfter lib run.net cfg (terrariaServerReply run.net cfg) heard message
  | .steam => ProvenAfter lib run.net cfg (steamServerReply run.net) heard message
  | .bedrock => ProvenAfter lib run.net cfg (bedrockServerReply run.net cfg) heard message
  | .fiveM => ProvenAfter lib run.net cfg (fiveMServerReply run.net run.taken cfg) heard message
  | .none | .unknown _ => False

/-- What a run of the server that returned has written. -/
def ServerRun.Wrote (lib : Primitives) (cfg : CamoConfig) (run : ServerRun)
    (heard written : Bytes) : Prop :=
  ∃ result final, performCamouflageServer lib run cfg (Stream.start heard) = .ok result final ∧
    written = final.sent.flatten

/-- The run of the client computes the MAC of this message. -/
def ClientRun.Proves (clientLib : ClientPrimitives) (cfg : CamoConfig) (run : ClientRun)
    (heard message : Bytes) : Prop :=
  match cfg.profile with
  | .minecraft => ∃ challenge s,
      mcDeepClientChallenge clientLib run.net run.dst run.random cfg.mcDeepConfig
        (Stream.start heard) = .ok challenge s ∧
      message = challenge ++ [if run.toNAT then 1 else 0]
  | .source => ∃ s, sourceClientQuery run.net run.taken (Stream.start heard) = .ok message s
  | .terraria => ∃ s, terrariaClientQuery run.net (Stream.start heard) = .ok message s
  | .steam => ∃ s, steamClientQuery run.net run.taken (Stream.start heard) = .ok message s
  | .bedrock => ∃ s, bedrockClientQuery run.net run.taken (Stream.start heard) = .ok message s
  | .fiveM => ∃ s, fiveMClientQuery run.net run.taken (Stream.start heard) = .ok message s
  | .none | .unknown _ => False

/-! ## The world -/

/-- Runs of servers with what the attacker lets them hear, and honest clients, each in a handshake
with one of these runs. -/
structure World (ι κ : Type) where
  servers : κ → ServerRun
  heard : κ → Bytes
  clients : ι → ClientRun
  partner : ι → κ

section

variable {ι κ : Type} (lib : Primitives) (clientLib : ClientPrimitives) (cfg : CamoConfig)

/-- The run accepts a proof of the message. -/
def World.Accepts (w : World ι κ) (run : κ) (message : Bytes) : Prop :=
  (w.servers run).Accepts lib cfg (w.heard run) message

/-- The client computed the MAC of the message, from what its partner has written. -/
def World.Computed (w : World ι κ) (client : ι) (message : Bytes) : Prop :=
  ∃ written,
    (w.servers (w.partner client)).Wrote lib cfg (w.heard (w.partner client)) written ∧
    (w.clients client).Proves clientLib cfg written message

/-- Nobody forges a MAC, and the challenges that are drawn differ from run to run. -/
structure World.Ideal (w : World ι κ) : Prop where
  unforgeable : ∀ run message, w.Accepts lib cfg run message →
    ∃ client, w.Computed lib clientLib cfg client message
  fresh : ∀ run run' challenge, (w.servers run).random.challenge = .ok challenge →
    (w.servers run').random.challenge = .ok challenge → run = run'
  challengeSize : ∀ run challenge, (w.servers run).random.challenge = .ok challenge →
    challenge.length = 8
  statusSize : ∀ run, (w.servers run).random.statusJSON.length < 2 ^ 20

end

/-- A proof is only accepted by the run that its client took part in. -/
def ReplaySafe (lib : Primitives) (clientLib : ClientPrimitives) (cfg : CamoConfig) : Prop :=
  ∀ {ι κ : Type} (w : World ι κ), w.Ideal lib clientLib cfg → ∀ run message,
    w.Accepts lib cfg run message →
      ∃ client, w.partner client = run ∧ w.Computed lib clientLib cfg client message

variable {lib : Primitives} {clientLib : ClientPrimitives} {cfg : CamoConfig}

/-! ## Challenges that stay the same -/

/-- In a world of two runs that hear the same, one of which an honest client took part in, both
accept its proof. -/
theorem not_replaySafe (server : Bool → ServerRun) (client : ClientRun) (heard message : Bytes)
    (drawn : ∀ run, (server run).random.challenge = .ok (List.replicate 8 (if run then 1 else 0)))
    (status : ∀ run, (server run).random.statusJSON = [])
    (only : ∀ run other, (server run).Accepts lib cfg heard other → other = message)
    (accepts : (server true).Accepts lib cfg heard message)
    (computed : ∃ written, (server false).Wrote lib cfg heard written ∧
      client.Proves clientLib cfg written message) : ¬ ReplaySafe lib clientLib cfg := by
  intro safe
  let world : World Unit Bool := ⟨server, fun _ => heard, fun _ => client, fun _ => false⟩
  have ideal : world.Ideal lib clientLib cfg := by
    refine ⟨fun run other accepted => ⟨(), ?_⟩, fun run run' challenge first second => ?_,
      fun run challenge drew => ?_, fun run => ?_⟩
    · rw [only run other accepted]
      exact computed
    · have same := (drawn run).symm.trans (first.trans (second.symm.trans (drawn run')))
      cases run <;> cases run' <;> first | rfl | (cases same)
    · cases (drawn run).symm.trans drew
      exact List.length_replicate
    · change (server run).random.statusJSON.length < 2 ^ 20
      rw [status run]
      decide
  obtain ⟨_, took, -⟩ := safe world ideal true message accepts
  cases took

/-- A run of a server on a network without errors, with a challenge of its own. -/
def replayedServer (run : Bool) : ServerRun where
  net := reliableNetwork
  random := { constantRandomness with
    challenge := .ok (List.replicate 8 (if run then 1 else 0)) }
  taken := 0

/-- A client on a network without errors, whose single read returns so many bytes. -/
def recordedClient (taken : Nat) : ClientRun where
  net := reliableNetwork
  dst := ⟨[], 0⟩
  random := ⟨0, ⟨.ok [], .ok []⟩, .ok []⟩
  taken := taken
  toNAT := false

section Constant

variable (macSize : ∀ key message, (lib.hmac key message).length = 32) (deep : cfg.deep = true)
  (plain : cfg.secure = false)

include macSize deep plain in
theorem not_replaySafe_of_constant {reply query : Session Bytes}
    (replies : ∀ rest,
      reply (Stream.start (request ++ rest)) = .ok challenge ⟨rest, [response], 1, 1⟩)
    (queries : ∃ s, query (Stream.start response) = .ok challenge s)
    (profile : ∀ run heard message,
      ((replayedServer run).Accepts lib cfg heard message ↔
        ProvenAfter lib reliableNetwork cfg reply heard message) ∧
      performCamouflageServer lib (replayedServer run) cfg = finishServer lib (replayedServer run)
        cfg (reply >>= verifyIfDeep lib reliableNetwork cfg) ∧
      ((recordedClient response.length).Proves clientLib cfg heard message ↔
        ∃ s, query (Stream.start heard) = .ok message s)) :
    ¬ ReplaySafe lib clientLib cfg := by
  have replied := replies (lib.hmac cfg.pluginSecret challenge)
  have size := macSize cfg.pluginSecret challenge
  have checked : camoAuthServer lib reliableNetwork cfg.pluginSecret challenge
      ⟨lib.hmac cfg.pluginSecret challenge, [response], 1, 1⟩ =
        .ok () ⟨(lib.hmac cfg.pluginSecret challenge).drop 32, [response], 1, 1⟩ :=
    camoAuthServer_eq_ok.mpr ⟨size.ge, List.take_of_length_le size.le, rfl⟩
  refine not_replaySafe replayedServer (recordedClient response.length)
    (request ++ lib.hmac cfg.pluginSecret challenge) challenge (fun _ => rfl) (fun _ => rfl)
    (fun run other accepted => ?_) ?_ ⟨response, ?_, ?_⟩
  · obtain ⟨_, _, answered, -⟩ := (profile run _ other).1.mp accepted
    rw [replied] at answered
    cases answered
    rfl
  · exact (profile true _ _).1.mpr ⟨_, _, replied, checked⟩
  · refine ⟨(some .raw, false), ⟨(lib.hmac cfg.pluginSecret challenge).drop 32, [response], 1, 1⟩,
      ?_, (List.append_nil response).symm⟩
    rw [(profile false [] []).2.1, finishServer]
    simp only [bind_eq_ok, verifyIfDeep, deep, Bool.true_eq_false, ↓reduceIte, plain,
      pure_eq_ok]
    exact ⟨(), _, ⟨challenge, _, replied, checked⟩, trivial, rfl⟩
  · exact (profile true _ _).2.2.mpr queries

theorem reply_of_request
    {context : String} {size : Nat} (check : Bytes → Except Err Unit) (some : response ≠ [])
    (length : request.length = size) (checked : check request = .ok ()) (rest : Bytes) :
    (do
      setDeadline reliableNetwork
      let query ← within context (readFull reliableNetwork size)
      Effect.lift (check query)
      writeAll reliableNetwork response
      return challenge : Session Bytes) (Stream.start (request ++ rest)) =
        .ok challenge ⟨rest, [response], 1, 1⟩ := by
  simp only [bind_eq_ok, setDeadline_eq_ok, within_eq_ok, lift_eq_ok,
    writeAll_eq_ok some, pure_eq_ok]
  exact ⟨(), _, ⟨rfl, rfl⟩, request, _, readFull_append rfl length, (), _, ⟨checked, rfl⟩, (), _,
    ⟨rfl, rfl⟩, trivial, rfl⟩

theorem query_of_response
    {context : String} {size : Nat} {check : Bytes → Except Err Bytes} (some : request ≠ [])
    (length : 1 ≤ response.length) (positive : 1 ≤ size)
    (checked : check (response.take size) = .ok challenge) :
    ∃ s, (do
      setDeadline reliableNetwork
      writeAll reliableNetwork request
      let resp ← within context (readOnce reliableNetwork size response.length)
      Effect.lift (check resp) : Session Bytes) (Stream.start response) = .ok challenge s := by
  simp only [bind_eq_ok, setDeadline_eq_ok, within_eq_ok, lift_eq_ok,
    writeAll_eq_ok some]
  have front : (response.take size).length = max 1 (min response.length size) := by
    rw [List.length_take]
    omega
  exact ⟨_, (), _, ⟨rfl, rfl⟩, (), _, ⟨rfl, rfl⟩, _, _,
    readOnce_append (List.take_append_drop size response).symm front, checked, rfl⟩

include macSize deep plain

theorem not_replaySafe_source (source : cfg.profile = .source) : ¬ ReplaySafe lib clientLib cfg := by
  have length := length_sourceInfo cfg.serverName
  have replies : ∀ rest, sourceServerReply reliableNetwork cfg
      (Stream.start (sourceEngineQuery ++ rest)) = .ok _ ⟨rest, _, 1, 1⟩ :=
    reply_of_request checkSourceQuery (List.ne_nil_of_length_pos (by omega)) rfl rfl
  have queries : ∃ s, sourceClientQuery reliableNetwork _ (Stream.start _) = .ok _ s :=
    query_of_response (by decide) (by omega) (by decide) (sourceChallenge_response cfg.serverName)
  refine not_replaySafe_of_constant macSize deep plain replies queries fun run heard message => ?_
  rw [ServerRun.Accepts, performCamouflageServer, ClientRun.Proves, source]
  exact ⟨.rfl, rfl, .rfl⟩

theorem not_replaySafe_steam (steam : cfg.profile = .steam) : ¬ ReplaySafe lib clientLib cfg := by
  have replies : ∀ rest, steamServerReply reliableNetwork (Stream.start (steamRequest ++ rest)) =
      .ok steamResponse ⟨rest, [steamResponse], 1, 1⟩ :=
    reply_of_request checkSteamRequest (by decide) rfl rfl
  have queries : ∃ s, steamClientQuery reliableNetwork _ (Stream.start steamResponse) =
      .ok steamResponse s :=
    query_of_response (by decide) (by decide) (by decide) rfl
  refine not_replaySafe_of_constant macSize deep plain replies queries fun run heard message => ?_
  rw [ServerRun.Accepts, performCamouflageServer, ClientRun.Proves, steam]
  exact ⟨.rfl, rfl, .rfl⟩

theorem not_replaySafe_bedrock (bedrock : cfg.profile = .bedrock) : ¬ ReplaySafe lib clientLib cfg := by
  have length := length_bedrockPong cfg.serverName
  have some : bedrockPong cfg.serverName ≠ [] := List.ne_nil_of_length_pos (by omega)
  have replies (rest : Bytes) : bedrockServerReply reliableNetwork cfg
      (Stream.start (bedrockPing ++ rest)) = .ok ((bedrockPong cfg.serverName).take 32)
        ⟨rest, [bedrockPong cfg.serverName], 1, 1⟩ := by
    simp only [bedrockServerReply, bind_eq_ok, setDeadline_eq_ok, within_eq_ok,
      writeAll_eq_ok some, pure_eq_ok]
    exact ⟨(), _, ⟨rfl, rfl⟩, _, _, readFull_append rfl rfl, (), _, ⟨rfl, rfl⟩, trivial, rfl⟩
  have queries : ∃ s, bedrockClientQuery reliableNetwork _ (Stream.start _) = .ok _ s :=
    query_of_response (by decide) (by omega) (by decide) (bedrockChallenge_pong cfg.serverName)
  refine not_replaySafe_of_constant macSize deep plain replies queries fun run heard message => ?_
  rw [ServerRun.Accepts, performCamouflageServer, ClientRun.Proves, bedrock]
  exact ⟨.rfl, rfl, .rfl⟩

end Constant

/-! ## Challenges that no client answers -/

theorem fiveMChallenge_eq_ok {resp : Bytes} (checked : fiveMChallenge resp = .ok message) :
    message.take 4 = ascii "HTTP" := by
  rw [fiveMChallenge] at checked
  split at checked
  · cases checked
  · next fine =>
    cases checked
    rw [take_take_of_le (by decide)]
    exact Decidable.not_not.mp (not_or.mp fine).2

/-- The body that the server asks for starts with a brace, the response that the client answers
with the name of the protocol. -/
theorem replaySafe_fiveM (fiveM : cfg.profile = .fiveM) : ReplaySafe lib clientLib cfg := by
  intro ι κ w ideal run message accepted
  obtain ⟨client, written, -, proves⟩ := ideal.unforgeable run message accepted
  rw [World.Accepts, ServerRun.Accepts, fiveM] at accepted
  rw [ClientRun.Proves, fiveM] at proves
  obtain ⟨_, _, replied, -⟩ := accepted
  obtain ⟨_, queried⟩ := proves
  simp only [fiveMServerReply, bind_eq_ok, pure_eq_ok] at replied
  obtain ⟨-, -, -, -, -, -, -, -, -, -, -, -, body, -⟩ := replied
  simp only [fiveMClientQuery, bind_eq_ok, lift_eq_ok] at queried
  obtain ⟨-, -, -, -, -, -, resp, -, -, checked, -⟩ := queried
  have http := fiveMChallenge_eq_ok checked
  rw [← body] at http
  cases http

/-- The server takes its challenge from the client's connect, and has then written a packet of
type 2. -/
theorem terrariaServerReply_eq_ok
    (replied : terrariaServerReply net cfg (Stream.start heard) = .ok message s) :
    message.head? = some 82 ∧ ∃ length payload, s.sent = [putUint16LE length ++ [2, 0], payload] := by
  have header (value : Nat) : putUint16LE value ++ putUint16LE 2 ≠ [] := List.cons_ne_nil _ _
  have payload : terrariaReject cfg ++ [0] ≠ [] :=
    List.append_ne_nil_of_right_ne_nil _ (List.cons_ne_nil _ _)
  simp only [terrariaServerReply, writeTerrariaPacket, readTerrariaPacket, bind_eq_ok,
    within_eq_ok, setDeadline_eq_ok, readFull_eq_ok, lift_eq_ok, pure_eq_ok,
    writeAll_eq_ok (header _), writeAll_eq_ok payload] at replied
  obtain ⟨_, _, ⟨-, rfl⟩, packet, _, ⟨hdr, _, ⟨-, rfl, rfl⟩, size, _, ⟨-, rfl⟩, _, _, ⟨-, rfl, rfl⟩,
    rfl, rfl⟩, _, _, ⟨connect, rfl⟩, _, _, ⟨_, _, ⟨-, rfl⟩, -, rfl⟩, rfl, rfl⟩ := replied
  refine ⟨?_, _, _, rfl⟩
  rw [checkTerrariaConnect] at connect
  split at connect
  · cases connect
  · next same =>
    rw [terrariaChallenge, Decidable.not_not.mp same]
    rfl

theorem terrariaClientQuery_eq_ok {length : Nat} {payload : Bytes}
    (queried : terrariaClientQuery net (Stream.start (putUint16LE length ++ [2, 0] ++ payload)) =
      .ok message s) :
    message.head? = some 2 := by
  have header (value : Nat) : putUint16LE value ++ putUint16LE terrariaConnectMsg ≠ [] :=
    List.cons_ne_nil _ _
  have connect : terrariaConnectPayload ≠ [] := List.cons_ne_nil _ _
  simp only [terrariaClientQuery, writeTerrariaPacket, readTerrariaPacket, bind_eq_ok,
    within_eq_ok, setDeadline_eq_ok, readFull_eq_ok, lift_eq_ok, pure_eq_ok,
    writeAll_eq_ok (header _), writeAll_eq_ok connect] at queried
  obtain ⟨_, _, ⟨-, rfl⟩, _, _, ⟨_, _, ⟨-, rfl⟩, -, rfl⟩, packet, _, ⟨hdr, _, ⟨-, rfl, rfl⟩, size, _,
    ⟨-, rfl⟩, _, _, ⟨-, rfl, rfl⟩, rfl, rfl⟩, rfl, rfl⟩ := queried
  rfl

/-- A server of a generic profile has written its reply when it returns. -/
theorem sent_of_finishServer
    {run : ServerRun} {reply : Session Bytes} {result : Option NetConn × Bool} {final : Stream}
    (plain : cfg.secure = false)
    (returned : finishServer lib run cfg (reply >>= verifyIfDeep lib run.net cfg)
      (Stream.start heard) = .ok result final) :
    ∃ message s, reply (Stream.start heard) = .ok message s ∧ final.sent = s.sent := by
  simp only [finishServer, bind_eq_ok, plain, ↓reduceIte, pure_eq_ok] at returned
  obtain ⟨_, _, ⟨message, s, replied, verified⟩, -, rfl⟩ := returned
  refine ⟨message, s, replied, ?_⟩
  rw [verifyIfDeep] at verified
  split at verified
  · cases verified
    rfl
  · obtain ⟨-, -, rfl⟩ := camoAuthServer_eq_ok.mp verified
    rfl

/-- The server asks for the MAC of the client's own connect, the client answers the disconnect. -/
theorem replaySafe_terraria (plain : cfg.secure = false) (terraria : cfg.profile = .terraria) :
    ReplaySafe lib clientLib cfg := by
  intro ι κ w ideal run message accepted
  obtain ⟨client, written, ⟨result, final, returned, rfl⟩, proves⟩ :=
    ideal.unforgeable run message accepted
  rw [World.Accepts, ServerRun.Accepts, terraria] at accepted
  rw [ClientRun.Proves, terraria] at proves
  rw [performCamouflageServer, terraria] at returned
  obtain ⟨_, _, replied, -⟩ := accepted
  obtain ⟨_, queried⟩ := proves
  obtain ⟨_, _, answered, sent⟩ := sent_of_finishServer plain returned
  obtain ⟨_, length, payload, wrote⟩ := terrariaServerReply_eq_ok answered
  have asked := (terrariaServerReply_eq_ok replied).1
  rw [sent, wrote, List.flatten_cons, List.flatten_cons, List.flatten_nil, List.append_nil]
    at queried
  rw [terrariaClientQuery_eq_ok queried] at asked
  cases asked

/-! ## Challenges that are drawn -/

/-- A Minecraft server that returns has written its status, its pong, its request with the drawn
challenge and one more packet. -/
theorem sent_of_deep {run : ServerRun}
    {result : Option NetConn × Bool} {final : Stream} (deep : cfg.deep = true)
    (plain : cfg.secure = false) (minecraft : cfg.profile = .minecraft)
    (returned : performCamouflageServer lib run cfg (Stream.start heard) = .ok result final) :
    ∃ timestamp challenge last, run.random.challenge = .ok challenge ∧
      final.sent = [packetFrame (encodeMCStatusResponse run.random.statusJSON),
        packetFrame (encodeMCPong timestamp),
        packetFrame (encodeMCLoginPluginRequest cfg.pluginChannel challenge),
        packetFrame last] := by
  rw [performCamouflageServer, minecraft] at returned
  have mode : performMCCamouflageServer lib run.net run.random cfg.mcDeepConfig cfg.secure =
      (do
        let toNAT ← performMCCamouflageServerDeep lib run.net run.random cfg.mcDeepConfig
        return (some .raw, toNAT)) := by
    rw [plain, performMCCamouflageServer, CamoConfig.mcDeepConfig, deep]
    rfl
  rw [mode] at returned
  obtain ⟨toNAT, between, run, done⟩ := bind_eq_ok.mp returned
  cases done
  obtain ⟨-, -, timestamp, packet, tail, challenge, packetID, rest, -, drawn, head, judged⟩ :=
    performMCCamouflageServerDeep_eq_ok.mp run
  obtain ⟨-, ⟨last, sent⟩, -⟩ := judgeDeep_cases head judged
  exact ⟨timestamp, challenge, last, drawn, sent⟩

theorem splitPacket_eq_ok {ended : Err} {payload rest packet tail : Bytes}
    (fits : payload.length < 2 ^ 32)
    (read : splitPacket ended (packetFrame payload ++ rest) = .ok (packet, tail)) :
    packet = payload ∧ tail = rest := by
  rw [splitPacket_packetFrame ended fits] at read
  split at read
  · cases read
  · cases read
    exact ⟨rfl, rfl⟩

/-- A request on the right channel carries the challenge that was put into it: if its length does
not fit its frame, the channel is cut off and not the right one. -/
theorem challenge_of_request
    {ended : Err} {channel drawn rest packet tail : Bytes} (size : drawn.length = 8)
    (read : splitPacket ended (packetFrame (encodeMCLoginPluginRequest channel drawn) ++ rest) =
      .ok (packet, tail))
    (decoded : decodeMCLoginPluginRequest packet = .ok (channel, challenge)) :
    challenge = drawn := by
  have short := length_of_splitPacket read
  have shorter := length_of_decodeMCLoginPluginRequest decoded
  have fits := length_encodeMCLoginPluginRequest_le channel drawn
  obtain ⟨rfl, -⟩ := splitPacket_eq_ok (by omega) read
  rw [(decodeMCLoginPluginRequest_encode (by omega) (by omega)).1] at decoded
  cases decoded
  rfl

theorem challenge_of_sent
    {dst : DialTarget} {random : ClientRandom} {status drawn last : Bytes} {timestamp : BitVec 64}
    (statusSize : status.length < 2 ^ 20) (size : drawn.length = 8)
    (queried : mcDeepClientChallenge clientLib net dst random cfg.mcDeepConfig
      (Stream.start [packetFrame (encodeMCStatusResponse status),
        packetFrame (encodeMCPong timestamp),
        packetFrame (encodeMCLoginPluginRequest cfg.pluginChannel drawn),
        packetFrame last].flatten) = .ok challenge s) :
    challenge = drawn := by
  simp only [mcDeepClientChallenge, queryStatus, sendLoginStart, bind_eq_ok, within_eq_ok,
    setDeadline_eq_ok, readMCPacket_eq_ok, lift_eq_ok, pure_eq_ok,
    writeMCPacket_eq_ok, validatePluginChannel_eq_ok] at queried
  obtain ⟨_, _, ⟨-, rfl⟩, _, _, ⟨_, _, ⟨-, rfl⟩, _, _, ⟨-, rfl⟩, _, _, ⟨_, first, rfl⟩, -, rfl⟩,
    _, _, ⟨-, rfl⟩, _, _, ⟨_, second, rfl⟩, _, _, ⟨-, rfl⟩, _, _, ⟨_, _, ⟨-, rfl⟩, -, rfl⟩,
    request, _, ⟨_, third, rfl⟩, ⟨channel, data⟩, _, ⟨decoded, rfl⟩, _, _, ⟨right, rfl⟩, rfl, rfl⟩ :=
    queried
  have statusFits := length_encodeMCStatusResponse_le status
  have pongFits := length_encodeMCPong_le timestamp
  obtain ⟨-, rfl⟩ := splitPacket_eq_ok (by omega) first
  obtain ⟨-, rfl⟩ := splitPacket_eq_ok (by omega) second
  cases right
  exact challenge_of_request size third decoded

/-- **A fresh challenge.** The message that a run accepts holds the challenge that it has drawn,
which only a client in a handshake with this run has heard. -/
theorem replaySafe_minecraft (deep : cfg.deep = true) (plain : cfg.secure = false)
    (minecraft : cfg.profile = .minecraft) : ReplaySafe lib clientLib cfg := by
  intro ι κ w ideal run message accepted
  obtain ⟨client, computed⟩ := ideal.unforgeable run message accepted
  refine ⟨client, ?_, computed⟩
  obtain ⟨written, ⟨result, final, returned, rfl⟩, proves⟩ := computed
  rw [World.Accepts, ServerRun.Accepts, minecraft] at accepted
  rw [ClientRun.Proves, minecraft] at proves
  obtain ⟨_, _, _, _, _, challenge, data, -, -, drawn, -, -, rfl⟩ := accepted
  obtain ⟨answered, s, queried, same⟩ := proves
  obtain ⟨timestamp, drawn', last, asked, sent⟩ := sent_of_deep deep plain minecraft returned
  rw [sent] at queried
  have heard := challenge_of_sent (ideal.statusSize _) (ideal.challengeSize _ _ asked) queried
  obtain ⟨rfl, -⟩ := List.append_inj' same rfl
  subst heard
  exact ideal.fresh _ _ _ asked drawn

/-- **Replays of deep handshakes.** A proof is only accepted by the run that its client took part
in, for every profile but `source`, `steam` and `bedrock`, and for none of these. -/
theorem replaySafe_iff (lib : Primitives) (clientLib : ClientPrimitives) (cfg : CamoConfig)
    (macSize : ∀ key message, (lib.hmac key message).length = 32)
    (deep : cfg.deep = true) (plain : cfg.secure = false) : ReplaySafe lib clientLib cfg ↔
      cfg.profile ≠ .source ∧ cfg.profile ≠ .steam ∧ cfg.profile ≠ .bedrock := by
  constructor
  · intro safe
    exact ⟨fun source => not_replaySafe_source macSize deep plain source safe,
      fun steam => not_replaySafe_steam macSize deep plain steam safe,
      fun bedrock => not_replaySafe_bedrock macSize deep plain bedrock safe⟩
  · rintro ⟨source, steam, bedrock⟩
    cases profile : cfg.profile with
    | minecraft => exact replaySafe_minecraft deep plain profile
    | source => exact absurd profile source
    | terraria => exact replaySafe_terraria plain profile
    | steam => exact absurd profile steam
    | bedrock => exact absurd profile bedrock
    | fiveM => exact replaySafe_fiveM profile
    | none | unknown name =>
      intro _ _ _ _ _ _ accepted
      rw [World.Accepts, ServerRun.Accepts, profile] at accepted
      exact accepted.elim

/-- A MAC that is as long as the real one. -/
def markedPrimitives : Primitives :=
  { constantPrimitives with hmac := fun _ message => List.replicate 32 (message.headD 0) }

def lenientClient : ClientPrimitives where
  validJSON := fun _ => true
  chatText := fun _ => none
  parsePublicKey := fun _ => .ok none

def deepCamo (profile : CamoProfile) : CamoConfig where
  toCamoSharedConfig := { plainCamo with profile := profile }
  deep := true
  secure := false
  loginUsername := ascii "Steve"
  rejectMessage := []
  serverName := ascii "Dedicated Server"

theorem length_markedMac (key message : Bytes) : (markedPrimitives.hmac key message).length = 32 :=
  List.length_replicate

theorem deepMinecraft_safe : ReplaySafe markedPrimitives lenientClient (deepCamo .minecraft) ∧
      ¬ ReplaySafe markedPrimitives lenientClient (deepCamo .steam) := by
  constructor
  · exact (replaySafe_iff _ _ (deepCamo .minecraft) length_markedMac rfl rfl).mpr
      ⟨nofun, nofun, nofun⟩
  · intro safe
    exact ((replaySafe_iff _ _ (deepCamo .steam) length_markedMac rfl rfl).mp safe).2.1 rfl

/-- The bytes of one honest client, which every run of the server takes. -/
theorem recordedSteam_accepted :
    (∀ run, ∃ final, performCamouflageServer markedPrimitives (replayedServer run)
        (deepCamo .steam) (Stream.start (steamRequest ++ List.replicate 32 0xFF)) =
          .ok (some .raw, false) final) ∧
      ¬ ReplaySafe markedPrimitives lenientClient (deepCamo .steam) :=
  ⟨fun _ => ⟨_, rfl⟩, not_replaySafe_steam length_markedMac rfl rfl rfl⟩

end Conn
