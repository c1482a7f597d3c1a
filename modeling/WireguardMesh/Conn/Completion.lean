import WireguardMesh.Conn.Agreement
import WireguardMesh.Conn.HonestMinecraft

/-! # Honest handshakes complete

The two ends of a handshake with the same config, over streams that may be cut into any portions.
`HandshakeCompletes` says that neither end fails, that both return once all is delivered, with
exactly the later bytes of the other end unread, that the connections they return fit, and that the
server learns the flag the client dials with.

Two slips stand in the way. A single `conn.Read` of the profiles `source`, `steam`, `bedrock` and
`fivem` takes what has arrived, which need not be the message of the peer. And in deep mode the two
ends of `terraria`, and those of `fivem`, take different bytes as the challenge.
`handshake_completes` says that nothing else does, as long as the strings fit their packets, and
`session_delivers` goes on with the frames that follow.
-/

namespace Conn

open Conversation

variable (lib : Primitives) (clientLib : ClientPrimitives) (cfg : CamoConfig) (client : ClientRun)
  (server : ServerRun)

/-- The two ends of a handshake, and what they send after it. -/
def handshakePair (laterClient laterServer : Bytes) :
    Pair UInt8 NetConn (Option NetConn × Bool) where
  left := progress (performCamouflageClient lib clientLib client cfg) laterClient
  right := progress (performCamouflageServer lib server cfg) laterServer

/-- **The handshake completes**, whatever is sent after it and however the streams are cut. -/
def HandshakeCompletes : Prop :=
  ∀ laterClient laterServer, ∃ conn conn' toNAT,
    (handshakePair lib clientLib cfg client server laterClient laterServer).Completes conn
        (some conn', toNAT) laterServer laterClient ∧
      Paired conn conn' ∧ Paired conn' conn ∧
      (cfg.secure = true ∨ cfg.profile = .minecraft ∧ cfg.deep = true → toNAT = client.toNAT)

/-- A single read into a buffer of the size returns the whole message. -/
def ReadsWhole (taken size : Nat) (message : Bytes) : Prop :=
  message.length = max 1 (min taken size)

/-- The two messages have the same MAC under the secret. -/
def SameMac (challenge challenge' : Bytes) : Prop :=
  lib.hmac cfg.pluginSecret challenge = lib.hmac cfg.pluginSecret challenge'

/-- When the two ends of a run keep to one conversation. -/
def Aligned : Prop :=
  match cfg.profile with
  -- without camouflage nothing is secured, and the flag travels outside the handshake
  | .none => cfg.secure = true → client.toNAT = false
  | .minecraft => StringsFit cfg client server
  | .source => ReadsWhole client.taken 512 (buildSourceInfoResponse cfg.serverName)
  | .terraria => (terrariaReject cfg ++ [0]).length + 2 < 2 ^ 16 ∧
      (cfg.deep = true →
        SameMac lib cfg (2 :: (terrariaReject cfg ++ [0])) (82 :: terrariaConnectPayload))
  | .steam => ReadsWhole client.taken 64 steamResponse
  | .bedrock => ReadsWhole client.taken 256 (bedrockPong cfg.serverName)
  | .fiveM => ReadsWhole server.taken 128 fiveMRequest ∧
      ReadsWhole client.taken 512 (fiveMResponse cfg.serverName) ∧
      (cfg.deep = true →
        SameMac lib cfg ((fiveMResponse cfg.serverName).take 32) (fiveMBody cfg.serverName))
  | .unknown _ => False

variable {lib clientLib cfg client server}

theorem Meet.completes (meet : Meet (performCamouflageClient lib clientLib client cfg)
      (performCamouflageServer lib server cfg)
      (cfg.secure = true ∨ cfg.profile = .minecraft ∧ cfg.deep = true) client.toNAT) :
    HandshakeCompletes lib clientLib cfg client server := by
  intro laterClient laterServer
  obtain ⟨talk, conn, conn', toNAT, left, right, paired, paired', flag⟩ := meet
  exact ⟨conn, conn', toNAT, (left.follows laterClient).completes (right.follows laterServer),
    paired, paired', flag⟩

theorem Meet.weaken {left : Session NetConn} {right : Session (Option NetConn × Bool)}
    {matters matters' : Prop} {dialToNAT : Bool} (meet : Meet left right matters dialToNAT)
    (less : matters' → matters) : Meet left right matters' dialToNAT := by
  obtain ⟨talk, conn, conn', toNAT, left, right, paired, paired', flag⟩ := meet
  exact ⟨talk, conn, conn', toNAT, left, right, paired, paired', fun holds => flag (less holds)⟩

theorem none_meet (aligned : cfg.secure = true → client.toNAT = false) :
    Meet (pure .raw) (pure (some .raw, false)) (cfg.secure = true) client.toNAT :=
  ⟨[], .raw, .raw, false, Speaks.pure _ _, Speaks.pure _ _, .raw, .raw,
    fun secure => (aligned secure).symm⟩

theorem meet_of_aligned (lawful : lib.Lawful clientLib)
    (honest : HonestRuns clientLib client server) (aligned : Aligned lib cfg client server) :
    Meet (performCamouflageClient lib clientLib client cfg) (performCamouflageServer lib server cfg)
      (cfg.secure = true ∨ cfg.profile = .minecraft ∧ cfg.deep = true) client.toNAT := by
  by_cases minecraft : cfg.profile = .minecraft
  · rw [Aligned, minecraft] at aligned
    rw [performCamouflageClient, performCamouflageServer, minecraft]
    exact (minecraft_meet lawful honest aligned).weaken fun holds => holds.imp_right And.right
  · refine Meet.weaken ?_ fun holds => holds.resolve_right fun deep => minecraft deep.1
    revert aligned
    rw [Aligned, performCamouflageClient, performCamouflageServer]
    cases profile : cfg.profile with
    | none => exact none_meet
    | minecraft => exact absurd profile minecraft
    | source =>
      intro whole
      exact profile_meet lawful honest (sourceClientQuery · client.taken) (sourceServerReply · cfg)
        (sourceClientQuery_speaks whole) (reply_speaks ((Speaks.readFull rfl).within _) rfl)
        fun _ => rfl
    | terraria =>
      rintro ⟨fits, same⟩
      exact profile_meet lawful honest terrariaClientQuery (terrariaServerReply · cfg)
        (terrariaClientQuery_speaks fits) (terrariaServerReply_speaks cfg) same
    | steam =>
      intro whole
      exact profile_meet lawful honest (steamClientQuery · client.taken) steamServerReply
        (query_speaks whole rfl)
        (reply_speaks ((Speaks.readFull (show steamRequest.length = 9 from rfl)).within _) rfl)
        fun _ => rfl
    | bedrock =>
      intro whole
      exact profile_meet lawful honest (bedrockClientQuery · client.taken)
        (bedrockServerReply · cfg) (bedrockClientQuery_speaks whole)
        (bedrockServerReply_speaks cfg) fun _ => rfl
    | fiveM =>
      rintro ⟨request, response, same⟩
      exact profile_meet lawful honest (fiveMClientQuery · client.taken)
        (fiveMServerReply · server.taken cfg) (fiveMClientQuery_speaks response)
        (reply_speaks ((Speaks.readOnce request).within _) (by decide)) same
    | unknown name => exact False.elim

/-- **Honest handshakes complete** on every aligned run. -/
theorem handshake_completes (lawful : lib.Lawful clientLib)
    (honest : HonestRuns clientLib client server) (aligned : Aligned lib cfg client server) :
    HandshakeCompletes lib clientLib cfg client server :=
  (meet_of_aligned lawful honest aligned).completes

/-! ## Runs that complete, and runs that do not -/

/-- Library functions that keep their promises. The MAC tells messages apart by their first
bytes. -/
def honestPrimitives : Primitives :=
  { sizedPrimitives with
    hmac := fun _ message => List.replicate 32 (message.headD 0)
    md5 := fun _ => List.replicate 16 0
    marshalPublicKey := fun modulus => .ok modulus }

def honestClient : ClientPrimitives where
  validJSON := fun _ => true
  chatText := fun _ => none
  parsePublicKey := fun der => .ok (some (Sticky.ofBigEndian der))

theorem honestPrimitives_lawful : honestPrimitives.Lawful honestClient where
  mac _ _ := List.length_replicate
  stream := by
    intro _ _ _ _ _ made
    cases made
    rw [List.length_append, List.length_replicate, List.length_replicate]
    omega
  publicKey _ := List.length_replicate
  digest _ := List.length_replicate
  derives _ _ _ _ _ := ⟨_, rfl⟩
  cipher _ := rfl
  agreement _ _ := ⟨_, _, [], rfl, rfl, rfl, rfl⟩
  marshals {modulus} length _ := ⟨modulus, rfl, by rw [length]; decide, rfl⟩

def honestSecureRandom : SecureRandom :=
  ⟨.ok (List.replicate 32 0), .ok (List.replicate secureBlobLen 0)⟩

/-- A client whose single reads return so many bytes. -/
def honestClientRun (taken : Nat) : ClientRun where
  net := calmNetwork
  dst := ⟨ascii "203.0.113.7", 25565⟩
  random := ⟨0, honestSecureRandom, .ok (List.replicate secureBlobLen 0)⟩
  taken := taken
  toNAT := true

def honestServerRun : ServerRun where
  net := calmNetwork
  random :=
    { statusJSON := ascii "\x7b\x7d"
      challenge := .ok (List.replicate 8 0)
      ephemeralKey := .ok (List.replicate 32 0)
      blobFiller := .ok (List.replicate secureBlobLen 0)
      verifyToken := .ok (List.replicate 4 0) }
  taken := 128

theorem honestRuns (taken : Nat) :
    HonestRuns honestClient (honestClientRun taken) honestServerRun where
  clientNet := rfl
  serverNet := rfl
  clientSecure := ⟨⟨_, rfl, List.length_replicate⟩, _, rfl, List.length_replicate⟩
  serverSecure := ⟨⟨_, rfl, List.length_replicate⟩, _, rfl, List.length_replicate⟩
  clientToken := ⟨_, rfl, List.length_replicate⟩
  serverToken := ⟨_, rfl, List.length_replicate⟩
  challenge := ⟨_, rfl, List.length_replicate⟩
  statusJSON := rfl

/-- A config of the profile without the secure exchange. -/
def plainHandshake (profile : CamoProfile) (deep : Bool) : CamoConfig :=
  { secureCamo with profile := profile, deep := deep, secure := false }

theorem secureMinecraft_completes :
    HandshakeCompletes honestPrimitives honestClient { secureCamo with profile := .minecraft }
      (honestClientRun 0) honestServerRun :=
  handshake_completes honestPrimitives_lawful (honestRuns 0)
    { host := by decide
      statusJSON := by decide
      username := by decide
      channel := by decide }

theorem not_completes_of_failed (schedule : List (Conversation.Side × Nat))
    (failed : ((handshakePair lib clientLib cfg client server [] []).right
      ((handshakePair lib clientLib cfg client server [] []).run schedule).right).isFailed =
        true) : ¬ HandshakeCompletes lib clientLib cfg client server := by
  intro completes
  obtain ⟨conn, conn', toNAT, complete, -⟩ := completes [] []
  exact Bool.false_ne_true ((complete.safe schedule).2.symm.trans failed)

theorem not_completes_of_unread (schedule : List (Conversation.Side × Nat))
    (quiet : (handshakePair lib clientLib cfg client server [] []).Quiet
      ((handshakePair lib clientLib cfg client server [] []).run schedule))
    {conn : NetConn} {sent unread : Bytes}
    (returned : (handshakePair lib clientLib cfg client server [] []).left
      ((handshakePair lib clientLib cfg client server [] []).run schedule).left =
        .returned conn sent unread) (some : unread ≠ []) :
    ¬ HandshakeCompletes lib clientLib cfg client server := by
  intro completes
  obtain ⟨_, conn', toNAT, complete, -⟩ := completes [] []
  obtain ⟨⟨_, done⟩, -⟩ := complete.returns schedule quiet
  cases returned.symm.trans done
  exact some rfl

/-- With deep `terraria` the server refuses an honest client's proof. With `source`, not even deep,
a response of which the client's read returns 40 bytes leaves the rest in the stream. -/
theorem misaligned_handshakes :
    ¬ HandshakeCompletes honestPrimitives honestClient (plainHandshake .terraria true)
        (honestClientRun 0) honestServerRun ∧
      ¬ HandshakeCompletes honestPrimitives honestClient (plainHandshake .source false)
        (honestClientRun 40) honestServerRun := by
  constructor
  · exact not_completes_of_failed [(.right, 500), (.left, 500), (.right, 500)]
      (by decide +kernel)
  · exact not_completes_of_unread [(.right, 500), (.left, 500)] (by decide +kernel)
      (show _ = Progress.returned .raw sourceEngineQuery
        ((buildSourceInfoResponse (ascii "Dedicated Server")).drop 40) by decide +kernel)
      (by decide +kernel)

end Conn
