import WireguardMesh.Conn.MinecraftClient
import WireguardMesh.Conn.MinecraftSoundness

/-! # Both ends of a camouflage handshake

`performCamouflageClient` and `performCamouflageServer`: the handshake of the profile, then the
secure exchange when it is on. What an end draws at random, and how many bytes its single reads
return, are inputs of a run (`ClientRun`, `ServerRun`).
-/

namespace Conn

variable {size : Nat} {s s' : Stream} {data : Bytes} {u : Unit}

/-- What a run of the client depends on beside its config. -/
structure ClientRun where
  net : Network
  dst : DialTarget
  random : ClientRandom
  /-- the number of bytes a single read returns -/
  taken : Nat
  /-- `dialToNAT` -/
  toNAT : Bool

/-- What a run of the server depends on beside its config. -/
structure ServerRun where
  net : Network
  random : Randomness
  /-- the number of bytes a single read returns -/
  taken : Nat

/-- The server's part of the secure exchange draws what the Minecraft server draws. -/
def ServerRun.secureRandom (run : ServerRun) : SecureRandom :=
  ⟨run.random.ephemeralKey, run.random.blobFiller⟩

variable (lib : Primitives) (clientLib : ClientPrimitives)

/-- The end of `performCamouflageClient` after a profile's own handshake. -/
def finishClient (run : ClientRun) (cfg : CamoConfig) (handshake : Session Unit) :
    Session NetConn := do
  handshake
  if cfg.secure = false then pure .raw
  else secureGenericClient lib run.net run.random.secure run.toNAT cfg

/-- The error for a profile that is none of the known ones. -/
def unknownProfile (name : String) : Err :=
  .text ("unknown camouflage profile " ++ name.quote)

def performCamouflageClient (run : ClientRun) (cfg : CamoConfig) : Session NetConn :=
  match cfg.profile with
  | .none => pure .raw
  | .minecraft => performMCCamouflageClient lib clientLib run.net run.dst run.random
      cfg.mcDeepConfig cfg.secure run.toNAT
  | .source => finishClient lib run cfg (performSourceCamouflageClient lib run.net run.taken cfg)
  | .terraria => finishClient lib run cfg (performTerrariaCamouflageClient lib run.net cfg)
  | .steam => finishClient lib run cfg (performSteamCamouflageClient lib run.net run.taken cfg)
  | .bedrock => finishClient lib run cfg (performBedrockCamouflageClient lib run.net run.taken cfg)
  | .fiveM => finishClient lib run cfg (performFiveMCamouflageClient lib run.net run.taken cfg)
  | .unknown name => throw (unknownProfile name)

/-- The end of `performCamouflageServer` after a profile's own handshake. -/
def finishServer (run : ServerRun) (cfg : CamoConfig) (handshake : Session Unit) :
    Session (Option NetConn × Bool) := do
  handshake
  if cfg.secure = false then pure (some .raw, false)
  else do
    let (sc, toNAT) ← secureGenericServer lib run.net run.secureRandom cfg
    return (some sc, toNAT)

/-- `performCamouflageServer`: the connection, which may be nil, and the NAT flag. -/
def performCamouflageServer (run : ServerRun) (cfg : CamoConfig) :
    Session (Option NetConn × Bool) :=
  match cfg.profile with
  | .none => pure (some .raw, false)
  | .minecraft => performMCCamouflageServer lib run.net run.random cfg.mcDeepConfig cfg.secure
  | .source => finishServer lib run cfg (performSourceCamouflageServer lib run.net cfg)
  | .terraria => finishServer lib run cfg (performTerrariaCamouflageServer lib run.net cfg)
  | .steam => finishServer lib run cfg (performSteamCamouflageServer lib run.net cfg)
  | .bedrock => finishServer lib run cfg (performBedrockCamouflageServer lib run.net cfg)
  | .fiveM => finishServer lib run cfg (performFiveMCamouflageServer lib run.net run.taken cfg)
  | .unknown name => throw (unknownProfile name)

/-! ## When the building blocks return -/

variable {lib} {net : Network}

theorem readFull_eq_ok : readFull net size s = .ok data s' ↔
      size ≤ s.input.length ∧ data = s.input.take size ∧
        s' = { s with input := s.input.drop size } := by
  rw [readFull]
  split
  · next short =>
    simp only [reduceCtorEq, false_iff]
    exact fun enough => Nat.not_lt.mpr enough.1 short
  · next enough =>
    rw [EStateM.Result.ok.injEq, eq_comm, @eq_comm _ _ s']
    exact (and_iff_right (Nat.not_lt.mp enough)).symm

theorem readFull_append {rest : Bytes} (input : s.input = data ++ rest)
    (length : data.length = size) : readFull net size s = .ok data { s with input := rest } := by
  rw [readFull_eq_ok, input, ← length, List.length_append, List.take_left, List.drop_left]
  exact ⟨Nat.le_add_right _ _, rfl, rfl⟩

theorem readOnce_append {taken : Nat} {rest : Bytes} (input : s.input = data ++ rest)
    (length : data.length = max 1 (min taken size)) :
    readOnce net size taken s = .ok data { s with input := rest } := by
  simp [readOnce, input, ← length]

theorem writeAll_eq_ok (some : data ≠ []) : writeAll net data s = .ok u s' ↔
      net.writes s.writes = none ∧
        s' = { s with sent := s.sent ++ [data], writes := s.writes + 1 } := by
  rw [writeAll, if_neg some]
  cases net.writes s.writes with
  | none => simp [eq_comm]
  | some e => simp

theorem checkProof_eq_ok {secret challenge proof : Bytes} :
    checkProof lib secret challenge proof = .ok u ↔ proof = lib.hmac secret challenge := by
  rw [checkProof]
  split
  · next wrong => exact iff_of_false nofun wrong
  · next right => exact iff_of_true rfl (Decidable.not_not.mp right)

theorem camoAuthServer_eq_ok {secret challenge : Bytes} :
    camoAuthServer lib net secret challenge s = .ok u s' ↔
      32 ≤ s.input.length ∧ s.input.take 32 = lib.hmac secret challenge ∧
        s' = { s with input := s.input.drop 32 } := by
  simp only [camoAuthServer, Effect.bind_eq_ok, within_eq_ok, readFull_eq_ok, Effect.lift_eq_ok,
    checkProof_eq_ok]
  constructor
  · rintro ⟨_, _, ⟨enough, rfl, rfl⟩, right, rfl⟩
    exact ⟨enough, right, rfl⟩
  · rintro ⟨enough, right, rfl⟩
    exact ⟨_, _, ⟨enough, rfl, rfl⟩, right, rfl⟩

/-! ## The challenges in the replies of the servers -/

theorem length_sourceInfo (serverName : Bytes) :
    (buildSourceInfoResponse serverName).length = serverName.length + 60 := by
  simp [buildSourceInfoResponse, sourceCString, ascii]

theorem take_take_of_le {n m : Nat} (small : n ≤ m) : (data.take m).take n = data.take n := by
  rw [List.take_take, Nat.min_eq_left small]

theorem sourceChallenge_response (serverName : Bytes) :
    sourceChallenge ((buildSourceInfoResponse serverName).take 512) =
      .ok ((buildSourceInfoResponse serverName).take 32) := by
  have length := length_sourceInfo serverName
  rw [sourceChallenge, if_neg, take_take_of_le (by decide)]
  rintro (short | other)
  · rw [List.length_take] at short
    omega
  · exact other rfl

theorem length_bedrockPong (serverName : Bytes) :
    (bedrockPong serverName).length = serverName.length + 14 := by
  simp [bedrockPong, bedrockPing, ascii]

theorem bedrockChallenge_pong (serverName : Bytes) :
    bedrockChallenge ((bedrockPong serverName).take 256) =
      .ok ((bedrockPong serverName).take 32) := by
  have length := length_bedrockPong serverName
  rw [bedrockChallenge, if_neg, take_take_of_le (by decide)]
  rintro (short | other)
  · rw [List.length_take] at short
    omega
  · exact other rfl

end Conn
