import Mathlib.Data.Nat.Bitwise
import WireguardMesh.Conn.Secure
import WireguardMesh.Foundation.Streams

/-! # Cover frames

`camo_cover.go` and the frame formats of `sessionWrite` and `readLoop`. A payload goes over
a session plain, behind a 16-bit length, or sealed: padded, encrypted under the cover
secret, and wrapped in a Minecraft packet or behind a generic header (`Conn.Framing`).

Every framing reads back what it has written, as long as its length field can hold the
frame (`Conn.frame_frameBytes`), and a reader that has part of a frame waits for the rest
(`Conn.incremental_readFrame`).
-/

namespace Conn

open Streams

variable {k acc : Nat} {random : CoverRandom} {secret plain sealed payload : Bytes}
  {cfg : CamoSharedConfig}

/-! ## Reading back what the Minecraft writers write -/

theorem varInt_last : ∀ n < 128,
    UInt8.ofNat n &&& 0x80 = 0 ∧ (UInt8.ofNat n &&& 0x7F).toNat = n := by
  decide

theorem varInt_more : ∀ n < 128,
    UInt8.ofNat (n + 128) &&& 0x80 ≠ 0 ∧ (UInt8.ofNat (n + 128) &&& 0x7F).toNat = n := by
  decide

/-- The bits read so far are below the next ones, so the bitwise or adds them. -/
theorem or_shiftLeft_of_lt (n : Nat) (below : acc < 2 ^ (7 * k)) :
    acc ||| n <<< (7 * k) = 2 ^ (7 * k) * n + acc := by
  rw [Nat.or_comm, Nat.shiftLeft_eq, Nat.mul_comm, Nat.two_pow_add_eq_or_of_lt below]

theorem varIntLoop_varIntBytes
    (ended : Err) (rest : Bytes) {fuel u : Nat} (fits : u < 128 ^ (fuel + 1))
    (rounds : k + fuel ≤ 5) (below : acc < 2 ^ (7 * k)) :
    varIntLoop ended (varIntBytes (fuel + 1) u ++ rest) k acc =
      .ok (2 ^ (7 * k) * u + acc, rest) := by
  induction fuel generalizing u k acc with
  | zero =>
    have small : u < 128 := by simpa using fits
    obtain ⟨stop, value⟩ := varInt_last u small
    rw [varIntBytes, if_pos small, List.singleton_append, varIntLoop, if_neg (by omega),
      if_pos stop, value, or_shiftLeft_of_lt u below]
  | succ fuel ih =>
    rw [varIntBytes]
    split
    · next small =>
      obtain ⟨stop, value⟩ := varInt_last u small
      rw [List.singleton_append, varIntLoop, if_neg (by omega), if_pos stop, value,
        or_shiftLeft_of_lt u below]
    · obtain ⟨goOn, value⟩ := varInt_more (u % 128) (Nat.mod_lt _ (by decide))
      have power : 2 ^ (7 * (k + 1)) = 2 ^ (7 * k) * 128 := by
        rw [Nat.mul_add, Nat.pow_add]
      have step : 2 ^ (7 * k) * (u % 128) + acc < 2 ^ (7 * (k + 1)) := by
        have top : 2 ^ (7 * k) * (u % 128 + 1) ≤ 2 ^ (7 * k) * 128 :=
          Nat.mul_le_mul_left _ (Nat.mod_lt u (by decide))
        rw [power]
        rw [Nat.mul_add] at top
        omega
      rw [List.cons_append, varIntLoop, if_neg (by omega), if_neg goOn, value,
        or_shiftLeft_of_lt (u % 128) below,
        ih (Nat.div_lt_of_lt_mul (by rwa [Nat.mul_comm, ← Nat.pow_succ])) (by omega) step,
        power, Nat.mul_assoc, ← Nat.add_assoc, ← Nat.mul_add, Nat.div_add_mod]

theorem varIntLoop_writeMCVarInt (ended : Err) (rest : Bytes) {value : Nat}
    (fits : value < 2 ^ 32) :
    varIntLoop ended (writeMCVarInt value ++ rest) 0 0 = .ok (value, rest) := by
  rw [writeMCVarInt, Nat.mod_eq_of_lt fits,
    varIntLoop_varIntBytes ended rest (show value < 128 ^ (4 + 1) from fits.trans (by decide))
      (by decide) (by decide)]
  simp

theorem readMCVarInt_writeMCVarInt {value : Nat} (fits : value < 2 ^ 32) (rest : Bytes) :
    readMCVarInt (writeMCVarInt value ++ rest) = .ok (value, rest) :=
  varIntLoop_writeMCVarInt .eof rest fits

theorem readSized_append (invalid : String) {data : Bytes} (fits : data.length < 2 ^ 32)
    (rest : Bytes) :
    readSized invalid (writeMCVarInt data.length ++ data ++ rest) = .ok (data, rest) := by
  rw [readSized, List.append_assoc, readMCVarInt_writeMCVarInt fits]
  change (if data.length > (data ++ rest).length then _ else _) = _
  rw [if_neg (by rw [List.length_append]; omega), List.take_left, List.drop_left]

/-! ## Sealed payloads -/

section

variable (lib : Primitives)

def coverKey (secret : Bytes) : Bytes :=
  lib.sha256 (ascii "wgmc-cover-v1" ++ [0] ++ secret)

/-- The random bytes `sealCover` draws for one frame. -/
structure CoverRandom where
  pad : Bytes
  nonce : Bytes
  pad_length : pad.length ≤ 15
  nonce_length : nonce.length = 16

def sealCover (random : CoverRandom) (secret plain : Bytes) : Except Err Bytes := do
  let body := UInt8.ofNat random.pad.length :: (plain ++ random.pad)
  lib.newCipher (coverKey lib secret)
  return random.nonce ++ xorKeyStream lib (coverKey lib secret ++ random.nonce) 0 body

def openCover (secret sealed : Bytes) : Except Err Bytes :=
  if sealed.length < 17 then .error (.text "cover frame short")
  else (lib.newCipher (coverKey lib secret)).bind fun _ =>
    let body := xorKeyStream lib (coverKey lib secret ++ sealed.take 16) 0 (sealed.drop 16)
    let n := (body.getD 0 0).toNat
    if n > 15 ∨ 1 + n > body.length then .error (.text "cover pad invalid")
    else .ok ((body.take (body.length - n)).drop 1)

variable {lib}

theorem xorKeyStream_xorKeyStream (key : Bytes) (offset : Nat) (data : Bytes) :
    xorKeyStream lib key offset (xorKeyStream lib key offset data) = data := by
  apply List.ext_getElem
  · simp only [xorKeyStream, List.length_mapIdx]
  · intro i _ _
    simp only [xorKeyStream, List.getElem_mapIdx, UInt8.xor_assoc, UInt8.xor_self,
      UInt8.xor_zero]

theorem sealCover_eq_ok : sealCover lib random secret plain = .ok sealed ↔
      lib.newCipher (coverKey lib secret) = .ok () ∧
        sealed = random.nonce ++ xorKeyStream lib (coverKey lib secret ++ random.nonce) 0
          (UInt8.ofNat random.pad.length :: (plain ++ random.pad)) := by
  rw [sealCover]
  cases lib.newCipher (coverKey lib secret) with
  | error e => exact ⟨nofun, nofun⟩
  | ok done =>
    exact ⟨fun same => ⟨rfl, (Except.ok.inj same).symm⟩, fun same => by rw [same.2]; rfl⟩

theorem exists_sealCover (cipher : lib.newCipher (coverKey lib secret) = .ok ())
    (random : CoverRandom) (plain : Bytes) :
    ∃ sealed, sealCover lib random secret plain = .ok sealed :=
  ⟨_, sealCover_eq_ok.mpr ⟨cipher, rfl⟩⟩

theorem sealCover_length (done : sealCover lib random secret plain = .ok sealed) :
    sealed.length = 17 + plain.length + random.pad.length := by
  obtain ⟨-, rfl⟩ := sealCover_eq_ok.mp done
  simp only [xorKeyStream, List.length_append, List.length_mapIdx, List.length_cons,
    random.nonce_length]
  omega

theorem openCover_sealCover (done : sealCover lib random secret plain = .ok sealed) :
    openCover lib secret sealed = .ok plain := by
  have long : ¬ sealed.length < 17 := by rw [sealCover_length done]; omega
  obtain ⟨cipher, rfl⟩ := sealCover_eq_ok.mp done
  have padSize : (UInt8.ofNat random.pad.length).toNat = random.pad.length := by
    rw [UInt8.toNat_ofNat', Nat.mod_eq_of_lt (by have := random.pad_length; omega)]
  have short := random.pad_length
  rw [openCover, if_neg long, cipher, List.take_left' random.nonce_length,
    List.drop_left' random.nonce_length, xorKeyStream_xorKeyStream]
  simp only [Except.bind, List.getD_cons_zero, padSize, List.length_cons, List.length_append]
  rw [if_neg (by omega), ← List.cons_append,
    List.take_left' (by rw [List.length_cons]; omega), List.drop_one, List.tail_cons]

/-! ## Framings -/

def coverMCPacketID : Nat := 0x19

def encodeCoverMC (channel data : Bytes) : Bytes :=
  writeMCVarInt coverMCPacketID ++ writeMCString channel ++ writeMCByteArray data

def decodeCoverMC (payload wantChannel : Bytes) : Except Err Bytes :=
  (mcPacketHead payload).bind fun (id, rest) =>
    if id ≠ coverMCPacketID then .error (.text ("cover packet id " ++ toString id))
    else (readMCString rest).bind fun (channel, rest) =>
      if channel ≠ wantChannel then .error (.text "cover channel")
      else (readMCByteArray rest).map Prod.fst

/-- The reader of a cover packet does not look at what follows the data. -/
theorem decodeCoverMC_append {channel data : Bytes} (shortChannel : channel.length < 2 ^ 32)
    (shortData : data.length < 2 ^ 32) (extra : Bytes) :
    decodeCoverMC (encodeCoverMC channel data ++ extra) channel = .ok data := by
  have channelRead : readMCString (writeMCString channel ++ (writeMCByteArray data ++ extra)) =
      .ok (channel, writeMCByteArray data ++ extra) := readSized_append _ shortChannel _
  have dataRead : readMCByteArray (writeMCByteArray data ++ extra) = .ok (data, extra) :=
    readSized_append _ shortData extra
  simp only [decodeCoverMC, encodeCoverMC, mcPacketHead, List.append_assoc,
    readMCVarInt_writeMCVarInt (show coverMCPacketID < 2 ^ 32 by decide), Except.bind, ne_eq,
    not_true_eq_false, if_false, channelRead, dataRead, Except.map]

/-- How a frame goes over a session. -/
inductive Framing
  | plain
  | minecraft (channel secret : Bytes)
  | generic (secret : Bytes)
deriving DecidableEq

/-- The two bytes of `binary.BigEndian.PutUint16` of an `int` cast to `uint16`. -/
def putUint16 (n : Nat) : Bytes :=
  [UInt8.ofNat (n / 256), UInt8.ofNat n]

/-- `binary.BigEndian.Uint16`. -/
def uint16 (header : Bytes) : Nat :=
  (header.getD 0 0).toNat * 256 + (header.getD 1 0).toNat

variable (lib) in
/-- The bytes `sessionWrite` and `writeCoverFrame` put on the connection for a payload. -/
def frameBytes (random : CoverRandom) (payload : Bytes) : Framing → Except Err Bytes
  | .plain => .ok (putUint16 payload.length ++ payload)
  | .minecraft channel secret =>
    (sealCover lib random secret payload).map fun sealed =>
      packetFrame (encodeCoverMC channel sealed)
  | .generic secret =>
    (sealCover lib random secret payload).map fun sealed =>
      0xFE :: putUint16 sealed.length ++ sealed

/-- The error that stands for a read beyond what has arrived. -/
def blocked : Err :=
  .system 11

/-- The result of a read on input that has not ended: a read beyond what has arrived waits. -/
def arrived {α : Type} : Except Err α → Option (Except Err α)
  | .ok a => some (.ok a)
  | .error e => if e = blocked then none else some (.error e)

/-- `readMCPacket` on a connection that stays open. -/
def readPacket : Read UInt8 Err Bytes := fun input =>
  arrived (splitPacket blocked input)

variable (lib) in
/-- One round of `readLoop`: the payload of the frame at the head of what has arrived. -/
def readFrame : Framing → Read UInt8 Err Bytes
  | .plain => andThen (full 2) fun header => full (uint16 header)
  | .minecraft channel secret =>
    andThen readPacket fun packet =>
      lift ((decodeCoverMC packet channel).bind (openCover lib secret))
  | .generic secret =>
    andThen (full 3) fun header =>
      if header.getD 0 0 ≠ 0xFE then lift (.error (.text "cover header"))
      else andThen (full (uint16 (header.drop 1))) fun sealed =>
        lift (openCover lib secret sealed)

/-! ## Reading in parts -/

/-- `readMCVarIntFromConn` on a connection that stays open. -/
def readVarInt : Read UInt8 Err Nat := fun input =>
  arrived (varIntLoop blocked input 0 0)

theorem varIntLoop_of_long (ended : Err) (input : Bytes) (long : k > 5) (acc : Nat) :
    varIntLoop ended input k acc = .error (.text "varint too long") := by
  cases input <;> rw [varIntLoop, if_pos long]

theorem arrived_varIntLoop_append {input : Bytes} (later : Bytes)
    {result : Except Err (Nat × Bytes)}
    (answered : result ∈ arrived (varIntLoop blocked input k acc)) :
    arrived (varIntLoop blocked (input ++ later) k acc) =
      some (result.map fun (value, rest) => (value, rest ++ later)) := by
  induction input generalizing k acc with
  | nil =>
    by_cases long : k > 5
    · rw [varIntLoop_of_long _ _ long] at answered ⊢
      obtain rfl := Option.mem_some.mp answered
      rfl
    · rw [varIntLoop, if_neg long] at answered
      cases answered
  | cons b input ih =>
    by_cases long : k > 5
    · rw [varIntLoop_of_long _ _ long] at answered ⊢
      obtain rfl := Option.mem_some.mp answered
      rfl
    · rw [List.cons_append]
      rw [varIntLoop, if_neg long] at answered ⊢
      split at answered
      · next last =>
        rw [if_pos last]
        obtain rfl := Option.mem_some.mp answered
        rfl
      · next more => rw [if_neg more]; exact ih answered

theorem incremental_readVarInt : Incremental readVarInt :=
  fun _ later _ answered => arrived_varIntLoop_append later answered

theorem readPacket_eq : readPacket = andThen readVarInt fun size => if size > 2 ^ 20 then
        lift (.error (.text ("invalid mc packet size " ++ toString size)))
      else full size := by
  funext input
  rw [readPacket, splitPacket, andThen, readVarInt]
  cases varIntLoop blocked input 0 0 with
  | error e =>
    rw [arrived]
    by_cases waits : e = blocked
    · rw [if_pos waits]; subst waits; rfl
    · rw [if_neg waits]
      change (if e = blocked then _ else _) = _
      rw [if_neg waits]
  | ok parts =>
    obtain ⟨size, rest⟩ := parts
    dsimp only [Except.bind, arrived]
    by_cases large : size > 2 ^ 20
    · rw [if_pos large, if_pos large]; rfl
    · rw [if_neg large, if_neg large, full]
      by_cases short : rest.length < size
      · rw [if_pos short, if_pos short]; rfl
      · rw [if_neg short, if_neg short]

theorem incremental_readPacket : Incremental readPacket := by
  rw [readPacket_eq]
  refine incremental_readVarInt.andThen fun size => ?_
  split
  · exact .lift _
  · exact .full _

theorem frame_packetFrame (fits : payload.length ≤ 2 ^ 20) :
    Frame readPacket payload (packetFrame payload) := by
  have size : Frame readVarInt payload.length (writeMCVarInt payload.length) := by
    intro rest
    rw [readVarInt, varIntLoop_writeMCVarInt blocked rest (by omega)]
    rfl
  rw [readPacket_eq]
  refine size.andThen ?_
  rw [if_neg (by omega)]
  exact .full rfl

theorem incremental_readFrame (framing : Framing) :
    Incremental (readFrame lib framing) := by
  cases framing with
  | plain => exact (Incremental.full 2).andThen fun _ => .full _
  | minecraft channel secret => exact incremental_readPacket.andThen fun _ => .lift _
  | generic secret =>
    refine (Incremental.full 3).andThen fun header => ?_
    split
    · exact .lift _
    · exact (Incremental.full _).andThen fun _ => .lift _

theorem readFrame_nil (framing : Framing) : readFrame lib framing [] = none := by
  cases framing <;> rfl

/-! ## Round trips -/

/-- The length fields of the framing can hold the frame of a payload that `Send` accepts. -/
def Framing.Fits (random : CoverRandom) (payload : Bytes) : Framing → Prop
  | .plain => True
  | .minecraft channel _ => channel.length ≤ 2 ^ 19
  | .generic _ => 17 + payload.length + random.pad.length < 2 ^ 16

instance (random : CoverRandom) (payload : Bytes) (framing : Framing) :
    Decidable (framing.Fits random payload) :=
  match framing with
  | .plain => inferInstanceAs (Decidable True)
  | .minecraft channel _ => inferInstanceAs (Decidable (channel.length ≤ 2 ^ 19))
  | .generic _ =>
    inferInstanceAs (Decidable (17 + payload.length + random.pad.length < 2 ^ 16))

theorem uint16_putUint16 (n : Nat) : uint16 (putUint16 n) = n % 2 ^ 16 := by
  simp only [uint16, putUint16, List.getD_cons_zero, List.getD_cons_succ, UInt8.toNat_ofNat']
  omega

theorem varIntBytes_length_le (fuel u : Nat) : (varIntBytes fuel u).length ≤ fuel := by
  induction fuel generalizing u with
  | zero => exact Nat.le_refl 0
  | succ fuel ih =>
    rw [varIntBytes]
    split
    · exact Nat.succ_le_succ (Nat.zero_le _)
    · exact Nat.succ_le_succ (ih _)

theorem encodeCoverMC_length_le (channel data : Bytes) :
    (encodeCoverMC channel data).length ≤ 15 + channel.length + data.length := by
  have idSize := varIntBytes_length_le 5 (coverMCPacketID % 2 ^ 32)
  have channelSize := varIntBytes_length_le 5 (channel.length % 2 ^ 32)
  have dataSize := varIntBytes_length_le 5 (data.length % 2 ^ 32)
  simp only [encodeCoverMC, writeMCString, writeMCByteArray, writeMCVarInt, List.length_append]
  omega

theorem frame_plain (short : payload.length < 2 ^ 16) :
    Frame (readFrame lib .plain) payload (putUint16 payload.length ++ payload) := by
  have header : Frame (full 2 : Read UInt8 Err Bytes)
      (putUint16 payload.length) (putUint16 payload.length) := .full rfl
  refine header.andThen ?_
  rw [uint16_putUint16, Nat.mod_eq_of_lt short]
  exact .full rfl

theorem frame_minecraft {channel : Bytes} (fits : (encodeCoverMC channel sealed).length ≤ 2 ^ 20)
    (sealing : sealCover lib random secret payload = .ok sealed) :
    Frame (readFrame lib (.minecraft channel secret)) payload
      (packetFrame (encodeCoverMC channel sealed)) := by
  have parts : channel.length + sealed.length ≤ (encodeCoverMC channel sealed).length := by
    simp only [encodeCoverMC, writeMCString, writeMCByteArray, List.length_append]
    omega
  rw [← List.append_nil (packetFrame _)]
  refine (frame_packetFrame fits).andThen ?_
  rw [← List.append_nil (encodeCoverMC channel sealed), decodeCoverMC_append (by omega) (by omega)]
  change Frame (lift (openCover lib secret sealed)) _ _
  rw [openCover_sealCover sealing]
  exact .lift payload

theorem frame_generic (fits : 17 + payload.length + random.pad.length < 2 ^ 16)
    (sealing : sealCover lib random secret payload = .ok sealed) :
    Frame (readFrame lib (.generic secret)) payload
      (0xFE :: putUint16 sealed.length ++ sealed) := by
  have size := sealCover_length sealing
  have header : Frame (full 3 : Read UInt8 Err Bytes)
      (0xFE :: putUint16 sealed.length) (0xFE :: putUint16 sealed.length) := .full rfl
  have body : Frame (andThen (full sealed.length) fun sealed =>
      lift (openCover lib secret sealed)) payload (sealed ++ []) := by
    refine (Frame.full rfl).andThen ?_
    rw [openCover_sealCover sealing]
    exact .lift payload
  refine header.andThen ?_
  rw [List.append_nil] at body
  rw [if_neg (by simp), List.drop_one, List.tail_cons, uint16_putUint16,
    Nat.mod_eq_of_lt (by omega)]
  exact body

/-- **Round trip.** A frame that fits its length fields is read back as its payload, whatever
follows it on the connection. -/
theorem frame_frameBytes {framing : Framing} {bytes : Bytes} (short : payload.length < 2 ^ 16)
    (fits : framing.Fits random payload)
    (written : frameBytes lib random payload framing = .ok bytes) :
    Frame (readFrame lib framing) payload bytes := by
  cases framing with
  | plain =>
    obtain rfl := Except.ok.inj written
    exact frame_plain short
  | minecraft channel secret =>
    obtain ⟨sealed, sealing, rfl⟩ := Effect.except_map_eq_ok.mp written
    have size := sealCover_length sealing
    have padSize := random.pad_length
    have whole := encodeCoverMC_length_le channel sealed
    change channel.length ≤ 2 ^ 19 at fits
    exact frame_minecraft (by omega) sealing
  | generic secret =>
    obtain ⟨sealed, sealing, rfl⟩ := Effect.except_map_eq_ok.mp written
    exact frame_generic fits sealing

end

/-! ## The config of a bind -/

/-- The values of `camoProfile…`; any other name in the config is kept. -/
inductive CamoProfile
  | none
  | minecraft
  | source
  | terraria
  | steam
  | bedrock
  | fiveM
  | unknown (name : String)
deriving DecidableEq

/-- The fields of `camoSharedConfig` that frames depend on. -/
structure CamoSharedConfig where
  profile : CamoProfile
  pluginChannel : Bytes
  pluginSecret : Bytes
deriving DecidableEq

namespace CamoSharedConfig

/-- `camouflageHidesVPN`. -/
def hidesVPN (cfg : CamoSharedConfig) : Bool :=
  cfg.profile ≠ .none

/-- The framing of `writeCoverFrame` and `readCoverFrame`. -/
def cover (cfg : CamoSharedConfig) : Framing :=
  match cfg.profile with
  | .minecraft => .minecraft cfg.pluginChannel cfg.pluginSecret
  | .none | .source | .terraria | .steam | .bedrock | .fiveM | .unknown _ =>
    .generic cfg.pluginSecret

/-- The framing of frames while the config stays. -/
def framing (cfg : CamoSharedConfig) : Framing :=
  if cfg.hidesVPN then cfg.cover else .plain

theorem cover_ne_plain (cfg : CamoSharedConfig) : cfg.cover ≠ .plain := by
  rw [cover]
  split <;> nofun

theorem framing_of_hides (hides : cfg.hidesVPN = true) : cfg.cover = cfg.framing := by
  rw [framing, if_pos hides]

theorem framing_of_shows (shows : ¬ cfg.hidesVPN = true) : cfg.framing = .plain := by
  rw [framing, if_neg shows]

theorem cover_eq_framing (covered : cfg.framing ≠ .plain) : cfg.cover = cfg.framing :=
  framing_of_hides (by_contra fun shows => covered (framing_of_shows shows))

end CamoSharedConfig

def plainCamo : CamoSharedConfig :=
  ⟨.none, ascii "minecraft:register", ascii "lasitan-cluster-internal"⟩

def minecraftCamo : CamoSharedConfig :=
  { plainCamo with profile := .minecraft }

def noPad : CoverRandom where
  pad := []
  nonce := List.replicate 16 0
  pad_length := Nat.zero_le 15
  nonce_length := List.length_replicate

end Conn
