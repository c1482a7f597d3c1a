import WireguardMesh.Conn.Cover
import WireguardMesh.Conn.MinecraftSoundness

/-! # The frames of a session over TCP

A session carries its frames over a connection that may encrypt the stream and that TCP cuts into
pieces of any size. `sessionWrite` hands a frame to the connection in one or two writes, each
encrypted from the position where the last one ended; `readLoop` reads with `io.ReadFull`.

The reader of a frame, as a program on such a connection, does what `readFrame` does on the plain
bytes, so a session with a fixed config delivers exactly the payloads that are sent, in order,
without the heartbeats (`Conn.readLoop_frames`).
-/

namespace Conn

open Streams

variable {conn : NetConn} {f : Nat → UInt8 → UInt8} {pos : Nat} {cfg : CamoSharedConfig}

/-! ## Frame readers as programs -/

section

variable {α : Type}

/-- The loop of `readMCVarIntFromConn`, which reads at most so many more bytes, one at a time, and
goes on with the value. -/
def readMCVarIntFromConn (next : Nat → Reader UInt8 Err α) :
    Nat → Nat → Nat → Reader UInt8 Err α
  | 0, _, _ => .done (.error (.text "varint too long"))
  | left + 1, numRead, result =>
    .full 1 fun one =>
      let result := result ||| ((one.headD 0 &&& 0x7F).toNat <<< (7 * numRead))
      if one.headD 0 &&& 0x80 = 0 then next result
      else readMCVarIntFromConn next left (numRead + 1) result

/-- `readMCPacket`, and what follows it. -/
def readMCPacketFromConn (next : Bytes → Reader UInt8 Err α) : Reader UInt8 Err α :=
  readMCVarIntFromConn
    (fun size =>
      if size > 2 ^ 20 then .done (.error (.text ("invalid mc packet size " ++ toString size)))
      else .full size next)
    6 0 0

theorem read_readMCVarIntFromConn (next : Nat → Reader UInt8 Err α) {left numRead : Nat}
    (rounds : left + numRead = 6) (result : Nat) :
    (readMCVarIntFromConn next left numRead result).read =
      andThen (fun input => arrived (varIntLoop blocked input numRead result))
        fun value => (next value).read := by
  funext input
  induction left generalizing numRead result input with
  | zero =>
    rw [andThen, varIntLoop_of_long _ _ (by omega)]
    rfl
  | succ left ih =>
    have short : ¬ numRead > 5 := by omega
    cases input with
    | nil =>
      rw [andThen, varIntLoop, if_neg short]
      rfl
    | cons b input =>
      change (if b &&& 0x80 = 0 then next _ else readMCVarIntFromConn next left _ _).read input = _
      rw [andThen, varIntLoop, if_neg short]
      dsimp only
      split
      · rfl
      · exact ih (by omega) _ _

theorem read_readMCPacketFromConn (next : Bytes → Reader UInt8 Err α) :
    (readMCPacketFromConn next).read =
      andThen readPacket fun packet => (next packet).read := by
  rw [readMCPacketFromConn, read_readMCVarIntFromConn _ rfl, readPacket_eq, andThen_assoc]
  congr 1
  funext size
  split
  · rfl
  · rfl

end

section

variable (lib : Primitives)

/-- One round of `readLoop` on a connection. -/
def frameReader : Framing → Reader UInt8 Err Bytes
  | .plain => .full 2 fun header => .full (uint16 header) fun payload => .done (.ok payload)
  | .minecraft channel secret =>
    readMCPacketFromConn fun packet =>
      .done ((decodeCoverMC packet channel).bind (openCover lib secret))
  | .generic secret =>
    .full 3 fun header =>
      if header.getD 0 0 ≠ 0xFE then .done (.error (.text "cover header"))
      else .full (uint16 (header.drop 1)) fun sealed => .done (openCover lib secret sealed)

theorem frameReader_read (framing : Framing) :
    (frameReader lib framing).read = readFrame lib framing := by
  cases framing with
  | plain =>
    change andThen _ (fun header => andThen _ fun payload =>
      lift (.ok payload)) = _
    simp only [andThen_ok]
    rfl
  | minecraft channel secret => exact read_readMCPacketFromConn _
  | generic secret =>
    rw [readFrame, frameReader, Reader.read]
    congr 1
    funext header
    split <;> rfl

/-! ## Connections that may encrypt -/

namespace NetConn

/-- A write on the raw connection, or `secureConn.Write`: the bytes that TCP gets. -/
def write : NetConn → Bytes → NetConn × Bytes
  | .raw, data => (.raw, data)
  | .secure rd wr rdOff wrOff, data =>
    (.secure rd wr rdOff (wrOff + data.length), xorKeyStream lib wr wrOff data)

/-- One write after another. -/
def writes : NetConn → List Bytes → NetConn × Bytes
  | conn, [] => (conn, [])
  | conn, data :: others =>
    let (conn, bytes) := conn.write lib data
    let (conn, more) := conn.writes others
    (conn, bytes ++ more)

/-- What a read makes of the byte at a position of the stream: `secureConn.Read` decrypts it. -/
def decode : NetConn → Nat → UInt8 → UInt8
  | .raw => fun _ b => b
  | .secure rd _ _ _ => fun i b => b ^^^ lib.keyStream rd i

def readPos : NetConn → Nat
  | .raw => 0
  | .secure _ _ rdOff _ => rdOff

/-- The reader decodes what is written next from the position on. -/
def Encodes (conn : NetConn) (f : Nat → UInt8 → UInt8) (pos : Nat) : Prop :=
  match conn with
  | .raw => f = fun _ b => b
  | .secure _ wr _ wrOff => f = (fun i b => b ^^^ lib.keyStream wr i) ∧ pos = wrOff

end NetConn

/-- The two ends of a session: one reads with the key and at the position the other writes. -/
inductive Paired : NetConn → NetConn → Prop
  | raw : Paired .raw .raw
  | secure {rd wr key : Bytes} {rdOff wrOff off : Nat} :
      Paired (.secure rd key rdOff off) (.secure key wr off wrOff)

/-! ## Writing and reading a session -/

/-- The writes that `sessionWrite` makes for a payload. -/
def frameWrites (random : CoverRandom) (payload : Bytes) : Framing → Except Err (List Bytes)
  | .plain => .ok [putUint16 payload.length, payload]
  | .minecraft channel secret =>
    (sealCover lib random secret payload).map fun sealed =>
      [packetFrame (encodeCoverMC channel sealed)]
  | .generic secret =>
    (sealCover lib random secret payload).map fun sealed =>
      [0xFE :: putUint16 sealed.length, sealed]

/-- `sessionWrite` on a session that is alive. -/
def sessionWrite (cfg : CamoSharedConfig) (conn : NetConn) (random : CoverRandom)
    (payload : Bytes) : Except Err (NetConn × Bytes) :=
  (frameWrites lib random payload cfg.framing).map (conn.writes lib)

/-- Payloads and heartbeats, one after another. -/
def sessionWrites (cfg : CamoSharedConfig) :
    NetConn → List (CoverRandom × Bytes) → Except Err (NetConn × Bytes)
  | conn, [] => .ok (conn, [])
  | conn, (random, payload) :: frames =>
    (sessionWrite lib cfg conn random payload).bind fun (conn, bytes) =>
      (sessionWrites cfg conn frames).map fun (conn, more) => (conn, bytes ++ more)

/-- `readLoop` with a fixed config, on a connection whose reads return the given pieces: the
payloads handed to the receive channel, and the final error. An empty payload is a heartbeat. -/
def readLoop (cfg : CamoSharedConfig) (conn : NetConn) (pieces : List Bytes) :
    List Bytes × Option Err :=
  let (payloads, ending) := (frameReader lib cfg.framing).loop (conn.decode lib)
    (pieces.flatten.length + 1) ⟨pieces, conn.readPos⟩
  (payloads.filter (· ≠ []), ending)

variable {lib}

theorem Paired.encodes {sender receiver : NetConn} (paired : Paired sender receiver) :
    sender.Encodes lib (receiver.decode lib) receiver.readPos := by
  cases paired with
  | raw => rfl
  | secure => exact ⟨rfl, rfl⟩

theorem NetConn.Encodes.write (encodes : conn.Encodes lib f pos) (data : Bytes) :
    decoded f pos (conn.write lib data).2 = data ∧
      (conn.write lib data).1.Encodes lib f (pos + (conn.write lib data).2.length) := by
  cases conn with
  | raw =>
    obtain rfl : f = fun _ b => b := encodes
    exact ⟨decoded_id pos data, rfl⟩
  | secure rd wr rdOff wrOff =>
    obtain ⟨rfl, rfl⟩ := encodes
    refine ⟨xorKeyStream_xorKeyStream wr pos data, rfl, ?_⟩
    exact congrArg (pos + ·) List.length_mapIdx

theorem NetConn.Encodes.writes (encodes : conn.Encodes lib f pos) (parts : List Bytes) :
    decoded f pos (conn.writes lib parts).2 = parts.flatten ∧
      (conn.writes lib parts).1.Encodes lib f (pos + (conn.writes lib parts).2.length) := by
  induction parts generalizing conn pos with
  | nil => exact ⟨rfl, encodes⟩
  | cons data others ih =>
    obtain ⟨first, next⟩ := encodes.write data
    obtain ⟨later, last⟩ := ih next
    rw [NetConn.writes]
    refine ⟨?_, ?_⟩
    · rw [decoded_append, first, later, List.flatten_cons]
    · rw [List.length_append, ← Nat.add_assoc]
      exact last

theorem frameBytes_eq (random : CoverRandom) (payload : Bytes) (framing : Framing) :
    (frameWrites lib random payload framing).map List.flatten =
      frameBytes lib random payload framing := by
  cases framing with
  | plain => simp [frameWrites, frameBytes, Except.map]
  | minecraft _ secret | generic secret =>
    rw [frameWrites, frameBytes]
    cases sealCover lib random secret payload <;> simp [Except.map]

theorem exists_frameWrites
    (cipher : lib.newCipher (coverKey lib cfg.pluginSecret) = .ok ()) (random : CoverRandom)
    (payload : Bytes) : ∃ parts, frameWrites lib random payload cfg.framing = .ok parts := by
  obtain ⟨sealed, sealing⟩ := exists_sealCover cipher random payload
  rw [CamoSharedConfig.framing]
  split
  · rw [CamoSharedConfig.cover]
    split <;> (rw [frameWrites, sealing]; exact ⟨_, rfl⟩)
  · exact ⟨_, rfl⟩

/-- What is written consists of frames that the reader takes apart again. -/
theorem sessionWrites_holds (cipher : lib.newCipher (coverKey lib cfg.pluginSecret) = .ok ())
    (encodes : conn.Encodes lib f pos) {frames : List (CoverRandom × Bytes)}
    (accepted : ∀ frame ∈ frames, frame.2.length < 2 ^ 16 ∧ cfg.framing.Fits frame.1 frame.2) :
    ∃ conn' wire, sessionWrites lib cfg conn frames = .ok (conn', wire) ∧
      Holds (readFrame lib cfg.framing) [] (frames.map Prod.snd)
        (decoded f pos wire) := by
  induction frames generalizing conn pos with
  | nil => exact ⟨conn, [], rfl, .done⟩
  | cons frame frames ih =>
    obtain ⟨random, payload⟩ := frame
    obtain ⟨short, fits⟩ := accepted _ (.head _)
    obtain ⟨parts, written⟩ := exists_frameWrites cipher random payload
    obtain ⟨bytes, next⟩ := encodes.writes parts
    obtain ⟨conn', more, rest, holds⟩ :=
      ih next fun frame member => accepted frame (.tail _ member)
    refine ⟨conn', (conn.writes lib parts).2 ++ more, ?_, ?_⟩
    · rw [sessionWrites, sessionWrite, written]
      change (sessionWrites lib cfg (conn.writes lib parts).1 frames).map _ = _
      rw [rest]
      rfl
    · have frame : frameBytes lib random payload cfg.framing = .ok parts.flatten := by
        rw [← frameBytes_eq, written]
        rfl
      rw [decoded_append, bytes, List.map_cons]
      exact .frame (frame_frameBytes short fits frame) holds

theorem readLoop_of_holds {pieces payloads : List Bytes}
    (holds : Holds (readFrame lib cfg.framing) [] payloads (decoded (conn.decode lib) conn.readPos pieces.flatten)) :
    readLoop lib cfg conn pieces = (payloads.filter (· ≠ []), none) := by
  rw [← frameReader_read] at holds
  have silent : (frameReader lib cfg.framing).read [] = none := by
    rw [frameReader_read, readFrame_nil]
  have count := holds.length_le silent
  rw [length_decoded] at count
  rw [readLoop, Reader.loop_of_holds silent holds (Nat.lt_succ_of_le count)]

end

/-- **Round trip of a session.** With the same config on both ends, profile none or minecraft, the
reader delivers the payloads that are not empty, in order, however TCP cuts the stream. -/
theorem readLoop_frames (lib : Primitives) (cfg : CamoSharedConfig)
    (profile : cfg.profile = .none ∨ cfg.profile = .minecraft)
    (channel : cfg.pluginChannel.length ≤ 65536)
    (cipher : lib.newCipher (coverKey lib cfg.pluginSecret) = .ok ())
    (sender receiver : NetConn) (paired : Paired sender receiver)
    (frames : List (CoverRandom × Bytes)) (accepted : ∀ frame ∈ frames, frame.2.length ≤ 65535) :
    ∃ conn wire, sessionWrites lib cfg sender frames = .ok (conn, wire) ∧
      ∀ pieces : List Bytes, pieces.flatten = wire →
        readLoop lib cfg receiver pieces = ((frames.map Prod.snd).filter (· ≠ []), none) := by
  have fits : ∀ frame ∈ frames,
      frame.2.length < 2 ^ 16 ∧ cfg.framing.Fits frame.1 frame.2 := by
    intro frame member
    refine ⟨Nat.lt_succ_of_le (accepted frame member), ?_⟩
    rw [CamoSharedConfig.framing, CamoSharedConfig.hidesVPN, CamoSharedConfig.cover]
    obtain none | minecraft := profile
    · rw [none]
      trivial
    · rw [minecraft]
      exact Nat.le_trans channel (by decide)
  obtain ⟨conn, wire, written, holds⟩ := sessionWrites_holds cipher paired.encodes fits
  refine ⟨conn, wire, written, fun pieces whole => ?_⟩
  exact readLoop_of_holds (by rwa [whole])

/-- Two messages with a heartbeat between them, on an encrypted Minecraft session. -/
theorem minecraftStream_delivered :
    minecraftCamo.profile = .minecraft ∧ minecraftCamo.pluginChannel.length ≤ 65536 ∧
      Paired (.secure [1] [2] 7 9) (.secure [2] [1] 9 7) ∧
      ∃ conn wire, sessionWrites constantPrimitives minecraftCamo (.secure [1] [2] 7 9)
          [(noPad, [4, 0, 0, 0]), (noPad, []), (noPad, [1, 0])] = .ok (conn, wire) ∧
        ∀ pieces : List Bytes, pieces.flatten = wire →
          readLoop constantPrimitives minecraftCamo (.secure [2] [1] 9 7) pieces =
            ([[4, 0, 0, 0], [1, 0]], none) :=
  ⟨rfl, by decide, .secure, readLoop_frames constantPrimitives minecraftCamo (.inr rfl)
    (by decide) rfl _ _ .secure [(noPad, [4, 0, 0, 0]), (noPad, []), (noPad, [1, 0])] (by decide)⟩

end Conn
