import Mathlib.Algebra.Group.Nat.Defs
import WireguardMesh.Foundation.Effect

/-! # Minecraft framing over a connection

The byte level of `wireguard/conn`: VarInts, length-prefixed strings and byte arrays,
and packets framed by a VarInt length. A connection is the bytes its peer sends, the
bytes written to it so far, and what the network does to each write and deadline call
(`Network`); a read beyond the peer's last byte returns the error the stream ends with.
-/

namespace Conn

/-- A Go `[]byte`, or the bytes of a Go string. -/
abbrev Bytes := List UInt8

/-- The bytes of an ASCII string literal. -/
def ascii (s : String) : Bytes :=
  s.toList.map fun c => UInt8.ofNat c.toNat

/-- The `error` values of the package. -/
inductive Err
  /-- `io.EOF` -/
  | eof
  /-- `io.ErrUnexpectedEOF` -/
  | unexpectedEOF
  /-- an error of the operating system, such as an expired deadline or a reset connection -/
  | system (code : Nat)
  /-- `errors.New` -/
  | text (message : String)
  /-- `fmt.Errorf("context: %w", cause)` -/
  | wrap (context : String) (cause : Err)
  /-- `fmt.Errorf("%w (note)", cause)` -/
  | noted (cause : Err) (note : String)
  /-- `fmt.Errorf("unexpected plugin channel %q want %q", got, want)` -/
  | pluginChannel (got want : Bytes)
deriving DecidableEq

/-! ## Reading from a byte slice -/

/-- The loop of `readMCVarInt` and `readMCVarIntFromConn`, with the bytes read so far and their
value; `ended` is the error at the end of the input. -/
def varIntLoop (ended : Err) : Bytes → Nat → Nat → Except Err (Nat × Bytes)
  | [], numRead, _ => if numRead > 5 then .error (.text "varint too long") else .error ended
  | b :: s, numRead, result =>
    if numRead > 5 then .error (.text "varint too long")
    else
      let result := result ||| ((b &&& 0x7F).toNat <<< (7 * numRead))
      if b &&& 0x80 = 0 then .ok (result, s) else varIntLoop ended s (numRead + 1) result

/-- `readMCVarInt`: the value and the unread bytes of a `bytes.Reader`. -/
def readMCVarInt (r : Bytes) : Except Err (Nat × Bytes) :=
  varIntLoop .eof r 0 0

/-- A VarInt length followed by that many bytes, as `readMCString` and `readMCByteArray`
read them. -/
def readSized (invalid : String) (r : Bytes) : Except Err (Bytes × Bytes) :=
  (readMCVarInt r).bind fun (size, r) =>
    if size > r.length then .error (.text invalid) else .ok (r.take size, r.drop size)

def readMCString (r : Bytes) : Except Err (Bytes × Bytes) :=
  readSized "invalid string size" r

def readMCByteArray (r : Bytes) : Except Err (Bytes × Bytes) :=
  readSized "invalid byte array size" r

/-- `binary.Read` of a big-endian `uint16`. -/
def readUint16 : Bytes → Except Err (Nat × Bytes)
  | hi :: lo :: r => .ok (hi.toNat * 256 + lo.toNat, r)
  | [_] => .error .unexpectedEOF
  | [] => .error .eof

/-- `mcPacketHead`: the packet id and the bytes after it. -/
def mcPacketHead (payload : Bytes) : Except Err (Nat × Bytes) :=
  readMCVarInt payload

/-! ## Writing to a buffer -/

/-- The loop of `writeMCVarInt`; a 32-bit value takes at most five rounds. -/
def varIntBytes : Nat → Nat → Bytes
  | 0, _ => []
  | fuel + 1, u =>
    if u < 128 then [UInt8.ofNat u]
    else UInt8.ofNat (u % 128 + 128) :: varIntBytes fuel (u / 128)

def writeMCVarInt (value : Nat) : Bytes :=
  varIntBytes 5 (value % 2 ^ 32)

def writeMCString (s : Bytes) : Bytes :=
  writeMCVarInt s.length ++ s

def writeMCByteArray (data : Bytes) : Bytes :=
  writeMCVarInt data.length ++ data

/-- A packet with its length in front. -/
def packetFrame (payload : Bytes) : Bytes :=
  writeMCVarInt payload.length ++ payload

/-! ## The connection -/

/-- What the network does in one run: the error of a read once the peer sends nothing more, and the
outcome of every `writeAll` and `SetDeadline` call. -/
structure Network where
  ended : Err
  writes : Nat → Option Err
  deadlines : Nat → Option Err

/-- A connection: the bytes still to be read, the successful writes, and the numbers of `writeAll`
and `SetDeadline` calls so far. -/
structure Stream where
  input : Bytes
  sent : List Bytes
  writes : Nat
  deadlines : Nat
deriving DecidableEq

/-- A connection just accepted, whose peer is going to send the given bytes. -/
def Stream.start (input : Bytes) : Stream :=
  ⟨input, [], 0, 0⟩

/-- A procedure on a connection. -/
abbrev Session := EStateM Err Stream

variable (net : Network)

/-- The packet at the head of the input, and the bytes after it: the VarInt length, its bound, and
`io.ReadFull` of the payload. -/
def splitPacket (ended : Err) (input : Bytes) : Except Err (Bytes × Bytes) :=
  (varIntLoop ended input 0 0).bind fun (size, rest) =>
    if size > 2 ^ 20 then .error (.text ("invalid mc packet size " ++ toString size))
    else if rest.length < size then
      .error (if ended = .eof ∧ rest ≠ [] then .unexpectedEOF else ended)
    else .ok (rest.take size, rest.drop size)

/-- `readMCPacket`. The connection is given up after a read error, so what such a read
consumed is not recorded. -/
def readMCPacket : Session Bytes := fun s =>
  match splitPacket net.ended s.input with
  | .ok (payload, rest) => .ok payload { s with input := rest }
  | .error e => .error e s

/-- `writeAll`: the loop over `conn.Write` hands over all bytes or returns an error. -/
def writeAll (data : Bytes) : Session Unit := fun s =>
  if data = [] then .ok () s
  else match net.writes s.writes with
  | none => .ok () { s with sent := s.sent ++ [data], writes := s.writes + 1 }
  | some e => .error e { s with writes := s.writes + 1 }

def writeMCPacket (payload : Bytes) : Session Unit :=
  writeAll net (packetFrame payload)

/-- `conn.SetDeadline`. -/
def setDeadline : Session Unit := fun s =>
  match net.deadlines s.deadlines with
  | none => .ok () { s with deadlines := s.deadlines + 1 }
  | some e => .error e { s with deadlines := s.deadlines + 1 }

/-- `fmt.Errorf("context: %w", err)` around a procedure. -/
def within {α : Type} (context : String) (x : Session α) : Session α :=
  Effect.mapError (.wrap context) x

variable {net}

theorem readMCPacket_eq_ok {s s' : Stream} {payload : Bytes} : readMCPacket net s = .ok payload s' ↔
      ∃ rest, splitPacket net.ended s.input = .ok (payload, rest) ∧
        s' = { s with input := rest } := by
  rw [readMCPacket]
  cases splitPacket net.ended s.input with
  | error e => simp
  | ok parts =>
    simp only [EStateM.Result.ok.injEq, Except.ok.injEq, Prod.ext_iff]
    constructor
    · rintro ⟨rfl, rfl⟩
      exact ⟨parts.2, ⟨rfl, rfl⟩, rfl⟩
    · rintro ⟨rest, ⟨rfl, rfl⟩, rfl⟩
      exact ⟨rfl, rfl⟩

theorem packetFrame_ne_nil (payload : Bytes) : packetFrame payload ≠ [] := by
  intro empty
  have noHead : writeMCVarInt payload.length = [] := (List.append_eq_nil_iff.mp empty).1
  rw [writeMCVarInt, varIntBytes] at noHead
  split at noHead <;> exact List.cons_ne_nil _ _ noHead

/-- A packet write succeeds when the network takes it, and is then on record. -/
theorem writeMCPacket_eq_ok {s s' : Stream} {payload : Bytes} {u : Unit} :
    writeMCPacket net payload s = .ok u s' ↔ net.writes s.writes = none ∧
        s' = { s with sent := s.sent ++ [packetFrame payload], writes := s.writes + 1 } := by
  rw [writeMCPacket, writeAll, if_neg (packetFrame_ne_nil payload)]
  cases net.writes s.writes with
  | none => simp [eq_comm]
  | some e => simp

theorem setDeadline_eq_ok {s s' : Stream} {u : Unit} : setDeadline net s = .ok u s' ↔
      net.deadlines s.deadlines = none ∧ s' = { s with deadlines := s.deadlines + 1 } := by
  rw [setDeadline]
  cases net.deadlines s.deadlines with
  | none => simp [eq_comm]
  | some e => simp

theorem within_eq_ok {α : Type} {context : String} {x : Session α} {s s' : Stream} {a : α} :
    within context x s = .ok a s' ↔ x s = .ok a s' :=
  Effect.mapError_eq_ok

end Conn
