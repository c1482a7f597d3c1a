import WireguardMesh.Foundation.StickyReader
import WireguardMesh.Net.Addr

/-! # Fields and frames of the control plane

The frame `[u8 type][u32 seq][payload]` that agents, the Master and the admin UI exchange, and
the fields a payload is made of. All integers are big-endian. For each kind of field a lemma says
that reading gives back what was written (`reads_str`, `reads_ip`), that reading returns on every
input, and that it leaves a rest of the input. An address comes back without its zone
(`unzoned`), since only its bytes are written.
-/

namespace Wire

open Sticky

open Sticky (Read Reader Reads Safe Meets bigEndian ofBigEndian)

abbrev Bytes := List UInt8

/-- What a frame or a payload is refused for. -/
inductive WireError where
  | short
  | frameTooLarge (size : Nat)
  | badIPLength (n : UInt8)
  | tooMany (what : String) (n : Nat)
  | releaseTooLarge (n : Int)
deriving DecidableEq, Repr

def WireError.text : WireError → String
  | short => "wire: frame truncated"
  | frameTooLarge size => "wire: frame too large (" ++ toString size ++ ")"
  | badIPLength n => "wire: bad ip length " ++ toString n.toNat
  | tooMany what n => "wire: too many " ++ what ++ " (" ++ toString n ++ ")"
  | releaseTooLarge n => "wire: release manifest too large (" ++ toString n ++ ")"

/-! ## Frames -/

def headerLen : Nat := 5

def maxFrameBytes : Nat := 1 <<< 20

structure Frame where
  type : UInt8
  seq : UInt32
  payload : Bytes
deriving DecidableEq, Repr

def encodeFrame (type : UInt8) (seq : UInt32) (payload : Bytes) : Bytes :=
  type :: bigEndian 4 seq.toNat ++ payload

def decodeFrame (b : Bytes) : Except WireError Frame :=
  match b with
  | type :: rest =>
    if b.length < headerLen then .error .short
    else if maxFrameBytes < b.length then .error (.frameTooLarge b.length)
    else .ok ⟨type, UInt32.ofNat (ofBigEndian (rest.take 4)), rest.drop 4⟩
  | [] => .error .short

theorem ofNat_bigEndian_uint32 (v : UInt32) :
    UInt32.ofNat (ofBigEndian (bigEndian 4 v.toNat)) = v := by
  have fits := v.toNat_lt
  rw [ofBigEndian_bigEndian_of_lt (by omega), UInt32.ofNat_toNat]

theorem decodeFrame_encodeFrame (type : UInt8) (seq : UInt32) {payload : Bytes}
    (fits : headerLen + payload.length ≤ maxFrameBytes) :
    decodeFrame (encodeFrame type seq payload) = .ok ⟨type, seq, payload⟩ := by
  have length : (type :: (bigEndian 4 seq.toNat ++ payload)).length =
      headerLen + payload.length := by
    rw [List.length_cons, List.length_append, length_bigEndian, headerLen]
    omega
  have four := length_bigEndian 4 seq.toNat
  rw [encodeFrame, List.cons_append, decodeFrame, length,
    if_neg (Nat.not_lt.mpr (Nat.le_add_right _ _)), if_neg (Nat.not_lt.mpr fits),
    List.take_left' four, List.drop_left' four, ofNat_bigEndian_uint32]

/-! ## Writing -/

def maxString : Nat := 4096

def writeU8 (v : UInt8) : Bytes := [v]

def writeU16 (v : UInt16) : Bytes := bigEndian 2 v.toNat

def writeU32 (v : UInt32) : Bytes := bigEndian 4 v.toNat

def writeU64 (v : UInt64) : Bytes := bigEndian 8 v.toNat

def writeI64 (v : Int64) : Bytes := writeU64 v.toUInt64

def writeBool (v : Bool) : Bytes :=
  if v then writeU8 1 else writeU8 0

/-- A string, cut off at the limit, after its length. -/
def writeStr (s : Bytes) : Bytes :=
  let s := s.take maxString
  writeU16 (UInt16.ofNat s.length) ++ s

/-- An address after the number of its bytes, which is 0 for the zero address. An IPv4-mapped one
is written as IPv4. -/
def writeIp (addr : Net.Addr) : Bytes :=
  match addr.unmap with
  | .zero => writeU8 0
  | .v4 bits => writeU8 4 ++ bigEndian 4 bits.toNat
  | .v6 bits _ => writeU8 16 ++ bigEndian 16 bits.toNat

/-! ## Reading -/

abbrev Decoder := Read UInt8 WireError

/-- A number of so many bytes; 0 after an error. -/
def readNat (n : Nat) : Decoder Nat := do
  let v ← Sticky.bytes .short n
  pure (ofBigEndian (v.getD []))

def readU8 : Decoder UInt8 := UInt8.ofNat <$> readNat 1

def readU16 : Decoder UInt16 := UInt16.ofNat <$> readNat 2

def readU32 : Decoder UInt32 := UInt32.ofNat <$> readNat 4

def readU64 : Decoder UInt64 := UInt64.ofNat <$> readNat 8

def readI64 : Decoder Int64 := UInt64.toInt64 <$> readU64

def readBool : Decoder Bool := (· == 1) <$> readU8

def readStr : Decoder Bytes := do
  let n ← readU16
  let v ← Sticky.bytes .short n.toNat
  pure (v.getD [])

def readIp : Decoder Net.Addr := do
  let n ← readU8
  if n = 0 then pure .zero
  else if n = 4 then do
    let b ← Sticky.bytes .short 4
    match b with
    | none => pure .zero
    | some b => pure (.v4 (BitVec.ofNat 32 (ofBigEndian b)))
  else if n = 16 then do
    let b ← Sticky.bytes .short 16
    match b with
    | none => pure .zero
    | some b => pure (.v6 (BitVec.ofNat 128 (ofBigEndian b)) [])
  else do
    Sticky.fail (.badIPLength n)
    pure .zero

/-- A count, which is an error above the limit. -/
def readCount (max : Nat) (what : String) : Decoder Nat := do
  let n ← readU16
  if max < n.toNat then
    Sticky.fail (.tooMany what n.toNat)
    pure n.toNat
  else pure n.toNat

/-! ## A field is read as it was written -/

theorem reads_nat {n : Nat} {w : Bytes} (length : w.length = n) :
    Reads (readNat n) w (ofBigEndian w) := by
  have field := Reads.bytes WireError.short (congrArg Nat.cast length)
  exact field.bind_nil (.pure (ofBigEndian w))

theorem reads_bigEndian (n : Nat) {v : Nat} (fits : v < 256 ^ n) :
    Reads (readNat n) (bigEndian n v) v := by
  have field := reads_nat (length_bigEndian n v)
  rwa [ofBigEndian_bigEndian_of_lt fits] at field

theorem reads_u8 (v : UInt8) : Reads readU8 (writeU8 v) v := by
  have fits := v.toNat_lt
  have field := (reads_bigEndian 1 (v := v.toNat) (by omega)).map (f := UInt8.ofNat)
  have one : bigEndian 1 v.toNat = writeU8 v := by
    rw [bigEndian, bigEndian, List.nil_append, UInt8.ofNat_toNat, writeU8]
  rwa [UInt8.ofNat_toNat, one] at field

theorem reads_u16 (v : UInt16) : Reads readU16 (writeU16 v) v := by
  have fits := v.toNat_lt
  have field := (reads_bigEndian 2 (v := v.toNat) (by omega)).map (f := UInt16.ofNat)
  rwa [UInt16.ofNat_toNat] at field

theorem reads_u32 (v : UInt32) : Reads readU32 (writeU32 v) v := by
  have fits := v.toNat_lt
  have field := (reads_bigEndian 4 (v := v.toNat) (by omega)).map (f := UInt32.ofNat)
  rwa [UInt32.ofNat_toNat] at field

theorem reads_u64 (v : UInt64) : Reads readU64 (writeU64 v) v := by
  have fits := v.toNat_lt
  have field := (reads_bigEndian 8 (v := v.toNat) (by omega)).map (f := UInt64.ofNat)
  rwa [UInt64.ofNat_toNat] at field

theorem reads_i64 (v : Int64) : Reads readI64 (writeI64 v) v := by
  have field := (reads_u64 v.toUInt64).map (f := UInt64.toInt64)
  rwa [Int64.toInt64_toUInt64] at field

theorem reads_bool (v : Bool) : Reads readBool (writeBool v) v := by
  cases v with
  | false => exact (reads_u8 0).map
  | true => exact (reads_u8 1).map

theorem toNat_ofNat_of_le {n max : Nat} (fits : n ≤ max) (small : max < 2 ^ 16) :
    (UInt16.ofNat n).toNat = n := by
  rw [UInt16.toNat_ofNat']
  exact Nat.mod_eq_of_lt (Nat.lt_of_le_of_lt fits small)

theorem reads_str {s : Bytes} (fits : s.length ≤ maxString) : Reads readStr (writeStr s) s := by
  have length := toNat_ofNat_of_le fits (by decide)
  have field := Reads.bytes WireError.short (congrArg Nat.cast length.symm)
  rw [writeStr, List.take_of_length_le fits]
  refine (reads_u16 _).bind ?_
  exact field.bind_nil (.pure s)

/-- The address without its zone. -/
def unzoned : Net.Addr → Net.Addr
  | .v6 bits _ => .v6 bits []
  | addr => addr

theorem ofNat_bigEndian_bits {w : Nat} (n : Nat) (bits : BitVec w) (width : 2 ^ w = 256 ^ n) :
    BitVec.ofNat w (ofBigEndian (bigEndian n bits.toNat)) = bits := by
  rw [ofBigEndian_bigEndian_of_lt (width ▸ bits.isLt), BitVec.ofNat_toNat,
    BitVec.setWidth_eq]

/-- **An address loses its zone.** Any other address that is not IPv4-mapped is read as it was
written. -/
theorem reads_ip {addr : Net.Addr} (plain : addr.is4In6 = false) :
    Reads readIp (writeIp addr) (unzoned addr) := by
  cases addr with
  | zero => exact (reads_u8 0).bind (.pure Net.Addr.zero)
  | v4 bits =>
    have field : Reads (bytes WireError.short 4) (bigEndian 4 bits.toNat) _ :=
      .bytes _ (by rw [length_bigEndian]; rfl)
    refine (reads_u8 4).bind ?_
    rw [if_neg (by decide), if_pos rfl]
    refine field.bind_nil ?_
    change Reads (pure (Net.Addr.v4 (BitVec.ofNat 32 (ofBigEndian (bigEndian 4 _))))) [] _
    rw [ofNat_bigEndian_bits 4 bits (by decide)]
    exact .pure _
  | v6 bits zone =>
    have field : Reads (bytes WireError.short 16) (bigEndian 16 bits.toNat) _ :=
      .bytes _ (by rw [length_bigEndian]; rfl)
    have written : writeIp (.v6 bits zone) = writeU8 16 ++ bigEndian 16 bits.toNat := by
      rw [writeIp, Net.Addr.unmap, plain]
      rfl
    rw [written]
    refine (reads_u8 16).bind ?_
    rw [if_neg (by decide), if_neg (by decide), if_pos rfl]
    refine field.bind_nil ?_
    change Reads (pure (Net.Addr.v6 (BitVec.ofNat 128 (ofBigEndian (bigEndian 16 _))) [])) [] _
    rw [ofNat_bigEndian_bits 16 bits (by decide)]
    exact .pure _

theorem reads_count {n max : Nat} (what : String) (fits : n ≤ max) (small : max < 2 ^ 16) :
    Reads (readCount max what) (writeU16 (UInt16.ofNat n)) n := by
  refine (reads_u16 _).bind_nil ?_
  rw [toNat_ofNat_of_le fits small, if_neg (Nat.not_lt.mpr fits)]
  exact .pure n

/-! ## A field of arbitrary bytes -/

theorem safe_nat (n : Nat) : Safe (readNat n) :=
  (Safe.bytes _ (Int.natCast_nonneg n)).bind fun _ => .pure _

theorem safe_u8 : Safe readU8 := (safe_nat 1).map

theorem safe_u16 : Safe readU16 := (safe_nat 2).map

theorem safe_u32 : Safe readU32 := (safe_nat 4).map

theorem safe_u64 : Safe readU64 := (safe_nat 8).map

theorem safe_i64 : Safe readI64 := safe_u64.map

theorem safe_bool : Safe readBool := safe_u8.map

theorem safe_str : Safe readStr :=
  safe_u16.bind fun n => (Safe.bytes _ (Int.natCast_nonneg n.toNat)).bind fun _ => .pure _

theorem safe_ip : Safe readIp := by
  refine safe_u8.bind fun n => .ite (.pure _) (.ite ?four (.ite ?sixteen ?other))
  case four =>
    refine (Safe.bytes _ (by decide)).bind fun b => ?_
    cases b with
    | none => exact .pure _
    | some b => exact .pure _
  case sixteen =>
    refine (Safe.bytes _ (by decide)).bind fun b => ?_
    cases b with
    | none => exact .pure _
    | some b => exact .pure _
  case other => exact (Safe.fail _).bind fun _ => .pure _

theorem meets_count (max : Nat) (what : String) : Meets (readCount max what) fun n => n ≤ max := by
  refine safe_u16.meets.bind fun n => .ite ?_ (.pure fun within _ => Nat.not_lt.mp within)
  exact (Meets.fail _ fun _ => False).bind fun _ => .pure fun impossible => impossible.elim

end Wire
