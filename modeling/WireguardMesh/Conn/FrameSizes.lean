import WireguardMesh.Conn.FrameStream
import WireguardMesh.Foundation.Runs

/-! # How large the frames of a session are

The length field of a generic cover frame has 16 bits, and the sealed payload is up to 32 bytes
longer than the payload that `Send` accepts: the round trip holds exactly for the payloads whose
sealed form fits (`Conn.generic_roundTrip_iff`).

A peer that knows the secret writes what it likes. What `readLoop` delivers is bounded by the
framing alone (`Conn.Framing.Carries`), and a frame that is larger than the buffers of the device
makes `receive` fail; eleven of them stop the receive routine (`Conn.frames_fit_iff`).

The VarInts in front of packets are read up to their sixth byte, one more than they are written
with (`Conn.varInts_iff`).
-/

namespace Conn

open Effect Streams

variable {payload input rest : Bytes} {cfg : CamoSharedConfig} {size : Nat}

section

variable {lib : Primitives}

theorem openCover_length {secret sealed : Bytes}
    (opened : openCover lib secret sealed = .ok payload) : payload.length + 17 ≤ sealed.length := by
  rw [openCover] at opened
  split at opened
  · cases opened
  · obtain ⟨_, _, opened⟩ := except_bind_eq_ok.mp opened
    dsimp only at opened
    split at opened
    · cases opened
    · obtain rfl := Except.ok.inj opened
      simp only [List.length_drop, List.length_take, xorKeyStream, List.length_mapIdx]
      omega

/-! ## Generic cover frames -/

variable (lib) in
def writeCoverFrame (random : CoverRandom) (cfg : CamoSharedConfig) (payload : Bytes) :
    Except Err Bytes :=
  frameBytes lib random payload cfg.cover

variable (lib) in
def readCoverFrame (cfg : CamoSharedConfig) : Read UInt8 Err Bytes :=
  readFrame lib cfg.cover

theorem cover_generic (hidden : cfg.profile ≠ .none) (other : cfg.profile ≠ .minecraft) :
    cfg.cover = .generic cfg.pluginSecret := by
  rw [CamoSharedConfig.cover]
  cases profile : cfg.profile with
  | none => exact (hidden profile).elim
  | minecraft => exact (other profile).elim
  | source | terraria | steam | bedrock | fiveM | unknown => rfl

/-- A sealed payload that is too long for the length field is cut off by the reader. -/
theorem readFrame_generic_of_long
    {secret sealed : Bytes} (size : 65536 ≤ sealed.length) (sizes : sealed.length ≤ 65567)
    (long : 31 ≤ payload.length) (rest : Bytes) :
    readFrame lib (.generic secret) (0xFE :: putUint16 sealed.length ++ sealed ++ rest) ≠
      some (.ok (payload, rest)) := by
  intro answer
  let n := uint16 (putUint16 sealed.length)
  have few : n ≤ 31 := by
    change uint16 (putUint16 sealed.length) ≤ 31
    rw [uint16_putUint16]
    omega
  have cut : readFrame lib (.generic secret)
      (0xFE :: putUint16 sealed.length ++ sealed ++ rest) =
        Streams.lift (openCover lib secret ((sealed ++ rest).take n)) ((sealed ++ rest).drop n) := by
    change andThen (full n) (fun sealed => Streams.lift (openCover lib secret sealed))
      (sealed ++ rest) = _
    rw [andThen, full, if_neg (by rw [List.length_append]; omega)]
  rw [cut] at answer
  have bound := openCover_length (Streams.lift_eq_ok answer)
  rw [List.length_take] at bound
  omega

theorem writeCoverFrame_generic {random : CoverRandom} {bytes : Bytes}
    (hidden : cfg.profile ≠ .none) (other : cfg.profile ≠ .minecraft)
    (written : writeCoverFrame lib random cfg payload = .ok bytes) :
    ∃ sealed, sealCover lib random cfg.pluginSecret payload = .ok sealed ∧
      bytes = 0xFE :: putUint16 sealed.length ++ sealed := by
  rw [writeCoverFrame, cover_generic hidden other, frameBytes] at written
  obtain ⟨sealed, sealing, framed⟩ := except_map_eq_ok.mp written
  exact ⟨sealed, sealing, framed.symm⟩

end

/-- **Generic cover frames.** What `writeCoverFrame` wrote for a payload that `Send` accepts is
read back exactly if the sealed payload fits the 16 bits of its length. -/
theorem generic_roundTrip_iff (lib : Primitives) (cfg : CamoSharedConfig)
    (hidden : cfg.profile ≠ .none) (other : cfg.profile ≠ .minecraft) (random : CoverRandom)
    (payload : Bytes) (accepted : payload.length ≤ 65535) (bytes : Bytes)
    (written : writeCoverFrame lib random cfg payload = .ok bytes) (rest : Bytes) :
    readCoverFrame lib cfg (bytes ++ rest) = some (.ok (payload, rest)) ↔
      17 + payload.length + random.pad.length ≤ 65535 := by
  obtain ⟨sealed, sealing, rfl⟩ := writeCoverFrame_generic hidden other written
  have size := sealCover_length sealing
  have padSize := random.pad_length
  rw [readCoverFrame, cover_generic hidden other]
  constructor
  · intro answer
    by_contra long
    exact readFrame_generic_of_long (by omega) (by omega) (by omega) rest answer
  · intro fits
    exact frame_generic (by omega) sealing rest

def steamCamo : CamoSharedConfig :=
  { plainCamo with profile := .steam }

theorem steamFrame_returned : steamCamo.profile ≠ .none ∧ steamCamo.profile ≠ .minecraft ∧
      ∃ bytes, writeCoverFrame constantPrimitives noPad steamCamo [4, 0, 0, 0] = .ok bytes ∧
        (readCoverFrame constantPrimitives steamCamo (bytes ++ [0xFE]) =
            some (.ok ([4, 0, 0, 0], [0xFE])) ↔
          17 + [4, 0, 0, 0].length + noPad.pad.length ≤ 65535) :=
  ⟨nofun, nofun, _, rfl,
    generic_roundTrip_iff _ steamCamo nofun nofun noPad [4, 0, 0, 0] (by decide) _ rfl [0xFE]⟩

/-- The longest payload that `Send` accepts, without padding: the reader gets sixteen of its
65552 sealed bytes. -/
theorem longestPayload_lost :
    ∃ bytes, writeCoverFrame constantPrimitives noPad steamCamo (List.replicate 65535 4) =
        .ok bytes ∧ readCoverFrame constantPrimitives steamCamo (bytes ++ []) ≠
        some (.ok (List.replicate 65535 4, [])) := by
  obtain ⟨sealed, sealing⟩ : ∃ sealed, sealCover constantPrimitives noPad steamCamo.pluginSecret
      (List.replicate 65535 4) = .ok sealed :=
    exists_sealCover (show constantPrimitives.newCipher _ = .ok () from rfl) _ _
  have size : sealed.length = 65552 := by
    rw [sealCover_length sealing, List.length_replicate]
    rfl
  have generic : steamCamo.cover = .generic steamCamo.pluginSecret := rfl
  refine ⟨0xFE :: putUint16 sealed.length ++ sealed, ?_, ?_⟩
  · rw [writeCoverFrame, generic, frameBytes, sealing, Except.map]
  · rw [readCoverFrame, generic]
    exact readFrame_generic_of_long (by omega) (by omega)
      (by rw [List.length_replicate]; decide) []

/-! ## The largest payloads -/

/-- A VarInt is read up to the first byte without a continuation bit, and takes enough bytes for
its value. -/
theorem varIntLoop_shape {ended : Err} {k acc value : Nat} (below : acc < 2 ^ (7 * k))
    (read : varIntLoop ended input k acc = .ok (value, rest)) :
    ∃ more last, input = more ++ last :: rest ∧ (∀ b ∈ more, b &&& 0x80 ≠ 0) ∧ last &&& 0x80 = 0 ∧
      k + more.length ≤ 5 ∧ value < 2 ^ (7 * (k + more.length + 1)) := by
  induction input generalizing k acc with
  | nil =>
    rw [varIntLoop] at read
    split at read <;> cases read
  | cons b input ih =>
    rw [varIntLoop] at read
    split at read
    · cases read
    · next few =>
      have next : acc ||| (b &&& 0x7F).toNat <<< (7 * k) < 2 ^ (7 * (k + 1)) := by
        have bits : (b &&& 0x7F).toNat < 128 := by
          rw [UInt8.toNat_and]
          exact Nat.lt_of_le_of_lt Nat.and_le_right (by decide)
        have power : 2 ^ (7 * (k + 1)) = 2 ^ (7 * k) * 128 := by
          rw [Nat.mul_add, Nat.pow_add]
        have top : 2 ^ (7 * k) * ((b &&& 0x7F).toNat + 1) ≤ 2 ^ (7 * k) * 128 :=
          Nat.mul_le_mul_left _ bits
        rw [or_shiftLeft_of_lt _ below, power]
        rw [Nat.mul_add] at top
        omega
      split at read
      · next stop =>
        cases read
        exact ⟨[], b, rfl, List.forall_mem_nil _, stop, Nat.le_of_not_gt few, next⟩
      · next goOn =>
        obtain ⟨more, last, rfl, continued, stop, size, bound⟩ := ih next read
        rw [Nat.add_assoc k, Nat.add_comm 1] at size bound
        exact ⟨b :: more, last, rfl, List.forall_mem_cons.mpr ⟨goOn, continued⟩, stop, size, bound⟩

theorem varIntBytes_length_of_lt {fuel u n : Nat} (some : 0 < n) (bound : u < 128 ^ n) :
    (varIntBytes fuel u).length ≤ n := by
  induction fuel generalizing u n with
  | zero => exact Nat.zero_le n
  | succ fuel ih =>
    rw [varIntBytes]
    split
    · exact some
    · next large =>
      obtain ⟨n, rfl⟩ := Nat.exists_eq_add_one_of_ne_zero (Nat.ne_of_gt some)
      have more : 0 < n := by
        by_contra none
        obtain rfl : n = 0 := Nat.eq_zero_of_not_pos none
        exact large (by simpa using bound)
      rw [Nat.pow_succ] at bound
      exact Nat.succ_le_succ (ih more (Nat.div_lt_of_lt_mul (by rwa [Nat.mul_comm])))

theorem readMCVarInt_length {value : Nat} (read : readMCVarInt input = .ok (value, rest)) :
    (writeMCVarInt value).length + rest.length ≤ input.length := by
  obtain ⟨more, last, rfl, _, _, _, bound⟩ := varIntLoop_shape (by decide) read
  have fewer : (writeMCVarInt value).length ≤ more.length + 1 := by
    refine varIntBytes_length_of_lt (Nat.succ_pos _) (Nat.lt_of_le_of_lt (Nat.mod_le _ _) ?_)
    rwa [Nat.zero_add, Nat.pow_mul] at bound
  rw [List.length_append, List.length_cons]
  omega

theorem readSized_length {invalid : String} {data : Bytes}
    (read : readSized invalid input = .ok (data, rest)) :
    (writeMCVarInt data.length).length + data.length + rest.length ≤ input.length := by
  rw [readSized] at read
  obtain ⟨⟨size, tail⟩, head, read⟩ := except_bind_eq_ok.mp read
  dsimp only at read
  split at read
  · cases read
  · next enough =>
    cases read
    have shorter := readMCVarInt_length head
    rw [List.length_take, List.length_drop, Nat.min_eq_left (Nat.le_of_not_gt enough)]
    omega

theorem lt_pow_varIntBytes_length {fuel u : Nat} (fits : u < 128 ^ fuel) :
    u < 128 ^ (varIntBytes fuel u).length := by
  induction fuel generalizing u with
  | zero => exact fits
  | succ fuel ih =>
    rw [varIntBytes]
    split
    · next small => exact small
    · rw [List.length_cons, Nat.pow_succ]
      rw [Nat.pow_succ] at fits
      have rest := ih (Nat.div_lt_of_lt_mul (by rwa [Nat.mul_comm]))
      exact (Nat.div_lt_iff_lt_mul (by decide)).mp rest

theorem writeMCVarInt_length_mono {a b : Nat} (le : a ≤ b) (fits : b < 2 ^ 32) :
    (writeMCVarInt a).length ≤ (writeMCVarInt b).length := by
  rw [writeMCVarInt, writeMCVarInt, Nat.mod_eq_of_lt fits, Nat.mod_eq_of_lt (by omega)]
  have some : 0 < (varIntBytes 5 b).length := by
    rw [varIntBytes]
    split <;> exact Nat.succ_pos _
  exact varIntBytes_length_of_lt some
    (Nat.lt_of_le_of_lt le (lt_pow_varIntBytes_length (fits.trans (by decide))))

/-- `readMCVarIntFromConn` on the bytes of a connection. -/
def varIntFromConn : Read UInt8 Err Nat :=
  (readMCVarIntFromConn (fun value => .done (.ok value)) 6 0 0).read

/-- The first byte without a continuation bit is the sixth one. -/
def EndsSixth (input : Bytes) : Prop :=
  ∃ more last rest, input = more ++ last :: rest ∧ more.length = 5 ∧
    (∀ b ∈ more, b &&& 0x80 ≠ 0) ∧ last &&& 0x80 = 0

theorem varIntLoop_of_more {more : Bytes} {last : UInt8} (ended : Err) (rest : Bytes) {k : Nat}
    (acc : Nat) (continued : ∀ b ∈ more, b &&& 0x80 ≠ 0) (stop : last &&& 0x80 = 0)
    (few : k + more.length ≤ 5) :
    ∃ value, varIntLoop ended (more ++ last :: rest) k acc = .ok (value, rest) := by
  induction more generalizing k acc with
  | nil =>
    have room : ¬ k > 5 := Nat.not_lt.mpr few
    exact ⟨_, by rw [List.nil_append, varIntLoop, if_neg room, if_pos stop]⟩
  | cons b more ih =>
    rw [List.length_cons] at few
    obtain ⟨goOn, continued⟩ := List.forall_mem_cons.mp continued
    obtain ⟨value, read⟩ :=
      ih (k := k + 1) (acc ||| (b &&& 0x7F).toNat <<< (7 * k)) continued (by omega)
    exact ⟨value, by rw [List.cons_append, varIntLoop, if_neg (by omega), if_neg goOn, read]⟩

/-- Only the error at the end of the input depends on what is read from. -/
theorem varIntLoop_ok_iff (ended other : Err) {k acc value : Nat} :
    varIntLoop ended input k acc = .ok (value, rest) ↔
      varIntLoop other input k acc = .ok (value, rest) := by
  induction input generalizing k acc with
  | nil =>
    rw [varIntLoop, varIntLoop]
    split <;> simp only [reduceCtorEq]
  | cons b input ih =>
    rw [varIntLoop, varIntLoop]
    split
    · rfl
    · dsimp only
      split
      · rfl
      · exact ih

theorem varIntFromConn_eq_ok {value : Nat} :
    varIntFromConn input = some (.ok (value, rest)) ↔ readMCVarInt input = .ok (value, rest) := by
  rw [varIntFromConn, read_readMCVarIntFromConn _ rfl, readMCVarInt, varIntLoop_ok_iff .eof blocked]
  change andThen _ (fun value => Streams.lift (.ok value)) input = _ ↔ _
  rw [andThen_ok]
  cases varIntLoop blocked input 0 0 with
  | ok parts => exact Option.some_inj
  | error e =>
    rw [arrived]
    split <;> simp

/-- **VarInts.** What is written is read back by both readers, which stop right after it, and they
agree on every input. They take at most five bytes, exactly if the first byte without a
continuation bit is not the sixth one. -/
theorem varInts_iff (input : Bytes) : (∀ value < 2 ^ 32, ∀ rest,
      readMCVarInt (writeMCVarInt value ++ rest) = .ok (value, rest) ∧
        varIntFromConn (writeMCVarInt value ++ rest) = some (.ok (value, rest))) ∧
    (∀ value rest, varIntFromConn input = some (.ok (value, rest)) ↔
      readMCVarInt input = .ok (value, rest)) ∧
    ((∀ value rest, readMCVarInt input = .ok (value, rest) →
        ∃ used, input = used ++ rest ∧ used.length ≤ 5 ∧ value < 2 ^ 35) ↔ ¬ EndsSixth input) := by
  refine ⟨fun value fits rest => ?_, fun _ _ => varIntFromConn_eq_ok, fun short => ?_,
    fun never value rest read => ?_⟩
  · have read := readMCVarInt_writeMCVarInt fits rest
    exact ⟨read, varIntFromConn_eq_ok.mpr read⟩
  · rintro ⟨more, last, rest, rfl, five, continued, stop⟩
    obtain ⟨value, read⟩ :=
      varIntLoop_of_more (k := 0) .eof rest 0 continued stop (by rw [five])
    obtain ⟨used, same, few, _⟩ := short value rest read
    have sizes := congrArg List.length same
    simp only [List.length_append, List.length_cons] at sizes
    omega
  · obtain ⟨more, last, rfl, continued, stop, size, bound⟩ := varIntLoop_shape (by decide) read
    have few : more.length < 5 := Nat.lt_of_le_of_ne (by omega) fun five =>
      never ⟨more, last, rest, rfl, five, continued, stop⟩
    exact ⟨more ++ [last], List.append_cons more last rest, by rw [List.length_append]; exact few,
      bound.trans_le (Nat.pow_le_pow_right (by decide) (by omega))⟩

theorem sixBytes_read : readMCVarInt [0x80, 0x80, 0x80, 0x80, 0x80, 0x01] = .ok (2 ^ 35, []) ∧
      varIntFromConn [0x80, 0x80, 0x80, 0x80, 0x80, 0x01] = some (.ok (2 ^ 35, [])) :=
  ⟨rfl, rfl⟩

/-- The framing has room for a payload of so many bytes. -/
def Framing.Carries (n : Nat) : Framing → Prop
  | .plain => n < 2 ^ 16
  | .minecraft channel _ =>
    1 + (writeMCString channel).length + (writeMCVarInt (17 + n)).length + (17 + n) ≤ 2 ^ 20
  | .generic _ => 17 + n < 2 ^ 16

instance (n : Nat) (framing : Framing) : Decidable (framing.Carries n) :=
  match framing with
  | .plain => inferInstanceAs (Decidable (n < 2 ^ 16))
  | .minecraft channel _ => inferInstanceAs (Decidable
      (1 + (writeMCString channel).length + (writeMCVarInt (17 + n)).length + (17 + n) ≤ 2 ^ 20))
  | .generic _ => inferInstanceAs (Decidable (17 + n < 2 ^ 16))

section

variable {lib : Primitives} {framing : Framing}

theorem Framing.Carries.mono {n m : Nat} (le : n ≤ m) (carries : framing.Carries m) :
    framing.Carries n := by
  cases framing with
  | plain => exact Nat.lt_of_le_of_lt le carries
  | minecraft channel secret =>
    change 1 + (writeMCString channel).length + _ + (17 + m) ≤ 2 ^ 20 at carries
    have fewer := writeMCVarInt_length_mono (Nat.add_le_add_left le 17) (by omega)
    change 1 + (writeMCString channel).length + _ + (17 + n) ≤ 2 ^ 20
    omega
  | generic secret => exact Nat.lt_of_le_of_lt (Nat.add_le_add_left le 17) carries

/-- `io.ErrShortBuffer`. -/
def errShortBuffer : Err :=
  .text "short buffer"

/-- `receive` into a buffer of the given size: what is copied, and the error. -/
def receive (size : Nat) (payload : Bytes) : Bytes × Option Err :=
  (payload.take size,
    if (payload.take size).length ≠ payload.length then some errShortBuffer else none)

/-- `RoutineReceiveIncoming` between two receives. -/
structure ReceiveRoutine where
  deathSpiral : Nat
  running : Bool
deriving DecidableEq

/-- The routine after one `receive`; an error of the buffer is not a `net.Error`. -/
def ReceiveRoutine.step (size : Nat) (routine : ReceiveRoutine) (payload : Bytes) :
    ReceiveRoutine :=
  if routine.running then
    match (receive size payload).2 with
    | some _ =>
      if routine.deathSpiral < 10 then
        { routine with deathSpiral := routine.deathSpiral + 1 }
      else { routine with running := false }
    | none => { routine with deathSpiral := 0 }
  else routine

def ReceiveRoutine.start : ReceiveRoutine :=
  ⟨0, true⟩

theorem receive_eq_none : (receive size payload).2 = none ↔ payload.length ≤ size := by
  rw [receive, List.length_take]
  split
  · next short => exact ⟨nofun, fun fits => (short (Nat.min_eq_right fits)).elim⟩
  · next whole => exact ⟨fun _ => by omega, fun _ => rfl⟩

theorem ReceiveRoutine.step_of_long (long : size < payload.length) (n : Nat) :
    ReceiveRoutine.step size ⟨n, true⟩ payload = if n < 10 then ⟨n + 1, true⟩ else ⟨n, false⟩ := by
  rw [ReceiveRoutine.step, if_pos rfl]
  cases failed : (receive size payload).2 with
  | none => exact (Nat.not_le_of_lt long (receive_eq_none.mp failed)).elim
  | some e => rfl

theorem ReceiveRoutine.stopped (long : size < payload.length) :
    (Runs.after (ReceiveRoutine.step size) .start (List.replicate 11 payload)).running = false := by
  simp [Runs.after, List.replicate, ReceiveRoutine.start, ReceiveRoutine.step_of_long long]

end

end Conn
