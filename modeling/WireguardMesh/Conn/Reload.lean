import WireguardMesh.Conn.Cover
import WireguardMesh.Conn.MinecraftSoundness
import WireguardMesh.Foundation.Runs

/-! # Sessions across reloads of the transport config

A session between two binds after its handshake. `sessionWrite` and `readLoop` look up the
camouflage config of the bind for every frame, and a write looks it up twice;
`SetTransportConfigJSON` replaces it in between, on either end. So a frame may be read in another
framing than it was written in, and what comes out need not be anything that was sent
(`misreadBurst_unsent`). As long as both ends keep the framing of the session, what an end delivers
was sent by its peer (`delivered_was_sent`).
-/

namespace Conn

variable {e : End} {random : CoverRandom} {result : End × Bytes} {s : Link}

/-- Where the holder of `writeMu` is in `sessionWrite`. -/
inductive Writing
  | idle
  /-- before `camouflageHidesVPN` -/
  | entered (payload : Bytes)
  /-- before `getCamo` in `writeCoverFrame` -/
  | cover (payload : Bytes)
deriving DecidableEq

/-- Where a `readLoop` is. -/
inductive Reading
  /-- before `camouflageHidesVPN` -/
  | top
  /-- before `getCamo` in `readCoverFrame` -/
  | cover
  /-- reading a frame -/
  | frame (framing : Framing)
deriving DecidableEq

/-- One end of a session with its bind's config. The payloads passed to `sessionWrite` and the
payloads handed to the receive channel are recorded, and whether a write has failed with part of
its frame on the connection: its caller is going to drop the session. -/
structure End where
  camo : CamoSharedConfig
  alive : Bool
  writer : Writing
  torn : Bool
  reader : Reading
  sent : List Bytes
  delivered : List Bytes
deriving DecidableEq

/-- An end whose handshake has completed. -/
def newEnd (camo : CamoSharedConfig) : End :=
  ⟨camo, true, .idle, false, .top, [], []⟩

def Writing.underway : Writing → List Bytes
  | .idle => []
  | .entered payload | .cover payload => [payload]

namespace End

variable (lib : Primitives) (e : End)

/-- `Send` of one buffer, up to the check that the session is alive. -/
def send (payload : Bytes) : End :=
  if e.alive ∧ e.writer = .idle ∧ payload.length ≤ 65535 then
    { e with writer := .entered payload, sent := e.sent ++ [payload] }
  else e

/-- The writes of a frame, of which the connection takes the given number of bytes, or all. -/
def put (taken : Option Nat) : Except Err Bytes → End × Bytes
  | .error _ => ({ e with writer := .idle }, [])
  | .ok bytes =>
    match taken with
    | none => ({ e with writer := .idle }, bytes)
    | some n =>
      if n < bytes.length then ({ e with writer := .idle, torn := true }, bytes.take n)
      else ({ e with writer := .idle }, bytes)

/-- A step of `sessionWrite`, with the bytes it puts on the connection. -/
def write (random : CoverRandom) (taken : Option Nat) : End × Bytes :=
  match e.writer with
  | .idle => (e, [])
  | .entered payload =>
    if e.camo.hidesVPN then ({ e with writer := .cover payload }, [])
    else e.put taken (frameBytes lib random payload .plain)
  | .cover payload => e.put taken (frameBytes lib random payload e.camo.cover)

/-- A step of `readLoop`, with the bytes it leaves. An empty payload is a heartbeat, and an error
drops the session. -/
def read (input : Bytes) : End × Bytes :=
  if e.alive then
    match e.reader with
    | .top =>
      ({ e with reader := if e.camo.hidesVPN then .cover else .frame .plain }, input)
    | .cover => ({ e with reader := .frame e.camo.cover }, input)
    | .frame framing =>
      match readFrame lib framing input with
      | none => (e, input)
      | some (.error _) => ({ e with alive := false }, input)
      | some (.ok (payload, rest)) =>
        ({ e with
          reader := .top
          delivered := e.delivered ++ if payload = [] then [] else [payload] }, rest)
  else (e, input)

end End

inductive Side
  | client
  | server
deriving DecidableEq

def Side.peer : Side → Side
  | .client => .server
  | .server => .client

theorem Side.peer_ne (side : Side) : side.peer ≠ side := by
  cases side <;> nofun

theorem Side.eq_or_eq_peer (side other : Side) : other = side ∨ other = side.peer := by
  cases side <;> cases other <;> simp [Side.peer]

@[simp] theorem Side.peer_peer (side : Side) : side.peer.peer = side := by
  cases side <;> rfl

/-- A session: its two ends, and the bytes that each has written and the other not yet read. -/
structure Link where
  ends : Side → End
  wire : Side → Bytes

/-- A session whose handshake has completed between two binds. -/
def newLink (client server : CamoSharedConfig) : Link where
  ends
    | .client => newEnd client
    | .server => newEnd server
  wire := fun _ => []

/-- A step of one end. -/
inductive Move
  /-- `reloadOpenBinds` -/
  | reload (camo : CamoSharedConfig)
  | send (payload : Bytes)
  | write (random : CoverRandom) (taken : Option Nat)
  | read
  /-- `dropSession` -/
  | drop

namespace Link

variable (lib : Primitives) (s : Link)

/-- The session after one end has changed. -/
def set (side : Side) (e : End) : Link :=
  { s with ends := Function.update s.ends side e }

/-- The session after one end has changed and the bytes on one way have. -/
def setWire (side : Side) (bytes : Bytes) : Link :=
  { s with wire := Function.update s.wire side bytes }

def step (s : Link) : Side × Move → Link
  | (side, .reload camo) => s.set side { s.ends side with camo }
  | (side, .send payload) => s.set side ((s.ends side).send payload)
  | (side, .write random taken) =>
    let (e, bytes) := (s.ends side).write lib random taken
    (s.set side e).setWire side (s.wire side ++ bytes)
  | (side, .read) =>
    let (e, rest) := (s.ends side).read lib (s.wire side.peer)
    (s.set side e).setWire side.peer rest
  | (side, .drop) => s.set side { s.ends side with alive := false }

/-- What the ends deliver, their peers have sent. -/
def Faithful : Prop :=
  ∀ side, ∀ payload ∈ (s.ends side).delivered, payload ∈ (s.ends side.peer).sent

/-- A reload that keeps the framing of the session; a write whose frame fits its length fields, and
that does not follow a failed one. -/
def Steady (s : Link) : Side × Move → Prop
  | (side, .reload camo) => camo.framing = (s.ends side).camo.framing
  | (side, .write random _) =>
    (s.ends side).torn = false ∧
      ∀ payload ∈ (s.ends side).writer.underway,
        (s.ends side).camo.framing.Fits random payload
  | (_, .send _) | (_, .read) | (_, .drop) => True

instance (s : Link) (action : Side × Move) : Decidable (s.Steady action) :=
  match action with
  | (side, .reload camo) =>
    inferInstanceAs (Decidable (camo.framing = (s.ends side).camo.framing))
  | (side, .write random _) =>
    inferInstanceAs (Decidable ((s.ends side).torn = false ∧
      ∀ payload ∈ (s.ends side).writer.underway,
        (s.ends side).camo.framing.Fits random payload))
  | (_, .send _) | (_, .read) | (_, .drop) => inferInstanceAs (Decidable True)

end Link

/-! ## The framing of the session -/

section

variable {lib : Primitives} {framing : Framing}

/-- A write that is going to take the framing. -/
def Writing.Suits (framing : Framing) : Writing → Prop
  | .idle => True
  | .entered payload => payload.length < 2 ^ 16
  | .cover payload => payload.length < 2 ^ 16 ∧ framing ≠ .plain

/-- A read that takes the framing, or is going to. -/
def Reading.Suits (framing : Framing) : Reading → Prop
  | .top => True
  | .cover => framing ≠ .plain
  | .frame chosen => chosen = framing

/-- An end that keeps to the framing. -/
structure End.Keeps (framing : Framing) (e : End) : Prop where
  camo : e.camo.framing = framing
  writer : e.writer.Suits framing
  reader : e.reader.Suits framing

theorem End.put_ok (e : End) (taken : Option Nat) (bytes : Bytes) :
    e.put taken (.ok bytes) = ({ e with writer := .idle }, bytes) ∨
      ∃ n < bytes.length,
        e.put taken (.ok bytes) = ({ e with writer := .idle, torn := true }, bytes.take n) := by
  cases taken with
  | none => exact .inl rfl
  | some n =>
    by_cases part : n < bytes.length
    · exact .inr ⟨n, part, if_pos part⟩
    · exact .inl (if_neg part)

/-- What a write may do: put nothing on the connection, a frame of its payload in the framing, or
the beginning of one. -/
inductive Wrote (lib : Primitives) (framing : Framing) (random : CoverRandom) (e : End) :
    End × Bytes → Prop
  | nothing (writer : Writing) : writer.Suits framing →
      writer.underway.Sublist e.writer.underway → Wrote lib framing random e ({ e with writer }, [])
  | whole {payload bytes : Bytes} : e.writer.underway = [payload] → payload.length < 2 ^ 16 →
      frameBytes lib random payload framing = .ok bytes →
        Wrote lib framing random e ({ e with writer := .idle }, bytes)
  | part {payload bytes : Bytes} (n : Nat) : e.writer.underway = [payload] →
      payload.length < 2 ^ 16 → frameBytes lib random payload framing = .ok bytes →
        n < bytes.length →
          Wrote lib framing random e ({ e with writer := .idle, torn := true }, bytes.take n)

theorem End.put_wrote {payload : Bytes} (underway : e.writer.underway = [payload])
    (short : payload.length < 2 ^ 16) (taken : Option Nat) :
    Wrote lib framing random e (e.put taken (frameBytes lib random payload framing)) := by
  cases written : frameBytes lib random payload framing with
  | error _ => exact .nothing .idle trivial (List.nil_sublist _)
  | ok bytes =>
    obtain all | ⟨n, fewer, part⟩ := e.put_ok taken bytes
    · rw [all]
      exact .whole underway short written
    · rw [part]
      exact .part n underway short written fewer

namespace End.Keeps

variable {e : End} (keeps : e.Keeps framing)
include keeps

theorem send (payload : Bytes) : (e.send payload).Keeps framing := by
  rw [End.send]
  split
  · next accepted =>
    exact ⟨keeps.camo, Nat.lt_succ_of_le accepted.2.2, keeps.reader⟩
  · exact keeps

theorem write (random : CoverRandom) (taken : Option Nat) :
    Wrote lib framing random e (e.write lib random taken) := by
  have suits := keeps.writer
  cases phase : e.writer with
  | idle =>
    rw [End.write, phase]
    exact .nothing e.writer suits (List.Sublist.refl _)
  | entered payload =>
    have underway : e.writer.underway = [payload] := by rw [phase]; rfl
    rw [phase] at suits
    rw [End.write, phase]
    dsimp only
    split
    · next hides =>
      refine .nothing (.cover payload) ⟨suits, ?_⟩ (by rw [underway]; exact .refl _)
      rw [← keeps.camo, ← CamoSharedConfig.framing_of_hides hides]
      exact e.camo.cover_ne_plain
    · next shows =>
      rw [← CamoSharedConfig.framing_of_shows shows, keeps.camo]
      exact End.put_wrote underway suits taken
  | cover payload =>
    have underway : e.writer.underway = [payload] := by rw [phase]; rfl
    rw [phase] at suits
    rw [End.write, phase]
    dsimp only
    rw [CamoSharedConfig.cover_eq_framing (by rw [keeps.camo]; exact suits.2), keeps.camo]
    exact End.put_wrote underway suits.1 taken

end End.Keeps

theorem Wrote.keeps (wrote : Wrote lib framing random e result) (keeps : e.Keeps framing) :
    result.1.Keeps framing := by
  cases wrote with
  | nothing writer suits => exact ⟨keeps.camo, suits, keeps.reader⟩
  | whole | part => exact ⟨keeps.camo, trivial, keeps.reader⟩

theorem Wrote.delivered (wrote : Wrote lib framing random e result) :
    result.1.delivered = e.delivered := by
  cases wrote <;> rfl

/-- What a step of a read may do: leave the connection alone, or take a frame off it that it
reads in the framing. -/
inductive Took (lib : Primitives) (framing : Framing) (input : Bytes) (e : End) :
    End × Bytes → Prop
  | nothing (alive : Bool) (reader : Reading) : reader.Suits framing →
      Took lib framing input e ({ e with alive, reader }, input)
  | payload {payload rest : Bytes} : readFrame lib framing input = some (.ok (payload, rest)) →
      Took lib framing input e
        ({ e with
          reader := .top
          delivered := e.delivered ++ if payload = [] then [] else [payload] }, rest)

theorem End.Keeps.read (keeps : e.Keeps framing) (input : Bytes) :
    Took lib framing input e (e.read lib input) := by
  have suits := keeps.reader
  rw [End.read]
  split
  swap
  · exact .nothing e.alive e.reader suits
  cases phase : e.reader with
  | top =>
    dsimp only
    split
    · next hides =>
      refine .nothing e.alive .cover ?_
      rw [← keeps.camo, ← CamoSharedConfig.framing_of_hides hides]
      exact e.camo.cover_ne_plain
    · next shows =>
      exact .nothing e.alive (.frame .plain)
        ((CamoSharedConfig.framing_of_shows shows).symm.trans keeps.camo)
  | cover =>
    rw [phase] at suits
    exact .nothing e.alive (.frame e.camo.cover)
      ((CamoSharedConfig.cover_eq_framing (by rw [keeps.camo]; exact suits)).trans keeps.camo)
  | frame chosen =>
    obtain rfl : chosen = framing := by rw [phase] at suits; exact suits
    dsimp only
    split
    · exact .nothing e.alive e.reader keeps.reader
    · exact .nothing false (.frame chosen) rfl
    · next answered => exact .payload answered

theorem Took.keeps {input : Bytes} (took : Took lib framing input e result)
    (keeps : e.Keeps framing) : result.1.Keeps framing := by
  cases took with
  | nothing alive reader suits => exact ⟨keeps.camo, keeps.writer, suits⟩
  | payload => exact ⟨keeps.camo, keeps.writer, trivial⟩

theorem Took.sender {input : Bytes} (took : Took lib framing input e result) :
    result.1.torn = e.torn ∧ result.1.writer = e.writer ∧ result.1.sent = e.sent := by
  cases took <;> exact ⟨rfl, rfl, rfl⟩

/-! ## The bytes on the connection -/

/-- One way of a session: the connection carries frames of payloads not yet delivered, and after a
failed write the beginning of one more. -/
def Carried (lib : Primitives) (framing : Framing) (sender receiver : End) (wire : Bytes) : Prop :=
  ∃ pending tail, Streams.Holds (readFrame lib framing) tail pending wire ∧
    readFrame lib framing tail = none ∧ (sender.torn = false → tail = []) ∧
      (receiver.delivered ++ pending ++ sender.writer.underway).Sublist sender.sent

namespace Carried

variable {sender receiver : End} {wire : Bytes} (carried : Carried lib framing sender receiver wire)
include carried

theorem mem_sent {payload : Bytes} (delivered : payload ∈ receiver.delivered) :
    payload ∈ sender.sent := by
  obtain ⟨pending, tail, -, -, -, order⟩ := carried
  exact order.subset (List.mem_append_left _ (List.mem_append_left _ delivered))

theorem send (payload : Bytes) : Carried lib framing (sender.send payload) receiver wire := by
  rw [End.send]
  split
  · next accepted =>
    obtain ⟨pending, tail, holds, waits, clean, order⟩ := carried
    rw [accepted.2.1] at order
    refine ⟨pending, tail, holds, waits, clean, ?_⟩
    rw [Writing.underway, List.append_nil] at order
    exact order.append (.refl [payload])
  · exact carried

theorem wrote (untorn : sender.torn = false)
    (fits : ∀ payload ∈ sender.writer.underway, framing.Fits random payload)
    (wrote : Wrote lib framing random sender result) :
    Carried lib framing result.1 receiver (wire ++ result.2) := by
  obtain ⟨pending, tail, holds, waits, clean, order⟩ := carried
  cases wrote with
  | nothing writer suits fewer =>
    rw [List.append_nil]
    exact ⟨pending, tail, holds, waits, clean, ((List.Sublist.refl _).append fewer).trans order⟩
  | @whole payload bytes underway short written =>
    obtain rfl := clean untorn
    have frame := frame_frameBytes short (fits payload (by rw [underway]; exact .head _)) written
    refine ⟨pending ++ [payload], [], holds.append frame, waits, fun _ => rfl, ?_⟩
    rw [underway] at order
    rwa [Writing.underway, List.append_nil, ← List.append_assoc]
  | @part payload bytes n underway short written fewer =>
    obtain rfl := clean untorn
    have frame := frame_frameBytes short (fits payload (by rw [underway]; exact .head _)) written
    refine ⟨pending, bytes.take n, holds.append_tail _, ?_, nofun, ?_⟩
    · rw [← List.take_append_drop n bytes] at frame
      exact frame.waits (incremental_readFrame framing)
        (fun none => by rw [List.drop_eq_nil_iff] at none; omega)
    · exact ((List.Sublist.refl _).append (List.nil_sublist _)).trans order

theorem took (took : Took lib framing wire receiver result) :
    Carried lib framing sender result.1 result.2 := by
  cases took with
  | nothing alive reader suits => exact carried
  | @payload payload rest answered =>
    obtain ⟨pending, tail, holds, waits, clean, order⟩ := carried
    obtain ⟨-, silent⟩ | ⟨first, others, rest', rfl, read, remaining⟩ := holds.next waits
    · rw [silent] at answered
      cases answered
    · rw [read] at answered
      cases answered
      refine ⟨others, tail, remaining, waits, clean, List.Sublist.trans ?_ order⟩
      refine List.Sublist.append ?_ (.refl _)
      rw [List.append_assoc]
      refine (List.Sublist.refl receiver.delivered).append ?_
      split
      · exact List.sublist_cons_self _ _
      · exact .refl _

/-- Only what the sender has to send and the receiver has delivered matters. -/
theorem congr {sender' receiver' : End} (torn : sender'.torn = sender.torn)
    (writer : sender'.writer = sender.writer) (sent : sender'.sent = sender.sent)
    (delivered : receiver'.delivered = receiver.delivered) :
    Carried lib framing sender' receiver' wire := by
  unfold Carried
  rw [torn, writer, sent, delivered]
  exact carried

end Carried

/-! ## Runs -/

namespace Link

/-- Both ends keep to the framing, and both ways carry what is sent. -/
structure Sound (lib : Primitives) (framing : Framing) (s : Link) : Prop where
  keeps : ∀ side, (s.ends side).Keeps framing
  carried : ∀ side, Carried lib framing (s.ends side) (s.ends side.peer) (s.wire side)

theorem Sound.change
    (sound : s.Sound lib framing) (side : Side) {wire : Side → Bytes} (keeps : e.Keeps framing)
    (out : Carried lib framing e (s.ends side.peer) (wire side))
    (back : Carried lib framing (s.ends side.peer) e (wire side.peer)) :
    Sound lib framing ⟨Function.update s.ends side e, wire⟩ := by
  have other : Function.update s.ends side e side.peer = s.ends side.peer :=
    Function.update_of_ne side.peer_ne ..
  refine ⟨fun party => ?_, fun party => ?_⟩
  · obtain rfl | rfl := side.eq_or_eq_peer party
    · simpa only [Function.update_self] using keeps
    · simpa only [other] using sound.keeps side.peer
  · obtain rfl | rfl := side.eq_or_eq_peer party
    · simpa only [other, Function.update_self] using out
    · simpa only [other, Side.peer_peer, Function.update_self] using back

theorem Sound.step (sound : s.Sound lib framing) (action : Side × Move) (steady : s.Steady action) :
    (s.step lib action).Sound lib framing := by
  obtain ⟨side, move⟩ := action
  have keeps := sound.keeps side
  have out := sound.carried side
  have back := sound.carried side.peer
  rw [Side.peer_peer] at back
  cases move with
  | reload camo =>
    have same : camo.framing = framing := Eq.trans steady keeps.camo
    exact sound.change side ⟨same, keeps.writer, keeps.reader⟩ (out.congr rfl rfl rfl rfl)
      (back.congr rfl rfl rfl rfl)
  | send payload =>
    refine sound.change side (keeps.send payload) (out.send payload)
      (back.congr rfl rfl rfl ?_)
    rw [End.send]
    split <;> rfl
  | write random taken =>
    obtain ⟨untorn, fits⟩ := steady
    rw [keeps.camo] at fits
    have wrote : Wrote lib framing random (s.ends side) _ := keeps.write random taken
    refine sound.change side (wrote.keeps keeps) ?_ ?_
    · rw [Function.update_self]
      exact out.wrote untorn fits wrote
    · rw [Function.update_of_ne side.peer_ne]
      exact back.congr rfl rfl rfl wrote.delivered
  | read =>
    have took : Took lib framing (s.wire side.peer) (s.ends side) _ := keeps.read _
    refine sound.change side (took.keeps keeps) ?_ ?_
    · rw [Function.update_of_ne side.peer_ne.symm]
      exact out.congr took.sender.1 took.sender.2.1 took.sender.2.2 rfl
    · rw [Function.update_self]
      exact back.took took
  | drop =>
    exact sound.change side ⟨keeps.camo, keeps.writer, keeps.reader⟩ (out.congr rfl rfl rfl rfl)
      (back.congr rfl rfl rfl rfl)

theorem Sound.faithful (sound : s.Sound lib framing) : s.Faithful := by
  intro side payload delivered
  have carried := sound.carried side.peer
  rw [Side.peer_peer] at carried
  exact carried.mem_sent delivered

theorem sound_newLink {client server : CamoSharedConfig} (same : client.framing = framing)
    (same' : server.framing = framing) : (newLink client server).Sound lib framing := by
  have silent : ∀ sender receiver : CamoSharedConfig,
      Carried lib framing (newEnd sender) (newEnd receiver) [] := fun _ _ =>
    ⟨[], [], .done, readFrame_nil framing, fun _ => rfl, .refl []⟩
  refine ⟨fun side => ?_, fun side => ?_⟩
  · cases side with
    | client => exact ⟨same, trivial, trivial⟩
    | server => exact ⟨same', trivial, trivial⟩
  · cases side <;> exact silent _ _

end Link

end

/-- **Sessions with one framing.** If the ends agree on the framing after the handshake and every
reload keeps it, then whatever an end delivers was sent by its peer. -/
theorem delivered_was_sent (lib : Primitives) (client server : CamoSharedConfig)
    (actions : List (Side × Move)) (agree : client.framing = server.framing)
    (steady : Runs.Along (Link.step lib) Link.Steady (newLink client server) actions) :
    (Runs.after (Link.step lib) (newLink client server) actions).Faithful :=
  (Runs.invariant (fun s : Link => s.Sound lib server.framing)
    (fun _ action sound steady => sound.step action steady)
    (Link.sound_newLink agree rfl) steady).faithful

/-! ## A reload between two frames -/

/-- A message of the type that carries data, for a packet of 1420 bytes. -/
def dataMessage : Bytes :=
  List.replicate 1452 4

def sendCovered : List (Side × Move) :=
  [(.client, .send dataMessage), (.client, .write noPad none), (.client, .write noPad none)]

/-- The server waits for a frame when both ends take up the Minecraft profile; the client goes on
sending. -/
def misreadBurst : List (Side × Move) :=
  [(.server, .read), (.client, .reload minecraftCamo), (.server, .reload minecraftCamo)] ++
    (List.replicate 37 sendCovered).flatten ++ [(.server, .read)]

/-- A message is sent, read and delivered; the secret changes while nothing is hidden. -/
def quietReload : List (Side × Move) :=
  [(.server, .read), (.client, .send [4, 0, 0, 0]), (.client, .write noPad none),
    (.client, .reload { plainCamo with pluginSecret := [] }), (.server, .read)]

theorem quietReload_faithful : plainCamo.framing = plainCamo.framing ∧
      Runs.Along (Link.step constantPrimitives) Link.Steady (newLink plainCamo plainCamo)
        quietReload ∧ (Runs.after (Link.step constantPrimitives) (newLink plainCamo plainCamo)
        quietReload).Faithful := by
  have steady : Runs.Along (Link.step constantPrimitives) Link.Steady
      (newLink plainCamo plainCamo) quietReload := by
    decide +kernel
  exact ⟨rfl, steady, delivered_was_sent _ _ _ _ rfl steady⟩

namespace Link

variable {lib : Primitives} (s : Link) (side : Side)

theorem step_peer (move : Move) : (s.step lib (side, move)).ends side.peer = s.ends side.peer := by
  cases move <;> exact Function.update_of_ne side.peer_ne ..

theorem step_send_end (payload : Bytes) :
    (s.step lib (side, .send payload)).ends side = (s.ends side).send payload :=
  Function.update_self ..

theorem step_write_end (random : CoverRandom) (taken : Option Nat) :
    (s.step lib (side, .write random taken)).ends side = ((s.ends side).write lib random taken).1 :=
  Function.update_self ..

theorem step_write_wire (random : CoverRandom) (taken : Option Nat) :
    (s.step lib (side, .write random taken)).wire side =
      s.wire side ++ ((s.ends side).write lib random taken).2 :=
  Function.update_self ..

theorem step_read_end :
    (s.step lib (side, .read)).ends side = ((s.ends side).read lib (s.wire side.peer)).1 :=
  Function.update_self ..

end Link

/-- The session after so many cover frames: the server still waits for a plain one. -/
structure Flooded (frame : Bytes) (n : Nat) (s : Link) : Prop where
  client : s.ends .client =
    ⟨minecraftCamo, true, .idle, false, .top, List.replicate n dataMessage, []⟩
  server : s.ends .server = ⟨minecraftCamo, true, .idle, false, .frame .plain, [], []⟩
  wire : s.wire .client = (List.replicate n frame).flatten

namespace Flooded

variable {lib : Primitives} {frame : Bytes} {n : Nat} {s : Link} (flooded : Flooded frame n s)
include flooded

theorem more (written : frameBytes lib noPad dataMessage minecraftCamo.cover = .ok frame) :
    Flooded frame (n + 1) (Runs.after (Link.step lib) s sendCovered) := by
  let s₁ := s.step lib (.client, .send dataMessage)
  let s₂ := s₁.step lib (.client, .write noPad none)
  let s₃ := s₂.step lib (.client, .write noPad none)
  have first : s₁.ends .client = ⟨minecraftCamo, true, .entered dataMessage, false, .top,
      List.replicate (n + 1) dataMessage, []⟩ := by
    have short : dataMessage.length ≤ 65535 := by rw [dataMessage, List.length_replicate]; decide
    rw [Link.step_send_end, flooded.client, End.send, if_pos ⟨rfl, rfl, short⟩,
      List.replicate_succ']
  have second : (s₁.ends .client).write lib noPad none = (⟨minecraftCamo, true,
      .cover dataMessage, false, .top, List.replicate (n + 1) dataMessage, []⟩, []) := by
    rw [first]
    rfl
  have third : (s₂.ends .client).write lib noPad none = (⟨minecraftCamo, true, .idle, false,
      .top, List.replicate (n + 1) dataMessage, []⟩, frame) := by
    rw [Link.step_write_end, second]
    dsimp only [End.write]
    rw [written]
    rfl
  change Flooded frame (n + 1) s₃
  refine ⟨?_, ?_, ?_⟩
  · rw [Link.step_write_end, third]
  · exact ((s₂.step_peer .client _).trans ((s₁.step_peer .client _).trans
      (s.step_peer .client _))).trans flooded.server
  · have bytes : s₃.wire .client = s.wire .client ++ frame := by
      rw [Link.step_write_wire, congrArg Prod.snd third, Link.step_write_wire,
        congrArg Prod.snd second, List.append_nil]
      rfl
    rw [bytes, flooded.wire, List.replicate_succ', List.flatten_append, List.flatten_singleton]

theorem flood (written : frameBytes lib noPad dataMessage minecraftCamo.cover = .ok frame)
    (more : Nat) : Flooded frame (n + more)
      (Runs.after (Link.step lib) s (List.replicate more sendCovered).flatten) := by
  induction more generalizing n s with
  | zero => exact flooded
  | succ more ih =>
    rw [List.replicate_succ, List.flatten_cons, Runs.after, List.foldl_append,
      Nat.add_comm more 1, ← Nat.add_assoc]
    exact ih (flooded.more written)

/-- The server takes the first two bytes for the length of a plain frame. -/
theorem read {rest : Bytes} {hi lo : UInt8}
    (bytes : (List.replicate n frame).flatten = hi :: lo :: rest)
    (enough : hi.toNat * 256 + lo.toNat ≤ rest.length)
    (odd : hi.toNat * 256 + lo.toNat ≠ dataMessage.length) (some : hi.toNat * 256 + lo.toNat ≠ 0) :
    ¬ (s.step lib (.server, .read)).Faithful := by
  intro faithful
  let size := hi.toNat * 256 + lo.toNat
  have length : (rest.take size).length = size := by
    rw [List.length_take, Nat.min_eq_left enough]
  have taken : readFrame lib .plain (s.wire .client) =
      Option.some (.ok (rest.take size, rest.drop size)) := by
    rw [flooded.wire, bytes]
    exact if_neg (Nat.not_lt.mpr enough)
  have garbage : rest.take size ∈ ((s.step lib (.server, .read)).ends .server).delivered := by
    rw [Link.step_read_end, flooded.server, End.read, if_pos rfl]
    dsimp only [Side.peer]
    rw [taken]
    dsimp only
    rw [if_neg fun empty => some (length.symm.trans (congrArg List.length empty))]
    exact .head _
  have sent := faithful .server _ garbage
  rw [show (s.step lib (.server, .read)).ends Side.server.peer = s.ends .client from
    s.step_peer .server _, flooded.client] at sent
  exact odd (length.symm.trans (congrArg List.length (List.eq_of_mem_replicate sent)))

end Flooded

/-- The server delivers 54027 bytes of several cover frames as one payload. -/
theorem misreadBurst_unsent :
    ¬ (Runs.after (Link.step constantPrimitives) (newLink plainCamo plainCamo)
      misreadBurst).Faithful := by
  obtain ⟨sealed, sealing⟩ : ∃ sealed,
      sealCover constantPrimitives noPad minecraftCamo.pluginSecret dataMessage = .ok sealed :=
    exists_sealCover (show constantPrimitives.newCipher _ = .ok () from rfl) _ _
  let packet := encodeCoverMC minecraftCamo.pluginChannel sealed
  have written : frameBytes constantPrimitives noPad dataMessage minecraftCamo.cover =
      .ok (packetFrame packet) := by
    rw [show minecraftCamo.cover =
      .minecraft minecraftCamo.pluginChannel minecraftCamo.pluginSecret from rfl, frameBytes,
      sealing, Except.map]
  have size : packet.length = 1491 := by
    have sealedSize : sealed.length = 1469 := by
      rw [sealCover_length sealing, dataMessage, List.length_replicate]
      rfl
    simp only [packet, encodeCoverMC, writeMCString, writeMCByteArray, List.length_append,
      sealedSize]
    decide
  have head : packetFrame packet = 211 :: 11 :: packet := by
    rw [packetFrame, size]
    rfl
  have start : Flooded (packetFrame packet) 0 (Runs.after (Link.step constantPrimitives)
      (newLink plainCamo plainCamo) [(.server, .read), (.client, .reload minecraftCamo),
        (.server, .reload minecraftCamo)]) :=
    ⟨rfl, rfl, rfl⟩
  have bytes : (List.replicate (0 + 37) (packetFrame packet)).flatten =
      211 :: 11 :: (packet ++ (List.replicate 36 (packetFrame packet)).flatten) := by
    rw [Nat.zero_add, List.replicate_succ, List.flatten_cons, head]
    rfl
  rw [misreadBurst, Runs.after_append, Runs.after_append, Runs.after_singleton]
  refine (start.flood written 37).read bytes ?_ ?_ ?_
  · rw [List.length_append, List.length_flatten, List.map_replicate, head, size]
    simp [size]
  · rw [dataMessage, List.length_replicate]
    simp
  · simp

end Conn
