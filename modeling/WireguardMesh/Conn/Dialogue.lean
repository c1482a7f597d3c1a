import WireguardMesh.Conn.FrameStream
import WireguardMesh.Conn.Handshake
import WireguardMesh.Conn.PacketTrip
import WireguardMesh.Foundation.Conversation

/-! # Sessions as parties of a conversation

On a calm network every write succeeds and no deadline expires. A read beyond what has arrived
would wait; in the model it ends the session with the error `blocked`, and the session is looked at
again once more has arrived. A session is thereby a party of a `Conversation` (`progress`).

`Speaks` says that a session keeps to a sequence of messages and returns a value, with one rule
for each way of building a session.
-/

namespace Conn

open Conversation

/-- The error at the root of a wrapped one. -/
def Err.cause : Err → Err
  | .wrap _ cause => cause.cause
  | .noted cause _ => cause.cause
  | e => e

/-- A network on which nothing goes wrong, as long as more may arrive. -/
def calmNetwork : Network where
  ended := blocked
  writes := fun _ => none
  deadlines := fun _ => none

variable {α γ : Type}

/-- Where a session stands once it has heard so much. After it returns, it sends some more. -/
def progress (x : Session α) (later : Bytes) : Party UInt8 α := fun heard =>
  match x (Stream.start heard) with
  | .ok value s => .returned value (s.sent.flatten ++ later) s.input
  | .error e s => if e.cause = blocked then .waiting s.sent.flatten else .failed s.sent.flatten

/-- The session keeps to the conversation and returns the value. -/
structure Speaks (me : Conversation.Side) (x : Session α) (talk : Talk UInt8) (value : α) : Prop where
  returns : ∀ (s : Stream) rest, s.input = said me.other talk ++ rest →
    ∃ s', x s = .ok value s' ∧ s'.input = rest ∧
      s'.sent.flatten = s.sent.flatten ++ said me talk
  waits : ∀ (s : Stream) back, said me.other talk = s.input ++ back → back ≠ [] →
    ∃ e s', x s = .error e s' ∧ e.cause = blocked ∧
      s'.sent.flatten = s.sent.flatten ++ saidAfter me talk s.input.length

theorem splitPacket_of_part {payload front back : Bytes} (fits : payload.length ≤ 2 ^ 20)
    (split : packetFrame payload = front ++ back) (missing : back ≠ []) :
    splitPacket blocked front = .error blocked := by
  have waits : readPacket front = none :=
    (split ▸ frame_packetFrame fits).waits incremental_readPacket missing
  rw [readPacket] at waits
  cases read : splitPacket blocked front with
  | ok parts => rw [read] at waits; cases waits
  | error e =>
    rw [read, arrived] at waits
    split at waits
    · next same => rw [same]
    · cases waits

theorem xorKeyStream_append (lib : Primitives) (key : Bytes) (offset : Nat) (front back : Bytes) :
    xorKeyStream lib key offset (front ++ back) =
      xorKeyStream lib key offset front ++ xorKeyStream lib key (offset + front.length) back :=
  Streams.decoded_append (fun i b => b ^^^ lib.keyStream key i) offset front back

theorem length_xorKeyStream (lib : Primitives) (key : Bytes) (offset : Nat) (data : Bytes) :
    (xorKeyStream lib key offset data).length = data.length :=
  List.length_mapIdx

namespace Speaks

variable {me : Conversation.Side} {talk talk' total : Talk UInt8} {x : Session α} {f : α → Session γ} {a : α}
  {b : γ}

/-- **A session that keeps to a conversation is a party that does.** -/
theorem follows (speaks : Speaks me x talk a) (later : Bytes) :
    Follows me (progress x later) talk a later where
  returns rest := by
    obtain ⟨s, done, unread, sent⟩ := speaks.returns (Stream.start _) rest rfl
    rw [progress, done]
    dsimp only
    rw [unread, sent]
    rfl
  waits front back split missing := by
    obtain ⟨e, s, stopped, cause, sent⟩ := speaks.waits (Stream.start front) back split missing
    rw [progress, stopped]
    dsimp only
    rw [if_pos cause, sent]
    rfl

/-! ## Rules -/

theorem pure (me : Conversation.Side) (a : α) : Speaks me (Pure.pure a) [] a where
  returns s _ input := ⟨s, rfl, input, (List.append_nil _).symm⟩
  waits _ _ split missing := absurd (List.append_eq_nil_iff.mp split.symm).2 missing

/-- **Sequencing.** One session after another holds one conversation after the other. -/
theorem bind (first : Speaks me x talk a) (second : Speaks me (f a) talk' b)
    (whole : total = talk ++ talk') : Speaks me (x >>= f) total b := by
  subst whole
  constructor
  · intro s rest input
    rw [said_append, List.append_assoc] at input
    obtain ⟨between, ran, unread, sent⟩ := first.returns s _ input
    obtain ⟨final, done, unread', sent'⟩ := second.returns between rest unread
    refine ⟨final, Effect.bind_eq_ok.mpr ⟨a, between, ran, done⟩, unread', ?_⟩
    rw [sent', sent, said_append, List.append_assoc]
  · intro s back split missing
    rw [said_append] at split
    have begins : s.input <+: said me.other talk ++ said me.other talk' := ⟨back, split.symm⟩
    -- What has arrived ends within the first conversation, or covers it.
    rcases Nat.lt_or_ge s.input.length (said me.other talk).length with short | long
    · obtain ⟨lack, first'⟩ := List.prefix_of_prefix_length_le begins (List.prefix_append _ _)
        (Nat.le_of_lt short)
      have some : lack ≠ [] := by
        rintro rfl
        rw [← first', List.append_nil] at short
        exact Nat.lt_irrefl _ short
      obtain ⟨e, final, stopped, cause, sent⟩ := first.waits s lack first'.symm some
      refine ⟨e, final, Effect.bind_of_error f stopped, cause, ?_⟩
      rw [sent, saidAfter_append_of_lt me talk' short]
    · obtain ⟨more, arrived⟩ :=
        List.prefix_of_prefix_length_le (List.prefix_append _ _) begins long
      obtain ⟨between, ran, unread, sent⟩ := first.returns s more arrived.symm
      have left : said me.other talk' = between.input ++ back := by
        rw [← arrived, List.append_assoc] at split
        rw [unread, List.append_cancel_left split]
      obtain ⟨e, final, stopped, cause, sent'⟩ := second.waits between back left missing
      refine ⟨e, final, (Effect.bind_of_ok f ran).trans stopped, cause, ?_⟩
      rw [sent', sent, ← arrived, List.length_append, saidAfter_append, List.append_assoc, unread]

theorem lift {result : Except Err α} (ok : result = .ok a) :
    Speaks me (Effect.lift result) [] a := by
  subst ok
  exact pure me a

theorem within (context : String) (speaks : Speaks me x talk a) :
    Speaks me (Conn.within context x) talk a where
  returns s rest input := by
    obtain ⟨s', done, unread, sent⟩ := speaks.returns s rest input
    exact ⟨s', within_eq_ok.mpr done, unread, sent⟩
  waits s back split missing := by
    obtain ⟨e, s', stopped, cause, sent⟩ := speaks.waits s back split missing
    refine ⟨.wrap context e, s', ?_, cause, sent⟩
    rw [Conn.within, Effect.mapError, stopped]

theorem setDeadline (me : Conversation.Side) : Speaks me (Conn.setDeadline calmNetwork) [] () where
  returns _ _ input := ⟨_, rfl, input, (List.append_nil _).symm⟩
  waits _ _ split missing := absurd (List.append_eq_nil_iff.mp split.symm).2 missing

theorem writeAll (me : Conversation.Side) (data : Bytes) :
    Speaks me (Conn.writeAll calmNetwork data) [(me, data)] () := by
  have silent : said me.other [(me, data)] = [] := by
    rw [said, if_neg me.other_ne.symm]; rfl
  have all : said me [(me, data)] = data := by
    rw [said, if_pos rfl]; exact List.append_nil data
  constructor
  · intro s rest input
    rw [silent] at input
    by_cases some : data = []
    · exact ⟨s, by rw [Conn.writeAll, if_pos some], input, by rw [all, some, List.append_nil]⟩
    · refine ⟨_, (writeAll_eq_ok some).mpr ⟨rfl, rfl⟩, input, ?_⟩
      rw [all, List.flatten_append, List.flatten_singleton]
  · intro s back split missing
    rw [silent] at split
    exact absurd (List.append_eq_nil_iff.mp split.symm).2 missing

/-- A read that returns a whole message, and waits as long as some of it is missing. -/
theorem of_read {message : Bytes} (whole : ∀ (s : Stream) rest, s.input = message ++ rest →
      x s = .ok a { s with input := rest })
    (part : ∀ (s : Stream) back, message = s.input ++ back → back ≠ [] →
      x s = .error blocked s) :
    Speaks me x [(me.other, message)] a := by
  have all : said me.other [(me.other, message)] = message := by
    rw [said, if_pos rfl]; exact List.append_nil message
  constructor
  · intro s rest input
    rw [all] at input
    refine ⟨_, whole s rest input, rfl, ?_⟩
    rw [said, if_neg me.other_ne]
    exact (List.append_nil _).symm
  · intro s back split missing
    rw [all] at split
    refine ⟨blocked, s, part s back split missing, rfl, ?_⟩
    rw [saidAfter, if_neg me.other_ne, if_pos, List.append_nil]
    rw [split, List.length_append]
    exact Nat.lt_add_of_pos_right (List.length_pos_iff.mpr missing)

theorem readFull {message : Bytes} {size : Nat} (length : message.length = size) :
    Speaks me (Conn.readFull calmNetwork size) [(me.other, message)] message := by
  refine of_read (fun s rest input => readFull_append input length) ?_
  intro s back split missing
  have short : s.input.length < size := by
    rw [← length, split, List.length_append]
    exact Nat.lt_add_of_pos_right (List.length_pos_iff.mpr missing)
  rw [Conn.readFull, if_pos short, if_neg fun both => by cases both.1]
  rfl

theorem readOnce {message : Bytes} {size taken : Nat}
    (length : message.length = max 1 (min taken size)) :
    Speaks me (Conn.readOnce calmNetwork size taken) [(me.other, message)] message := by
  refine of_read (fun s rest input => readOnce_append input length) ?_
  intro s back split missing
  have short : s.input.length < max 1 (min taken size) := by
    rw [← length, split, List.length_append]
    exact Nat.lt_add_of_pos_right (List.length_pos_iff.mpr missing)
  rw [Conn.readOnce]
  exact if_pos short

theorem readMCPacket {payload : Bytes} (fits : payload.length ≤ 2 ^ 20) :
    Speaks me (Conn.readMCPacket calmNetwork) [(me.other, packetFrame payload)] payload := by
  refine of_read ?_ ?_
  · intro s rest input
    refine readMCPacket_eq_ok.mpr ⟨rest, ?_, rfl⟩
    rw [input, splitPacket_packetFrame _ (by omega), if_neg (by omega)]
  · intro s back split missing
    have waits : splitPacket calmNetwork.ended s.input = .error blocked :=
      splitPacket_of_part fits split missing
    rw [Conn.readMCPacket, waits]

theorem writeMCPacket (me : Conversation.Side) (payload : Bytes) :
    Speaks me (Conn.writeMCPacket calmNetwork payload) [(me, packetFrame payload)] () :=
  writeAll me (packetFrame payload)

/-! ## A first step, and the session after it -/

section Steps

variable {context : String} {payload : Bytes} {result : Except Err α}

theorem deadline {f : Unit → Session γ} (next : Speaks me (f ()) talk b) :
    Speaks me (Conn.setDeadline calmNetwork >>= f) talk b :=
  (setDeadline me).bind next rfl

theorem computes (ok : result = .ok a) (next : Speaks me (f a) talk b) :
    Speaks me (Effect.lift result >>= f) talk b :=
  (lift ok).bind next rfl

theorem checks (ok : result = .ok a) (next : Speaks me (f a) talk b) :
    Speaks me (Conn.within context (Effect.lift result) >>= f) talk b :=
  ((lift ok).within context).bind next rfl

theorem sends {f : Unit → Session γ} (next : Speaks me (f ()) talk b) :
    Speaks me (Conn.within context (Conn.writeMCPacket calmNetwork payload) >>= f)
      ((me, packetFrame payload) :: talk) b :=
  ((writeMCPacket me payload).within context).bind next rfl

theorem receives {f : Bytes → Session γ} (fits : payload.length ≤ 2 ^ 20)
    (next : Speaks me (f payload) talk b) :
    Speaks me (Conn.within context (Conn.readMCPacket calmNetwork) >>= f)
      ((me.other, packetFrame payload) :: talk) b :=
  ((readMCPacket fits).within context).bind next rfl

end Steps

/-! ## Sessions over an encrypted connection -/

variable {lib : Primitives} {rd wr : Bytes} {rdOff wrOff : Nat}

theorem readFullFrom {data : Bytes} {size : Nat} (length : data.length = size) :
    Speaks me (Conn.readFullFrom lib calmNetwork (.secure rd wr rdOff wrOff) size)
      [(me.other, xorKeyStream lib rd rdOff data)] (data, .secure rd wr (rdOff + size) wrOff) := by
  have wire := length_xorKeyStream lib rd rdOff data
  refine (readFull (wire.trans length)).bind ?_ rfl
  rw [xorKeyStream_xorKeyStream]
  exact pure me _

theorem writeAllTo (me : Conversation.Side) (data : Bytes) :
    Speaks me (Conn.writeAllTo lib calmNetwork (.secure rd wr rdOff wrOff) data)
      [(me, xorKeyStream lib wr wrOff data)] (.secure rd wr rdOff (wrOff + data.length)) :=
  (writeAll me _).bind (pure me _) rfl

theorem writeMCPacketTo (me : Conversation.Side) (payload : Bytes) :
    Speaks me (Conn.writeMCPacketTo lib calmNetwork (.secure rd wr rdOff wrOff) payload)
      [(me, xorKeyStream lib wr wrOff (packetFrame payload))]
      (.secure rd wr rdOff (wrOff + (packetFrame payload).length)) :=
  (writeAll me _).bind (pure me _) rfl

theorem readMCPacketFrom {payload : Bytes} (fits : payload.length ≤ 2 ^ 20) :
    Speaks me (Conn.readMCPacketFrom lib calmNetwork (.secure rd wr rdOff wrOff))
      [(me.other, xorKeyStream lib rd rdOff (packetFrame payload))]
      (payload, .secure rd wr (rdOff + (packetFrame payload).length) wrOff) := by
  refine of_read ?_ ?_
  · intro s rest input
    have decrypted : splitPacket calmNetwork.ended (xorKeyStream lib rd rdOff s.input) =
        .ok (payload, xorKeyStream lib rd (rdOff + (packetFrame payload).length) rest) := by
      rw [input, xorKeyStream_append, xorKeyStream_xorKeyStream, length_xorKeyStream,
        splitPacket_packetFrame _ (by omega), if_neg (by omega)]
    have used : s.input.length -
        (xorKeyStream lib rd (rdOff + (packetFrame payload).length) rest).length =
          (packetFrame payload).length := by
      rw [input, List.length_append, length_xorKeyStream, length_xorKeyStream,
        Nat.add_sub_cancel]
    rw [Conn.readMCPacketFrom]
    dsimp only
    rw [decrypted]
    dsimp only
    rw [used, input, List.drop_left' (length_xorKeyStream lib rd rdOff _)]
  · intro s back split missing
    have plain : packetFrame payload = xorKeyStream lib rd rdOff s.input ++
        xorKeyStream lib rd (rdOff + s.input.length) back := by
      rw [← xorKeyStream_append, ← split, xorKeyStream_xorKeyStream]
    have lacking : xorKeyStream lib rd (rdOff + s.input.length) back ≠ [] :=
      List.ne_nil_of_length_pos (by
        rw [length_xorKeyStream]; exact List.length_pos_iff.mpr missing)
    have waits : splitPacket calmNetwork.ended (xorKeyStream lib rd rdOff s.input) =
        .error blocked := splitPacket_of_part fits plain lacking
    rw [Conn.readMCPacketFrom]
    dsimp only
    rw [waits]

end Speaks

end Conn
