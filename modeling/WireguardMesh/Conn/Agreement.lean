import WireguardMesh.Conn.Handshake
import WireguardMesh.Conn.SecureBlob

/-! # Agreement of the secure exchange

Only the head of a blob is under its tag. That the two ends agree on all 128 bytes of the hello
and of the reply comes from the stream keys, which depend on the whole transcript, and from the
confirm, which only an end with the same keys can write.

An `ExchangeWorld` is any number of runs of the two ends under one secret, where a run hears
anything. What an attacker cannot do without the secret is said about the values of the world
(`ExchangeWorld.Ideal`): a tag that verifies was computed by an end, and so was the start of a
keystream; keys and transcripts do not collide; no two ends draw the same salt and key. A client
that returns then has a server with the same hello, reply, keys and flag
(`secureExchange_agreement`).
-/

namespace Conn

open Effect

variable {priv prior blob reply' hello' : Bytes} {toNAT : Bool} {label : String} {flags : UInt8}
  {keys' : SecureKeys}

/-- One end of the exchange in one run: its network, what it draws, and what it hears. -/
structure SecureEnd where
  net : Network
  random : SecureRandom
  heard : Bytes
  filled : ∀ filler, random.blobFiller = .ok filler → filler.length = secureBlobLen

/-- Any number of runs of the two ends, and the flag each client dials with. -/
structure ExchangeWorld (ι κ : Type) where
  clients : ι → SecureEnd
  toNAT : ι → Bool
  servers : κ → SecureEnd

/-- The first bytes of the keystream under a key, as many as the confirm has. -/
def keyStreamStart (lib : Primitives) (key : Bytes) : Bytes :=
  (List.range secureConfirmSz).map (lib.keyStream key)

namespace ExchangeWorld

variable {ι κ : Type} (w : ExchangeWorld ι κ) (lib : Primitives) (cfg : CamoConfig)

/-- The ends of both kinds. -/
def ends : ι ⊕ κ → SecureEnd :=
  Sum.elim w.clients w.servers

/-! ## What the runs do -/

/-- The client returns a connection. -/
def Returned (c : ι) (conn : NetConn) : Prop :=
  ∃ final, secureGenericClient lib (w.clients c).net (w.clients c).random (w.toNAT c) cfg
    (Stream.start (w.clients c).heard) = .ok conn final

/-- The client has read a hello and computed its reply and keys. -/
structure Answered (c : ι) (hello reply : Bytes) (keys : SecureKeys) : Prop where
  enough : secureBlobLen ≤ (w.clients c).heard.length
  read : hello = (w.clients c).heard.take secureBlobLen
  replied : secureClientReply lib (w.clients c).random (securePSK lib cfg.pluginSecret) hello
    (w.toNAT c) = .ok (reply, keys)

/-- The server has computed its hello. -/
def Offered (r : κ) (hello priv : Bytes) : Prop :=
  secureServerHello lib (w.servers r).random.ephemeralKey (w.servers r).random.blobFiller
    (securePSK lib cfg.pluginSecret) = .ok (hello, priv)

/-- `secureServerFinish` has returned on the reply that the server has read. -/
structure Finished (r : κ) (hello reply : Bytes) (keys : SecureKeys) (toNAT : Bool) : Prop where
  enough : secureBlobLen ≤ (w.servers r).heard.length
  read : reply = (w.servers r).heard.take secureBlobLen
  finished : ∃ priv, w.Offered lib cfg r hello priv ∧
    secureServerFinish lib (securePSK lib cfg.pluginSecret) hello priv reply = .ok (keys, toNAT)

/-- The two runs agree on the hello, the reply, the keys and the flag. -/
def Agree (c : ι) (r : κ) (hello reply : Bytes) (keys : SecureKeys) : Prop :=
  w.Answered lib cfg c hello reply keys ∧ w.Finished lib cfg r hello reply keys (w.toNAT c)

/-! ## Ideal primitives -/

/-- The messages whose tag an end has computed. -/
def Tagged (message : Bytes) : Prop :=
  (∃ r hello priv, w.Offered lib cfg r hello priv ∧ message = tagMessage "server" [] hello) ∨
    ∃ c hello reply keys, w.Answered lib cfg c hello reply keys ∧
      message = tagMessage "client" hello reply

/-- The messages whose tag an end has verified. -/
def Verified (message : Bytes) : Prop :=
  (∃ c hello reply keys, w.Answered lib cfg c hello reply keys ∧
      message = tagMessage "server" [] hello) ∨
    ∃ r hello reply keys toNAT, w.Finished lib cfg r hello reply keys toNAT ∧
      message = tagMessage "client" hello reply

/-- An end may write under the key. -/
def Writes (key : Bytes) : Prop :=
  (∃ r hello reply keys toNAT, w.Finished lib cfg r hello reply keys toNAT ∧ key = keys.s2c) ∨
    ∃ c hello reply keys, w.Answered lib cfg c hello reply keys ∧ key = keys.c2s

/-- An end has derived the keys from a shared point and a transcript. -/
def Derived (shared hello reply : Bytes) (keys : SecureKeys) : Prop :=
  deriveSecureKeys lib (securePSK lib cfg.pluginSecret) shared hello reply = .ok keys ∧
    ((∃ c spub flags peer priv, w.Answered lib cfg c hello reply keys ∧
        openSecureBlob lib (securePSK lib cfg.pluginSecret) "server" [] hello =
          .ok (spub, flags) ∧
        lib.newPublicKey spub = .ok peer ∧ (w.clients c).random.ephemeralKey = .ok priv ∧
        lib.ecdh priv peer = .ok shared) ∨
      ∃ r toNAT cpub flags peer priv, w.Finished lib cfg r hello reply keys toNAT ∧
        openSecureBlob lib (securePSK lib cfg.pluginSecret) "client" hello reply =
          .ok (cpub, flags) ∧
        lib.newPublicKey cpub = .ok peer ∧ (w.servers r).random.ephemeralKey = .ok priv ∧
        lib.ecdh priv peer = .ok shared)

/-- **Ideal primitives.** What holds when HMAC, HKDF, SHA-256, X25519 and the stream cipher are
ideal and the attacker does not know the secret. -/
structure Ideal : Prop where
  /-- a tag that verifies was computed by an end -/
  unforgeable : ∀ message, w.Verified lib cfg message → w.Tagged lib cfg message
  /-- the start of a keystream is heard only where an end may write under its key -/
  unpredictable : ∀ c hello reply keys, w.Answered lib cfg c hello reply keys →
    ((w.clients c).heard.drop secureBlobLen).take secureConfirmSz =
      keyStreamStart lib keys.s2c → w.Writes lib cfg keys.s2c
  /-- a server key comes from one shared point and one digest -/
  derivation : ∀ shared hello reply keys shared' hello' reply' keys',
    w.Derived lib cfg shared hello reply keys → w.Derived lib cfg shared' hello' reply' keys' →
      keys.s2c = keys'.s2c →
        shared = shared' ∧ lib.sha256 (hello ++ reply) = lib.sha256 (hello' ++ reply')
  /-- a key for one direction is no key for the other -/
  separated : ∀ shared hello reply keys shared' hello' reply' keys',
    w.Derived lib cfg shared hello reply keys → w.Derived lib cfg shared' hello' reply' keys' →
      keys.s2c ≠ keys'.c2s
  /-- transcripts do not collide -/
  transcript : ∀ shared hello reply keys shared' hello' reply' keys',
    w.Derived lib cfg shared hello reply keys → w.Derived lib cfg shared' hello' reply' keys' →
      lib.sha256 (hello ++ reply) = lib.sha256 (hello' ++ reply') →
        hello ++ reply = hello' ++ reply'
  /-- no two ends draw the same salt and the same ephemeral key -/
  fresh : ∀ i j priv filler priv' filler',
    (w.ends i).random.ephemeralKey = .ok priv → (w.ends i).random.blobFiller = .ok filler →
      (w.ends j).random.ephemeralKey = .ok priv' → (w.ends j).random.blobFiller = .ok filler' →
        blobSalt filler = blobSalt filler' → lib.publicKey priv = lib.publicKey priv' → i = j

variable {w lib cfg} {c : ι} {r : κ} {hello reply : Bytes} {keys : SecureKeys}

/-! ## What each end has computed -/

/-- An end has sealed a blob from what it drew. -/
def Sealed (w : ExchangeWorld ι κ) (lib : Primitives) (cfg : CamoConfig) (i : ι ⊕ κ)
    (label : String) (prior : Bytes) (flags : UInt8) (blob : Bytes) : Prop :=
  ∃ priv filler, (w.ends i).random.ephemeralKey = .ok priv ∧
    (w.ends i).random.blobFiller = .ok filler ∧
    sealSecureBlob lib filler (securePSK lib cfg.pluginSecret) label prior (lib.publicKey priv)
      flags = .ok blob

/-- The hello of the server is sealed, with the key it has drawn. -/
theorem Offered.made (offered : w.Offered lib cfg r hello priv) :
    w.Sealed lib cfg (.inr r) "server" [] 0 hello ∧
      (w.servers r).random.ephemeralKey = .ok priv := by
  obtain ⟨key, drawn, rest⟩ := except_bind_eq_ok.mp offered
  obtain ⟨filler, filled, rest⟩ := except_bind_eq_ok.mp rest
  obtain ⟨blob, made, same⟩ := except_bind_eq_ok.mp rest
  cases same
  exact ⟨⟨priv, filler, drawn, filled, made⟩, drawn⟩

theorem Answered.length_hello (answered : w.Answered lib cfg c hello reply keys) :
    hello.length = secureBlobLen := by
  rw [answered.read, List.length_take, Nat.min_eq_left answered.enough]

/-- The client's reply is sealed over the hello, and its keys come from the point it shares. -/
theorem Answered.made (answered : w.Answered lib cfg c hello reply keys) :
    w.Sealed lib cfg (.inl c) "client" hello (if w.toNAT c then 1 else 0) reply ∧
      ∃ shared, w.Derived lib cfg shared hello reply keys := by
  obtain ⟨⟨spub, flags⟩, opened, rest⟩ := except_bind_eq_ok.mp answered.replied
  obtain ⟨peer, valid, rest⟩ := except_bind_eq_ok.mp rest
  obtain ⟨priv, drawn, rest⟩ := except_bind_eq_ok.mp rest
  obtain ⟨shared, agreed, rest⟩ := except_bind_eq_ok.mp rest
  obtain ⟨filler, filled, rest⟩ := except_bind_eq_ok.mp rest
  obtain ⟨blob, made, rest⟩ := except_bind_eq_ok.mp rest
  obtain ⟨derived, derivation, same⟩ := except_bind_eq_ok.mp rest
  cases same
  exact ⟨⟨priv, filler, drawn, filled, made⟩, shared, derivation,
    .inl ⟨c, spub, flags, peer, priv, answered, opened, except_mapError_eq_ok.mp valid,
      drawn, except_mapError_eq_ok.mp agreed⟩⟩

/-- The keys of the server come from the point it shares, and its flag from the reply. -/
theorem Finished.made (finished : w.Finished lib cfg r hello reply keys toNAT) :
    (∃ pub flags, openSecureBlob lib (securePSK lib cfg.pluginSecret) "client" hello reply =
        .ok (pub, flags) ∧ decide (flags = 1) = toNAT) ∧
      ∃ shared, w.Derived lib cfg shared hello reply keys := by
  obtain ⟨priv, offered, done⟩ := finished.finished
  obtain ⟨cpub, flags, peer, shared, opened, -, valid, agreed, derivation, flag⟩ :=
    secureServerFinish_eq_ok.mp done
  exact ⟨⟨cpub, flags, opened, flag⟩, shared, derivation,
    .inr ⟨r, toNAT, cpub, flags, peer, priv, finished, opened, valid, offered.made.2, agreed⟩⟩

theorem Sealed.length (sized : lib.Sized) {i : ι ⊕ κ}
    (sealed : w.Sealed lib cfg i label prior flags blob) : blob.length = secureBlobLen := by
  obtain ⟨priv, filler, -, filled, made⟩ := sealed
  obtain ⟨-, -, -, full, -⟩ :=
    sealSecureBlob_parts sized ((w.ends i).filled filler filled) (sized.publicKey priv) made
  exact full

theorem Sealed.opens (sized : lib.Sized) {i : ι ⊕ κ}
    (sealed : w.Sealed lib cfg i label prior flags blob) :
    ∃ pub, openSecureBlob lib (securePSK lib cfg.pluginSecret) label prior blob =
      .ok (pub, flags) := by
  obtain ⟨priv, filler, -, filled, made⟩ := sealed
  exact ⟨_, openSecureBlob_sealSecureBlob sized ((w.ends i).filled filler filled)
    (sized.publicKey priv) made⟩

/-- **No two ends seal the same head.** -/
theorem Ideal.sealed_unique (ideal : w.Ideal lib cfg)
    (sized : lib.Sized) {i j : ι ⊕ κ} {label' : String} {prior' blob' : Bytes} {flags' : UInt8}
    (first : w.Sealed lib cfg i label prior flags blob)
    (second : w.Sealed lib cfg j label' prior' flags' blob')
    (same : blob.take secureTagOff = blob'.take secureTagOff) : i = j := by
  obtain ⟨priv, filler, drawn, filled, made⟩ := first
  obtain ⟨priv', filler', drawn', filled', made'⟩ := second
  obtain ⟨salt, key⟩ := sealSecureBlob_head_inj sized ((w.ends i).filled filler filled)
    ((w.ends j).filled filler' filled') (sized.publicKey priv) (sized.publicKey priv') made made'
    same
  exact ideal.fresh i j priv filler priv' filler' drawn filled drawn' filled' salt key

/-! ## Where accepted blobs come from -/

theorem tagMessage_server_ne_client (hello prior reply : Bytes) :
    tagMessage "server" [] hello ≠ tagMessage "client" prior reply := by
  intro same
  rw [tagMessage, tagMessage, List.append_assoc, List.append_assoc] at same
  have labels : ascii "server" = ascii "client" := List.append_inj_left same (by decide)
  exact absurd labels (by decide)

theorem tagMessage_client_inj {prior' reply : Bytes} (length : prior.length = prior'.length)
    (same : tagMessage "client" prior reply = tagMessage "client" prior' reply') :
    prior = prior' ∧ reply.take secureTagOff = reply'.take secureTagOff := by
  rw [tagMessage, tagMessage, List.append_assoc, List.append_assoc] at same
  exact List.append_inj (List.append_cancel_left same) length

/-- The head of a hello that a client has answered was offered by a server. -/
theorem Ideal.hello_origin (ideal : w.Ideal lib cfg)
    (answered : w.Answered lib cfg c hello reply keys) :
    ∃ r offer priv, w.Offered lib cfg r offer priv ∧
      offer.take secureTagOff = hello.take secureTagOff := by
  rcases ideal.unforgeable _ (.inl ⟨c, hello, reply, keys, answered, rfl⟩) with
    ⟨r, offer, priv, offered, same⟩ | ⟨_, _, _, _, _, same⟩
  · exact ⟨r, offer, priv, offered, (List.append_cancel_left same).symm⟩
  · exact absurd same (tagMessage_server_ne_client _ _ _)

/-- The head of a reply that a server has finished on was made by a client for the server's own
hello. -/
theorem Ideal.reply_origin (ideal : w.Ideal lib cfg) (sized : lib.Sized)
    (finished : w.Finished lib cfg r hello reply keys toNAT) :
    ∃ c answer keys', w.Answered lib cfg c hello answer keys' ∧
      answer.take secureTagOff = reply.take secureTagOff := by
  rcases ideal.unforgeable _ (.inr ⟨r, hello, reply, keys, toNAT, finished, rfl⟩) with
    ⟨_, _, _, _, same⟩ | ⟨c, heard, answer, keys', answered, same⟩
  · exact absurd same.symm (tagMessage_server_ne_client _ _ _)
  · obtain ⟨_, offered, -⟩ := finished.finished
    have length : hello.length = heard.length := by
      rw [offered.made.1.length sized, answered.length_hello]
    obtain ⟨rfl, head⟩ := tagMessage_client_inj length same
    exact ⟨c, answer, keys', answered, head.symm⟩

/-! ## The confirm -/

theorem eq_keyStreamStart {key data : Bytes} {u : Unit} (length : data.length = secureConfirmSz)
    (zeros : checkConfirm (xorKeyStream lib key 0 data) = .ok u) :
    data = keyStreamStart lib key := by
  have all : (xorKeyStream lib key 0 data).all (· == 0) = true := by
    rw [checkConfirm] at zeros
    split at zeros
    · assumption
    · cases zeros
  apply List.ext_getElem
  · rw [length, keyStreamStart, List.length_map, List.length_range]
  intro i inData _
  have inStream : i < (xorKeyStream lib key 0 data).length := by
    rwa [xorKeyStream, List.length_mapIdx]
  have zero := List.all_eq_true.mp all _ (List.getElem_mem inStream)
  simp only [xorKeyStream, List.getElem_mapIdx, Nat.zero_add, beq_iff_eq] at zero
  simp only [keyStreamStart, List.getElem_map, List.getElem_range]
  exact UInt8.xor_eq_zero_iff.mp zero

/-- A client that returns has answered a hello, has heard the start of the server's keystream, and
encrypts under the derived keys. -/
theorem Returned.confirmed (sized : lib.Sized) {conn : NetConn}
    (returned : w.Returned lib cfg c conn) :
    ∃ hello reply keys, w.Answered lib cfg c hello reply keys ∧
      ((w.clients c).heard.drop secureBlobLen).take secureConfirmSz = keyStreamStart lib keys.s2c ∧
      conn = .secure keys.s2c keys.c2s secureConfirmSz 0 := by
  obtain ⟨final, run⟩ := returned
  simp only [secureGenericClient, bind_eq_ok, within_eq_ok, setDeadline_eq_ok,
    readFull_eq_ok, lift_eq_ok, except_mapError_eq_ok] at run
  obtain ⟨_, _, ⟨-, rfl⟩, hello, _, ⟨enough, read, rfl⟩, ⟨reply, keys⟩, _, ⟨replied, rfl⟩,
    _, sent, write, conn₀, _, ⟨cipher, rfl⟩, ⟨confirm, conn₁⟩, after, readConfirm, _, _,
    ⟨zeros, rfl⟩, done⟩ := run
  have answered : w.Answered lib cfg c hello reply keys := ⟨enough, read, replied⟩
  have some : reply ≠ [] :=
    List.ne_nil_of_length_pos (by rw [answered.made.1.length sized]; decide)
  obtain ⟨-, rfl⟩ := (writeAll_eq_ok some).mp write
  obtain ⟨-, -, rfl⟩ := newSecureConn_eq_ok.mp cipher
  simp only [Bool.false_eq_true, if_false, readFullFrom, bind_eq_ok, readFull_eq_ok,
    pure_eq_ok, Prod.mk.injEq] at readConfirm
  obtain ⟨data, _, ⟨long, heard, rfl⟩, ⟨rfl, rfl⟩, rfl⟩ := readConfirm
  obtain ⟨rfl, rfl⟩ := pure_eq_ok.mp done
  refine ⟨hello, reply, keys, answered, ?_, by rw [Nat.zero_add]⟩
  have length : data.length = secureConfirmSz := by
    rw [heard, List.length_take, Nat.min_eq_left long]
  exact heard.symm.trans (eq_keyStreamStart length zeros)

/-! ## Agreement -/

/-- Equal server keys come from equal transcripts and are then equal in both directions. -/
theorem Ideal.same_run (ideal : w.Ideal lib cfg) {shared shared' : Bytes}
    (derived : w.Derived lib cfg shared hello reply keys)
    (derived' : w.Derived lib cfg shared' hello' reply' keys')
    (length : hello.length = hello'.length) (same : keys.s2c = keys'.s2c) :
    hello = hello' ∧ reply = reply' ∧ keys = keys' := by
  obtain ⟨rfl, digest⟩ := ideal.derivation _ _ _ _ _ _ _ _ derived derived' same
  have transcript := ideal.transcript _ _ _ _ _ _ _ _ derived derived' digest
  obtain ⟨rfl, rfl⟩ := List.append_inj transcript length
  exact ⟨rfl, rfl, Except.ok.inj (derived.1.symm.trans derived'.1)⟩

/-- A server that finishes on the reply of a client takes over its flag. -/
theorem Answered.toNAT_eq (sized : lib.Sized)
    (answered : w.Answered lib cfg c hello reply keys)
    (finished : w.Finished lib cfg r hello reply keys' toNAT) : toNAT = w.toNAT c := by
  obtain ⟨⟨_, flags, opened, flag⟩, -⟩ := finished.made
  obtain ⟨_, sealed⟩ := answered.made.1.opens sized
  obtain ⟨-, same⟩ := Prod.mk.inj (Except.ok.inj (opened.symm.trans sealed))
  rw [← flag, same]
  cases w.toNAT c <;> rfl

section

variable (ideal : w.Ideal lib cfg) (sized : lib.Sized)

include ideal sized

/-- **A client that returns has a partner.** -/
theorem Ideal.partner {conn : NetConn} (returned : w.Returned lib cfg c conn) :
    ∃ r hello reply keys, w.Agree lib cfg c r hello reply keys ∧
      conn = .secure keys.s2c keys.c2s secureConfirmSz 0 := by
  obtain ⟨hello, reply, keys, answered, heard, used⟩ := returned.confirmed sized
  obtain ⟨-, shared, derived⟩ := answered.made
  rcases ideal.unpredictable c hello reply keys answered heard with
    ⟨r, hello', reply', keys', toNAT, finished, same⟩ | ⟨c', _, _, keys', answered', same⟩
  · obtain ⟨-, shared', derived'⟩ := finished.made
    obtain ⟨_, offered, -⟩ := finished.finished
    have length : hello.length = hello'.length := by
      rw [answered.length_hello, offered.made.1.length sized]
    obtain ⟨rfl, rfl, rfl⟩ := ideal.same_run derived derived' length same
    cases answered.toNAT_eq sized finished
    exact ⟨r, hello, reply, keys, ⟨answered, finished⟩, used⟩
  · obtain ⟨-, shared', derived'⟩ := answered'.made
    exact absurd same (ideal.separated _ _ _ _ _ _ _ _ derived derived')

/-- **One partner for one client.** A server finishes on one reply, which one client made. -/
theorem Ideal.partner_unique {c' : ι} (first : w.Agree lib cfg c r hello reply keys)
    (second : w.Agree lib cfg c' r hello' reply' keys') : c = c' := by
  have same : reply = reply' := first.2.read.trans second.2.read.symm
  exact Sum.inl.inj (ideal.sealed_unique sized first.1.made.1 second.1.made.1
    (congrArg (List.take secureTagOff) same))

/-- A server finishes on a client's reply only if that answers its own hello. -/
theorem Ideal.reply_bound (answered : w.Answered lib cfg c hello reply keys)
    (finished : w.Finished lib cfg r hello' reply keys' toNAT) : hello = hello' := by
  obtain ⟨c', answer, _, origin, head⟩ := ideal.reply_origin sized finished
  cases ideal.sealed_unique sized origin.made.1 answered.made.1 head
  exact answered.read.trans origin.read.symm

theorem Ideal.hello_not_reply {r' : κ} (offered : w.Offered lib cfg r' blob priv) :
    ¬ w.Finished lib cfg r hello blob keys toNAT := by
  intro finished
  obtain ⟨_, _, _, origin, head⟩ := ideal.reply_origin sized finished
  cases ideal.sealed_unique sized origin.made.1 offered.made.1 head

theorem Ideal.reply_not_hello {c' : ι} (made : w.Answered lib cfg c' hello blob keys) :
    ¬ w.Answered lib cfg c blob reply keys' := by
  intro answered
  obtain ⟨_, _, _, origin, head⟩ := ideal.hello_origin answered
  cases ideal.sealed_unique sized origin.made.1 made.made.1 head

end

/-- **Agreement.** Under ideal primitives, whatever the attacker makes the runs hear: a client that
returns agrees with a server on the hello, the reply, the keys it then uses and its flag; no server
agrees with two clients; a server finishes on no reply to another hello and on no hello; and a
client answers no reply. -/
theorem secureExchange_agreement (sized : lib.Sized) (w : ExchangeWorld ι κ)
    (ideal : w.Ideal lib cfg) : (∀ c conn, w.Returned lib cfg c conn → ∃ r hello reply keys,
        w.Agree lib cfg c r hello reply keys ∧ conn = .secure keys.s2c keys.c2s secureConfirmSz 0) ∧
      (∀ c c' r hello hello' reply reply' keys keys', w.Agree lib cfg c r hello reply keys →
        w.Agree lib cfg c' r hello' reply' keys' → c = c') ∧
      (∀ c r hello hello' reply keys keys' toNAT, w.Answered lib cfg c hello reply keys →
        w.Finished lib cfg r hello' reply keys' toNAT → hello = hello') ∧
      (∀ r r' hello blob priv keys toNAT, w.Offered lib cfg r' blob priv →
        ¬ w.Finished lib cfg r hello blob keys toNAT) ∧
      ∀ c c' hello blob reply keys keys', w.Answered lib cfg c' hello blob keys →
        ¬ w.Answered lib cfg c blob reply keys' := by
  refine ⟨?_, ?_, ?_, ?_, ?_⟩
  · intro c conn returned
    exact ideal.partner sized returned
  · intro c c' r hello hello' reply reply' keys keys' first second
    exact ideal.partner_unique sized first second
  · intro c r hello hello' reply keys keys' toNAT answered finished
    exact ideal.reply_bound sized answered finished
  · intro r r' hello blob priv keys toNAT offered
    exact ideal.hello_not_reply sized offered
  · intro c c' hello blob reply keys keys' made
    exact ideal.reply_not_hello sized made

end ExchangeWorld

/-! ## One undisturbed exchange -/

/-- Library functions whose results have the documented sizes, with a mask and a server key of
ones. -/
def sizedPrimitives : Primitives :=
  { constantPrimitives with
    hmac := fun _ _ => List.replicate 32 0
    sha256 := fun data => data
    hkdf := fun _ _ _ size => .ok (List.replicate (size - 48) 0 ++ List.replicate (min size 48) 1)
    newPublicKey := fun key => .ok key
    publicKey := fun _ => List.replicate 32 0 }

theorem sizedPrimitives_sized : sizedPrimitives.Sized where
  mac := fun _ _ => List.length_replicate
  stream := by
    intro secret salt info bytes size made
    cases made
    rw [List.length_append, List.length_replicate, List.length_replicate]
    omega
  publicKey := fun _ => List.length_replicate

def secureCamo : CamoConfig where
  profile := .source
  pluginChannel := []
  pluginSecret := ascii "s3cret"
  deep := false
  secure := true
  loginUsername := ascii "Steve"
  rejectMessage := []
  serverName := ascii "Dedicated Server"

/-- An end that draws a blob of equal bytes. -/
def sampleEnd (byte : UInt8) (heard : Bytes) : SecureEnd where
  net := reliableNetwork
  random := ⟨.ok [], .ok (List.replicate secureBlobLen byte)⟩
  heard := heard
  filled := by
    intro filler drawn
    cases drawn
    exact List.length_replicate

/-- The blob an end seals that draws a blob of equal bytes. -/
def sampleBlob (byte flags : UInt8) : Bytes :=
  (0x80 ||| byte) :: List.replicate 15 byte ++ List.replicate 32 1 ++ [flags ^^^ 1] ++
    List.replicate 16 0 ++ List.replicate 62 byte ++ [byte ||| 1]

def sampleKeys : SecureKeys :=
  ⟨List.replicate 48 0, List.replicate 48 1⟩

/-- A client and a server that hear each other. -/
def sampleExchange : ExchangeWorld Unit Unit where
  clients := fun _ => sampleEnd 2 (sampleBlob 4 0 ++ List.replicate 16 0)
  toNAT := fun _ => true
  servers := fun _ => sampleEnd 4 (sampleBlob 2 1)

variable {hello reply : Bytes} {keys : SecureKeys}

theorem sampleExchange_offered :
    sampleExchange.Offered sizedPrimitives secureCamo () (sampleBlob 4 0) [] := by
  rw [ExchangeWorld.Offered]
  decide +kernel

theorem sampleExchange_answered :
    sampleExchange.Answered sizedPrimitives secureCamo () (sampleBlob 4 0) (sampleBlob 2 1)
      sampleKeys where
  enough := by decide +kernel
  read := by decide +kernel
  replied := by decide +kernel

theorem sampleExchange_finished :
    sampleExchange.Finished sizedPrimitives secureCamo () (sampleBlob 4 0) (sampleBlob 2 1)
      sampleKeys true where
  enough := by decide +kernel
  read := by decide +kernel
  finished := ⟨[], sampleExchange_offered, by decide +kernel⟩

theorem sampleExchange_of_answered
    (answered : sampleExchange.Answered sizedPrimitives secureCamo () hello reply keys) :
    hello = sampleBlob 4 0 ∧ reply = sampleBlob 2 1 ∧ keys = sampleKeys := by
  obtain rfl := answered.read.trans sampleExchange_answered.read.symm
  have same := answered.replied.symm.trans sampleExchange_answered.replied
  exact ⟨rfl, Prod.mk.inj (Except.ok.inj same)⟩

theorem sampleExchange_of_offered
    (offered : sampleExchange.Offered sizedPrimitives secureCamo () hello priv) :
    hello = sampleBlob 4 0 ∧ priv = [] :=
  Prod.mk.inj (Except.ok.inj (offered.symm.trans sampleExchange_offered))

theorem sampleExchange_of_finished
    (finished : sampleExchange.Finished sizedPrimitives secureCamo () hello reply keys toNAT) :
    hello = sampleBlob 4 0 ∧ reply = sampleBlob 2 1 ∧ keys = sampleKeys := by
  obtain rfl := finished.read.trans sampleExchange_finished.read.symm
  obtain ⟨_, offered, done⟩ := finished.finished
  obtain ⟨_, offered', done'⟩ := sampleExchange_finished.finished
  obtain ⟨rfl, rfl⟩ := sampleExchange_of_offered offered
  obtain ⟨-, rfl⟩ := sampleExchange_of_offered offered'
  exact ⟨rfl, rfl, (Prod.mk.inj (Except.ok.inj (done.symm.trans done'))).1⟩

theorem sampleExchange_of_derived {shared : Bytes}
    (derived : sampleExchange.Derived sizedPrimitives secureCamo shared hello reply keys) :
    shared = [] ∧ hello = sampleBlob 4 0 ∧ reply = sampleBlob 2 1 ∧ keys = sampleKeys := by
  rcases derived.2 with ⟨_, _, _, _, _, answered, _, _, _, agreed⟩ |
    ⟨_, _, _, _, _, _, finished, _, _, _, agreed⟩
  · exact ⟨(Except.ok.inj agreed).symm, sampleExchange_of_answered answered⟩
  · exact ⟨(Except.ok.inj agreed).symm, sampleExchange_of_finished finished⟩

theorem sampleExchange_ideal : sampleExchange.Ideal sizedPrimitives secureCamo where
  unforgeable := by
    rintro message (⟨_, _, _, _, answered, rfl⟩ | ⟨_, _, _, _, _, finished, rfl⟩)
    · obtain ⟨rfl, -⟩ := sampleExchange_of_answered answered
      exact .inl ⟨(), _, _, sampleExchange_offered, rfl⟩
    · obtain ⟨rfl, rfl, -⟩ := sampleExchange_of_finished finished
      exact .inr ⟨(), _, _, _, sampleExchange_answered, rfl⟩
  unpredictable := by
    intro _ _ _ _ answered _
    obtain ⟨-, -, rfl⟩ := sampleExchange_of_answered answered
    exact .inl ⟨(), _, _, _, _, sampleExchange_finished, rfl⟩
  derivation := by
    intro _ _ _ _ _ _ _ _ first second _
    obtain ⟨rfl, rfl, rfl, -⟩ := sampleExchange_of_derived first
    obtain ⟨rfl, rfl, rfl, -⟩ := sampleExchange_of_derived second
    exact ⟨rfl, rfl⟩
  separated := by
    intro _ _ _ _ _ _ _ _ first second
    obtain ⟨-, -, -, rfl⟩ := sampleExchange_of_derived first
    obtain ⟨-, -, -, rfl⟩ := sampleExchange_of_derived second
    decide
  transcript := by
    intro _ _ _ _ _ _ _ _ _ _ same
    exact same
  fresh := by
    rintro (_ | _) (_ | _) _ _ _ _ _ filled _ filled' salt _
    · rfl
    · cases filled
      cases filled'
      exact absurd salt (by decide)
    · cases filled
      cases filled'
      exact absurd salt (by decide)
    · rfl

set_option maxRecDepth 4000 in
theorem sampleExchange_returned : sampleExchange.Returned sizedPrimitives secureCamo ()
      (.secure sampleKeys.s2c sampleKeys.c2s secureConfirmSz 0) :=
  ⟨⟨[], [sampleBlob 2 1], 1, 1⟩, rfl⟩

theorem sampleExchange_agrees :
    ∃ r hello reply keys, sampleExchange.Agree sizedPrimitives secureCamo () r hello reply keys := by
  obtain ⟨r, hello, reply, keys, agree, -⟩ := (ExchangeWorld.secureExchange_agreement
    sizedPrimitives_sized sampleExchange sampleExchange_ideal).1 () _ sampleExchange_returned
  exact ⟨r, hello, reply, keys, agree⟩

end Conn
