import WireguardMesh.Conn.Camouflage

/-! # The parts of the secure exchange

A sealed blob is a head of salt, masked public key and masked flags, a tag over the head, and
filler (`sealSecureBlob_parts`). It opens to what was sealed into it
(`openSecureBlob_sealSecureBlob`), and its head tells it from every other
(`sealSecureBlob_head_inj`), for library functions whose results have the documented sizes
(`Primitives.Sized`).
-/

namespace Conn

open Effect

variable {mask random pub psk prior blob : Bytes} {label : String} {flags : UInt8}

/-- The sizes of what the library functions return. -/
structure Primitives.Sized (lib : Primitives) : Prop where
  mac : ∀ key message, (lib.hmac key message).length = 32
  stream : ∀ {secret salt info bytes : Bytes} {size : Nat},
    lib.hkdf secret salt info size = .ok bytes → bytes.length = size
  publicKey : ∀ priv, (lib.publicKey priv).length = 32

/-- The random bytes in the shape of an RSA modulus: full bit length, and odd. -/
def shapedFiller (random : Bytes) : Bytes :=
  (random.modify 0 (· ||| 0x80)).modify (secureBlobLen - 1) (· ||| 1)

/-- The salt of the blob that starts from these random bytes. -/
def blobSalt (random : Bytes) : Bytes :=
  (shapedFiller random).take 16

/-- What the tag of a blob is a MAC of. -/
def tagMessage (label : String) (prior blob : Bytes) : Bytes :=
  ascii label ++ prior ++ blob.take secureTagOff

variable {lib : Primitives}

theorem xor_xor_cancel (a b : UInt8) : a ^^^ b ^^^ b = a := by
  rw [UInt8.xor_assoc, UInt8.xor_self, UInt8.xor_zero]

theorem zipWith_xor_cancel {data : Bytes} (covered : data.length ≤ mask.length) :
    List.zipWith (· ^^^ ·) (List.zipWith (· ^^^ ·) data mask) mask = data := by
  induction data generalizing mask with
  | nil => rfl
  | cons byte data ih =>
    cases mask with
    | nil => cases covered
    | cons key mask =>
      rw [List.zipWith_cons_cons, List.zipWith_cons_cons, xor_xor_cancel,
        ih (Nat.le_of_succ_le_succ covered)]

theorem length_secureTag (sized : lib.Sized) (psk : Bytes) (label : String)
    (prior head : Bytes) : (secureTag lib psk label prior head).length = secureTagLen := by
  rw [secureTag, List.length_take, sized.mac]
  rfl

/-- The head of a blob: the salt, the masked key and the masked flags. -/
def blobHead (random mask pub : Bytes) (flags : UInt8) : Bytes :=
  blobSalt random ++ List.zipWith (· ^^^ ·) (pub.take 32) mask ++ [flags ^^^ mask.getD 32 0]

theorem length_blobSalt (full : random.length = secureBlobLen) : (blobSalt random).length = 16 := by
  rw [blobSalt, shapedFiller, List.length_take, List.length_modify, List.length_modify, full]
  rfl

theorem length_blobHead (full : random.length = secureBlobLen) (maskSize : mask.length = 33)
    (keySize : pub.length = 32) (flags : UInt8) :
    (blobHead random mask pub flags).length = secureTagOff := by
  rw [blobHead, List.length_append, List.length_append, length_blobSalt full,
    List.length_zipWith, List.length_take, keySize, maskSize]
  rfl

theorem openSecureBlob_eq_ok : openSecureBlob lib psk label prior blob = .ok (pub, flags) ↔
      blob.length = secureBlobLen ∧ (blob.drop secureTagOff).take secureTagLen =
          secureTag lib psk label prior (blob.take secureTagOff) ∧
        ∃ mask, secureMask lib psk (blob.take 16) = .ok mask ∧
          pub = List.zipWith (· ^^^ ·) ((blob.drop 16).take 32) mask ∧
          flags = blob.getD 48 0 ^^^ mask.getD 32 0 := by
  rw [openSecureBlob]
  by_cases full : blob.length = secureBlobLen
  · by_cases authentic : (blob.drop secureTagOff).take secureTagLen =
        secureTag lib psk label prior (blob.take secureTagOff)
    · simp only [full, authentic, ne_eq, not_true_eq_false, if_false, true_and]
      rw [except_bind_eq_ok]
      simp [except_pure_eq_ok, @eq_comm _ pub, @eq_comm _ flags]
    · simp only [full, authentic, ne_eq, not_true_eq_false, not_false_eq_true, if_false, if_true,
        false_and, and_false, iff_false]
      exact nofun
  · simp only [full, ne_eq, not_false_eq_true, if_true, false_and, iff_false]
    exact nofun

theorem blob_slices {salt key : Bytes} (saltSize : salt.length = 16)
    (keySize : key.length = 32) (flags : UInt8) (rest : Bytes) :
    (salt ++ (key ++ flags :: rest)).take 16 = salt ∧
      ((salt ++ (key ++ flags :: rest)).drop 16).take 32 = key ∧
      (salt ++ (key ++ flags :: rest)).getD 48 0 = flags := by
  refine ⟨List.take_left' saltSize, ?_, ?_⟩
  · rw [List.drop_left' saltSize, List.take_left' keySize]
  · rw [List.getD_append_right _ _ _ _ (by omega), List.getD_append_right _ _ _ _ (by omega),
      saltSize, keySize]
    rfl

theorem blobHead_slices
    (full : random.length = secureBlobLen) (maskSize : mask.length = 33) (keySize : pub.length = 32)
    (flags : UInt8) (rest : Bytes) :
    (blobHead random mask pub flags ++ rest).take 16 = blobSalt random ∧
      List.zipWith (· ^^^ ·) (((blobHead random mask pub flags ++ rest).drop 16).take 32) mask =
        pub ∧ (blobHead random mask pub flags ++ rest).getD 48 0 ^^^ mask.getD 32 0 = flags := by
  have maskedSize : (List.zipWith (· ^^^ ·) (pub.take 32) mask).length = 32 := by
    rw [List.length_zipWith, List.length_take, keySize, maskSize]
    rfl
  have whole : pub.take 32 = pub := List.take_of_length_le (Nat.le_of_eq keySize)
  obtain ⟨salt, maskedKey, maskedFlags⟩ := blob_slices (length_blobSalt full) maskedSize
    (flags ^^^ mask.getD 32 0) rest
  rw [blobHead, List.append_assoc, List.append_assoc, List.singleton_append, salt, maskedKey,
    maskedFlags, whole, zipWith_xor_cancel (by omega), xor_xor_cancel]
  exact ⟨rfl, rfl, rfl⟩

section

variable (sized : lib.Sized) (full : random.length = secureBlobLen) (keySize : pub.length = 32)
  (made : sealSecureBlob lib random psk label prior pub flags = .ok blob)

include sized full keySize made

/-- **A sealed blob.** Its head, its tag and what is left of the random bytes. -/
theorem sealSecureBlob_parts :
    ∃ mask, secureMask lib psk (blobSalt random) = .ok mask ∧ mask.length = 33 ∧
      blob.length = secureBlobLen ∧ blob.take secureTagOff = blobHead random mask pub flags ∧
      (blob.drop secureTagOff).take secureTagLen =
        secureTag lib psk label prior (blob.take secureTagOff) := by
  obtain ⟨mask, masked, sealed⟩ := except_bind_eq_ok.mp made
  have maskSize : mask.length = 33 := sized.stream masked
  have headSize := length_blobHead full maskSize keySize flags
  have tagSize := length_secureTag sized psk label prior (blobHead random mask pub flags)
  have split : blob = blobHead random mask pub flags ++
      (secureTag lib psk label prior (blobHead random mask pub flags) ++
        (shapedFiller random).drop (secureTagOff + secureTagLen)) := by
    rw [← List.append_assoc]
    exact (Except.ok.inj sealed).symm
  have front : blob.take secureTagOff = blobHead random mask pub flags := by
    rw [split, ← headSize, List.take_left]
  refine ⟨mask, masked, maskSize, ?_, front, ?_⟩
  · rw [split, List.length_append, List.length_append, headSize, tagSize, List.length_drop,
      shapedFiller, List.length_modify, List.length_modify, full]
    rfl
  · rw [front, split, ← headSize, List.drop_left, ← tagSize, List.take_left]

/-- **A sealed blob opens** to the key and the flags sealed into it. -/
theorem openSecureBlob_sealSecureBlob :
    openSecureBlob lib psk label prior blob = .ok (pub, flags) := by
  obtain ⟨mask, masked, maskSize, blobSize, front, tagged⟩ :=
    sealSecureBlob_parts sized full keySize made
  obtain ⟨salt, key, flag⟩ :=
    blobHead_slices full maskSize keySize flags (blob.drop secureTagOff)
  rw [← front, List.take_append_drop] at salt key flag
  exact openSecureBlob_eq_ok.mpr
    ⟨blobSize, tagged, mask, salt ▸ masked, key.symm, flag.symm⟩

theorem top_of_sealSecureBlob :
    0x80 ≤ blob.getD 0 0 := by
  obtain ⟨mask, -, -, -, front, -⟩ := sealSecureBlob_parts sized full keySize made
  cases random with
  | nil => cases full
  | cons byte rest =>
    have first : blob.getD 0 0 = byte ||| 0x80 := by
      rw [← List.take_append_drop secureTagOff blob, front]
      rfl
    rw [first, UInt8.le_iff_toNat_le, UInt8.toNat_or]
    exact Nat.right_le_or

end

/-- **Heads tell blobs apart.** Two blobs with the same head start from the same salt and carry
the same key. -/
theorem sealSecureBlob_head_inj (sized : lib.Sized)
    {random' prior' pub' blob' : Bytes} {label' : String} {flags' : UInt8}
    (full : random.length = secureBlobLen) (full' : random'.length = secureBlobLen)
    (keySize : pub.length = 32) (keySize' : pub'.length = 32)
    (made : sealSecureBlob lib random psk label prior pub flags = .ok blob)
    (made' : sealSecureBlob lib random' psk label' prior' pub' flags' = .ok blob')
    (same : blob.take secureTagOff = blob'.take secureTagOff) :
    blobSalt random = blobSalt random' ∧ pub = pub' := by
  obtain ⟨mask, masked, maskSize, -, front, -⟩ := sealSecureBlob_parts sized full keySize made
  obtain ⟨mask', masked', maskSize', -, front', -⟩ :=
    sealSecureBlob_parts sized full' keySize' made'
  obtain ⟨salt, key, -⟩ := blobHead_slices full maskSize keySize flags []
  obtain ⟨salt', key', -⟩ := blobHead_slices full' maskSize' keySize' flags' []
  rw [← front, same] at salt key
  rw [← front'] at salt' key'
  have sameSalt : blobSalt random = blobSalt random' := salt.symm.trans salt'
  have sameMask : mask = mask' := by
    rw [sameSalt] at masked
    exact Except.ok.inj (masked.symm.trans masked')
  exact ⟨sameSalt, key.symm.trans (sameMask ▸ key')⟩

theorem secureServerFinish_eq_ok {hello priv reply : Bytes} {keys : SecureKeys} {toNAT : Bool} :
    secureServerFinish lib psk hello priv reply = .ok (keys, toNAT) ↔ ∃ cpub flags peer shared,
        openSecureBlob lib psk "client" hello reply = .ok (cpub, flags) ∧ ¬ flags > 1 ∧
          lib.newPublicKey cpub = .ok peer ∧ lib.ecdh priv peer = .ok shared ∧
          deriveSecureKeys lib psk shared hello reply = .ok keys ∧ decide (flags = 1) = toNAT := by
  constructor
  · intro finished
    rw [secureServerFinish] at finished
    split at finished
    · cases finished
    next cpub flags opened =>
    split at finished
    · cases finished
    next small =>
    split at finished
    · cases finished
    next peer valid =>
    split at finished
    · cases finished
    next shared agreed =>
    obtain ⟨_, derived, same⟩ := except_map_eq_ok.mp finished
    cases same
    exact ⟨cpub, flags, peer, shared, opened, small, valid, agreed, derived, rfl⟩
  · rintro ⟨cpub, flags, peer, shared, opened, small, valid, agreed, derived, rfl⟩
    simp only [secureServerFinish, opened, small, if_false, valid, agreed, derived, Except.map]

theorem newSecureConn_eq_ok {keys : SecureKeys} {server : Bool} {conn : NetConn} :
    newSecureConn lib keys server = .ok conn ↔
      lib.newCipher (keys.c2s.take 32) = .ok () ∧ lib.newCipher (keys.s2c.take 32) = .ok () ∧
        conn = if server then .secure keys.c2s keys.s2c 0 0 else .secure keys.s2c keys.c2s 0 0 := by
  simp only [newSecureConn, except_bind_eq_ok, except_pure_eq_ok]
  cases server with
  | false =>
    constructor
    · rintro ⟨_, reads, _, writes, rfl⟩
      exact ⟨writes, reads, rfl⟩
    · rintro ⟨writes, reads, rfl⟩
      exact ⟨_, reads, _, writes, rfl⟩
  | true =>
    constructor
    · rintro ⟨_, reads, _, writes, rfl⟩
      exact ⟨reads, writes, rfl⟩
    · rintro ⟨reads, writes, rfl⟩
      exact ⟨_, reads, _, writes, rfl⟩

end Conn
