import WireguardMesh.Foundation.RadixTrie
import WireguardMesh.Net.Masked

/-! # The AllowedIPs table

`device.AllowedIPs`: one trie of prefixes per address family, and for every peer the list of
its entries. The table is a map from masked prefixes to peers: `Insert` gives a prefix to a
peer whoever had it, `Remove` takes it only from its owner, and `RemoveByPeer` takes all prefixes of
a peer. The lists of the peers agree with the tries by construction, and a lookup finds the owner of
the longest prefix of an address (`Wireguard.AllowedIPs.after_longestPrefix`).
-/

namespace Wireguard

open Net Radix

/-- A `*Peer`: peers are told apart by identity, not by their key. -/
abbrev PeerRef := Nat

/-- The tries of the two families. A trie node keeps its masked bits and its length as the list
of its leading bits. -/
structure Tries where
  ipv4 : Trie PeerRef
  ipv6 : Trie PeerRef

namespace Tries

/-- The node of a prefix, found by `nodePlacement`, and the peer it belongs to. -/
def find (t : Tries) (p : Prefix) : Option PeerRef :=
  if p.ip.is4 then t.ipv4.find p.leading else t.ipv6.find p.leading

/-- `parentIndirection.insert` in the trie of the family. -/
def insert (t : Tries) (p : Prefix) (peer : PeerRef) : Tries :=
  if p.ip.is4 then { t with ipv4 := t.ipv4.insert p.leading peer }
  else { t with ipv6 := t.ipv6.insert p.leading peer }

/-- `trieEntry.remove` of the node of a prefix. -/
def erase (t : Tries) (p : Prefix) : Tries :=
  if p.ip.is4 then { t with ipv4 := t.ipv4.erase p.leading }
  else { t with ipv6 := t.ipv6.erase p.leading }

/-- Both tries are ordered. -/
def Ordered (t : Tries) : Prop :=
  t.ipv4.Ordered [] ∧ t.ipv6.Ordered []

theorem ordered_insert {t : Tries} (ordered : t.Ordered) (p : Prefix) (peer : PeerRef) :
    (t.insert p peer).Ordered := by
  rw [insert]
  split
  · exact ⟨Trie.ordered_insert ordered.1 List.nil_prefix, ordered.2⟩
  · exact ⟨ordered.1, Trie.ordered_insert ordered.2 List.nil_prefix⟩

theorem ordered_erase {t : Tries} (ordered : t.Ordered) (p : Prefix) : (t.erase p).Ordered := by
  rw [erase]
  split
  · exact ⟨Trie.ordered_erase ordered.1, ordered.2⟩
  · exact ⟨ordered.1, Trie.ordered_erase ordered.2⟩

section

variable {t : Tries} {p q : Prefix} (ordered : t.Ordered) (valid : p.isValid = true)
  (valid' : q.isValid = true)

include valid valid'

theorem find_insert (peer : PeerRef) :
    (t.insert p peer).find q = if q.masked = p.masked then some peer else t.find q := by
  simp only [Prefix.masked_eq_iff valid' valid, find, insert]
  cases family : p.ip.is4 <;> cases family' : q.ip.is4 <;>
    simp [Trie.find_insert]

include ordered in
theorem find_erase : (t.erase p).find q = if q.masked = p.masked then none else t.find q := by
  simp only [Prefix.masked_eq_iff valid' valid, find, erase]
  cases family : p.ip.is4 <;> cases family' : q.ip.is4 <;>
    simp [Trie.find_erase _ ordered.1, Trie.find_erase _ ordered.2]

end

theorem find_insert_eq_some {t : Tries} {p q : Prefix}
    (valid : p.isValid = true) (valid' : q.isValid = true) (masked : q.masked = q)
    (peer ref : PeerRef) : (t.insert p peer).find q = some ref ↔
      (q = p.masked ∧ peer = ref) ∨ (q ≠ p.masked ∧ t.find q = some ref) := by
  rw [find_insert valid valid', masked]
  split
  · next same => simp [same]
  · next different => simp [different]

theorem find_erase_eq_some {t : Tries} {p q : Prefix} (ordered : t.Ordered)
    (valid : p.isValid = true) (valid' : q.isValid = true) (masked : q.masked = q)
    (ref : PeerRef) : (t.erase p).find q = some ref ↔ q ≠ p.masked ∧ t.find q = some ref := by
  rw [find_erase ordered valid valid', masked]
  split
  · next same => simp [same]
  · next different => simp [different]

theorem find_of_masked {t : Tries} {p q : Prefix} (valid : p.isValid = true)
    (valid' : q.isValid = true) (same : p.masked = q.masked) : t.find p = t.find q := by
  obtain ⟨family, bits⟩ := (Prefix.masked_eq_iff valid valid').mp same
  rw [find, find, family, bits]

end Tries

/-- The table with the `trieEntries` of every peer, in the order in which they were added. -/
structure AllowedIPs where
  tries : Tries
  trieEntries : PeerRef → List Prefix
  ordered : tries.Ordered
  listed : ∀ p peer, p ∈ trieEntries peer ↔
    p.isValid = true ∧ p.masked = p ∧ tries.find p = some peer
  distinct : ∀ peer, (trieEntries peer).Nodup

namespace AllowedIPs

/-- The table of a new device. -/
def empty : AllowedIPs where
  tries := ⟨.nil, .nil⟩
  trieEntries := fun _ => []
  ordered := ⟨trivial, trivial⟩
  listed := by
    intro p peer
    simp [Tries.find, Trie.find]
  distinct := fun _ => List.nodup_nil

/-- The peer that owns a prefix. -/
def find (t : AllowedIPs) (p : Prefix) : Option PeerRef :=
  t.tries.find p

theorem find_empty (p : Prefix) : empty.find p = none :=
  ite_self none

def entriesForPeer (t : AllowedIPs) (peer : PeerRef) : List Prefix :=
  t.trieEntries peer

theorem mem_erase_masked (t : AllowedIPs) (p q : Prefix) (peer : PeerRef) :
    q ∈ (t.trieEntries peer).erase p.masked ↔ q ≠ p.masked ∧ q.isValid = true ∧ q.masked = q ∧
      t.tries.find q = some peer := by
  rw [(t.distinct peer).mem_erase_iff, t.listed]

/-- `AllowedIPs.Insert`: the node of the prefix leaves the list of its old owner and goes to the
end of that of the new one. -/
def insert (t : AllowedIPs) (p : Prefix) (valid : p.isValid = true) (peer : PeerRef) :
    AllowedIPs where
  tries := t.tries.insert p peer
  trieEntries := fun ref =>
    if ref = peer then (t.trieEntries ref).erase p.masked ++ [p.masked]
    else (t.trieEntries ref).erase p.masked
  ordered := Tries.ordered_insert t.ordered p peer
  listed := by
    intro q ref
    have found := fun (good : q.isValid = true) masked =>
      Tries.find_insert_eq_some (t := t.tries) valid good masked peer ref
    have self := Prefix.masked_self valid q
    have others := t.mem_erase_masked p q ref
    by_cases owner : ref = peer
    · rw [if_pos owner, List.mem_append, List.mem_singleton, others]
      grind
    · rw [if_neg owner, others]
      grind
  distinct := by
    intro ref
    have others := (t.distinct ref).erase p.masked
    split
    · rw [List.nodup_append]
      refine ⟨others, List.pairwise_singleton _ _, ?_⟩
      rintro q member _ same rfl
      rw [List.mem_singleton.mp same] at member
      exact (t.distinct ref).not_mem_erase member
    · exact others

/-- `trieEntry.remove` of the node of a prefix, which also leaves the list of its owner. -/
def removeNode (t : AllowedIPs) (p : Prefix) (valid : p.isValid = true) : AllowedIPs where
  tries := t.tries.erase p
  trieEntries := fun ref => (t.trieEntries ref).erase p.masked
  ordered := Tries.ordered_erase t.ordered p
  listed := by
    intro q ref
    have found := fun (good : q.isValid = true) masked =>
      Tries.find_erase_eq_some t.ordered valid good masked ref
    rw [t.mem_erase_masked p q ref]
    grind
  distinct := fun ref => (t.distinct ref).erase _

def remove (t : AllowedIPs) (p : Prefix) (valid : p.isValid = true) (peer : PeerRef) : AllowedIPs :=
  if t.find p = some peer then t.removeNode p valid else t

/-- The loop of `AllowedIPs.RemoveByPeer`. -/
def removeNodes : (entries : List Prefix) → (∀ p ∈ entries, p.isValid = true) → AllowedIPs → AllowedIPs
  | [], _, t => t
  | p :: entries, valid, t =>
    removeNodes entries (fun q member => valid q (List.mem_cons_of_mem p member))
      (t.removeNode p (valid p (.head _)))

def removeByPeer (t : AllowedIPs) (peer : PeerRef) : AllowedIPs :=
  t.removeNodes (t.trieEntries peer) fun p member => ((t.listed p peer).mp member).1

/-! ## The table as a map -/

section

variable {t : AllowedIPs} {p q : Prefix} (valid : p.isValid = true) (valid' : q.isValid = true)

include valid'

theorem find_insert (peer : PeerRef) :
    (t.insert p valid peer).find q = if q.masked = p.masked then some peer else t.find q :=
  Tries.find_insert valid valid' peer

theorem find_removeNode :
    (t.removeNode p valid).find q = if q.masked = p.masked then none else t.find q :=
  Tries.find_erase t.ordered valid valid'

theorem find_remove (peer : PeerRef) : (t.remove p valid peer).find q =
    if q.masked = p.masked ∧ t.find q = some peer then none else t.find q := by
  have one : q.masked = p.masked → t.find q = t.find p := Tries.find_of_masked valid' valid
  rw [remove]
  split
  · next owned =>
    rw [find_removeNode valid valid']
    grind
  · next foreign => grind

end

theorem find_removeNodes {q : Prefix} (valid' : q.isValid = true) : ∀ (entries : List Prefix)
    (valid : ∀ p ∈ entries, p.isValid = true) (t : AllowedIPs),
    (t.removeNodes entries valid).find q =
      if q.masked ∈ entries.map Prefix.masked then none else t.find q
  | [], _, t => by simp [removeNodes]
  | p :: entries, valid, t => by
      rw [removeNodes, find_removeNodes valid', find_removeNode _ valid', List.map_cons]
      grind

theorem mem_entriesForPeer {t : AllowedIPs} {p : Prefix} {peer : PeerRef} :
    p ∈ t.entriesForPeer peer ↔ p.isValid = true ∧ p.masked = p ∧ t.find p = some peer :=
  t.listed p peer

theorem find_masked {t : AllowedIPs} {p : Prefix} (valid : p.isValid = true) :
    t.find p.masked = t.find p :=
  Tries.find_of_masked (Prefix.masked_parts valid).2.2 valid (Prefix.masked_idem valid)

theorem find_removeByPeer {t : AllowedIPs} {q : Prefix} (valid' : q.isValid = true)
    (peer : PeerRef) :
    (t.removeByPeer peer).find q = if t.find q = some peer then none else t.find q := by
  have owned : q.masked ∈ (t.trieEntries peer).map Prefix.masked ↔ t.find q = some peer := by
    rw [← find_masked valid', List.mem_map]
    constructor
    · rintro ⟨p, member, same⟩
      obtain ⟨_, masked, found⟩ := (t.listed p peer).mp member
      rw [← same, masked]
      exact found
    · intro found
      obtain ⟨good, masked⟩ := Prefix.masked_self valid' _ rfl
      exact ⟨q.masked, (t.listed _ _).mpr ⟨good, masked, found⟩, masked⟩
  rw [removeByPeer, find_removeNodes valid']
  simp only [owned]

end AllowedIPs

/-! ## Lookup -/

/-- The bytes of an address as they stand in a packet, four or sixteen. -/
inductive IPBytes
  | v4 (a : BitVec 32)
  | v6 (a : BitVec 128)

def IPBytes.addr : IPBytes → Addr
  | v4 a => .v4 a
  | v6 a => .v6 a []

def IPBytes.bits : IPBytes → List Bool
  | v4 a => leadingBits a 32
  | v6 a => leadingBits a 128

/-- The trie in which an address is looked up. -/
def Tries.family (t : Tries) : IPBytes → Trie PeerRef
  | .v4 _ => t.ipv4
  | .v6 _ => t.ipv6

namespace AllowedIPs

def lookup (t : AllowedIPs) (ip : IPBytes) : Option PeerRef :=
  (t.tries.family ip).lookup ip.bits none

theorem find_prefixFrom (t : AllowedIPs) (ip : IPBytes) {n : Nat} (fits : n ≤ ip.addr.bitLen) :
    (prefixFrom ip.addr n).isValid = true ∧
      t.find (prefixFrom ip.addr n) = (t.tries.family ip).find (ip.bits.take n) := by
  rw [find, Tries.find, Prefix.leading, Prefix.isValid, Prefix.bits]
  cases ip with
  | v4 a | v6 a =>
    obtain ⟨same, length⟩ := prefixFrom_of_fits _ (by simp [IPBytes.addr, Addr.withoutZone]) fits
    rw [same, length, IPBytes.bits, leadingBits, ← List.map_take, List.take_range,
      Nat.min_eq_left (by exact fits)]
    simp [Tries.family, IPBytes.addr, Addr.withoutZone, Addr.is4, leadingBits]

/-- **Lookup** gives the owner of the longest prefix of the address that has one. -/
theorem lookup_eq_some (t : AllowedIPs) (ip : IPBytes) (peer : PeerRef) :
    t.lookup ip = some peer ↔ ∃ n ≤ ip.addr.bitLen, t.find (prefixFrom ip.addr n) = some peer ∧
      ∀ m, n < m → m ≤ ip.addr.bitLen → t.find (prefixFrom ip.addr m) = none := by
  have same := fun n => t.find_prefixFrom ip (n := n)
  have size : ip.bits.length = ip.addr.bitLen := by
    cases ip <;> simp [IPBytes.bits, leadingBits, IPBytes.addr, Addr.bitLen]
  have ordered : (t.tries.family ip).Ordered [] := by
    cases ip
    exacts [t.ordered.1, t.ordered.2]
  have longest := Trie.lookup_eq_some ordered ip.bits peer _ (Nat.le_refl _)
  rw [List.take_length, size] at longest
  rw [lookup, longest]
  grind

/-- A call on a table. -/
inductive Call
  | insert (p : Prefix) (valid : p.isValid = true) (peer : PeerRef)
  | remove (p : Prefix) (valid : p.isValid = true) (peer : PeerRef)
  | removeByPeer (peer : PeerRef)

def call (t : AllowedIPs) : Call → AllowedIPs
  | .insert p valid peer => t.insert p valid peer
  | .remove p valid peer => t.remove p valid peer
  | .removeByPeer peer => t.removeByPeer peer

/-- What a call means for the owners of the masked prefixes. -/
def Call.own (owner : Prefix → Option PeerRef) : Call → Prefix → Option PeerRef
  | .insert p _ peer, q => if q = p.masked then some peer else owner q
  | .remove p _ peer, q => if q = p.masked ∧ owner q = some peer then none else owner q
  | .removeByPeer peer, q => if owner q = some peer then none else owner q

/-- The table after some calls, and the map it stands for. -/
def after (calls : List Call) : AllowedIPs :=
  calls.foldl call empty

def owners (calls : List Call) : Prefix → Option PeerRef :=
  calls.foldl Call.own fun _ => none

theorem find_after (calls : List Call) {q : Prefix} (valid : q.isValid = true) :
    (after calls).find q = owners calls q.masked := by
  refine List.foldl_rel (r := fun t (owner : Prefix → Option PeerRef) => find t q = owner q.masked)
    (find_empty q) ?_
  intro c _ t owner same
  cases c <;> simp only [call, Call.own, find_insert _ valid, find_remove _ valid,
    find_removeByPeer valid, same]

/-- **The table is a longest-prefix map**, after any calls. -/
theorem after_longestPrefix (calls : List Call) (ip : IPBytes) (peer : PeerRef) :
    (after calls).lookup ip = some peer ↔
      ∃ n ≤ ip.addr.bitLen, owners calls (prefixFrom ip.addr n).masked = some peer ∧
        ∀ m, n < m → m ≤ ip.addr.bitLen → owners calls (prefixFrom ip.addr m).masked = none := by
  have same := fun n fits => find_after calls ((after calls).find_prefixFrom ip (n := n) fits).1
  rw [lookup_eq_some]
  grind

end AllowedIPs

end Wireguard
