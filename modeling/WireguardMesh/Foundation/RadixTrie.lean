import Mathlib.Data.List.Basic

/-! # Binary radix tries

A trie over lists of bits in which every node carries its whole key, and a node without a
value stands only where two subtries part. A trie is *ordered* when keys grow downwards along
their own bits. Then `insert` and `erase` change the value of one key only
(`Radix.Trie.find_insert`, `Radix.Trie.find_erase`), and `lookup` finds the value of the longest
match (`Radix.Trie.lookup_eq_some`).
-/

namespace Radix

/-- The longest common beginning of two keys. -/
def common : List Bool → List Bool → List Bool
  | a :: as, b :: bs => if a = b then a :: common as bs else []
  | _, _ => []

/-- The bit of a longer key that follows a shorter one. -/
def bitAfter (key longer : List Bool) : Bool :=
  longer.getD key.length false

@[simp] theorem bitAfter_append (key rest : List Bool) (bit : Bool) :
    bitAfter key (key ++ bit :: rest) = bit := by
  simp [bitAfter]

theorem common_append (shared rest : List Bool) : common (shared ++ rest) shared = shared := by
  induction shared with
  | nil => cases rest <;> rfl
  | cons bit shared ih => rw [List.cons_append, common, if_pos rfl, ih]

theorem common_parted (shared rest rest' : List Bool) (bit : Bool) :
    common (shared ++ bit :: rest) (shared ++ (!bit) :: rest') = shared := by
  induction shared with
  | nil => cases bit <;> rfl
  | cons b shared ih => rw [List.cons_append, List.cons_append, common, if_pos rfl, ih]

/-- **How two keys lie.** They are equal, one continues the other, or they part. -/
theorem key_cases : ∀ a b : List Bool, b = a ∨ (∃ bit rest, b = a ++ bit :: rest) ∨
    (∃ bit rest, a = b ++ bit :: rest) ∨
      ∃ shared bit rest rest', a = shared ++ bit :: rest ∧ b = shared ++ (!bit) :: rest'
  | [], [] => .inl rfl
  | [], bit :: rest => .inr (.inl ⟨bit, rest, rfl⟩)
  | bit :: rest, [] => .inr (.inr (.inl ⟨bit, rest, rfl⟩))
  | a :: as, b :: bs => by
      by_cases same : a = b
      · subst same
        rcases key_cases as bs with rfl | ⟨bit, rest, rfl⟩ | ⟨bit, rest, rfl⟩ |
          ⟨shared, bit, rest, rest', rfl, rfl⟩
        · exact .inl rfl
        · exact .inr (.inl ⟨bit, rest, rfl⟩)
        · exact .inr (.inr (.inl ⟨bit, rest, rfl⟩))
        · exact .inr (.inr (.inr ⟨a :: shared, bit, rest, rest', rfl, rfl⟩))
      · have other : b = !a := by cases a <;> cases b <;> simp_all
        exact .inr (.inr (.inr ⟨[], a, as, bs, rfl, by rw [other]; rfl⟩))

theorem not_prefix_of_longer (lead rest : List Bool) (bit : Bool) : ¬ lead ++ bit :: rest <+: lead := by
  intro continues
  have bound := continues.length_le
  rw [List.length_append, List.length_cons] at bound
  omega

theorem not_prefix_of_parted (lead rest rest' : List Bool) (bit : Bool) :
    ¬ lead ++ bit :: rest <+: lead ++ (!bit) :: rest' := by
  rw [List.prefix_append_right_inj]
  simp

theorem prefix_of_parted {lead shared rest rest' : List Bool} {bit : Bool}
    (left : lead <+: shared ++ bit :: rest) (right : lead <+: shared ++ (!bit) :: rest') :
    lead <+: shared := by
  rcases List.prefix_or_prefix_of_prefix left (List.prefix_append _ _) with shorter | ⟨tail, rfl⟩
  · exact shorter
  · rw [List.prefix_append_right_inj] at left right
    cases tail with
    | nil => simp
    | cons b tail =>
      rw [List.cons_prefix_cons] at left right
      cases bit <;> simp_all

theorem below_of_longer (lead rest : List Bool) (bit : Bool) (k : List Bool) :
    lead ++ bit :: rest <+: k → lead ≠ k ∧ lead <+: k ∧ bitAfter lead k = bit := by
  rintro ⟨tail, rfl⟩
  simp

/-- A path-compressed binary trie. -/
inductive Trie (V : Type)
  | nil
  | node (key : List Bool) (val : Option V) (zero one : Trie V)

namespace Trie

variable {V : Type}

def find (k : List Bool) : Trie V → Option V
  | nil => none
  | node key val zero one =>
    if key = k then val
    else if key <+: k then
      if bitAfter key k then find k one else find k zero
    else none

/-- The node with a given key and value, and given subtries on the side of a bit and on the
other side. -/
def withChild (key : List Bool) (val : Option V) (bit : Bool) (child other : Trie V) : Trie V :=
  if bit then node key val other child else node key val child other

/-- Sets the value of a key: in its node, in a new leaf, or in a new node above the place where
the keys part. -/
def insert (k : List Bool) (v : V) : Trie V → Trie V
  | nil => node k (some v) nil nil
  | node key val zero one =>
    if key = k then node key (some v) zero one
    else if key <+: k then
      if bitAfter key k then node key val zero (insert k v one)
      else node key val (insert k v zero) one
    else
      let shared := common key k
      if shared = k then withChild k (some v) (bitAfter k key) (node key val zero one) nil
      else withChild shared none (bitAfter shared k) (node k (some v) nil nil)
        (node key val zero one)

/-- A node, or its only subtrie when it has no value. -/
def contract (key : List Bool) : Option V → Trie V → Trie V → Trie V
  | none, nil, one => one
  | none, zero, nil => zero
  | val, zero, one => node key val zero one

/-- Removes the value of a key, and the nodes that are not needed without it. -/
def erase (k : List Bool) : Trie V → Trie V
  | nil => nil
  | node key val zero one =>
    if key = k then contract key none zero one
    else if key <+: k then
      if bitAfter key k then contract key val zero (erase k one)
      else contract key val (erase k zero) one
    else node key val zero one

/-- Keys grow downwards from a given beginning, along their own bits. -/
def Ordered : List Bool → Trie V → Prop
  | _, nil => True
  | lead, node key _ zero one =>
    lead <+: key ∧ Ordered (key ++ [false]) zero ∧ Ordered (key ++ [true]) one

theorem Ordered.mono {lead lead' : List Bool} {t : Trie V} (ordered : t.Ordered lead)
    (shorter : lead' <+: lead) : t.Ordered lead' := by
  cases t with
  | nil => trivial
  | node key val zero one => exact ⟨shorter.trans ordered.1, ordered.2⟩

/-! ## The lookup in a node -/

section

variable {key : List Bool} {val : Option V} {zero one : Trie V}

theorem find_node_outside {k : List Bool} (apart : ¬ key <+: k) :
    (node key val zero one).find k = none := by
  have different : key ≠ k := by
    rintro rfl
    exact apart (List.prefix_refl key)
  rw [find, if_neg different, if_neg apart]

end

theorem find_eq_none {t : Trie V} {lead k : List Bool} (ordered : t.Ordered lead)
    (outside : ¬ lead <+: k) : t.find k = none := by
  cases t with
  | nil => rfl
  | node key val zero one => exact find_node_outside fun leads => outside (ordered.1.trans leads)

theorem find_leaf {k k' : List Bool} {v : V} :
    (node k (some v) nil nil).find k' = if k' = k then some v else none := by
  rw [find]
  grind [find]

/-! ## Insertion -/

section

variable {val : Option V} {zero one : Trie V} {v : V}

theorem insert_self (key : List Bool) :
    (node key val zero one).insert key v = node key (some v) zero one :=
  if_pos rfl

theorem insert_below (key rest : List Bool) (bit : Bool) :
    (node key val zero one).insert (key ++ bit :: rest) v =
      if bit then node key val zero (one.insert (key ++ bit :: rest) v)
      else node key val (zero.insert (key ++ bit :: rest) v) one := by
  have longer : key ≠ key ++ bit :: rest := by simp
  rw [insert, if_neg longer, if_pos (List.prefix_append _ _), bitAfter_append]

theorem insert_above (k rest : List Bool) (bit : Bool) :
    (node (k ++ bit :: rest) val zero one).insert k v =
      withChild k (some v) bit (node (k ++ bit :: rest) val zero one) nil := by
  have longer : k ++ bit :: rest ≠ k := by simp
  rw [insert, if_neg longer, if_neg (not_prefix_of_longer k rest bit)]
  simp [common_append, bitAfter_append]

theorem insert_beside (shared rest rest' : List Bool) (bit : Bool) :
    (node (shared ++ bit :: rest) val zero one).insert (shared ++ (!bit) :: rest') v =
      withChild shared none (!bit) (node (shared ++ (!bit) :: rest') (some v) nil nil)
        (node (shared ++ bit :: rest) val zero one) := by
  have different : shared ++ bit :: rest ≠ shared ++ (!bit) :: rest' := by simp
  have shorter : shared ≠ shared ++ (!bit) :: rest' := by simp
  rw [insert, if_neg different, if_neg (not_prefix_of_parted shared rest rest' bit)]
  simp only [common_parted, if_neg shorter, bitAfter_append]

end

theorem find_withChild {key k : List Bool} {val : Option V} {bit : Bool} {child other : Trie V} :
    (withChild key val bit child other).find k = if key = k then val else if key <+: k then
      if bitAfter key k = bit then child.find k else other.find k else none := by
  cases bit with
  | false =>
    rw [withChild, if_neg Bool.false_ne_true, find]
    grind
  | true => rw [withChild, if_pos rfl, find]

theorem ordered_insert {k : List Bool} {v : V} : ∀ {t : Trie V} {lead : List Bool},
    t.Ordered lead → lead <+: k → (t.insert k v).Ordered lead
  | nil, lead, _, leads => ⟨leads, trivial, trivial⟩
  | node key val zero one, lead, ordered, leads => by
      obtain ⟨above, left, right⟩ := ordered
      rcases key_cases key k with rfl | ⟨bit, rest, rfl⟩ | ⟨bit, rest, rfl⟩ |
        ⟨shared, bit, rest, rest', rfl, rfl⟩
      · rw [insert_self]
        exact ⟨above, left, right⟩
      · have below : key ++ [bit] <+: key ++ bit :: rest := by simp
        rw [insert_below]
        cases bit with
        | false => exact ⟨above, ordered_insert left below, right⟩
        | true => exact ⟨above, left, ordered_insert right below⟩
      · have below : k ++ [bit] <+: k ++ bit :: rest := by simp
        rw [insert_above]
        cases bit with
        | false => exact ⟨leads, ⟨below, left, right⟩, trivial⟩
        | true => exact ⟨leads, trivial, below, left, right⟩
      · have shorter := prefix_of_parted above leads
        have below : ∀ (b : Bool) (tail : List Bool), shared ++ [b] <+: shared ++ b :: tail := by
          simp
        rw [insert_beside]
        cases bit with
        | false => exact ⟨shorter, ⟨below _ _, left, right⟩, below _ _, trivial, trivial⟩
        | true => exact ⟨shorter, ⟨below _ _, trivial, trivial⟩, below _ _, left, right⟩

/-- **Insertion.** The inserted key gets its value, and the other keys keep theirs. -/
theorem find_insert (k k' : List Bool) (v : V) : ∀ t : Trie V,
    (t.insert k v).find k' = if k' = k then some v else t.find k'
  | nil => find_leaf
  | node key val zero one => by
      have outside : ¬ key <+: k' → (node key val zero one).find k' = none := find_node_outside
      rcases key_cases key k with rfl | ⟨bit, rest, rfl⟩ | ⟨bit, rest, rfl⟩ |
        ⟨shared, bit, rest, rest', rfl, rfl⟩
      · rw [insert_self, find, find]
        grind
      · have longer := below_of_longer key rest bit _ (List.prefix_refl _)
        rw [insert_below]
        cases bit with
        | false =>
          rw [if_neg Bool.false_ne_true, find, find, find_insert _ _ _ zero]
          grind
        | true =>
          rw [if_pos rfl, find, find, find_insert _ _ _ one]
          grind
      · have longer := below_of_longer k rest bit k'
        rw [insert_above, find_withChild]
        grind [find]
      · have longer := below_of_longer shared rest bit k'
        have longer' := below_of_longer shared rest' (!bit) _ (List.prefix_refl _)
        rw [insert_beside, find_withChild, find_leaf]
        grind

/-! ## Removal -/

theorem ordered_contract {lead key : List Bool} {val : Option V} {zero one : Trie V}
    (ordered : (node key val zero one).Ordered lead) : (contract key val zero one).Ordered lead := by
  have below : ∀ bit, lead <+: key ++ [bit] := fun bit =>
    ordered.1.trans (List.prefix_append _ _)
  rw [contract.eq_def]
  split
  · exact ordered.2.2.mono (below true)
  · exact ordered.2.1.mono (below false)
  · exact ordered

theorem ordered_erase {k : List Bool} : ∀ {t : Trie V} {lead : List Bool},
    t.Ordered lead → (t.erase k).Ordered lead
  | nil, _, _ => trivial
  | node key val zero one, lead, ordered => by
      rw [erase]
      split
      · exact ordered_contract ordered
      · split
        · split
          · exact ordered_contract ⟨ordered.1, ordered.2.1, ordered_erase ordered.2.2⟩
          · exact ordered_contract ⟨ordered.1, ordered_erase ordered.2.1, ordered.2.2⟩
        · exact ordered

theorem find_contract {lead key k : List Bool} {val : Option V} {zero one : Trie V}
    (ordered : (node key val zero one).Ordered lead) :
    (contract key val zero one).find k = (node key val zero one).find k := by
  have left := find_eq_none (k := k) ordered.2.1
  have right := find_eq_none (k := k) ordered.2.2
  have below := fun bit => below_of_longer key [] bit k
  rw [contract.eq_def]
  split
  · rw [find]
    grind [find]
  · rw [find]
    grind [find]
  · rfl

/-- **Removal.** The removed key loses its value, and the other keys keep theirs. -/
theorem find_erase {k : List Bool} (k' : List Bool) : ∀ {t : Trie V} {lead : List Bool},
    t.Ordered lead → (t.erase k).find k' = if k' = k then none else t.find k'
  | nil, _, _ => (ite_self _).symm
  | node key val zero one, lead, ordered => by
      have ⟨above, left, right⟩ := ordered
      rw [erase]
      split
      · rw [find_contract (show (node key none zero one).Ordered lead from ordered), find, find]
        grind
      · split
        · split
          · rw [find_contract ⟨above, left, ordered_erase right⟩, find, find, find_erase _ right]
            grind
          · rw [find_contract ⟨above, ordered_erase left, right⟩, find, find, find_erase _ left]
            grind
        · next apart =>
          split
          · next same => rw [same, find_node_outside apart]
          · rfl

/-! ## The longest match -/

/-- The loop of a lookup: the value of the last node on the way along the list, or the one found
before. -/
def lookup (k : List Bool) : Option V → Trie V → Option V
  | found, nil => found
  | found, node key val zero one =>
    if key <+: k then
      if key.length = k.length then val.or found
      else if bitAfter key k then one.lookup k (val.or found) else zero.lookup k (val.or found)
    else found

theorem lookup_outside {t : Trie V} {lead k : List Bool} (ordered : t.Ordered lead)
    (outside : ¬ lead <+: k) (found : Option V) : t.lookup k found = found := by
  cases t with
  | nil => rfl
  | node key val zero one => exact if_neg fun leads => outside (ordered.1.trans leads)

/-- One more bit matters only when it completes a key. -/
theorem lookup_concat (k : List Bool) (bit : Bool) : ∀ {t : Trie V} {lead : List Bool},
    t.Ordered lead → ∀ found,
      t.lookup (k ++ [bit]) found = (t.find (k ++ [bit])).or (t.lookup k found)
  | nil, _, _, _ => rfl
  | node key val zero one, _, ⟨_, left, right⟩, found => by
      rw [lookup, find, lookup]
      by_cases leads : key <+: k
      · obtain ⟨rest, rfl⟩ := leads
        have beyond := not_prefix_of_longer key []
        have zero := lookup_outside left (beyond _)
        have one := lookup_outside right (beyond _)
        rw [lookup_concat _ _ left, lookup_concat _ _ right]
        cases rest <;> grind [bitAfter_append]
      · have longer : key <+: k ++ [bit] ↔ _ := List.prefix_concat_iff
        grind

/-- **The longest match.** A lookup finds the value of the longest beginning that has one. -/
theorem lookup_eq_some {t : Trie V} {lead : List Bool} (ordered : t.Ordered lead) (k : List Bool)
    (v : V) : ∀ n ≤ k.length, t.lookup (k.take n) none = some v ↔
      ∃ j ≤ n, t.find (k.take j) = some v ∧ ∀ m, j < m → m ≤ n → t.find (k.take m) = none
  | 0, _ => by
      have start : t.lookup [] none = t.find [] := by
        cases t <;> grind [lookup, find]
      rw [List.take_zero, start]
      grind
  | n + 1, fits => by
      have shorter := lookup_eq_some ordered k v n (Nat.le_of_succ_le fits)
      have step := lookup_concat (k.take n) k[n] ordered none
      rw [← List.take_succ_eq_append_getElem] at step
      cases here : t.find (k.take (n + 1)) <;> grind

end Trie

end Radix
