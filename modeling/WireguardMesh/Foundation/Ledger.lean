import Mathlib.Algebra.BigOperators.Group.List.Basic
import Mathlib.Algebra.Group.Prod
import WireguardMesh.Foundation.GoMap

/-! # Ledgers

A ledger is a Go map whose values are amounts of an additive commutative monoid; an absent key
holds nothing. `Ledger.addAt` is `m[k] += v`, and `Ledger.addAll` adds the entries of a list.
`Ledger.weigh` sums a weight over the entries of a map, such as the amount at a key or the total of
all keys, and grows by the weight of what is added (`Ledger.weigh_addAll`). A loop over a map whose
body adds the weight of one key adds it once (`Ledger.read_foldl_of_perm`).
-/

namespace Ledger

variable {K V α A B : Type} [AddCommMonoid A] [AddCommMonoid B]

/-- The sum of a weight over the entries of a map. -/
def weigh (f : K → V → A) (m : GoMap K V) : A :=
  (m.entries.map fun e => f e.1 e.2).sum

theorem weigh_eq_of_perm (f : K → V → A) {m : GoMap K V} {entries : List (Sigma fun _ : K => V)}
    (visited : entries.Perm m.entries) : (entries.map fun e => f e.1 e.2).sum = weigh f m :=
  (visited.map _).sum_eq

theorem weigh_congr {f g : K → V → A} {m : GoMap K V} (same : ∀ k ∈ m, ∀ v, f k v = g k v) :
    weigh f m = weigh g m := by
  rw [weigh, weigh]
  congr 1
  apply List.map_congr_left
  intro e member
  exact same e.1 (List.mem_keys_of_mem member) e.2

theorem weigh_eq_zero {f : K → V → A} {m : GoMap K V} (nothing : ∀ k ∈ m, ∀ v, f k v = 0) :
    weigh f m = 0 := by
  apply List.sum_eq_zero
  intro a member
  obtain ⟨e, inside, rfl⟩ := List.mem_map.mp member
  exact nothing e.1 (List.mem_keys_of_mem inside) e.2

/-- What a map holds under the keys of a group. -/
def total (p : K → Bool) (m : GoMap K A) : A :=
  weigh (fun k v => if p k then v else 0) m

def ofGroup (A : Type) [AddCommMonoid A] (p : K → Bool) (k : K) : A →+ A :=
  if p k then AddMonoidHom.id A else 0

theorem ofGroup_apply (p : K → Bool) (k : K) (v : A) : ofGroup A p k v = if p k then v else 0 := by
  rw [ofGroup]
  split
  · rfl
  · rfl

theorem total_eq (p : K → Bool) (m : GoMap K A) :
    total p m = weigh (fun k v => ofGroup A p k v) m := by
  simp only [total, ofGroup_apply]

theorem total_of_none {p : K → Bool} {m : GoMap K A} (none : ∀ k ∈ m, p k = false) :
    total p m = 0 := by
  apply weigh_eq_zero
  intro k inside v
  rw [none k inside, if_neg Bool.false_ne_true]

theorem weigh_keep (f : K → V → A) (m : GoMap K V) (p : K → Bool) :
    weigh f (m.keep p) = weigh (fun k v => if p k then f k v else 0) m := by
  rw [weigh, weigh, GoMap.keep]
  dsimp only
  induction m.entries with
  | nil => rfl
  | cons e entries ih =>
    rw [List.filter_cons, List.map_cons, List.sum_cons, ← ih]
    split
    · rw [List.map_cons, List.sum_cons]
    · rw [zero_add]

theorem total_keep {p q : K → Bool} {m : GoMap K A} (kept : ∀ k ∈ m, q k = true → p k = true) :
    total q (m.keep p) = total q m := by
  rw [total, weigh_keep]
  apply weigh_congr
  intro k inside v
  split
  · rfl
  · next removed =>
    rw [if_neg fun asked => removed (kept k inside asked)]

variable [DecidableEq K]

theorem weigh_erase (f : K → V → A) (m : GoMap K V) (k : K) :
    weigh f m = (m.lookup k).elim 0 (f k) + weigh f (m.erase k) := by
  by_cases known : k ∈ m
  · obtain ⟨v, before, after, fresh, entries, rest⟩ := List.exists_of_kerase known
    have found : m.lookup k = some v := by
      rw [AList.lookup, entries, List.dlookup_append, List.dlookup_eq_none.mpr fresh,
        List.dlookup_cons_eq, Option.none_or]
    have erased : (m.erase k).entries = before ++ after := rest
    rw [found, weigh, weigh, erased, entries, List.map_append, List.map_append, List.map_cons,
      List.sum_append, List.sum_append, List.sum_cons]
    exact add_left_comm _ _ _
  · have same : (m.erase k).entries = m.entries := List.kerase_of_notMem_keys known
    rw [AList.lookup_eq_none.mpr known, weigh, weigh, same]
    exact (zero_add _).symm

theorem weigh_insert (f : K → V → A) (m : GoMap K V) (k : K) (v : V) :
    weigh f (m.insert k v) = f k v + weigh f (m.erase k) := by
  rw [weigh, AList.entries_insert, List.map_cons, List.sum_cons]
  rfl

theorem weigh_single (g : V → A) (m : GoMap K V) (k : K) :
    weigh (fun k' v => if k' = k then g v else 0) m = (m.lookup k).elim 0 g := by
  have others : weigh (fun k' v => if k' = k then g v else 0) (m.erase k) = 0 := by
    apply weigh_eq_zero
    intro k' inside v
    exact if_neg (AList.mem_erase.mp inside).1
  rw [weigh_erase _ m k, others, add_zero]
  simp

/-- **A loop over a map.** If every entry under one key adds its weight to what is read off a state
and the others add nothing, the loop adds the weight of that key, whatever the order of the
entries. -/
theorem read_foldl_of_perm {S : Type} (read : S → A) (step : S → (Sigma fun _ : K => V) → S) (k : K)
    (g : V → A) (one : ∀ s e, read (step s e) = read s + if e.1 = k then g e.2 else 0)
    {m : GoMap K V} {entries : List (Sigma fun _ : K => V)} (visited : entries.Perm m.entries)
    (s : S) : read (entries.foldl step s) = read s + (m.lookup k).elim 0 g := by
  have run : ∀ (entries : List (Sigma fun _ : K => V)) (s : S),
      read (entries.foldl step s) =
        read s + (entries.map fun e => if e.1 = k then g e.2 else 0).sum := by
    intro entries
    induction entries with
    | nil => exact fun s => (add_zero _).symm
    | cons e entries ih =>
      intro s
      rw [List.foldl_cons, ih, one, List.map_cons, List.sum_cons, add_assoc]
  rw [run, ← weigh_single]
  congr 1
  exact weigh_eq_of_perm (fun k' v => if k' = k then g v else 0) visited

/-! ## Adding -/

/-- `m[k] += v`. -/
def addAt (m : GoMap K A) (k : K) (v : A) : GoMap K A :=
  m.insert k (m.getD k 0 + v)

/-- `m[key a] += value a` for the entries of a list. -/
def addAll (key : α → K) (value : α → A) (m : GoMap K A) (list : List α) : GoMap K A :=
  list.foldl (fun m a => addAt m (key a) (value a)) m

variable {key : α → K} {value : α → A} {m : GoMap K A} {list : List α} {p : K → Bool} {k : K}

theorem mem_addAll : k ∈ addAll key value m list ↔ k ∈ m ∨ ∃ a ∈ list, key a = k :=
  GoMap.mem_foldl_insert

theorem weigh_addAt (f : K → A →+ B) (v : A) :
    weigh (fun k v => f k v) (addAt m k v) = weigh (fun k v => f k v) m + f k v := by
  have held : (m.lookup k).elim 0 (fun v => f k v) = f k (m.getD k 0) := by
    rw [GoMap.getD]
    cases m.lookup k with
    | none => exact (map_zero _).symm
    | some v => rfl
  rw [addAt, weigh_insert, map_add, weigh_erase _ m k, held, add_right_comm]

/-- **Added amounts.** A weight grows by the weights of the amounts that are added. -/
theorem weigh_addAll (f : K → A →+ B) : weigh (fun k v => f k v) (addAll key value m list) =
      weigh (fun k v => f k v) m + (list.map fun a => f (key a) (value a)).sum := by
  induction list generalizing m with
  | nil => exact (add_zero _).symm
  | cons a list ih =>
    rw [addAll, List.foldl_cons, ← addAll, ih, weigh_addAt, List.map_cons, List.sum_cons,
      add_assoc]

/-! ## Groups of keys -/

theorem total_addAt (v : A) :
    total p (addAt m k v) = total p m + if p k then v else 0 := by
  rw [total_eq, total_eq, weigh_addAt, ofGroup_apply]

theorem total_addAll : total p (addAll key value m list) =
      total p m + (list.map fun a => if p (key a) then value a else 0).sum := by
  rw [total_eq, total_eq, weigh_addAll]
  simp only [ofGroup_apply]

theorem total_key : total (fun k' => k' = k) m = m.getD k 0 := by
  have single := weigh_single id m k
  simp only [id] at single
  rw [GoMap.getD, total]
  simp only [decide_eq_true_eq, single]
  cases m.lookup k with
  | none => rfl
  | some v => rfl

theorem getD_addAt (k' : K) (v : A) :
    (addAt m k v).getD k' 0 = m.getD k' 0 + if k = k' then v else 0 := by
  rw [← total_key, ← total_key, total_addAt]
  simp

section

variable {J : Type} (key : J → K) {added : GoMap J A} {entries : List (Sigma fun _ : J => A)}
  (visited : entries.Perm added.entries)

include visited

theorem total_addAll_of_perm : total p (addAll (fun e => key e.1) Sigma.snd m entries) =
    total p m + total (fun j => p (key j)) added := by
  rw [total_addAll]
  congr 1
  exact weigh_eq_of_perm (fun j v => if p (key j) then v else 0) visited

theorem getD_addAll_of_perm : (addAll (fun e => key e.1) Sigma.snd m entries).getD k 0 =
    m.getD k 0 + total (fun j => key j = k) added := by
  rw [← total_key, ← total_key, total_addAll_of_perm key visited]

end

section

variable {added : GoMap K A} {entries : List (Sigma fun _ : K => A)}
  (visited : entries.Perm added.entries)

include visited

theorem total_merge : total p (addAll Sigma.fst Sigma.snd m entries) = total p m + total p added :=
  total_addAll_of_perm (fun k => k) visited

theorem getD_merge (k : K) :
    (addAll Sigma.fst Sigma.snd m entries).getD k 0 = m.getD k 0 + added.getD k 0 := by
  rw [← total_key, ← total_key, ← total_key, total_merge visited]

end

end Ledger
