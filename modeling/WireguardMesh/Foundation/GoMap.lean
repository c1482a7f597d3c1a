import Mathlib.Data.List.AList
import Mathlib.Data.List.Sort
import WireguardMesh.Foundation.Runs

/-! # Go maps

A Go map is an association list without duplicate keys. A `range` over a map visits the keys in an
order of the runtime's choosing, so an iteration is modelled by an arbitrary permutation of the
key list (`RangeOrder`), one for every `range` statement that is executed. Sorting the visited keys
by an order that separates them gives a result that no longer depends on that choice
(`RangeOrder.insertionSort_range_eq`).
-/

/-- A Go map from `K` to `V`. -/
abbrev GoMap (K V : Type) := AList (fun _ : K => V)

namespace GoMap

variable {K V α : Type} [DecidableEq K]

theorem mem_foldl_insert {key : α → K} {value : GoMap K V → α → V} {list : List α}
    {m : GoMap K V} {k : K} : k ∈ list.foldl (fun m a => m.insert (key a) (value m a)) m ↔
      k ∈ m ∨ ∃ a ∈ list, key a = k :=
  Runs.foldl_iff (k ∈ ·) (fun m a => by rw [AList.mem_insert, or_comm, eq_comm]) list m

/-- The value `m[k]`, with the zero value of the element type for an absent key. -/
def getD (m : GoMap K V) (k : K) (zero : V) : V :=
  (m.lookup k).getD zero

@[simp] theorem getD_empty (k : K) (zero : V) : getD (∅ : GoMap K V) k zero = zero := by
  simp [getD, AList.lookup_empty]

@[simp] theorem getD_insert_self (m : GoMap K V) (k : K) (v zero : V) :
    getD (m.insert k v) k zero = v := by
  simp [getD, AList.lookup_insert]

theorem getD_of_not_mem_keys {m : GoMap K V} {k : K} {zero : V} (absent : k ∉ m.keys) :
    getD m k zero = zero := by
  rw [getD, AList.lookup_eq_none.mpr fun inside => absent (AList.mem_keys.mp inside),
    Option.getD_none]

theorem getD_insert_of_ne (m : GoMap K V) {k other : K} (v zero : V) (different : k ≠ other) :
    getD (m.insert other v) k zero = getD m k zero := by
  simp only [getD, AList.lookup_insert_ne different]

/-- `m[k] = append(m[k], v)`. -/
def appendAt (m : GoMap K (List V)) (k : K) (v : V) : GoMap K (List V) :=
  m.insert k (getD m k [] ++ [v])

/-- The map collecting the values of a list under their keys, in list order. -/
def groupBy (key : α → K) (value : α → V) (list : List α) : GoMap K (List V) :=
  list.foldl (fun m a => appendAt m (key a) (value a)) ∅

private theorem getD_foldl_appendAt (key : α → K) (value : α → V) (list : List α)
    (m : GoMap K (List V)) (k : K) :
    getD (list.foldl (fun m a => appendAt m (key a) (value a)) m) k [] =
      getD m k [] ++ (list.filter (fun a => key a = k)).map value := by
  induction list generalizing m with
  | nil => simp
  | cons a list ih =>
    rw [List.foldl_cons, ih]
    by_cases same : key a = k
    · subst same
      simp [appendAt, getD_insert_self]
    · rw [appendAt, getD_insert_of_ne m _ _ (Ne.symm same),
        List.filter_cons_of_neg (by simpa only [decide_eq_true_eq] using same)]

/-- The values collected under a key are those of the list elements with that key. -/
theorem getD_groupBy (key : α → K) (value : α → V) (list : List α) (k : K) :
    getD (groupBy key value list) k [] = (list.filter (fun a => key a = k)).map value := by
  rw [groupBy, getD_foldl_appendAt, getD_empty, List.nil_append]

theorem mem_keys_groupBy (key : α → K) (value : α → V) (list : List α) (k : K) :
    k ∈ (groupBy key value list).keys ↔ ∃ a ∈ list, key a = k := by
  rw [← AList.mem_keys]
  exact mem_foldl_insert.trans (or_iff_right (AList.notMem_empty k))

theorem groupBy_map {β : Type} (key : β → K) (value : β → V) (f : α → β) (list : List α) :
    groupBy key value (list.map f) = groupBy (fun a => key (f a)) (fun a => value (f a)) list := by
  rw [groupBy, groupBy, List.foldl_map]

/-- `m[k] = appendUnique(m[k], v)`. -/
def appendUniqueAt [DecidableEq V] (m : GoMap K (List V)) (entry : K × V) : GoMap K (List V) :=
  if entry.2 ∈ getD m entry.1 [] then m else appendAt m entry.1 entry.2

/-- The map collecting the values of a list of entries under their keys, each value once. -/
def groupUnique [DecidableEq V] (entries : List (K × V)) : GoMap K (List V) :=
  entries.foldl appendUniqueAt ∅

theorem mem_getD_appendUniqueAt [DecidableEq V] (m : GoMap K (List V)) (entry : K × V) (k : K)
    (v : V) : v ∈ getD (appendUniqueAt m entry) k [] ↔ v ∈ getD m k [] ∨ (k, v) = entry := by
  obtain ⟨key, value⟩ := entry
  rw [appendUniqueAt, Prod.mk.injEq]
  by_cases same : k = key
  · subst same
    split
    · next known =>
      constructor
      · exact .inl
      · rintro (old | ⟨_, rfl⟩)
        · exact old
        · exact known
    · rw [appendAt, getD_insert_self, List.mem_append, List.mem_singleton]
      simp
  · have unchanged : getD (appendAt m key value) k [] = getD m k [] :=
      getD_insert_of_ne m _ _ same
    split <;> simp only [unchanged, same, false_and, or_false]

/-- The values collected under a key are those of the entries with that key. -/
theorem mem_getD_groupUnique [DecidableEq V] (entries : List (K × V)) (k : K) (v : V) :
    v ∈ getD (groupUnique entries) k [] ↔ (k, v) ∈ entries := by
  rw [groupUnique, Runs.foldl_iff (v ∈ getD · k []) (mem_getD_appendUniqueAt · · k v), getD_empty]
  simp

theorem mem_keys_of_mem_getD {m : GoMap K (List V)} {k : K} {v : V} (member : v ∈ getD m k []) :
    k ∈ m.keys := by
  by_contra absent
  rw [getD_of_not_mem_keys absent] at member
  cases member

/-- The entry that a change of one key's value leads to. -/
private def changed (k : K) (f : V → V) (e : Sigma fun _ : K => V) : Sigma fun _ : K => V :=
  if e.1 = k then ⟨e.1, f e.2⟩ else e

private theorem fst_changed (k : K) (f : V → V) (e : Sigma fun _ : K => V) :
    (changed k f e).1 = e.1 := by
  rw [changed]
  split <;> rfl

private theorem keys_map_changed (k : K) (f : V → V) (entries : List (Sigma fun _ : K => V)) :
    (entries.map (changed k f)).keys = entries.keys := by
  simp only [List.keys, List.map_map]
  exact List.map_congr_left fun e _ => fst_changed k f e

/-- A change of the value of a key in place, as through a pointer. -/
def modify (m : GoMap K V) (k : K) (f : V → V) : GoMap K V where
  entries := m.entries.map (changed k f)
  nodupKeys := by
    rw [List.NodupKeys, keys_map_changed]
    exact m.nodupKeys

@[simp] theorem keys_modify (m : GoMap K V) (k : K) (f : V → V) : (m.modify k f).keys = m.keys :=
  keys_map_changed k f m.entries

theorem lookup_modify (m : GoMap K V) (k k' : K) (f : V → V) :
    (m.modify k f).lookup k' = if k' = k then (m.lookup k').map f else m.lookup k' := by
  change List.dlookup k' (m.entries.map (changed k f)) =
    if k' = k then (List.dlookup k' m.entries).map f else List.dlookup k' m.entries
  induction m.entries with
  | nil => simp
  | cons e entries ih =>
    obtain ⟨key, v⟩ := e
    by_cases own : k' = key
    · subst own
      by_cases same : k' = k
      · subst same
        simp [changed]
      · simp [changed, same]
    · have other : k' ≠ (changed k f ⟨key, v⟩).1 := by rwa [fst_changed]
      rw [List.map_cons, List.dlookup_cons_ne _ _ other, List.dlookup_cons_ne _ _ own, ih]

theorem lookup_insert (m : GoMap K V) (k k' : K) (v : V) :
    (m.insert k v).lookup k' = if k' = k then some v else m.lookup k' := by
  split
  · next same => rw [same, AList.lookup_insert]
  · next different => rw [AList.lookup_insert_ne different]

theorem modify_insert (m : GoMap K V) (k : K) (v : V) (f : V → V) :
    modify (m.insert k v) k f = m.insert k (f v) := by
  apply AList.ext
  simp only [modify, AList.entries_insert, List.map_cons]
  congr 1
  · exact if_pos rfl
  · refine (List.map_congr_left fun e member => ?_).trans (List.map_id _)
    have other : e.1 ≠ k := by
      rintro rfl
      exact List.notMem_keys_kerase _ m.nodupKeys (List.mem_keys_of_mem member)
    exact if_neg other

section

variable {key : α → K} {value : α → V} {list : List α} {m : GoMap K V} {k : K} {v : V}

theorem lookup_foldl_insert_cases
    (found : (list.foldl (fun m a => m.insert (key a) (value a)) m).lookup k = some v) :
    (∃ a ∈ list, k = key a ∧ v = value a) ∨ (∀ a ∈ list, k ≠ key a) ∧ some v = m.lookup k := by
  have last := Runs.foldl_last_cases (AList.lookup k) _ value
    (fun m a => lookup_insert m (key a) k (value a)) list m
  simpa only [found, Option.some.injEq] using last

/-- What stands in a map that a loop filled was put there by one of its rounds. -/
theorem exists_of_lookup_foldl_insert
    (found : (list.foldl (fun m a => m.insert (key a) (value a)) (∅ : GoMap K V)).lookup k =
      some v) : ∃ a ∈ list, key a = k ∧ value a = v := by
  rcases lookup_foldl_insert_cases found with ⟨a, listed, rfl, rfl⟩ | ⟨-, absent⟩
  · exact ⟨a, listed, rfl, rfl⟩
  · cases absent

theorem lookup_foldl_insert_of_nodup (distinct : (list.map key).Nodup) :
    (list.foldl (fun m a => m.insert (key a) (value a)) (∅ : GoMap K V)).lookup k = some v ↔
      ∃ a ∈ list, key a = k ∧ value a = v := by
  refine ⟨exists_of_lookup_foldl_insert, ?_⟩
  rintro ⟨a, listed, rfl, rfl⟩
  have inside : key a ∈ list.foldl (fun m a => m.insert (key a) (value a)) (∅ : GoMap K V) :=
    mem_foldl_insert.mpr (.inr ⟨a, listed, rfl⟩)
  obtain ⟨v, found⟩ := Option.isSome_iff_exists.mp (AList.lookup_isSome.mpr inside)
  obtain ⟨b, other, same, rfl⟩ := exists_of_lookup_foldl_insert found
  rwa [List.inj_on_of_nodup_map distinct other listed same] at found

end

/-- The entries whose keys satisfy a condition. -/
def keep (m : GoMap K V) (p : K → Bool) : GoMap K V :=
  ⟨m.entries.filter fun e => p e.1, m.nodupKeys.sublist List.filter_sublist⟩

omit [DecidableEq K] in
theorem mem_keep {m : GoMap K V} {p : K → Bool} {k : K} : k ∈ m.keep p ↔ k ∈ m ∧ p k = true := by
  simp only [AList.mem_keys, AList.keys, keep, List.keys, List.mem_map, List.mem_filter]
  constructor
  · rintro ⟨e, ⟨inside, passes⟩, rfl⟩
    exact ⟨⟨e, inside, rfl⟩, passes⟩
  · rintro ⟨⟨e, inside, rfl⟩, passes⟩
    exact ⟨e, ⟨inside, passes⟩, rfl⟩

theorem lookup_keep {m : GoMap K V} {p : K → Bool} {k : K} {v : V} :
    (m.keep p).lookup k = some v ↔ m.lookup k = some v ∧ p k = true := by
  rw [← Option.mem_def, ← Option.mem_def, AList.mem_lookup_iff, AList.mem_lookup_iff, keep,
    List.mem_filter]

end GoMap

/-- The orders in which the `range` statements of one execution visit their maps. Every execution
of one is a `Site` and has its own order. -/
structure RangeOrder (Site : Type) where
  range : Site → {α : Type} → List α → List α
  perm : ∀ (site : Site) {α : Type} (keys : List α), (range site keys).Perm keys

namespace RangeOrder

variable {Site α : Type}

/-- The order that visits every map as its entries happen to be stored. -/
def stored (Site : Type) : RangeOrder Site where
  range := fun _ _ keys => keys
  perm := fun _ _ keys => List.Perm.refl keys

@[simp] theorem mem_range (order : RangeOrder Site) (site : Site) (keys : List α) (a : α) :
    a ∈ order.range site keys ↔ a ∈ keys :=
  (order.perm site keys).mem_iff

/-- **Sorting forgets the iteration order.** Sorting the keys of two maps with the same keys gives
the same list, whatever the orders of iteration, when the sorting relation separates the keys. -/
theorem insertionSort_range_eq (first second : RangeOrder Site) (firstSite secondSite : Site)
    (le : α → α → Prop) [DecidableRel le] [Std.Total le] [IsTrans α le]
    {left right : List α} (perm : left.Perm right)
    (separates : ∀ a ∈ left, ∀ b ∈ left, le a b → le b a → a = b) :
    (first.range firstSite left).insertionSort le =
      (second.range secondSite right).insertionSort le := by
  have sameKeys : ((first.range firstSite left).insertionSort le).Perm
      ((second.range secondSite right).insertionSort le) :=
    ((List.perm_insertionSort le _).trans (first.perm firstSite left)).trans
      (perm.trans ((second.perm secondSite right).symm.trans (List.perm_insertionSort le _).symm))
  refine sameKeys.eq_of_pairwise ?_ (List.pairwise_insertionSort le _)
    (List.pairwise_insertionSort le _)
  intro a b memberA memberB forward backward
  rw [List.mem_insertionSort, mem_range] at memberA memberB
  exact separates a memberA b (perm.mem_iff.mpr memberB) forward backward

end RangeOrder
