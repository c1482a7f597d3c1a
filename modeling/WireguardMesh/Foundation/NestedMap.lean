import WireguardMesh.Foundation.GoMap

/-! # Maps of maps

A Go program fills a map of maps by nested loops that set `m[a][b] = v`. Such loops come down to a
list of triples that is set from left to right (`NestedMap.ofTriples`). Two such maps are the same
(`NestedMap.Same`) when they have the same outer keys and the same values; lists with the same
triples, and one value for every pair of keys, give the same map (`same_ofTriples`).
-/

abbrev NestedMap (A B V : Type) := GoMap A (GoMap B V)

namespace NestedMap

variable {A B V : Type} [DecidableEq A] [DecidableEq B]

/-- The value `m[a][b]`, if there is one. -/
def value? (m : NestedMap A B V) (a : A) (b : B) : Option V :=
  (m.lookup a).bind fun inner => inner.lookup b

/-- `m[a][b] = v`, with a new inner map if there is none. -/
def setNested (m : NestedMap A B V) (entry : A × B × V) : NestedMap A B V :=
  m.insert entry.1 ((m.getD entry.1 ∅).insert entry.2.1 entry.2.2)

/-- The map that a list of assignments leads to. -/
def ofTriples (triples : List (A × B × V)) : NestedMap A B V :=
  triples.foldl setNested ∅

structure Same (m m' : NestedMap A B V) : Prop where
  keys : ∀ a, a ∈ m ↔ a ∈ m'
  values : ∀ a b, m.value? a b = m'.value? a b

theorem Same.refl (m : NestedMap A B V) : m.Same m :=
  ⟨fun _ => .rfl, fun _ _ => rfl⟩

theorem Same.trans {m m' m'' : NestedMap A B V} (first : m.Same m') (second : m'.Same m'') :
    m.Same m'' where
  keys a := (first.keys a).trans (second.keys a)
  values a b := (first.values a b).trans (second.values a b)

theorem Same.symm {m m' : NestedMap A B V} (same : m.Same m') : m'.Same m where
  keys a := (same.keys a).symm
  values a b := (same.values a b).symm

theorem getD_getD (m : NestedMap A B V) (a : A) (b : B) (zero : V) :
    (m.getD a ∅).getD b zero = (m.value? a b).getD zero := by
  rw [value?, GoMap.getD, GoMap.getD]
  cases m.lookup a with
  | none => rw [Option.getD_none, AList.lookup_empty]; rfl
  | some inner => rfl

theorem value?_setNested (m : NestedMap A B V) (entry : A × B × V) (a : A) (b : B) :
    (setNested m entry).value? a b =
      if a = entry.1 ∧ b = entry.2.1 then some entry.2.2 else m.value? a b := by
  rw [setNested, value?, GoMap.lookup_insert]
  by_cases outer : a = entry.1
  · subst outer
    rw [if_pos rfl, Option.bind_some, GoMap.lookup_insert]
    by_cases inner : b = entry.2.1
    · rw [if_pos inner, if_pos ⟨rfl, inner⟩]
    · rw [if_neg inner, if_neg fun both => inner both.2, value?, GoMap.getD]
      cases m.lookup entry.1 with
      | none => rw [Option.getD_none, AList.lookup_empty, Option.bind_none]
      | some row => rfl
  · rw [if_neg outer, if_neg fun both => outer both.1, value?]

theorem mem_ofTriples (triples : List (A × B × V)) (a : A) :
    a ∈ ofTriples triples ↔ ∃ entry ∈ triples, entry.1 = a :=
  GoMap.mem_foldl_insert.trans (or_iff_right (AList.notMem_empty a))

/-- One value for every pair of keys. -/
def Functional (triples : List (A × B × V)) : Prop :=
  ∀ a b v v', (a, b, v) ∈ triples → (a, b, v') ∈ triples → v = v'

theorem value?_ofTriples {triples : List (A × B × V)} (functional : Functional triples)
    (a : A) (b : B) (v : V) : (ofTriples triples).value? a b = some v ↔ (a, b, v) ∈ triples := by
  rcases Runs.foldl_last_cases (value? · a b) _ (fun e => e.2.2) (value?_setNested · · a b)
    triples ∅ with ⟨⟨_, _, last⟩, listed, ⟨rfl, rfl⟩, found⟩ | ⟨others, absent⟩
  · rw [ofTriples, found, Option.some.injEq]
    exact ⟨fun same => same ▸ listed, fun member => functional a b _ v listed member⟩
  · refine iff_of_false (fun found => ?_) fun member => ?_
    · cases absent.symm.trans found
    · exact others _ member ⟨rfl, rfl⟩

/-- **Order does not matter.** Assignments of the same values lead to the same map. -/
theorem same_ofTriples {triples triples' : List (A × B × V)} (functional : Functional triples)
    (same : ∀ entry, entry ∈ triples ↔ entry ∈ triples') :
    (ofTriples triples).Same (ofTriples triples') where
  keys a := by
    rw [mem_ofTriples, mem_ofTriples]
    simp only [same]
  values a b := by
    have functional' : Functional triples' := fun a b v v' first second =>
      functional a b v v' ((same _).mpr first) ((same _).mpr second)
    apply Option.ext
    intro v
    rw [value?_ofTriples functional, value?_ofTriples functional', same]

end NestedMap
