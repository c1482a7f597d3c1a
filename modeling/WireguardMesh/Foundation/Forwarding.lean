import Mathlib.Data.List.Basic

/-! # Longest-prefix forwarding with a source check

A forwarding table assigns prefixes to neighbours. A node sends a packet to the neighbour that owns
the longest prefix covering the destination address, and accepts a packet only from the neighbour
that owns the longest prefix covering the source address. A prefix assigned to two neighbours at
once belongs to neither (`Forwarding.longestMatch_eq_some`).

Forwarding is deterministic, so delivery over one intermediate node is the agreement of four
lookups (`Forwarding.delivers_via_iff`).
-/

namespace Forwarding

/-- Prefixes over an address space: which addresses a prefix covers, and how specific
it is. -/
structure PrefixSystem (P A : Type) where
  covers : P → A → Bool
  length : P → Nat

/-- The prefixes a node assigns to its neighbours. -/
abbrev Table (ι P : Type) := List (ι × P)

section Lookup

variable {ι P A : Type} [DecidableEq ι] (space : PrefixSystem P A)

/-- Whether an entry prevails at an address: it covers it, and every covering entry of another
neighbour is shorter. -/
def prevails (table : Table ι P) (address : A) (entry : ι × P) : Bool :=
  space.covers entry.2 address && table.all fun other =>
    !space.covers other.2 address || other.1 = entry.1 ||
      space.length other.2 < space.length entry.2

/-- The neighbour owning the longest prefix that covers an address; none when no prefix covers it
or two neighbours have the longest one. -/
def longestMatch (table : Table ι P) (address : A) : Option ι :=
  (table.find? (prevails space table address)).map Prod.fst

theorem prevails_iff {table : Table ι P} {address : A} {entry : ι × P} :
    prevails space table address entry = true ↔ space.covers entry.2 address = true ∧
        ∀ other ∈ table, space.covers other.2 address = true → other.1 ≠ entry.1 →
          space.length other.2 < space.length entry.2 := by
  simp only [prevails, Bool.and_eq_true, List.all_eq_true, Bool.or_eq_true,
    Bool.not_eq_eq_eq_not, Bool.not_true, decide_eq_true_eq]
  refine and_congr_right fun _ => forall₂_congr fun other _ => ?_
  constructor
  · rintro ((uncovered | same) | shorter) covers different
    · exact (Bool.false_ne_true (uncovered.symm.trans covers)).elim
    · exact (different same).elim
    · exact shorter
  · intro dominated
    by_cases covers : space.covers other.2 address = true
    · by_cases same : other.1 = entry.1
      · exact .inl (.inr same)
      · exact .inr (dominated covers same)
    · exact .inl (.inl (Bool.eq_false_iff.mpr covers))

/-- **The meaning of a lookup.** A neighbour is the longest match of an address when it owns a
prefix covering it that is longer than every covering prefix of any other neighbour. -/
theorem longestMatch_eq_some {table : Table ι P} {address : A} {owner : ι} :
    longestMatch space table address = some owner ↔
      ∃ p, (owner, p) ∈ table ∧ space.covers p address = true ∧
        ∀ other ∈ table, space.covers other.2 address = true → other.1 ≠ owner →
          space.length other.2 < space.length p := by
  rw [longestMatch, Option.map_eq_some_iff]
  constructor
  · rintro ⟨⟨_, p⟩, found, rfl⟩
    obtain ⟨covers, dominates⟩ := (prevails_iff space).mp (List.find?_some found)
    exact ⟨p, List.mem_of_find?_eq_some found, covers, dominates⟩
  · rintro ⟨p, member, covers, dominates⟩
    have holds : prevails space table address (owner, p) = true :=
      (prevails_iff space).mpr ⟨covers, dominates⟩
    obtain ⟨entry, found⟩ := Option.isSome_iff_exists.mp
      (List.find?_isSome.mpr ⟨(owner, p), member, holds⟩)
    refine ⟨entry, found, ?_⟩
    obtain ⟨entryCovers, entryDominates⟩ := (prevails_iff space).mp (List.find?_some found)
    -- Two prevailing entries of different neighbours would each be shorter than the other.
    by_contra different
    have shorter := dominates entry (List.mem_of_find?_eq_some found) entryCovers different
    have longer := entryDominates (owner, p) member covers (Ne.symm different)
    exact Nat.lt_asymm shorter longer

end Lookup

section Delivery

variable {ι P A : Type} [DecidableEq ι] (space : PrefixSystem P A) (tables : ι → Table ι P)
  (source destination : A) (target : ι)

/-- A packet that a node holds reaches the target: the node is the target, or sends it to a
neighbour that accepts it and from which it reaches the target. -/
inductive Delivers : ι → Prop
  | arrived : Delivers target
  | hop {node next : ι} (sends : longestMatch space (tables node) destination = some next)
      (accepts : longestMatch space (tables next) source = some node)
      (rest : Delivers next) : Delivers node

variable {space tables source destination target}

/-- Away from the target, delivery is the next hop's acceptance and delivery from there. -/
theorem delivers_iff_hop {node : ι} (away : node ≠ target) :
    Delivers space tables source destination target node ↔
      ∃ next, longestMatch space (tables node) destination = some next ∧
        longestMatch space (tables next) source = some node ∧
        Delivers space tables source destination target next := by
  constructor
  · intro delivers
    cases delivers with
    | arrived => exact (away rfl).elim
    | hop sends accepts rest => exact ⟨_, sends, accepts, rest⟩
  · rintro ⟨next, sends, accepts, rest⟩
    exact .hop sends accepts rest

/-- **Delivery over one intermediate node.** When that node accepts the packet and hands it to the
target, delivery is the target's source check. -/
theorem delivers_via_iff {node via : ι} (away : node ≠ target) (between : via ≠ target)
    (sends : longestMatch space (tables node) destination = some via)
    (accepts : longestMatch space (tables via) source = some node)
    (forwards : longestMatch space (tables via) destination = some target) :
    Delivers space tables source destination target node ↔
      longestMatch space (tables target) source = some via := by
  rw [delivers_iff_hop away]
  constructor
  · rintro ⟨next, sent, _, rest⟩
    obtain rfl := Option.some.inj (sends.symm.trans sent)
    obtain ⟨last, forwarded, accepted, _⟩ := (delivers_iff_hop between).mp rest
    obtain rfl := Option.some.inj (forwards.symm.trans forwarded)
    exact accepted
  · intro accepted
    exact ⟨via, sends, accepts, (delivers_iff_hop between).mpr
      ⟨target, forwards, accepted, .arrived⟩⟩

end Delivery

end Forwarding
