import WireguardMesh.Plan.Tables

/-! # Who keeps an address

The losers of `ConflictLosers` depend on the positions only where change times are the same, and
the planned nodes have different host prefixes (`Core.conflict_winner`).
-/

namespace Core

open Net

/-! ## The winner -/

/-- No two nodes with one host text have changed their addresses at the same time. -/
def Mesh.NoTies (mesh : Mesh) : Prop :=
  ∀ a ∈ mesh.nodes, ∀ b ∈ mesh.nodes, ∀ host, hostFromAddress a.address = some host →
    hostFromAddress b.address = some host → a.changeKey = b.changeKey → a = b

theorem position_of_id {nodes : List Node} (distinct : (nodes.map Node.id).Nodup) {i j : Nat}
    {a b : Node} (atI : nodes[i]? = some a) (atJ : nodes[j]? = some b) (same : a.id = b.id) :
    i = j := by
  refine (List.getElem?_inj ?_ distinct).mp ?_
  · rw [List.length_map]
    exact (List.getElem?_eq_some_iff.mp atI).1
  · rw [List.getElem?_map, List.getElem?_map, atI, atJ, Option.map_some, Option.map_some, same]

section

variable {mesh : Mesh} (distinct : (mesh.nodes.map Node.id).Nodup)

include distinct

/-- The node that comes first of its host text is the one that is not marked. -/
theorem exists_winner {i : Nat} {a : Node} {host : List Char} (atI : mesh.nodes[i]? = some a)
    (hosted : hostFromAddress a.address = some host) :
    ∃ j b, mesh.nodes[j]? = some b ∧ hostFromAddress b.address = some host ∧
      b.id ∉ conflictLosers mesh ∧ ∀ k c, mesh.nodes[k]? = some c →
        hostFromAddress c.address = some host → k ≠ j →
          c.id ∈ conflictLosers mesh ∧ Precedes (b, j) (c, k) := by
  have decided := decided_conflictLosers mesh
  have member : (a, i) ∈ mesh.nodes.zipIdx := List.mem_zipIdx_iff_getElem?.mpr atI
  cases found : (mesh.nodes.zipIdx.foldl (Contest.enter mesh.nodes) ⟨∅, []⟩).winners.lookup host with
  | none => exact (decided.vacant host found (a, i) member hosted).elim
  | some winner =>
    obtain ⟨⟨b, j⟩, listed, -, hostB, least⟩ := decided.least host winner found
    have atJ : mesh.nodes[j]? = some b := List.mem_zipIdx_iff_getElem?.mp listed
    have first : ∀ k c, mesh.nodes[k]? = some c → hostFromAddress c.address = some host →
        k ≠ j → Precedes (b, j) (c, k) := by
      intro k c atK hostC other
      have inside : (c, k) ∈ mesh.nodes.zipIdx := List.mem_zipIdx_iff_getElem?.mpr atK
      exact (least (c, k) inside hostC).resolve_left fun same => other (congrArg Prod.snd same)
    refine ⟨j, b, atJ, hostB, ?_, ?_⟩
    · intro marked
      obtain ⟨k, c, text, atK, same, hostC, l, d, atL, hostD, before⟩ :=
        mem_conflictLosers.mp marked
      obtain rfl := position_of_id distinct atK atJ same
      obtain rfl := Option.some.inj (atK.symm.trans atJ)
      obtain rfl := Option.some.inj (hostC.symm.trans hostB)
      by_cases here : l = k
      · subst here
        rw [Option.some.inj (atL.symm.trans atJ)] at before
        exact precedes_irrefl _ before
      · exact precedes_irrefl _ (precedes_trans before (first l d atL hostD here))
    · intro k c atK hostC other
      have before := first k c atK hostC other
      refine ⟨mem_conflictLosers.mpr ?_, before⟩
      exact ⟨k, c, host, atK, rfl, hostC, j, b, atJ, hostB, before⟩

theorem mem_conflictLosers_of_noTies (noTies : mesh.NoTies) {id : String} : id ∈ conflictLosers mesh ↔
      ∃ a ∈ mesh.nodes, a.id = id ∧ ∃ b ∈ mesh.nodes, ∃ host,
        hostFromAddress a.address = some host ∧ hostFromAddress b.address = some host ∧
          b.changeKey < a.changeKey := by
  rw [mem_conflictLosers]
  constructor
  · rintro ⟨i, a, host, atI, same, hosted, j, b, atJ, hosted', before⟩
    have inA := List.mem_of_getElem? atI
    have inB := List.mem_of_getElem? atJ
    refine ⟨a, inA, same, b, inB, host, hosted, hosted', before.resolve_right ?_⟩
    rintro ⟨tie, earlier⟩
    obtain rfl := noTies b inB a inA host hosted' hosted tie
    exact (Nat.ne_of_lt earlier) (position_of_id distinct atJ atI rfl)
  · rintro ⟨a, inA, same, b, inB, host, hosted, hosted', early⟩
    obtain ⟨i, atI⟩ := List.mem_iff_getElem?.mp inA
    obtain ⟨j, atJ⟩ := List.mem_iff_getElem?.mp inB
    exact ⟨i, a, host, atI, same, hosted, j, b, atJ, hosted', .inl early⟩

theorem mem_conflictLosers_perm {other : Mesh} (noTies : mesh.NoTies) (shuffled : other.nodes.Perm mesh.nodes) {id : String} :
    id ∈ conflictLosers other ↔ id ∈ conflictLosers mesh := by
  have distinct' : (other.nodes.map Node.id).Nodup := (shuffled.map Node.id).nodup_iff.mpr distinct
  have noTies' : other.NoTies := fun a inA b inB =>
    noTies a (shuffled.mem_iff.mp inA) b (shuffled.mem_iff.mp inB)
  rw [mem_conflictLosers_of_noTies distinct' noTies', mem_conflictLosers_of_noTies distinct noTies]
  simp only [shuffled.mem_iff]

/-- The planned nodes, the relay among them, have different host prefixes. -/
theorem nodup_hosts :
    ((mesh.roster.active ++ mesh.roster.relay.toList).map PlanNode.host).Nodup := by
  have active : ((activeNodes mesh).map PlanNode.host).Nodup :=
    (List.Nodup.of_map _ (nodup_activeNodes distinct)).map_on fun _ memberA _ memberB =>
      separate_activeNodes memberA memberB
  rw [List.map_append, List.nodup_append]
  refine ⟨active, ?_, ?_⟩
  · cases mesh.roster.relay with
    | none => exact List.nodup_nil
    | some pn => exact List.nodup_singleton _
  · intro host member other relay same
    obtain ⟨pn, listed, rfl⟩ := List.mem_map.mp member
    obtain ⟨a, form, -⟩ := hostPrefix_eq_some (hostPrefix_of_planNode (mem_activeNodes.mp listed).2.2.2)
    obtain ⟨pseudo, found, rfl⟩ := List.mem_map.mp relay
    have zero : pseudo.host = .zero := by
      have found : relayNode mesh = some pseudo := Option.mem_toList.mp found
      rw [relayNode, Option.bind_eq_some_iff] at found
      obtain ⟨r, -, found⟩ := found
      split at found
      · cases found
        rfl
      · cases found
    rw [form, zero] at same
    have family : Addr.v4 a = .zero := congrArg Prefix.ip same
    cases family

end

/-- **Address conflicts have one winner.** Of the nodes with one host text exactly one is not
marked, and it comes before all others; without ties that does not depend on the order of the
nodes. The planned nodes have different host prefixes. -/
theorem conflict_winner {mesh : Mesh} (distinct : (mesh.nodes.map Node.id).Nodup) :
    (∀ (i : Nat) (a : Node) (host : List Char), mesh.nodes[i]? = some a →
      hostFromAddress a.address = some host → ∃ j b, mesh.nodes[j]? = some b ∧
        hostFromAddress b.address = some host ∧
        b.id ∉ conflictLosers mesh ∧ ∀ k c, mesh.nodes[k]? = some c →
          hostFromAddress c.address = some host → k ≠ j →
            c.id ∈ conflictLosers mesh ∧ Precedes (b, j) (c, k)) ∧
      (∀ other : Mesh, mesh.NoTies → other.nodes.Perm mesh.nodes → ∀ id,
        id ∈ conflictLosers other ↔ id ∈ conflictLosers mesh) ∧
      ((mesh.roster.active ++ mesh.roster.relay.toList).map PlanNode.host).Nodup :=
  ⟨fun _ _ _ atI hosted => exists_winner distinct atI hosted,
    fun _ noTies shuffled _ => mem_conflictLosers_perm distinct noTies shuffled,
    nodup_hosts distinct⟩

def changeTime : Time :=
  ⟨2025, 3, 1, 12, 0, 0, 0, by decide⟩

/-- Two nodes with one address, of which the first has got it later. -/
def sharedAddress : Mesh :=
  Mesh.sample [
    { Node.sample "00000000-0000-4000-8000-0000000000b1" "10.1.0.11/24" 0 "" [] with
      addressChangedAt := changeTime },
    .sample "00000000-0000-4000-8000-0000000000b2" "10.1.0.11/16" 0 "" []] [] none

/-- The second keeps it. -/
theorem sharedAddress_winner : (sharedAddress.nodes.map Node.id).Nodup ∧
    conflictLosers sharedAddress = ["00000000-0000-4000-8000-0000000000b1"] ∧
    ∃ (j : Nat) (b : Node), sharedAddress.nodes[j]? = some b ∧
      hostFromAddress b.address = some "10.1.0.11".toList ∧ b.id ∉ conflictLosers sharedAddress := by
  refine ⟨by decide, by decide +kernel, ?_⟩
  obtain ⟨j, b, atJ, hosted, wins, -⟩ := (conflict_winner (by decide)).1 0 _ "10.1.0.11".toList
    (show sharedAddress.nodes[0]? = some _ from rfl) (by decide +kernel)
  exact ⟨j, b, atJ, hosted, wins⟩

end Core
