import WireguardMesh.Plan.Tables
import WireguardMesh.Store.Attachment

/-! # Swapping addresses

`SwapNodeAddresses` gives each of two nodes the address of the other and exchanges its own VPN
prefix for the other's in its routes (`swap_moves`). A node that already routes the other's
prefix then holds that prefix once, and the swap back takes it away: two swaps restore the
routes exactly when neither node routes the subnet of the other
(`swapTwice_restores_iff`).
-/

namespace Store

open Core Effect Net

/-- What a swap makes of a node: a new address, and a new VPN prefix for the old one. -/
structure Moves (before after : String × String × List String) (addr old new : String) : Prop where
  id : after.1 = before.1
  address : after.2.1 = addr
  routes : ∀ x, x ∈ routeTexts after.2.2 ↔
    x = new.toList ∨ x ∈ routeTexts before.2.2 ∧ x ≠ old.toList

theorem moveNode_moves {n moved : Node} {addr old new : String} {now : Time}
    (canonical : Canonical old.toList) (canonical' : Canonical new.toList)
    (done : moveNode n addr old new now = .ok moved) : Moves (seat n) (seat moved) addr old new := by
  rw [moveNode] at done
  split at done
  · cases done
  · next replaced =>
    cases done
    exact ⟨rfl, rfl, fun _ => mem_replaceVPNRoute canonical canonical' replaced⟩

variable {codec : Codec} {s s₁ s₂ : State} {a b : Node} {pa pb : String} {now later : Time}

theorem seats_replaceMeshLocked {m : Mesh} (stored : replaceMeshLocked m s = .ok () s₁) :
    s₁.nodes.map seat = m.nodes.map seat := by
  rw [replaceMeshLocked] at stored
  split at stored
  · cases stored
    exact map_pruneClusters seat m fun _ => rfl
  · cases stored

/-- **One swap.** Both nodes move. -/
theorem swap_moves (inA : a ∈ s.nodes) (inB : b ∈ s.nodes)
    (homeA : vpnPrefixFromAddress a.address = some pa)
    (homeB : vpnPrefixFromAddress b.address = some pb)
    (someA : a.routes ≠ []) (someB : b.routes ≠ [])
    (done : swapNodeAddresses codec a.id b.id now s = .ok () s₁) :
    ∃ a' ∈ s₁.nodes, ∃ b' ∈ s₁.nodes, Moves (seat a) (seat a') b.address pa pb ∧
      Moves (seat b) (seat b') a.address pb pa := by
  rw [swapNodeAddresses] at done
  split at done
  · cases done
  · next different =>
    obtain ⟨between, m, loaded, edited, stored⟩ := rewriteMesh_eq_ok done
    obtain ⟨_, loaded', load⟩ := exists_load codec s
    obtain ⟨_, rfl⟩ := EStateM.Result.ok.inj (loaded.symm.trans loaded')
    obtain ⟨a₁, inA₁, sameA⟩ := List.mem_map.mp (load.routed a inA someA)
    obtain ⟨b₁, inB₁, sameB⟩ := List.mem_map.mp (load.routed b inB someB)
    have idA : a₁.id = a.id := congrArg Prod.fst sameA
    have idB : b₁.id = b.id := congrArg Prod.fst sameB
    have addrA : a₁.address = a.address := congrArg (·.2.1) sameA
    have addrB : b₁.address = b.address := congrArg (·.2.1) sameB
    obtain ⟨_, passedA, edited⟩ := except_bind_eq_ok.mp edited
    obtain ⟨_, passedB, edited⟩ := except_bind_eq_ok.mp edited
    cases (idA ▸ findNode_of_mem between.ids inA₁).symm.trans (subnetSwapGuard_ok passedA)
    cases (idB ▸ findNode_of_mem between.ids inB₁).symm.trans (subnetSwapGuard_ok passedB)
    simp only [addrA, addrB, homeA, homeB] at edited
    obtain ⟨movedA, moveA, edited⟩ := except_bind_eq_ok.mp edited
    obtain ⟨movedB, moveB, edited⟩ := except_bind_eq_ok.mp edited
    cases edited
    have canonicalA := canonical_vpnPrefixFromAddress homeA
    have canonicalB := canonical_vpnPrefixFromAddress homeB
    have movesA := sameA ▸ moveNode_moves canonicalA canonicalB moveA
    have movesB := sameB ▸ moveNode_moves canonicalB canonicalA moveB
    have seats := seats_replaceMeshLocked stored
    have keptA : seat movedA ∈ s₁.nodes.map seat := by
      rw [seats]
      have idA' : movedA.id ≠ b.id := fun same => different (movesA.id.symm.trans same)
      exact List.mem_map_of_mem (List.mem_map.mpr
        ⟨_, List.mem_map.mpr ⟨_, inA₁, if_pos idA⟩, if_neg idA'⟩)
    have keptB : seat movedB ∈ s₁.nodes.map seat := by
      rw [seats]
      have idB' : b₁.id ≠ a.id := fun same => different (same.symm.trans idB)
      exact List.mem_map_of_mem (List.mem_map.mpr
        ⟨_, List.mem_map.mpr ⟨_, inB₁, if_neg idB'⟩, if_pos idB⟩)
    obtain ⟨a', inA', sameA'⟩ := List.mem_map.mp keptA
    obtain ⟨b', inB', sameB'⟩ := List.mem_map.mp keptB
    exact ⟨a', inA', b', inB', sameA' ▸ movesA, sameB' ▸ movesB⟩

def SameRoutes (n n' : Node) : Prop :=
  (∀ x ∈ routeTexts n.routes, x ∈ routeTexts n'.routes) ∧
    ∀ x ∈ routeTexts n'.routes, x ∈ routeTexts n.routes

instance (n n' : Node) : Decidable (SameRoutes n n') :=
  inferInstanceAs (Decidable (_ ∧ _))

/-- The second swap undoes the first: both nodes have their addresses and routes back. In between
no route to a third prefix is lost, and one of the nodes still routes the two subnets. -/
structure SwapsBack (s₁ s₂ : State) (a b : Node) (pa pb : String) : Prop where
  restored : ∀ n ∈ [a, b], ∃ n' ∈ s₂.nodes, n'.id = n.id ∧ n'.address = n.address ∧
    SameRoutes n n'
  third : ∀ n ∈ [a, b], ∃ n' ∈ s₁.nodes, n'.id = n.id ∧ ∀ x ∈ routeTexts n.routes,
    x ≠ pa.toList → x ≠ pb.toList → x ∈ routeTexts n'.routes
  reached : ∀ p ∈ [pa, pb], ∃ n' ∈ s₁.nodes, (n'.id = a.id ∨ n'.id = b.id) ∧
    p.toList ∈ routeTexts n'.routes

theorem sameRoutes_iff {n n₁ n₂ : Node} {addr addr' old new : String}
    (own : old.toList ∈ routeTexts n.routes) (away : Moves (seat n) (seat n₁) addr old new)
    (back : Moves (seat n₁) (seat n₂) addr' new old) :
    SameRoutes n n₂ ↔ old = new ∨ new.toList ∉ routeTexts n.routes := by
  have members (x) : x ∈ routeTexts n₂.routes ↔
      x = old.toList ∨ x ∈ routeTexts n.routes ∧ x ≠ new.toList := by
    rw [show n₂.routes = (seat n₂).2.2 from rfl, back.routes, away.routes]
    change _ ∨ (_ ∨ x ∈ routeTexts n.routes ∧ _) ∧ _ ↔ _
    grind
  rw [SameRoutes, ← String.toList_inj]
  grind

/-- **Swapping twice** restores two nodes exactly when they are in one subnet or neither routes the
subnet of the other. -/
theorem swapTwice_restores_iff (inA : a ∈ s.nodes) (inB : b ∈ s.nodes)
    (homeA : vpnPrefixFromAddress a.address = some pa)
    (homeB : vpnPrefixFromAddress b.address = some pb)
    (ownA : pa.toList ∈ routeTexts a.routes) (ownB : pb.toList ∈ routeTexts b.routes)
    (first : swapNodeAddresses codec a.id b.id now s = .ok () s₁)
    (second : swapNodeAddresses codec a.id b.id later s₁ = .ok () s₂) : SwapsBack s₁ s₂ a b pa pb ↔
      pa = pb ∨ pb.toList ∉ routeTexts a.routes ∧ pa.toList ∉ routeTexts b.routes := by
  have routed {n : Node} {x : List Char} (own : x ∈ routeTexts n.routes) : n.routes ≠ [] := by
    intro none
    rw [none] at own
    cases own
  obtain ⟨a₁, inA₁, b₁, inB₁, awayA, awayB⟩ :=
    swap_moves inA inB homeA homeB (routed ownA) (routed ownB) first
  have reachA : pb.toList ∈ routeTexts a₁.routes := (awayA.routes _).mpr (.inl rfl)
  have reachB : pa.toList ∈ routeTexts b₁.routes := (awayB.routes _).mpr (.inl rfl)
  have idA : a₁.id = a.id := awayA.id
  have idB : b₁.id = b.id := awayB.id
  have addrA : a₁.address = b.address := awayA.address
  have addrB : b₁.address = a.address := awayB.address
  obtain ⟨a₂, inA₂, b₂, inB₂, backA, backB⟩ := swap_moves inA₁ inB₁ (addrA ▸ homeB)
    (addrB ▸ homeA) (routed reachA) (routed reachB) (idA.symm ▸ idB.symm ▸ second)
  have onlyA {n} (listed : n ∈ s₂.nodes) (same : n.id = a.id) : n = a₂ :=
    List.inj_on_of_nodup_map s₂.ids listed inA₂ (same.trans (backA.id.trans idA).symm)
  have onlyB {n} (listed : n ∈ s₂.nodes) (same : n.id = b.id) : n = b₂ :=
    List.inj_on_of_nodup_map s₂.ids listed inB₂ (same.trans (backB.id.trans idB).symm)
  have key : SwapsBack s₁ s₂ a b pa pb ↔ SameRoutes a a₂ ∧ SameRoutes b b₂ := by
    constructor
    · intro back
      obtain ⟨_, inN, sameN, _, routesA⟩ := back.restored a (.head _)
      obtain ⟨_, inM, sameM, _, routesB⟩ := back.restored b (.tail _ (.head _))
      exact ⟨onlyA inN sameN ▸ routesA, onlyB inM sameM ▸ routesB⟩
    · rintro ⟨routesA, routesB⟩
      refine ⟨List.forall_mem_cons.mpr ⟨?_, List.forall_mem_singleton.mpr ?_⟩,
        List.forall_mem_cons.mpr ⟨?_, List.forall_mem_singleton.mpr ?_⟩,
        List.forall_mem_cons.mpr ⟨?_, List.forall_mem_singleton.mpr ?_⟩⟩
      · exact ⟨a₂, inA₂, backA.id.trans idA, backA.address.trans addrB, routesA⟩
      · exact ⟨b₂, inB₂, backB.id.trans idB, backB.address.trans addrA, routesB⟩
      · exact ⟨a₁, inA₁, idA, fun x old notA _ => (awayA.routes x).mpr (.inr ⟨old, notA⟩)⟩
      · exact ⟨b₁, inB₁, idB, fun x old _ notB => (awayB.routes x).mpr (.inr ⟨old, notB⟩)⟩
      · exact ⟨b₁, inB₁, .inr idB, reachB⟩
      · exact ⟨a₁, inA₁, .inl idA, reachA⟩
  rw [key, sameRoutes_iff ownA awayA backA, sameRoutes_iff ownB awayB backB]
  grind

/-! ## Two cards -/

/-- A card in its own subnet, with routes of its own. -/
def firstCard (routes : List String) : Node :=
  .sample "00000000-0000-4000-8000-0000000000a1" "10.1.0.1/24" 51820 "" routes

/-- A card in another subnet. -/
def secondCard : Node :=
  { Node.sample "00000000-0000-4000-8000-0000000000b1" "10.2.0.1/24" 51820 "" ["10.2.0.0/24"] with
    token := "other" }

def twoCards (routes : List String) : State :=
  { openedStore with
    nodes := [firstCard routes, secondCard]
    ids := by simp [firstCard, secondCard, Node.sample]
    tokens := by simp [firstCard, secondCard, Node.sample] }

def swapCards : Operation Unit :=
  swapNodeAddresses noCodec (firstCard []).id secondCard.id .zero

theorem eq_ok_outcome {x : Operation Unit}
    (ran : (match x s with | .ok .. => true | .error .. => false) = true) :
    x s = .ok () (outcome (x s)) := by
  cases result : x s with
  | ok _ s' => rfl
  | error e s' =>
    rw [result] at ran
    cases ran

theorem plainCards_swapBack : ∃ s₁ s₂, swapCards (twoCards ["10.1.0.0/24"]) = .ok () s₁ ∧
    swapCards s₁ = .ok () s₂ ∧
      SwapsBack s₁ s₂ (firstCard ["10.1.0.0/24"]) secondCard "10.1.0.0/24" "10.2.0.0/24" := by
  obtain ⟨s₁, first, second⟩ : ∃ s₁, swapCards (twoCards ["10.1.0.0/24"]) = .ok () s₁ ∧
      swapCards s₁ = .ok () (outcome (swapCards s₁)) :=
    ⟨_, eq_ok_outcome (by decide +kernel), eq_ok_outcome (by decide +kernel)⟩
  exact ⟨_, _, first, second, (swapTwice_restores_iff (a := firstCard ["10.1.0.0/24"])
    (b := secondCard) (.head _) (.tail _ (.head _)) (by decide +kernel) (by decide +kernel)
    (by decide +kernel) (by decide +kernel) first second).mpr (by decide +kernel)⟩

theorem foreignRoute_lost : ∃ s₁ s₂,
    swapCards (twoCards ["10.1.0.0/24", "10.2.0.0/24"]) = .ok () s₁ ∧ swapCards s₁ = .ok () s₂ ∧
      ¬ SwapsBack s₁ s₂ (firstCard ["10.1.0.0/24", "10.2.0.0/24"]) secondCard "10.1.0.0/24"
        "10.2.0.0/24" :=
  ⟨_, _, eq_ok_outcome (by decide +kernel), eq_ok_outcome (by decide +kernel),
    fun back => absurd back.restored (by decide +kernel)⟩

end Store
