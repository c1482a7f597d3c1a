import WireguardMesh.Store.State

/-! # Loading

What a load makes of a stored mesh. Every node is completed on its own (`completed`), so a
load keeps whatever does not depend on the routes, the transport and the cluster of a node; it
never fails, and the store it leaves is settled (`Loaded`, `exists_load`).
-/

namespace Store

open Core

theorem map_pruneClusters {β : Type} (key : Node → β) (m : Mesh)
    (unread : ∀ n : Node, key { n with cluster := "" } = key n) :
    (pruneClusters m).nodes.map key = m.nodes.map key := by
  rw [pruneClusters, List.map_map]
  apply List.map_congr_left
  intro n _
  rw [Function.comp_apply]
  split
  · exact unread n
  · rfl

/-- What a load makes of a node, clusters apart. -/
def completed (defaults : String) (n : Node) : Node :=
  let routed := n.defaultRoutes.getD n
  if defaults = "" then routed else (motherTransport defaults routed).getD routed

/-- A node that a load does not change, clusters apart. -/
def Complete (defaults : String) (n : Node) : Prop :=
  n.defaultRoutes = none ∧ (defaults = "" ∨ motherTransport defaults n = none)

theorem defaultRoutes_eq_none (n : Node) :
    n.defaultRoutes = none ↔ n.routes ≠ [] ∨ vpnPrefixFromAddress n.address = none := by
  rw [Node.defaultRoutes]
  split
  · next given => exact iff_of_true rfl (.inl given)
  · next missing =>
    rw [Option.map_eq_none_iff]
    exact ⟨.inr, fun either => either.resolve_left missing⟩

theorem Complete.cluster {defaults : String} {n : Node} (complete : Complete defaults n) :
    Complete defaults { n with cluster := "" } := by
  refine ⟨(defaultRoutes_eq_none _).mpr ((defaultRoutes_eq_none n).mp complete.1), ?_⟩
  refine complete.2.imp_right fun filled => ?_
  rw [motherTransport] at filled ⊢
  split at filled
  · next whole => exact if_pos whole
  · cases filled

theorem complete_completed (defaults : String) (n : Node) :
    Complete defaults (completed defaults n) := by
  have routed : (n.defaultRoutes.getD n).defaultRoutes = none := by
    cases filled : n.defaultRoutes with
    | none => exact filled
    | some n' =>
      rw [Node.defaultRoutes] at filled
      split at filled
      · cases filled
      · obtain ⟨pfx, _, rfl⟩ := Option.map_eq_some_iff.mp filled
        exact if_pos (List.cons_ne_nil pfx [])
  rw [completed]
  split
  · next without => exact ⟨routed, .inl without⟩
  · next given =>
    generalize n.defaultRoutes.getD n = r at routed ⊢
    cases filled : motherTransport defaults r with
    | none => exact ⟨routed, .inr filled⟩
    | some r' =>
      rw [motherTransport] at filled
      split at filled
      · cases filled
      · cases filled
        exact ⟨(defaultRoutes_eq_none _).mpr ((defaultRoutes_eq_none r).mp routed),
          .inr (if_pos (.inr (.inl given)))⟩

theorem State.settled_iff (s : State) :
    s.Settled ↔ ∀ n ∈ s.nodes, Complete s.settings.transportJSON n := by
  constructor
  · rintro ⟨routes, transport⟩ n listed
    rw [ensureDefaultRoutes, Mesh.fill, List.any_eq_false] at routes
    refine ⟨Option.not_isSome_iff_eq_none.mp (routes n listed), ?_⟩
    rw [ensureMotherTransport] at transport
    split at transport
    · next without => exact .inl without
    · rw [Mesh.fill, List.any_eq_false] at transport
      exact .inr (Option.not_isSome_iff_eq_none.mp (transport n listed))
  · intro complete
    constructor
    · rw [ensureDefaultRoutes, Mesh.fill, List.any_eq_false]
      intro n listed
      rw [(complete n listed).1]
      exact Bool.false_ne_true
    · rw [ensureMotherTransport]
      split
      · rfl
      · next given =>
        rw [Mesh.fill, List.any_eq_false]
        intro n listed
        rw [(complete n listed).2.resolve_left given]
        exact Bool.false_ne_true

theorem State.Settled.load {s : State} (settled : s.Settled) (codec : Codec) :
    loadMeshLocked codec s = .ok (s.mesh codec) s := by
  rw [loadMeshLocked]
  rw [ensureDefaultRoutes, Mesh.fill_eq_self settled.routes]
  have nothing : ((ensureMotherTransport s.tables s.settings.transportJSON).2 ||
      (s.tables.fill Node.defaultRoutes).2) = false := by
    rw [settled.transport]
    exact settled.routes
  rw [nothing]
  rfl

theorem nodes_seeded (s : State) :
    (ensureMotherTransport (ensureDefaultRoutes s.tables).1 s.settings.transportJSON).1.nodes =
      s.nodes.map (completed s.settings.transportJSON) := by
  rw [ensureMotherTransport, ensureDefaultRoutes, Mesh.fill]
  split
  · next without =>
    apply List.map_congr_left
    intro n _
    rw [completed, if_pos without]
  · next given =>
    rw [Mesh.fill]
    rw [List.map_map]
    apply List.map_congr_left
    intro n _
    rw [Function.comp_apply, completed, if_neg given]

theorem completed_key {β : Type} (key : Node → β) (defaults : String) (n : Node)
    (routes : ∀ (n : Node) r, key { n with routes := r } = key n)
    (transport : ∀ (n : Node) t, key { n with transport := t } = key n) :
    key (completed defaults n) = key n := by
  have routed : key (n.defaultRoutes.getD n) = key n := by
    cases filled : n.defaultRoutes with
    | none => rfl
    | some n' =>
      rw [Node.defaultRoutes] at filled
      split at filled
      · cases filled
      · obtain ⟨pfx, _, rfl⟩ := Option.map_eq_some_iff.mp filled
        exact routes n [pfx]
  rw [completed]
  split
  · exact routed
  · rw [← routed]
    generalize n.defaultRoutes.getD n = r
    cases filled : motherTransport defaults r with
    | none => rfl
    | some r' =>
      rw [motherTransport] at filled
      split at filled
      · cases filled
      · cases filled
        exact transport r defaults

/-- The id of a node, its address and its routes. -/
def seat (n : Node) : String × String × List String :=
  (n.id, n.address, n.routes)

theorem seat_completed {n : Node} (given : n.routes ≠ []) (defaults : String) :
    seat (completed defaults n) = seat n := by
  have routed := (defaultRoutes_eq_none n).mpr (.inl given)
  rw [completed, routed, Option.getD_none]
  split
  · rfl
  · rw [motherTransport]
    split <;> rfl

theorem Complete.of_pruned {m : Mesh} {defaults : String}
    (complete : ∀ n ∈ m.nodes, Complete defaults n) :
    ∀ n ∈ (pruneClusters m).nodes, Complete defaults n := by
  intro n listed
  obtain ⟨n₀, listed₀, rfl⟩ := List.mem_map.mp listed
  split
  · exact (complete n₀ listed₀).cluster
  · exact complete n₀ listed₀

/-- What a load keeps: the links, whatever does not depend on the cluster, routes and transport of
a node, and the routes of a node that has some. No node then has to be completed. -/
structure Loaded (s s' : State) : Prop where
  settled : s'.Settled
  links : s'.links = s.links
  kept : ∀ {β : Type} (key : Node → β), (∀ n : Node, key { n with cluster := "" } = key n) →
    (∀ (n : Node) r, key { n with routes := r } = key n) →
    (∀ (n : Node) t, key { n with transport := t } = key n) → s'.nodes.map key = s.nodes.map key
  routed : ∀ n ∈ s.nodes, n.routes ≠ [] → seat n ∈ s'.nodes.map seat

theorem links_seeded (s : State) :
    (ensureMotherTransport (ensureDefaultRoutes s.tables).1 s.settings.transportJSON).1.links =
      s.links := by
  rw [ensureMotherTransport]
  split <;> rfl

/-- **Loading.** A load never fails, and it settles the store. -/
theorem exists_load (codec : Codec) (s : State) :
    ∃ s', loadMeshLocked codec s = .ok (s'.mesh codec) s' ∧ Loaded s s' := by
  rw [loadMeshLocked]
  split
  · have kept {β : Type} (key : Node → β) (cluster : ∀ n : Node, key { n with cluster := "" } = key n)
        (routes : ∀ (n : Node) r, key { n with routes := r } = key n)
        (transport : ∀ (n : Node) t, key { n with transport := t } = key n) :
        (pruneClusters { (ensureMotherTransport (ensureDefaultRoutes s.tables).1
          s.settings.transportJSON).1 with revision := s.revision + 1 }).nodes.map key =
            s.nodes.map key := by
      rw [map_pruneClusters key _ cluster, nodes_seeded, List.map_map]
      apply List.map_congr_left
      intro n _
      exact completed_key key _ n routes transport
    have ids := kept Node.id (fun _ => rfl) (fun _ _ => rfl) fun _ _ => rfl
    have tokens := kept Node.token (fun _ => rfl) (fun _ _ => rfl) fun _ _ => rfl
    rw [replaceMeshLocked, dif_pos ⟨ids ▸ s.ids, tokens ▸ s.tokens⟩]
    refine ⟨_, rfl, (State.settled_iff _).mpr (Complete.of_pruned ?_), links_seeded s, kept, ?_⟩
    · intro n listed
      rw [nodes_seeded] at listed
      obtain ⟨n₀, _, rfl⟩ := List.mem_map.mp listed
      exact complete_completed _ n₀
    · intro n listed given
      rw [map_pruneClusters seat _ fun _ => rfl, nodes_seeded, ← seat_completed given]
      exact List.mem_map_of_mem (List.mem_map_of_mem listed)
  · next nothing =>
    have loaded : loadMeshLocked codec s = .ok (s.mesh codec) s := by
      rw [loadMeshLocked]
      rw [if_neg nothing]
    refine ⟨s, rfl, ?_, rfl, fun _ _ _ _ => rfl, fun n listed _ => List.mem_map_of_mem listed⟩
    rcases (loadMeshLocked_eq_ok loaded).2.2 with raised | ⟨_, settled⟩
    · omega
    · exact settled

end Store
