import WireguardMesh.Foundation.Attachments
import WireguardMesh.Store.Operations

/-! # What the edits do to attachments

A card is attached to its mothers by links. The links of a mesh are the edges of a graph whose
leaves are the cards and whose hubs are the mothers; the mode of a mother is its colour. Most edits
of a mesh leave them alone (`Quiet`), `setListenPort` changes the side of a node and releases the
links that no longer suit it, `setParents` replaces the links of a card, and the copies within a
cluster are made of these.
-/

namespace Core

open Attachments

variable {m m' : Mesh}

/-- The links as edges from cards to mothers. -/
def Mesh.edges (m : Mesh) : List (String × String) :=
  m.links.map fun l => (l.fromNodeID, l.toNodeID)

/-- Whether a node is a mother. -/
def Mesh.side (m : Mesh) (id : String) : Option Bool :=
  (m.findNode id).map Node.isMagnetParent

def Mesh.mode (m : Mesh) (id : String) : Option Bool :=
  (m.findNode id).map Node.udpMode

/-- Which node is in which cluster. -/
def Mesh.roll (m : Mesh) : List (String × String) :=
  m.nodes.map fun n => (n.id, n.cluster)

/-- An edit that attachments do not depend on. -/
structure Quiet (m m' : Mesh) : Prop where
  side : m'.side = m.side
  mode : m'.mode = m.mode
  edges : m'.edges = m.edges

theorem Quiet.refl (m : Mesh) : Quiet m m :=
  ⟨rfl, rfl, rfl⟩

theorem Quiet.trans {m'' : Mesh} (first : Quiet m m') (second : Quiet m' m'') : Quiet m m'' :=
  ⟨second.side.trans first.side, second.mode.trans first.mode, second.edges.trans first.edges⟩

/-- An edit that the clusters do not depend on either. -/
structure Tame (m m' : Mesh) : Prop extends Quiet m m' where
  roll : m'.roll = m.roll

theorem Tame.refl (m : Mesh) : Tame m m :=
  ⟨.refl m, rfl⟩

theorem Tame.trans {m'' : Mesh} (first : Tame m m') (second : Tame m' m'') : Tame m m'' :=
  ⟨first.toQuiet.trans second.toQuiet, second.roll.trans first.roll⟩

theorem quiet_of_kinds
    (kinds : m'.nodes.map (fun n => (n.id, n.isMagnetParent, n.udpMode)) =
      m.nodes.map fun n => (n.id, n.isMagnetParent, n.udpMode))
    (links : m'.links = m.links) : Quiet m m' := by
  have read {β : Type} (part : Bool × Bool → β) (m : Mesh) (x : String) :
      (m.findNode x).map (fun n => part (n.isMagnetParent, n.udpMode)) =
        ((m.nodes.map fun n => (n.id, n.isMagnetParent, n.udpMode)).find? fun entry =>
          entry.1 = x).map fun entry => part entry.2 := by
    rw [List.find?_map, Option.map_map]
    rfl
  refine ⟨?_, ?_, ?_⟩
  · funext x
    exact (read Prod.fst m' x).trans (kinds ▸ (read Prod.fst m x).symm)
  · funext x
    exact (read Prod.snd m' x).trans (kinds ▸ (read Prod.snd m x).symm)
  · rw [Mesh.edges, Mesh.edges, links]

/-! ## Single nodes -/

section

variable (m : Mesh) (id x : String) {f : Node → Node}

section

variable (ids : ∀ n : Node, n.id = id → (f n).id = id)

include ids

theorem findNode_modify :
    (m.modify id f).findNode x = if x = id then (m.findNode x).map f else m.findNode x := by
  have same : (fun n : Node => decide (n.id = x)) ∘ (fun n => if n.id = id then f n else n) =
      fun n => decide (n.id = x) := by
    funext n
    rw [Function.comp_apply]
    split
    · next own => rw [ids n own, own]
    · rfl
  rw [Mesh.findNode, Mesh.modify, List.find?_map, same]
  change (m.findNode x).map _ = _
  cases found : m.findNode x with
  | none => split <;> rfl
  | some n =>
    rw [Option.map_some, findNode_id found]
    split <;> rfl

theorem map_findNode_modify (part : Node → Bool) {g : Bool → Bool}
    (effect : ∀ n, m.findNode id = some n → part (f n) = g (part n)) :
    ((m.modify id f).findNode x).map part =
      if x = id then ((m.findNode x).map part).map g else (m.findNode x).map part := by
  rw [findNode_modify m id x ids]
  split
  · next own =>
    subst own
    cases found : m.findNode x with
    | none => rfl
    | some n => exact congrArg some (effect n found)
  · rfl

theorem mode_modify {g : Bool → Bool}
    (effect : ∀ n, m.findNode id = some n → (f n).udpMode = g n.udpMode) :
    (m.modify id f).mode x = if x = id then (m.mode x).map g else m.mode x :=
  map_findNode_modify m id x ids Node.udpMode effect

theorem map_findNode_eq (part : Node → Bool)
    (same : ∀ n, m.findNode id = some n → part (f n) = part n) :
    (fun x => ((m.modify id f).findNode x).map part) = fun x => (m.findNode x).map part := by
  funext x
  rw [map_findNode_modify m id x ids part (g := fun b => b) same, Option.map_id']
  exact ite_self _

theorem side_eq_modify
    (same : ∀ n, m.findNode id = some n → (f n).isMagnetParent = n.isMagnetParent) :
    (m.modify id f).side = m.side :=
  map_findNode_eq m id ids _ same

theorem quiet_modify (side : ∀ n, m.findNode id = some n → (f n).isMagnetParent = n.isMagnetParent)
    (mode : ∀ n, m.findNode id = some n → (f n).udpMode = n.udpMode) : Quiet m (m.modify id f) :=
  ⟨side_eq_modify m id ids side, map_findNode_eq m id ids _ mode, rfl⟩

end

theorem roll_modify (keeps : ∀ n, (f n).id = n.id ∧ (f n).cluster = n.cluster) :
    (m.modify id f).roll = m.roll := by
  rw [Mesh.roll, Mesh.roll, Mesh.modify, List.map_map]
  apply List.map_congr_left
  intro n _
  rw [Function.comp_apply]
  split
  · rw [(keeps n).1, (keeps n).2]
  · rfl

end

theorem quiet_cluster (m : Mesh) (id c : String) :
    Quiet m (m.modify id fun n => { n with cluster := c }) :=
  quiet_modify m id (fun _ own => own) (fun _ _ => rfl) fun _ _ => rfl

theorem tame_modify (m : Mesh) (id : String) {f : Node → Node}
    (keeps : ∀ n, ((f n).id = n.id ∧ (f n).cluster = n.cluster) ∧
      (f n).isMagnetParent = n.isMagnetParent ∧ (f n).udpMode = n.udpMode) :
    Tame m (m.modify id f) where
  toQuiet := quiet_modify m id (fun n own => (keeps n).1.1.trans own)
    (fun n _ => (keeps n).2.1) fun n _ => (keeps n).2.2
  roll := roll_modify m id fun n => (keeps n).1

theorem cluster_congr (same : m'.roll = m.roll) (x : String) :
    (m'.findNode x).map Node.cluster = (m.findNode x).map Node.cluster := by
  have read (m : Mesh) : (m.findNode x).map Node.cluster =
      (m.roll.find? fun entry => entry.1 = x).map Prod.snd := by
    rw [Mesh.roll, List.find?_map, Option.map_map]
    rfl
  rw [read, read, same]

theorem clusterMembers_congr (same : m'.roll = m.roll) (c : String) :
    m'.clusterMembers c = m.clusterMembers c := by
  have read (m : Mesh) : (m.nodes.filter fun n => n.cluster = c).map Node.id =
      (m.roll.filter fun entry => entry.2 = c).map Prod.fst := by
    rw [Mesh.roll, List.filter_map, List.map_map]
    rfl
  rw [Mesh.clusterMembers, Mesh.clusterMembers, read, read, same]

end Core

namespace Store

open Core Attachments GoText

variable {m m' : Mesh} {ids : List String} {child srcID dstID : String}

/-! ## Ports -/

section

variable (m : Mesh) (id x : String) (port : UInt16)

theorem edges_setListenPort :
    (setListenPort m id port).edges = release m.edges id (decide (0 < port)) := by
  rw [setListenPort, release]
  split
  · next mother =>
    rw [decide_eq_true mother, Mesh.edges, Mesh.edges, dropLinks, List.filter_map]
    simp [Function.comp_def]
  · next card =>
    rw [decide_eq_false card, Mesh.edges, Mesh.edges, dropLinks, List.filter_map]
    simp [Function.comp_def]

theorem setListenPort_nodes : (setListenPort m id port).nodes = (m.modify id fun n =>
    { n with listenPort := port, role := if 0 < port then .server else .client }).nodes := by
  rw [setListenPort]
  split
  · rfl
  · rfl

theorem side_setListenPort : (setListenPort m id port).side x =
    if x = id then (m.side x).map fun _ => decide (0 < port) else m.side x := by
  rw [Mesh.side, Mesh.findNode, setListenPort_nodes]
  exact map_findNode_modify m id x
    (f := fun n => { n with listenPort := port, role := if 0 < port then .server else .client })
    (fun _ own => own) _ (g := fun _ => decide (0 < port)) fun _ _ => rfl

theorem mode_setListenPort : (setListenPort m id port).mode = m.mode := by
  funext x
  rw [Mesh.mode, Mesh.findNode, setListenPort_nodes]
  exact congrFun (map_findNode_eq m id
    (f := fun n => { n with listenPort := port, role := if 0 < port then .server else .client })
    (fun _ own => own) Node.udpMode fun _ _ => rfl) x

theorem roll_setListenPort : (setListenPort m id port).roll = m.roll := by
  rw [Mesh.roll, setListenPort_nodes]
  exact roll_modify m id fun _ => ⟨rfl, rfl⟩

end

/-- A mesh whose attachments are in order, modes apart. -/
abbrev WellAttached (m : Mesh) : Prop :=
  Attached m.side maxMagnetParents m.edges

/-- A mesh whose cards have mothers of one mode each. -/
abbrev OneMode (m : Mesh) : Prop :=
  Uniform m.mode m.edges

theorem wellAttached_of_quiet (quiet : Quiet m m') (attached : WellAttached m) :
    WellAttached m' := by
  rw [WellAttached, quiet.side, quiet.edges]
  exact attached

theorem oneMode_of_quiet (quiet : Quiet m m') (uniform : OneMode m) : OneMode m' := by
  rw [OneMode, quiet.mode, quiet.edges]
  exact uniform

theorem release_subset {V : Type} [DecidableEq V] (edges : List (V × V)) (v : V) (hub : Bool) :
    (release edges v hub).Sublist edges :=
  List.filter_sublist

theorem wellAttached_setListenPort (attached : WellAttached m) (id : String) (port : UInt16) :
    WellAttached (setListenPort m id port) := by
  rw [WellAttached, edges_setListenPort]
  exact attached.release id _ fun x => side_setListenPort m id x port

theorem oneMode_setListenPort (uniform : OneMode m) (id : String) (port : UInt16) :
    OneMode (setListenPort m id port) := by
  rw [OneMode, edges_setListenPort, mode_setListenPort]
  exact uniform.subset (release_subset m.edges id _).subset

/-! ## Mothers -/

theorem uniqueTexts_nodup (texts ids : List String) (once : ids.Nodup) :
    (uniqueTexts texts ids).Nodup := by
  induction texts generalizing ids with
  | nil => exact once
  | cons text texts ih =>
    rw [uniqueTexts]
    split
    · exact ih ids once
    · next fresh =>
      apply ih
      rw [not_or] at fresh
      refine List.nodup_append.mpr ⟨once, List.nodup_singleton _, ?_⟩
      intro a known b new same
      rw [List.mem_singleton.mp new] at same
      exact fresh.2 (same ▸ known)

/-- The checked parents are mothers of one mode, that of those checked before. -/
theorem checkParents_ok {udp : Option Bool} (checked : checkParents m child ids udp = .ok ()) :
    (∀ pid ∈ ids, m.side pid = some true) ∧
      ∃ b, (∀ v, udp = some v → v = b) ∧ ∀ pid ∈ ids, m.mode pid = some b := by
  induction ids generalizing udp with
  | nil =>
    refine ⟨nofun, udp.getD false, ?_, nofun⟩
    rintro v rfl
    rfl
  | cons pid ids ih =>
    rw [checkParents] at checked
    split at checked
    · cases checked
    · next parent found =>
      split at checked
      · cases checked
      · split at checked
        · cases checked
        · next mother =>
          split at checked
          · cases checked
          · next mode =>
            obtain ⟨sides, b, first, modes⟩ := ih checked
            have own : m.side pid = some true := by
              rw [Mesh.side, found, Option.map_some, eq_true_of_ne_false mother]
            have same : m.mode pid = some b := by
              rw [Mesh.mode, found, Option.map_some, first _ rfl]
            refine ⟨List.forall_mem_cons.mpr ⟨own, sides⟩, b, ?_,
              List.forall_mem_cons.mpr ⟨same, modes⟩⟩
            rintro v rfl
            exact (not_not.mp mode).trans (first _ rfl)

/-- **Attaching.** `setParents` replaces the links of a card by links to mothers of one mode,
each once and at most eight; a mother gets none. -/
theorem setParents_ok (done : setParents m child ids = .ok m') :
    (m'.side = m.side ∧ m'.mode = m.mode ∧ m'.roll = m.roll) ∧
      ∃ hubs, m'.edges = reattach m.edges child hubs ∧ hubs.Nodup ∧
      hubs.length ≤ maxMagnetParents ∧ (hubs ≠ [] → m.side child = some false) ∧
      (∀ hub ∈ hubs, m.side hub = some true) ∧ ∀ a ∈ hubs, ∀ b ∈ hubs, m.mode a = m.mode b := by
  rw [setParents] at done
  split at done
  · cases done
  · next card found =>
    dsimp only at done
    split at done
    · cases done
    · next few =>
      split at done
      · cases done
      · next kind =>
        split at done
        · cases done
        · next checked =>
          cases done
          obtain ⟨sides, b, _, modes⟩ := checkParents_ok checked
          refine ⟨⟨rfl, rfl, rfl⟩, uniqueTexts ids [], ?_, uniqueTexts_nodup ids [] List.nodup_nil,
            Nat.not_lt.mp few, ?_, sides, ?_⟩
          · rw [Mesh.edges, Mesh.edges, List.map_append, List.map_map, reattach, dropLinks,
              List.filter_map]
            simp [Function.comp_def]
          · intro some_hub
            rw [Mesh.side, found, Option.map_some]
            congr 1
            by_contra mother
            exact kind ⟨some_hub, eq_true_of_ne_false mother⟩
          · intro a listed a' listed'
            rw [modes a listed, modes a' listed']

theorem wellAttached_setParents (attached : WellAttached m)
    (done : setParents m child ids = .ok m') : WellAttached m' := by
  obtain ⟨⟨side, _, _⟩, hubs, edges, once, few, leaf, known, _⟩ := setParents_ok done
  rw [WellAttached, side, edges]
  exact attached.reattach leaf known once few

theorem oneMode_setParents (uniform : OneMode m) (done : setParents m child ids = .ok m') :
    OneMode m' := by
  obtain ⟨⟨_, mode, _⟩, hubs, edges, _, _, _, _, one⟩ := setParents_ok done
  rw [OneMode, mode, edges]
  exact uniform.reattach one

theorem edges_setParents_mother (mother : m.side child = some true)
    (done : setParents m child ids = .ok m') : m'.edges ⊆ m.edges := by
  obtain ⟨_, hubs, edges, _, _, leaf, _, _⟩ := setParents_ok done
  intro e listed
  rw [edges] at listed
  rcases mem_reattach.mp listed with ⟨old, _⟩ | ⟨_, new⟩
  · exact old
  · have card := leaf (List.ne_nil_of_mem new)
    rw [mother] at card
    cases card

/-! ## Clusters -/

section

variable {src dst : Node} {what : ClusterSync}

theorem copyPort_keeps (keep : Mesh → Prop) (set : keep (setListenPort m dst.id src.listenPort))
    (start : keep m) : keep (copyPort src dst what m) := by
  rw [copyPort]
  split
  · exact set
  · exact start

theorem side_copyTransport : (copyTransport src dst what m).side = m.side := by
  rw [copyTransport]
  split
  · exact side_eq_modify m dst.id (fun _ own => own) fun _ _ => rfl
  · rfl

theorem edges_copyTransport : (copyTransport src dst what m).edges = m.edges := by
  rw [copyTransport]
  split <;> rfl

theorem roll_copyTransport : (copyTransport src dst what m).roll = m.roll := by
  rw [copyTransport]
  split
  · exact roll_modify m dst.id fun _ => ⟨rfl, rfl⟩
  · rfl

theorem mode_copyTransport (x : String) : (copyTransport src dst what m).mode x =
    if what.transport = true ∧ x = dst.id then (m.mode x).map fun _ => src.udpMode else m.mode x := by
  rw [copyTransport]
  split
  · next copied =>
    rw [mode_modify m dst.id x
      (f := fun n => { n with udpMode := src.udpMode, transport := src.transport })
      (g := fun _ => src.udpMode) (fun _ own => own) fun _ _ => rfl]
    simp [copied]
  · next kept => rw [if_neg fun both => kept both.1]

theorem copyRoutes_ok (done : copyRoutes src dst what m = .ok m') : Tame m m' := by
  rw [copyRoutes] at done
  split at done
  · obtain ⟨routes, _, rfl⟩ := Effect.except_map_eq_ok.mp done
    exact tame_modify m dst.id fun _ => ⟨⟨rfl, rfl⟩, rfl, rfl⟩
  · cases done
    exact .refl m

theorem copyParents_cases (done : copyParents src dst what m = .ok m') :
    m' = m ∨ src.isMagnetParent = false ∧ ∃ parents, setParents m dst.id parents = .ok m' := by
  rw [copyParents] at done
  split at done
  · next card => exact .inr ⟨card.2, _, done⟩
  · cases done
    exact .inl rfl

theorem copyForwards_tame (m : Mesh) (src dst : Node) (what : ClusterSync) :
    Tame m (copyForwards src dst what m) := by
  rw [copyForwards]
  split
  · exact ⟨⟨rfl, rfl, rfl⟩, rfl⟩
  · exact .refl m

/-- A copy goes through the port, the transport, the routes, the mothers and the forwards. -/
theorem copyClusterConfig_ok (done : copyClusterConfig m srcID dstID what = .ok m') :
    m' = m ∧ (m.findNode srcID = none ∨ m.findNode dstID = none) ∨
      ∃ src dst between after, m.findNode srcID = some src ∧ m.findNode dstID = some dst ∧
      copyRoutes src dst what (copyTransport src dst what (copyPort src dst what m)) = .ok between ∧
      copyParents src dst what between = .ok after ∧ m' = copyForwards src dst what after := by
  rw [copyClusterConfig] at done
  split at done
  · next src dst foundSrc foundDst =>
    split at done
    · cases done
    · next between routed =>
      obtain ⟨after, copied, rfl⟩ := Effect.except_map_eq_ok.mp done
      exact .inr ⟨src, dst, between, after, foundSrc, foundDst, routed, copied, rfl⟩
  · next missing =>
    cases done
    refine .inl ⟨rfl, ?_⟩
    by_contra both
    obtain ⟨some_src, some_dst⟩ := not_or.mp both
    obtain ⟨src, foundSrc⟩ := Option.ne_none_iff_exists'.mp some_src
    obtain ⟨dst, foundDst⟩ := Option.ne_none_iff_exists'.mp some_dst
    exact missing src dst foundSrc foundDst

theorem wellAttached_copyPort (attached : WellAttached m) :
    WellAttached (copyPort src dst what m) :=
  copyPort_keeps _ (wellAttached_setListenPort attached ..) attached

theorem wellAttached_copyParents (attached : WellAttached m)
    (done : copyParents src dst what m = .ok m') : WellAttached m' := by
  rcases copyParents_cases done with rfl | ⟨_, _, set⟩
  · exact attached
  · exact wellAttached_setParents attached set

theorem wellAttached_copy (attached : WellAttached m)
    (done : copyClusterConfig m srcID dstID what = .ok m') : WellAttached m' := by
  rcases copyClusterConfig_ok done with
    ⟨rfl, _⟩ | ⟨src, dst, between, after, _, _, routed, copied, rfl⟩
  · exact attached
  · apply wellAttached_of_quiet (copyForwards_tame _ src dst what).toQuiet
    apply wellAttached_copyParents _ copied
    apply wellAttached_of_quiet (copyRoutes_ok routed).toQuiet
    rw [WellAttached, side_copyTransport, edges_copyTransport]
    exact wellAttached_copyPort attached

theorem oneMode_copyPort (uniform : OneMode m) : OneMode (copyPort src dst what m) :=
  copyPort_keeps _ (oneMode_setListenPort uniform _ _) uniform

theorem oneMode_copyTransport (attached : WellAttached m) (uniform : OneMode m)
    (harmless : what.transport = false ∨ m.side dst.id = some false) :
    OneMode (copyTransport src dst what m) := by
  rw [OneMode, edges_copyTransport]
  apply uniform.congr
  intro e listed
  rw [mode_copyTransport]
  apply if_neg
  rintro ⟨copied, target⟩
  rcases harmless with kept | card
  · rw [copied] at kept
    cases kept
  · have mother := attached.hub e listed
    rw [target, card] at mother
    cases mother

/-- A copy between cards, or one without the transport, keeps the modes in order. -/
theorem oneMode_copy (attached : WellAttached m) (uniform : OneMode m)
    (harmless : what.transport = false ∨ m.side srcID = some false ∧ m.side dstID = some false)
    (done : copyClusterConfig m srcID dstID what = .ok m') : OneMode m' := by
  rcases copyClusterConfig_ok done with
    ⟨rfl, _⟩ | ⟨src, dst, between, after, foundSrc, foundDst, routed, copied, rfl⟩
  · exact uniform
  · have harmless' : what.transport = false ∨
        (copyPort src dst what m).side dst.id = some false := by
      refine harmless.imp_right fun ⟨card, card'⟩ => ?_
      rw [findNode_id foundDst]
      rw [Mesh.side, foundSrc, Option.map_some, Option.some.injEq] at card
      apply copyPort_keeps (·.side dstID = some false) _ card'
      have port : decide (0 < src.listenPort) = false := card
      rw [side_setListenPort, findNode_id foundDst, if_pos rfl, card', port]
      rfl
    have routes : OneMode between := oneMode_of_quiet (copyRoutes_ok routed).toQuiet
      (oneMode_copyTransport (wellAttached_copyPort attached) (oneMode_copyPort uniform) harmless')
    apply oneMode_of_quiet (copyForwards_tame _ src dst what).toQuiet
    rcases copyParents_cases copied with rfl | ⟨_, _, set⟩
    · exact routes
    · exact oneMode_setParents routes set

/-- A mesh after a mother's config was copied onto other nodes: no links are new, the clusters are
as before, and modes have changed as a function says. -/
structure Tuned (m : Mesh) (modes : String → Option Bool) (m' : Mesh) : Prop where
  edges : m'.edges ⊆ m.edges
  roll : m'.roll = m.roll
  mode : m'.mode = modes

theorem Tuned.trans {m₁ m₂ : Mesh} {modes modes' : String → Option Bool} (first : Tuned m modes m₁)
    (second : Tuned m₁ modes' m₂) : Tuned m modes' m₂ :=
  ⟨fun _ listed => first.edges (second.edges listed), second.roll.trans first.roll, second.mode⟩

theorem tuned_copyPort : Tuned m m.mode (copyPort src dst what m) := by
  refine copyPort_keeps (Tuned m m.mode) ⟨?_, roll_setListenPort .., mode_setListenPort ..⟩
    ⟨List.Subset.refl _, rfl, rfl⟩
  rw [edges_setListenPort]
  exact (release_subset m.edges dst.id _).subset

theorem side_copy_of_ne {x : String}
    (other : x ≠ dstID) (done : copyClusterConfig m srcID dstID what = .ok m') :
    m'.side x = m.side x := by
  rcases copyClusterConfig_ok done with
    ⟨rfl, _⟩ | ⟨src, dst, between, after, _, foundDst, routed, copied, rfl⟩
  · rfl
  · have sides : after.side = between.side := by
      rcases copyParents_cases copied with rfl | ⟨_, _, set⟩
      · rfl
      · exact (setParents_ok set).1.1
    rw [← findNode_id foundDst] at other
    rw [(copyForwards_tame after src dst what).side, sides, (copyRoutes_ok routed).side,
      side_copyTransport]
    exact copyPort_keeps (·.side x = m.side x) (by rw [side_setListenPort, if_neg other]) rfl

/-- **Copying from a mother.** The copy takes over the mode, and no links are new. -/
theorem tuned_copy
    {mode : Bool} (mother : m.side srcID = some true) (own : m.mode srcID = some mode)
    (done : copyClusterConfig m srcID dstID what = .ok m') :
    Tuned m (fun x => if what.transport = true ∧ x = dstID then
      (m.mode x).map fun _ => mode else m.mode x) m' := by
  rcases copyClusterConfig_ok done with
    ⟨rfl, missing⟩ | ⟨src, dst, between, after, foundSrc, foundDst, routed, copied, rfl⟩
  · have unknown : m'.findNode dstID = none := by
      rcases missing with none | none
      · rw [Mesh.side, none] at mother
        cases mother
      · exact none
    refine ⟨List.Subset.refl _, rfl, ?_⟩
    funext x
    split
    · next target => rw [target.2, Mesh.mode, unknown]; rfl
    · rfl
  · rw [Mesh.side, foundSrc, Option.map_some, Option.some.injEq] at mother
    rw [Mesh.mode, foundSrc, Option.map_some, Option.some.injEq] at own
    obtain ⟨quiet, roll⟩ := copyRoutes_ok routed
    have kept : after = between := by
      rcases copyParents_cases copied with same | ⟨card, _⟩
      · exact same
      · rw [mother] at card
        cases card
    subst kept
    obtain ⟨quiet', roll'⟩ := copyForwards_tame after src dst what
    refine ⟨?_, ?_, ?_⟩
    · rw [quiet'.edges, quiet.edges, edges_copyTransport]
      exact tuned_copyPort.edges
    · rw [roll', roll, roll_copyTransport, tuned_copyPort.roll]
    · funext x
      rw [quiet'.mode, quiet.mode, mode_copyTransport, tuned_copyPort.mode,
        findNode_id foundDst, own]

/-! ## Members -/

/-- What every copy onto another member keeps, the copies onto all of them keep. -/
theorem syncMembers_keeps (keep : Mesh → Prop)
    (each : ∀ m m' id, id ≠ srcID → copyClusterConfig m srcID id what = .ok m' → keep m → keep m')
    (start : keep m) (done : syncMembers srcID what ids m = .ok m') : keep m' := by
  induction ids generalizing m with
  | nil =>
    cases done
    exact start
  | cons id ids ih =>
    rw [syncMembers] at done
    split at done
    · exact ih start done
    · next different =>
      split at done
      · cases done
      · next copied => exact ih (each _ _ id different copied start) done

theorem wellAttached_syncMembers (attached : WellAttached m)
    (done : syncMembers srcID what ids m = .ok m') : WellAttached m' :=
  syncMembers_keeps WellAttached (fun _ _ _ _ copied kept => wellAttached_copy kept copied)
    attached done

theorem oneMode_syncMembers (attached : WellAttached m) (uniform : OneMode m)
    (unset : what.transport = false) (done : syncMembers srcID what ids m = .ok m') :
    OneMode m' := by
  apply (syncMembers_keeps (fun m => WellAttached m ∧ OneMode m) _ ⟨attached, uniform⟩ done).2
  intro m m' id _ copied kept
  exact ⟨wellAttached_copy kept.1 copied, oneMode_copy kept.1 kept.2 (.inl unset) copied⟩

theorem side_syncMembers (done : syncMembers srcID what ids m = .ok m') :
    m'.side srcID = m.side srcID :=
  syncMembers_keeps (·.side srcID = m.side srcID)
    (fun _ _ _ different copied kept => (side_copy_of_ne different.symm copied).trans kept) rfl done

theorem tuned_syncMembers {mode : Bool}
    (mother : m.side srcID = some true) (own : m.mode srcID = some mode)
    (done : syncMembers srcID what ids m = .ok m') :
    Tuned m (fun x => if what.transport = true ∧ x ∈ ids then
      (m.mode x).map fun _ => mode else m.mode x) m' := by
  induction ids generalizing m with
  | nil =>
    cases done
    refine ⟨List.Subset.refl _, rfl, ?_⟩
    funext x
    simp
  | cons id ids ih =>
    rw [syncMembers] at done
    split at done
    · next source =>
      -- The source has the mode already.
      have tuned := ih mother own done
      refine ⟨tuned.edges, tuned.roll, ?_⟩
      rw [tuned.mode]
      funext x
      by_cases same : x = id
      · rw [same, source, own]
        simp
      · simp [same]
    · next different =>
      split at done
      · cases done
      · next copied =>
        have tuned₁ := tuned_copy mother own copied
        have own₁ := congrFun tuned₁.mode srcID
        rw [if_neg fun both => different both.2.symm, own] at own₁
        have mother₁ := (side_copy_of_ne (Ne.symm different) copied).trans mother
        have all := tuned₁.trans (ih mother₁ own₁ done)
        refine ⟨all.edges, all.roll, ?_⟩
        rw [all.mode, tuned₁.mode]
        funext x
        by_cases same : x = id
        · subst same
          by_cases copies : what.transport = true
          · by_cases later : x ∈ ids
            · simp [copies, later, Function.comp_def]
            · simp [copies, later]
          · simp [copies]
        · simp [same]

theorem syncCluster_cases (done : syncCluster m srcID what = .ok m') :
    ∃ ids, syncMembers srcID what ids m = .ok m' ∧ ∀ src, m.findNode srcID = some src →
        ids = if src.cluster = "" then [] else m.clusterMembers src.cluster := by
  rw [syncCluster] at done
  split at done
  · next missing =>
    refine ⟨[], done, ?_⟩
    intro src found
    rw [missing] at found
    cases found
  · next src found =>
    split at done
    · next single =>
      refine ⟨[], done, ?_⟩
      rintro src' found'
      rw [found, Option.some.injEq] at found'
      rw [← found', if_pos single]
    · next clustered =>
      refine ⟨_, done, ?_⟩
      rintro src' found'
      rw [found, Option.some.injEq] at found'
      rw [← found', if_neg clustered]

/-! ## Joining -/

theorem joinCluster_cases {id peerID newClusterID : String}
    (done : joinCluster m id peerID newClusterID = .ok m') :
    ∃ n peer, m.findNode id = some n ∧ m.findNode peerID = some peer ∧ id ≠ peerID ∧
      n.isMagnetParent = peer.isMagnetParent ∧
      (peer.cluster ≠ "" ∧ peer.cluster = n.cluster ∧ m' = m ∨
        ¬ (peer.cluster ≠ "" ∧ peer.cluster = n.cluster) ∧
          ∃ between, Quiet m between ∧ copyClusterConfig between peerID id syncAll = .ok m') := by
  rw [joinCluster] at done
  split at done
  · next n peer found foundPeer =>
    split at done
    · cases done
    · next different =>
      split at done
      · cases done
      · next kinds =>
        refine ⟨n, peer, found, foundPeer, different, not_not.mp kinds, ?_⟩
        split at done
        · next same =>
          cases done
          exact .inl ⟨same.1, same.2, rfl⟩
        · next other =>
          refine .inr ⟨other, ?_⟩
          dsimp only at done
          generalize (if peer.cluster = "" then newClusterID else peer.cluster) = c at done
          split at done
          · cases done
          · refine ⟨_, ?_, done⟩
            exact (quiet_cluster m peerID c).trans (quiet_cluster _ id c)
  · cases done

end

end Store
