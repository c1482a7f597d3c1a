import WireguardMesh.Foundation.Runs
import WireguardMesh.Store.Links
import WireguardMesh.Store.Loading
import WireguardMesh.Store.Revision

/-! # The attachment invariant

Links go from cards to mothers, each once and at most eight from one card, after any calls of
the store that edit nodes (`wellAttached_run`). `setParents` also refuses mothers of different
modes; but a patch that changes the mode of a mother does not look at the cards attached to it.
The mothers of a card keep one mode as long as every patch gives one mode to all mothers of each
card (`PatchAgrees`).
-/

namespace Store

open Attachments Core Effect GoText

variable {α : Type} {now : Time} {n o : Node} {settings : Settings} {p : NodePatch}
  {id newClusterID x : String} {m m' : Mesh} {s : State}

/-! ## The stages of a patch -/

theorem patchField_cases {field : Option α} {edit : α → Mesh → Except StoreError Mesh}
    (done : patchField field edit m = .ok m') :
    field = none ∧ m' = m ∨ ∃ value, field = some value ∧ edit value m = .ok m' := by
  cases field with
  | none =>
    cases done
    exact .inl ⟨rfl, rfl⟩
  | some value => exact .inr ⟨value, rfl, done⟩

theorem tame_patchField {field : Option α} {edit : α → Mesh → Except StoreError Mesh}
    (each : ∀ value m', edit value m = .ok m' → Tame m m') (done : patchField field edit m = .ok m') :
    Tame m m' := by
  rcases patchField_cases done with ⟨_, rfl⟩ | ⟨value, _, edited⟩
  · exact .refl m'
  · exact each value m' edited

theorem patchName_tame {name : String} (done : patchName name m = .ok m') : Tame m m' := by
  rw [patchName] at done
  split at done
  · cases done
  · cases done
    exact .refl m

theorem patchAddress_tame {setsRoutes : Bool} {text : String}
    (done : patchAddress id now setsRoutes n text m = .ok m') : Tame m m' := by
  rw [patchAddress] at done
  split at done
  · cases done
  · split at done
    · cases done
      exact .refl m
    · dsimp only at done
      split at done
      · cases done
      · cases done
        exact tame_modify m id fun _ => ⟨⟨rfl, rfl⟩, rfl, rfl⟩

theorem patchEnabled_tame {enabled : Bool} (done : patchEnabled id enabled m = .ok m') :
    Tame m m' := by
  cases done
  exact tame_modify m id fun _ => ⟨⟨rfl, rfl⟩, rfl, rfl⟩

theorem patchRoutes_tame {routes : List String} (done : patchRoutes id routes m = .ok m') :
    Tame m m' := by
  obtain ⟨_, _, rfl⟩ := except_map_eq_ok.mp done
  exact tame_modify m id fun _ => ⟨⟨rfl, rfl⟩, rfl, rfl⟩

theorem patchEndpoint_tame {endpoint : String} (done : patchEndpoint id endpoint m = .ok m') :
    Tame m m' := by
  obtain ⟨_, _, rfl⟩ := except_map_eq_ok.mp done
  exact tame_modify m id fun _ => ⟨⟨rfl, rfl⟩, rfl, rfl⟩

/-- What a new listen port does besides `setListenPort`: a card has no UDP mode. -/
theorem patchListenPort_ok {port : UInt16} (done : patchListenPort id settings n port m = .ok m') :
    m'.side = (setListenPort m id port).side ∧ m'.edges = (setListenPort m id port).edges ∧
      m'.roll = m.roll ∧ ∀ x, m'.mode x =
        if x = id ∧ ¬ 0 < port then (m.mode x).map fun _ => false else m.mode x := by
  cases done
  refine ⟨?_, rfl, ?_, ?_⟩
  · apply side_eq_modify
    · intro n own
      simpa only [apply_ite Node.id, ite_self] using own
    · intro n _
      split
      · split <;> rfl
      · rfl
  · rw [roll_modify, roll_setListenPort]
    intro n
    split
    · split <;> exact ⟨rfl, rfl⟩
    · exact ⟨rfl, rfl⟩
  · intro x
    rw [mode_modify _ id x (g := fun old => if 0 < port then old else false), mode_setListenPort]
    · by_cases own : x = id
      · by_cases mother : 0 < port
        · simp [own, mother]
        · simp [own, mother]
      · simp [own]
    · intro n own
      simpa only [apply_ite Node.id, ite_self] using own
    · intro new found
      have side := side_setListenPort m id id port
      rw [if_pos rfl, Mesh.side, found, Option.map_some] at side
      have kind : new.isMagnetParent = decide (0 < port) := by
        cases known : m.side id with
        | none =>
          rw [known] at side
          cases side
        | some b =>
          rw [known] at side
          exact Option.some.inj side
      by_cases mother : 0 < port
      · rw [if_pos (kind.trans (decide_eq_true mother)), if_pos mother]
        split <;> rfl
      · have card : ¬ new.isMagnetParent = true := by
          rw [kind, decide_eq_false mother]
          exact Bool.false_ne_true
        rw [if_neg card, if_neg mother]

theorem side_of_any (mother : ¬ (m.findNode id).any Node.isMagnetParent = false) :
    m.side id = some true := by
  rw [Mesh.side]
  cases found : m.findNode id with
  | none =>
    rw [found] at mother
    exact absurd rfl mother
  | some n =>
    rw [found] at mother
    exact congrArg some (eq_true_of_ne_false mother)

/-- A change of the mode of a mother. -/
structure Retuned (id : String) (change : Bool → Bool) (m m' : Mesh) : Prop where
  mother : m.side id = some true
  side : m'.side = m.side
  edges : m'.edges = m.edges
  roll : m'.roll = m.roll
  mode : ∀ x, m'.mode x = if x = id then (m.mode x).map change else m.mode x

theorem retuned_modify (mother : m.side id = some true) {f : Node → Node} {change : Bool → Bool}
    (keeps : ∀ n, ((f n).id = n.id ∧ (f n).cluster = n.cluster) ∧
      (f n).isMagnetParent = n.isMagnetParent ∧ (f n).udpMode = change n.udpMode) :
    Retuned id change m (m.modify id f) where
  mother := mother
  side := side_eq_modify m id (fun n own => (keeps n).1.1.trans own) fun n _ => (keeps n).2.1
  edges := rfl
  roll := roll_modify m id fun n => (keeps n).1
  mode x := mode_modify m id x (fun n own => (keeps n).1.1.trans own) fun n _ => (keeps n).2.2

theorem patchUdpMode_ok {mode : Bool} (done : patchUdpMode id mode m = .ok m') :
    Retuned id (fun _ => mode) m m' := by
  rw [patchUdpMode] at done
  split at done
  · cases done
  · next mother =>
    cases done
    exact retuned_modify (side_of_any mother) fun _ => ⟨⟨rfl, rfl⟩, rfl, rfl⟩

theorem patchTransport_ok {setsMode : Bool} {transport : String}
    (done : patchTransport id setsMode transport m = .ok m') :
    Retuned id (fun old => old && setsMode) m m' := by
  rw [patchTransport] at done
  split at done
  · cases done
  · next mother =>
    obtain ⟨_, _, rfl⟩ := except_map_eq_ok.mp done
    exact retuned_modify (side_of_any mother) fun _ => ⟨⟨rfl, rfl⟩, rfl, rfl⟩

/-- The mode of a node that a patch gives it with the mode or the transport. -/
def NodePatch.mode (p : NodePatch) : Bool :=
  p.udpMode.getD false

/-- **Setting the mode.** A patch with a mode or a transport is for a mother, and sets the
named mode, or TCP. -/
theorem retune_ok {between : Mesh} (first : patchField p.udpMode (patchUdpMode id) m = .ok between)
    (second : patchField p.transport (patchTransport id p.udpMode.isSome) between = .ok m') :
    p.sync.transport = false ∧ m' = m ∨
      p.sync.transport = true ∧ Retuned id (fun _ => p.mode) m m' := by
  rcases patchField_cases first with ⟨noMode, rfl⟩ | ⟨mode, given, set⟩
  · rcases patchField_cases second with ⟨noTransport, rfl⟩ | ⟨transport, given, set⟩
    · left
      simp [NodePatch.sync, noMode, noTransport]
    · right
      have tuned := patchTransport_ok set
      refine ⟨by simp [NodePatch.sync, given], tuned.mother, tuned.side, tuned.edges, tuned.roll, ?_⟩
      intro x
      rw [tuned.mode, NodePatch.mode, noMode]
      simp
  · right
    have tuned := patchUdpMode_ok set
    refine ⟨by simp [NodePatch.sync, given], ?_⟩
    rcases patchField_cases second with ⟨_, rfl⟩ | ⟨transport, _, set'⟩
    · rw [NodePatch.mode, given]
      exact tuned
    · have again := patchTransport_ok set'
      refine ⟨tuned.mother, again.side.trans tuned.side, again.edges.trans tuned.edges,
        again.roll.trans tuned.roll, ?_⟩
      intro x
      rw [again.mode, tuned.mode, NodePatch.mode, given]
      by_cases own : x = id
      · simp [own, Function.comp_def]
      · simp [own]

theorem parents_ok {between : Mesh}
    (first : patchField p.parentID (patchParentID id) m = .ok between)
    (second : patchField p.parentIDs (patchParentIDs id) between = .ok m') :
    (between = m ∨ ∃ ids, setParents m id ids = .ok between) ∧
      (m' = between ∨ ∃ ids, setParents between id ids = .ok m') := by
  constructor
  · rcases patchField_cases first with ⟨_, rfl⟩ | ⟨parent, _, set⟩
    · exact .inl rfl
    · rw [patchParentID, attachTo] at set
      split at set
      · exact .inr ⟨_, set⟩
      · exact .inr ⟨_, set⟩
  · rcases patchField_cases second with ⟨_, rfl⟩ | ⟨parents, _, set⟩
    · exact .inl rfl
    · exact .inr ⟨_, set⟩

theorem patchClusterWith_ok
    (done : patchField p.clusterWith (patchClusterWith id newClusterID) m = .ok m') :
    Quiet m m' ∧ (p.clusterWith.all fun text => trimSpace text.toList = []) = true ∨
      ∃ text, p.clusterWith = some text ∧ trimSpace text.toList ≠ [] ∧
        joinCluster m id (String.ofList (trimSpace text.toList)) newClusterID = .ok m' := by
  rcases patchField_cases done with ⟨none, rfl⟩ | ⟨text, given, set⟩
  · rw [none]
    exact .inl ⟨.refl m', rfl⟩
  · rw [patchClusterWith] at set
    split at set
    · next blank =>
      cases set
      rw [given]
      refine .inl ⟨?_, decide_eq_true (String.ofList_eq_empty_iff.mp blank)⟩
      exact quiet_cluster m id ""
    · next named =>
      refine .inr ⟨text, given, ?_, set⟩
      intro blank
      exact named (String.ofList_eq_empty_iff.mpr blank)

theorem quiet_pruneClusters (m : Mesh) : Quiet m (pruneClusters m) :=
  quiet_of_kinds (map_pruneClusters _ m fun _ => rfl) rfl

/-- The stages of a patch, in the order of the source. -/
structure Stages (id : String) (p : NodePatch) (settings : Settings) (newClusterID : String)
    (n : Node) (m m₅ m₆ m₇ m₈ m₉ m₁₀ m₁₁ m₁₂ : Mesh) : Prop where
  found : m.findNode id = some n
  early : Tame m m₅
  port : patchField p.listenPort (patchListenPort id settings n) m₅ = .ok m₆
  udpMode : patchField p.udpMode (patchUdpMode id) m₆ = .ok m₇
  transport : patchField p.transport (patchTransport id p.udpMode.isSome) m₇ = .ok m₈
  parentID : patchField p.parentID (patchParentID id) m₈ = .ok m₉
  parentIDs : patchField p.parentIDs (patchParentIDs id) m₉ = .ok m₁₀
  sync : (if p.sync = ⟨false, false, false, false, false⟩ then .ok m₁₀
    else syncCluster m₁₀ id p.sync) = .ok m₁₁
  clusterWith : patchField p.clusterWith (patchClusterWith id newClusterID) m₁₁ = .ok m₁₂

theorem patchMesh_stages {out : Node}
    (done : patchMesh id p now newClusterID settings m = .ok (m', out)) :
    ∃ n m₅ m₆ m₇ m₈ m₉ m₁₀ m₁₁ m₁₂,
      Stages id p settings newClusterID n m m₅ m₆ m₇ m₈ m₉ m₁₀ m₁₁ m₁₂ ∧
        m' = pruneClusters m₁₂ := by
  rw [patchMesh] at done
  split at done
  · cases done
  · next n found =>
    obtain ⟨m₁, name, done⟩ := except_bind_eq_ok.mp done
    obtain ⟨m₂, address, done⟩ := except_bind_eq_ok.mp done
    obtain ⟨m₃, enabled, done⟩ := except_bind_eq_ok.mp done
    obtain ⟨m₄, routes, done⟩ := except_bind_eq_ok.mp done
    obtain ⟨m₅, endpoint, done⟩ := except_bind_eq_ok.mp done
    obtain ⟨m₆, port, done⟩ := except_bind_eq_ok.mp done
    obtain ⟨m₇, udpMode, done⟩ := except_bind_eq_ok.mp done
    obtain ⟨m₈, transport, done⟩ := except_bind_eq_ok.mp done
    obtain ⟨m₉, parentID, done⟩ := except_bind_eq_ok.mp done
    obtain ⟨m₁₀, parentIDs, done⟩ := except_bind_eq_ok.mp done
    obtain ⟨m₁₁, sync, done⟩ := except_ite_bind done
    obtain ⟨m₁₂, clusterWith, done⟩ := except_bind_eq_ok.mp done
    have early : Tame m m₅ :=
      (tame_patchField (fun _ _ => patchName_tame) name).trans <|
      (tame_patchField (fun _ _ => patchAddress_tame) address).trans <|
      (tame_patchField (fun _ _ => patchEnabled_tame) enabled).trans <|
      (tame_patchField (fun _ _ => patchRoutes_tame) routes).trans <|
      tame_patchField (fun _ _ => patchEndpoint_tame) endpoint
    dsimp only at done
    split at done
    · cases done
    · cases done
      exact ⟨n, m₅, m₆, m₇, m₈, m₉, m₁₀, m₁₁, m₁₂,
        ⟨found, early, port, udpMode, transport, parentID, parentIDs, sync, clusterWith⟩, rfl⟩

/-! ## A patch keeps the attachments in order -/

def NodePatch.leavesMother (p : NodePatch) (n : Node) : Bool :=
  match p.listenPort with
  | none => n.isMagnetParent
  | some port => 0 < port

section

variable (done : patchField p.listenPort (patchListenPort id settings n) m = .ok m')

include done

theorem wellAttached_port (attached : WellAttached m) : WellAttached m' := by
  rcases patchField_cases done with ⟨_, rfl⟩ | ⟨port, _, set⟩
  · exact attached
  · obtain ⟨side, edges, _, _⟩ := patchListenPort_ok set
    rw [WellAttached, side, edges]
    exact wellAttached_setListenPort attached id port

theorem side_port (known : m.side id = some n.isMagnetParent) :
    m'.side id = some (p.leavesMother n) := by
  rcases patchField_cases done with ⟨none, rfl⟩ | ⟨port, given, set⟩
  · rw [known, NodePatch.leavesMother, none]
  · rw [(patchListenPort_ok set).1, side_setListenPort, if_pos rfl, known, NodePatch.leavesMother,
      given]
    rfl

theorem oneMode_port (attached : WellAttached m) (uniform : OneMode m) : OneMode m' := by
  have attached' := wellAttached_port done attached
  rcases patchField_cases done with ⟨_, rfl⟩ | ⟨port, _, set⟩
  · exact uniform
  · obtain ⟨side, edges, _, mode⟩ := patchListenPort_ok set
    have ported : Uniform m.mode m'.edges := by
      have kept := oneMode_setListenPort uniform id port
      rw [OneMode, mode_setListenPort] at kept
      rwa [edges]
    apply ported.congr
    intro e listed
    rw [mode]
    apply if_neg
    rintro ⟨target, card⟩
    have mother := attached'.hub e listed
    rw [target, side, side_setListenPort, if_pos rfl, decide_eq_false card] at mother
    cases known : m.side id <;> (rw [known] at mother; cases mother)

end

theorem wellAttached_joinCluster {peerID : String} (attached : WellAttached m)
    (done : joinCluster m id peerID newClusterID = .ok m') : WellAttached m' := by
  obtain ⟨_, _, _, _, _, _, ⟨_, _, rfl⟩ | ⟨_, between, quiet, copied⟩⟩ := joinCluster_cases done
  · exact attached
  · exact wellAttached_copy (wellAttached_of_quiet quiet attached) copied

theorem oneMode_joinCluster {peerID : String} (attached : WellAttached m) (uniform : OneMode m)
    (card : m.side id = some false) (done : joinCluster m id peerID newClusterID = .ok m') :
    OneMode m' := by
  obtain ⟨n, peer, found, foundPeer, _, kinds, ⟨_, _, rfl⟩ | ⟨_, between, quiet, copied⟩⟩ :=
    joinCluster_cases done
  · exact uniform
  · refine oneMode_copy (wellAttached_of_quiet quiet attached) (oneMode_of_quiet quiet uniform)
      (.inr ⟨?_, ?_⟩) copied
    · rw [Mesh.side, found, Option.map_some, Option.some.injEq] at card
      rw [quiet.side, Mesh.side, foundPeer, Option.map_some, ← kinds, card]
    · rw [quiet.side, card]

/-- The modes after the members of the node's cluster took over the one that a patch sets. -/
def NodePatch.synced (p : NodePatch) (m : Mesh) (id : String) (n : Node) (x : String) :
    Option Bool :=
  if p.sync.transport = true ∧ (x = id ∨ n.cluster ≠ "" ∧ x ∈ m.clusterMembers n.cluster) then
    (m.mode x).map fun _ => p.mode
  else m.mode x

/-- The peer whose cluster a patch makes a node join, unless it is in that cluster already. -/
def NodePatch.peer (p : NodePatch) (m : Mesh) (n : Node) : Option String :=
  p.clusterWith.bind fun text =>
    let peerID := String.ofList (trimSpace text.toList)
    (m.findNode peerID).bind fun peer =>
      if peerID = "" ∨ peer.cluster ≠ "" ∧ peer.cluster = n.cluster then none else some peerID

/-- The modes after a patch that leaves the node a mother. -/
def NodePatch.modes (p : NodePatch) (m : Mesh) (id : String) (n : Node) (x : String) :
    Option Bool :=
  if x = id then p.synced m id n ((p.peer m n).getD id) else p.synced m id n x

section

variable {m₅ m₆ m₇ m₈ m₉ m₁₀ m₁₁ m₁₂ : Mesh}
  (stages : Stages id p settings newClusterID n m m₅ m₆ m₇ m₈ m₉ m₁₀ m₁₁ m₁₂)

include stages

theorem Stages.side_port : m₆.side id = some (p.leavesMother n) := by
  apply Store.side_port stages.port
  rw [stages.early.side, Mesh.side, stages.found, Option.map_some]

theorem Stages.parents (keep : Mesh → Prop)
    (each : ∀ m m' ids, setParents m id ids = .ok m' → keep m → keep m') (start : keep m₈) :
    keep m₁₀ := by
  obtain ⟨first, second⟩ := parents_ok stages.parentID stages.parentIDs
  have between : keep m₉ := by
    rcases first with rfl | ⟨ids, set⟩
    · exact start
    · exact each _ _ ids set start
  rcases second with rfl | ⟨ids, set⟩
  · exact between
  · exact each _ _ ids set between

theorem Stages.members : ∃ ids, syncMembers id p.sync ids m₁₀ = .ok m₁₁ ∧
    (p.sync.transport = true → ∀ src, m₁₀.findNode id = some src →
      ids = if src.cluster = "" then [] else m₁₀.clusterMembers src.cluster) := by
  have sync := stages.sync
  split at sync
  · next nothing =>
    refine ⟨[], sync, ?_⟩
    rw [nothing]
    nofun
  · obtain ⟨ids, done, all⟩ := syncCluster_cases sync
    exact ⟨ids, done, fun _ => all⟩

theorem Stages.wellAttached₁₀ (attached : WellAttached m) : WellAttached m₁₀ := by
  have ported := wellAttached_port stages.port (wellAttached_of_quiet stages.early.toQuiet attached)
  apply stages.parents WellAttached fun _ _ _ set attached => wellAttached_setParents attached set
  rcases retune_ok stages.udpMode stages.transport with ⟨_, rfl⟩ | ⟨_, tuned⟩
  · exact ported
  · rw [WellAttached, tuned.side, tuned.edges]
    exact ported

theorem Stages.wellAttached (attached : WellAttached m) : WellAttached m₁₂ := by
  obtain ⟨ids, synced, _⟩ := stages.members
  have members := wellAttached_syncMembers (stages.wellAttached₁₀ attached) synced
  rcases patchClusterWith_ok stages.clusterWith with ⟨quiet, _⟩ | ⟨_, _, _, joined⟩
  · exact wellAttached_of_quiet quiet members
  · exact wellAttached_joinCluster members joined

/-- **A patch of a card.** No mode of a mother changes, and `setParents` checks every new
link. -/
theorem Stages.oneMode_card (attached : WellAttached m) (uniform : OneMode m)
    (card : p.leavesMother n = false) : OneMode m₁₂ := by
  have side := stages.side_port
  rw [card] at side
  have ported := oneMode_port stages.port (wellAttached_of_quiet stages.early.toQuiet attached)
    (oneMode_of_quiet stages.early.toQuiet uniform)
  obtain ⟨same, rfl⟩ : p.sync.transport = false ∧ m₈ = m₆ := by
    rcases retune_ok stages.udpMode stages.transport with kept | ⟨_, tuned⟩
    · exact kept
    · rw [tuned.mother] at side
      cases side
  obtain ⟨side₁₀, parents⟩ : m₁₀.side id = some false ∧ OneMode m₁₀ := by
    apply stages.parents (fun m => m.side id = some false ∧ OneMode m) _ ⟨side, ported⟩
    intro m m' ids set kept
    rw [(setParents_ok set).1.1]
    exact ⟨kept.1, oneMode_setParents kept.2 set⟩
  obtain ⟨ids, synced, _⟩ := stages.members
  have members := oneMode_syncMembers (stages.wellAttached₁₀ attached) parents same synced
  rcases patchClusterWith_ok stages.clusterWith with ⟨quiet, _⟩ | ⟨_, _, _, joined⟩
  · exact oneMode_of_quiet quiet members
  · refine oneMode_joinCluster (wellAttached_syncMembers (stages.wellAttached₁₀ attached) synced)
      members ?_ joined
    rw [side_syncMembers synced, side₁₀]

/-! ## The modes a patch sets -/

variable (mother : p.leavesMother n = true)

include mother

/-- A mother that stays or becomes one: its links can only get fewer, and its mode is set. -/
theorem Stages.tuned₁₀ : m₁₀.side id = some true ∧ Tuned m (fun x =>
    if p.sync.transport = true ∧ x = id then (m.mode x).map fun _ => p.mode else m.mode x) m₁₀ := by
  have side := stages.side_port
  rw [mother] at side
  have ported : Tuned m m.mode m₆ := by
    have early := stages.early
    rcases patchField_cases stages.port with ⟨_, rfl⟩ | ⟨port, given, set⟩
    · exact ⟨fun _ listed => early.edges ▸ listed, early.roll, early.mode⟩
    · obtain ⟨_, edges, roll, mode⟩ := patchListenPort_ok set
      have up : 0 < port := by
        rw [NodePatch.leavesMother, given] at mother
        exact of_decide_eq_true mother
      refine ⟨?_, roll.trans early.roll, ?_⟩
      · rw [edges, edges_setListenPort, ← early.edges]
        exact (release_subset _ id _).subset
      · funext x
        rw [mode, if_neg fun both => both.2 up, early.mode]
  have tuned : m₈.side id = some true ∧ Tuned m (fun x =>
      if p.sync.transport = true ∧ x = id then (m.mode x).map fun _ => p.mode else m.mode x) m₈ := by
    rcases retune_ok stages.udpMode stages.transport with ⟨kept, rfl⟩ | ⟨set, tuned⟩
    · refine ⟨side, ported.edges, ported.roll, ?_⟩
      rw [ported.mode, kept]
      funext x
      simp
    · refine ⟨tuned.side ▸ side, fun _ listed => ported.edges (tuned.edges ▸ listed),
        tuned.roll.trans ported.roll, ?_⟩
      funext x
      rw [tuned.mode, ported.mode, set]
      simp
  apply stages.parents (fun m' => m'.side id = some true ∧ Tuned m _ m') _ tuned
  intro m₁ m₂ ids set kept
  obtain ⟨⟨side, mode, roll⟩, _⟩ := setParents_ok set
  exact ⟨side ▸ kept.1, fun _ listed => kept.2.edges (edges_setParents_mother kept.1 set listed),
    roll.trans kept.2.roll, mode.trans kept.2.mode⟩

theorem Stages.tuned₁₁ : m₁₁.side id = some true ∧ Tuned m (p.synced m id n) m₁₁ := by
  obtain ⟨side, tuned⟩ := stages.tuned₁₀ mother
  obtain ⟨ids, synced, all⟩ := stages.members
  have known : m.mode id = some n.udpMode := by
    rw [Mesh.mode, stages.found, Option.map_some]
  have ownMode : m₁₀.mode id = if p.sync.transport = true ∧ id = id then
      (m.mode id).map fun _ => p.mode else m.mode id := congrFun tuned.mode id
  obtain ⟨own, isOwn⟩ : ∃ own, m₁₀.mode id = some own := by
    rw [ownMode, known]
    split
    · exact ⟨_, rfl⟩
    · exact ⟨_, rfl⟩
  have all_tuned := tuned.trans (tuned_syncMembers side isOwn synced)
  refine ⟨(side_syncMembers synced).trans side, all_tuned.edges, all_tuned.roll, ?_⟩
  rw [all_tuned.mode, tuned.mode]
  funext x
  rw [NodePatch.synced]
  by_cases sets : p.sync.transport = true
  · have mode : own = p.mode := by
      rw [ownMode, if_pos ⟨sets, rfl⟩, known] at isOwn
      exact (Option.some.inj isOwn).symm
    obtain ⟨src, found⟩ : ∃ src, m₁₀.findNode id = some src := by
      obtain ⟨src, found, _⟩ := Option.map_eq_some_iff.mp side
      exact ⟨src, found⟩
    have cluster : src.cluster = n.cluster := by
      have same := cluster_congr tuned.roll id
      rw [found, stages.found, Option.map_some, Option.map_some, Option.some.injEq] at same
      exact same
    have members : x ∈ ids ↔ n.cluster ≠ "" ∧ x ∈ m.clusterMembers n.cluster := by
      rw [all sets src found, cluster, clusterMembers_congr tuned.roll]
      by_cases single : n.cluster = ""
      · simp [single]
      · simp [single]
    simp only [← members, mode, sets, true_and]
    by_cases own_id : x = id
    · rw [own_id]
      by_cases listed : id ∈ ids
      · simp [listed, Function.comp_def]
      · simp [listed]
    · simp [own_id]
  · simp [sets]

theorem Stages.cluster₁₁ (found : m₁₁.findNode x = some o) :
    ∃ o', m.findNode x = some o' ∧ o'.cluster = o.cluster := by
  have same := cluster_congr (stages.tuned₁₁ mother).2.roll x
  rw [found, Option.map_some] at same
  exact Option.map_eq_some_iff.mp same.symm

/-- **A patch of a mother.** No links are new, and the modes are the announced ones. -/
theorem Stages.tuned : m₁₂.edges ⊆ m.edges ∧ m₁₂.mode = p.modes m id n := by
  obtain ⟨side, tuned⟩ := stages.tuned₁₁ mother
  have unjoined (alone : p.peer m n = none) : p.synced m id n = p.modes m id n := by
    funext x
    rw [NodePatch.modes, alone, Option.getD_none]
    split
    · next own => rw [own]
    · rfl
  rcases patchClusterWith_ok stages.clusterWith with ⟨quiet, blank⟩ | ⟨text, given, named, joined⟩
  · have alone : p.peer m n = none := by
      rw [NodePatch.peer]
      cases given : p.clusterWith with
      | none => rfl
      | some text =>
        rw [given] at blank
        have nothing : String.ofList (trimSpace text.toList) = "" :=
          String.ofList_eq_empty_iff.mpr (of_decide_eq_true blank)
        simp only [Option.bind_some, nothing, true_or, if_true]
        exact Option.bind_fun_none _
    rw [quiet.edges, quiet.mode, tuned.mode]
    exact ⟨tuned.edges, unjoined alone⟩
  · obtain ⟨n', peer', found, foundPeer, different, kinds, cases⟩ := joinCluster_cases joined
    obtain ⟨peer, knownPeer, peerCluster⟩ := stages.cluster₁₁ mother foundPeer
    obtain ⟨n₀, known, ownCluster⟩ := stages.cluster₁₁ mother found
    rw [stages.found, Option.some.injEq] at known
    subst known
    have filled : ¬ String.ofList (trimSpace text.toList) = "" :=
      fun empty => named (String.ofList_eq_empty_iff.mp empty)
    have peerOf : p.peer m n = if peer'.cluster ≠ "" ∧ peer'.cluster = n'.cluster then none
        else some (String.ofList (trimSpace text.toList)) := by
      rw [NodePatch.peer, given]
      simp only [Option.bind_some, knownPeer, filled, false_or, peerCluster, ownCluster]
    rcases cases with ⟨clustered, together, rfl⟩ | ⟨apart, between, quiet, copied⟩
    · rw [if_pos ⟨clustered, together⟩] at peerOf
      rw [tuned.mode]
      exact ⟨tuned.edges, unjoined peerOf⟩
    · rw [if_neg apart] at peerOf
      have motherPeer : between.side (String.ofList (trimSpace text.toList)) = some true := by
        rw [Mesh.side, found, Option.map_some, Option.some.injEq] at side
        rw [quiet.side, Mesh.side, foundPeer, Option.map_some, ← kinds, side]
      have modePeer : between.mode (String.ofList (trimSpace text.toList)) =
          some peer'.udpMode := by
        rw [quiet.mode, Mesh.mode, foundPeer, Option.map_some]
      have copy := tuned_copy motherPeer modePeer copied
      refine ⟨fun _ listed => tuned.edges (quiet.edges ▸ copy.edges listed), ?_⟩
      rw [copy.mode, quiet.mode, tuned.mode]
      rw [quiet.mode, tuned.mode] at modePeer
      funext x
      rw [NodePatch.modes, peerOf, Option.getD_some]
      by_cases own : x = id
      · rw [if_pos ⟨rfl, own⟩, if_pos own, modePeer, own, ← tuned.mode, Mesh.mode, found]
        rfl
      · rw [if_neg fun both => own both.2, if_neg own]

end

/-- A patch that gives one mode to the mothers of every card. -/
def PatchAgrees (m : Mesh) (id : String) (p : NodePatch) : Prop :=
  match m.findNode id with
  | none => True
  | some n => p.leavesMother n = true → Uniform (p.modes m id n) m.edges

instance (m : Mesh) (id : String) (p : NodePatch) : Decidable (PatchAgrees m id p) :=
  match found : m.findNode id with
  | none => isTrue (by rw [PatchAgrees, found]; trivial)
  | some n => decidable_of_iff (p.leavesMother n = true → Uniform (p.modes m id n) m.edges)
      (by rw [PatchAgrees, found])

/-! ## What every edit keeps -/

/-- What an edit does to attachments: it keeps them in order, and under a condition the modes of
each card's mothers alike. -/
structure Keeps (m m' : Mesh) (agrees : Prop) : Prop where
  attached : WellAttached m → WellAttached m'
  modes : WellAttached m → OneMode m → agrees → OneMode m'

theorem keeps_of_quiet (quiet : Quiet m m') : Keeps m m' True :=
  ⟨wellAttached_of_quiet quiet, fun _ uniform _ => oneMode_of_quiet quiet uniform⟩

theorem keeps_patchMesh {out : Node}
    (done : patchMesh id p now newClusterID settings m = .ok (m', out)) :
    Keeps m m' (PatchAgrees m id p) := by
  obtain ⟨n, m₅, m₆, m₇, m₈, m₉, m₁₀, m₁₁, m₁₂, stages, rfl⟩ := patchMesh_stages done
  have pruned := quiet_pruneClusters m₁₂
  refine ⟨fun attached => wellAttached_of_quiet pruned (stages.wellAttached attached), ?_⟩
  intro attached uniform agrees
  apply oneMode_of_quiet pruned
  cases kind : p.leavesMother n with
  | false => exact stages.oneMode_card attached uniform kind
  | true =>
    obtain ⟨fewer, modes⟩ := stages.tuned kind
    rw [PatchAgrees, stages.found] at agrees
    rw [OneMode, modes]
    exact (agrees kind).subset fewer

theorem keeps_putForwards {fwds out : List Forward} (done : putForwards id fwds m = .ok (m', out)) :
    Keeps m m' True := by
  rw [putForwards] at done
  split at done
  · cases done
  · split at done
    · cases done
    · next clean _ =>
      obtain ⟨synced, sync, same⟩ := except_map_eq_ok.mp done
      cases same
      obtain ⟨ids, members, _⟩ := syncCluster_cases sync
      have quiet : Quiet m { m with
          forwards := (m.forwards.filter fun f => f.nodeID ≠ id) ++ mergeForwardPairs clean } :=
        ⟨rfl, rfl, rfl⟩
      refine ⟨fun attached => ?_, fun attached uniform _ => ?_⟩
      · exact wellAttached_syncMembers (wellAttached_of_quiet quiet attached) members
      · exact oneMode_syncMembers (wellAttached_of_quiet quiet attached)
          (oneMode_of_quiet quiet uniform) rfl members

theorem quiet_replace {new : Node} (found : m.findNode id = some n) (same : new.id = n.id)
    (side : new.isMagnetParent = n.isMagnetParent) (mode : new.udpMode = n.udpMode) :
    Quiet m (m.modify id fun _ => new) := by
  apply quiet_modify
  · intro _ _
    rw [same, findNode_id found]
  · intro n' found'
    rw [found, Option.some.injEq] at found'
    rw [side, found']
  · intro n' found'
    rw [found, Option.some.injEq] at found'
    rw [mode, found']

theorem subnetSwapGuard_ok (passed : subnetSwapGuard m id = .ok n) : m.findNode id = some n := by
  rw [subnetSwapGuard] at passed
  split at passed
  · cases passed
  · next found =>
    split at passed
    · cases passed
    · split at passed
      · cases passed
      · cases passed
        exact found

theorem moveNode_ok {moved : Node} {addr oldPrefix newPrefix : String}
    (done : moveNode n addr oldPrefix newPrefix now = .ok moved) :
    moved.id = n.id ∧ moved.isMagnetParent = n.isMagnetParent ∧ moved.udpMode = n.udpMode := by
  rw [moveNode] at done
  split at done
  · cases done
  · cases done
    exact ⟨rfl, rfl, rfl⟩

theorem keeps_swapAddresses {aID bID : String} (different : aID ≠ bID)
    (done : swapAddresses aID bID now m = .ok (m', ())) : Keeps m m' True := by
  obtain ⟨a, passedA, done⟩ := except_bind_eq_ok.mp done
  obtain ⟨b, passedB, done⟩ := except_bind_eq_ok.mp done
  split at done
  · obtain ⟨movedA, moveA, done⟩ := except_bind_eq_ok.mp done
    obtain ⟨movedB, moveB, done⟩ := except_bind_eq_ok.mp done
    cases done
    obtain ⟨idA, sideA, modeA⟩ := moveNode_ok moveA
    obtain ⟨idB, sideB, modeB⟩ := moveNode_ok moveB
    have foundA := subnetSwapGuard_ok passedA
    have foundB := subnetSwapGuard_ok passedB
    have first := quiet_replace foundA idA sideA modeA
    have still : (m.modify aID fun _ => movedA).findNode bID = some b := by
      rw [findNode_modify m aID bID fun _ _ => idA.trans (findNode_id foundA),
        if_neg (Ne.symm different), foundB]
    exact keeps_of_quiet (first.trans (quiet_replace still idB sideB modeB))
  · cases done

theorem keeps_reassignSubnet {nodeID targetPrefix : String}
    (done : reassignSubnet nodeID targetPrefix now m = .ok (m', ())) : Keeps m m' True := by
  obtain ⟨n, passed, done⟩ := except_bind_eq_ok.mp done
  split at done
  · cases done
  · split at done
    · cases done
    · obtain ⟨addr, _, done⟩ := except_bind_eq_ok.mp done
      obtain ⟨moved, move, done⟩ := except_bind_eq_ok.mp done
      cases done
      obtain ⟨same, side, mode⟩ := moveNode_ok move
      exact keeps_of_quiet (quiet_replace (subnetSwapGuard_ok passed) same side mode)

/-! ## Enrolling and deleting -/

section

variable (ids : ((m.nodes ++ [n]).map Node.id).Nodup)

/-- A mesh with a new node. -/
def grown (m : Mesh) (n : Node) : Mesh :=
  { m with nodes := m.nodes ++ [n] }

theorem findNode_grown {b : Bool} (known : m.side x = some b) :
    (grown m n).findNode x = m.findNode x := by
  obtain ⟨o, found, _⟩ := Option.map_eq_some_iff.mp known
  rw [Mesh.findNode, grown, List.find?_append]
  change (m.findNode x).or _ = _
  rw [found]
  rfl

include ids

theorem side_of_grown (listed : o ∈ (grown m n).nodes) :
    (grown m n).side o.id = some o.isMagnetParent := by
  rw [Mesh.side, findNode_of_mem ids listed, Option.map_some]

theorem side_new : m.side n.id = none := by
  cases known : m.side n.id with
  | none => rfl
  | some b =>
    obtain ⟨o, found, _⟩ := Option.map_eq_some_iff.mp known
    have old : o.id ∈ m.nodes.map Node.id :=
      List.mem_map_of_mem (List.mem_of_find?_eq_some found)
    rw [List.map_append, List.map_singleton] at ids
    have apart := (List.nodup_append.mp ids).2.2 _ old n.id (List.mem_singleton.mpr rfl)
    exact absurd (findNode_id found) apart

theorem autoAttach_spec (attached : WellAttached m) :
    let new := (autoAttach (grown m n) n).map fun l => (l.fromNodeID, l.toNodeID)
    (∀ e ∈ new, (grown m n).side e.1 = some false) ∧
      (∀ e ∈ new, (grown m n).side e.2 = some true) ∧
      (∀ e ∈ new, ∀ e' ∈ m.edges, e.1 ≠ e'.1) ∧ (new.map Prod.fst).Nodup := by
  have own : n ∈ (grown m n).nodes := List.mem_append_right _ (List.mem_singleton.mpr rfl)
  have ownSide := side_of_grown ids own
  rw [autoAttach]
  split
  · next mother =>
    dsimp only
    rw [List.map_map, List.map_map]
    refine ⟨?_, ?_, ?_, ?_⟩
    · intro e listed
      obtain ⟨peer, kept, rfl⟩ := List.mem_map.mp listed
      obtain ⟨inside, free⟩ := List.mem_filter.mp kept
      have card := (of_decide_eq_true free).2.1
      exact (side_of_grown ids inside).trans (congrArg some card)
    · intro e listed
      obtain ⟨peer, _, rfl⟩ := List.mem_map.mp listed
      exact ownSide.trans (congrArg some mother)
    · intro e listed e' old same
      obtain ⟨peer, kept, rfl⟩ := List.mem_map.mp listed
      have free := (of_decide_eq_true (List.mem_filter.mp kept).2).2.2
      obtain ⟨l, inLinks, rfl⟩ := List.mem_map.mp old
      exact free (List.mem_map.mpr ⟨l, inLinks, same.symm⟩)
    · exact ids.sublist (List.filter_sublist.map Node.id)
  · next card =>
    cases first : (grown m n).nodes.find? fun peer =>
        decide (peer.id ≠ n.id ∧ peer.isMagnetParent = true) with
    | none => simp
    | some peer =>
      have inside := List.mem_of_find?_eq_some first
      have kind := List.find?_some first
      rw [decide_eq_true_eq] at kind
      have side := side_of_grown ids inside
      simp only [Option.map_some, Option.toList_some, List.map_cons, List.map_nil,
        List.mem_singleton, forall_eq, List.nodup_singleton, and_true]
      refine ⟨ownSide.trans (congrArg some (Bool.eq_false_iff.mpr card)),
        side.trans (congrArg some kind.2), ?_⟩
      intro e' old same
      have known := attached.leaf e' old
      rw [← same, side_new ids] at known
      cases known

/-- **Enrolling.** -/
theorem keeps_enroll : Keeps m
    { grown m n with links := m.links ++ autoAttach (grown m n) n } True := by
  have edges : ({ grown m n with links := m.links ++ autoAttach (grown m n) n } : Mesh).edges =
      m.edges ++ (autoAttach (grown m n) n).map fun l => (l.fromNodeID, l.toNodeID) :=
    List.map_append
  constructor
  · intro attached
    obtain ⟨leaf, hub, free, once⟩ := autoAttach_spec ids attached
    have old : Attached (grown m n).side maxMagnetParents m.edges :=
      attached.congr (fun e listed => congrArg _ (findNode_grown (attached.leaf e listed)))
        fun e listed => congrArg _ (findNode_grown (attached.hub e listed))
    rw [WellAttached, edges]
    exact old.add leaf hub free once (by decide)
  · intro attached uniform _
    obtain ⟨_, _, free, once⟩ := autoAttach_spec ids attached
    have old : Uniform (grown m n).mode m.edges :=
      uniform.congr fun e listed => congrArg _ (findNode_grown (attached.hub e listed))
    rw [OneMode, edges]
    exact old.add free once

end

/-- **Deleting.** The links of the node go with it. -/
theorem keeps_delete (nodes : m'.nodes = m.nodes.filter fun n => n.id ≠ id)
    (links : m'.links = m.links.filter fun l => l.fromNodeID ≠ id ∧ l.toNodeID ≠ id) :
    Keeps m m' True := by
  have others {x : String} (other : x ≠ id) : m'.findNode x = m.findNode x := by
    rw [Mesh.findNode, Mesh.findNode, nodes, List.find?_filter]
    congr 1
    funext n
    by_cases same : n.id = x
    · simp [same, other]
    · simp [same]
  have edges : m'.edges = m.edges.filter fun e => e.1 ≠ id ∧ e.2 ≠ id := by
    rw [Mesh.edges, Mesh.edges, links, List.filter_map]
    rfl
  have fewer : m'.edges.Sublist m.edges := edges ▸ List.filter_sublist
  have ends {e : String × String} (listed : e ∈ m'.edges) : e.1 ≠ id ∧ e.2 ≠ id := by
    rw [edges] at listed
    exact of_decide_eq_true (List.mem_filter.mp listed).2
  constructor
  · intro attached
    apply (attached.sublist fewer).congr
    · intro e listed
      rw [Mesh.side, Mesh.side, others (ends listed).1]
    · intro e listed
      rw [Mesh.side, Mesh.side, others (ends listed).2]
  · intro _ uniform _
    apply (uniform.subset fewer.subset).congr
    intro e listed
    rw [Mesh.mode, Mesh.mode, others (ends listed).2]

/-! ## Calls -/

/-- The state a call leaves, whether it succeeds or not. -/
def outcome {α : Type} : EStateM.Result StoreError State α → State
  | .ok _ s => s
  | .error _ s => s

/-- The store after a call. -/
def Op.next (codec : Codec) (s : State) (op : Op) : State :=
  outcome (op.run codec s)

def Op.editsCards : Op → Bool
  | enroll .. | deleteNode .. | patchNode .. | putNodeForwards .. | swapNodeAddresses ..
  | reassignNodeSubnet .. => true
  | _ => false

/-- A call that gives one mode to the mothers of every card: any call but a patch that disagrees
with the mesh it loads. -/
def Op.Agrees (codec : Codec) (s : State) : Op → Prop
  | patchNode id p _ _ =>
    match loadMeshLocked codec s with
    | .ok m _ => PatchAgrees m id p
    | .error _ _ => True
  | _ => True

theorem outcome_discard (x : Operation α) (s : State) : outcome (discard x s) = outcome (x s) := by
  change outcome (EStateM.map _ x s) = _
  rw [EStateM.map]
  cases x s <;> rfl

theorem rewriteMesh_outcome (codec : Codec) (check : Mesh → Except MeshError Unit)
    (edit : Settings → Mesh → Except StoreError (Mesh × α)) (s : State) :
    ∃ s₁, loadMeshLocked codec s = .ok (s₁.mesh codec) s₁ ∧ Loaded s s₁ ∧
      (outcome (rewriteMesh codec check edit s) = s₁ ∨
        ∃ m a, edit s₁.settings (s₁.mesh codec) = .ok (m, a) ∧ (m.nodes.map Node.id).Nodup ∧
          Quiet m (outcome (rewriteMesh codec check edit s)).tables) := by
  obtain ⟨s₁, loaded, load⟩ := exists_load codec s
  refine ⟨s₁, loaded, load, ?_⟩
  rw [rewriteMesh, bind_of_ok _ loaded, bind_of_ok (x := (get : Operation State)) _ rfl]
  cases edited : edit s₁.settings (s₁.mesh codec) with
  | error e => exact .inl rfl
  | ok result =>
    obtain ⟨m, a⟩ := result
    rw [bind_of_ok _ (lift_eq_ok.mpr ⟨rfl, rfl⟩)]
    cases checked : check { m with revision := (s₁.mesh codec).revision + 1 } with
    | error e => exact .inl rfl
    | ok _ =>
      rw [except_mapError_ok, bind_of_ok _ (lift_eq_ok.mpr ⟨rfl, rfl⟩)]
      let m' := pruneClusters { m with revision := (s₁.mesh codec).revision + 1 }
      by_cases unique : (m'.nodes.map Node.id).Nodup ∧ (m'.nodes.map Node.token).Nodup
      · right
        rw [bind_of_ok _ (show replaceMeshLocked _ s₁ = _ from dif_pos unique)]
        refine ⟨m, a, rfl, ?_, quiet_of_kinds (map_pruneClusters _ _ fun _ => rfl) rfl⟩
        exact map_pruneClusters Node.id { m with revision := _ } (fun _ => rfl) ▸ unique.1
      · left
        rw [bind_of_error _ (show replaceMeshLocked _ s₁ = _ from dif_neg unique)]
        rfl

theorem Loaded.quiet {s' : State} (load : Loaded s s') : Quiet s.tables s'.tables :=
  quiet_of_kinds (load.kept _ (fun _ => rfl) (fun _ _ => rfl) fun _ _ => rfl) load.links

theorem Keeps.between {m₁ m₂ m₃ : Mesh} {agrees : Prop} (keeps : Keeps m₁ m₂ agrees)
    (before : Quiet m m₁) (after : Quiet m₂ m₃) : Keeps m m₃ agrees where
  attached attached :=
    wellAttached_of_quiet after (keeps.attached (wellAttached_of_quiet before attached))
  modes attached uniform agree := oneMode_of_quiet after
    (keeps.modes (wellAttached_of_quiet before attached) (oneMode_of_quiet before uniform) agree)

theorem Keeps.trivial (keeps : Keeps m m' True) (agrees : Prop) : Keeps m m' agrees :=
  ⟨keeps.attached, fun attached uniform _ => keeps.modes attached uniform .intro⟩

theorem keeps_rewriteMesh {codec : Codec} {check : Mesh → Except MeshError Unit}
    {edit : Settings → Mesh → Except StoreError (Mesh × α)} {agrees : Prop}
    (each : ∀ s₁ m a, loadMeshLocked codec s = .ok (s₁.mesh codec) s₁ →
      edit s₁.settings (s₁.mesh codec) = .ok (m, a) → (m.nodes.map Node.id).Nodup →
      Keeps (s₁.mesh codec) m agrees) :
    Keeps s.tables (outcome (rewriteMesh codec check edit s)).tables agrees := by
  obtain ⟨s₁, loaded, load, same | ⟨m, a, edited, ids, quiet⟩⟩ :=
    rewriteMesh_outcome codec check edit s
  · rw [same]
    exact (keeps_of_quiet load.quiet).trivial agrees
  · have before : Quiet s.tables (s₁.mesh codec) :=
      ⟨load.quiet.side, load.quiet.mode, load.quiet.edges⟩
    exact (each s₁ m a loaded edited ids).between before quiet

/-- **One call.** -/
theorem keeps_call (codec : Codec) (s : State) {op : Op} (edits : op.editsCards = true) :
    Keeps s.tables (op.next codec s).tables (op.Agrees codec s) := by
  have nothing (agrees : Prop) : Keeps s.tables s.tables agrees :=
    (keeps_of_quiet (.refl _)).trivial agrees
  cases op with
  | enroll role endpoint listenPort fresh =>
    rw [Op.next, Op.run, outcome_discard, Store.enroll]
    generalize (if role = .other "" then Role.client else role) = role
    split
    · exact nothing _
    · apply keeps_rewriteMesh
      intro s₁ m n _ edited ids
      rw [enrollNode] at edited
      split at edited
      · cases edited
      · cases edited
        exact (keeps_enroll ids).trivial _
  | deleteNode id =>
    rw [Op.next, Op.run, deleteNode]
    apply keeps_rewriteMesh
    intro s₁ m a _ edited _
    split at edited
    · cases edited
    · cases edited
      exact (keeps_delete rfl rfl).trivial _
  | patchNode id p now newClusterID =>
    rw [Op.next, Op.run, outcome_discard, patchNode]
    apply keeps_rewriteMesh
    intro s₁ m out loaded edited _
    rw [Op.Agrees, loaded]
    exact keeps_patchMesh edited
  | putNodeForwards id fwds =>
    rw [Op.next, Op.run, outcome_discard, putNodeForwards]
    split
    · exact nothing _
    · apply keeps_rewriteMesh
      intro s₁ m out _ edited _
      exact (keeps_putForwards edited).trivial _
  | swapNodeAddresses aID bID now =>
    rw [Op.next, Op.run, swapNodeAddresses]
    split
    · exact nothing _
    · next different =>
      apply keeps_rewriteMesh
      intro s₁ m out _ edited _
      exact (keeps_swapAddresses different edited).trivial _
  | reassignNodeSubnet nodeID targetPrefix now =>
    rw [Op.next, Op.run, reassignNodeSubnet]
    cases parsed : Net.parsePrefix (trimSpace targetPrefix.toList) with
    | none => exact nothing _
    | some p =>
      apply keeps_rewriteMesh
      intro s₁ m out _ edited _
      exact (keeps_reassignSubnet edited).trivial _
  | _ => cases edits

/-! ## Runs -/

/-- Every stored link goes from a node without a listen port to one with one, no pair is linked
twice, and no card has more than eight mothers. -/
structure LinksInOrder (s : State) : Prop where
  card : ∀ l ∈ s.links, ∃ n ∈ s.nodes, n.id = l.fromNodeID ∧ n.listenPort = 0
  mother : ∀ l ∈ s.links, ∃ n ∈ s.nodes, n.id = l.toNodeID ∧ 0 < n.listenPort
  once : (s.links.map fun l => (l.fromNodeID, l.toNodeID)).Nodup
  few : ∀ id, (s.links.filter fun l => l.fromNodeID = id).length ≤ 8

/-- All mothers of one card have the same mode. -/
def MothersAlike (s : State) : Prop :=
  ∀ l ∈ s.links, ∀ l' ∈ s.links, l.fromNodeID = l'.fromNodeID → ∀ n ∈ s.nodes, ∀ n' ∈ s.nodes,
    n.id = l.toNodeID → n'.id = l'.toNodeID → n.udpMode = n'.udpMode

theorem linksInOrder_of_wellAttached (attached : WellAttached s.tables) : LinksInOrder s := by
  have known {x : String} {b : Bool} (side : s.tables.side x = some b) :
      ∃ n ∈ s.nodes, n.id = x ∧ n.isMagnetParent = b := by
    obtain ⟨n, found, kind⟩ := Option.map_eq_some_iff.mp side
    exact ⟨n, List.mem_of_find?_eq_some found, findNode_id found, kind⟩
  have listed {l : Link} (stored : l ∈ s.links) :
      (l.fromNodeID, l.toNodeID) ∈ s.tables.edges := List.mem_map_of_mem stored
  refine ⟨?_, ?_, attached.once, ?_⟩
  · intro l stored
    obtain ⟨n, inside, named, card⟩ := known (attached.leaf _ (listed stored))
    refine ⟨n, inside, named, ?_⟩
    have down : ¬ 0 < n.listenPort := of_decide_eq_false card
    exact UInt16.le_antisymm (UInt16.not_lt.mp down) UInt16.zero_le
  · intro l stored
    obtain ⟨n, inside, named, mother⟩ := known (attached.hub _ (listed stored))
    exact ⟨n, inside, named, of_decide_eq_true mother⟩
  · intro id
    have few := attached.few id
    rw [Mesh.edges, List.filter_map, List.length_map] at few
    exact few

theorem mothersAlike_of_oneMode (uniform : OneMode s.tables) : MothersAlike s := by
  intro l stored l' stored' shared n inside n' inside' named named'
  have known {o : Node} (listed : o ∈ s.nodes) : s.tables.mode o.id = some o.udpMode := by
    have found : s.tables.findNode o.id = some o := findNode_of_mem (m := s.tables) s.ids listed
    rw [Mesh.mode, found, Option.map_some]
  have same := uniform _ (List.mem_map_of_mem stored) _ (List.mem_map_of_mem stored') shared
  rw [← named, ← named', known inside, known inside', Option.some.injEq] at same
  exact same

theorem wellAttached_run (codec : Codec) (start : WellAttached s.tables) {ops : List Op}
    (edits : ∀ op ∈ ops, op.editsCards = true) :
    WellAttached (Runs.after (Op.next codec) s ops).tables ∧
      (OneMode s.tables → Runs.Along (Op.next codec) (Op.Agrees codec) s ops →
        OneMode (Runs.after (Op.next codec) s ops).tables) := by
  induction ops generalizing s with
  | nil => exact ⟨start, fun uniform _ => uniform⟩
  | cons op ops ih =>
    have keeps := keeps_call codec s (edits op (.head _))
    have later := ih (keeps.attached start) fun later listed => edits later (.tail _ listed)
    exact ⟨later.1, fun uniform agree => later.2 (keeps.modes start uniform agree.1) agree.2⟩

/-- **The attachment invariant.** After any calls that edit cards, from a store without links, the
links are in order; and the mothers of each card have one mode, as long as every patch gives them
one. -/
theorem attachments_after_calls (codec : Codec) {s : State} (unlinked : s.links = [])
    {ops : List Op} (edits : ∀ op ∈ ops, op.editsCards = true) :
    LinksInOrder (Runs.after (Op.next codec) s ops) ∧
      (Runs.Along (Op.next codec) (Op.Agrees codec) s ops →
        MothersAlike (Runs.after (Op.next codec) s ops)) := by
  have edges : s.tables.edges = [] := by
    rw [Mesh.edges, show s.tables.links = s.links from rfl, unlinked]
    rfl
  have start : WellAttached s.tables := by
    rw [WellAttached, edges]
    exact attached_nil
  have uniform : OneMode s.tables := by
    rw [OneMode, edges]
    intro _ none
    cases none
  have run := wellAttached_run codec start edits
  exact ⟨linksInOrder_of_wellAttached run.1,
    fun agree => mothersAlike_of_oneMode (run.2 uniform agree)⟩

/-! ## A card under two mothers -/

instance (codec : Codec) (s : State) (op : Op) : Decidable (op.Agrees codec s) :=
  match op with
  | .patchNode id p now newClusterID =>
    match found : loadMeshLocked codec s with
    | .ok m _ => decidable_of_iff (PatchAgrees m id p) (by rw [Op.Agrees, found])
    | .error _ _ => isTrue (by rw [Op.Agrees, found]; trivial)
  | .enroll .. | .deleteNode .. | .putMesh .. | .putNodeForwards .. | .swapNodeAddresses ..
  | .reassignNodeSubnet .. | .updateSettings .. | .setPaths .. | .setStandby ..
  | .setPublicIPs .. | .setRelayPublicV4 .. => isTrue trivial

instance (s : State) : Decidable (MothersAlike s) :=
  inferInstanceAs (Decidable (∀ l ∈ s.links, ∀ l' ∈ s.links, l.fromNodeID = l'.fromNodeID →
    ∀ n ∈ s.nodes, ∀ n' ∈ s.nodes, n.id = l.toNodeID → n'.id = l'.toNodeID →
      n.udpMode = n'.udpMode))

/-- What is drawn for a card whose id ends with a digit. -/
def freshCard (digit : String) : Fresh :=
  ⟨"00000000-0000-4000-8000-00000000000" ++ digit, "private" ++ digit, "public" ++ digit,
    "token" ++ digit, .zero⟩

/-- A patch that sets the mothers of a card. -/
def parentsPatch (parents : List String) : NodePatch :=
  ⟨none, none, none, none, none, none, none, some parents, none, none, none⟩

/-- A patch that makes a mother use UDP. -/
def udpPatch : NodePatch :=
  ⟨none, none, none, none, none, none, none, none, none, some true, none⟩

/-- Two mothers and a card, which joins the first one. -/
def twoMothersRun : List Op :=
  [.enroll .server "" 0 (freshCard "1"), .enroll .server "" 0 (freshCard "2"),
    .enroll .client "" 0 (freshCard "3")]

/-- The mode of a mother with all the cards to itself. -/
def soloUdpRun : List Op :=
  twoMothersRun ++ [.patchNode (freshCard "1").id udpPatch .zero ""]

/-- The card is attached to both mothers, and then one of them changes its mode. -/
def mixedModesRun : List Op :=
  twoMothersRun ++
    [.patchNode (freshCard "3").id (parentsPatch [(freshCard "1").id, (freshCard "2").id]) .zero "",
      .patchNode (freshCard "1").id udpPatch .zero ""]

theorem soloUdpRun_attachments :
    LinksInOrder (Runs.after (Op.next noCodec) openedStore soloUdpRun) ∧
      MothersAlike (Runs.after (Op.next noCodec) openedStore soloUdpRun) := by
  obtain ⟨links, modes⟩ := attachments_after_calls noCodec
    (show openedStore.links = [] from rfl)
    (show ∀ op ∈ soloUdpRun, op.editsCards = true from by decide)
  exact ⟨links, modes (by decide +kernel)⟩

/-- A card under a UDP mother and a TCP mother. -/
theorem mixedModesRun_not_alike : (∀ op ∈ mixedModesRun, op.editsCards = true) ∧
      ¬ MothersAlike (Runs.after (Op.next noCodec) openedStore mixedModesRun) := by
  refine ⟨by decide, ?_⟩
  decide +kernel

end Store
