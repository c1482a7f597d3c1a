import WireguardMesh.Plan.Inputs
import WireguardMesh.Plan.Order
import WireguardMesh.Store.Operations

/-! # The revision covers the config

An agent skips a config whose revision it has already applied, so a change of its config has
to come with a higher revision. Most operations raise the revision whatever they do
(`rewriteMesh_revision`). The others may leave it, and then the store differs only in what no
config shows (`Unnoticed`) — with two exceptions: `UpdateSettings` changes the default
transport, which nodes without a mother get, and `SetPublicIPs` takes an endpoint of blanks
for a configured one.
-/

namespace Store

open Core Effect GoText Net

variable {codec : Codec} {s s' : State} {reported : Bool} {v4 : String} {n : Node}

/-- The operations of the store that configs depend on. -/
inductive Op
  | enroll (role : Role) (endpoint : String) (listenPort : UInt16) (fresh : Fresh)
  | deleteNode (id : String)
  | patchNode (id : String) (p : NodePatch) (now : Time) (newClusterID : String)
  | putMesh (m : Mesh) (now : Time)
  | putNodeForwards (id : String) (fwds : List Forward)
  | swapNodeAddresses (aID bID : String) (now : Time)
  | reassignNodeSubnet (nodeID targetPrefix : String) (now : Time)
  | updateSettings (p : SettingsPatch)
  | setPaths (p : PathChoices)
  | setStandby (sb : GoMap String String)
  | setPublicIPs (nodeID v4 : String)
  | setRelayPublicV4 (v4 : String)

/-- An operation without what it returns. -/
def Op.run (codec : Codec) : Op → Operation Unit
  | enroll role endpoint port fresh => discard (Store.enroll codec role endpoint port fresh)
  | deleteNode id => Store.deleteNode codec id
  | patchNode id p now newClusterID => discard (Store.patchNode codec id p now newClusterID)
  | putMesh m now => Store.putMesh codec m now
  | putNodeForwards id fwds => discard (Store.putNodeForwards codec id fwds)
  | swapNodeAddresses a b now => Store.swapNodeAddresses codec a b now
  | reassignNodeSubnet id target now => Store.reassignNodeSubnet codec id target now
  | updateSettings p => Store.updateSettings p
  | setPaths p => discard (Store.setPaths codec p)
  | setStandby sb => discard (Store.setStandby codec sb)
  | setPublicIPs id v4 => discard (Store.setPublicIPs id v4)
  | setRelayPublicV4 v4 => discard (Store.setRelayPublicV4 v4)

/-! ## Operations that raise the revision -/

section

variable {α : Type} {check : Mesh → Except MeshError Unit}
  {edit : Settings → Mesh → Except StoreError (Mesh × α)} {a : α}
  (done : rewriteMesh codec check edit s = .ok a s')

include done

theorem rewriteMesh_eq_ok : ∃ s₁ m, loadMeshLocked codec s = .ok (s₁.mesh codec) s₁ ∧
      edit s₁.settings (s₁.mesh codec) = .ok (m, a) ∧
      replaceMeshLocked { m with revision := s₁.revision + 1 } s₁ = .ok () s' := by
  obtain ⟨m, s₁, loaded, rest⟩ := bind_eq_ok.mp done
  obtain ⟨rfl, _⟩ := loadMeshLocked_eq_ok loaded
  rw [bind_get] at rest
  obtain ⟨edited, made, rest⟩ := bind_lift_eq_ok.mp rest
  obtain ⟨_, _, rest⟩ := bind_lift_eq_ok.mp rest
  obtain ⟨_, _, stored, rest⟩ := bind_eq_ok.mp rest
  obtain ⟨rfl, rfl⟩ := pure_eq_ok.mp rest
  exact ⟨s₁, edited.1, loaded, made, stored⟩

end

/-- A store that differs from another one in nothing that configs show, apart from the
default transport. -/
structure Unnoticed (s s' : State) : Prop where
  revision : s.revision = s'.revision
  nodes : ∃ f : Node → Node, s'.nodes = s.nodes.map f ∧
    (∀ n, f n = { n with publicV4 := (f n).publicV4 }) ∧
    ∀ n ∈ s.nodes, (f n).dialEndpoint = n.dialEndpoint
  links : s'.links = s.links
  forwards : s'.forwards = s.forwards
  iface : s'.settings.defaultIface = s.settings.defaultIface
  poll : s'.settings.defaultPoll = s.settings.defaultPoll
  relay : meshRelay s'.relay = meshRelay s.relay
  paths : s'.pathsJSON = s.pathsJSON
  standby : s'.standbyJSON = s.standbyJSON

theorem Unnoticed.refl (s : State) : Unnoticed s s where
  revision := rfl
  nodes := ⟨id, (List.map_id _).symm, fun _ => rfl, fun _ _ => rfl⟩
  links := rfl
  forwards := rfl
  iface := rfl
  poll := rfl
  relay := rfl
  paths := rfl
  standby := rfl

section

variable (codec : Codec) {s s' : State}

section

variable (same : Unnoticed s s')

include same

theorem Unnoticed.keyed_nodes : s'.nodes.map Node.keyed = s.nodes.map Node.keyed := by
  obtain ⟨f, nodes, shape, dial⟩ := same.nodes
  rw [nodes, List.map_map]
  apply List.map_congr_left
  intro n listed
  rw [Function.comp_apply, Node.keyed, Node.keyed, dial n listed, shape n]

theorem Unnoticed.keyed_mesh : (s'.mesh codec).keyed ∅ = (s.mesh codec).keyed ∅ := by
  simp only [Mesh.keyed, State.mesh, same.keyed_nodes, same.links, same.relay]

theorem Unnoticed.conflictLosers :
    conflictLosers (s'.mesh codec) = conflictLosers (s.mesh codec) := by
  rw [← conflictLosers_keyed _ ∅, same.keyed_mesh, conflictLosers_keyed]

theorem Unnoticed.paths_eq : (s'.mesh codec).paths = (s.mesh codec).paths := by
  simp only [State.mesh, pathsLocked, same.paths]

theorem Unnoticed.standby_eq : (s'.mesh codec).standby = (s.mesh codec).standby := by
  simp only [State.mesh, standbyLocked, same.standby]

theorem Unnoticed.peersFor (order : RangeOrder Site) (id : String) :
    (planMesh order (s'.mesh codec)).peersFor id = (planMesh order (s.mesh codec)).peersFor id :=
  peersFor_congr order same.keyed_nodes same.links same.relay
    (fun id sub => by rw [same.paths_eq]) id

theorem Unnoticed.lookup : ∃ f : Node → Node,
    (∀ id, (s'.mesh codec).findNode id = ((s.mesh codec).findNode id).map f) ∧
    (∀ n, f n = { n with publicV4 := (f n).publicV4 }) ∧
    ∀ id, ∀ n ∈ (s.mesh codec).findNode id, (f n).dialEndpoint = n.dialEndpoint := by
  obtain ⟨f, nodes, shape, dial⟩ := same.nodes
  have ids (n : Node) : (f n).id = n.id := by rw [shape n]
  refine ⟨f, ?_, shape, fun id n known => dial n (List.mem_of_find?_eq_some known)⟩
  intro id
  change s'.nodes.find? _ = (s.nodes.find? _).map f
  rw [nodes, List.find?_map]
  simp only [Function.comp_def, ids]

theorem Unnoticed.desiredPeer : desiredPeer (s'.mesh codec) = desiredPeer (s.mesh codec) := by
  obtain ⟨f, found, shape, dial⟩ := same.lookup codec
  have contact (id : String) :
      peerContact (s'.mesh codec) id = peerContact (s.mesh codec) id := by
    rw [peerContact, peerContact, show (s'.mesh codec).relay = (s.mesh codec).relay from same.relay,
      found]
    cases known : (s.mesh codec).findNode id with
    | none => rfl
    | some n =>
      have key : (f n).publicKey = n.publicKey := by rw [shape n]
      rw [Option.map_some, Option.map_some, Option.map_some, key, dial id n known]
  funext pp
  rw [Core.desiredPeer, Core.desiredPeer, contact]

theorem Unnoticed.desiredForward :
    desiredForward (s'.mesh codec) = desiredForward (s.mesh codec) := by
  obtain ⟨f, found, shape, _⟩ := same.lookup codec
  have ids (n : Node) : (f n).id = n.id := by rw [shape n]
  have flags (n : Node) : (f n).disabled = n.disabled := by rw [shape n]
  have addresses (n : Node) : (f n).address = n.address := by rw [shape n]
  funext fw
  rw [Core.desiredForward, Core.desiredForward, found, same.conflictLosers, same.standby_eq]
  cases (s.mesh codec).findNode fw.destNodeID with
  | none => rfl
  | some dest =>
    simp only [Option.map_some, found, ids, Option.filter_map, Function.comp_def, flags]
    have chosen (o : Option Node) : (o.map f).getD (f dest) = f (o.getD dest) := by
      cases o <;> rfl
    simp only [chosen, ids, flags, addresses]

theorem Unnoticed.resolveBindConfig {n' : Node} (keyed : n'.keyed = n.keyed) (defaults : String) :
    resolveBindConfig (s'.mesh codec) n' defaults =
      resolveBindConfig (s.mesh codec) n defaults := by
  rw [← resolveBindConfig_keyed _ ∅ n', same.keyed_mesh, keyed, resolveBindConfig_keyed]

/-- Stores that differ unnoticed and give every node the same transport give the same
configs. -/
theorem Unnoticed.compileDesired (order : RangeOrder Site) (id : String) (transport : ∀ n ∈ s.nodes,
      Core.resolveBindConfig (s.mesh codec) n s'.settings.transportJSON =
        Core.resolveBindConfig (s.mesh codec) n s.settings.transportJSON) :
    compileDesired order (s'.mesh codec) id s'.settings.defaults =
      compileDesired order (s.mesh codec) id s.settings.defaults := by
  obtain ⟨f, found, shape, dial⟩ := same.lookup codec
  rw [Core.compileDesired, Core.compileDesired, compileDesiredWithPlan, compileDesiredWithPlan,
    found]
  cases known : (s.mesh codec).findNode id with
  | none => rfl
  | some n =>
    have listed : n ∈ s.nodes := List.mem_of_find?_eq_some known
    have keyed : (f n).keyed = n.keyed := by
      rw [Node.keyed, Node.keyed, dial id n known, shape n]
    have bind : Core.resolveBindConfig (s'.mesh codec) (f n) s'.settings.transportJSON =
        Core.resolveBindConfig (s.mesh codec) n s.settings.transportJSON :=
      (same.resolveBindConfig codec keyed _).trans (transport n listed)
    have revision : (s'.mesh codec).revision = (s.mesh codec).revision := same.revision.symm
    have forwards : (s'.mesh codec).forwards = (s.mesh codec).forwards := same.forwards
    simp only [Option.map_some, Settings.defaults, same.iface, same.poll, bind, revision,
      forwards, same.desiredForward, same.desiredPeer, same.peersFor]
    rw [shape n]
    rfl

end

end

/-! ## The default transport -/

/-- Every node is a mother or linked to one, so that none gets the default transport. -/
def State.NoLooseNode (s : State) : Prop :=
  ∀ n ∈ s.nodes, n.isMagnetParent = true ∨ (s.tables.firstMother n.id).isSome = true

/-- In a settled store a mother has a transport of its own, or none in UDP mode. -/
theorem State.Settled.ownBindConfig
    (settled : s.Settled) (given : s.settings.transportJSON ≠ "") (listed : n ∈ s.nodes)
    (mother : n.isMagnetParent = true) (defaults defaults' : String) :
    n.ownBindConfig defaults = n.ownBindConfig defaults' := by
  have nothing := settled.transport
  rw [ensureMotherTransport, if_neg given, Mesh.fill, List.any_eq_false] at nothing
  have own : n.transport ≠ "" ∨ n.udpMode = true := by
    by_contra neither
    have incomplete : ¬ (n.isMagnetParent = false ∨ n.transport ≠ "" ∨ n.udpMode = true) := by
      rw [mother]
      simpa using neither
    refine nothing n listed ?_
    rw [motherTransport, if_neg incomplete, Option.isSome_some]
  rw [Node.ownBindConfig, Node.ownBindConfig]
  rcases own with transport | udp
  · rw [if_neg transport, if_neg transport]
  · rw [if_pos udp, if_pos udp]

theorem State.NoLooseNode.resolveBindConfig (noLoose : s.NoLooseNode) (settled : s.Settled)
    (given : s.settings.transportJSON ≠ "") (codec : Codec) (listed : n ∈ s.nodes)
    (defaults defaults' : String) : Core.resolveBindConfig (s.mesh codec) n defaults =
      Core.resolveBindConfig (s.mesh codec) n defaults' := by
  rw [Core.resolveBindConfig, Core.resolveBindConfig]
  split
  · next mother => exact settled.ownBindConfig given listed mother defaults defaults'
  · next card =>
    rcases noLoose n listed with mother | attached
    · exact absurd mother card
    · obtain ⟨mother, first⟩ := Option.isSome_iff_exists.mp attached
      have first' : (s.mesh codec).firstMother n.id = some mother := first
      obtain ⟨l, _, kept⟩ := List.exists_of_findSome?_eq_some first
      obtain ⟨known, isMother⟩ := Option.filter_eq_some_iff.mp kept
      rw [first']
      exact settled.ownBindConfig given (List.mem_of_find?_eq_some known) isMother defaults
        defaults'

/-! ## The rule -/

/-- The calls that the revision covers: a default transport is changed with the relay, to
what it was, or where no node gets it; and an address is recorded where no endpoint of blanks
stands in for it. -/
def Op.Quiet (s : State) : Op → Prop
  | updateSettings p => ∀ raw ∈ p.transportJSON, p.relayPort.isSome = true ∨
      p.relayHost.isSome = true ∨ normalizeTransportJSON raw = .ok s.settings.transportJSON ∨
      s.NoLooseNode
  | setPublicIPs nodeID v4 => ∀ n ∈ s.nodes, n.id = nodeID → n.endpoint ≠ "" →
      trimSpace n.endpoint.toList = [] → n.listenPort = 0 ∨ n.publicV4 = v4
  | _ => True

/-- **Configs do not depend on map iteration orders.** -/
theorem desiredForNode_order (first second : RangeOrder Site) (id : String) :
    desiredForNode codec first id = desiredForNode codec second id := by
  simp only [desiredForNode, compileDesired, planMesh_order _ first second]

/-- A codec for stores without path choices and standbys. -/
def noCodec : Codec :=
  ⟨fun _ => "", fun _ => none, fun _ => "", fun _ => none⟩

/-- A store that has just been opened, with a short default transport. -/
def openedStore : State where
  revision := 1
  nodes := []
  links := []
  forwards := []
  settings := ⟨"enroll-token", "10.10.0.0/24", "lc0", "10s", "\x7b\"mc\":\x7b\x7d\x7d"⟩
  relay := ⟨25599, "relay-private", "relay-public", "", ""⟩
  pathsJSON := ""
  standbyJSON := ""
  ids := List.nodup_nil
  tokens := List.nodup_nil

end Store
