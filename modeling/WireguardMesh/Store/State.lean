import WireguardMesh.Core.Compile
import WireguardMesh.Foundation.Effect
import WireguardMesh.Store.Magnet

/-! # The store

The Master keeps the mesh in three tables, and the revision, the settings, the relay, the
path choices and the standbys as values under fixed names. `loadMeshLocked` reads a mesh
from the tables; where nodes lack routes or a mother lacks a transport it completes them and
stores the result under the next revision. `replaceMeshLocked` writes a mesh back.
-/

namespace Store

open Core GoText Net

/-- `Settings`, the part that is edited or compiled into configs. -/
structure Settings where
  enrollToken : String
  vpnSubnet : String
  defaultIface : String
  defaultPoll : String
  transportJSON : String
deriving DecidableEq

/-- What the database holds. The id is the primary key of the table of nodes, and tokens are
unique. -/
structure State where
  revision : Int
  nodes : List Node
  links : List Link
  forwards : List Forward
  settings : Settings
  relay : RelayConfig
  pathsJSON : String
  standbyJSON : String
  ids : (nodes.map Node.id).Nodup
  tokens : (nodes.map Node.token).Nodup

/-- `json.Marshal` and `json.Unmarshal` of the path choices and the standbys. -/
structure Codec where
  marshalPaths : PathChoices → String
  unmarshalPaths : String → Option PathChoices
  marshalStandby : GoMap String String → String
  unmarshalStandby : String → Option (GoMap String String)

abbrev Operation := EStateM StoreError State

/-- `replaceMeshLocked`: one transaction, which fails when the rows of two nodes clash. -/
def replaceMeshLocked (m : Mesh) : Operation Unit := fun s =>
  let m := pruneClusters m
  if unique : (m.nodes.map Node.id).Nodup ∧ (m.nodes.map Node.token).Nodup then
    .ok () { s with
      revision := m.revision, nodes := m.nodes, links := m.links, forwards := m.forwards,
      ids := unique.1, tokens := unique.2 }
  else .error .constraint s

/-- The transport of a mother without one: the default of the mesh. -/
def motherTransport (defaults : String) (n : Node) : Option Node :=
  if n.isMagnetParent = false ∨ n.transport ≠ "" ∨ n.udpMode then none
  else some { n with transport := defaults }

def ensureMotherTransport (m : Mesh) (defaults : String) : Mesh × Bool :=
  if defaults = "" then (m, false) else m.fill (motherTransport defaults)

section

variable (codec : Codec)

def pathsLocked (s : State) : PathChoices :=
  if s.pathsJSON = "" then ∅ else (codec.unmarshalPaths s.pathsJSON).getD ∅

def standbyLocked (s : State) : GoMap String String :=
  if s.standbyJSON = "" then ∅ else (codec.unmarshalStandby s.standbyJSON).getD ∅

/-- The mesh in the tables, with the values that belong to it. -/
def State.mesh (s : State) : Mesh where
  revision := s.revision
  nodes := s.nodes
  links := s.links
  forwards := s.forwards
  paths := pathsLocked codec s
  relay := meshRelay s.relay
  standby := standbyLocked codec s

/-- The mesh in the tables alone. -/
def State.tables (s : State) : Mesh where
  revision := s.revision
  nodes := s.nodes
  links := s.links
  forwards := s.forwards
  paths := ∅
  relay := none
  standby := ∅

def loadMeshLocked : Operation Mesh := fun s =>
  let routed := ensureDefaultRoutes s.tables
  let seeded := ensureMotherTransport routed.1 s.settings.transportJSON
  if seeded.2 || routed.2 then
    match replaceMeshLocked { seeded.1 with revision := s.revision + 1 } s with
    | .error e s => .error e s
    | .ok () s => .ok (s.mesh codec) s
  else .ok (s.mesh codec) s

/-- The defaults of compiled configs. -/
def Settings.defaults (settings : Settings) : DesiredDefaults :=
  ⟨settings.defaultIface, settings.defaultPoll, settings.transportJSON⟩

/-- `Store.DesiredForNode`; the error of the compiler is part of the answer. -/
def desiredForNode (order : RangeOrder Site) (nodeID : String) :
    Operation (Except CompileError DesiredConfig) := do
  let m ← loadMeshLocked codec
  let s ← get
  pure (compileDesired order m nodeID s.settings.defaults)

end

/-! ## What loading and storing do -/

/-- A stored mesh replaces the tables and the revision, and nothing else. -/
theorem replaceMeshLocked_eq_ok {m : Mesh} {s s' : State}
    (stored : replaceMeshLocked m s = .ok () s') :
    s'.revision = m.revision ∧ s'.settings = s.settings ∧ s'.relay = s.relay := by
  rw [replaceMeshLocked] at stored
  split at stored
  · cases stored
    exact ⟨rfl, rfl, rfl⟩
  · cases stored

/-- A store in which no node has to be completed. -/
structure State.Settled (s : State) : Prop where
  routes : (ensureDefaultRoutes s.tables).2 = false
  transport : (ensureMotherTransport s.tables s.settings.transportJSON).2 = false

/-- **Loading.** The mesh is the stored one, and the store is left alone or has the next
revision. -/
theorem loadMeshLocked_eq_ok {codec : Codec} {s s' : State} {m : Mesh}
    (loaded : loadMeshLocked codec s = .ok m s') : m = s'.mesh codec ∧ s'.settings = s.settings ∧
      (s'.revision = s.revision + 1 ∨ (s' = s ∧ s.Settled)) := by
  rw [loadMeshLocked] at loaded
  split at loaded
  · split at loaded
    · cases loaded
    · next between stored =>
      cases loaded
      obtain ⟨revision, settings, _⟩ := replaceMeshLocked_eq_ok stored
      exact ⟨rfl, settings, .inl revision⟩
  · next nothing =>
    cases loaded
    rw [Bool.or_eq_true, not_or, Bool.not_eq_true, Bool.not_eq_true] at nothing
    obtain ⟨transport, routes⟩ := nothing
    rw [ensureDefaultRoutes, Mesh.fill_eq_self routes] at transport
    exact ⟨rfl, rfl, .inr ⟨rfl, routes, transport⟩⟩

end Store
