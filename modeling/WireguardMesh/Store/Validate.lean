import WireguardMesh.Plan.Roster

/-! # Meshes the store accepts

`validateMesh` checks a mesh before the store keeps it. An accepted mesh is well formed in
the sense planning needs (`Store.wellFormed_of_validateMesh`): its node ids are distinct
UUIDs, so none of them is empty or the name of the relay, and its links join known nodes.
-/

namespace Core

/-- `core.ValidNodeID`: the usual text form of a UUID. -/
def validNodeID (id : String) : Bool :=
  id.toList.length = 36 && id.toList.zipIdx.all fun (c, i) =>
    if i = 8 ∨ i = 13 ∨ i = 18 ∨ i = 23 then c = '-'
    else ('0' ≤ c ∧ c ≤ '9') ∨ ('a' ≤ c ∧ c ≤ 'f') ∨ ('A' ≤ c ∧ c ≤ 'F')

theorem validNodeID_relay : validNodeID relayNodeID = false := by
  decide +kernel

end Core

namespace Store

open Core

/-- The errors of `validateMesh`. -/
inductive MeshError
  /-- `node missing id` -/
  | nodeMissingID
  /-- `node id %q must be a UUID` -/
  | nodeIDNotUUID (id : String)
  /-- `duplicate node id %q` -/
  | duplicateNodeID (id : String)
  /-- `node %s: invalid role` -/
  | invalidRole (id : String)
  /-- `node %s: address required` -/
  | addressRequired (id : String)
  /-- `node %s: keys required` -/
  | keysRequired (id : String)
  /-- `node %s: token required` -/
  | tokenRequired (id : String)
  /-- `link from unknown %q` -/
  | linkFromUnknown (id : String)
  /-- `link to unknown %q` -/
  | linkToUnknown (id : String)
  /-- `forward on unknown %q` -/
  | forwardOnUnknown (id : String)
  /-- `forward dest unknown %q` -/
  | forwardDestUnknown (id : String)
deriving DecidableEq

/-- The checks of one node, given the ids seen before it. -/
def validateNode (ids : List String) (n : Node) : Except MeshError Unit :=
  if n.id = "" then .error .nodeMissingID
  else if validNodeID n.id = false then .error (.nodeIDNotUUID n.id)
  else if n.id ∈ ids then .error (.duplicateNodeID n.id)
  else if n.role ≠ .server ∧ n.role ≠ .client then .error (.invalidRole n.id)
  else if n.address = "" then .error (.addressRequired n.id)
  else if n.publicKey = "" ∨ n.privateKey = "" then .error (.keysRequired n.id)
  else if n.token = "" then .error (.tokenRequired n.id)
  else .ok ()

/-- The loop over the nodes; it returns their ids. -/
def validateNodes (ids : List String) : List Node → Except MeshError (List String)
  | [] => .ok ids
  | n :: nodes =>
    match validateNode ids n with
    | .error e => .error e
    | .ok () => validateNodes (ids ++ [n.id]) nodes

def validateLink (ids : List String) (l : Link) : Except MeshError Unit :=
  if l.fromNodeID ∉ ids then .error (.linkFromUnknown l.fromNodeID)
  else if l.toNodeID ∉ ids then .error (.linkToUnknown l.toNodeID)
  else .ok ()

def validateForward (ids : List String) (f : Forward) : Except MeshError Unit :=
  if f.nodeID ∉ ids then .error (.forwardOnUnknown f.nodeID)
  else if f.destNodeID ∉ ids then .error (.forwardDestUnknown f.destNodeID)
  else .ok ()

/-- The first failing check of a list. -/
def validateAll {α : Type} (check : α → Except MeshError Unit) : List α → Except MeshError Unit
  | [] => .ok ()
  | a :: rest =>
    match check a with
    | .error e => .error e
    | .ok () => validateAll check rest

def validateMesh (m : Mesh) : Except MeshError Unit :=
  match validateNodes [] m.nodes with
  | .error e => .error e
  | .ok ids =>
    match validateAll (validateLink ids) m.links with
    | .error e => .error e
    | .ok () => validateAll (validateForward ids) m.forwards

/-! ## What acceptance means -/

theorem validateNode_ok {ids : List String} {n : Node} (accepted : validateNode ids n = .ok ()) :
    n.id ≠ "" ∧ n.id ≠ relayNodeID ∧ n.id ∉ ids := by
  rw [validateNode] at accepted
  split at accepted
  · cases accepted
  · next named =>
    split at accepted
    · cases accepted
    · next uuid =>
      split at accepted
      · cases accepted
      · next fresh =>
        refine ⟨named, ?_, fresh⟩
        intro relay
        rw [relay, validNodeID_relay] at uuid
        exact uuid rfl

theorem validateNodes_ok {ids out : List String} {nodes : List Node}
    (accepted : validateNodes ids nodes = .ok out) (fresh : ids.Nodup) :
    out = ids ++ nodes.map Node.id ∧ out.Nodup ∧ ∀ n ∈ nodes, n.id ≠ "" ∧ n.id ≠ relayNodeID := by
  induction nodes generalizing ids with
  | nil =>
    cases accepted
    exact ⟨(List.append_nil _).symm, fresh, fun _ member => (by cases member)⟩
  | cons n nodes ih =>
    rw [validateNodes] at accepted
    split at accepted
    · cases accepted
    · next checked =>
      obtain ⟨named, notRelay, new⟩ := validateNode_ok checked
      obtain ⟨form, distinct, others⟩ := ih accepted
        (List.nodup_append.mpr ⟨fresh, List.nodup_singleton _, fun a member b last same =>
          new (List.mem_singleton.mp last ▸ same ▸ member)⟩)
      refine ⟨by rw [form, List.append_assoc, List.singleton_append, List.map_cons], distinct,
        ?_⟩
      intro other member
      rcases List.mem_cons.mp member with rfl | later
      · exact ⟨named, notRelay⟩
      · exact others other later

theorem validateAll_ok {α : Type} {check : α → Except MeshError Unit} {list : List α}
    (accepted : validateAll check list = .ok ()) : ∀ a ∈ list, check a = .ok () := by
  induction list with
  | nil => exact fun _ member => (by cases member)
  | cons a rest ih =>
    rw [validateAll] at accepted
    split at accepted
    · cases accepted
    · next checked =>
      intro b member
      rcases List.mem_cons.mp member with rfl | later
      · exact checked
      · exact ih accepted b later

/-- **Accepted meshes are well formed.** -/
theorem wellFormed_of_validateMesh {m : Mesh} (accepted : validateMesh m = .ok ()) :
    m.WellFormed := by
  rw [validateMesh] at accepted
  split at accepted
  · cases accepted
  · next ids nodes =>
    obtain ⟨rfl, distinct, named⟩ := validateNodes_ok nodes List.nodup_nil
    split at accepted
    · cases accepted
    · next links =>
      refine ⟨by rwa [List.nil_append] at distinct, named, fun l member => ?_⟩
      have checked := validateAll_ok links l member
      have known {id : String} (inside : id ∈ [] ++ m.nodes.map Node.id) :
          id ≠ relayNodeID := by
        obtain ⟨n, inMesh, rfl⟩ := List.mem_map.mp inside
        exact (named n inMesh).2
      rw [validateLink] at checked
      split at checked
      · cases checked
      · next source =>
        split at checked
        · cases checked
        · next target => exact ⟨known (not_not.mp source), known (not_not.mp target)⟩

end Store
