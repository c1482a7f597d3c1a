import WireguardMesh.Pathsel.Tick
import WireguardMesh.Plan.Winners

/-! # Forwards and cluster standbys

`ClusterStandby` maps an offline or disabled member of a cluster to the first member that is
online and enabled. `CompileDesired` sends a forward to the standby of its destination unless that
has lost its address; then it falls back to the destination and not to a second member, and a
destination that is online but has lost its address has no standby at all. A forward follows its
cluster to a usable member if and only if it comes to neither of these cases
(`forward_follows_iff`).
-/

namespace Core

section

variable (mesh : Mesh) (alive : String → Bool)

/-- The member of a cluster that stands in for the others: the first that is enabled and alive. -/
def firstUp (cluster : String) : Option Node :=
  mesh.nodes.find? fun n => n.cluster = cluster ∧ n.disabled = false ∧ alive n.id = true

/-- A node that a forward can be sent to. -/
def Usable (n : Node) : Prop :=
  n.disabled = false ∧ alive n.id = true ∧ n.id ∉ conflictLosers mesh

/-- The usable members of the cluster of a destination. -/
def Rescues (dest m : Node) : Prop :=
  m ∈ mesh.nodes ∧ dest.cluster ≠ "" ∧ m.cluster = dest.cluster ∧ Usable mesh alive m

def forwardEntries (fw : Forward) (host : List Char) : List DesiredForward :=
  (forwardProtocols fw.protocol).map fun p =>
    ⟨p, fw.listen, String.ofList host, fw.dest, fw.destPort⟩

/-- A forward is compiled toward the host of a node, and the config of the listening node has its
entries. -/
def SendsTo (order : RangeOrder Site) (defaults : DesiredDefaults) (fw : Forward) (m : Node) :
    Prop :=
  ∃ host, hostFromAddress m.address = some host ∧
    desiredForward mesh fw = .ok (forwardEntries fw host) ∧
      ∀ d, compileDesired order mesh fw.nodeID defaults = .ok d →
        forwardEntries fw host <:+: d.forwards

/-- What a forward should do: go to its destination if that is usable, and otherwise to a usable
member of the destination's cluster. -/
def Follows (order : RangeOrder Site) (defaults : DesiredDefaults) (fw : Forward) (dest : Node) :
    Prop :=
  (Usable mesh alive dest → SendsTo mesh order defaults fw dest) ∧
    (¬ Usable mesh alive dest → (∃ m, Rescues mesh alive dest m) →
      ∃ m, Rescues mesh alive dest m ∧ SendsTo mesh order defaults fw m)

/-- The standby of a destination, as the compiler finds it. -/
def standbyOf (dest : Node) : Option Node :=
  if dest.cluster ≠ "" ∧ (dest.disabled = true ∨ alive dest.id = false) then
    firstUp mesh alive dest.cluster
  else none

end

/-! ## Standbys -/

section

variable {mesh : Mesh} {alive : String → Bool}

theorem lookup_clusterUp {cluster : String} (named : cluster ≠ "") :
    (clusterUp mesh alive).lookup cluster = (firstUp mesh alive cluster).map Node.id := by
  rw [clusterUp, firstUp]
  have general : ∀ (nodes : List Node) (up : GoMap String String),
      (nodes.foldl (fun up n =>
        if n.cluster = "" ∨ n.disabled = true ∨ alive n.id = false ∨ n.cluster ∈ up then up
        else up.insert n.cluster n.id) up).lookup cluster =
      (up.lookup cluster).or ((nodes.find? fun n =>
        n.cluster = cluster ∧ n.disabled = false ∧ alive n.id = true).map Node.id) := by
    intro nodes
    induction nodes with
    | nil => intro up; simp
    | cons n nodes ih =>
      intro up
      rw [List.foldl_cons, ih, List.find?_cons]
      by_cases eligible : n.cluster = cluster ∧ n.disabled = false ∧ alive n.id = true
      · obtain ⟨rfl, on, up'⟩ := eligible
        by_cases known : n.cluster ∈ up
        · obtain ⟨id, found⟩ := Option.isSome_iff_exists.mp (AList.lookup_isSome.mpr known)
          simp [known, found]
        · have absent := AList.lookup_eq_none.mpr known
          simp [known, named, on, up', absent, AList.lookup_insert]
      · simp only [decide_eq_false eligible]
        congr 1
        split
        · rfl
        · next passed =>
          rw [not_or, not_or, not_or] at passed
          have other : cluster ≠ n.cluster := by
            rintro rfl
            exact eligible ⟨rfl, by simpa using passed.2.1, by simpa using passed.2.2.1⟩
          rw [GoMap.lookup_insert, if_neg other]
  rw [general, AList.lookup_empty, Option.none_or]

theorem firstUp_mem {cluster : String} {m : Node} (first : firstUp mesh alive cluster = some m) :
    m ∈ mesh.nodes ∧ m.cluster = cluster ∧ m.disabled = false ∧ alive m.id = true :=
  ⟨List.mem_of_find?_eq_some first, by simpa using List.find?_some first⟩

/-- The step of `ClusterStandby` at one node. -/
def addStandby (mesh : Mesh) (alive : String → Bool) (out : GoMap String String) (n : Node) :
    GoMap String String :=
  let standby := (clusterUp mesh alive).getD n.cluster ""
  if n.cluster ≠ "" ∧ (n.disabled = true ∨ alive n.id = false) ∧ standby ≠ "" then
    out.insert n.id standby
  else out

theorem lookup_foldl_addStandby {id : String} : ∀ {nodes : List Node} (out : GoMap String String),
    (∀ n ∈ nodes, n.id ≠ id) → (nodes.foldl (addStandby mesh alive) out).lookup id = out.lookup id
  | [], _, _ => rfl
  | n :: nodes, out, others => by
      rw [List.foldl_cons, lookup_foldl_addStandby _ fun o later => others o (.tail _ later),
        addStandby]
      split
      · rw [GoMap.lookup_insert, if_neg fun same => others n (.head _) same.symm]
      · rfl

theorem lookup_clusterStandby (distinct : (mesh.nodes.map Node.id).Nodup)
    (named : ∀ n ∈ mesh.nodes, n.id ≠ "") {dest : Node} (listed : dest ∈ mesh.nodes) :
    (clusterStandby mesh alive).lookup dest.id = (standbyOf mesh alive dest).map Node.id := by
  obtain ⟨before, after, nodes⟩ := List.append_of_mem listed
  have apart := distinct
  rw [nodes, List.map_append, List.map_cons, List.nodup_append, List.nodup_cons] at apart
  obtain ⟨-, ⟨notAfter, -⟩, notBefore⟩ := apart
  have cut : clusterStandby mesh alive = after.foldl (addStandby mesh alive)
      (addStandby mesh alive (before.foldl (addStandby mesh alive) ∅) dest) := by
    rw [← List.foldl_cons, ← List.foldl_append, ← nodes]
    rfl
  have start : (before.foldl (addStandby mesh alive) ∅).lookup dest.id = none := by
    rw [lookup_foldl_addStandby, AList.lookup_empty]
    exact fun n member => notBefore n.id (List.mem_map_of_mem member) dest.id (.head _)
  rw [cut, lookup_foldl_addStandby _ fun n member same =>
    notAfter (List.mem_map.mpr ⟨n, member, same⟩), addStandby, standbyOf]
  by_cases down : dest.cluster ≠ "" ∧ (dest.disabled = true ∨ alive dest.id = false)
  · rw [if_pos down, GoMap.getD, lookup_clusterUp down.1]
    cases first : firstUp mesh alive dest.cluster with
    | none => simpa using start
    | some m =>
      have known : m.id ≠ "" := named m (firstUp_mem first).1
      simp [down.1, down.2, known]
  · rw [if_neg down, if_neg fun all => down ⟨all.1, all.2.1⟩, start]
    rfl

theorem standbyOf_up {m dest : Node} (standby : standbyOf mesh alive dest = some m) :
    (dest.cluster ≠ "" ∧ (dest.disabled = true ∨ alive dest.id = false)) ∧
      firstUp mesh alive dest.cluster = some m := by
  rw [standbyOf] at standby
  split at standby
  · next down => exact ⟨down, standby⟩
  · cases standby

theorem findNode_standby (distinct : (mesh.nodes.map Node.id).Nodup)
    (named : ∀ n ∈ mesh.nodes, n.id ≠ "") (current : mesh.standby = clusterStandby mesh alive)
    {dest : Node} (listed : dest ∈ mesh.nodes) :
    mesh.findNode (mesh.standby.getD dest.id "") = standbyOf mesh alive dest := by
  rw [current, GoMap.getD, lookup_clusterStandby distinct named listed]
  cases standby : standbyOf mesh alive dest with
  | none =>
    exact List.find?_eq_none.mpr fun n member same => named n member (of_decide_eq_true same)
  | some m => exact findNode_of_mem distinct (firstUp_mem (standbyOf_up standby).2).1

end

/-! ## Compiled forwards -/

theorem forwardProtocols_ne_nil (protocol : String) : forwardProtocols protocol ≠ [] := by
  rw [forwardProtocols]
  generalize (if protocol.toLower = "" then "tcp" else protocol.toLower) = proto
  split
  · exact List.cons_ne_nil _ _
  · exact List.cons_ne_nil _ _

theorem forwardEntries_ne_nil (fw : Forward) (host : List Char) : forwardEntries fw host ≠ [] :=
  fun none => forwardProtocols_ne_nil fw.protocol (List.map_eq_nil_iff.mp none)

theorem forwardEntries_injective (fw : Forward) : Function.Injective (forwardEntries fw) := by
  intro host host' same
  obtain ⟨p, rest, protocols⟩ := List.exists_cons_of_ne_nil (forwardProtocols_ne_nil fw.protocol)
  rw [forwardEntries, forwardEntries, protocols, List.map_cons, List.map_cons,
    List.cons.injEq, DesiredForward.mk.injEq] at same
  exact String.ofList_injective same.1.2.2.1

section

variable {mesh : Mesh} {alive : String → Bool} {fw : Forward} {dest : Node}

/-- The node that a forward is compiled toward. -/
def target (mesh : Mesh) (alive : String → Bool) (dest : Node) : Node :=
  ((standbyOf mesh alive dest).filter fun sb => sb.id ∉ conflictLosers mesh).getD dest

theorem target_of_standby {m : Node} (standby : standbyOf mesh alive dest = some m)
    (wins : m.id ∉ conflictLosers mesh) : target mesh alive dest = m := by
  rw [target, standby, Option.filter_some, if_pos (decide_eq_true wins), Option.getD_some]

theorem target_cases (mesh : Mesh) (alive : String → Bool) (dest : Node) :
    target mesh alive dest = dest ∨ ∃ m, standbyOf mesh alive dest = some m ∧
      m.id ∉ conflictLosers mesh ∧ target mesh alive dest = m := by
  cases standby : standbyOf mesh alive dest with
  | none => exact .inl (by rw [target, standby]; rfl)
  | some m =>
    by_cases lost : m.id ∈ conflictLosers mesh
    · rw [target, standby, Option.filter_some, if_neg (by simpa using lost)]
      exact .inl rfl
    · exact .inr ⟨m, rfl, lost, target_of_standby standby lost⟩

/-- When a forward follows: a usable destination has a host text; otherwise, where a member of the
cluster is usable, the destination is offline or disabled, and the first member that is online and
enabled has its address to itself. -/
def FirstHolds (mesh : Mesh) (alive : String → Bool) (dest : Node) : Prop :=
  (Usable mesh alive dest → ∃ host, hostFromAddress dest.address = some host) ∧
    (¬ Usable mesh alive dest → (∃ m, Rescues mesh alive dest m) →
      (dest.disabled = true ∨ alive dest.id = false) ∧
        ∃ m host, firstUp mesh alive dest.cluster = some m ∧ m.id ∉ conflictLosers mesh ∧
          hostFromAddress m.address = some host)

theorem target_of_usable (usable : Usable mesh alive dest) : target mesh alive dest = dest := by
  obtain same | ⟨m, standby, -⟩ := target_cases mesh alive dest
  · exact same
  · obtain ⟨⟨-, off | dead⟩, -⟩ := standbyOf_up standby
    · exact absurd (usable.1.symm.trans off) nofun
    · exact absurd (usable.2.1.symm.trans dead) nofun

theorem target_mem (listed : dest ∈ mesh.nodes) : target mesh alive dest ∈ mesh.nodes := by
  obtain same | ⟨m, standby, -, same⟩ := target_cases mesh alive dest
  · rwa [same]
  · rw [same]
    exact (firstUp_mem (standbyOf_up standby).2).1

theorem eq_of_sameHost {a b : Node} {host : List Char} (listedA : a ∈ mesh.nodes)
    (listedB : b ∈ mesh.nodes) (winsA : a.id ∉ conflictLosers mesh)
    (winsB : b.id ∉ conflictLosers mesh) (hostA : hostFromAddress a.address = some host)
    (hostB : hostFromAddress b.address = some host) : a = b := by
  obtain ⟨i, atI⟩ := List.getElem?_of_mem listedA
  obtain ⟨j, atJ⟩ := List.getElem?_of_mem listedB
  by_contra different
  have apart : i ≠ j := by
    rintro rfl
    exact different (Option.some.inj (atI.symm.trans atJ))
  rcases loser_of_sameHost atI atJ apart hostA hostB with lostA | lostB
  · exact winsA lostA
  · exact winsB lostB

/-- The entries of a compiled forward are in the config of the node that listens. -/
theorem infix_forwards {plan : Plan} {n : Node} {defaults : DesiredDefaults} {d : DesiredConfig}
    {entries : List DesiredForward} (listens : fw ∈ mesh.forwards)
    (node : mesh.findNode fw.nodeID = some n) (on : n.disabled = false)
    (compiled : compileDesiredWithPlan mesh plan fw.nodeID defaults = .ok d)
    (one : desiredForward mesh fw = .ok entries) : entries <:+: d.forwards := by
  obtain ⟨lists, made, forwards⟩ := forwards_compileDesiredWithPlan node on compiled
  rw [forwards]
  apply List.infix_of_mem_flatten
  exact Effect.mem_of_except_mapM one made
    (List.mem_filter.mpr ⟨listens, decide_eq_true rfl⟩)

section

variable (distinct : (mesh.nodes.map Node.id).Nodup) (named : ∀ n ∈ mesh.nodes, n.id ≠ "")
  (current : mesh.standby = clusterStandby mesh alive)
  (found : mesh.findNode fw.destNodeID = some dest)

include distinct named current found

theorem desiredForward_eq : desiredForward mesh fw = if (target mesh alive dest).disabled = true ∨
        (target mesh alive dest).id ∈ conflictLosers mesh then .ok []
    else match hostFromAddress (target mesh alive dest).address with
    | none => .error .emptyAddress
    | some host => .ok (forwardEntries fw host) := by
  have same : (mesh.findNode (mesh.standby.getD dest.id "")).filter (fun sb : Node =>
      ¬ (sb.disabled = true ∨ sb.id ∈ conflictLosers mesh)) =
        (standbyOf mesh alive dest).filter fun sb => sb.id ∉ conflictLosers mesh := by
    rw [findNode_standby distinct named current (List.mem_of_find?_eq_some found)]
    cases standby : standbyOf mesh alive dest with
    | none => rfl
    | some m =>
      obtain ⟨-, -, on, -⟩ := firstUp_mem (standbyOf_up standby).2
      simp only [Option.filter_some, on, Bool.false_eq_true, false_or]
  rw [desiredForward, found]
  simp only [same]
  rfl

/-- A forward is compiled toward a host exactly if the node it is sent to has that host. -/
theorem desiredForward_eq_entries {host : List Char} :
    desiredForward mesh fw = .ok (forwardEntries fw host) ↔
      (target mesh alive dest).disabled = false ∧
        (target mesh alive dest).id ∉ conflictLosers mesh ∧
          hostFromAddress (target mesh alive dest).address = some host := by
  rw [desiredForward_eq distinct named current found]
  split
  · next excluded =>
    constructor
    · intro none
      exact (forwardEntries_ne_nil fw host (Except.ok.inj none).symm).elim
    · rintro ⟨on, wins, -⟩
      rcases excluded with off | lost
      · exact absurd (on.symm.trans off) nofun
      · exact absurd lost wins
  · next kept =>
    rw [not_or, Bool.not_eq_true] at kept
    cases hosted : hostFromAddress (target mesh alive dest).address with
    | none => simp
    | some other =>
      constructor
      · intro same
        exact ⟨kept.1, kept.2, congrArg some (forwardEntries_injective fw (Except.ok.inj same))⟩
      · rintro ⟨-, -, same⟩
        rw [Option.some.inj same]

/-- **Forwards follow their cluster.** With the standbys of the current liveness, the forwards of
an enabled node go to a usable destination, or else to a usable member of its cluster, if and only
if the first member online and enabled is usable whenever it is needed. -/
theorem forward_follows_iff (order : RangeOrder Site) (defaults : DesiredDefaults) {n : Node}
    (listens : fw ∈ mesh.forwards) (node : mesh.findNode fw.nodeID = some n)
    (on : n.disabled = false) :
    Follows mesh alive order defaults fw dest ↔ FirstHolds mesh alive dest := by
  have sends : ∀ {m : Node}, SendsTo mesh order defaults fw m ↔
      ∃ host, hostFromAddress m.address = some host ∧
        desiredForward mesh fw = .ok (forwardEntries fw host) := by
    intro m
    constructor
    · rintro ⟨host, hosted, one, -⟩
      exact ⟨host, hosted, one⟩
    · rintro ⟨host, hosted, one⟩
      exact ⟨host, hosted, one, fun d compiled => infix_forwards listens node on compiled one⟩
  have entries := @desiredForward_eq_entries mesh alive fw dest distinct named current found
  have listed := List.mem_of_find?_eq_some found
  apply and_congr
  · apply forall_congr'
    intro usable
    rw [sends]
    apply exists_congr
    intro host
    rw [entries, target_of_usable usable]
    exact ⟨fun ⟨hosted, _⟩ => hosted, fun hosted => ⟨hosted, usable.1, usable.2.2, hosted⟩⟩
  · apply forall_congr'
    intro unusable
    apply forall_congr'
    rintro ⟨r, rescue, cluster, same, usable⟩
    constructor
    · rintro ⟨m, ⟨listedM, -, -, onM, upM, winsM⟩, sent⟩
      obtain ⟨host, hostM, one⟩ := sends.mp sent
      obtain ⟨goalOn, goalWins, goalHost⟩ := entries.mp one
      -- The target keeps its address and has the host of a usable member, so it is that member.
      have goal : target mesh alive dest = m :=
        eq_of_sameHost (target_mem listed) listedM goalWins winsM goalHost hostM
      obtain same | ⟨s, standby, wins, same⟩ := target_cases mesh alive dest
      · rw [same] at goal
        exact (unusable (goal ▸ ⟨onM, upM, winsM⟩)).elim
      · obtain ⟨⟨-, down⟩, first⟩ := standbyOf_up standby
        exact ⟨down, s, host, first, wins, same ▸ goalHost⟩
    · rintro ⟨down, m, host, first, wins, hosted⟩
      obtain ⟨listedM, sameM, onM, upM⟩ := firstUp_mem first
      have standby : standbyOf mesh alive dest = some m := by
        rw [standbyOf, if_pos ⟨cluster, down⟩, first]
      refine ⟨m, ⟨listedM, cluster, sameM, onM, upM, wins⟩, sends.mpr ⟨host, hosted, ?_⟩⟩
      rw [entries, target_of_standby standby wins]
      exact ⟨onM, wins, hosted⟩

end

end

/-! ## A cluster of three -/

/-- Every node but the first member is online. -/
def firstOffline (id : String) : Bool :=
  id != "00000000-0000-4000-8000-0000000000c1"

/-- A forward of a fourth node to the first member of a cluster of three. -/
def toFirst : Forward :=
  ⟨"00000000-0000-4000-8000-0000000000d1", "tcp", "0.0.0.0:8080",
    "00000000-0000-4000-8000-0000000000c1", "", 80⟩

/-- The member of the cluster with this id and address; its address changed in 2025. -/
def member (id address : String) : Node :=
  { Node.sample id address 0 "" [] with
    cluster := "c", addressChangedAt := changeTime }

/-- The mesh of the cluster and the listening node, which has the given address. -/
def threeMembers (listener : String) : Mesh :=
  let mesh := Mesh.sample [
    member "00000000-0000-4000-8000-0000000000c1" "10.1.0.21/24",
    member "00000000-0000-4000-8000-0000000000c2" "10.1.0.22/24",
    member "00000000-0000-4000-8000-0000000000c3" "10.1.0.23/24",
    .sample "00000000-0000-4000-8000-0000000000d1" listener 0 "" []] [] none
  { mesh with forwards := [toFirst], standby := clusterStandby mesh firstOffline }

/-- With an address of its own for every node the forward moves to the second member. -/
theorem threeMembers_follows : (threeMembers "10.1.0.24/24").standby =
      clusterStandby (threeMembers "10.1.0.24/24") firstOffline ∧
    Follows (threeMembers "10.1.0.24/24") firstOffline (.stored Site) ⟨"", "", ""⟩ toFirst
      (member "00000000-0000-4000-8000-0000000000c1" "10.1.0.21/24") := by
  refine ⟨rfl, (forward_follows_iff (by decide) (by decide) rfl (by decide +kernel)
    (.stored Site) ⟨"", "", ""⟩ (.head _)
    (n := .sample "00000000-0000-4000-8000-0000000000d1" "10.1.0.24/24" 0 "" [])
    (by decide +kernel) rfl).mpr ⟨fun _ => ⟨"10.1.0.21".toList, by decide +kernel⟩, fun _ _ => ?_⟩⟩
  exact ⟨.inr rfl, member "00000000-0000-4000-8000-0000000000c2" "10.1.0.22/24",
    "10.1.0.22".toList, by decide +kernel, by decide +kernel, by decide +kernel⟩

/-- **Only one member is looked at.** The listening node took the address of the second member. The
third is usable, but the forward goes to the first, which is offline. -/
theorem threeMembers_misdirected : (threeMembers "10.1.0.22/24").standby =
      clusterStandby (threeMembers "10.1.0.22/24") firstOffline ∧
    Rescues (threeMembers "10.1.0.22/24") firstOffline
      (member "00000000-0000-4000-8000-0000000000c1" "10.1.0.21/24")
      (member "00000000-0000-4000-8000-0000000000c3" "10.1.0.23/24") ∧
    desiredForward (threeMembers "10.1.0.22/24") toFirst =
      .ok [⟨"tcp", "0.0.0.0:8080", "10.1.0.21", "", 80⟩] ∧
    ¬ Follows (threeMembers "10.1.0.22/24") firstOffline (.stored Site) ⟨"", "", ""⟩ toFirst
      (member "00000000-0000-4000-8000-0000000000c1" "10.1.0.21/24") := by
  have rescue : Rescues (threeMembers "10.1.0.22/24") firstOffline
      (member "00000000-0000-4000-8000-0000000000c1" "10.1.0.21/24")
      (member "00000000-0000-4000-8000-0000000000c3" "10.1.0.23/24") :=
    ⟨.tail _ (.tail _ (.head _)), by decide, rfl, rfl, rfl, by decide +kernel⟩
  have sent : desiredForward (threeMembers "10.1.0.22/24") toFirst =
      .ok (forwardEntries toFirst "10.1.0.21".toList) := by decide +kernel
  refine ⟨rfl, rescue, by decide +kernel, fun ⟨_, follows⟩ => ?_⟩
  obtain ⟨m, ⟨listed, -, -, -, up, -⟩, host, hosted, one, -⟩ :=
    follows (fun usable => Bool.false_ne_true usable.2.1) ⟨_, rescue⟩
  obtain rfl := forwardEntries_injective toFirst (Except.ok.inj (sent.symm.trans one))
  -- No online node has the host of the first member.
  have elsewhere : ∀ m ∈ (threeMembers "10.1.0.22/24").nodes, firstOffline m.id = true →
      hostFromAddress m.address ≠ some "10.1.0.21".toList := by decide +kernel
  exact elsewhere m listed up hosted

end Core
