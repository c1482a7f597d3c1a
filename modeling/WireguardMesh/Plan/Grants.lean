import WireguardMesh.Plan.Peers

/-! # Which prefix a node carries on which peer

`Roster.Carries` lists what the passes over the allowed prefixes grant, with one
constructor for each kind of grant, and `allowed_iff_carries` says that these are the
allowed prefixes of the plan, whatever the orders of iteration. Everything a node carries is on a
peer it is connected to (`Roster.Carries.connected`).
-/

namespace Core

open GoText Net

variable {m z x pn t : PlanNode} {sub p : Prefix} {a b peer : String} {grant : Grant}

namespace Roster

variable (r : Roster)

/-! ## What is carried -/

/-- Whether a mother reaches another node directly. -/
def Direct (m z : PlanNode) : Prop :=
  r.gateway z.id m.subnet = m.id ∨ (r.isAttached z.id m.id = true ∧ m.exposed = true) ∨
    (z.subnet = m.subnet ∧ r.Dials z.id m.id)

/-- Which peer of a mother owns the host of another node: that node itself if it meshes with the
mother or reaches it directly, else a meshed mother that is its gateway. -/
def OwnedBy (m z : PlanNode) (peer : String) : Prop :=
  z.id ≠ m.id ∧
    ((z.mother = true ∧ z.subnet = m.subnet ∧ r.meshEdge m.id z.id = true ∧ peer = z.id) ∨
      (¬ (z.mother = true ∧ z.subnet = m.subnet) ∧
        ((r.Direct m z ∧ peer = z.id) ∨
          (¬ r.Direct m z ∧ r.gateway z.id m.subnet = peer ∧ r.meshEdge m.id peer = true))))

/-- The first node that brings a LAN route to a mother as its gateway. -/
def lanClaimant (m : PlanNode) (lan : Prefix) : Option PlanNode :=
  r.active.find? fun z => r.gateway z.id m.subnet = m.id ∧ lan ∈ r.lanRoutes z

/-- The mother a child is reached through inside its subnet: its gateway there, else its
first home. -/
def pinHome (t : PlanNode) : Option String :=
  if r.gateway t.id t.subnet ≠ "" then some (r.gateway t.id t.subnet) else (r.homes t).head?

/-- The gateway the two directions between children of different subnets share. -/
def crossVia (x y : PlanNode) : String :=
  pairVia x.id (r.gateway x.id y.subnet) y.id (r.gateway y.id x.subnet)

/-- What the nodes and the relay carry on their peers. -/
inductive Carries : String → String → Prefix → Prop
  /-- A mother carries the host of a node on its owner. -/
  | host {m z : PlanNode} {peer : String} (inM : m ∈ r.active) (mother : m.mother = true)
      (inZ : z ∈ r.active) (owned : r.OwnedBy m z peer) : Carries m.id peer z.host
  /-- A mother carries a LAN route on the first node that brings it. -/
  | lan {m z : PlanNode} {lan : Prefix} (inM : m ∈ r.active) (mother : m.mother = true)
      (claimed : r.lanClaimant m lan = some z) : Carries m.id z.id lan
  /-- A node carries a subnet on its gateway. -/
  | subnet {pn : PlanNode} {sub : Prefix} (member : pn ∈ r.active)
      (gated : r.gateway pn.id sub ≠ "") : Carries pn.id (r.gateway pn.id sub) sub
  /-- A child pins a child of its subnet that does not live under its gateway. -/
  | pin {x t : PlanNode} {via : String} (inX : x ∈ r.active)
      (gated : r.gateway x.id x.subnet ≠ "") (inT : t ∈ r.active) (child : t.mother = false)
      (close : t.subnet = x.subnet) (other : t.id ≠ x.id)
      (away : r.gateway x.id x.subnet ∉ r.homes t) (home : r.pinHome t = some via) :
      Carries x.id via t.host
  /-- A child carries its LAN routes on the gateway of its subnet. -/
  | lanHome {x : PlanNode} {lan : Prefix} (inX : x ∈ r.active)
      (gated : r.gateway x.id x.subnet ≠ "") (routed : lan ∈ r.lanRoutes x) :
      Carries x.id (r.gateway x.id x.subnet) lan
  /-- A child pins a child of another subnet that is reached through another gateway. -/
  | cross {x y : PlanNode} (inX : x ∈ r.active) (inY : y ∈ r.active) (childX : x.mother = false)
      (childY : y.mother = false) (apart : y.subnet ≠ x.subnet) (routed : r.crossVia x y ≠ "")
      (moved : r.crossVia x y ≠ r.gateway x.id y.subnet)
      (connected : r.Connected x.id (r.crossVia x y)) : Carries x.id (r.crossVia x y) y.host
  /-- The relay carries the hosts of its peers. -/
  | relay {pn : PlanNode} (member : pn ∈ r.active) (connected : r.Connected relayNodeID pn.id) :
      Carries relayNodeID pn.id pn.host
  /-- A generic link carries its addresses, or the host of its target. -/
  | link {source target : PlanNode} {l : Link} {p : Prefix}
      (linked : (source, target, l) ∈ r.generic)
      (carried : if l.allowedIPs ≠ [] then p ∈ routePrefixes l.allowedIPs else p = target.host) :
      Carries source.id target.id p
  /-- The target of a generic link carries the host of the source, unless it is a mother. -/
  | linkBack {source target : PlanNode} {l : Link} (linked : (source, target, l) ∈ r.generic)
      (child : target.mother = false) : Carries target.id source.id source.host
  /-- A node carries the hosts of the mothers among its peers. -/
  | warm {pn m : PlanNode} (member : pn ∈ r.active) (inM : m ∈ r.active)
      (mother : m.mother = true) (connected : r.Connected pn.id m.id) : Carries pn.id m.id m.host

variable {r}

theorem lanClaimant_eq_some {lan : Prefix} (claimed : r.lanClaimant m lan = some z) :
    z ∈ r.active ∧ r.gateway z.id m.subnet = m.id ∧ lan ∈ r.lanRoutes z := by
  have holds := List.find?_some claimed
  rw [decide_eq_true_eq] at holds
  exact ⟨List.mem_of_find?_eq_some claimed, holds⟩

/-! ## The gateway of a pair -/

theorem pairVia_comm {x y : String} (different : x ≠ y) (gx gy : String) :
    pairVia x gx y gy = pairVia y gy x gx := by
  by_cases emptyX : gx = ""
  · simp [pairVia, emptyX]
  by_cases emptyY : gy = ""
  · simp [pairVia, emptyY]
  rcases lt_or_gt_of_ne different with lower | higher
  · have notLower := lt_asymm lower
    unfold pairVia
    grind
  · have notLower := lt_asymm higher
    unfold pairVia
    grind

/-- The gateway of a pair is the gateway of one side, and the relay only when no side has a
mother. -/
theorem pairVia_cases (x gx y gy : String) : (pairVia x gx y gy = gx ∨ pairVia x gx y gy = gy) ∧
      (gx ≠ "" ∨ gy ≠ "" → pairVia x gx y gy ≠ "") ∧ (pairVia x gx y gy = relayNodeID →
        (gx = relayNodeID ∨ gx = "") ∧ (gy = relayNodeID ∨ gy = "")) := by
  have relayNamed : relayNodeID ≠ "" := by decide
  by_cases emptyX : gx = ""
  · simp only [pairVia, emptyX, true_or, ↓reduceIte, String.empty_append]
    grind
  by_cases emptyY : gy = ""
  · simp only [pairVia, emptyY, or_true, ↓reduceIte, String.append_empty]
    grind
  unfold pairVia
  grind

theorem crossVia_cases (x y : PlanNode) :
    r.crossVia x y = r.gateway x.id y.subnet ∨ r.crossVia x y = r.gateway y.id x.subnet :=
  (pairVia_cases x.id _ y.id _).1

theorem crossVia_comm {y : PlanNode} (different : x.id ≠ y.id) : r.crossVia x y = r.crossVia y x :=
  pairVia_comm different _ _

/-! ## Connections that always exist -/

section Connections

variable (wf : r.WellFormed)

include wf

theorem dials_gateway (member : pn ∈ r.active)
    (gated : r.gateway pn.id sub ≠ "") : r.Dials pn.id (r.gateway pn.id sub) := by
  obtain ⟨routed, candidate⟩ := gateway_mem wf member gated
  exact .candidate member routed candidate id

/-- A child with a gateway for its own subnet dials every dialable mother there. -/
theorem dials_mother
    (inX : x ∈ r.active) (gated : r.gateway x.id x.subnet ≠ "") (inM : m ∈ r.active)
    (mother : m.mother = true) (served : m.subnet = x.subnet) (exposed : m.exposed = true) :
    r.Dials x.id m.id :=
  .sameSubnet inX (not_mother_of_gateway wf inX gated) gated inM mother served exposed

theorem connected_of_meshEdge (edge : r.meshEdge a b = true) : r.Connected a b := by
  obtain ⟨pa, inA, pb, inB, rfl, rfl, different, _, _, exposed, _⟩ := meshEdge_cases wf edge
  have back : r.meshEdge pb.id pa.id = true := (meshEdge_symm _ _).trans edge
  rw [← exposed_of_mem wf inA, ← exposed_of_mem wf inB] at exposed
  rcases lt_or_gt_of_ne different with lower | higher
  · cases exposedB : r.exposed pb.id with
    | true => exact .inl (.mesh edge (.inl ⟨lower, exposedB⟩))
    | false => exact .inr (.mesh back (.inr ⟨lower, exposedB⟩))
  · cases exposedA : r.exposed pa.id with
    | true => exact .inr (.mesh back (.inl ⟨higher, exposedA⟩))
    | false => exact .inl (.mesh edge (.inr ⟨higher, exposedA⟩))

theorem Direct.connected (inM : m ∈ r.active) (inZ : z ∈ r.active) (direct : r.Direct m z) :
    r.Connected m.id z.id := by
  rcases direct with gate | ⟨attached, _⟩ | ⟨_, dials⟩
  · have gated : r.gateway z.id m.subnet ≠ "" := by
      rw [gate]
      exact (wf.named m inM).1
    have dials := dials_gateway wf inZ gated
    rw [gate] at dials
    exact .inr dials
  · exact .inr (.attached attached)
  · exact .inr dials

theorem OwnedBy.connected (inM : m ∈ r.active) (inZ : z ∈ r.active) (owned : r.OwnedBy m z peer) :
    r.Connected m.id peer := by
  obtain ⟨_, ⟨_, _, edge, rfl⟩ | ⟨_, ⟨direct, rfl⟩ | ⟨_, _, edge⟩⟩⟩ := owned
  · exact connected_of_meshEdge wf edge
  · exact direct.connected wf inM inZ
  · exact connected_of_meshEdge wf edge

/-- A child with a gateway for its own subnet is connected to the homes of the others. -/
theorem connected_home
    (inX : x ∈ r.active) (gated : r.gateway x.id x.subnet ≠ "") (inT : t ∈ r.active)
    (close : t.subnet = x.subnet) {h : String} (home : h ∈ r.homes t) : r.Connected x.id h := by
  obtain ⟨m, inM, mother, served, exposed, _, rfl⟩ := mem_homes wf inT home
  exact .inl (dials_mother wf inX gated inM mother (served.trans close) exposed)

theorem pinHome_mem (inT : t ∈ r.active) {via : String} (pinned : r.pinHome t = some via) :
    via ∈ r.homes t := by
  rw [pinHome] at pinned
  split at pinned
  · next gated =>
    cases pinned
    exact gateway_mem_homes wf inT gated
  · exact List.mem_of_mem_head? pinned

theorem Carries.connected (carries : r.Carries a b p) : r.Connected a b := by
  cases carries with
  | host inM mother inZ owned => exact owned.connected wf inM inZ
  | lan inM mother claimed =>
    obtain ⟨inZ, gate, _⟩ := lanClaimant_eq_some claimed
    exact Direct.connected wf inM inZ (.inl gate)
  | subnet member gated => exact .inl (dials_gateway wf member gated)
  | pin inX gated inT child close other away home =>
    exact connected_home wf inX gated inT close (pinHome_mem wf inT home)
  | lanHome inX gated routed => exact .inl (dials_gateway wf inX gated)
  | cross inX inY childX childY apart routed moved connected => exact connected
  | relay member connected => exact connected
  | link linked carried => exact .inl (.generic linked)
  | linkBack linked child => exact .inr (.generic linked)
  | warm member inM mother connected => exact connected

end Connections

/-! ## The passes -/

section Passes

variable (wf : r.WellFormed) (order : RangeOrder Site)

include wf

theorem hasPeer_resolved : hasPeer (r.resolved order) a b = true ↔ r.Connected a b :=
  (resolved_spec wf order).2.2 a b

theorem owner_eq_some : r.owner (r.intents order) m z = some peer ↔ r.OwnedBy m z peer := by
  have direct : (r.gateway z.id m.subnet = m.id ∨ (r.isAttached z.id m.id = true ∧
      m.exposed = true) ∨ (z.subnet = m.subnet ∧ (z.id, m.id) ∈ r.intents order)) ↔
        r.Direct m z := by
    rw [mem_intents order wf]
    rfl
  have noEdge : r.meshEdge m.id "" = false := by
    rw [Bool.eq_false_iff]
    intro edge
    obtain ⟨_, _, pb, inB, _, unnamed, _⟩ := meshEdge_cases wf edge
    exact (wf.named pb inB).1 unnamed
  rw [owner, OwnedBy]
  by_cases self : z.id = m.id
  · simp [self]
  rw [if_neg self]
  by_cases sibling : z.mother = true ∧ z.subnet = m.subnet
  · rw [if_pos sibling]
    by_cases edge : r.meshEdge m.id z.id = true
    · simp only [edge, ↓reduceIte, Option.some.injEq, ne_eq, self, not_false_eq_true, sibling,
        true_and, and_self, not_true_eq_false, false_and, or_false]
      exact eq_comm
    · simp [edge, sibling]
  · rw [if_neg sibling]
    by_cases reached : r.Direct m z
    · rw [if_pos (direct.mpr reached)]
      simp only [Option.some.injEq, ne_eq, self, not_false_eq_true, sibling, reached, true_and,
        not_true_eq_false, false_and, or_false]
      constructor
      · rintro rfl
        exact .inr rfl
      · rintro (⟨mother, close, _⟩ | rfl)
        · exact (sibling ⟨mother, close⟩).elim
        · rfl
    · rw [if_neg fun holds => reached (direct.mp holds)]
      constructor
      · intro found
        split at found
        · next edge =>
          cases found
          exact ⟨self, .inr ⟨sibling, .inr ⟨reached, rfl, edge.2⟩⟩⟩
        · cases found
      · rintro ⟨_, ⟨mother, close, _⟩ | ⟨_, ⟨holds, _⟩ | ⟨_, rfl, edge⟩⟩⟩
        · exact (sibling ⟨mother, close⟩).elim
        · exact (reached holds).elim
        · have gated : r.gateway z.id m.subnet ≠ "" := by
            intro none
            rw [none, noEdge] at edge
            cases edge
          rw [if_pos ⟨gated, edge⟩]

theorem OwnedBy.unique {first second : String}
    (owned : r.OwnedBy m z first) (owned' : r.OwnedBy m z second) : first = second := by
  have order : RangeOrder Site := .stored Site
  rw [← owner_eq_some wf order] at owned owned'
  exact Option.some.inj (owned.symm.trans owned')

theorem ownedBy_of_gateway (inM : m ∈ r.active) (inZ : z ∈ r.active)
    (gate : r.gateway z.id m.subnet = m.id) : r.OwnedBy m z peer ↔ peer = z.id := by
  obtain ⟨_, _, _, different⟩ := subnet_of_gateway wf inM inZ gate
  have outside : ¬ (z.mother = true ∧ z.subnet = m.subnet) := by
    rintro ⟨mother, close⟩
    rw [← close] at gate
    exact z.clash mother (not_mother_of_gateway wf inZ (by rw [gate]; exact (wf.named m inM).1))
  constructor
  · rintro ⟨_, ⟨mother, close, _⟩ | ⟨_, ⟨_, same⟩ | ⟨indirect, _⟩⟩⟩
    · exact (outside ⟨mother, close⟩).elim
    · exact same
    · exact (indirect (.inl gate)).elim
  · rintro rfl
    exact ⟨different.symm, .inr ⟨outside, .inl ⟨.inl gate, rfl⟩⟩⟩

omit wf

/-- Claiming the LAN routes of one node takes those that are still free. -/
theorem foldl_claimLan (id peer : String) (lans : List Prefix) (state : List Prefix × List Grant) :
    (∀ lan, lan ∈ (lans.foldl (claimLan id peer) state).1 ↔ lan ∈ state.1 ∨ lan ∈ lans) ∧
      ∀ grant, grant ∈ (lans.foldl (claimLan id peer) state).2 ↔
        grant ∈ state.2 ∨ ∃ lan ∈ lans, lan ∉ state.1 ∧ grant = (id, peer, lan) := by
  induction lans generalizing state with
  | nil =>
    simp
  | cons first lans ih =>
    rw [List.foldl_cons]
    obtain ⟨claimed, granted⟩ := ih (claimLan id peer state first)
    by_cases known : first ∈ state.1
    · have same : claimLan id peer state first = state := by rw [claimLan, if_pos known]
      simp only [same] at claimed granted ⊢
      refine ⟨fun lan => ?_, fun grant => ?_⟩
      · rw [claimed]
        grind
      · rw [granted]
        grind
    · have next : claimLan id peer state first =
          (state.1 ++ [first], state.2 ++ [(id, peer, first)]) := by rw [claimLan, if_neg known]
      simp only [next] at claimed granted ⊢
      refine ⟨fun lan => ?_, fun grant => ?_⟩
      · rw [claimed]
        grind
      · rw [granted]
        grind

/-- What a mother has claimed and granted after some of the nodes. -/
structure Claims (r : Roster) (m : PlanNode) (done : List PlanNode)
    (state : List Prefix × List Grant) : Prop where
  claimed : ∀ lan, lan ∈ state.1 ↔
    ∃ z ∈ done, r.gateway z.id m.subnet = m.id ∧ lan ∈ r.lanRoutes z
  granted : ∀ grant, grant ∈ state.2 ↔
    (∃ z ∈ done, ∃ peer, r.OwnedBy m z peer ∧ grant = (m.id, peer, z.host)) ∨
      ∃ lan z, (done.find? fun z => r.gateway z.id m.subnet = m.id ∧ lan ∈ r.lanRoutes z) = some z ∧
        grant = (m.id, z.id, lan)

theorem find?_concat {α : Type} (p : α → Bool) (list : List α) (last found : α) :
    (list ++ [last]).find? p = some found ↔
      list.find? p = some found ∨ ((∀ a ∈ list, p a = false) ∧ p last = true ∧ last = found) := by
  rw [List.find?_append, List.find?_singleton]
  cases search : list.find? p with
  | none =>
    have absent : ∀ a ∈ list, p a = false := fun a member =>
      Bool.eq_false_iff.mpr (List.find?_eq_none.mp search a member)
    rw [Option.none_or]
    split
    · next holds =>
      simp only [Option.some.injEq, reduceCtorEq, false_or]
      exact ⟨fun same => ⟨absent, holds, same⟩, fun facts => facts.2.2⟩
    · next fails => simp [fails]
  | some first =>
    have present : ¬ ∀ a ∈ list, p a = false := fun absent =>
      Bool.false_ne_true ((absent first (List.mem_of_find?_eq_some search)).symm.trans
        (List.find?_some search))
    simp [present]

include wf

theorem Claims.step (inM : m ∈ r.active) (inZ : z ∈ r.active) {done : List PlanNode}
    {state : List Prefix × List Grant} (claims : r.Claims m done state) : r.Claims m (done ++ [z])
      (r.ownerStep (r.intents order) (r.resolved order) m state z) := by
  rw [ownerStep]
  cases owned : r.owner (r.intents order) m z with
  | none =>
    have orphan (peer : String) : ¬ r.OwnedBy m z peer := by
      rw [← owner_eq_some wf order, owned]
      exact nofun
    have elsewhere : r.gateway z.id m.subnet ≠ m.id := fun gate =>
      orphan z.id ((ownedBy_of_gateway wf inM inZ gate).mpr rfl)
    refine ⟨fun lan => ?_, fun grant => ?_⟩
    · rw [claims.claimed]
      grind
    · rw [claims.granted]
      simp only [find?_concat, elsewhere, false_and, decide_false, Bool.false_eq_true, and_false,
        or_false]
      refine or_congr_left (exists_congr fun w => and_congr_left ?_)
      rintro ⟨peer, ownedW, _⟩
      rw [List.mem_append, List.mem_singleton]
      refine ⟨.inl, fun inside => inside.resolve_right ?_⟩
      rintro rfl
      exact orphan peer ownedW
  | some peer =>
    have ownedBy := (owner_eq_some wf order).mp owned
    have unique (other : String) : r.OwnedBy m z other ↔ other = peer := by
      rw [← owner_eq_some wf order, owned, Option.some.injEq]
      exact eq_comm
    have connected := (hasPeer_resolved wf order).mpr (ownedBy.connected wf inM inZ)
    dsimp only
    rw [if_neg (by rw [connected]; decide)]
    by_cases gate : r.gateway z.id m.subnet = m.id
    · obtain rfl := (ownedBy_of_gateway wf inM inZ gate).mp ownedBy
      rw [if_pos ⟨rfl, gate⟩]
      obtain ⟨claimed, granted⟩ := foldl_claimLan m.id z.id (r.lanRoutes z)
        (state.1, state.2 ++ [(m.id, z.id, z.host)])
      refine ⟨fun lan => ?_, fun grant => ?_⟩
      · rw [claimed, claims.claimed]
        grind
      · rw [granted, List.mem_append, claims.granted]
        simp only [find?_concat, claims.claimed]
        grind
    · rw [if_neg fun both => gate both.2]
      refine ⟨fun lan => ?_, fun grant => ?_⟩
      · rw [claims.claimed]
        grind
      · rw [List.mem_append, claims.granted]
        simp only [find?_concat, gate, false_and, decide_false, Bool.false_eq_true, and_false,
          or_false]
        grind

theorem mem_ownerGrants (inM : m ∈ r.active) :
    grant ∈ r.ownerGrants (r.intents order) (r.resolved order) m ↔ m.mother = true ∧
      ((∃ z ∈ r.active, ∃ peer, r.OwnedBy m z peer ∧ grant = (m.id, peer, z.host)) ∨
        ∃ lan z, r.lanClaimant m lan = some z ∧ grant = (m.id, z.id, lan)) := by
  have start : r.Claims m [] ([], []) := by
    constructor
    · simp
    · simp
  rw [ownerGrants]
  split
  · next mother =>
    rw [(Runs.foldl_rounds (r.Claims m) r.active (fun _ z _ _ whole claims =>
      claims.step wf order inM (whole ▸ by simp)) start).granted]
    simp only [mother, true_and]
    rfl
  · next child => simp [child]

theorem mem_keys_gwRow (member : pn ∈ r.active) :
    sub ∈ (r.gwRow pn).map Prod.fst ↔ r.gateway pn.id sub ≠ "" := by
  have keys : sub ∈ (r.gwRow pn).map Prod.fst ↔
      sub ∈ r.vpnRoutes pn ∧ r.candidates pn sub ≠ [] := by
    rw [gwRow, List.map_map]
    exact mem_keys_candRow
  rw [keys]
  constructor
  · rintro ⟨routed, several⟩
    exact gateway_ne_empty wf member routed several
  · intro gated
    obtain ⟨routed, candidate⟩ := gateway_mem wf member gated
    exact ⟨routed, List.ne_nil_of_mem candidate⟩

/-- Inside its subnet a child with a gateway reaches another child through `pinHome`. -/
theorem viaHome_eq (inX : x ∈ r.active) (gated : r.gateway x.id x.subnet ≠ "") (inT : t ∈ r.active)
    (close : t.subnet = x.subnet) : r.viaHome (r.resolved order) x.id t = r.pinHome t := by
  have reach {h : String} (home : h ∈ r.homes t) : hasPeer (r.resolved order) x.id h = true :=
    (hasPeer_resolved wf order).mpr (connected_home wf inX gated inT close home)
  rw [viaHome, pinHome]
  by_cases own : r.gateway t.id t.subnet = ""
  · have outside : r.gateway t.id t.subnet ∉ r.homes t := by
      intro home
      obtain ⟨m, inM, _, _, _, _, named⟩ := mem_homes wf inT home
      exact (wf.named m inM).1 (named.trans own)
    rw [if_neg fun both => outside both.1, if_neg fun other => other own]
    cases homes : r.homes t with
    | nil => rfl
    | cons h rest =>
      rw [List.find?_cons_of_pos (reach (by rw [homes]; exact .head _))]
      rfl
  · have home := gateway_mem_homes wf inT own
    rw [if_pos ⟨home, reach home⟩, if_pos own]

theorem carries_of_gatewayGrants
    (member : pn ∈ r.active) (granted : (a, b, p) ∈ r.gatewayGrants order (r.resolved order) pn) :
    r.Carries a b p := by
  rw [gatewayGrants, List.mem_flatMap] at granted
  obtain ⟨sub, present, granted⟩ := granted
  rw [mem_sortedCands, mem_keys_gwRow wf member] at present
  dsimp only at granted
  split at granted
  · cases granted
  · rcases List.mem_cons.mp granted with own | pinned
    · cases own
      exact .subnet member present
    · split at pinned
      · cases pinned
      · next home =>
        rw [not_or, Bool.not_eq_true, not_not] at home
        obtain ⟨child, rfl⟩ := home
        obtain ⟨t, kept, pin⟩ := List.mem_filterMap.mp pinned
        obtain ⟨inT, close⟩ := List.mem_filter.mp kept
        rw [decide_eq_true_eq] at close
        rw [sameSubnetPin] at pin
        split at pin
        · cases pin
        · next other =>
          rw [not_or] at other
          split at pin
          · next mother =>
            split at pin
            · next connected =>
              cases pin
              exact .warm member inT mother ((hasPeer_resolved wf order).mp connected)
            · cases pin
          · next childT =>
            split at pin
            · cases pin
            · next away =>
              rw [viaHome_eq wf order member present inT close,
                Option.map_eq_some_iff] at pin
              obtain ⟨via, home, same⟩ := pin
              cases same
              exact .pin member present inT (Bool.eq_false_iff.mpr childT) close other.1
                away home

theorem mem_gatewayGrants_of_subnet (member : pn ∈ r.active) (gated : r.gateway pn.id sub ≠ "") :
    (pn.id, r.gateway pn.id sub, sub) ∈ r.gatewayGrants order (r.resolved order) pn := by
  rw [gatewayGrants, List.mem_flatMap]
  refine ⟨sub, (mem_sortedCands order).mpr ((mem_keys_gwRow wf member).mpr gated), ?_⟩
  have connected := (hasPeer_resolved wf order).mpr (.inl (dials_gateway wf member gated))
  rw [if_neg (by rw [connected]; decide)]
  exact .head _

theorem mem_gatewayGrants_of_pin {via : String} (inX : x ∈ r.active)
    (gated : r.gateway x.id x.subnet ≠ "") (inT : t ∈ r.active) (child : t.mother = false)
    (close : t.subnet = x.subnet) (other : t.id ≠ x.id) (away : r.gateway x.id x.subnet ∉ r.homes t)
    (home : r.pinHome t = some via) :
    (x.id, via, t.host) ∈ r.gatewayGrants order (r.resolved order) x := by
  rw [gatewayGrants, List.mem_flatMap]
  refine ⟨x.subnet, (mem_sortedCands order).mpr ((mem_keys_gwRow wf inX).mpr gated), ?_⟩
  have connected := (hasPeer_resolved wf order).mpr (.inl (dials_gateway wf inX gated))
  have childX := not_mother_of_gateway wf inX gated
  have noGateway : t.id ≠ r.gateway x.id x.subnet := by
    obtain ⟨m, inM, mother, _, _, _, named⟩ := gateway_own wf inX gated
    exact fun same => wf.apart inM inT mother child (named.trans same.symm)
  rw [if_neg (by rw [connected]; decide), if_neg (by simp [childX])]
  refine .tail _ (List.mem_filterMap.mpr
    ⟨t, List.mem_filter.mpr ⟨inT, decide_eq_true close⟩, ?_⟩)
  rw [sameSubnetPin, if_neg (by rw [not_or]; exact ⟨other, noGateway⟩),
    if_neg (by rw [child]; decide), if_neg away, viaHome_eq wf order inX gated inT close, home]
  rfl

theorem mem_homeGrants (inX : x ∈ r.active) :
    grant ∈ r.homeGrants (r.resolved order) x ↔ r.gateway x.id x.subnet ≠ "" ∧
      ∃ lan ∈ r.lanRoutes x, grant = (x.id, r.gateway x.id x.subnet, lan) := by
  rw [homeGrants]
  by_cases gated : r.gateway x.id x.subnet = ""
  · simp [gated]
  · have connected := (hasPeer_resolved wf order).mpr (.inl (dials_gateway wf inX gated))
    rw [if_pos ⟨not_mother_of_gateway wf inX gated, gated, connected⟩, List.mem_map]
    simp only [ne_eq, gated, not_false_eq_true, true_and]
    exact exists_congr fun lan => and_congr_right fun _ => eq_comm

theorem mem_crossGrants : grant ∈ r.crossGrants order (r.resolved order) x ↔ x.mother = false ∧
      ∃ y ∈ r.active, y.mother = false ∧ y.subnet ≠ x.subnet ∧ r.crossVia x y ≠ "" ∧
        r.crossVia x y ≠ r.gateway x.id y.subnet ∧ r.Connected x.id (r.crossVia x y) ∧
        grant = (x.id, r.crossVia x y, y.host) := by
  have pinned (y : PlanNode) : r.crossPin (r.resolved order) x y = some grant ↔
      y.mother = false ∧ r.crossVia x y ≠ "" ∧ r.crossVia x y ≠ r.gateway x.id y.subnet ∧
        r.Connected x.id (r.crossVia x y) ∧ grant = (x.id, r.crossVia x y, y.host) := by
    rw [crossPin, ← hasPeer_resolved wf order]
    change (if y.mother = true then none else if r.crossVia x y = "" ∨
      r.crossVia x y = r.gateway x.id y.subnet then none
      else if hasPeer (r.resolved order) x.id (r.crossVia x y) = true
      then some (x.id, r.crossVia x y, y.host) else none) = some grant ↔ _
    grind
  rw [crossGrants]
  split
  · next mother =>
    simp [mother]
  · next child =>
    simp only [Bool.eq_false_iff.mpr child, true_and, List.mem_flatMap, List.mem_filter,
      List.mem_filterMap, decide_eq_true_eq, pinned, subnets, mem_sortedCands,
      GoMap.mem_keys_groupBy]
    constructor
    · rintro ⟨sub, ⟨_, apart⟩, y, ⟨inY, rfl⟩, childY, rest⟩
      exact ⟨y, inY, childY, apart, rest⟩
    · rintro ⟨y, inY, childY, apart, rest⟩
      exact ⟨y.subnet, ⟨⟨y, inY, rfl⟩, apart⟩, y, ⟨inY, rfl⟩, childY, rest⟩

theorem hostOf_of_mem (member : pn ∈ r.active) : r.hostOf pn.id = pn.host := by
  rw [hostOf, node?_of_mem wf member, Option.map_some, Option.getD_some]

theorem mem_of_connected_relay {id : String} (connected : r.Connected relayNodeID id) :
    ∃ pn ∈ r.active, pn.id = id ∧ r.Dials id relayNodeID := by
  rcases connected with dials | dials
  · obtain ⟨pn, member, named⟩ := (dials.ends wf).1
    exact ((wf.named pn member).2 named).elim
  · obtain ⟨pn, member, named⟩ := (dials.ends wf).1
    exact ⟨pn, member, named, dials⟩

theorem mem_relayGrants : grant ∈ r.relayGrants (r.resolved order) ↔
    ∃ pn ∈ r.active, r.Connected relayNodeID pn.id ∧ grant = (relayNodeID, pn.id, pn.host) := by
  rw [relayGrants, List.mem_map]
  constructor
  · rintro ⟨⟨node, pp⟩, kept, rfl⟩
    obtain ⟨inside, same⟩ := List.mem_filter.mp kept
    obtain rfl : node = relayNodeID := of_decide_eq_true same
    have connected := (hasPeer_resolved wf order).mp (hasPeer_iff.mpr ⟨pp, inside, rfl⟩)
    obtain ⟨pn, member, named, _⟩ := mem_of_connected_relay wf connected
    refine ⟨pn, member, named ▸ connected, ?_⟩
    rw [← named, hostOf_of_mem wf member]
  · rintro ⟨pn, member, connected, rfl⟩
    obtain ⟨pp, inside, same⟩ := hasPeer_iff.mp ((hasPeer_resolved wf order).mpr connected)
    refine ⟨(relayNodeID, pp), List.mem_filter.mpr ⟨inside, decide_eq_true rfl⟩, ?_⟩
    rw [same, hostOf_of_mem wf member]

theorem mem_keepWarmGrants : grant ∈ r.keepWarmGrants (r.resolved order) pn ↔
      ∃ m ∈ r.active, m.mother = true ∧ r.Connected pn.id m.id ∧ grant = (pn.id, m.id, m.host) := by
  rw [keepWarmGrants, List.mem_filterMap]
  constructor
  · rintro ⟨⟨node, pp⟩, kept, warm⟩
    obtain ⟨inside, same⟩ := List.mem_filter.mp kept
    obtain rfl : node = pn.id := of_decide_eq_true same
    obtain ⟨m, found, chosen⟩ := Option.bind_eq_some_iff.mp warm
    split at chosen
    · next mother =>
      cases chosen
      have named := id_of_node? wf found
      have connected := (hasPeer_resolved wf order).mp (hasPeer_iff.mpr ⟨pp, inside, rfl⟩)
      refine ⟨m, mem_of_node?_mother wf found mother, mother, ?_, ?_⟩
      · rw [named]
        exact connected
      · rw [named]
    · cases chosen
  · rintro ⟨m, inM, mother, connected, rfl⟩
    obtain ⟨pp, inside, same⟩ := hasPeer_iff.mp ((hasPeer_resolved wf order).mpr connected)
    refine ⟨(pn.id, pp), List.mem_filter.mpr ⟨inside, decide_eq_true rfl⟩, ?_⟩
    rw [same, node?_of_mem wf inM, Option.bind_some, if_pos mother]

omit wf in
theorem mem_genericGrants {source target : PlanNode} {l : Link} :
    grant ∈ genericGrants (source, target, l) ↔
      (∃ p, (if l.allowedIPs ≠ [] then p ∈ routePrefixes l.allowedIPs else p = target.host) ∧
        grant = (source.id, target.id, p)) ∨
      (target.mother = false ∧ grant = (target.id, source.id, source.host)) := by
  rw [genericGrants, List.mem_append]
  refine or_congr ?_ ?_
  · split
    · simp only [List.mem_map]
      exact exists_congr fun p => and_congr_right fun _ => eq_comm
    · simp
  · split
    · next child => simp [child]
    · next mother => simp [mother]

/-- **Grants.** The passes grant what `Carries` lists. -/
theorem mem_grants : (a, b, p) ∈ r.grants order (r.resolved order) ↔ r.Carries a b p := by
  simp only [grants, List.mem_append, List.mem_flatMap]
  constructor
  · rintro ((((⟨pn, member, (own | gateways) | home⟩ | ⟨x, inX, cross⟩) | relay) | ⟨⟨source, target,
      l⟩, linked, generic⟩) | ⟨pn, member, warm⟩)
    · obtain ⟨mother, ⟨z, inZ, peer, owned, same⟩ | ⟨lan, z, claimed, same⟩⟩ :=
        (mem_ownerGrants wf order member).mp own
      · cases same
        exact .host member mother inZ owned
      · cases same
        exact .lan member mother claimed
    · exact carries_of_gatewayGrants wf order member gateways
    · obtain ⟨gated, lan, routed, same⟩ := (mem_homeGrants wf order member).mp home
      cases same
      exact .lanHome member gated routed
    · obtain ⟨childX, y, inY, childY, apart, routed, moved, connected, same⟩ :=
        (mem_crossGrants wf order).mp cross
      cases same
      exact .cross inX inY childX childY apart routed moved connected
    · obtain ⟨pn, member, connected, same⟩ := (mem_relayGrants wf order).mp relay
      cases same
      exact .relay member connected
    · rcases mem_genericGrants.mp generic with ⟨p, carried, same⟩ | ⟨child, same⟩
      · cases same
        exact .link linked carried
      · cases same
        exact .linkBack linked child
    · obtain ⟨m, inM, mother, connected, same⟩ := (mem_keepWarmGrants wf order).mp warm
      cases same
      exact .warm member inM mother connected
  · intro carries
    cases carries with
    | @host m z _ inM mother inZ owned =>
      exact .inl (.inl (.inl (.inl ⟨m, inM, .inl (.inl ((mem_ownerGrants wf order
        inM).mpr ⟨mother, .inl ⟨z, inZ, _, owned, rfl⟩⟩))⟩)))
    | @lan m z lan inM mother claimed =>
      exact .inl (.inl (.inl (.inl ⟨m, inM, .inl (.inl ((mem_ownerGrants wf order
        inM).mpr ⟨mother, .inr ⟨_, z, claimed, rfl⟩⟩))⟩)))
    | @subnet pn sub member gated =>
      exact .inl (.inl (.inl (.inl ⟨pn, member, .inl (.inr
        (mem_gatewayGrants_of_subnet wf order member gated))⟩)))
    | @pin x t _ inX gated inT child close other away home =>
      exact .inl (.inl (.inl (.inl ⟨x, inX, .inl (.inr
        (mem_gatewayGrants_of_pin wf order inX gated inT child close other away home))⟩)))
    | @lanHome x lan inX gated routed =>
      exact .inl (.inl (.inl (.inl ⟨x, inX, .inr ((mem_homeGrants wf order inX).mpr
        ⟨gated, _, routed, rfl⟩)⟩)))
    | @cross x y inX inY childX childY apart routed moved connected =>
      exact .inl (.inl (.inl (.inr ⟨x, inX, (mem_crossGrants wf order).mpr
        ⟨childX, y, inY, childY, apart, routed, moved, connected, rfl⟩⟩)))
    | @relay pn member connected =>
      exact .inl (.inl (.inr ((mem_relayGrants wf order).mpr
        ⟨pn, member, connected, rfl⟩)))
    | @link source target l _ linked carried =>
      exact .inl (.inr ⟨_, linked, mem_genericGrants.mpr (.inl ⟨_, carried, rfl⟩)⟩)
    | @linkBack source target l linked child =>
      exact .inl (.inr ⟨_, linked, mem_genericGrants.mpr (.inr ⟨child, rfl⟩)⟩)
    | @warm pn m member inM mother connected =>
      exact .inr ⟨pn, member, (mem_keepWarmGrants wf order).mpr
        ⟨m, inM, mother, connected, rfl⟩⟩

end Passes

end Roster

/-- **What a plan allows.** The allowed prefixes of a plan are the valid ones that `Carries` lists,
for every choice of iteration orders. -/
theorem allowed_iff_carries {mesh : Mesh} (wf : mesh.WellFormed) (order : RangeOrder Site) :
    (planMesh order mesh).Allowed a b p ↔ mesh.roster.Carries a b p ∧ p.isValid = true := by
  rw [allowed_iff order wf, Mesh.grants, Roster.mem_grants wf.roster order]
  exact ⟨fun facts => facts.2, fun facts => ⟨facts.1.connected wf.roster, facts⟩⟩

end Core
