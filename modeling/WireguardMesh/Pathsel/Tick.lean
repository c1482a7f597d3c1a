import Mathlib
import WireguardMesh.Pathsel.Choose
import WireguardMesh.Store.Loading
import WireguardMesh.Store.Operations

/-! # Path selection

`Tick` takes a snapshot of the mesh, plans it, chooses a gateway among the candidates of
every node and subnet, and stores the choices and the standbys of offline cluster members.
The plan's candidates do not depend on the choices of the last round (`candidates_congr`), so
after one tick the next one leaves the store as it is (`tick_tick`).

The choices are stored as JSON. Of `encoding/json` the development uses that the text of a map
depends on its entries only, and that a text reads back as the map it was made from
(`Codec.Lawful`).
-/

namespace Core

open Net

/-- `p.cands[id]` under the printed subnets. -/
def Roster.printedCands (r : Roster) (pn : PlanNode) : GoMap String (List String) :=
  (r.candRow pn).foldl (fun row entry => row.insert (String.ofList entry.1.string) entry.2) ∅

def Plan.candidates (plan : Plan) : Pathsel.Candidates :=
  (plan.roster.active.filter fun pn => plan.roster.candRow pn ≠ []).foldl
    (fun out pn => out.insert pn.id (plan.roster.printedCands pn)) ∅

/-- The first available member of each cluster. -/
def clusterUp (m : Mesh) (alive : String → Bool) : GoMap String String :=
  m.nodes.foldl (fun up n =>
    if n.cluster = "" ∨ n.disabled = true ∨ alive n.id = false ∨ n.cluster ∈ up then up
    else up.insert n.cluster n.id) ∅

def clusterStandby (m : Mesh) (alive : String → Bool) : GoMap String String :=
  m.nodes.foldl (fun out n =>
    let standby := (clusterUp m alive).getD n.cluster ""
    if n.cluster ≠ "" ∧ (n.disabled = true ∨ alive n.id = false) ∧ standby ≠ "" then
      out.insert n.id standby
    else out) ∅

def emptyMesh : Mesh :=
  ⟨0, [], [], [], ∅, none, ∅⟩

/-! ## Candidates -/

/-- Two meshes that differ in the revision, the forwards, the choices and the standbys. -/
structure Mesh.SameCards (m m' : Mesh) : Prop where
  nodes : m.nodes = m'.nodes
  links : m.links = m'.links
  relay : m.relay = m'.relay

theorem candRow_keyed (r : Roster) (paths : PathChoices) (pn : PlanNode) :
    (r.keyed paths).candRow pn.keyed = r.candRow pn := by
  simp only [Roster.candRow, Roster.vpnRoutes_keyed, Roster.candidates_keyed]

theorem candidates_keyed (order order' : RangeOrder Site) (mesh : Mesh) (paths : PathChoices) :
    (planMesh order (mesh.keyed paths)).candidates = (planMesh order' mesh).candidates := by
  change Plan.candidates ⟨(mesh.keyed paths).roster, _⟩ = Plan.candidates ⟨mesh.roster, _⟩
  rw [roster_keyed]
  simp only [Plan.candidates, Roster.printedCands]
  rw [show (mesh.roster.keyed paths).active = mesh.roster.active.map PlanNode.keyed from rfl,
    List.filter_map, List.foldl_map]
  simp only [Function.comp_def, candRow_keyed, PlanNode.keyed_id]

/-- **Candidates and choices.** The candidates depend on nodes, links and relay, and neither on the
present choices nor on the order of an iteration. -/
theorem candidates_congr (order order' : RangeOrder Site) {m m' : Mesh} (same : m.SameCards m') :
    (planMesh order m).candidates = (planMesh order' m').candidates := by
  have blanked : m.keyed ∅ = m'.keyed ∅ := by
    rw [Mesh.keyed, Mesh.keyed, same.nodes, same.links, same.relay]
  rw [← candidates_keyed order order m ∅, blanked, candidates_keyed order order']

theorem mother_of_candidate {order : RangeOrder Site} {mesh : Mesh} {node sub m : String}
    {list : List String} (listed : (planMesh order mesh).candidates.value? node sub = some list)
    (member : m ∈ list) (mother : m ≠ relayNodeID) :
    ∃ n ∈ mesh.nodes, n.id = m ∧ n.isMagnetParent = true := by
  obtain ⟨row, outer, inner⟩ := Option.bind_eq_some_iff.mp listed
  obtain ⟨pn, _, _, rfl⟩ := GoMap.exists_of_lookup_foldl_insert outer
  obtain ⟨⟨p, cands⟩, entry, _, rfl⟩ := GoMap.exists_of_lookup_foldl_insert inner
  obtain ⟨home, _, made⟩ := List.mem_map.mp (List.mem_filter.mp entry).1
  rw [Prod.mk.injEq] at made
  rw [← made.2, Roster.candidates, List.mem_append] at member
  rcases member with mothers | relay
  · have grouped : m ∈ (planMesh order mesh).roster.mothersIn.getD home [] := by
      split at mothers
      · exact (List.mem_filter.mp mothers).1
      · exact (List.mem_filter.mp (List.mem_filter.mp mothers).1).1
    rw [Roster.mothersIn, GoMap.getD_groupBy, List.mem_map] at grouped
    obtain ⟨pm, kept, rfl⟩ := grouped
    obtain ⟨active, isMother⟩ := List.mem_filter.mp (List.mem_filter.mp kept).1
    obtain ⟨n, inMesh, planned⟩ := List.mem_filterMap.mp active
    split at planned
    · cases planned
    · obtain ⟨prefixes, _, rfl⟩ := Option.map_eq_some_iff.mp planned
      exact ⟨n, inMesh, rfl, isMother⟩
  · split at relay
    · exact absurd (List.mem_singleton.mp relay) mother
    · cases relay

end Core

namespace Store

open Core Effect GoText

/-- `Store.Snapshot`: the empty mesh when the stored one cannot be loaded. -/
def snapshot (codec : Codec) : Operation Mesh := fun s =>
  match loadMeshLocked codec s with
  | .ok m s => .ok m s
  | .error _ s => .ok emptyMesh s

/-! ## Stored choices -/

/-- What is used of `encoding/json`: the text of a map depends on its entries only and reads back
as that map, an object's text is not blank, and no blank text is an object. -/
structure Codec.Lawful (codec : Codec) : Prop where
  sorted : ∀ {p q : PathChoices}, NestedMap.Same p q → codec.marshalPaths p = codec.marshalPaths q
  inverse : ∀ p, ∃ q, codec.unmarshalPaths (codec.marshalPaths p) = some q ∧ NestedMap.Same q p
  object : codec.unmarshalPaths emptyObject = some ∅
  blank : codec.unmarshalPaths "" = none
  standbyText : ∀ sb, trimSpace (codec.marshalStandby sb).toList ≠ []

/-- The text `SetPaths` writes. -/
def pathsText (codec : Codec) (p : PathChoices) : String :=
  if p.keys = [] then emptyObject else codec.marshalPaths p

/-- The text `SetStandby` writes. -/
def standbyText (codec : Codec) (sb : GoMap String String) : String :=
  if sb.keys = [] then emptyObject else codec.marshalStandby sb

/-- The text `SetPaths` compares with. -/
def State.pathsText (s : State) : String :=
  if s.pathsJSON = "" then emptyObject else s.pathsJSON

/-- The text `SetStandby` compares with. -/
def State.standbyText (s : State) : String :=
  if trimSpace s.standbyJSON.toList = [] then emptyObject else s.standbyJSON

theorem setPaths_eq (codec : Codec) (p : PathChoices) (s : State) :
    setPaths codec p s = if s.pathsText = pathsText codec p then .ok false s
      else .ok true { s with pathsJSON := pathsText codec p, revision := s.revision + 1 } := by
  change storeText s.pathsText (pathsText codec p) { s with pathsJSON := pathsText codec p } s = _
  rw [storeText]
  split <;> rfl

theorem setStandby_eq (codec : Codec) (sb : GoMap String String) (s : State) :
    setStandby codec sb s = if s.standbyText = standbyText codec sb then .ok false s
      else .ok true { s with standbyJSON := standbyText codec sb, revision := s.revision + 1 } := by
  change storeText s.standbyText (standbyText codec sb)
    { s with standbyJSON := standbyText codec sb } s = _
  rw [storeText]
  split <;> rfl

/-- What the two writes leave alone. -/
structure SameTables (s s' : State) : Prop where
  nodes : s.nodes = s'.nodes
  links : s.links = s'.links
  relay : s.relay = s'.relay
  settings : s.settings = s'.settings

theorem SameTables.settled {s s' : State} (same : SameTables s s') (settled : s.Settled) :
    s'.Settled := by
  rw [State.settled_iff] at settled ⊢
  rwa [← same.nodes, ← same.settings]

theorem SameTables.cards {s s' : State} (same : SameTables s s') (codec : Codec) :
    (s.mesh codec).SameCards (s'.mesh codec) :=
  ⟨same.nodes, same.links, congrArg meshRelay same.relay⟩

section

variable {codec : Codec} (lawful : codec.Lawful)

include lawful

theorem marshalPaths_ne_blank (p : PathChoices) : codec.marshalPaths p ≠ "" := by
  intro same
  obtain ⟨q, reads, _⟩ := lawful.inverse p
  rw [same, lawful.blank] at reads
  cases reads

theorem keys_of_marshalPaths {p : PathChoices} (same : codec.marshalPaths p = emptyObject) :
    p.keys = [] := by
  obtain ⟨q, reads, equal⟩ := lawful.inverse p
  rw [same, lawful.object, Option.some.injEq] at reads
  subst reads
  apply List.eq_nil_iff_forall_not_mem.mpr
  intro a inside
  exact AList.notMem_empty a ((equal.keys a).mpr (AList.mem_keys.mpr inside))

theorem pathsText_congr {p q : PathChoices} (same : NestedMap.Same p q) :
    pathsText codec p = pathsText codec q := by
  have empty : p.keys = [] ↔ q.keys = [] := by
    simp only [List.eq_nil_iff_forall_not_mem, ← AList.mem_keys, same.keys]
  rw [pathsText, pathsText, lawful.sorted same]
  simp only [empty]

theorem pathsText_ne_blank (p : PathChoices) : pathsText codec p ≠ "" := by
  rw [pathsText]
  split
  · decide
  · exact marshalPaths_ne_blank lawful p

/-- **Writing the choices.** The stored text is then that of the choices, which read back the same,
unless there are none. -/
theorem exists_setPaths (p : PathChoices) (s : State) :
    ∃ changed s', setPaths codec p s = .ok changed s' ∧ SameTables s s' ∧
      s'.standbyJSON = s.standbyJSON ∧ s'.pathsText = pathsText codec p ∧
        (p.keys = [] ∨ NestedMap.Same (pathsLocked codec s') p) := by
  -- A stored text of choices is the JSON text itself.
  have reads {s : State} (stored : s.pathsText = pathsText codec p) :
      p.keys = [] ∨ NestedMap.Same (pathsLocked codec s) p := by
    by_cases none : p.keys = []
    · exact .inl none
    · rw [pathsText, if_neg none, State.pathsText] at stored
      split at stored
      · exact absurd (keys_of_marshalPaths lawful stored.symm) none
      · next given =>
        obtain ⟨q, back, same⟩ := lawful.inverse p
        rw [pathsLocked, if_neg given, stored, back]
        exact .inr same
  rw [setPaths_eq]
  split
  · next stored => exact ⟨false, s, rfl, ⟨rfl, rfl, rfl, rfl⟩, rfl, stored, reads stored⟩
  · have stored : ({ s with
        pathsJSON := pathsText codec p, revision := s.revision + 1 } : State).pathsText =
          pathsText codec p := if_neg (pathsText_ne_blank lawful p)
    exact ⟨true, _, rfl, ⟨rfl, rfl, rfl, rfl⟩, rfl, stored, reads stored⟩

theorem exists_setStandby (sb : GoMap String String) (s : State) :
    ∃ changed s', setStandby codec sb s = .ok changed s' ∧ SameTables s s' ∧
      s'.pathsJSON = s.pathsJSON ∧ s'.standbyText = standbyText codec sb := by
  rw [setStandby_eq]
  split
  · next stored => exact ⟨false, s, rfl, ⟨rfl, rfl, rfl, rfl⟩, rfl, stored⟩
  · refine ⟨true, _, rfl, ⟨rfl, rfl, rfl, rfl⟩, rfl, if_neg ?_⟩
    change trimSpace (standbyText codec sb).toList ≠ []
    rw [standbyText]
    split
    · decide
    · exact lawful.standbyText sb

end

end Store

namespace Pathsel

open Core Effect Store

/-! ## Ticks -/

/-- `stats.PeerRTT`; instants are counted in nanoseconds. -/
structure PeerRTT where
  millis : ℚ
  takenAt : Int

def rttFreshness : Int := 10 * 60 * 1000000000

/-- The smoothed times of every node, by the public key of the peer. -/
abbrev PeerRTTs := NestedMap String String PeerRTT

/-- The time a node measured toward the peer with a public key, unless it is stale. -/
def freshRTT (rtts : PeerRTTs) (now : Int) (a key : String) : Option ℚ :=
  (rtts.value? a key).bind fun r =>
    if r.millis ≤ 0 ∨ rttFreshness < now - r.takenAt then none else some r.millis

def pubOf (m : Mesh) : GoMap String String :=
  m.nodes.foldl (fun keys n => keys.insert n.id n.publicKey) ∅

/-- What a tick reads besides the store, and the orders of its iterations. -/
structure Round where
  rtts : PeerRTTs
  now : Int
  alive : Option (String → Bool)
  planOrder : RangeOrder Core.Site
  order : RangeOrder Site

/-- The liveness predicate of a selector, which may have none. -/
def Round.isAlive (round : Round) : String → Bool :=
  round.alive.getD fun _ => true

/-- The `rtt` of a tick. -/
def Round.rtt (round : Round) (m : Mesh) : RTTFunc := fun a b =>
  freshRTT round.rtts round.now a ((pubOf m).getD b "")

/-- The choices of a tick. -/
def Round.next (round : Round) (m : Mesh) : PathChoices :=
  choose round.order m.paths (planMesh round.planOrder m).candidates (round.rtt m) round.isAlive

/-- `Selector.Tick`: whether it pushes the new configs. -/
def tick (codec : Codec) (round : Round) : Operation Bool := do
  let m ← snapshot codec
  let changed ← setPaths codec (round.next m)
  let sbChanged ← setStandby codec (clusterStandby m round.isAlive)
  pure (changed || sbChanged)

/-- Two rounds with the same inputs: the same fresh times and the same live nodes. -/
structure Round.Same (round round' : Round) : Prop where
  rtt : ∀ a key, freshRTT round.rtts round.now a key = freshRTT round'.rtts round'.now a key
  alive : round.isAlive = round'.isAlive

theorem Round.Same.next {round round' : Round} (same : round.Same round') {m m' : Mesh}
    (cards : m.SameCards m')
    (stored : (round.next m).keys = [] ∨ NestedMap.Same m'.paths (round.next m)) :
    NestedMap.Same (round'.next m') (round.next m) := by
  have rtt : round'.rtt m' = round.rtt m := by
    funext a b
    rw [Round.rtt, Round.rtt, pubOf, pubOf, cards.nodes, same.rtt]
  have again : round'.next m' = choose round'.order m'.paths
      (planMesh round.planOrder m).candidates (round.rtt m) round.isAlive := by
    rw [Round.next, rtt, same.alive, candidates_congr round'.planOrder round.planOrder
      ⟨cards.nodes.symm, cards.links.symm, cards.relay.symm⟩]
  rw [again]
  rcases stored with none | made
  · -- Nothing was chosen, so there were no candidates.
    apply same_choose
    intro node sub list listed
    cases list with
    | nil => rfl
    | cons first rest =>
      obtain ⟨choice, picked⟩ := pick_isSome (score (round.rtt m) round.isAlive node)
        (m.paths.choice node sub) (List.cons_ne_nil first rest)
      have chosen : (node, sub, choice) ∈ picks round.order m.paths
          (planMesh round.planOrder m).candidates (round.rtt m) round.isAlive :=
        (mem_picks node sub choice).mpr ⟨_, listed, picked⟩
      have inside : node ∈ round.next m :=
        (NestedMap.mem_ofTriples _ node).mpr ⟨_, chosen, rfl⟩
      rw [AList.mem_keys, none] at inside
      cases inside
  · exact choose_choose round.order round'.order made

/-- **A second tick.** A tick always completes, and a next one with the same inputs leaves the
store as it is and pushes nothing. -/
theorem tick_tick {codec : Codec} (lawful : codec.Lawful) {round round' : Round}
    (same : round.Same round') (s : State) :
    ∃ pushed s', tick codec round s = .ok pushed s' ∧ tick codec round' s' = .ok false s' := by
  obtain ⟨s₀, loaded, ⟨settled, _, _⟩⟩ := exists_load codec s
  obtain ⟨changed, s₁, written, tables₁, standby₁, text₁, reads⟩ :=
    exists_setPaths lawful (round.next (s₀.mesh codec)) s₀
  obtain ⟨sbChanged, s₂, written₂, tables₂, paths₂, standby₂⟩ :=
    exists_setStandby lawful (clusterStandby (s₀.mesh codec) round.isAlive) s₁
  have tables : SameTables s₀ s₂ :=
    ⟨tables₁.nodes.trans tables₂.nodes, tables₁.links.trans tables₂.links,
      tables₁.relay.trans tables₂.relay, tables₁.settings.trans tables₂.settings⟩
  have snapped : snapshot codec s = .ok (s₀.mesh codec) s₀ := by
    rw [snapshot, loaded]
  have snapped₂ : snapshot codec s₂ = .ok (s₂.mesh codec) s₂ := by
    rw [snapshot, (tables.settled settled).load codec]
  refine ⟨changed || sbChanged, s₂, ?_, ?_⟩
  · exact bind_eq_ok.mpr ⟨_, _, snapped, bind_eq_ok.mpr ⟨_, _, written,
      bind_eq_ok.mpr ⟨_, _, written₂, pure_eq_ok.mpr ⟨rfl, rfl⟩⟩⟩⟩
  · have read : (s₂.mesh codec).paths = pathsLocked codec s₁ := by
      change pathsLocked codec s₂ = pathsLocked codec s₁
      rw [pathsLocked, pathsLocked, paths₂]
    rw [← read] at reads
    have text : s₂.pathsText = pathsText codec (round'.next (s₂.mesh codec)) := by
      rw [pathsText_congr lawful (same.next (tables.cards codec) reads), ← text₁,
        State.pathsText, State.pathsText, paths₂]
    have standby : clusterStandby (s₂.mesh codec) round'.isAlive =
        clusterStandby (s₀.mesh codec) round.isAlive := by
      rw [same.alive, clusterStandby, clusterStandby, clusterUp, clusterUp,
        (tables.cards codec).nodes]
    have unwritten : setPaths codec (round'.next (s₂.mesh codec)) s₂ = .ok false s₂ := by
      rw [setPaths_eq, if_pos text]
    have unwritten₂ : setStandby codec (clusterStandby (s₂.mesh codec) round'.isAlive) s₂ =
        .ok false s₂ := by
      rw [setStandby_eq, standby, if_pos standby₂]
    exact bind_eq_ok.mpr ⟨_, _, snapped₂, bind_eq_ok.mpr ⟨_, _, unwritten,
      bind_eq_ok.mpr ⟨_, _, unwritten₂, pure_eq_ok.mpr ⟨rfl, rfl⟩⟩⟩⟩

/-- **Path selection.** The candidates of the plan do not depend on the stored choices; every
choice is a sound one; choosing again changes nothing; and neither does a second tick. -/
theorem pathSelection {codec : Codec} (lawful : codec.Lawful) {rtt : RTTFunc}
    (measured : Measured rtt) (alive : String → Bool) (mesh : Mesh) (cur : PathChoices)
    (planOrder : RangeOrder Core.Site) (order : RangeOrder Site) :
    let cands := (planMesh planOrder mesh).candidates
    let next := choose order cur cands rtt alive
    (∀ paths planOrder',
      (planMesh planOrder' { mesh with paths := paths }).candidates = cands) ∧
    (∀ node sub list, cands.value? node sub = some list → list ≠ [] →
      (∀ m ∈ list, m ≠ relayNodeID → ∃ n ∈ mesh.nodes, n.id = m ∧ n.isMagnetParent = true) ∧
        ∃ gateway, NestedMap.value? next node sub = some gateway ∧ Sound alive list gateway) ∧
    (∀ order', NestedMap.Same (choose order' next cands rtt alive) next) ∧
    ∀ round round' : Round, round.Same round' → ∀ s, ∃ pushed s',
      tick codec round s = .ok pushed s' ∧ tick codec round' s' = .ok false s' := by
  refine ⟨?_, ?_, ?_, ?_⟩
  · intro paths planOrder'
    exact candidates_congr planOrder' planOrder ⟨rfl, rfl, rfl⟩
  · intro node sub list listed candidates
    refine ⟨fun m member mother => mother_of_candidate listed member mother, ?_⟩
    obtain ⟨gateway, picked⟩ := pick_isSome (score rtt alive node) (cur.choice node sub)
      candidates
    exact ⟨gateway, (value?_choose node sub gateway).mpr ⟨list, listed, picked⟩,
      sound_pick measured picked⟩
  · intro order'
    exact choose_choose order order' (.refl _)
  · intro round round' same s
    exact tick_tick lawful same s

/-! ## A lawful codec -/

theorem exists_numbering :
    ∃ number : PathChoices → ℕ, ∀ p q, number p = number q ↔ NestedMap.Same p q := by
  have chars : Countable Char := Function.Injective.countable (f := Char.toNat) fun a b same =>
    Char.ext (UInt32.toNat_inj.mp same)
  have texts : Countable String := Function.Injective.countable (f := String.toList)
    fun _ _ same => String.toList_inj.mp same
  have maps {V : Type} [Countable V] : Countable (GoMap String V) :=
    Function.Injective.countable (f := AList.entries) fun _ _ same => AList.ext same
  have nested : Countable PathChoices := maps
  let same : Setoid PathChoices :=
    ⟨NestedMap.Same, .refl, NestedMap.Same.symm, NestedMap.Same.trans⟩
  obtain ⟨number, injective⟩ := Countable.exists_injective_nat (Quotient same)
  refine ⟨fun p => number (Quotient.mk same p), fun p q => ?_⟩
  rw [injective.eq_iff, Quotient.eq]
  rfl

/-- The number of a map of choices, in strokes. -/
noncomputable def strokes (p : PathChoices) : String :=
  String.ofList (List.replicate (exists_numbering.choose p + 1) 'p')

theorem same_of_strokes {p q : PathChoices} (same : strokes p = strokes q) :
    NestedMap.Same p q := by
  apply (exists_numbering.choose_spec p q).mp
  have counted := congrArg List.length (String.ofList_injective same)
  rw [List.length_replicate, List.length_replicate] at counted
  exact Nat.succ.inj counted

theorem strokes_ne (p : PathChoices) {text : String} (other : text.toList.head? ≠ some 'p') :
    strokes p ≠ text := by
  rintro rfl
  rw [strokes, String.toList_ofList, List.replicate_succ] at other
  exact other rfl

/-- A codec that writes a map of choices as its number. -/
noncomputable def numberedCodec : Codec where
  marshalPaths := strokes
  unmarshalPaths text := open Classical in
    if text = emptyObject then some ∅
    else if known : ∃ p, strokes p = text then some known.choose else none
  marshalStandby _ := emptyObject
  unmarshalStandby _ := none

theorem numberedCodec_lawful : numberedCodec.Lawful where
  sorted {p q} same := by
    change strokes p = strokes q
    rw [strokes, strokes, (exists_numbering.choose_spec p q).mpr same]
  inverse p := by
    have known : ∃ q, strokes q = strokes p := ⟨p, rfl⟩
    refine ⟨known.choose, ?_, same_of_strokes known.choose_spec⟩
    simp only [numberedCodec]
    rw [if_neg (strokes_ne p (by decide)), dif_pos known]
  object := by
    simp only [numberedCodec, ↓reduceIte]
  blank := by
    have unknown : ¬ ∃ p, strokes p = "" := fun ⟨p, same⟩ => strokes_ne p (by decide) same
    simp only [numberedCodec]
    rw [if_neg (by decide), dif_neg unknown]
  standbyText _ := by
    change GoText.trimSpace emptyObject.toList ≠ []
    decide

/-- A card that routes into one subnet. -/
def sampleCard (id address : String) (port : UInt16) : Node where
  id := id
  role := .client
  publicKey := id ++ "-key"
  privateKey := ""
  address := address
  listenPort := port
  endpoint := ""
  mtu := 0
  token := id ++ "-token"
  interface := ""
  pollInterval := ""
  transport := ""
  udpMode := false
  disabled := false
  routes := ["10.10.0.0/24"]
  addressChangedAt := .zero
  cluster := ""
  publicV4 := "198.51.100.7"

/-- Two mothers and a child of one subnet. -/
def twoMothers : Mesh where
  revision := 1
  nodes := [sampleCard "east" "10.10.0.1/24" 25590, sampleCard "west" "10.10.0.2/24" 25590,
    sampleCard "card" "10.10.0.3/24" 0]
  links := []
  forwards := []
  paths := ∅
  relay := none
  standby := ∅

/-- The child measured both mothers. -/
def twoTimes : RTTFunc := fun a b =>
  if a = "card" ∧ b = "east" then some 40 else if a = "card" ∧ b = "west" then some 12 else none

theorem measured_twoTimes : Measured twoTimes := by
  intro a b r known
  rw [twoTimes] at known
  split at known
  · cases known
    norm_num
  · split at known
    · cases known
      norm_num
    · cases known

/-- The child has both mothers as candidates, and the theorem applies to it. -/
theorem twoMothers_selection :
    (planMesh (.stored Core.Site) twoMothers).candidates.value? "card" "10.10.0.0/24" =
        some ["east", "west"] ∧ (∃ gateway, NestedMap.value? (choose (.stored Site) ∅
          (planMesh (.stored Core.Site) twoMothers).candidates twoTimes fun _ => true)
            "card" "10.10.0.0/24" = some gateway ∧ Sound (fun _ => true) ["east", "west"] gateway) ∧
      ∀ round : Round, ∀ s, ∃ pushed s', tick numberedCodec round s = .ok pushed s' ∧
        tick numberedCodec round s' = .ok false s' := by
  have listed : (planMesh (.stored Core.Site) twoMothers).candidates.value? "card"
      "10.10.0.0/24" = some ["east", "west"] := by
    decide +kernel
  obtain ⟨_, sound, _, again⟩ := pathSelection numberedCodec_lawful measured_twoTimes
    (fun _ => true) twoMothers ∅ (.stored Core.Site) (.stored Site)
  exact ⟨listed, (sound _ _ _ listed (List.cons_ne_nil _ _)).2,
    fun round s => again round round ⟨fun _ _ => rfl, rfl⟩ s⟩

end Pathsel
