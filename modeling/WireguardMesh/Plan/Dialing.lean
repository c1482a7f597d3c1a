import WireguardMesh.Core.Compile
import WireguardMesh.Plan.Tables

/-! # One dialer for each pair

Peering is symmetric, one of the two entries of a pair dials, and the relay's never does
(`peering_symmetric`). The config of a node lists its entries, and an entry carries an
endpoint when it dials and the other side has one, so at most one of the two configs of a
pair does. The two configs may come from plans with different orders of iteration.
-/

namespace Core

open GoText Net

def Plan.configEntry (plan : Plan) (mesh : Mesh) (a b : String) : Option DesiredPeer :=
  (peerOf plan.peers a b).bind fun pp =>
    if a = relayNodeID then plan.relayPeer pp else desiredPeer mesh pp

def Plan.configPeers (plan : Plan) (mesh : Mesh) (defaults : DesiredDefaults) (a : String) :
    Except CompileError (List DesiredPeer) :=
  if a = relayNodeID then .ok plan.relayPeers
  else (compileDesiredWithPlan mesh plan a defaults).map DesiredConfig.peers

/-- The endpoint at which a node or the relay is dialed, empty for none. -/
def Mesh.endpointOf (mesh : Mesh) (id : String) : String :=
  ((peerContact mesh id).map Prod.snd).getD ""

/-! ## Entries of a plan -/

theorem mem_peersFor {plan : Plan} {a : String} {pp : PlanPeer} :
    pp ∈ plan.peersFor a ↔ (a, pp) ∈ plan.peers := by
  rw [Plan.peersFor, List.mem_insertionSort, List.mem_map]
  constructor
  · rintro ⟨⟨node, peer⟩, kept, rfl⟩
    obtain ⟨member, same⟩ := List.mem_filter.mp kept
    obtain rfl : node = a := of_decide_eq_true same
    exact member
  · intro member
    exact ⟨_, List.mem_filter.mpr ⟨member, decide_eq_true rfl⟩, rfl⟩

section

variable {mesh : Mesh} (wf : mesh.WellFormed) (order : RangeOrder Site)

include wf

/-- The entry of a planned pair dials exactly on the side of the dialer. -/
theorem dial_iff {a b : String} {pp : PlanPeer}
    (found : peerOf (planMesh order mesh).peers a b = some pp) :
    (pp.dial = true ↔ mesh.roster.Dialer a b) ∧ (pp.dial = false ↔ mesh.roster.Dialer b a) ∧
      mesh.roster.Connected a b := by
  obtain ⟨_, entries, present⟩ := Roster.resolved_spec wf.roster order
  rw [peerOf_planMesh, Option.map_eq_some_iff] at found
  obtain ⟨base, search, rfl⟩ := found
  obtain ⟨member, rfl⟩ := mem_of_peerOf search
  have connected := (present a base.peerID).mp (hasPeer_iff.mpr ⟨base, member, rfl⟩)
  obtain ⟨_, dial, _⟩ := PlanPeer.foldl_allow_fields
    (grantsFor a base.peerID (mesh.grants order)) base
  rw [dial]
  refine ⟨?_, ?_, connected⟩
  all_goals
    rcases (entries _ member).sides with ⟨dialer, marked, _⟩ | ⟨dialer, marked, _⟩
    all_goals
      rw [marked]
  · exact ⟨fun _ => dialer, fun _ => rfl⟩
  · exact ⟨nofun, fun other => (dialer.asymm other).elim⟩
  · exact ⟨nofun, fun other => (dialer.asymm other).elim⟩
  · exact ⟨fun _ => dialer, fun _ => rfl⟩

theorem peerContact_of_connected {a b : String} (connected : mesh.roster.Connected a b) :
    ∃ pub, peerContact mesh b = some (pub, mesh.endpointOf b) := by
  have contact : ∃ pub ep, peerContact mesh b = some (pub, ep) := by
    have known : (∃ pn ∈ mesh.roster.active, pn.id = b) ∨
        (b = relayNodeID ∧ mesh.roster.relayOn = true) := by
      rcases connected with dials | dials
      · exact (dials.ends wf.roster).2.2
      · exact .inl (dials.ends wf.roster).1
    rw [peerContact]
    rcases known with ⟨pn, member, rfl⟩ | ⟨rfl, on⟩
    · rw [if_neg (wf.roster.named pn member).2, wf.findNode_of_mem member]
      exact ⟨_, _, rfl⟩
    · obtain ⟨pn, found⟩ := Option.isSome_iff_exists.mp on
      obtain ⟨relay, present, _⟩ := Option.bind_eq_some_iff.mp found
      rw [if_pos rfl, present]
      exact ⟨_, _, rfl⟩
  obtain ⟨pub, ep, found⟩ := contact
  refine ⟨pub, ?_⟩
  rw [Mesh.endpointOf, found]
  rfl

/-- The config entry of a planned pair: it carries the endpoint of the other side when it
dials. -/
theorem configEntry_of_peerOf {a b : String} {pp : PlanPeer}
    (found : peerOf (planMesh order mesh).peers a b = some pp) :
    ∃ entry, (planMesh order mesh).configEntry mesh a b = some entry ∧
      entry.endpoint = if pp.dial then mesh.endpointOf b else "" := by
  obtain ⟨dials, waits, connected⟩ := dial_iff wf order found
  obtain ⟨_, same⟩ := mem_of_peerOf found
  rw [Plan.configEntry, found, Option.bind_some]
  by_cases relay : a = relayNodeID
  · subst relay
    obtain ⟨pn, member, named, dialsRelay⟩ := Roster.mem_of_connected_relay wf.roster connected
    have passive : pp.dial = false := by
      rw [← Bool.not_eq_true, dials]
      rintro ⟨dialsOut, _⟩
      obtain ⟨node, inActive, relayNamed⟩ := (dialsOut.ends wf.roster).1
      exact (wf.roster.named node inActive).2 relayNamed
    have planned : (planMesh order mesh).roster.node? pp.peerID = some pn := by
      rw [same, ← named]
      exact Roster.node?_of_mem wf.roster member
    rw [if_pos rfl, Plan.relayPeer, planned, passive]
    exact ⟨_, rfl, rfl⟩
  · obtain ⟨pub, contact⟩ := peerContact_of_connected wf connected
    rw [if_neg relay, desiredPeer, same, contact]
    refine ⟨_, rfl, ?_⟩
    cases pp.dial with
    | false => simp
    | true =>
      by_cases none : mesh.endpointOf b = ""
      · simp [none]
      · simp [none]

theorem configPeers_eq {a b : String} (defaults : DesiredDefaults)
    (connected : mesh.roster.Connected a b) {peers : List DesiredPeer}
    (compiled : (planMesh order mesh).configPeers mesh defaults a = .ok peers) :
    peers = ((planMesh order mesh).peersFor a).filterMap fun pp =>
      (planMesh order mesh).configEntry mesh a pp.peerID := by
  have entry {pp : PlanPeer} (member : pp ∈ (planMesh order mesh).peersFor a) :
      (planMesh order mesh).configEntry mesh a pp.peerID =
        if a = relayNodeID then (planMesh order mesh).relayPeer pp else desiredPeer mesh pp := by
    rw [Plan.configEntry, peerOf_of_mem (keyed_planMesh wf order) (mem_peersFor.mp member),
      Option.bind_some]
  rw [List.filterMap_congr fun pp member => entry member]
  rw [Plan.configPeers] at compiled
  by_cases relay : a = relayNodeID
  · rw [if_pos relay] at compiled
    cases compiled
    subst relay
    simp only [↓reduceIte]
    rfl
  · rw [if_neg relay] at compiled
    simp only [relay, ↓reduceIte]
    obtain ⟨pn, member, named⟩ : ∃ pn ∈ mesh.roster.active, pn.id = a := by
      rcases connected with dials | dials
      · exact (dials.ends wf.roster).1
      · exact (dials.ends wf.roster).2.2.resolve_right fun same => relay same.1
    have enabled := (mem_activeNodes.mp member).2.1
    obtain ⟨d, config, rfl⟩ := Effect.except_map_eq_ok.mp compiled
    obtain ⟨n, found, peers⟩ := peers_compileDesiredWithPlan config
    rw [← named, wf.findNode_of_mem member] at found
    cases found
    rw [peers, if_neg (by rw [enabled]; decide)]

/-- **One dialer for each pair.** A node is a peer of another exactly when the other is a peer of
it. One of the two entries dials, and the relay's does not. Both configs list their entry; at most
one of the two has an endpoint, and one does when the dialed side has one. Of a mutual intent whose
ends are not both dialable the dialable one is dialed. -/
theorem peering_symmetric (first second : RangeOrder Site) (defaults : DesiredDefaults)
    (a b : String) :
    hasPeer (planMesh first mesh).peers a b = hasPeer (planMesh second mesh).peers b a ∧
      (∀ pa pb, peerOf (planMesh first mesh).peers a b = some pa →
        peerOf (planMesh second mesh).peers b a = some pb →
          pa.dial = !pb.dial ∧ (pa.dial = true → a ≠ relayNodeID) ∧
          ∃ da db, (planMesh first mesh).configEntry mesh a b = some da ∧
            (planMesh second mesh).configEntry mesh b a = some db ∧
            (∀ peers, (planMesh first mesh).configPeers mesh defaults a = .ok peers → da ∈ peers) ∧
            (∀ peers, (planMesh second mesh).configPeers mesh defaults b = .ok peers → db ∈ peers) ∧
            (da.endpoint = "" ∨ db.endpoint = "") ∧
            (mesh.endpointOf (if pa.dial then b else a) ≠ "" →
              Xor (da.endpoint ≠ "") (db.endpoint ≠ ""))) ∧
      ((a, b) ∈ mesh.roster.intents first → (b, a) ∈ mesh.roster.intents first →
        mesh.roster.exposed b = true → mesh.roster.exposed a = false →
          ∃ pa, peerOf (planMesh first mesh).peers a b = some pa ∧ pa.dial = true) := by
  have present (order : RangeOrder Site) (a b : String) :
      hasPeer (planMesh order mesh).peers a b = true ↔ mesh.roster.Connected a b := by
    rw [hasPeer_planMesh, Roster.hasPeer_resolved wf.roster]
  have listed (order : RangeOrder Site) {a b : String} {pp : PlanPeer} {entry : DesiredPeer}
      (found : peerOf (planMesh order mesh).peers a b = some pp)
      (config : (planMesh order mesh).configEntry mesh a b = some entry)
      (peers : List DesiredPeer)
      (compiled : (planMesh order mesh).configPeers mesh defaults a = .ok peers) :
      entry ∈ peers := by
    obtain ⟨member, same⟩ := mem_of_peerOf found
    rw [configPeers_eq wf order defaults (dial_iff wf order found).2.2 compiled, List.mem_filterMap]
    exact ⟨pp, mem_peersFor.mpr member, same ▸ config⟩
  refine ⟨?_, ?_, ?_⟩
  · rw [Bool.eq_iff_iff, present, present]
    exact ⟨Roster.Connected.symm, Roster.Connected.symm⟩
  · intro pa pb foundA foundB
    obtain ⟨dialsA, waitsA, connected⟩ := dial_iff wf first foundA
    obtain ⟨dialsB, waitsB, _⟩ := dial_iff wf second foundB
    have opposite : pa.dial = !pb.dial := by
      cases marked : pb.dial with
      | true => exact waitsA.mpr (dialsB.mp marked)
      | false => exact dialsA.mpr (waitsB.mp marked)
    obtain ⟨da, configA, endpointA⟩ := configEntry_of_peerOf wf first foundA
    obtain ⟨db, configB, endpointB⟩ := configEntry_of_peerOf wf second foundB
    refine ⟨opposite, ?_, da, db, configA, configB, listed first foundA configA,
      listed second foundB configB, ?_, ?_⟩
    · intro dials relay
      obtain ⟨pn, member, named⟩ := ((dialsA.mp dials).1.ends wf.roster).1
      exact (wf.roster.named pn member).2 (named.trans relay)
    · cases marked : pb.dial with
      | true =>
        rw [opposite, marked] at endpointA
        exact .inl endpointA
      | false =>
        rw [marked] at endpointB
        exact .inr endpointB
    · cases marked : pb.dial with
      | true =>
        simp only [opposite, marked, Bool.not_true, Bool.false_eq_true, ↓reduceIte]
          at endpointA endpointB ⊢
        rw [endpointA, endpointB]
        exact fun some => .inr ⟨some, not_not_intro rfl⟩
      | false =>
        simp only [opposite, marked, Bool.not_false, Bool.false_eq_true, ↓reduceIte]
          at endpointA endpointB ⊢
        rw [endpointA, endpointB]
        exact fun some => .inl ⟨some, not_not_intro rfl⟩
  · intro there back exposed hidden
    rw [Roster.mem_intents first wf.roster] at there back
    obtain ⟨pa, found⟩ := Option.isSome_iff_exists.mp ((present first a b).mpr (.inl there))
    exact ⟨pa, found, (dial_iff wf first found).1.mpr
      ⟨there, .inr (.inl ⟨exposed, hidden⟩)⟩⟩

end

/-- In a single family the child dials its mother, and only its config has an endpoint. -/
theorem oneHome_dialed : oneHome.WellFormed ∧ ∃ pa pb,
    peerOf (planMesh (.stored Site) oneHome).peers "00000000-0000-4000-8000-0000000000b1"
      "00000000-0000-4000-8000-0000000000a1" = some pa ∧
    peerOf (planMesh (.stored Site) oneHome).peers "00000000-0000-4000-8000-0000000000a1"
      "00000000-0000-4000-8000-0000000000b1" = some pb ∧ pa.dial = !pb.dial := by
  have wf : oneHome.WellFormed := by decide +kernel
  have both : (peerOf (planMesh (.stored Site) oneHome).peers
      "00000000-0000-4000-8000-0000000000b1" "00000000-0000-4000-8000-0000000000a1").isSome ∧
      (peerOf (planMesh (.stored Site) oneHome).peers
      "00000000-0000-4000-8000-0000000000a1" "00000000-0000-4000-8000-0000000000b1").isSome := by
    decide +kernel
  obtain ⟨pa, foundA⟩ := Option.isSome_iff_exists.mp both.1
  obtain ⟨pb, foundB⟩ := Option.isSome_iff_exists.mp both.2
  exact ⟨wf, pa, pb, foundA, foundB, ((peering_symmetric wf (.stored Site) (.stored Site)
    ⟨"", "", ""⟩ _ _).2.1 pa pb foundA foundB).1⟩

end Core
