import WireguardMesh.Core.Compile
import WireguardMesh.Plan.Tables
import WireguardMesh.Store.Endpoint
import WireguardMesh.Store.Validate

/-! # Endpoints from the admin to the bind

The endpoint of a peer passes four layers: the check when an admin sets it, the compilation of the
config, the agent's `resolveRelay`, and the bind's `ParseEndpoint`. The first two let any host name
through; the last one takes literal addresses only. `Agent.dialed_endpoint_applies_iff` says
which accepted texts arrive: those with a literal address and a port without sign.
-/

namespace Agent

open Core GoText Net Store

/-- `applier.resolveRelay` for one endpoint: the placeholder host becomes that of the Master URL,
or the endpoint is dropped if that is unknown. -/
def resolveEndpoint (masterHost endpoint : String) : String :=
  match cutPrefix endpoint.toList (relayEndpointHost.toList ++ [':']) with
  | none => endpoint
  | some port =>
    if masterHost = "" then "" else String.ofList (joinHostPort masterHost.toList port)

def resolveRelay (masterHost : String) (d : DesiredConfig) : DesiredConfig :=
  { d with peers := d.peers.map fun p =>
      { p with endpoint := resolveEndpoint masterHost p.endpoint } }

/-- `TCPBind.ParseEndpoint` and `StdNetBind.ParseEndpoint`. -/
def parseEndpoint (s : String) : Option (Addr × Nat) :=
  parseAddrPort s.toList

/-- Whether the endpoint line of a peer can be set: there is none, or the bind accepts its
value. -/
def EndpointApplies (endpoint : String) : Prop :=
  endpoint = "" ∨ (parseEndpoint endpoint).isSome = true

instance (endpoint : String) : Decidable (EndpointApplies endpoint) :=
  inferInstanceAs (Decidable (_ ∨ _))

/-! ## Which texts arrive -/

/-- A host and a port that arrive at the bind: a literal address, or the placeholder for the host
of the Master URL, and an unsigned port. -/
def HostFits (masterHost : String) (host port : List Char) : Prop :=
  if host = relayEndpointHost.toList then
    masterHost = "" ∨ ((parseAddr masterHost.toList).isSome = true ∧ port.head? ≠ some '+')
  else (parseAddr host).isSome = true ∧ port.head? ≠ some '+'

/-- A node whose endpoint arrives: none, a host that fits with a port, in brackets if it has
colons, or such a host alone on a node that listens. -/
def NodeFits (masterHost : String) (n : Node) : Prop :=
  match splitHostPort n.endpoint.toList with
  | some (host, port) =>
    HostFits masterHost host port ∧ (n.endpoint.toList.head? = some '[' ↔ ':' ∈ host)
  | none => n.endpoint = "" ∨ (0 < n.listenPort ∧
      HostFits masterHost (trim n.endpoint.toList ['[', ']']) (itoa n.listenPort.toNat))

/-- A relay whose endpoint arrives: the pinned host is a literal address, or there is none
and the public address is known or the Master URL has no host or a literal one. -/
def RelayFits (masterHost pin : String) (rc : RelayConfig) : Prop :=
  (parseAddr (trimSpace pin.toList)).isSome = true ∨ (trimSpace pin.toList = [] ∧
    (rc.publicV4 ≠ "" ∨ masterHost = "" ∨ (parseAddr masterHost.toList).isSome = true))

/-- A peer whose endpoint arrives. -/
def ContactFits (mesh : Mesh) (masterHost pin : String) (rc : RelayConfig) (id : String) : Prop :=
  match (if id = relayNodeID then mesh.relay else none) with
  | some _ => RelayFits masterHost pin rc
  | none => ∀ n, mesh.findNode id = some n → NodeFits masterHost n

/-- No text, or the dotted form of an IPv4 address, as the Master records public addresses. -/
def IsPublicV4 (text : String) : Prop :=
  text = "" ∨ ∃ a, text = String.ofList (string4 a)

/-- A mesh whose endpoints the Master accepted: every node endpoint and the pin of the
relay passed their checks. -/
structure AcceptedEndpoints (mesh : Mesh) (pin : String) (rc : RelayConfig) : Prop where
  nodes : ∀ n ∈ mesh.nodes, ∃ given, normalizeEndpoint given = .ok n.endpoint
  publicV4 : ∀ n ∈ mesh.nodes, IsPublicV4 n.publicV4
  relay : mesh.relay = meshRelay rc
  pinned : normalizeRelayHost pin = .ok rc.host
  relayV4 : IsPublicV4 rc.publicV4

/-! ## Joined texts -/

/-- A joined text starts with the placeholder only if its host is the placeholder. -/
theorem cutPrefix_joinHostPort {host port rest : List Char}
    (cut : cutPrefix (joinHostPort host port) (relayEndpointHost.toList ++ [':']) = some rest) :
    host = relayEndpointHost.toList ∧ rest = port := by
  rw [cutPrefix_eq_some, joinHostPort] at cut
  split at cut
  · cases (List.cons.inj cut).1
  · next plain =>
    rw [List.append_assoc, List.singleton_append] at cut
    have first : splitFirst ':' (host ++ ':' :: port) = some (host, port) :=
      splitFirst_eq_some.mpr ⟨rfl, plain⟩
    have second : splitFirst ':' (host ++ ':' :: port) = some (relayEndpointHost.toList, rest) :=
      splitFirst_eq_some.mpr ⟨cut, by decide⟩
    cases first.symm.trans second
    exact ⟨rfl, rfl⟩

theorem resolveEndpoint_joinHostPort (masterHost : String) (host port : List Char) :
    resolveEndpoint masterHost (String.ofList (joinHostPort host port)) =
      if host = relayEndpointHost.toList then
        if masterHost = "" then "" else String.ofList (joinHostPort masterHost.toList port)
      else String.ofList (joinHostPort host port) := by
  rw [resolveEndpoint, String.toList_ofList]
  cases cut : cutPrefix (joinHostPort host port) (relayEndpointHost.toList ++ [':']) with
  | some rest =>
    obtain ⟨rfl, rfl⟩ := cutPrefix_joinHostPort cut
    rw [if_pos rfl]
  | none =>
    have other : host ≠ relayEndpointHost.toList := by
      rintro rfl
      have found : cutPrefix (joinHostPort relayEndpointHost.toList port)
          (relayEndpointHost.toList ++ [':']) = some port := cutPrefix_eq_some.mpr rfl
      rw [found] at cut
      cases cut
    rw [if_neg other]

theorem joinHostPort_ne_nil (host port : List Char) : joinHostPort host port ≠ [] := by
  rw [joinHostPort]
  split <;> simp

theorem applies_joinHostPort {masterHost : String} {host port : List Char} (clean : ':' ∉ port)
    (number : (parseUint port 16).isSome = true ↔ port.head? ≠ some '+') :
    EndpointApplies (resolveEndpoint masterHost (String.ofList (joinHostPort host port))) ↔
      HostFits masterHost host port := by
  have applies (h : List Char) : EndpointApplies (String.ofList (joinHostPort h port)) ↔
      (parseAddr h).isSome = true ∧ port.head? ≠ some '+' := by
    have nonempty : String.ofList (joinHostPort h port) ≠ "" := fun none =>
      joinHostPort_ne_nil h port (String.ofList_eq_empty_iff.mp none)
    rw [EndpointApplies, or_iff_right nonempty, parseEndpoint, String.toList_ofList,
      parseAddrPort_joinHostPort clean, number]
  rw [resolveEndpoint_joinHostPort, HostFits]
  split
  · split
    · next none => exact iff_of_true (.inl rfl) (.inl none)
    · next known => rw [applies, or_iff_right known]
  · exact applies host

/-! ## The texts of nodes and of the relay -/

theorem colon_not_mem_itoa (n : Nat) : ':' ∉ itoa n :=
  not_mem_of_isDigit (itoa_all_isDigit n) (by decide)

theorem parseUint_itoa_port (port : UInt16) :
    (parseUint (itoa port.toNat) 16).isSome = true ↔ (itoa port.toNat).head? ≠ some '+' := by
  rw [parseUint_itoa port.toNat_lt]
  refine iff_of_true rfl fun sign => ?_
  exact not_mem_of_isDigit (itoa_all_isDigit _) (by decide) (List.mem_of_head? sign)

/-- A text that splits arrives if its host fits and its brackets are those of a literal. -/
theorem applies_of_split {masterHost : String} {s host port : List Char}
    (split : splitHostPort s = some (host, port))
    (number : (parseUint port 16).isSome = true ↔ port.head? ≠ some '+') :
    EndpointApplies (resolveEndpoint masterHost (String.ofList s)) ↔
      HostFits masterHost host port ∧ (s.head? = some '[' ↔ ':' ∈ host) := by
  have joined (same : s = joinHostPort host port) (brackets : s.head? = some '[' ↔ ':' ∈ host)
      (clean : ':' ∉ port) : EndpointApplies (resolveEndpoint masterHost (String.ofList s)) ↔
      HostFits masterHost host port ∧ (s.head? = some '[' ↔ ':' ∈ host) := by
    rw [and_iff_left brackets, same, applies_joinHostPort clean number]
  obtain ⟨clean, ⟨bracket, shape⟩ | ⟨bracket, shape, colon, _⟩⟩ := splitHostPort_eq_some split
  · by_cases colon : ':' ∈ host
    · exact joined (by rw [shape, joinHostPort, if_pos colon]) (iff_of_true bracket colon) clean
    · refine iff_of_false ?_ fun fits => colon (fits.2.mp bracket)
      -- In brackets without colons: not the placeholder, and no literal for the bind.
      have kept : resolveEndpoint masterHost (String.ofList s) = String.ofList s := by
        rw [resolveEndpoint, String.toList_ofList]
        cases cut : cutPrefix s (relayEndpointHost.toList ++ [':']) with
        | none => rfl
        | some rest =>
          rw [cutPrefix_eq_some.mp cut] at bracket
          cases bracket
      rw [kept, EndpointApplies, parseEndpoint, String.toList_ofList, shape,
        parseAddrPort_brackets clean]
      rintro (none | fits)
      · cases String.ofList_eq_empty_iff.mp none
      · exact colon fits.2.2
  · exact joined (by rw [shape, joinHostPort, if_neg colon]) (iff_of_false bracket colon) clean

theorem not_applies_of_bare {masterHost : String} {s : List Char} (some : s ≠ [])
    (literal : ':' ∈ s → (parseAddr s).isSome = true) :
    ¬ EndpointApplies (resolveEndpoint masterHost (String.ofList s)) := by
  have kept : resolveEndpoint masterHost (String.ofList s) = String.ofList s := by
    rw [resolveEndpoint, String.toList_ofList]
    cases cut : cutPrefix s (relayEndpointHost.toList ++ [':']) with
    | none => rfl
    | some rest =>
      have whole : s = '@' :: ("master:".toList ++ rest) := cutPrefix_eq_some.mp cut
      have colon : ':' ∈ s := by
        rw [whole]
        exact .tail _ (List.mem_append_left _ (by decide))
      have read := literal colon
      rw [whole, parseAddr_head (by decide) (by decide)] at read
      cases read
  rw [kept, EndpointApplies, parseEndpoint, String.toList_ofList]
  rintro (none | accepted)
  · exact some (String.ofList_eq_empty_iff.mp none)
  · obtain ⟨ip, port, v6, cut, _, address, family⟩ := parseAddrPort_isSome.mp accepted
    unfold splitAddrPort at cut
    split at cut
    · cases cut
    · next before last found =>
      obtain ⟨whole, _⟩ := splitLast_eq_some.mp found
      have read : (parseAddr s).isSome = true := literal (by
        rw [whole]
        exact List.mem_append_right _ (.head _))
      split at cut
      · cases cut
      · split at cut
        · next bracket =>
          cases before with
          | nil => cases bracket
          | cons c before =>
            rw [whole, Option.some.inj bracket, List.cons_append,
              parseAddr_head (by decide) (by decide)] at read
            cases read
        · cases cut
          obtain ⟨addr, parsed⟩ := Option.isSome_iff_exists.mp address
          have noColon : ':' ∉ ip := fun colon => Bool.false_ne_true (family.mpr colon)
          cases addr with
          | v4 a =>
            rw [whole, parseAddr_eq_v4.mp parsed, parseAddr_string4_colon] at read
            cases read
          | v6 bits zone =>
            rcases parseAddr_family parsed with ⟨_, _, colon⟩ | ⟨six, _⟩
            · exact noColon colon
            · cases six
          | zero =>
            rcases parseAddr_family parsed with ⟨six, _⟩ | ⟨_, four, _⟩
            · cases six
            · cases four

theorem resolveEndpoint_empty (masterHost : String) : resolveEndpoint masterHost "" = "" :=
  rfl

theorem applies_publicV4 (masterHost : String) (a : BitVec 32) (port : UInt16) :
    EndpointApplies (resolveEndpoint masterHost
      (String.ofList (joinHostPort (string4 a) (itoa port.toNat)))) := by
  have number := parseUint_itoa_port port
  rw [applies_joinHostPort (colon_not_mem_itoa _) number, HostFits]
  split
  · next placeholder =>
    have letter : 'm' ∈ string4 a := by
      rw [placeholder]
      decide
    exact (not_mem_string4 a (by decide) (by decide) letter).elim
  · rw [parseAddr_string4, ← number, parseUint_itoa port.toNat_lt]
    exact ⟨rfl, rfl⟩

theorem applies_node {masterHost : String} {n : Node} (kept : KeptEndpoint n.endpoint.toList)
    (trimmed : trimSpace n.endpoint.toList = n.endpoint.toList) (publicV4 : IsPublicV4 n.publicV4) :
    EndpointApplies (resolveEndpoint masterHost n.dialEndpoint) ↔ NodeFits masterHost n := by
  rw [Node.dialEndpoint, trimmed, NodeFits]
  by_cases none : n.endpoint = ""
  · have blank : n.endpoint.toList = [] := by rw [none, String.toList_empty]
    rw [blank]
    refine iff_of_true ?_ (.inl none)
    rw [if_neg (not_not_intro rfl)]
    split
    · rw [resolveEndpoint_empty]
      exact .inl rfl
    · next reachable =>
      rcases publicV4 with unknown | ⟨a, dotted⟩
      · exact (reachable (.inr unknown)).elim
      · rw [dotted, String.toList_ofList]
        exact applies_publicV4 masterHost a n.listenPort
  · have some : n.endpoint.toList ≠ [] := fun empty => none (String.toList_eq_nil_iff.mp empty)
    rw [if_pos some]
    generalize n.endpoint.toList = s at *
    cases kept with
    | empty => exact (some rfl).elim
    | bare alone literal =>
      rw [alone, or_iff_right none]
      by_cases silent : n.listenPort = 0
      · rw [if_pos (.inr silent), silent]
        exact iff_of_false (not_applies_of_bare some literal) fun fits => absurd fits.1 (by decide)
      · have listening : 0 < n.listenPort := UInt16.pos_iff_ne_zero.mpr silent
        rw [if_neg (by simp [silent]), applies_joinHostPort (colon_not_mem_itoa _)
          (parseUint_itoa_port _), and_iff_right listening]
    | hostPort split number positive bound =>
      rw [split, if_pos (.inl Option.isSome_some)]
      exact applies_of_split split (parseUint_of_atoi number positive bound)

/-- The relay is dialed at the pinned host, else at its public address, else at the
placeholder. -/
theorem endpoint_meshRelay {rc : RelayConfig} {r : Relay}
    (trimmed : trimSpace rc.host.toList = rc.host.toList) (publicV4 : IsPublicV4 rc.publicV4)
    (on : meshRelay rc = some r) : r.endpoint = String.ofList (joinHostPort
      (if rc.host ≠ "" then rc.host.toList
        else if rc.publicV4 ≠ "" then rc.publicV4.toList else relayEndpointHost.toList)
      (itoa rc.port.toNat)) := by
  have trimmed4 : trimSpace rc.publicV4.toList = rc.publicV4.toList := by
    rcases publicV4 with unknown | ⟨a, dotted⟩
    · rw [unknown]
      rfl
    · rw [dotted, String.toList_ofList, trimSpace_string4]
  rw [meshRelay] at on
  split at on
  · cases on
  · cases on
    rw [Relay.endpoint]
    rw [String.toList_ofList, trimmed, trimmed4]
    by_cases pin : rc.host = ""
    · by_cases unknown : rc.publicV4 = ""
      · simp [pin, unknown, trimSpace, trimFunc]
      · simp [pin, unknown, trimmed4]
    · simp [pin, trimmed]

theorem applies_relay {masterHost pin : String} {rc : RelayConfig} {r : Relay}
    (pinned : normalizeRelayHost pin = .ok rc.host) (publicV4 : IsPublicV4 rc.publicV4)
    (on : meshRelay rc = some r) :
    EndpointApplies (resolveEndpoint masterHost r.endpoint) ↔ RelayFits masterHost pin rc := by
  obtain ⟨trimmed, other, empty, literal⟩ := normalizeRelayHost_eq_ok pinned
  have number := parseUint_itoa_port rc.port
  have unsigned : (itoa rc.port.toNat).head? ≠ some '+' := by
    rw [← number, parseUint_itoa rc.port.toNat_lt]
    rfl
  rw [endpoint_meshRelay trimmed publicV4 on, RelayFits, ← literal, ← empty]
  by_cases pin : rc.host = ""
  · have noLiteral : ¬ (parseAddr rc.host.toList).isSome = true := by
      rw [pin]
      decide
    rw [if_neg (not_not_intro pin), or_iff_right noLiteral, and_iff_right pin]
    by_cases known : rc.publicV4 = ""
    · rw [if_neg (not_not_intro known), applies_joinHostPort (colon_not_mem_itoa _) number,
        HostFits, if_pos rfl, and_iff_left unsigned, or_iff_right (not_not_intro known)]
    · obtain ⟨a, dotted⟩ := publicV4.resolve_left known
      rw [if_pos known, dotted, String.toList_ofList, ← dotted]
      exact iff_of_true (applies_publicV4 masterHost a rc.port) (.inl known)
  · rw [if_pos pin, applies_joinHostPort (colon_not_mem_itoa _) number, HostFits, if_neg other,
      and_iff_left unsigned, or_iff_left fun bare => pin bare.1]

/-! ## Compiled configs -/

/-- **Endpoints that can be applied.** Every peer of an applied config is planned. It has no
endpoint unless it is dialed, and then the one that the Master accepted can be applied exactly when
it fits. -/
theorem dialed_endpoint_applies_iff {mesh : Mesh} {pin : String} {rc : RelayConfig}
    (accepted : AcceptedEndpoints mesh pin rc) {order : RangeOrder Site} {id : String}
    {defaults : DesiredDefaults} {d : DesiredConfig}
    (compiled : compileDesired order mesh id defaults = .ok d) (masterHost : String)
    {p : DesiredPeer} (member : p ∈ (resolveRelay masterHost d).peers) :
    ∃ pp ∈ (planMesh order mesh).peersFor id, ∃ q, desiredPeer mesh pp = some q ∧
      p = { q with endpoint := resolveEndpoint masterHost q.endpoint } ∧
      (pp.dial = false → p.endpoint = "") ∧
      (pp.dial = true →
        (EndpointApplies p.endpoint ↔ ContactFits mesh masterHost pin rc pp.peerID)) := by
  obtain ⟨q, inConfig, rfl⟩ := List.mem_map.mp member
  obtain ⟨n, _, peers⟩ := peers_compileDesiredWithPlan compiled
  rw [peers] at inConfig
  split at inConfig
  · cases inConfig
  · obtain ⟨pp, planned, built⟩ := List.mem_filterMap.mp inConfig
    refine ⟨pp, planned, q, built, rfl, fun passive => ?_, fun dials => ?_⟩
    · obtain ⟨⟨key, endpoint⟩, _, rfl⟩ := Option.map_eq_some_iff.mp built
      simp [passive, resolveEndpoint_empty]
    · obtain ⟨⟨key, endpoint⟩, contact, rfl⟩ := Option.map_eq_some_iff.mp built
      have same : (if pp.dial = true ∧ endpoint ≠ "" then endpoint else "") = endpoint := by
        by_cases none : endpoint = ""
        · simp [none]
        · simp [none, dials]
      dsimp only
      rw [same, ContactFits]
      rw [peerContact] at contact
      split
      · next relay found =>
        rw [found] at contact
        cases contact
        have on : meshRelay rc = some relay := by
          rw [← accepted.relay]
          split at found
          · exact found
          · cases found
        exact applies_relay accepted.pinned accepted.relayV4 on
      · next found =>
        rw [found] at contact
        obtain ⟨peer, search, shape⟩ := Option.map_eq_some_iff.mp contact
        cases shape
        have known : peer ∈ mesh.nodes := List.mem_of_find?_eq_some search
        obtain ⟨given, passed⟩ := accepted.nodes peer known
        obtain ⟨kept, trimmed⟩ := normalizeEndpoint_eq_ok passed
        rw [applies_node kept trimmed (accepted.publicV4 peer known), search]
        simp

def noDefaults : DesiredDefaults :=
  ⟨"", "", ""⟩

def noRelay : RelayConfig :=
  ⟨0, "", "", "", ""⟩

/-- The endpoints an agent applies from the config of a node; none if there is no config. -/
def appliedEndpoints (order : RangeOrder Site) (mesh : Mesh) (id masterHost : String) :
    List String :=
  match compileDesired order mesh id noDefaults with
  | .ok d => (resolveRelay masterHost d).peers.map DesiredPeer.endpoint
  | .error _ => []

theorem mem_appliedEndpoints {order : RangeOrder Site} {mesh : Mesh} {id masterHost ep : String}
    (member : ep ∈ appliedEndpoints order mesh id masterHost) :
    ∃ d, compileDesired order mesh id noDefaults = .ok d ∧
      ∃ p ∈ (resolveRelay masterHost d).peers, p.endpoint = ep := by
  rw [appliedEndpoints] at member
  split at member
  · next d compiled =>
    obtain ⟨p, inPeers, named⟩ := List.mem_map.mp member
    exact ⟨d, compiled, p, inPeers, named⟩
  · cases member

theorem acceptedEndpoints_of_nodes {mesh : Mesh} (relay : mesh.relay = none)
    (nodes : ∀ n ∈ mesh.nodes, normalizeEndpoint n.endpoint = .ok n.endpoint ∧ n.publicV4 = "") :
    AcceptedEndpoints mesh "" noRelay where
  nodes := fun n member => ⟨n.endpoint, (nodes n member).1⟩
  publicV4 := fun n member => .inl (nodes n member).2
  relay := relay
  pinned := by decide +kernel
  relayV4 := .inl rfl

/-- The mother of a single family has a literal endpoint, which its child applies. -/
theorem oneHome_endpoint_applies : ∃ d,
    compileDesired (.stored Site) oneHome "00000000-0000-4000-8000-0000000000b1" noDefaults =
      .ok d ∧ ∃ p ∈ (resolveRelay "" d).peers, p.endpoint = "192.0.2.1:51820" ∧
        EndpointApplies p.endpoint := by
  have accepted : AcceptedEndpoints oneHome "" noRelay :=
    acceptedEndpoints_of_nodes rfl (by decide +kernel)
  have peers : ∀ pp ∈ (planMesh (.stored Site) oneHome).peersFor
      "00000000-0000-4000-8000-0000000000b1",
      pp.dial = true ∧ pp.peerID = "00000000-0000-4000-8000-0000000000a1" := by decide +kernel
  have mother : oneHome.findNode "00000000-0000-4000-8000-0000000000a1" = some
      (.sample "00000000-0000-4000-8000-0000000000a1" "10.1.0.1/24" 51820 "192.0.2.1:51820"
        ["10.1.0.0/24"]) := by decide +kernel
  have split : splitHostPort "192.0.2.1:51820".toList =
      some ("192.0.2.1".toList, "51820".toList) := by decide +kernel
  have fits : ContactFits oneHome "" "" noRelay "00000000-0000-4000-8000-0000000000a1" := by
    intro n found
    cases mother.symm.trans found
    rw [NodeFits, Node.sample, split]
    exact ⟨⟨by decide +kernel, by decide⟩, by decide⟩
  obtain ⟨d, compiled, p, member, named⟩ := mem_appliedEndpoints (by decide +kernel :
    "192.0.2.1:51820" ∈ appliedEndpoints (.stored Site) oneHome
      "00000000-0000-4000-8000-0000000000b1" "")
  obtain ⟨pp, planned, _, _, _, _, applies⟩ := dialed_endpoint_applies_iff accepted compiled "" member
  obtain ⟨dials, target⟩ := peers pp planned
  exact ⟨d, compiled, p, member, named, (applies dials).mpr (target ▸ fits)⟩

/-- A mother with a host name as its endpoint, and a child of its subnet. -/
def namedMother : Mesh :=
  Mesh.sample [
    .sample "00000000-0000-4000-8000-0000000000a1" "10.1.0.1/24" 51820 "vpn.example.com:51820"
      ["10.1.0.0/24"],
    .sample "00000000-0000-4000-8000-0000000000b1" "10.1.0.11/24" 0 "" ["10.1.0.0/24"]]
    [⟨"00000000-0000-4000-8000-0000000000b1", "00000000-0000-4000-8000-0000000000a1", [], 0⟩] none

/-- The Master accepts the host name and puts it into the child's config, where no bind
accepts it. -/
theorem namedMother_not_applied : Store.validateMesh namedMother = .ok () ∧
    AcceptedEndpoints namedMother "" noRelay ∧ ∀ order : RangeOrder Site, ∃ d,
      compileDesired order namedMother "00000000-0000-4000-8000-0000000000b1" noDefaults = .ok d ∧
        ∃ p ∈ (resolveRelay "198.51.100.1" d).peers, p.endpoint = "vpn.example.com:51820" ∧
          ¬ EndpointApplies p.endpoint := by
  refine ⟨by decide +kernel, acceptedEndpoints_of_nodes rfl (by decide +kernel), fun order => ?_⟩
  obtain ⟨d, compiled, p, member, named⟩ := mem_appliedEndpoints (by decide +kernel :
    "vpn.example.com:51820" ∈ appliedEndpoints (.stored Site) namedMother
      "00000000-0000-4000-8000-0000000000b1" "198.51.100.1")
  rw [compileDesired, planMesh_order _ order (.stored Site)]
  refine ⟨d, compiled, p, member, named, ?_⟩
  rw [named]
  decide +kernel

end Agent
