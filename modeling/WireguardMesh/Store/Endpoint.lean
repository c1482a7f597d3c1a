import WireguardMesh.Core.Models

/-! # Endpoints the Master accepts

An admin sets the endpoint of a node and the host of the relay as texts, which `normalizeEndpoint`
and `normalizeRelayHost` check. What a kept endpoint looks like is `Store.KeptEndpoint`; a kept
relay host is a literal address exactly when the admin wrote one
(`Store.normalizeRelayHost_eq_ok`).
-/

namespace Store

open Core GoText Net

/-- The errors of `normalizeEndpoint`. -/
inductive EndpointError
  /-- `endpoint must be host or host:port` -/
  | notHostPort
  /-- `endpoint host required` -/
  | hostRequired
  /-- `endpoint port must be 1-65535` -/
  | portRange
deriving DecidableEq

def normalizeEndpoint (s : String) : Except EndpointError String :=
  let s := trimSpace s.toList
  if s = [] then .ok ""
  else if containsAny s [' ', '/', '\t'] then .error .notHostPort
  else match splitHostPort s with
  | none => if ':' ∈ s ∧ parseAddr s = none then .error .notHostPort else .ok (String.ofList s)
  | some (host, port) =>
    if host = [] then .error .hostRequired
    else match atoi port with
    | none => .error .portRange
    | some p => if p < 1 ∨ p > 65535 then .error .portRange else .ok (String.ofList s)

/-- The errors of `normalizeRelayHost`. -/
inductive RelayHostError
  /-- `relayHost must be a public IP or hostname` -/
  | notPublic
  /-- `relayHost must be a public IP or hostname without a port` -/
  | notHost
deriving DecidableEq

def normalizeRelayHost (v : String) : Except RelayHostError String :=
  let v := trimSpace v.toList
  if v = [] then .ok ""
  else match parseAddr v with
  | some a =>
    let a := a.unmap
    if ¬ a.isGlobalUnicast ∨ a.isPrivate ∨ a.isMulticast ∨ a.isLoopback then .error .notPublic
    else .ok (String.ofList a.string)
  | none =>
    if containsAny v [':', '/', ' '] ∨ (String.ofList v).utf8ByteSize > 253 ∨
        v = relayEndpointHost.toList then .error .notHost
    else .ok (String.ofList v)

/-- `RelayConfig`: the relay as the store keeps it, with the host an admin pinned and the
public IPv4 address that was detected. -/
structure RelayConfig where
  port : UInt16
  privateKey : String
  publicKey : String
  host : String
  publicV4 : String
deriving DecidableEq

/-- `meshRelayLocked`: the relay for planning; none when it is off. -/
def meshRelay (rc : RelayConfig) : Option Relay :=
  if rc.port = 0 ∨ rc.publicKey = "" ∨ rc.privateKey = "" then none
  else
    let host := trimSpace rc.host.toList
    let host := if host = [] then trimSpace rc.publicV4.toList else host
    some ⟨rc.publicKey, rc.port, String.ofList host⟩

/-! ## Kept texts -/

/-- The endpoints that pass `normalizeEndpoint`: none, a host without port, or a host with
a port from 1 to 65535. -/
inductive KeptEndpoint : List Char → Prop
  | empty : KeptEndpoint []
  | bare {s : List Char} (alone : splitHostPort s = none)
      (literal : ':' ∈ s → (parseAddr s).isSome = true) : KeptEndpoint s
  | hostPort {s host port : List Char} {p : Int} (split : splitHostPort s = some (host, port))
      (number : atoi port = some p) (positive : 0 < p) (bound : p < 2 ^ 16) : KeptEndpoint s

theorem normalizeEndpoint_eq_ok {s kept : String} (accepted : normalizeEndpoint s = .ok kept) :
    KeptEndpoint kept.toList ∧ trimSpace kept.toList = kept.toList := by
  have whole {t : List Char} (shape : KeptEndpoint t) (trimmed : t = trimSpace s.toList) :
      KeptEndpoint (String.ofList t).toList ∧
        trimSpace (String.ofList t).toList = (String.ofList t).toList := by
    rw [String.toList_ofList]
    refine ⟨shape, ?_⟩
    rw [trimmed]
    exact trimFunc_trimFunc _ _
  unfold normalizeEndpoint at accepted
  dsimp only at accepted
  split at accepted
  · cases accepted
    exact ⟨.empty, rfl⟩
  · split at accepted
    · cases accepted
    · split at accepted
      · next alone =>
        split at accepted
        · cases accepted
        · next literal =>
          cases accepted
          refine whole (.bare alone fun colon => ?_) rfl
          rw [not_and] at literal
          exact Option.isSome_iff_ne_none.mpr (literal colon)
      · next host port split =>
        split at accepted
        · cases accepted
        · split at accepted
          · cases accepted
          · next p number =>
            split at accepted
            · cases accepted
            · next range =>
              cases accepted
              exact whole (.hostPort split number (by omega) (by omega)) rfl

theorem trimSpace_string4 (a : BitVec 32) : trimSpace (string4 a) = string4 a := by
  have kept {c : Char} (member : c ∈ string4 a) : isSpace c = false := by
    rcases mem_string4 member with digit | rfl
    · exact isSpace_of_isDigit digit
    · decide
  exact trimFunc_eq_self_iff.mpr ⟨fun c first => kept (List.mem_of_head? first),
    fun c last => kept (List.mem_of_getLast? last)⟩

theorem trimSpace_string {v : List Char} {addr : Addr} (trimmed : trimSpace v = v)
    (parsed : parseAddr v = some addr) : trimSpace addr.unmap.string = addr.unmap.string := by
  unfold parseAddr at parsed
  split at parsed
  · obtain ⟨a, _, rfl⟩ := Option.map_eq_some_iff.mp parsed
    exact trimSpace_string4 a
  · obtain ⟨bits, zone, rfl, suffix⟩ := parseIPv6_eq_some parsed
    rw [Addr.unmap]
    split
    · exact trimSpace_string4 _
    · next plain =>
      rw [Addr.string_of_not_is4In6 plain]
      have kept {c : Char} (member : c ∈ string6 bits) : isSpace c = false := by
        rcases mem_string6 member with digit | rfl
        · exact isSpace_of_hexValue digit
        · decide
      have some6 : string6 bits ≠ [] := List.ne_nil_of_mem (colon_mem_string6 bits)
      refine trimFunc_eq_self_iff.mpr ⟨fun c first => ?_, fun c last => ?_⟩
      · rw [List.head?_append_of_ne_nil _ some6] at first
        exact kept (List.mem_of_head? first)
      · rcases suffix with rfl | ⟨text, rfl⟩
        · rw [zoneSuffix, if_pos rfl, List.append_nil] at last
          exact kept (List.mem_of_getLast? last)
        · -- The zone ends the given text, which has no space at its end.
          by_cases none : zone = []
          · rw [zoneSuffix, if_pos none, List.append_nil] at last
            exact kept (List.mem_of_getLast? last)
          · rw [zoneSuffix, if_neg none, List.getLast?_append_of_ne_nil _ (List.cons_ne_nil _ _)]
              at last
            refine (trimFunc_eq_self_iff.mp trimmed).2 c ?_
            rw [List.getLast?_append_of_ne_nil _ (List.cons_ne_nil _ _)]
            exact last
  · cases parsed

theorem unmap_ne_zero {v : List Char} {addr : Addr} (parsed : parseAddr v = some addr) :
    addr.unmap ≠ .zero := by
  intro invalid
  cases addr with
  | zero => rcases parseAddr_family parsed with ⟨six, _⟩ | ⟨_, four, _⟩ <;> contradiction
  | v4 a => cases invalid
  | v6 bits zone =>
    rw [Addr.unmap] at invalid
    split at invalid <;> cases invalid

/-- A kept relay host is trimmed, not the placeholder, and a literal address exactly when the given
one is. -/
theorem normalizeRelayHost_eq_ok {v kept : String} (accepted : normalizeRelayHost v = .ok kept) :
    trimSpace kept.toList = kept.toList ∧ kept.toList ≠ relayEndpointHost.toList ∧
      (kept = "" ↔ trimSpace v.toList = []) ∧
      ((parseAddr kept.toList).isSome = true ↔ (parseAddr (trimSpace v.toList)).isSome = true) := by
  have trimmed : trimSpace (trimSpace v.toList) = trimSpace v.toList := trimFunc_trimFunc _ _
  unfold normalizeRelayHost at accepted
  dsimp only at accepted
  split at accepted
  · next empty =>
    cases accepted
    rw [empty]
    exact ⟨rfl, by decide, iff_of_true rfl rfl, .rfl⟩
  · next some =>
    split at accepted
    · next addr parsed =>
      split at accepted
      · cases accepted
      · cases accepted
        have back := parseAddr_string (unmap_ne_zero parsed)
        have literal : addr.unmap.string ≠ [] := by
          intro none
          rw [none] at back
          cases back
        rw [String.toList_ofList, back, parsed]
        refine ⟨trimSpace_string trimmed parsed, ?_, ?_, .rfl⟩
        · intro placeholder
          rw [placeholder] at back
          cases back
        · exact iff_of_false (fun none => literal (String.ofList_eq_empty_iff.mp none)) some
    · split at accepted
      · cases accepted
      · next host =>
        cases accepted
        rw [String.toList_ofList]
        refine ⟨trimmed, fun placeholder => host (.inr (.inr placeholder)), ?_, .rfl⟩
        exact iff_of_false (fun none => some (String.ofList_eq_empty_iff.mp none)) some

end Store
