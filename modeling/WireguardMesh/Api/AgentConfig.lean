import Mathlib.Data.List.Infix
import WireguardMesh.Core.Compile
import WireguardMesh.Foundation.Text

/-! # Polling for a config

An agent without a session polls `/api/agent/config`, with the revision it has applied in the
header `If-None-Match`. `handleAgentConfig` looks for the digits of the current revision anywhere in
that header. So an agent that is ahead, because the Master's counter has restarted, may be told that
nothing has changed (`Api.notModified_iff`).
-/

namespace Api

open Core GoText

/-- A request, with the empty text for a header that is not there. -/
structure ConfigRequest where
  method : String
  authorization : String
  ifNoneMatch : String

/-- The answers of `handleAgentConfig`. -/
inductive ConfigReply
  | failed (status : Nat) (message : String)
  /-- 304 -/
  | notModified (etag : String)
  /-- 200 -/
  | config (etag : String) (desired : DesiredConfig)
deriving DecidableEq

def bearerToken (authorization : String) : String :=
  String.ofList ((cutPrefix authorization.toList "Bearer ".toList).getD [])

/-- `strings.Contains`. -/
def contains (s sub : String) : Bool :=
  decide (sub.toList <:+: s.toList)

/-- `fmt.Sprintf` with a quoted number. -/
def quoted (n : Int) : String :=
  "\"" ++ toString n ++ "\""

/-- `handleAgentConfig`, with the answers of `DesiredForToken`; `none` is `ErrUnauthorized`. -/
def handleAgentConfig (desiredForToken : String → Except (Option String) DesiredConfig)
    (r : ConfigRequest) : ConfigReply :=
  if r.method ≠ "GET" then .failed 405 "method not allowed"
  else if bearerToken r.authorization = "" then .failed 401 "missing bearer token"
  else
    match desiredForToken (bearerToken r.authorization) with
    | .error none => .failed 401 "unauthorized"
    | .error (some message) => .failed 400 message
    | .ok desired =>
      let etag := quoted desired.revision
      if r.ifNoneMatch ≠ "" ∧ contains r.ifNoneMatch (toString desired.revision) then
        .notModified etag
      else .config etag desired

/-- The request of `pollHTTP` with the applied revision, which is negative before the first one. -/
def pollRequest (key : String) (revision : Int) : ConfigRequest where
  method := "GET"
  authorization := "Bearer " ++ key
  ifNoneMatch := if revision ≥ 0 then quoted revision else ""

theorem bearerToken_pollRequest (key : String) (revision : Int) :
    bearerToken (pollRequest key revision).authorization = key := by
  rw [bearerToken, pollRequest, cutPrefix_eq_some.mpr (String.toList_append)]
  exact String.ofList_toList

/-- Quotes around a text add nothing that a text without quotes could start or end with. -/
theorem infix_quoted_iff {digits text : List Char} (some : digits ≠ []) (plain : '"' ∉ digits) :
    digits <:+: '"' :: (text ++ ['"']) ↔ digits <:+: text := by
  rw [List.infix_cons_iff, List.infix_concat_iff]
  constructor
  · rintro (front | back | found)
    · obtain ⟨c, rest, rfl⟩ := List.exists_cons_of_ne_nil some
      obtain ⟨rfl, _⟩ := List.cons_prefix_cons.mp front
      exact (plain (.head rest)).elim
    · rcases List.suffix_concat_iff.mp back with none | ⟨rest, rfl, _⟩
      · exact (some none).elim
      · exact (plain (List.mem_append_right rest (.head _))).elim
    · exact found
  · exact fun found => .inr (.inr found)

theorem toList_toString (n : Nat) : (toString (n : Int)).toList = Nat.toDigits 10 n := by
  change (toString n).toList = _
  rw [Nat.toString_eq_ofList_toDigits, String.toList_ofList]

theorem contains_quoted {applied current : Nat} :
    contains (quoted applied) (toString (current : Int)) = true ↔
      Nat.toDigits 10 current <:+: Nat.toDigits 10 applied := by
  have plain : '"' ∉ Nat.toDigits 10 current := fun member =>
    absurd (Nat.isDigit_of_mem_toDigits (by decide) (by decide) member) (by decide)
  rw [contains, decide_eq_true_iff, quoted, String.toList_append, String.toList_append,
    toList_toString, toList_toString]
  exact infix_quoted_iff Nat.toDigits_ne_nil plain

/-- The digits of a number are among those of a smaller one only if the two are equal. -/
theorem eq_of_infix_toDigits {applied current : Nat} (le : applied ≤ current)
    (found : Nat.toDigits 10 current <:+: Nat.toDigits 10 applied) : applied = current := by
  have fewer : (Nat.toDigits 10 applied).length ≤ (Nat.toDigits 10 current).length := by
    have some := List.length_pos_iff.mpr (Nat.toDigits_ne_nil (b := 10) (n := current))
    rw [Nat.length_toDigits_le_iff (by decide) some]
    exact le.trans_lt ((Nat.length_toDigits_le_iff (by decide) some).mp le_rfl)
  have same := found.eq_of_length (Nat.le_antisymm found.length_le fewer)
  rw [← Nat.ofDigitChars_ten_toDigits (n := applied), ← same, Nat.ofDigitChars_ten_toDigits]

/-- The answer to the poll of an agent with the given applied revision is 304. -/
def NotModified (desiredForToken : String → Except (Option String) DesiredConfig) (key : String)
    (applied : Int) : Prop :=
  ∃ etag, handleAgentConfig desiredForToken (pollRequest key applied) = .notModified etag

section

variable {desiredForToken : String → Except (Option String) DesiredConfig} {key : String}
  {desired : DesiredConfig} {current : Nat}

theorem notModified_iff_digits (given : key ≠ "") (known : desiredForToken key = .ok desired)
    (counted : desired.revision = current) (applied : Int) :
    NotModified desiredForToken key applied ↔
      0 ≤ applied ∧ Nat.toDigits 10 current <:+: Nat.toDigits 10 applied.toNat := by
  rw [NotModified, handleAgentConfig, bearerToken_pollRequest, if_neg (by simp [pollRequest]),
    if_neg given, known]
  dsimp only
  rw [counted]
  by_cases some : 0 ≤ applied
  · obtain ⟨n, rfl⟩ := Int.eq_ofNat_of_zero_le some
    have header : (pollRequest key n).ifNoneMatch = quoted n := by rw [pollRequest, if_pos some]
    have shown : quoted n ≠ "" := by simp [quoted]
    rw [header, Int.toNat_natCast, ← contains_quoted]
    split
    · next found => exact ⟨fun _ => ⟨some, found.2⟩, fun _ => ⟨_, rfl⟩⟩
    · next missing => exact ⟨nofun, fun found => (missing ⟨shown, found.2⟩).elim⟩
  · have header : (pollRequest key applied).ifNoneMatch = "" := by rw [pollRequest, if_neg some]
    rw [header, if_neg fun found => found.1 rfl]
    exact ⟨nofun, fun found => (some found.1).elim⟩

/-- **Not modified.** A polling agent is answered 304 exactly when it has applied the current
revision, unless the digits of that are among those of another one that it has applied; only an
agent that is ahead has such a one. -/
theorem notModified_iff (given : key ≠ "") (known : desiredForToken key = .ok desired)
    (counted : desired.revision = current) (applied : Int) :
    ((NotModified desiredForToken key applied ↔ applied = desired.revision) ↔
      (0 ≤ applied → Nat.toDigits 10 current <:+: Nat.toDigits 10 applied.toNat →
        applied = desired.revision)) ∧ (applied ≤ desired.revision →
      (NotModified desiredForToken key applied ↔ applied = desired.revision)) := by
  have self : applied = desired.revision →
      0 ≤ applied ∧ Nat.toDigits 10 current <:+: Nat.toDigits 10 applied.toNat := by
    intro same
    rw [same, counted]
    exact ⟨Int.natCast_nonneg current, List.infix_rfl⟩
  rw [notModified_iff_digits given known counted]
  refine ⟨⟨fun exactly some found => exactly.mp ⟨some, found⟩, fun only => ?_⟩, fun behind => ?_⟩
  · exact ⟨fun found => only found.1 found.2, self⟩
  · refine ⟨fun found => ?_, self⟩
    have same := eq_of_infix_toDigits (by omega) found.2
    omega

end

/-- The config of a revision, without peers. -/
def emptyConfig (revision : Int) : DesiredConfig :=
  ⟨revision, "", .other "", "", "", ⟨"", "", 0, 0⟩, false, "", false, [], []⟩

theorem nextRevision_modified :
    NotModified (fun _ => .ok (emptyConfig 13)) "token" 12 ↔ 12 = (emptyConfig 13).revision :=
  (@notModified_iff _ "token" (emptyConfig 13) 13 (by decide) rfl rfl 12).2 (by decide)

/-- A Master that lost its database is at revision 2, and tells an agent that had applied revision
12 that nothing has changed. -/
theorem restartedMaster_notModified :
    NotModified (fun _ => .ok (emptyConfig 2)) "token" 12 ∧ 12 ≠ (emptyConfig 2).revision :=
  ⟨⟨"\"2\"", by decide +kernel⟩, by decide⟩

end Api
