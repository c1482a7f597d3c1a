import WireguardMesh.Plan.Intents

/-! # The plan does not depend on iteration orders

`PlanMesh` ranges over maps in several places. Where the order could reach the result, it
sorts what it collected by an order that separates the keys; the remaining passes call
`addIntent` with one keepalive only, so the calls for a pair of nodes are the same in every
order. Together, all choices of orders give the same plan (`planMesh_order`).
-/

namespace Core

open GoText Net

/-! ## Sorted keys -/

/-- The order by printed form. -/
def printedLE (a b : Prefix) : Prop :=
  String.ofList a.string ≤ String.ofList b.string

instance : DecidableRel printedLE :=
  fun a b => inferInstanceAs (Decidable (String.ofList a.string ≤ String.ofList b.string))

instance : Std.Total printedLE :=
  ⟨fun a b => Std.Total.total (String.ofList a.string) (String.ofList b.string)⟩

instance : IsTrans Prefix printedLE :=
  ⟨fun _ _ _ first second => le_trans (α := String) first second⟩

theorem sortedCands_eq (first second : RangeOrder Site) {site : Site} {keys : List Prefix}
    (valid : ∀ p ∈ keys, p.isValid = true) :
    sortedCands first site keys = sortedCands second site keys := by
  apply RangeOrder.insertionSort_range_eq first second site site printedLE (List.Perm.refl keys)
  intro a inA b inB forward backward
  apply Prefix.string_injective (valid a inA) (valid b inB)
  exact String.ofList_injective (le_antisymm (α := String) forward backward)

theorem isValid_of_mem_routePrefixes {routes : List String} {p : Prefix}
    (member : p ∈ routePrefixes routes) : p.isValid = true := by
  obtain ⟨_, _, parsed⟩ := List.mem_filterMap.mp member
  exact isValid_of_parsePrefix parsed

theorem isValid_subnet {mesh : Mesh} {pn : PlanNode} (member : pn ∈ mesh.roster.active) :
    pn.subnet.isValid = true := by
  obtain ⟨a, _, _, covers, _⟩ :=
    hostPrefix_eq_some (hostPrefix_of_planNode (mem_activeNodes.mp member).2.2.2)
  exact Prefix.isValid_of_contains covers

namespace Roster

variable {r : Roster} (first second : RangeOrder Site)

theorem isValid_of_mem_candRow {pn : PlanNode} {p : Prefix}
    (member : p ∈ (r.candRow pn).map Prod.fst) : p.isValid = true := by
  rw [mem_keys_candRow] at member
  exact isValid_of_mem_routePrefixes (List.mem_of_mem_filter member.1)

theorem isValid_of_mem_gwRow {pn : PlanNode} {p : Prefix}
    (member : p ∈ (r.gwRow pn).map Prod.fst) : p.isValid = true := by
  rw [gwRow, List.map_map] at member
  exact isValid_of_mem_candRow member

/-! ## Intents -/

/-- The keepalives of the calls for one pair, in order. -/
def keepalives (k : Intent) (calls : List (Intent × Int)) : List Int :=
  (calls.filter fun call => call.1 = k).map Prod.snd

/-- The keepalive of an intent after one more call for it. -/
def mergeKeepalive (stored : Option Int) (ka : Int) : Option Int :=
  match stored with
  | none => some ka
  | some cur => if 0 < ka ∧ (cur = 0 ∨ ka < cur) then some ka else some cur

theorem lookup_addIntent (intents : GoMap Intent Int) (call : Intent × Int) (k : Intent) :
    (addIntent intents call).lookup k =
      if call.1 = k then mergeKeepalive (intents.lookup k) call.2 else intents.lookup k := by
  obtain ⟨key, ka⟩ := call
  by_cases same : key = k
  · subst same
    rw [if_pos rfl, addIntent]
    cases found : intents.lookup key with
    | none => exact AList.lookup_insert _
    | some cur =>
      dsimp only [mergeKeepalive]
      split
      · exact AList.lookup_insert _
      · exact found
  · rw [if_neg same, addIntent]
    split
    · exact AList.lookup_insert_ne (Ne.symm same)
    · split
      · exact AList.lookup_insert_ne (Ne.symm same)
      · rfl

theorem lookup_foldl_addIntent (calls : List (Intent × Int)) (intents : GoMap Intent Int)
    (k : Intent) : (calls.foldl addIntent intents).lookup k =
      (keepalives k calls).foldl mergeKeepalive (intents.lookup k) := by
  induction calls generalizing intents with
  | nil => rfl
  | cons call calls ih =>
    rw [List.foldl_cons, ih, lookup_addIntent, keepalives, keepalives, List.filter_cons]
    by_cases same : call.1 = k
    · simp [same]
    · simp [same]

theorem keepalives_append (k : Intent) (front back : List (Intent × Int)) :
    keepalives k (front ++ back) = keepalives k front ++ keepalives k back := by
  rw [keepalives, List.filter_append, List.map_append]
  rfl

theorem keepalives_eq_of_perm {left right : List (Intent × Int)} (perm : left.Perm right) (ka : Int)
    (constant : ∀ call ∈ left, call.2 = ka) (k : Intent) :
    keepalives k left = keepalives k right := by
  have same : (keepalives k left).Perm (keepalives k right) := (perm.filter _).map _
  have all : ∀ x ∈ keepalives k left, x = ka := by
    intro x member
    obtain ⟨call, kept, rfl⟩ := List.mem_map.mp member
    exact constant call (List.mem_of_mem_filter kept)
  rw [List.eq_replicate_of_mem all,
    List.eq_replicate_of_mem fun x member => all x (same.mem_iff.mpr member), same.length_eq]

theorem range_perm (site : Site) {α : Type} (keys : List α) :
    (first.range site keys).Perm (second.range site keys) :=
  (first.perm site keys).trans (second.perm site keys).symm

theorem keepalives_attachIntents (k : Intent) :
    keepalives k (r.attachIntents first) = keepalives k (r.attachIntents second) := by
  apply keepalives_eq_of_perm ((range_perm first second _ _).flatMap_right _) childKeepalive
  intro call member
  obtain ⟨child, _, attached⟩ := List.mem_flatMap.mp member
  obtain ⟨m, _, rfl⟩ := List.mem_map.mp attached
  rfl

theorem keepalive_meshDial {a b : String} {call : Intent × Int} (member : call ∈ r.meshDial a b) :
    call.2 = motherKeepalive := by
  rw [meshDial] at member
  split at member
  · dsimp only at member
    generalize (if b < a then (b, a) else (a, b)) = pair at member
    split at member <;> cases List.mem_singleton.mp member <;> rfl
  · cases member

theorem keepalives_meshIntents (site : Site) {K : Type} [DecidableEq K]
    (groups : GoMap K (List String)) (k : Intent) : keepalives k (r.meshIntents first site groups) =
      keepalives k (r.meshIntents second site groups) := by
  apply keepalives_eq_of_perm ((range_perm first second _ _).flatMap_right _) motherKeepalive
  intro call member
  obtain ⟨_, _, dialed⟩ := List.mem_flatMap.mp member
  obtain ⟨_, _, dialed⟩ := List.mem_flatMap.mp dialed
  exact keepalive_meshDial dialed

theorem candidateIntents_order (pn : PlanNode) :
    r.candidateIntents first pn = r.candidateIntents second pn := by
  rw [candidateIntents, candidateIntents,
    sortedCands_eq first second fun p => isValid_of_mem_candRow]

theorem relayServed_order (sub : Prefix) : r.relayServed first sub = r.relayServed second sub := by
  rw [relayServed, relayServed]
  congr 1
  funext pn
  exact (range_perm first second _ _).any_eq

theorem lookup_intents_order (k : Intent) :
    (r.intents first).lookup k = (r.intents second).lookup k := by
  have calls : keepalives k (r.intentCalls first) = keepalives k (r.intentCalls second) := by
    simp only [intentCalls, keepalives_append]
    rw [keepalives_attachIntents first second, keepalives_meshIntents first second,
      keepalives_meshIntents first second, relayIntents, relayIntents]
    simp only [candidateIntents_order first second, relayServed_order first second]
  rw [intents, intents, lookup_foldl_addIntent, lookup_foldl_addIntent, calls]

/-! ## Dialers -/

instance : Std.Total intentLE where
  total a b := by
    rcases lt_trichotomy a.1 b.1 with less | same | greater
    · exact .inl (.inl less)
    · exact (le_total a.2 b.2).imp (fun le => .inr ⟨same, le⟩) fun le => .inr ⟨same.symm, le⟩
    · exact .inr (.inl greater)

instance : IsTrans Intent intentLE where
  trans a b c forward onward := by
    rcases forward with less | ⟨same, le⟩
    · rcases onward with less' | ⟨same', _⟩
      · exact .inl (lt_trans less less')
      · exact .inl (same' ▸ less)
    · rcases onward with less' | ⟨same', le'⟩
      · exact .inl (same ▸ less')
      · exact .inr ⟨same.trans same', le_trans le le'⟩

theorem intentLE_antisymm {a b : Intent} (forward : intentLE a b) (backward : intentLE b a) :
    a = b := by
  rcases forward with less | ⟨same, le⟩
  · rcases backward with greater | ⟨same, _⟩
    · exact (lt_asymm less greater).elim
    · exact (lt_irrefl _ (same ▸ less)).elim
  · rcases backward with greater | ⟨_, ge⟩
    · exact (lt_irrefl _ (same ▸ greater)).elim
    · exact Prod.ext same (le_antisymm le ge)

theorem mem_intents_order (k : Intent) : k ∈ r.intents first ↔ k ∈ r.intents second := by
  rw [← AList.lookup_isSome, ← AList.lookup_isSome, lookup_intents_order first second]

theorem resolveStep_order : r.resolveStep (r.intents first) = r.resolveStep (r.intents second) := by
  funext peers k
  have oriented : r.orient (r.intents first) k = r.orient (r.intents second) k := by
    rw [orient, orient]
    simp only [mem_intents_order first second]
  rw [resolveStep, resolveStep, oriented]
  simp only [lookup_intents_order first second]

theorem resolved_order : r.resolved first = r.resolved second := by
  have keys : (r.intents first).keys.Perm (r.intents second).keys := by
    rw [List.perm_ext_iff_of_nodup (r.intents first).keys_nodup (r.intents second).keys_nodup]
    intro k
    rw [← AList.mem_keys, ← AList.mem_keys, mem_intents_order first second]
  have visited := RangeOrder.insertionSort_range_eq first second .intents .intents intentLE keys
    fun a _ b _ forward backward => intentLE_antisymm forward backward
  rw [resolved, resolved]
  simp only [resolveStep_order first second]
  rw [visited]

/-! ## Allowed prefixes -/

theorem ownerGrants_order (peers : Peers) (m : PlanNode) :
    r.ownerGrants (r.intents first) peers m = r.ownerGrants (r.intents second) peers m := by
  have owners : r.owner (r.intents first) = r.owner (r.intents second) := by
    funext m z
    simp only [owner, mem_intents_order first second]
  have steps : r.ownerStep (r.intents first) = r.ownerStep (r.intents second) := by
    funext peers m state z
    simp only [ownerStep, owners]
  rw [ownerGrants, ownerGrants, steps]

theorem gatewayGrants_order (peers : Peers) (pn : PlanNode) :
    r.gatewayGrants first peers pn = r.gatewayGrants second peers pn := by
  rw [gatewayGrants, gatewayGrants,
    sortedCands_eq first second fun p => isValid_of_mem_gwRow]

end Roster

theorem subnets_order (mesh : Mesh) (first second : RangeOrder Site) :
    mesh.roster.subnets first = mesh.roster.subnets second := by
  apply sortedCands_eq
  intro p key
  obtain ⟨pn, member, rfl⟩ := (GoMap.mem_keys_groupBy _ _ _ _).mp key
  exact isValid_subnet member

/-- **Planning does not depend on iteration orders.** -/
theorem planMesh_order (mesh : Mesh) (first second : RangeOrder Site) :
    planMesh first mesh = planMesh second mesh := by
  have grants (peers : Peers) :
      mesh.roster.grants first peers = mesh.roster.grants second peers := by
    have cross : mesh.roster.crossGrants first peers = mesh.roster.crossGrants second peers := by
      funext x
      rw [Roster.crossGrants, Roster.crossGrants, subnets_order mesh first second]
    simp only [Roster.grants, Roster.ownerGrants_order first second,
      Roster.gatewayGrants_order first second, cross]
  simp only [planMesh, Roster.resolved_order first second, grants]

end Core
