import WireguardMesh.Core.Compile
import WireguardMesh.Plan.Key
import WireguardMesh.Plan.Tables
import WireguardMesh.Store.Validate

/-! # The plan cache

The store keeps the last plan with the fingerprint of the mesh it was made from, and
`DesiredForNodes` reuses it while the fingerprint stays the same. The cache cannot be seen
from outside when every mesh keeps to what `PlanKey` takes for granted and no node without
transport starts its routes with a JSON text (`Store.runCalls_eq_fresh`).
-/

namespace Store

open Core GoText Net

/-- The fields `planCache` and `planKey` of `Store`. -/
structure PlanCache where
  plan : Option Plan
  key : String

/-- The cache of a store that has just been opened. -/
def PlanCache.empty : PlanCache :=
  ⟨none, ""⟩

/-- One call of `DesiredForNodes`: the mesh and the defaults loaded, the ids asked for, and the
orders in which `PlanKey` and `PlanMesh` visit their maps. -/
structure Call where
  mesh : Mesh
  defaults : DesiredDefaults
  ids : List String
  keyOrder : RangeOrder KeySite
  planOrder : RangeOrder Site

/-- What `DesiredForNodes` returns. -/
abbrev Configs := Except CompileError (GoMap String DesiredConfig)

section

variable (sha256 : String → String)

def planLocked (call : Call) (cache : PlanCache) : Plan × PlanCache :=
  let key := planKey sha256 call.keyOrder call.mesh
  match cache.plan with
  | some plan =>
    if cache.key = key then (plan, cache)
    else
      let plan := planMesh call.planOrder call.mesh
      (plan, ⟨some plan, key⟩)
  | none =>
    let plan := planMesh call.planOrder call.mesh
    (plan, ⟨some plan, key⟩)

/-- The loop of `DesiredForNodes`: unknown ids are skipped, and the first error ends it. -/
def configsFor (mesh : Mesh) (compile : String → Except CompileError DesiredConfig) :
    List String → GoMap String DesiredConfig → Configs
  | [], out => .ok out
  | id :: ids, out =>
    if (mesh.findNode id).isNone then configsFor mesh compile ids out
    else match compile id with
    | .error e => .error e
    | .ok d => configsFor mesh compile ids (out.insert id d)

/-- `Store.DesiredForNodes`, once the mesh and the settings are loaded. -/
def desiredForNodes (call : Call) (cache : PlanCache) : Configs × PlanCache :=
  let planned := planLocked sha256 call cache
  (configsFor call.mesh (fun id => compileDesiredWithPlan call.mesh planned.1 id call.defaults)
    call.ids ∅, planned.2)

/-- The answers to a sequence of calls. -/
def runCalls : List Call → PlanCache → List Configs
  | [], _ => []
  | call :: calls, cache =>
    let answered := desiredForNodes sha256 call cache
    answered.1 :: runCalls calls answered.2

end

/-- The answer to a call with `CompileDesired`, which plans the mesh anew for every id. -/
def Call.fresh (call : Call) (order : RangeOrder Site) : Configs :=
  configsFor call.mesh (fun id => compileDesired order call.mesh id call.defaults) call.ids ∅

/-! ## Transparency -/

/-- What a call needs: the assumptions of `PlanKey`, and no route that could be a
transport. -/
structure Call.Clear (call : Call) : Prop where
  assumed : call.mesh.KeyAssumptions
  noJson : call.mesh.NoJsonRoute

/-- The cached plan is the plan of a clear call, under its fingerprint. -/
def PlanCache.Holds (sha256 : String → String) (cache : PlanCache) : Prop :=
  ∀ plan ∈ cache.plan, ∃ call : Call, call.Clear ∧
    cache.key = planKey sha256 call.keyOrder call.mesh ∧ plan = planMesh call.planOrder call.mesh

theorem PlanCache.holds_empty (sha256 : String → String) : PlanCache.empty.Holds sha256 := by
  intro plan cached
  cases cached

section

variable {sha256 : String → String} {call : Call} {cache : PlanCache}

theorem planLocked_miss (other : ∀ plan ∈ cache.plan,
    cache.key ≠ planKey sha256 call.keyOrder call.mesh) :
    planLocked sha256 call cache = (planMesh call.planOrder call.mesh,
      ⟨some (planMesh call.planOrder call.mesh), planKey sha256 call.keyOrder call.mesh⟩) := by
  rw [planLocked]
  split
  · next plan cached => rw [if_neg (other plan cached)]
  · rfl

theorem planLocked_hit {plan : Plan} (cached : cache.plan = some plan)
    (same : cache.key = planKey sha256 call.keyOrder call.mesh) :
    planLocked sha256 call cache = (plan, cache) := by
  rw [planLocked, cached]
  exact if_pos same

/-- **One lookup.** The plan in use has the peers of a fresh plan, and the cache keeps its
invariant. -/
theorem planLocked_spec (injective : Function.Injective sha256) (clear : call.Clear)
    (holds : cache.Holds sha256) (order : RangeOrder Site) :
    (∀ id, (planLocked sha256 call cache).1.peersFor id =
      (planMesh order call.mesh).peersFor id) ∧ (planLocked sha256 call cache).2.Holds sha256 := by
  by_cases hit : ∃ plan ∈ cache.plan, cache.key = planKey sha256 call.keyOrder call.mesh
  · obtain ⟨plan, cached, same⟩ := hit
    rw [planLocked_hit cached same]
    refine ⟨fun id => ?_, holds⟩
    obtain ⟨old, oldClear, oldKey, rfl⟩ := holds plan cached
    have text : planKeyText old.keyOrder old.mesh = planKeyText call.keyOrder call.mesh :=
      String.ofList_injective (injective (oldKey.symm.trans same))
    exact peersFor_of_planKeyText oldClear.assumed clear.assumed oldClear.noJson clear.noJson text
      old.planOrder order id
  · rw [planLocked_miss fun plan cached same => hit ⟨plan, cached, same⟩]
    refine ⟨fun id => by rw [planMesh_order call.mesh call.planOrder order], ?_⟩
    rintro plan ⟨rfl⟩
    exact ⟨call, clear, rfl, rfl⟩

/-- **One call.** -/
theorem desiredForNodes_spec (injective : Function.Injective sha256) (clear : call.Clear)
    (holds : cache.Holds sha256) (order : RangeOrder Site) :
    (desiredForNodes sha256 call cache).1 = call.fresh order ∧
      (desiredForNodes sha256 call cache).2.Holds sha256 := by
  obtain ⟨peers, kept⟩ := planLocked_spec injective clear holds order
  refine ⟨?_, kept⟩
  have compiled : (fun id => compileDesiredWithPlan call.mesh (planLocked sha256 call cache).1 id
      call.defaults) = fun id => compileDesired order call.mesh id call.defaults := by
    funext id
    rw [compileDesired, compileDesiredWithPlan, compileDesiredWithPlan, peers]
  rw [desiredForNodes, Call.fresh, ← compiled]

end

/-- Every sequence of clear calls is answered as if every config were compiled from a fresh
plan. -/
theorem runCalls_eq_fresh {sha256 : String → String} (injective : Function.Injective sha256)
    (calls : List Call) (clear : ∀ call ∈ calls, call.Clear) (order : RangeOrder Site) :
    runCalls sha256 calls .empty = calls.map fun call => call.fresh order := by
  have general (cache : PlanCache) (holds : cache.Holds sha256) :
      runCalls sha256 calls cache = calls.map fun call => call.fresh order := by
    induction calls generalizing cache with
    | nil => rfl
    | cons call calls ih =>
      obtain ⟨answer, kept⟩ := desiredForNodes_spec injective (clear call (.head _))
        holds order
      rw [runCalls, List.map_cons, answer,
        ih (fun later member => clear later (.tail _ member)) _ kept]
  exact general .empty (PlanCache.holds_empty sha256)

/-- **The plan cache is transparent.** On meshes that keep to the assumptions of `PlanKey`,
without a JSON text as first route of a node without transport, every sequence of calls is
answered from fresh plans, and meshes with one fingerprint text have plans with the same
peers. -/
theorem planCache_transparent {sha256 : String → String} (injective : Function.Injective sha256) :
    (∀ calls : List Call, (∀ call ∈ calls, call.Clear) → ∀ order,
      runCalls sha256 calls .empty = calls.map fun call => call.fresh order) ∧
    ∀ first second : Call, first.Clear → second.Clear →
      planKeyText first.keyOrder first.mesh = planKeyText second.keyOrder second.mesh →
      ∀ id, (planMesh first.planOrder first.mesh).peersFor id =
        (planMesh second.planOrder second.mesh).peersFor id := by
  refine ⟨runCalls_eq_fresh injective, ?_⟩
  intro first second clear clear' same id
  exact peersFor_of_planKeyText clear.assumed clear'.assumed clear.noJson clear'.noJson same
    first.planOrder second.planOrder id

/-- A call for the configs of a mother and a child. -/
def Call.both (mesh : Mesh) (keyOrder : RangeOrder KeySite) (planOrder : RangeOrder Site) : Call :=
  ⟨mesh, ⟨"", "", ""⟩, ["00000000-0000-4000-8000-0000000000a1",
    "00000000-0000-4000-8000-0000000000b1"], keyOrder, planOrder⟩

/-- Two calls on one mesh; the second is answered from the cache. -/
theorem oneHome_transparent : (Call.both oneHome (.stored KeySite) (.stored Site)).Clear ∧
    runCalls id [.both oneHome (.stored KeySite) (.stored Site),
      .both oneHome (.stored KeySite) (.stored Site)] .empty =
    [(Call.both oneHome (.stored KeySite) (.stored Site)).fresh (.stored Site),
      (Call.both oneHome (.stored KeySite) (.stored Site)).fresh (.stored Site)] := by
  have clear : (Call.both oneHome (.stored KeySite) (.stored Site)).Clear :=
    ⟨by decide +kernel, by decide +kernel⟩
  refine ⟨clear, (planCache_transparent Function.injective_id).1 _ ?_ _⟩
  exact List.forall_mem_cons.mpr ⟨clear, List.forall_mem_singleton.mpr clear⟩

/-- A mother and a child of its subnet, with the given transport and routes of the child. -/
def jsonRoute (revision : Int) (transport : String) (routes : List String) : Mesh :=
  { Mesh.sample [
      .sample "00000000-0000-4000-8000-0000000000a1" "10.1.0.1/24" 51820 "192.0.2.1:51820"
        ["10.1.0.0/24"],
      { Node.sample "00000000-0000-4000-8000-0000000000b1" "10.1.0.11/24" 0 "" routes with
        transport := transport }]
      [⟨"00000000-0000-4000-8000-0000000000b1", "00000000-0000-4000-8000-0000000000a1", [], 0⟩]
      none with
    revision := revision }

/-- The child with an empty JSON object as its transport. -/
def jsonTransport : Mesh :=
  jsonRoute 1 "\x7b\x7d" ["10.1.0.0/24"]

/-- The child without transport and with the same text as its first route. -/
def jsonFirstRoute : Mesh :=
  jsonRoute 2 "" ["\x7b\x7d", "10.1.0.0/24"]

def childAllowed : Configs → List (List String)
  | .ok out => ((out.lookup "00000000-0000-4000-8000-0000000000b1").map fun d =>
    d.peers.map DesiredPeer.allowedIPs).getD []
  | .error _ => []

/-- Both meshes are accepted with the same fingerprint, so the second call is answered with the
plan of the first, although the child has lost its routes. -/
theorem jsonRoute_stale : validateMesh jsonTransport = .ok () ∧
    validateMesh jsonFirstRoute = .ok () ∧ jsonTransport.KeyAssumptions ∧
    jsonFirstRoute.KeyAssumptions ∧ ∀ sha256 keyOrder planOrder order,
      runCalls sha256 [.both jsonTransport keyOrder planOrder,
        .both jsonFirstRoute keyOrder planOrder] .empty ≠
      [(Call.both jsonTransport keyOrder planOrder).fresh order,
        (Call.both jsonFirstRoute keyOrder planOrder).fresh order] := by
  refine ⟨by decide +kernel, by decide +kernel, by decide +kernel, by decide +kernel, ?_⟩
  intro sha256 keyOrder planOrder order same
  have text : planKeyText keyOrder jsonTransport = planKeyText keyOrder jsonFirstRoute := by
    rw [planKeyText_order jsonTransport keyOrder (.stored KeySite),
      planKeyText_order jsonFirstRoute keyOrder (.stored KeySite)]
    decide +kernel
  have first : planLocked sha256 (.both jsonTransport keyOrder planOrder) .empty =
      (planMesh planOrder jsonTransport, ⟨some (planMesh planOrder jsonTransport),
        planKey sha256 keyOrder jsonTransport⟩) :=
    planLocked_miss fun _ cached => by cases cached
  have second : planLocked sha256 (.both jsonFirstRoute keyOrder planOrder)
      ⟨some (planMesh planOrder jsonTransport), planKey sha256 keyOrder jsonTransport⟩ =
      (planMesh planOrder jsonTransport, ⟨some (planMesh planOrder jsonTransport),
        planKey sha256 keyOrder jsonTransport⟩) :=
    planLocked_hit rfl (congrArg (fun t => sha256 (String.ofList t)) text)
  simp only [runCalls, desiredForNodes, first, second, Call.fresh, compileDesired] at same
  simp only [Call.both] at same
  rw [planMesh_order jsonTransport planOrder (.stored Site),
    planMesh_order jsonTransport order (.stored Site),
    planMesh_order jsonFirstRoute order (.stored Site)] at same
  have allowed := congrArg (List.map childAllowed) same
  revert allowed
  decide +kernel

end Store
