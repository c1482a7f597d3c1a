import WireguardMesh.Foundation.Runs

/-! # Presence of a node

A handler of `ServeWS` registers its connection with the hub and then marks the node connected in
the statistics; when it ends and its connection is still the current one, it unregisters it and
then marks the node disconnected. Both maps are keyed by the node, and a state is their entries for
one node, with the handlers of that node.

A handler that has unregistered may mark the node disconnected after the next one has marked it
connected. Where no handler registers or unregisters before the marks that it overtakes, the two
entries agree whenever no mark is outstanding (`Hub.presence_agrees`).
-/

namespace Hub

/-- Where a handler of `ServeWS` is. -/
inductive Handler
  /-- between `register` and `MarkConnected` -/
  | registered
  | serving
  /-- between an `unregister` that returned true and `MarkDisconnected` -/
  | unregistered
deriving DecidableEq

/-- The entries of a node: the handler of its current connection, and whether it is in the map of
`StatsService`. -/
structure Presence where
  current : Option Nat
  connected : Bool
  handlers : Nat → Option Handler

/-- A step of a handler. -/
inductive PresenceAction
  | register (h : Nat)
  | markConnected (h : Nat)
  | unregister (h : Nat)
  | markDisconnected (h : Nat)

namespace Presence

/-- No handler has run. -/
def new : Presence :=
  ⟨none, false, fun _ => none⟩

/-- `Hub.IsConnected`. -/
def hubIsConnected (s : Presence) : Bool :=
  s.current.isSome

/-- `StatsService.IsConnected`. -/
def statsIsConnected (s : Presence) : Bool :=
  s.connected

def step (s : Presence) : PresenceAction → Presence
  | .register h =>
    if s.handlers h = none then
      { s with current := some h, handlers := Function.update s.handlers h (some .registered) }
    else s
  | .markConnected h =>
    if s.handlers h = some .registered then
      { s with connected := true, handlers := Function.update s.handlers h (some .serving) }
    else s
  | .unregister h =>
    if s.handlers h = some .serving then
      if s.current = some h then
        { s with
          current := none
          handlers := Function.update s.handlers h (some .unregistered) }
      else { s with handlers := Function.update s.handlers h none }
    else s
  | .markDisconnected h =>
    if s.handlers h = some .unregistered then
      { s with connected := false, handlers := Function.update s.handlers h none }
    else s

/-- A handler has a mark outstanding. -/
def Pending (s : Presence) (mark : Handler) : Prop :=
  ∃ h, s.handlers h = some mark

/-- The maps agree unless a mark is outstanding. -/
def Agrees (s : Presence) : Prop :=
  ¬ s.Pending .registered → ¬ s.Pending .unregistered → s.statsIsConnected = s.hubIsConnected

/-- No handler registers while the mark of one that has unregistered is outstanding, and the
current one does not unregister while that of one that has registered is. -/
def Orderly (s : Presence) : PresenceAction → Prop
  | .register _ => ¬ s.Pending .unregistered
  | .unregister h => s.current = some h → ¬ s.Pending .registered
  | .markConnected _ | .markDisconnected _ => True

/-- What the outstanding marks say. -/
structure Consistent (s : Presence) : Prop where
  agrees : s.Agrees
  registered : s.Pending .registered → s.current.isSome
  unregistered : s.Pending .unregistered → s.current = none

theorem Pending.of_update {s s' : Presence} {h : Nat} {now : Option Handler} {mark : Handler}
    (changed : s'.handlers = Function.update s.handlers h now) (other : now ≠ some mark)
    (pending : s'.Pending mark) : s.Pending mark := by
  obtain ⟨h', found⟩ := pending
  rw [changed] at found
  rcases Runs.mem_update found with ⟨-, same⟩ | ⟨-, before⟩
  · exact absurd same other
  · exact ⟨h', before⟩

theorem Consistent.step {s : Presence} (consistent : s.Consistent) {a : PresenceAction}
    (orderly : s.Orderly a) : (s.step a).Consistent := by
  cases a with
  | register h =>
    rw [Presence.step]
    split
    · refine ⟨fun none => absurd ⟨h, Function.update_self ..⟩ none, fun _ => rfl, fun pending => ?_⟩
      exact absurd (pending.of_update rfl (by simp)) orderly
    · exact consistent
  | markConnected h =>
    rw [Presence.step]
    split
    · next registered =>
      have held := consistent.registered ⟨h, registered⟩
      refine ⟨fun _ _ => held.symm, fun _ => held, fun pending => ?_⟩
      exact consistent.unregistered (pending.of_update rfl (by simp))
    · exact consistent
  | unregister h =>
    rw [Presence.step]
    split
    · split
      · next own =>
        refine ⟨fun _ none => absurd ⟨h, Function.update_self ..⟩ none, fun pending => ?_,
          fun _ => rfl⟩
        exact absurd (pending.of_update rfl (by simp)) (orderly own)
      · next serving _ =>
        have kept : ∀ mark, mark ≠ .serving → s.Pending mark →
            Presence.Pending { s with handlers := Function.update s.handlers h none } mark := by
          rintro mark other ⟨h', found⟩
          refine ⟨h', Runs.mem_update_of_ne ?_ found⟩
          rintro rfl
          exact other (Option.some.inj (found.symm.trans serving))
        exact ⟨fun none none' => consistent.agrees (fun pending => none (kept _ (by simp) pending))
            fun pending => none' (kept _ (by simp) pending),
          fun pending => consistent.registered (pending.of_update rfl (by simp)),
          fun pending => consistent.unregistered (pending.of_update rfl (by simp))⟩
    · exact consistent
  | markDisconnected h =>
    rw [Presence.step]
    split
    · next unregistered =>
      have gone := consistent.unregistered ⟨h, unregistered⟩
      refine ⟨fun _ _ => ?_, fun pending => ?_, fun _ => gone⟩
      · rw [statsIsConnected, hubIsConnected, gone]
        rfl
      · exact consistent.registered (pending.of_update rfl (by simp))
    · exact consistent

end Presence

open Presence

/-- **Presence.** In every run whose handlers do not overtake an outstanding mark of the other kind,
the two maps agree whenever no mark is outstanding. -/
theorem presence_agrees {actions : List PresenceAction}
    (orderly : Runs.Along Presence.step Orderly .new actions) :
    (Runs.after Presence.step .new actions).Agrees := by
  have start : new.Consistent := by
    refine ⟨fun _ _ => rfl, ?_, ?_⟩
    · rintro ⟨_, found⟩
      cases found
    · rintro ⟨_, found⟩
      cases found
  exact (Runs.invariant Consistent (fun _ _ kept orderly => kept.step orderly) start orderly).agrees

/-- A connection that is replaced. -/
theorem replaced_agrees : (Runs.after Presence.step .new
    [.register 0, .markConnected 0, .register 1, .markConnected 1, .unregister 0]).Agrees := by
  refine presence_agrees ⟨?_, trivial, ?_, trivial, (fun own => by cases own), trivial⟩
  · rintro ⟨_, found⟩
    cases found
  · simp [Orderly, Pending, Presence.step, new, Function.update_apply]

/-- A node that connects again before its old handler has marked it disconnected. -/
theorem reconnected_disagrees : ¬ (Runs.after Presence.step .new
    [.register 0, .markConnected 0, .unregister 0, .register 1, .markConnected 1,
      .markDisconnected 0]).Agrees := by
  simp [Agrees, Pending, Runs.after, Presence.step, new, Function.update_apply, statsIsConnected,
    hubIsConnected]

end Hub
