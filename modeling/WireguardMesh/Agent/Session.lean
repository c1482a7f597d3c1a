import WireguardMesh.Agent.Applier
import WireguardMesh.Foundation.Runs

/-! # Master sessions and retries

The agent holds one Master session at a time. A config that is pushed and cannot be applied is
retried by a goroutine of its own, `retryApply`, until it is applied, superseded, or the session
ends. The goroutines share one slot, `retrying`, with the revision that is being retried; it is
claimed by a swap and released by a compare-and-swap.

An action is one step of the applier, the session or a goroutine, so that a list of actions is a
schedule. A goroutine of a session that has ended sees that only when it sleeps.
-/

namespace Agent

open Core Tunnel Wireguard

/-- Where a `retryApply` goroutine is. -/
inductive Phase
  /-- Before `retrying.Swap`. -/
  | starting
  /-- In `sleepCtx`. -/
  | sleeping
  /-- Before `retrying.Load`. -/
  | awake
  /-- Before `ap.apply`. -/
  | applying
  /-- Before the deferred `retrying.CompareAndSwap`. -/
  | leaving
deriving DecidableEq

/-- A `retryApply` goroutine, of a session, for a config. -/
structure Retry where
  session : Nat
  desired : DesiredConfig
  phase : Phase
deriving DecidableEq

/-- Whether there is a goroutine with some property. -/
instance decidableExistsRetry (running : Option Retry) (P : Retry → Prop) [DecidablePred P] :
    Decidable (∃ r, running = some r ∧ P r) :=
  match running with
  | none => isFalse fun found => by
      obtain ⟨_, impossible, _⟩ := found
      cases impossible
  | some r => decidable_of_iff (P r) (by simp)

/-- `wsClient`, with the session of `run` or `pollHTTP`, and the goroutines by number. -/
structure Client (K : Type) where
  ap : Applier K
  retrying : Int
  session : Nat
  live : Bool
  http : Bool
  retries : Nat → Option Retry
  spawned : Nat

/-- The client of `ConfigLoop` before its first session. -/
def newClient {K : Type} (ap : Applier K) : Client K :=
  ⟨ap, -1, 0, false, false, fun _ => none, 0⟩

/-- A step of the session or of a goroutine. -/
inductive Action (K : Type)
  /-- `resetSession` of a new session. -/
  | connect (http : Bool)
  /-- The session ends, and its context is cancelled. -/
  | hangUp
  /-- A config arrives and is applied; if that fails, a goroutine is started. -/
  | push (around : Surroundings K) (d : DesiredConfig)
  | swap (i : Nat)
  /-- The timer of `sleepCtx` fires. -/
  | wake (i : Nat)
  /-- `sleepCtx` sees that the context is cancelled. -/
  | cancel (i : Nat)
  | check (i : Nat)
  | tryApply (around : Surroundings K) (i : Nat)
  | leave (i : Nat)

namespace Client

variable {K : Type}

/-- The goroutine with a number changes, or returns. -/
def set (c : Client K) (i : Nat) (r : Option Retry) : Client K :=
  { c with retries := Function.update c.retries i r }

/-- The context of a goroutine is cancelled. -/
def Cancelled (c : Client K) (r : Retry) : Prop :=
  ¬ (c.live = true ∧ r.session = c.session)

instance (c : Client K) (r : Retry) : Decidable (c.Cancelled r) :=
  inferInstanceAs (Decidable (¬ _))

def stepRetry (c : Client K) (i : Nat) (f : Retry → Client K) : Client K :=
  (c.retries i).elim c f

/-- A goroutine is in a phase. -/
def At (c : Client K) (i : Nat) (phase : Phase) : Prop :=
  ∃ r, c.retries i = some r ∧ r.phase = phase

instance (c : Client K) (i : Nat) (phase : Phase) : Decidable (c.At i phase) :=
  decidableExistsRetry (c.retries i) (·.phase = phase)

/-- The actions that can happen. The revision of a config is a counter. -/
def Enabled (c : Client K) : Action K → Prop
  | .connect _ => c.live = false
  | .hangUp => c.live = true
  | .push _ d => c.live = true ∧ 0 ≤ d.revision
  | .swap i => c.At i .starting
  | .wake i => c.At i .sleeping
  | .cancel i => ∃ r, c.retries i = some r ∧ r.phase = .sleeping ∧ c.Cancelled r
  | .check i => c.At i .awake
  | .tryApply _ i => c.At i .applying
  | .leave i => c.At i .leaving

instance (c : Client K) (a : Action K) : Decidable (c.Enabled a) :=
  match a with
  | .connect _ => inferInstanceAs (Decidable (_ = _))
  | .hangUp => inferInstanceAs (Decidable (_ = _))
  | .push _ _ => inferInstanceAs (Decidable (_ ∧ _))
  | .swap i => inferInstanceAs (Decidable (c.At i .starting))
  | .wake i => inferInstanceAs (Decidable (c.At i .sleeping))
  | .cancel i => decidableExistsRetry (c.retries i) fun r => r.phase = .sleeping ∧ c.Cancelled r
  | .check i => inferInstanceAs (Decidable (c.At i .awake))
  | .tryApply _ i => inferInstanceAs (Decidable (c.At i .applying))
  | .leave i => inferInstanceAs (Decidable (c.At i .leaving))

variable [DecidableEq K] (decode : String → Option K) (ops : KeyOps K)

/-- One step: `run` and `pollHTTP` on the part of the session, `retryApply` on the part of the
goroutines. -/
def step (c : Client K) : Action K → Client K
  | .connect http =>
    { c with ap := c.ap.resetSession, session := c.session + 1, live := true, http := http }
  | .hangUp => { c with live := false }
  | .push around d =>
    let result := c.ap.apply decode ops around d
    if result.2 = none ∨ c.http then { c with ap := result.1 }
    else
      { c.set c.spawned (some ⟨c.session, d, .starting⟩) with
        ap := result.1
        spawned := c.spawned + 1 }
  | .swap i => c.stepRetry i fun r =>
    if c.retrying = r.desired.revision then c.set i none
    else
      { c.set i (some { r with phase := .sleeping }) with
        retrying := r.desired.revision }
  | .wake i => c.stepRetry i fun r => c.set i (some { r with phase := .awake })
  | .cancel i => c.stepRetry i fun r => c.set i (some { r with phase := .leaving })
  | .check i => c.stepRetry i fun r =>
    c.set i (some { r with
      phase := if c.retrying = r.desired.revision then .applying else .leaving })
  | .tryApply around i => c.stepRetry i fun r =>
    let result := c.ap.apply decode ops around r.desired
    { c.set i (some { r with phase := if result.2 = none then .leaving else .sleeping }) with
      ap := result.1 }
  | .leave i => c.stepRetry i fun r =>
    { c.set i none with
      retrying := if c.retrying = r.desired.revision then -1 else c.retrying }

end Client

end Agent
