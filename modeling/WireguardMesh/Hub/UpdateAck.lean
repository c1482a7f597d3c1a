import WireguardMesh.Foundation.Runs

/-! # Acknowledged updates

`RequestUpdate` sends an update command to an agent and waits for its ack, one call at a time on a
connection. Acks do not say which command they answer, and come through a channel of capacity one
that a call drains before it sends. The agent answers the commands in order.

A step that its goroutine cannot take leaves the state as it is. The answer to a command that timed
out may arrive after the next call has drained the channel; calls that wait until no answer is
outstanding get their own (`Hub.acks_matched`).
-/

namespace Hub

/-- Where the call of `RequestUpdate` that holds `updMu` is. -/
inductive Stage
  | draining
  | sending
  | waiting
deriving DecidableEq

/-- A connection: the call that holds `updMu`, the commands without answer, the channel, and what
the calls returned, without an ack for errors. -/
structure UpdateConn where
  holder : Option (Nat × Stage)
  outstanding : List Nat
  updAck : Option Nat
  returned : List (Nat × Option Nat)
deriving DecidableEq

/-- A step of a call, of the agent, or of a timer. -/
inductive UpdateAction
  | lock (call : Nat)
  | drain
  /-- `enqueue`, which closes the connection instead when the queue is full. -/
  | enqueue (full : Bool)
  /-- `deliverUpdateAck` of the agent's next answer. -/
  | deliver
  | receive
  /-- `ErrAgentOffline` or `ErrUpdateNoAck` -/
  | giveUp
deriving DecidableEq

namespace UpdateConn

/-- The connection as `ServeWS` makes it. -/
def new : UpdateConn :=
  ⟨none, [], none, []⟩

def step (s : UpdateConn) : UpdateAction → UpdateConn
  | .lock call => if s.holder = none then { s with holder := some (call, .draining) } else s
  | .drain =>
    match s.holder with
    | some (call, .draining) => { s with holder := some (call, .sending), updAck := none }
    | _ => s
  | .enqueue full =>
    match s.holder with
    | some (call, .sending) =>
      { s with
        holder := some (call, .waiting)
        outstanding := if full then s.outstanding else s.outstanding ++ [call] }
    | _ => s
  | .deliver =>
    match s.outstanding with
    | [] => s
    | call :: rest => { s with outstanding := rest, updAck := s.updAck.or (some call) }
  | .receive =>
    match s.holder, s.updAck with
    | some (call, .waiting), some ack =>
      { s with holder := none, updAck := none, returned := s.returned ++ [(call, some ack)] }
    | _, _ => s
  | .giveUp =>
    match s.holder with
    | some (call, .waiting) => { s with holder := none, returned := s.returned ++ [(call, none)] }
    | _ => s

/-- Every ack that a call returned answers the command of that call. -/
def Matched (s : UpdateConn) : Prop :=
  ∀ r ∈ s.returned, ∀ ack ∈ r.2, ack = r.1

/-- A call drains the channel when every earlier command has been answered. -/
def Calm (s : UpdateConn) (a : UpdateAction) : Prop :=
  a = .drain → s.outstanding = []

instance (s : UpdateConn) (a : UpdateAction) : Decidable (s.Calm a) :=
  inferInstanceAs (Decidable (a = .drain → s.outstanding = []))

/-- The answers on their way to a call that has drained the channel are its own. -/
structure Own (s : UpdateConn) : Prop where
  matched : s.Matched
  sending : ∀ call, s.holder = some (call, .sending) → s.outstanding = [] ∧ s.updAck = none
  waiting : ∀ call, s.holder = some (call, .waiting) →
    (∀ k ∈ s.outstanding, k = call) ∧ ∀ k ∈ s.updAck, k = call

theorem Own.step {s : UpdateConn} (own : s.Own) {a : UpdateAction} (calm : s.Calm a) :
    (s.step a).Own := by
  cases a with
  | lock call =>
    rw [UpdateConn.step]
    split
    · exact ⟨own.matched, nofun, nofun⟩
    · exact own
  | drain =>
    rw [UpdateConn.step]
    split
    · exact ⟨own.matched, fun _ _ => ⟨calm rfl, rfl⟩, nofun⟩
    · exact own
  | enqueue full =>
    rw [UpdateConn.step]
    split
    · next call holds =>
      obtain ⟨none, empty⟩ := own.sending call holds
      refine ⟨own.matched, nofun, fun _ same => ?_⟩
      cases same
      cases full <;> simp [none, empty]
    · exact own
  | deliver =>
    rw [UpdateConn.step]
    split
    · exact own
    · next call rest left =>
      refine ⟨own.matched, fun other holds => ?_, fun other holds => ?_⟩
      · cases left.symm.trans (own.sending other holds).1
      · obtain ⟨first, others⟩ := List.forall_mem_cons.mp (left ▸ (own.waiting other holds).1)
        refine ⟨others, fun k member => ?_⟩
        rcases Option.or_eq_some_iff.mp member with old | ⟨_, new⟩
        · exact (own.waiting other holds).2 k old
        · exact (Option.some.inj new).symm.trans first
  | receive =>
    rw [UpdateConn.step]
    split
    · next call ack holds arrived =>
      refine ⟨fun r member => ?_, nofun, nofun⟩
      rcases List.mem_append.mp member with old | new
      · exact own.matched r old
      · rintro k given
        obtain rfl := List.mem_singleton.mp new
        obtain rfl := Option.some.inj given
        exact (own.waiting call holds).2 ack arrived
    · exact own
  | giveUp =>
    rw [UpdateConn.step]
    split
    · refine ⟨fun r member => ?_, nofun, nofun⟩
      rcases List.mem_append.mp member with old | new
      · exact own.matched r old
      · obtain rfl := List.mem_singleton.mp new
        exact nofun
    · exact own

end UpdateConn

open UpdateConn

/-- **Matched acks.** In every run whose calls find no answer outstanding when they drain the
channel, an ack returned by `RequestUpdate` answers the command of that call. -/
theorem acks_matched {actions : List UpdateAction}
    (calm : Runs.Along UpdateConn.step Calm new actions) :
    (Runs.after UpdateConn.step new actions).Matched :=
  have start : new.Own := ⟨List.forall_mem_nil _, nofun, nofun⟩
  (Runs.invariant Own (fun _ _ own calm => own.step calm) start calm).matched

/-- A call that times out, its answer, and a second call. -/
def patientCalls : List UpdateAction :=
  [.lock 0, .drain, .enqueue false, .giveUp, .deliver, .lock 1, .drain, .enqueue false, .deliver,
    .receive]

theorem patientCalls_matched : (Runs.after UpdateConn.step new patientCalls).Matched :=
  acks_matched (by decide)

/-- The same calls, with the first answer after the second command: it is taken for the second. -/
theorem lateAck_mismatched :
    ¬ (Runs.after UpdateConn.step new [.lock 0, .drain, .enqueue false, .giveUp, .lock 1, .drain,
      .enqueue false, .deliver, .receive]).Matched :=
  fun matched => absurd (matched (1, some 0) (by decide) 0 rfl) (by decide)

end Hub
