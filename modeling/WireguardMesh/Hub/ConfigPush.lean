import WireguardMesh.Core.Compile
import WireguardMesh.Foundation.Runs

/-! # Config push

The Master keeps for each connected agent one slot with the newest config, `cfg`, and a channel
of capacity one, `cfgSig`. `queueConfig` puts a config into the slot by a compare-and-swap loop
that gives way to a newer revision, and then raises the signal without blocking. `writeLoop`
takes the signal, loads the slot and writes what it finds.

An action is one atomic step of a call or of the writer; a step that its goroutine cannot take
leaves the state as it is. Marshalling and writes succeed. The revisions on the connection never
decrease, and when all calls have returned and the writer waits with the channel empty, the last
config written has the highest revision ever queued (`configPush_monotone`).
-/

namespace Hub

open Core

variable {P : Type}

/-- Where a call of `queueConfig` is. -/
inductive Phase (P : Type)
  /-- Before `cfg.Load`. -/
  | loading
  /-- Before `cfg.CompareAndSwap`, with what was loaded. -/
  | swapping (cur : Option P)
  /-- Before the send on `cfgSig`. -/
  | signalling
deriving DecidableEq

/-- A call of `queueConfig` that has not returned. -/
structure Call (P : Type) where
  config : P
  phase : Phase P
deriving DecidableEq

/-- Where `writeLoop` is. -/
inductive Writer (P : Type)
  /-- In its `select`. -/
  | waiting
  /-- Before `cfg.Load`, after it received from `cfgSig`. -/
  | signalled
  /-- Before the write of a config. -/
  | writing (d : P)
deriving DecidableEq

/-- `agentConn` with the goroutines that use it. `P` is the type of pointers to configs. What was
queued and sent is recorded, the latest first. -/
structure AgentConn (P : Type) where
  cfg : Option P
  cfgSig : Bool
  writer : Writer P
  calls : Nat → Option (Call P)
  queued : List P
  sent : List DesiredConfig

/-- The connection as `ServeWS` makes it. -/
def newConn : AgentConn P :=
  ⟨none, false, .waiting, fun _ => none, [], []⟩

/-- A step of a call, given by its number, or of the writer. -/
inductive Action (P : Type)
  | queueConfig (d : P)
  | load (i : Nat)
  | compareAndSwap (i : Nat)
  | signal (i : Nat)
  | receive
  | take
  | write

namespace AgentConn

/-- A call changes, or returns. -/
def set (c : AgentConn P) (i : Nat) (call : Option (Call P)) : AgentConn P :=
  { c with calls := Function.update c.calls i call }

def onCall (c : AgentConn P) (i : Nat) (f : Call P → AgentConn P) : AgentConn P :=
  (c.calls i).elim c f

variable (deref : P → DesiredConfig)

/-- One step: `queueConfig` on the part of a call, `writeLoop` on the part of the writer. -/
def step [DecidableEq P] (c : AgentConn P) : Action P → AgentConn P
  | .queueConfig d =>
    { c.set c.queued.length (some ⟨d, .loading⟩) with queued := d :: c.queued }
  | .load i =>
    c.onCall i fun call =>
      match call.phase with
      | .loading =>
        if ∃ cur ∈ c.cfg, (deref call.config).revision < (deref cur).revision then
          c.set i none
        else c.set i (some ⟨call.config, .swapping c.cfg⟩)
      | .swapping _ | .signalling => c
  | .compareAndSwap i =>
    c.onCall i fun call =>
      match call.phase with
      | .swapping cur =>
        if c.cfg = cur then
          { c with cfg := some call.config }.set i (some ⟨call.config, .signalling⟩)
        else c.set i (some ⟨call.config, .loading⟩)
      | .loading | .signalling => c
  | .signal i =>
    c.onCall i fun call =>
      match call.phase with
      -- a send on the full channel takes the `default` branch
      | .signalling => { c with cfgSig := true }.set i none
      | .loading | .swapping _ => c
  | .receive =>
    if c.writer = .waiting ∧ c.cfgSig = true then
      { c with cfgSig := false, writer := .signalled }
    else c
  | .take =>
    if c.writer = .signalled then
      { c with writer := c.cfg.elim .waiting .writing }
    else c
  | .write =>
    match c.writer with
    | .writing d => { c with sent := deref d :: c.sent, writer := .waiting }
    | .waiting | .signalled => c

/-- All calls have returned, and the writer has drained its channel. -/
structure Quiet (c : AgentConn P) : Prop where
  returned : ∀ i, c.calls i = none
  drained : c.cfgSig = false
  waits : c.writer = .waiting

/-- The slot holds a config with at least a revision. -/
def Reaches (c : AgentConn P) (revision : Int) : Prop :=
  ∃ cur ∈ c.cfg, revision ≤ (deref cur).revision

/-- The writer has loaded the config in the slot, and nothing after it. -/
def Served (c : AgentConn P) (cur : P) : Prop :=
  c.writer = .writing cur ∨ c.writer = .waiting ∧ c.sent.head? = some (deref cur)

/-- A call will still send on the channel. -/
def Signals (c : AgentConn P) : Prop :=
  ∃ i, ∃ call ∈ c.calls i, call.phase = .signalling

/-- A config is in the loop of its call. -/
def Underway (c : AgentConn P) (d : P) : Prop :=
  ∃ i, ∃ call ∈ c.calls i, call.config = d ∧ call.phase ≠ .signalling

/-- **What holds at every moment.** The last condition is the one against a lost wake-up. -/
structure Sound (c : AgentConn P) : Prop where
  fresh : ∀ i, c.queued.length ≤ i → c.calls i = none
  issued : ∀ i, ∀ call ∈ c.calls i, call.config ∈ c.queued
  compared : ∀ i, ∀ call ∈ c.calls i, ∀ cur, call.phase = .swapping (some cur) →
    (deref cur).revision ≤ (deref call.config).revision
  origin : ∀ cur ∈ c.cfg, cur ∈ c.queued
  settled : ∀ d ∈ c.queued, c.Reaches deref (deref d).revision ∨ c.Underway d
  ordered : c.sent.Pairwise fun later earlier => earlier.revision ≤ later.revision
  behind : ∀ e ∈ c.sent, c.Reaches deref e.revision
  holding : ∀ d, c.writer = .writing d →
    c.Reaches deref (deref d).revision ∧ ∀ e ∈ c.sent, e.revision ≤ (deref d).revision
  awake : ∀ cur ∈ c.cfg,
    c.Served deref cur ∨ c.cfgSig = true ∨ c.writer = .signalled ∨ c.Signals

variable {deref} {c : AgentConn P} {i : Nat} {call : Call P}

theorem Signals.set {now : Option (Call P)} (signals : c.Signals)
    (here : ∀ call ∈ c.calls i, call.phase ≠ .signalling) : (c.set i now).Signals := by
  obtain ⟨j, other, found, phase⟩ := signals
  refine ⟨j, other, Runs.mem_update_of_ne ?_ found, phase⟩
  rintro rfl
  exact here other found phase

theorem Underway.set {now : Option (Call P)} {d : P} (underway : c.Underway d)
    (here : ∀ call ∈ c.calls i, call.phase ≠ .signalling → call.config ≠ d) :
    (c.set i now).Underway d := by
  obtain ⟨j, other, found, same, phase⟩ := underway
  refine ⟨j, other, Runs.mem_update_of_ne ?_ found, same, phase⟩
  rintro rfl
  exact here other found phase same

theorem newConn_sound : Sound deref (newConn : AgentConn P) where
  fresh _ _ := rfl
  issued _ _ found := nomatch found
  compared _ _ found := nomatch found
  origin _ found := nomatch found
  settled _ found := nomatch found
  ordered := .nil
  behind _ found := nomatch found
  holding _ writes := nomatch writes
  awake _ found := nomatch found

/-! ### Steps of a call -/

namespace Sound

section

variable (sound : c.Sound deref) (found : call ∈ c.calls i)

include sound found

theorem fresh_set (now : Option (Call P)) (j : Nat) (beyond : c.queued.length ≤ j) :
    Function.update c.calls i now j = none := by
  have unused := sound.fresh j beyond
  have differs : j ≠ i := by
    rintro rfl
    rw [unused] at found
    cases found
  exact (Function.update_of_ne differs ..).trans unused

theorem loops (before : call.phase ≠ .signalling) {phase : Phase P} (stays : phase ≠ .signalling)
    (compares : ∀ cur, phase = .swapping (some cur) →
      (deref cur).revision ≤ (deref call.config).revision) :
    (c.set i (some ⟨call.config, phase⟩)).Sound deref where
  fresh := sound.fresh_set found _
  issued j other isThere := by
    obtain ⟨-, ⟨⟩⟩ | ⟨-, old⟩ := Runs.mem_update isThere
    · exact sound.issued i call found
    · exact sound.issued j other old
  compared j other isThere := by
    obtain ⟨-, ⟨⟩⟩ | ⟨-, old⟩ := Runs.mem_update isThere
    · exact compares
    · exact sound.compared j other old
  origin := sound.origin
  settled d member := by
    refine (sound.settled d member).imp_right fun underway => ?_
    by_cases own : call.config = d
    · exact ⟨i, _, Runs.mem_update_self _, own, stays⟩
    · refine underway.set fun other isThere _ => ?_
      rwa [Option.mem_unique isThere found]
  ordered := sound.ordered
  behind := sound.behind
  holding := sound.holding
  awake cur current := by
    refine (sound.awake cur current).imp_right <| .imp_right <| .imp_right fun signals => ?_
    refine signals.set fun other isThere => ?_
    rwa [Option.mem_unique isThere found]

/-- A call returns. Its config is in the slot or superseded there, and if it had to signal, the
channel is full. -/
theorem returns
    (reaches : call.phase ≠ .signalling → c.Reaches deref (deref call.config).revision)
    (signalled : call.phase = .signalling → c.cfgSig = true) : (c.set i none).Sound deref where
  fresh := sound.fresh_set found _
  issued j other isThere := by
    obtain ⟨-, absent⟩ | ⟨-, old⟩ := Runs.mem_update isThere
    · cases absent
    · exact sound.issued j other old
  compared j other isThere := by
    obtain ⟨-, absent⟩ | ⟨-, old⟩ := Runs.mem_update isThere
    · cases absent
    · exact sound.compared j other old
  origin := sound.origin
  settled d member := by
    obtain reached | underway := sound.settled d member
    · exact .inl reached
    · by_cases own : call.config = d ∧ call.phase ≠ .signalling
      · obtain ⟨rfl, before⟩ := own
        exact .inl (reaches before)
      · refine .inr (underway.set fun other isThere before same => own ?_)
        rw [← Option.mem_unique isThere found]
        exact ⟨same, before⟩
  ordered := sound.ordered
  behind := sound.behind
  holding := sound.holding
  awake cur current := by
    obtain served | full | taken | signals := sound.awake cur current
    · exact .inl served
    · exact .inr (.inl full)
    · exact .inr (.inr (.inl taken))
    · by_cases own : call.phase = .signalling
      · exact .inr (.inl (signalled own))
      · refine .inr (.inr (.inr (signals.set fun other isThere => ?_)))
        rwa [Option.mem_unique isThere found]

theorem swaps (phase : call.phase = .swapping c.cfg) :
    ({ c with cfg := some call.config }.set i (some ⟨call.config, .signalling⟩)).Sound deref := by
  have higher : ∀ revision, c.Reaches deref revision →
      revision ≤ (deref call.config).revision := by
    rintro revision ⟨cur, current, bound⟩
    rw [Option.mem_def.mp current] at phase
    exact bound.trans (sound.compared i call found cur phase)
  have reaches : ∀ revision, c.Reaches deref revision →
      ({ c with cfg := some call.config }.set i (some ⟨call.config, .signalling⟩)).Reaches deref
        revision :=
    fun revision reached => ⟨call.config, rfl, higher revision reached⟩
  exact
    { fresh := sound.fresh_set found _
      issued := fun j other isThere => by
        obtain ⟨-, ⟨⟩⟩ | ⟨-, old⟩ := Runs.mem_update isThere
        · exact sound.issued i call found
        · exact sound.issued j other old
      compared := fun j other isThere => by
        obtain ⟨-, ⟨⟩⟩ | ⟨-, old⟩ := Runs.mem_update isThere
        · exact fun _ impossible => nomatch impossible
        · exact sound.compared j other old
      origin := fun cur current => by
        cases current
        exact sound.issued i call found
      settled := fun d member => by
        by_cases own : call.config = d
        · exact .inl ⟨call.config, rfl, by rw [own]⟩
        · refine (sound.settled d member).imp (reaches _) fun underway => ?_
          refine Underway.set underway fun other isThere _ => ?_
          rwa [Option.mem_unique isThere found]
      ordered := sound.ordered
      behind := fun e member => reaches _ (sound.behind e member)
      holding := fun d writes => (sound.holding d writes).imp_left (reaches _)
      awake := fun _ _ => .inr (.inr (.inr ⟨i, _, Runs.mem_update_self _, rfl⟩)) }

end

theorem starts (sound : c.Sound deref) (d : P) :
    { c.set c.queued.length (some ⟨d, .loading⟩) with queued := d :: c.queued }.Sound deref where
  fresh j beyond := by
    have further : c.queued.length < j := beyond
    exact (Function.update_of_ne further.ne' ..).trans (sound.fresh j further.le)
  issued j other isThere := by
    obtain ⟨-, ⟨⟩⟩ | ⟨-, old⟩ := Runs.mem_update isThere
    · exact .head _
    · exact .tail _ (sound.issued j other old)
  compared j other isThere := by
    obtain ⟨-, ⟨⟩⟩ | ⟨-, old⟩ := Runs.mem_update isThere
    · exact fun _ impossible => nomatch impossible
    · exact sound.compared j other old
  origin cur current := .tail _ (sound.origin cur current)
  settled e member := by
    have nobody := sound.fresh c.queued.length le_rfl
    rcases List.mem_cons.mp member with rfl | old
    · exact .inr ⟨_, _, Runs.mem_update_self _, rfl, nofun⟩
    · refine (sound.settled e old).imp_right fun underway => ?_
      refine underway.set fun other isThere => ?_
      rw [nobody] at isThere
      cases isThere
  ordered := sound.ordered
  behind := sound.behind
  holding := sound.holding
  awake cur current := by
    have nobody := sound.fresh c.queued.length le_rfl
    refine (sound.awake cur current).imp_right <| .imp_right <| .imp_right fun signals => ?_
    refine signals.set fun other isThere => ?_
    rw [nobody] at isThere
    cases isThere

theorem raises (sound : c.Sound deref) : { c with cfgSig := true }.Sound deref :=
  { sound with awake := fun _ _ => .inr (.inl rfl) }

/-! ### Steps of the writer -/

theorem receives (sound : c.Sound deref) :
    { c with cfgSig := false, writer := .signalled }.Sound deref :=
  { sound with
    holding := fun _ impossible => nomatch impossible
    awake := fun _ _ => .inr (.inr (.inl rfl)) }

theorem takes (sound : c.Sound deref) :
    { c with writer := c.cfg.elim .waiting .writing }.Sound deref :=
  { sound with
    holding := fun d writes => by
      cases slot : c.cfg with
      | none =>
        rw [slot] at writes
        cases writes
      | some cur =>
        rw [slot] at writes
        cases writes
        refine ⟨⟨d, rfl, le_rfl⟩, fun e member => ?_⟩
        obtain ⟨cur, current, bound⟩ := sound.behind e member
        rwa [Option.mem_unique current slot] at bound
    awake := fun cur current => by
      left
      left
      rw [Option.mem_def.mp current]
      rfl }

theorem writes {d : P} (sound : c.Sound deref) (holds : c.writer = .writing d) :
    { c with sent := deref d :: c.sent, writer := .waiting }.Sound deref := by
  obtain ⟨reached, newest⟩ := sound.holding d holds
  exact
    { sound with
      ordered := .cons newest sound.ordered
      behind := fun e member => by
        rcases List.mem_cons.mp member with rfl | old
        · exact reached
        · exact sound.behind e old
      holding := fun _ impossible => nomatch impossible
      awake := fun cur current => by
        obtain (busy | ⟨waits, -⟩) | full | taken | signals := sound.awake cur current
        · rw [holds] at busy
          cases busy
          exact .inl (.inr ⟨rfl, rfl⟩)
        · rw [holds] at waits
          cases waits
        · exact .inr (.inl full)
        · rw [holds] at taken
          cases taken
        · exact .inr (.inr (.inr signals)) }

end Sound

theorem Sound.onCall (sound : c.Sound deref) {f : Call P → AgentConn P}
    (next : ∀ call ∈ c.calls i, (f call).Sound deref) : (c.onCall i f).Sound deref := by
  rw [AgentConn.onCall]
  cases found : c.calls i with
  | none => exact sound
  | some call => exact next call found

/-! ### At rest -/

theorem Sound.last_sent (sound : c.Sound deref) (quiet : c.Quiet) {cur : P}
    (current : cur ∈ c.cfg) : c.sent.head? = some (deref cur) := by
  obtain (busy | ⟨-, last⟩) | full | taken | ⟨i, call, found, -⟩ := sound.awake cur current
  · rw [quiet.waits] at busy
    cases busy
  · exact last
  · rw [quiet.drained] at full
    cases full
  · rw [quiet.waits] at taken
    cases taken
  · rw [quiet.returned i] at found
    cases found

theorem Sound.slot_highest (sound : c.Sound deref) (quiet : c.Quiet) {d : P}
    (member : d ∈ c.queued) : c.Reaches deref (deref d).revision := by
  obtain reached | ⟨i, call, found, -⟩ := sound.settled d member
  · exact reached
  · rw [quiet.returned i] at found
    cases found

theorem Sound.quiet (sound : c.Sound deref) (drained : c.cfgSig = false)
    (waits : c.writer = .waiting) (returned : ∀ i < c.queued.length, c.calls i = none) :
    c.Quiet where
  returned i := by
    by_cases started : i < c.queued.length
    · exact returned i started
    · exact sound.fresh i (not_lt.mp started)
  drained := drained
  waits := waits

/-! ### Every schedule -/

variable [DecidableEq P]

/-- **Each step keeps it.** -/
theorem Sound.step (sound : c.Sound deref) (action : Action P) :
    (c.step deref action).Sound deref := by
  cases action with
  | queueConfig d => exact sound.starts d
  | load i =>
    refine sound.onCall fun call found => ?_
    cases phase : call.phase with
    | loading =>
      have before : call.phase ≠ .signalling := by
        rw [phase]
        nofun
      dsimp only
      split
      · next newer =>
        obtain ⟨cur, current, less⟩ := newer
        refine sound.returns found (fun _ => ⟨cur, current, less.le⟩) fun signals => ?_
        exact absurd signals before
      · next newest =>
        refine sound.loops found before nofun fun cur loaded => ?_
        rw [Phase.swapping.injEq] at loaded
        exact not_lt.mp fun less => newest ⟨cur, loaded, less⟩
    | swapping | signalling => exact sound
  | compareAndSwap i =>
    refine sound.onCall fun call found => ?_
    cases phase : call.phase with
    | swapping cur =>
      dsimp only
      split
      · next same =>
        refine sound.swaps found ?_
        rw [phase, same]
      · refine sound.loops found ?_ nofun nofun
        rw [phase]
        nofun
    | loading | signalling => exact sound
  | signal i =>
    refine sound.onCall fun call found => ?_
    cases phase : call.phase with
    | signalling => exact sound.raises.returns found (absurd phase) fun _ => rfl
    | loading | swapping => exact sound
  | receive =>
    rw [AgentConn.step]
    split
    · exact sound.receives
    · exact sound
  | take =>
    rw [AgentConn.step]
    split
    · exact sound.takes
    · exact sound
  | write =>
    rw [AgentConn.step]
    cases holds : c.writer with
    | writing d => exact sound.writes holds
    | waiting | signalled => exact sound

theorem after_sound (actions : List (Action P)) :
    (Runs.after (AgentConn.step deref) newConn actions).Sound deref :=
  Runs.always (Sound deref) (fun _ action sound => sound.step action) newConn_sound actions

end AgentConn

open AgentConn

/-- **Config push.** After any schedule of any number of calls of `queueConfig` and of the writer:
the revisions written never decrease; and once all calls have returned and the writer has drained
its channel, the last config written is one of those queued with the highest revision. -/
theorem configPush_monotone [DecidableEq P] (deref : P → DesiredConfig)
    (actions : List (Action P)) : let c := Runs.after (AgentConn.step deref) newConn actions
    (c.sent.Pairwise fun later earlier => earlier.revision ≤ later.revision) ∧
      (c.Quiet → c.queued ≠ [] → ∃ d ∈ c.queued, c.sent.head? = some (deref d) ∧
        ∀ e ∈ c.queued, (deref e).revision ≤ (deref d).revision) := by
  intro c
  have sound : c.Sound deref := after_sound actions
  refine ⟨sound.ordered, fun quiet some => ?_⟩
  obtain ⟨d, member⟩ := List.exists_mem_of_ne_nil _ some
  obtain ⟨cur, current, -⟩ := sound.slot_highest quiet member
  refine ⟨cur, sound.origin cur current, sound.last_sent quiet current, fun e queued => ?_⟩
  obtain ⟨other, same, bound⟩ := sound.slot_highest quiet queued
  rwa [Option.mem_unique same current] at bound

def revisionOnly (revision : Int) : DesiredConfig :=
  ⟨revision, "", .other "", "", "", ⟨"", "", 0, 0⟩, false, "", false, [], []⟩

/-- Three calls. The second replaces the config that the writer has loaded and not yet written, and
signals when it is written; the third finds a newer revision. -/
def racingCalls : List (Action Int) :=
  [.queueConfig 5, .load 0, .compareAndSwap 0, .signal 0, .queueConfig 7, .load 1, .receive,
    .take, .compareAndSwap 1, .queueConfig 6, .load 2, .write, .signal 1, .receive, .take, .write]

def racedConn : AgentConn Int :=
  Runs.after (AgentConn.step revisionOnly) newConn racingCalls

example : racedConn.sent.map (·.revision) = [7, 5] := by
  decide

theorem racedConn_quiet : racedConn.Quiet :=
  (after_sound racingCalls : racedConn.Sound revisionOnly).quiet (by decide) (by decide)
    (by decide)

theorem racedConn_pushed : racedConn.Quiet ∧ racedConn.queued ≠ [] ∧
      ∃ d ∈ racedConn.queued, racedConn.sent.head? = some (revisionOnly d) ∧
        ∀ e ∈ racedConn.queued, (revisionOnly e).revision ≤ (revisionOnly d).revision :=
  ⟨racedConn_quiet, by decide,
    (configPush_monotone revisionOnly racingCalls).2 racedConn_quiet (by decide)⟩

end Hub
