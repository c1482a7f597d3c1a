import WireguardMesh.Conn.SessionTable

/-! # A TCP bind and its goroutines

`TCPBind` with any number of calls of `Send`, and of `getOrDialSession` by `keepWarm`, which is a
`Send` without frames. A call looks for a session of its destination; without one it takes the
dial mutex of the destination, looks again, and dials. An action is one critical section or one
other atomic step; a goroutine that is blocked stays where it is. `Open` and `Close` are called by
the device under a lock of its own.

What happens to the table is one of its events (`TcpBind.step_table`), and the dial mutexes exclude
each other (`TcpBind.Exclusive.step`).
-/

namespace Conn

open Net

/-- Why `Send` fails. -/
inductive SendError
  /-- `tcp frame too large` -/
  | tooLarge
  /-- `ErrWaitingInboundReconnect` -/
  | waitingInbound
  /-- `net.ErrClosed` -/
  | closed
  /-- The dial failed, or was aborted. -/
  | dial
  /-- The write failed, also on a second session. -/
  | write
deriving DecidableEq

/-- Where a call is. -/
inductive Stage
  /-- Before the first `lookupSession`. -/
  | lookingUp
  /-- Before `dialMuFor`. -/
  | choosing
  /-- Before `mu.Lock`. -/
  | waiting (mu : Nat)
  /-- Before the second `lookupSession`. -/
  | locked (mu : Nat)
  /-- Before `mustWaitInbound`. -/
  | checking (mu : Nat)
  /-- Before `startDial`. -/
  | starting (mu : Nat)
  /-- In `dialWithRetries`. -/
  | dialing (mu ctx : Nat)
  /-- Before `installSession`. -/
  | installing (mu : Nat)
  /-- Before the write of the next frame. -/
  | sending (s : Nat)
  /-- In `dropSession`, before its critical section. -/
  | dropping (s : Nat)
  | returned (failed : Option SendError)
deriving DecidableEq

def Stage.mutex : Stage → Option Nat
  | .locked mu | .checking mu | .starting mu | .dialing mu _ | .installing mu => some mu
  | .lookingUp | .choosing | .waiting _ | .sending _ | .dropping _ | .returned _ => none

/-- A call is before `mustWaitInbound`. -/
def Stage.checks : Stage → Bool
  | .checking _ => true
  | .lookingUp | .choosing | .waiting _ | .locked _ | .starting _ | .dialing _ _ | .installing _
  | .sending _ | .dropping _ | .returned _ => false

/-- A call of `Send`, with the frames that are left and whether the first of them is tried for
the second time. -/
structure Call where
  dst : AddrPort
  bufs : List (List UInt8)
  retried : Bool
  stage : Stage
deriving DecidableEq

/-- Where `Close` is. -/
inductive Closing
  | idle
  /-- Before `cancel`. -/
  | cancelling
  /-- Before its last critical section. -/
  | waiting
deriving DecidableEq

/-- `TCPBind`, with the goroutines that use it. Mutexes, contexts and calls are numbered. Frames
that are written, at least in part, are recorded with their destination and session. -/
structure TcpBind where
  table : SessionTable
  allowOutbound : Bool
  dialMu : GoMap (List Char) Nat
  mutexes : Nat
  held : Nat → Bool
  ctx : Option Nat
  contexts : Nat
  cancelled : Nat → Bool
  closing : Closing
  calls : Nat → Option Call
  started : Nat
  sent : List (AddrPort × Nat × List UInt8)

def newTCPBind : TcpBind where
  table := newTable
  allowOutbound := false
  dialMu := ∅
  mutexes := 0
  held _ := false
  ctx := none
  contexts := 0
  cancelled _ := false
  closing := .idle
  calls _ := none
  started := 0
  sent := []

/-- A step of the bind or of a call. -/
inductive Action
  /-- `Open`, with the setting of `allowOutboundDial` that it loads. -/
  | openBind (allowOutbound : Bool)
  /-- `reloadOpenBinds` -/
  | reload (allowOutbound : Bool)
  /-- `Close` up to its first unlock. -/
  | closeBind
  | cancel
  /-- The last critical section of `Close`. -/
  | closeEnd
  /-- A connection is accepted. -/
  | accept (remote : AddrPort) (toNAT : Bool)
  /-- `session.alive = false` in `dropSession`, when the `readLoop` of a session ends, or in
  `installSessionToNAT`, for the session that was replaced. -/
  | kill (s : Nat)
  /-- The critical section of `dropSession`, when a `readLoop` has ended. -/
  | remove (s : Nat)
  | send (dst : AddrPort) (bufs : List (List UInt8))
  /-- A call takes its next step; `ok` is the answer of the network, if it asks. -/
  | run (i : Nat) (ok : Bool)
deriving DecidableEq

namespace TcpBind

/-- An event of the table. -/
def tell (b : TcpBind) (e : SessionTable.Event) : TcpBind :=
  { b with table := b.table.apply e }

def setCall (b : TcpBind) (i : Nat) (call : Call) : TcpBind :=
  { b with calls := Function.update b.calls i (some call) }

/-- A call goes on. -/
def move (b : TcpBind) (i : Nat) (call : Call) (stage : Stage) : TcpBind :=
  b.setCall i { call with stage := stage }

/-- `mu.Lock` and `mu.Unlock`. -/
def setHeld (b : TcpBind) (mu : Nat) (held : Bool) : TcpBind :=
  { b with held := Function.update b.held mu held }

/-- A call goes on without its mutex. -/
def release (b : TcpBind) (mu i : Nat) (call : Call) (stage : Stage) : TcpBind :=
  (b.setHeld mu false).move i call stage

def mustWaitInbound (b : TcpBind) (dst : AddrPort) : Bool :=
  !b.allowOutbound || decide (dst.addr ∈ b.table.inboundIPs)

/-- `dialMuFor`: the mutex of a key, which is made if there is none. -/
def dialMuFor (b : TcpBind) (key : List Char) : Nat :=
  (b.dialMu.lookup key).getD b.mutexes

/-- The map after `dialMuFor`. -/
def withDialMu (b : TcpBind) (key : List Char) : TcpBind :=
  if (b.dialMu.lookup key).isSome then b
  else { b with dialMu := b.dialMu.insert key b.mutexes, mutexes := b.mutexes + 1 }

/-- A frame is written, at least in part. -/
def record (b : TcpBind) (dst : AddrPort) (s : Nat) (buf : List UInt8) : TcpBind :=
  { b with sent := (dst, s, buf) :: b.sent }

/-- `sessionWrite` of a frame, and what `Send` does next. -/
def writeFrame (b : TcpBind) (i : Nat) (ok : Bool) (call : Call) (s : Nat) (buf : List UInt8)
    (rest : List (List UInt8)) : TcpBind :=
  if b.table.alive s then
    if ok then
      (b.record call.dst s buf).setCall i { call with bufs := rest, retried := false }
    else ((b.record call.dst s buf).tell (.kill s)).move i call (.dropping s)
  else (b.tell (.kill s)).move i call (.dropping s)

/-- The next step of a call: `Send` and `getOrDialSession`. -/
def runCall (b : TcpBind) (i : Nat) (ok : Bool) (call : Call) : TcpBind :=
  match call.stage with
  | .lookingUp =>
    b.move i call ((b.table.lookupSession call.dst).elim .choosing .sending)
  | .choosing =>
    (b.withDialMu call.dst.string).move i call (.waiting (b.dialMuFor call.dst.string))
  | .waiting mu => if b.held mu then b else (b.setHeld mu true).move i call (.locked mu)
  | .locked mu =>
    (b.table.lookupSession call.dst).elim (b.move i call (.checking mu)) fun s =>
      b.release mu i call (.sending s)
  | .checking mu =>
    if b.mustWaitInbound call.dst then
      b.release mu i call (.returned (some .waitingInbound))
    else b.move i call (.starting mu)
  | .starting mu =>
    b.ctx.elim (b.release mu i call (.returned (some .closed))) fun ctx =>
      b.move i call (.dialing mu ctx)
  | .dialing mu ctx =>
    if b.table.isOpen && !b.cancelled ctx then
      if ok then b.move i call (.installing mu)
      else b.release mu i call (.returned (some .dial))
    else b.release mu i call (.returned (some .closed))
  | .installing mu =>
    (b.tell (.install call.dst false false)).release mu i call
      (b.table.installed.elim (.returned (some .closed)) .sending)
  | .sending s =>
    match call.bufs with
    | [] => b.move i call (.returned none)
    | buf :: rest =>
      if 65535 < buf.length then b.move i call (.returned (some .tooLarge))
      else b.writeFrame i ok call s buf rest
  | .dropping s =>
    if call.retried then (b.tell (.remove s)).move i call (.returned (some .write))
    else (b.tell (.remove s)).setCall i { call with retried := true, stage := .lookingUp }
  | .returned _ => b

def step (b : TcpBind) : Action → TcpBind
  | .openBind allowOutbound =>
    if b.table.isOpen = false ∧ b.closing = .idle then
      { b.tell .opened with
        allowOutbound := allowOutbound
        dialMu := ∅
        ctx := some b.contexts
        contexts := b.contexts + 1 }
    else b
  | .reload allowOutbound =>
    if b.table.isOpen then { b with allowOutbound := allowOutbound } else b
  | .closeBind => if b.table.isOpen then { b.tell .closed with closing := .cancelling } else b
  | .cancel =>
    if b.closing = .cancelling then
      { b with
        cancelled := b.ctx.elim b.cancelled fun ctx => Function.update b.cancelled ctx true
        closing := .waiting }
    else b
  | .closeEnd =>
    -- the settings are reset, `allowOutbound` among them
    if b.closing = .waiting then
      { b with ctx := none, allowOutbound := false, dialMu := ∅, closing := .idle }
    else b
  | .accept remote toNAT => b.tell (.install remote true toNAT)
  | .kill s => b.tell (.kill s)
  | .remove s => if b.table.alive s then b else b.tell (.remove s)
  | .send dst bufs =>
    { b.setCall b.started ⟨dst, bufs, false, .lookingUp⟩ with started := b.started + 1 }
  | .run i ok => (b.calls i).elim b (b.runCall i ok)

/-! ## Events of the table -/

/-- The event that the next step of a call is for the table. -/
def callEvent (b : TcpBind) (ok : Bool) (call : Call) : Option SessionTable.Event :=
  match call.stage with
  | .installing _ => some (.install call.dst false false)
  | .sending s =>
    match call.bufs with
    | [] => none
    | buf :: _ =>
      if 65535 < buf.length ∨ (b.table.alive s && ok) = true then none else some (.kill s)
  | .dropping s => some (.remove s)
  | .lookingUp | .choosing | .waiting _ | .locked _ | .checking _ | .starting _ | .dialing _ _
  | .returned _ => none

/-- The event that an action is for the table. -/
def event (b : TcpBind) : Action → Option SessionTable.Event
  | .openBind _ =>
    if b.table.isOpen = false ∧ b.closing = .idle then some .opened else none
  | .closeBind => if b.table.isOpen then some .closed else none
  | .accept remote toNAT => some (.install remote true toNAT)
  | .kill s => some (.kill s)
  | .remove s => if b.table.alive s then none else some (.remove s)
  | .run i ok => (b.calls i).bind (b.callEvent ok)
  | .reload _ | .cancel | .closeEnd | .send _ _ => none

def tableAfter (t : SessionTable) (e : Option SessionTable.Event) : SessionTable :=
  e.elim t t.apply

variable {b b' : TcpBind} {i : Nat} {call now : Call}

theorem table_withDialMu (key : List Char) : (b.withDialMu key).table = b.table := by
  rw [withDialMu]
  split <;> rfl

theorem table_runCall (i : Nat) (ok : Bool) (call : Call) :
    (b.runCall i ok call).table = tableAfter b.table (b.callEvent ok call) := by
  rw [runCall, callEvent]
  cases call.stage with
  | lookingUp => rfl
  | choosing => exact table_withDialMu _
  | waiting | checking | dropping =>
    dsimp only
    split <;> rfl
  | locked mu =>
    cases b.table.lookupSession call.dst <;> rfl
  | starting mu =>
    cases b.ctx <;> rfl
  | dialing mu ctx =>
    dsimp only
    split
    · split <;> rfl
    · rfl
  | installing mu => rfl
  | sending s =>
    cases call.bufs with
    | nil => rfl
    | cons buf rest =>
      dsimp only
      by_cases large : 65535 < buf.length
      · rw [if_pos large, if_pos (.inl large)]
        rfl
      · rw [if_neg large, writeFrame]
        cases b.table.alive s <;> cases ok <;>
          simp only [large, Bool.and_true, Bool.and_false, Bool.false_eq_true, or_false,
            or_true, if_true, if_false] <;> rfl
  | returned => rfl

/-- **What happens to the table is one of its events.** -/
theorem step_table (a : Action) : (b.step a).table = tableAfter b.table (b.event a) := by
  cases a with
  | openBind | closeBind | reload | cancel | closeEnd | remove =>
    rw [step, event]
    split <;> rfl
  | accept | kill | send => rfl
  | run i ok =>
    rw [step, event]
    cases b.calls i with
    | none => rfl
    | some call => exact table_runCall i ok call

theorem sound_step (sound : b.table.Sound) (a : Action) : (b.step a).table.Sound := by
  rw [step_table]
  cases b.event a with
  | none => exact sound
  | some e => exact sound.apply e

theorem gone_step {s : Nat} (gone : b.table.Gone s) (a : Action) : (b.step a).table.Gone s := by
  rw [step_table]
  cases b.event a with
  | none => exact gone
  | some e => exact gone.apply e

/-! ## Steps of a call -/

/-- Where the next step of a call may take it. -/
inductive Next (b : TcpBind) (dst : AddrPort) : Stage → Stage → Prop
  | found {s : Nat} (there : b.table.lookupSession dst = some s) :
      Next b dst .lookingUp (.sending s)
  | missed : Next b dst .lookingUp .choosing
  | chosen (mu : Nat) : Next b dst .choosing (.waiting mu)
  | locked (mu : Nat) : Next b dst (.waiting mu) (.locked mu)
  | foundLate (mu : Nat) {s : Nat} (there : b.table.lookupSession dst = some s) :
      Next b dst (.locked mu) (.sending s)
  | missedLate (mu : Nat) : Next b dst (.locked mu) (.checking mu)
  | mustWait (mu : Nat) (must : b.mustWaitInbound dst = true) :
      Next b dst (.checking mu) (.returned (some .waitingInbound))
  | mayDial (mu : Nat) : Next b dst (.checking mu) (.starting mu)
  | dials (mu ctx : Nat) : Next b dst (.starting mu) (.dialing mu ctx)
  | connected (mu ctx : Nat) : Next b dst (.dialing mu ctx) (.installing mu)
  | installed (mu : Nat) {s : Nat} (new : b.table.installed = some s) :
      Next b dst (.installing mu) (.sending s)
  | wrote (s : Nat) : Next b dst (.sending s) (.sending s)
  | lost (s : Nat) : Next b dst (.sending s) (.dropping s)
  | again (s : Nat) : Next b dst (.dropping s) .lookingUp
  | fails (stage : Stage) {failed : Option SendError} (other : failed ≠ some .waitingInbound) :
      Next b dst stage (.returned failed)

/-- What a step of a call leaves as it is, apart from the call and its mutex. -/
structure Frame (b b' : TcpBind) (dst : AddrPort) (stage : Stage) (bufs : List (List UInt8)) :
    Prop where
  calls : b'.calls = b.calls
  started : b'.started = b.started
  closing : b'.closing = b.closing
  isOpen : b'.table.isOpen = b.table.isOpen
  allowOutbound : b'.allowOutbound = b.allowOutbound
  dialMu : ∀ key, ∀ mu ∈ b.dialMu.lookup key, mu ∈ b'.dialMu.lookup key
  sent : ∀ entry ∈ b'.sent,
    entry ∈ b.sent ∨ entry.1 = dst ∧ stage = .sending entry.2.1 ∧ bufs ≠ []

/-- **A step of a call.** -/
structure Ran (b : TcpBind) (i : Nat) (call : Call) (b' : TcpBind) (now : Call) : Prop where
  result : ∃ base, b' = base.setCall i now ∧ b.Frame base call.dst call.stage call.bufs
  next : b.Next call.dst call.stage now.stage
  dst : now.dst = call.dst
  bufs : call.bufs = [] → now.bufs = []

section

variable {dst : AddrPort} {stage : Stage} {bufs : List (List UInt8)}

theorem Frame.refl : b.Frame b dst stage bufs :=
  ⟨rfl, rfl, rfl, rfl, rfl, fun _ _ found => found, fun _ old => .inl old⟩

theorem Frame.setHeld (mu : Nat) (held : Bool) : b.Frame (b.setHeld mu held) dst stage bufs :=
  ⟨rfl, rfl, rfl, rfl, rfl, fun _ _ found => found, fun _ old => .inl old⟩

theorem Frame.withDialMu (key : List Char) : b.Frame (b.withDialMu key) dst stage bufs := by
  rw [TcpBind.withDialMu]
  split
  · exact .refl
  · next absent =>
    refine ⟨rfl, rfl, rfl, rfl, rfl, fun other mu found => ?_, fun _ old => .inl old⟩
    have differs : other ≠ key := by
      rintro rfl
      rw [Option.mem_def.mp found] at absent
      exact absent rfl
    rwa [AList.lookup_insert_ne differs]

theorem Frame.tell (frame : b.Frame b' dst stage bufs) (e : SessionTable.Event)
    (notOpened : e ≠ .opened) (notClosed : e ≠ .closed) : b.Frame (b'.tell e) dst stage bufs :=
  { frame with isOpen := (SessionTable.isOpen_apply notOpened notClosed).trans frame.isOpen }

theorem Frame.held (frame : b.Frame b' dst stage bufs) (mu : Nat) (held : Bool) :
    b.Frame (b'.setHeld mu held) dst stage bufs :=
  { frame with }

theorem Frame.record {s : Nat} (sending : stage = .sending s) (some : bufs ≠ [])
    (buf : List UInt8) : b.Frame (b.record dst s buf) dst stage bufs where
  calls := rfl
  started := rfl
  closing := rfl
  isOpen := rfl
  allowOutbound := rfl
  dialMu _ _ found := found
  sent entry member := by
    rcases List.mem_cons.mp member with rfl | old
    · exact .inr ⟨rfl, sending, some⟩
    · exact .inl old

end

theorem Frame.ran {next : Stage} (frame : b.Frame b' call.dst call.stage call.bufs)
    (goes : b.Next call.dst call.stage next) :
    b.Ran i call (b'.move i call next) { call with stage := next } :=
  ⟨⟨b', rfl, frame⟩, goes, rfl, id⟩

theorem ran_writeFrame {s : Nat} {buf : List UInt8}
    {rest : List (List UInt8)} (sending : call.stage = .sending s)
    (frames : call.bufs = buf :: rest) (ok : Bool) :
    ∃ now, b.Ran i call (b.writeFrame i ok call s buf rest) now := by
  have some : call.bufs ≠ [] := by
    rw [frames]
    exact List.cons_ne_nil _ _
  have recorded : b.Frame (b.record call.dst s buf) call.dst call.stage call.bufs :=
    .record sending some buf
  rw [writeFrame]
  split
  · split
    · exact ⟨{ call with bufs := rest, retried := false }, ⟨_, rfl, recorded⟩,
        sending ▸ .wrote s, rfl, fun none => (some none).elim⟩
    · exact ⟨_, (recorded.tell (.kill s) nofun nofun).ran (sending ▸ .lost s)⟩
  · exact ⟨_, (Frame.refl.tell (.kill s) nofun nofun).ran (sending ▸ .lost s)⟩

theorem runCall_cases (i : Nat) (ok : Bool) (call : Call) :
    b.runCall i ok call = b ∨ ∃ now, b.Ran i call (b.runCall i ok call) now := by
  obtain ⟨dst, bufs, retried, stage⟩ := call
  rw [runCall]
  cases stage with
  | lookingUp =>
    cases found : b.table.lookupSession dst with
    | none => exact .inr ⟨_, Frame.refl.ran .missed⟩
    | some s => exact .inr ⟨_, Frame.refl.ran (.found found)⟩
  | choosing => exact .inr ⟨_, (Frame.withDialMu _).ran (.chosen _)⟩
  | waiting mu =>
    dsimp only
    split
    · exact .inl rfl
    · exact .inr ⟨_, (Frame.setHeld mu true).ran (.locked mu)⟩
  | locked mu =>
    cases found : b.table.lookupSession dst with
    | none => exact .inr ⟨_, Frame.refl.ran (.missedLate mu)⟩
    | some s => exact .inr ⟨_, (Frame.setHeld mu false).ran (.foundLate mu found)⟩
  | checking mu =>
    dsimp only
    split
    · next must => exact .inr ⟨_, (Frame.setHeld mu false).ran (.mustWait mu must)⟩
    · exact .inr ⟨_, Frame.refl.ran (.mayDial mu)⟩
  | starting mu =>
    cases b.ctx with
    | none => exact .inr ⟨_, (Frame.setHeld mu false).ran (.fails _ nofun)⟩
    | some ctx => exact .inr ⟨_, Frame.refl.ran (.dials mu ctx)⟩
  | dialing mu ctx =>
    dsimp only
    split
    · split
      · exact .inr ⟨_, Frame.refl.ran (.connected mu ctx)⟩
      · exact .inr ⟨_, (Frame.setHeld mu false).ran (.fails _ nofun)⟩
    · exact .inr ⟨_, (Frame.setHeld mu false).ran (.fails _ nofun)⟩
  | installing mu =>
    have frame : b.Frame ((b.tell (.install dst false false)).setHeld mu false) dst
        (.installing mu) bufs :=
      (Frame.refl.tell (.install dst false false) nofun nofun).held mu false
    cases new : b.table.installed with
    | none => exact .inr ⟨_, frame.ran (.fails _ nofun)⟩
    | some s => exact .inr ⟨_, frame.ran (.installed mu new)⟩
  | sending s =>
    cases bufs with
    | nil => exact .inr ⟨_, Frame.refl.ran (.fails _ nofun)⟩
    | cons buf rest =>
      dsimp only
      split
      · exact .inr ⟨_, Frame.refl.ran (.fails _ nofun)⟩
      · exact .inr (ran_writeFrame rfl rfl ok)
  | dropping s =>
    have frame : b.Frame (b.tell (.remove s)) dst (.dropping s) bufs :=
      Frame.refl.tell _ nofun nofun
    dsimp only
    split
    · exact .inr ⟨_, frame.ran (.fails _ nofun)⟩
    · exact .inr ⟨⟨dst, bufs, true, .lookingUp⟩, ⟨_, rfl, frame⟩, .again s, rfl, id⟩
  | returned => exact .inl rfl

theorem step_run_cases (i : Nat) (ok : Bool) : b.step (.run i ok) = b ∨ ∃ call ∈ b.calls i, ∃ now,
      b.step (.run i ok) = b.runCall i ok call ∧ b.Ran i call (b.step (.run i ok)) now := by
  rw [step]
  cases found : b.calls i with
  | none => exact .inl rfl
  | some call =>
    obtain same | ⟨now, ran⟩ := b.runCall_cases i ok call
    · exact .inl same
    · exact .inr ⟨call, rfl, now, rfl, ran⟩

theorem Next.mustWait_of_waiting {dst : AddrPort} {stage : Stage}
    (next : b.Next dst stage (.returned (some .waitingInbound))) :
    stage.checks = true ∧ b.mustWaitInbound dst = true := by
  cases next with
  | mustWait mu must => exact ⟨rfl, must⟩
  | fails _ other => exact (other rfl).elim

/-- A call that waits for the peer has waited before, or has just been told so. -/
theorem waiting_step {a : Action} {j : Nat} (there : now ∈ (b.step a).calls j)
    (waits : now.stage = .returned (some .waitingInbound)) :
    (∃ call ∈ b.calls j, call.stage = .returned (some .waitingInbound)) ∨
      (∃ ok, a = .run j ok) ∧ ∃ call ∈ b.calls j, call.stage.checks = true ∧
        b.mustWaitInbound call.dst = true := by
  cases a with
  | openBind | closeBind | reload | cancel | closeEnd | remove =>
    rw [step] at there
    split at there <;> exact .inl ⟨now, there, waits⟩
  | accept | kill => exact .inl ⟨now, there, waits⟩
  | send dst bufs =>
    obtain ⟨-, same⟩ | ⟨-, before⟩ := Runs.mem_update there
    · cases same
      cases waits
    · exact .inl ⟨now, before, waits⟩
  | run i ok =>
    obtain same | ⟨call, found, moved, -, ran⟩ := b.step_run_cases i ok
    · rw [same] at there
      exact .inl ⟨now, there, waits⟩
    · obtain ⟨base, same, frame⟩ := ran.result
      rw [same] at there
      obtain ⟨rfl, own⟩ | ⟨-, before⟩ := Runs.mem_update there
      · cases own
        have next := ran.next
        rw [waits] at next
        exact .inr ⟨⟨ok, rfl⟩, call, found, next.mustWait_of_waiting⟩
      · rw [frame.calls] at before
        exact .inl ⟨now, before, waits⟩

/-- The numbers from `started` on are free. -/
def Tidy (b : TcpBind) : Prop :=
  ∀ i, b.started ≤ i → b.calls i = none

theorem Tidy.old (tidy : b.Tidy) (found : call ∈ b.calls i) :
    i < b.started := by
  by_contra beyond
  rw [tidy i (not_lt.mp beyond)] at found
  cases found

theorem Tidy.step (tidy : b.Tidy) (a : Action) : (b.step a).Tidy := by
  cases a with
  | openBind | closeBind | reload | cancel | closeEnd | remove =>
    rw [TcpBind.step]
    split <;> exact tidy
  | accept | kill => exact tidy
  | send dst bufs =>
    intro i beyond
    have further : b.started < i := beyond
    exact (Function.update_of_ne further.ne' ..).trans (tidy i further.le)
  | run i ok =>
    obtain same | ⟨call, found, now, -, ran⟩ := b.step_run_cases i ok
    · rw [same]
      exact tidy
    · obtain ⟨base, same, frame⟩ := ran.result
      rw [same]
      intro j beyond
      have further : b.started ≤ j := frame.started ▸ beyond
      have differs : j ≠ i := ((tidy.old found).trans_le further).ne'
      refine (Function.update_of_ne differs ..).trans ?_
      rw [frame.calls]
      exact tidy j further

/-! ## The dial mutexes -/

def Owns (b : TcpBind) (i mu : Nat) : Prop :=
  ∃ call ∈ b.calls i, call.stage.mutex = some mu

/-- A mutex is held by one call at a time. -/
def Exclusive (b : TcpBind) : Prop :=
  ∀ i mu, b.Owns i mu → b.held mu = true ∧ ∀ j, b.Owns j mu → j = i

theorem owns_setCall {j mu : Nat} (owns : (b.setCall i call).Owns j mu) :
    j = i ∧ call.stage.mutex = some mu ∨ j ≠ i ∧ b.Owns j mu := by
  obtain ⟨other, found, holds⟩ := owns
  obtain ⟨rfl, same⟩ | ⟨differs, found⟩ := Runs.mem_update found
  · cases same
    exact .inl ⟨rfl, holds⟩
  · exact .inr ⟨differs, other, found, holds⟩

namespace Exclusive

variable (exclusive : b.Exclusive)

include exclusive

theorem keep (same : ∀ mu, now.stage.mutex = some mu → b.Owns i mu) :
    (b.setCall i now).Exclusive := by
  have owned : ∀ j mu, (b.setCall i now).Owns j mu → b.Owns j mu := by
    intro j mu owns
    obtain ⟨rfl, holds⟩ | ⟨-, before⟩ := owns_setCall owns
    · exact same mu holds
    · exact before
  intro j mu owns
  obtain ⟨held, only⟩ := exclusive j mu (owned j mu owns)
  exact ⟨held, fun k other => only k (owned k mu other)⟩

theorem acquire {mu : Nat} (free : b.held mu = false)
    (holds : now.stage.mutex = some mu) : ((b.setHeld mu true).setCall i now).Exclusive := by
  have nobody : ∀ j, ¬ b.Owns j mu := by
    intro j owns
    rw [(exclusive j mu owns).1] at free
    cases free
  have owned : ∀ j mu', ((b.setHeld mu true).setCall i now).Owns j mu' →
      j = i ∧ mu' = mu ∨ mu' ≠ mu ∧ b.Owns j mu' ∧ j ≠ i := by
    intro j mu' owns
    obtain ⟨rfl, taken⟩ | ⟨differs, before⟩ := owns_setCall owns
    · exact .inl ⟨rfl, Option.some.inj (taken.symm.trans holds)⟩
    · refine .inr ⟨?_, before, differs⟩
      rintro rfl
      exact nobody j before
  intro j mu' owns
  obtain ⟨rfl, rfl⟩ | ⟨other, before, differs⟩ := owned j mu' owns
  · refine ⟨Function.update_self .., fun k also => ?_⟩
    obtain ⟨same, -⟩ | ⟨other, -⟩ := owned k mu' also
    · exact same
    · exact (other rfl).elim
  · obtain ⟨held, only⟩ := exclusive j mu' before
    refine ⟨(Function.update_of_ne other ..).trans held, fun k also => ?_⟩
    obtain ⟨-, same⟩ | ⟨-, before', -⟩ := owned k mu' also
    · exact (other same).elim
    · exact only k before'

theorem release {mu : Nat} (found : call ∈ b.calls i)
    (held : call.stage.mutex = some mu) (without : now.stage.mutex = none) :
    ((b.setHeld mu false).setCall i now).Exclusive := by
  have owned : ∀ j mu', ((b.setHeld mu false).setCall i now).Owns j mu' →
      mu' ≠ mu ∧ b.Owns j mu' := by
    intro j mu' owns
    obtain ⟨rfl, holds⟩ | ⟨differs, before⟩ := owns_setCall owns
    · cases without.symm.trans holds
    · refine ⟨?_, before⟩
      rintro rfl
      exact differs ((exclusive i mu' ⟨call, found, held⟩).2 j before)
  intro j mu' owns
  obtain ⟨other, before⟩ := owned j mu' owns
  obtain ⟨taken, only⟩ := exclusive j mu' before
  exact ⟨(Function.update_of_ne other ..).trans taken, fun k also => only k (owned k mu' also).2⟩

theorem congr (calls : b'.calls = b.calls) (held : b'.held = b.held) : b'.Exclusive := by
  intro i mu owns
  rw [Owns, calls] at owns
  rw [held]
  obtain ⟨taken, only⟩ := exclusive i mu owns
  refine ⟨taken, fun j also => only j ?_⟩
  rwa [Owns, calls] at also

theorem runCall (found : call ∈ b.calls i) (ok : Bool) : (b.runCall i ok call).Exclusive := by
  have keeps {next : Stage} (same : next.mutex = call.stage.mutex) :
      (b.move i call next).Exclusive :=
    exclusive.keep fun _ holds => ⟨call, found, same ▸ holds⟩
  obtain ⟨dst, bufs, retried, stage⟩ := call
  rw [TcpBind.runCall]
  cases stage with
  | lookingUp =>
    refine exclusive.keep fun mu holds => ?_
    cases lookup : b.table.lookupSession dst <;> rw [lookup] at holds <;> cases holds
  | choosing =>
    have unchanged : (b.withDialMu dst.string).Exclusive := by
      rw [withDialMu]
      split
      · exact exclusive
      · exact exclusive.congr rfl rfl
    exact unchanged.keep nofun
  | waiting mu =>
    dsimp only
    split
    · exact exclusive
    · next free => exact exclusive.acquire (Bool.eq_false_iff.mpr free) rfl
  | locked mu =>
    cases b.table.lookupSession dst with
    | none => exact keeps rfl
    | some s => exact exclusive.release found rfl rfl
  | checking mu =>
    dsimp only
    split
    · exact exclusive.release found rfl rfl
    · exact keeps rfl
  | starting mu =>
    cases b.ctx with
    | none => exact exclusive.release found rfl rfl
    | some ctx => exact keeps rfl
  | dialing mu ctx =>
    dsimp only
    split
    · split
      · exact keeps rfl
      · exact exclusive.release found rfl rfl
    · exact exclusive.release found rfl rfl
  | installing mu =>
    have unchanged : (b.tell (.install dst false false)).Exclusive := exclusive.congr rfl rfl
    refine unchanged.release found rfl ?_
    cases b.table.installed <;> rfl
  | sending s =>
    dsimp only
    split
    · exact exclusive.keep nofun
    · split
      · exact exclusive.keep nofun
      · rw [writeFrame]
        split
        · split
          · exact (exclusive.congr rfl rfl : (b.record _ _ _).Exclusive).keep nofun
          · exact (exclusive.congr rfl rfl : ((b.record _ _ _).tell _).Exclusive).keep nofun
        · exact (exclusive.congr rfl rfl : (b.tell _).Exclusive).keep nofun
  | dropping s =>
    dsimp only
    split <;> exact (exclusive.congr rfl rfl : (b.tell _).Exclusive).keep nofun
  | returned => exact exclusive

/-- **Mutual exclusion.** -/
theorem step (a : Action) : (b.step a).Exclusive := by
  cases a with
  | openBind | closeBind | reload | cancel | closeEnd | remove =>
    rw [TcpBind.step]
    split
    · exact exclusive.congr rfl rfl
    · exact exclusive.congr rfl rfl
  | accept | kill => exact exclusive.congr rfl rfl
  | send dst bufs =>
    have added : (b.setCall b.started ⟨dst, bufs, false, .lookingUp⟩).Exclusive :=
      exclusive.keep nofun
    exact added.congr rfl rfl
  | run i ok =>
    rw [TcpBind.step]
    cases found : b.calls i with
    | none => exact exclusive
    | some call => exact exclusive.runCall found ok

end Exclusive

end TcpBind

end Conn
