import WireguardMesh.Conn.TcpBind

/-! # Sessions and dials over a whole run

What holds of the session table of a bind whatever its goroutines do is `TcpBind.Kept`. Two calls
do not dial the same destination at once if they use the same mutex. `Open` and `Close` replace the
map of mutexes, though, so that a call with a mutex of the old map that dials after `Open` is not
kept apart from a call with a mutex of the new one (`staleDial_double`). A run in which no call
dials across an `Open` has one dial at a time (`sessionTable_kept`).
-/

namespace Conn

open Net

/-- The mutex of a call in `dialWithRetries`. -/
def Stage.dialing? : Stage → Option Nat
  | .dialing mu _ => some mu
  | .lookingUp | .choosing | .waiting _ | .locked _ | .checking _ | .starting _ | .installing _
  | .sending _ | .dropping _ | .returned _ => none

/-- The mutex of a call before `startDial`. -/
def Stage.starting? : Stage → Option Nat
  | .starting mu => some mu
  | .lookingUp | .choosing | .waiting _ | .locked _ | .checking _ | .dialing _ _ | .installing _
  | .sending _ | .dropping _ | .returned _ => none

namespace TcpBind

/-- A call has a dial to a destination in flight. -/
def Dials (b : TcpBind) (i : Nat) (dst : AddrPort) : Prop :=
  ∃ call ∈ b.calls i, call.dst = dst ∧ call.stage.dialing?.isSome = true

instance (b : TcpBind) (i : Nat) (dst : AddrPort) : Decidable (b.Dials i dst) :=
  inferInstanceAs (Decidable (∃ call ∈ b.calls i, _ ∧ _))

/-- No two dials to the same destination are in flight. -/
def SingleDial (b : TcpBind) : Prop :=
  ∀ dst i j, b.Dials i dst → b.Dials j dst → i = j

/-- No dial is in flight at an `Open`, and a call that starts to dial has the mutex that is in the
map: it has not fetched it before the last `Open`. -/
def Punctual (b : TcpBind) : Action → Prop
  | .openBind _ => ∀ i < b.started, ∀ call ∈ b.calls i, call.stage.dialing? = none
  | .run i _ => ∀ call ∈ b.calls i, ∀ mu ∈ call.stage.starting?,
      b.dialMu.lookup call.dst.string = some mu
  | .reload _ | .closeBind | .cancel | .closeEnd | .accept _ _ | .kill _ | .remove _
  | .send _ _ => True

instance (b : TcpBind) (a : Action) : Decidable (b.Punctual a) :=
  match a with
  | .openBind _ => inferInstanceAs (Decidable (∀ i < b.started, ∀ call ∈ b.calls i, _ = _))
  | .run i _ => inferInstanceAs (Decidable (∀ call ∈ b.calls i, ∀ mu ∈ _, _ = _))
  | .reload _ | .closeBind | .cancel | .closeEnd | .accept _ _ | .kill _ | .remove _
  | .send _ _ => isTrue trivial

theorem Next.starting {b : TcpBind} {dst : AddrPort} {stage now : Stage} {mu : Nat}
    (next : b.Next dst stage now) (dials : mu ∈ now.dialing?) : mu ∈ stage.starting? := by
  cases next with
  | dials => exact dials
  | _ => cases dials

/-- The dials in flight have the mutexes of the map. -/
structure Prepared (b : TcpBind) : Prop where
  tidy : b.Tidy
  shut : b.closing ≠ .idle → b.table.isOpen = false
  current : b.table.isOpen = true → ∀ i, ∀ call ∈ b.calls i, ∀ mu ∈ call.stage.dialing?,
    b.dialMu.lookup call.dst.string = some mu

namespace Prepared

variable {b b' : TcpBind}

variable (prepared : b.Prepared)

include prepared

theorem run {i : Nat} {ok : Bool} (punctual : b.Punctual (.run i ok)) :
    (b.step (.run i ok)).Prepared := by
  obtain same | ⟨call, found, now, -, ran⟩ := b.step_run_cases i ok
  · rw [same]
    exact prepared
  · have tidy := prepared.tidy.step (.run i ok)
    obtain ⟨base, same, frame⟩ := ran.result
    rw [same] at tidy ⊢
    refine ⟨tidy, ?_, fun opened j other there mu dials => frame.dialMu _ mu ?_⟩
    · change base.closing ≠ .idle → base.table.isOpen = false
      rw [frame.closing, frame.isOpen]
      exact prepared.shut
    · obtain ⟨-, own⟩ | ⟨-, before⟩ := Runs.mem_update there
      · cases own
        rw [ran.dst]
        exact punctual call found mu (ran.next.starting dials)
      · rw [frame.calls] at before
        exact prepared.current (frame.isOpen.symm.trans opened) j other before mu dials

theorem tell (e : SessionTable.Event) (notOpened : e ≠ .opened)
    (notClosed : e ≠ .closed) : (b.tell e).Prepared := by
  have isOpen : (b.tell e).table.isOpen = b.table.isOpen :=
    SessionTable.isOpen_apply notOpened notClosed
  refine ⟨prepared.tidy, ?_, ?_⟩
  · rw [isOpen]
    exact prepared.shut
  · rw [isOpen]
    exact prepared.current

theorem whileClosing (busy : b.closing ≠ .idle) {b' : TcpBind}
    (calls : b'.calls = b.calls) (started : b'.started = b.started)
    (table : b'.table = b.table) : b'.Prepared := by
  have shut : b'.table.isOpen = false := by
    rw [table]
    exact prepared.shut busy
  refine ⟨?_, fun _ => shut, fun opened => ?_⟩
  · rw [Tidy, calls, started]
    exact prepared.tidy
  · cases shut.symm.trans opened

theorem step (a : Action) (punctual : b.Punctual a) :
    (b.step a).Prepared := by
  cases a with
  | openBind allowOutbound =>
    rw [TcpBind.step]
    split
    · next ready =>
      refine ⟨prepared.tidy, fun busy => (busy ready.2).elim, ?_⟩
      intro _ i call found mu dials
      rw [punctual i (prepared.tidy.old found) call found] at dials
      cases dials
    · exact prepared
  | closeBind =>
    rw [TcpBind.step]
    split
    · exact ⟨prepared.tidy, fun _ => rfl, fun opened => (Bool.false_ne_true opened).elim⟩
    · exact prepared
  | reload =>
    rw [TcpBind.step]
    split
    · exact ⟨prepared.tidy, prepared.shut, prepared.current⟩
    · exact prepared
  | cancel | closeEnd =>
    rw [TcpBind.step]
    split
    · next busy => exact prepared.whileClosing (by simp [busy]) rfl rfl rfl
    · exact prepared
  | accept remote toNAT => exact prepared.tell (.install remote true toNAT) (by simp) (by simp)
  | kill s => exact prepared.tell (.kill s) (by simp) (by simp)
  | remove s =>
    rw [TcpBind.step]
    split
    · exact prepared
    · exact prepared.tell (.remove s) (by simp) (by simp)
  | send dst bufs =>
    refine ⟨prepared.tidy.step (.send dst bufs), prepared.shut, fun opened i call found => ?_⟩
    obtain ⟨-, same⟩ | ⟨-, before⟩ := Runs.mem_update found
    · cases same
      intro _ stage
      cases stage
    · exact prepared.current opened i call before
  | run i ok => exact prepared.run punctual

theorem singleDial (exclusive : b.Exclusive)
    (opened : b.table.isOpen = true) : b.SingleDial := by
  have owns : ∀ i dst, b.Dials i dst → ∃ mu, b.Owns i mu ∧ b.dialMu.lookup dst.string = some mu := by
    rintro i dst ⟨call, found, rfl, dials⟩
    obtain ⟨mu, dials⟩ := Option.isSome_iff_exists.mp dials
    refine ⟨mu, ⟨call, found, ?_⟩, prepared.current opened i call found mu dials⟩
    cases stage : call.stage with
    | dialing =>
      rw [stage] at dials
      exact dials
    | _ =>
      rw [stage] at dials
      cases dials
  intro dst i j first second
  obtain ⟨mu, own, current⟩ := owns i dst first
  obtain ⟨mu', own', current'⟩ := owns j dst second
  cases current.symm.trans current'
  exact (exclusive j mu own').2 i own

end Prepared

/-! ## The table -/

/-- An action that does not open the bind. -/
def NotOpen (_ : TcpBind) (a : Action) : Prop :=
  ∀ allowOutbound, a ≠ .openBind allowOutbound

/-- **What holds of the table at any time.** -/
structure Kept (b : TcpBind) : Prop where
  /-- A session is stored under the text of its destination. -/
  stored : ∀ key s, b.table.ListedAt key s →
    ∃ session ∈ b.table.heap s, session.dst.string = key
  /-- To drop a session removes no other one, such as the one that has replaced it. -/
  dropped : ∀ a s, b.event a = some (.remove s) → ∀ key other, b.table.ListedAt key other →
    other ≠ s → (b.step a).table.ListedAt key other
  /-- A lookup returns a live session of the table with the address of the destination, and one
  with another port only if it is the only live one of the address. -/
  found : ∀ dst s, b.table.lookupSession dst = some s → b.table.Listed s ∧
    ∃ session ∈ b.table.heap s, session.alive = true ∧ session.dst.addr = dst.addr ∧
      (session.dst.port ≠ dst.port → b.table.Sole dst.addr s)
  /-- A session that is replaced or dropped is not returned by a later lookup. -/
  discarded : ∀ a e s, b.event a = some e → b.table.Discards e s → ∀ later dst,
    (Runs.after step (b.step a) later).table.lookupSession dst ≠ some s
  /-- From `Close` to the next `Open` there is no session. -/
  closed : ∀ later, Runs.Along step NotOpen (b.step .closeBind) later →
    (Runs.after step (b.step .closeBind) later).table.sessions = none

variable {b : TcpBind}

theorem isOpen_step {a : Action} (notOpen : b.NotOpen a) (shut : b.table.isOpen = false) :
    (b.step a).table.isOpen = false := by
  cases a with
  | openBind allowOutbound => exact (notOpen allowOutbound rfl).elim
  | closeBind | reload | cancel | closeEnd =>
    rw [step]
    split
    · first | rfl | exact shut
    · exact shut
  | accept remote toNAT =>
    exact (SessionTable.isOpen_apply (e := .install remote true toNAT) (by simp) (by simp)).trans shut
  | kill => exact shut
  | remove s =>
    rw [step]
    split
    · exact shut
    · exact (SessionTable.isOpen_apply (e := .remove s) (by simp) (by simp)).trans shut
  | send => exact shut
  | run i ok =>
    obtain same | ⟨call, -, now, -, ran⟩ := b.step_run_cases i ok
    · rw [same]
      exact shut
    · obtain ⟨base, same, frame⟩ := ran.result
      rw [same]
      exact frame.isOpen.trans shut

theorem sound_after (sound : b.table.Sound) (actions : List Action) :
    (Runs.after step b actions).table.Sound :=
  Runs.always (fun b : TcpBind => b.table.Sound) (fun _ a sound => sound_step sound a) sound
    actions

theorem kept_of_sound (sound : b.table.Sound) : b.Kept where
  stored key s listed := by
    obtain ⟨session, found, same⟩ := sound.keyed key s listed
    exact ⟨session, found, (sound.texts s session found).symm.trans same⟩
  dropped a s drops key other listed differs := by
    rw [step_table, drops]
    exact SessionTable.listedAt_remove listed differs
  found dst s lookup := sound.lookup_spec lookup
  discarded a e s told discards later dst := by
    have gone : (b.step a).table.Gone s := by
      rw [step_table, told]
      exact discards.gone sound
    have never := Runs.always (fun b : TcpBind => b.table.Gone s) (fun _ a gone => gone_step gone a)
      gone later
    exact never.lookup_ne (sound_after (sound_step sound a) later) dst
  closed later run := by
    have shut : (b.step .closeBind).table.isOpen = false := by
      rw [step]
      split
      · rfl
      · next shut => exact Bool.eq_false_iff.mpr shut
    refine (sound_after (sound_step sound .closeBind) later).closed ?_
    exact Runs.invariant (fun b : TcpBind => b.table.isOpen = false)
      (fun _ _ shut notOpen => isOpen_step notOpen shut) shut run

theorem newTCPBind_exclusive : newTCPBind.Exclusive := by
  rintro i mu ⟨call, absent, -⟩
  cases absent

theorem newTCPBind_prepared : newTCPBind.Prepared where
  tidy _ _ := rfl
  shut busy := (busy rfl).elim
  current opened := nomatch opened

end TcpBind

open TcpBind

/-- **The session table.** After any schedule the table is kept; and when no dial reaches across an
`Open`, no two dials to one destination are in flight while the bind is open. -/
theorem sessionTable_kept (actions : List Action) :
    let b := Runs.after TcpBind.step newTCPBind actions
    b.Kept ∧ (Runs.Along TcpBind.step Punctual newTCPBind actions → b.table.isOpen = true →
      b.SingleDial) := by
  intro b
  have sound : b.table.Sound := sound_after SessionTable.newTable_sound actions
  have exclusive : b.Exclusive :=
    Runs.always Exclusive (fun _ a exclusive => exclusive.step a) newTCPBind_exclusive actions
  refine ⟨kept_of_sound sound, fun punctual opened => ?_⟩
  have prepared : b.Prepared :=
    Runs.invariant Prepared (fun _ a prepared punctual => prepared.step a punctual)
      newTCPBind_prepared punctual
  exact prepared.singleDial exclusive opened

/-- A listener with a public address. -/
def listener : AddrPort :=
  ⟨.v4 (Addr.ofOctets 203 0 113 7), 51820, nofun⟩

/-- Two calls for one destination: the second one waits for the mutex of the first, which
dials. -/
def patientCalls : List Action :=
  [.openBind true, .send listener [], .run 0 true, .send listener [[1, 0, 0, 0]], .run 1 true,
    .run 0 true, .run 1 true, .run 0 true, .run 1 true, .run 0 true, .run 0 true, .run 0 true,
    .run 1 true]

theorem patientCalls_single : Runs.Along TcpBind.step Punctual newTCPBind patientCalls ∧
      (Runs.after TcpBind.step newTCPBind patientCalls).table.isOpen = true ∧
      (Runs.after TcpBind.step newTCPBind patientCalls).Dials 0 listener ∧
      (Runs.after TcpBind.step newTCPBind patientCalls).SingleDial := by
  have punctual : Runs.Along TcpBind.step Punctual newTCPBind patientCalls := by
    decide +kernel
  have opened : (Runs.after TcpBind.step newTCPBind patientCalls).table.isOpen = true := by
    decide +kernel
  exact ⟨punctual, opened, by decide +kernel,
    (sessionTable_kept patientCalls).2 punctual opened⟩

/-- A call of `keepWarm` has its mutex when the device closes and reopens the bind, and goes on
to dial; then a packet is sent to the same destination. -/
def staleDial : List Action :=
  [.openBind true, .send listener [], .run 0 true, .run 0 true, .run 0 true,
    .closeBind, .cancel, .closeEnd, .openBind true,
    .run 0 true, .run 0 true, .run 0 true,
    .send listener [[1, 0, 0, 0]], .run 1 true, .run 1 true, .run 1 true, .run 1 true,
    .run 1 true, .run 1 true]

/-- Both dial at once. -/
theorem staleDial_double : (Runs.after TcpBind.step newTCPBind staleDial).table.isOpen = true ∧
      ¬ (Runs.after TcpBind.step newTCPBind staleDial).SingleDial := by
  refine ⟨by decide +kernel, fun single => ?_⟩
  have first : (Runs.after TcpBind.step newTCPBind staleDial).Dials 0 listener := by
    decide +kernel
  have second : (Runs.after TcpBind.step newTCPBind staleDial).Dials 1 listener := by
    decide +kernel
  cases single listener 0 1 first second

end Conn
