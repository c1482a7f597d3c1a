import WireguardMesh.Conn.Sessions

/-! # Frames and their destination

A `Send` writes its frames to the session that `lookupSession` finds or to one that it dials. The
lookup falls back to the only live session of the address, also when that was dialed to another
port, so two listeners behind one public address share the session of the one that was dialed first
(`secondListener_misled`).

A lookup is misled exactly when the destination has no live session of its own and the only live
session of its address was dialed (`SessionTable.shared`); a run without such a lookup writes every
frame to a session of its destination, or to one that was accepted (`sent_to_destination`).
-/

namespace Conn

open Net

namespace SessionTable

/-- The destination has a live session. -/
def served (t : SessionTable) (dst : AddrPort) : Bool :=
  (t.sessions.bind fun sessions => sessions.lookup dst.string).any t.alive

def liveSessions (t : SessionTable) (ip : Addr) : List Nat :=
  t.sessions.elim [] fun sessions => (sessions.entries.map Sigma.snd).filter (t.liveAt ip)

/-- The destination has no live session, and the only live session of its address was dialed. -/
def shared (t : SessionTable) (dst : AddrPort) : Bool :=
  !t.served dst &&
    match t.liveSessions dst.addr with
    | [s] => (t.heap s).any fun session => !session.inbound
    | _ => false

/-- A session was accepted, or dialed to a destination. -/
def Right (t : SessionTable) (dst : AddrPort) (s : Nat) : Prop :=
  ∃ session ∈ t.heap s, session.inbound = false → session.dst = dst

variable {t : SessionTable} {dst : AddrPort} {s : Nat}

theorem served_iff : t.served dst = true ↔ ∃ own, t.ListedAt dst.string own ∧ t.alive own = true := by
  rw [served, Option.any_eq_true]
  constructor
  · rintro ⟨own, found, lives⟩
    obtain ⟨sessions, inMap, found⟩ := Option.bind_eq_some_iff.mp found
    exact ⟨own, ⟨sessions, inMap, found⟩, lives⟩
  · rintro ⟨own, ⟨sessions, inMap, found⟩, lives⟩
    exact ⟨own, Option.bind_eq_some_iff.mpr ⟨sessions, inMap, found⟩, lives⟩

theorem Sound.liveSessions_eq (sound : t.Sound) {ip : Addr} :
    t.liveSessions ip = [s] ↔ t.Sole ip s := by
  rw [liveSessions]
  cases inMap : t.sessions with
  | none =>
    refine iff_of_false nofun ?_
    rintro ⟨⟨_, _, absent, -⟩, -⟩
    rw [inMap] at absent
    cases absent
  | some sessions => exact sound.filter_eq_singleton inMap

theorem shared_eq_true : t.shared dst = true ↔ t.served dst = false ∧
    ∃ s, t.liveSessions dst.addr = [s] ∧ ∃ session ∈ t.heap s, session.inbound = false := by
  rw [shared, Bool.and_eq_true, Bool.not_eq_true']
  refine and_congr_right fun _ => ?_
  split
  · next s single =>
    rw [Option.any_eq_true]
    simp only [single, List.cons.injEq, and_true, Bool.not_eq_true', exists_eq_left']
    rfl
  · next several =>
    refine iff_of_false Bool.false_ne_true ?_
    rintro ⟨s, single, -⟩
    exact several s single

/-- The session stored for a destination was accepted from it or dialed to it. -/
theorem Sound.right_of_listedAt (sound : t.Sound) (listed : t.ListedAt dst.string s) :
    ∃ session ∈ t.heap s, session.dst = dst := by
  obtain ⟨session, found, key⟩ := sound.keyed _ s listed
  exact ⟨session, found,
    AddrPort.string_injective ((sound.texts s session found).symm.trans key)⟩

theorem served_eq_false : t.served dst = false ↔
    ∀ own, t.ListedAt dst.string own → t.alive own = false := by
  rw [← Bool.not_eq_true, served_iff]
  constructor
  · intro unserved own listed
    exact Bool.eq_false_iff.mpr fun lives => unserved ⟨own, listed, lives⟩
  · rintro dead ⟨own, listed, lives⟩
    rw [dead own listed] at lives
    cases lives

/-- **Misled lookups.** -/
theorem Sound.shared_iff (sound : t.Sound) :
    t.shared dst = true ↔ ∃ s, t.lookupSession dst = some s ∧ ¬ t.Right dst s := by
  rw [shared_eq_true, served_eq_false]
  constructor
  · rintro ⟨dead, s, single, session, found, dialed⟩
    have sole := sound.liveSessions_eq.mp single
    refine ⟨s, sound.lookup_eq_some.mpr (.inr ⟨dead, sole⟩), ?_⟩
    -- a session of the destination itself would be stored for it, and alive
    rintro ⟨_, again, right⟩
    cases Option.mem_unique found again
    obtain ⟨key, listed⟩ := sole.listed
    obtain ⟨_, again, same⟩ := sound.keyed key s listed
    cases Option.mem_unique found again
    rw [← same, sound.texts s session found, right dialed] at listed
    obtain ⟨_, again, lives, -⟩ := liveAt_iff.mp sole.live
    have alive := alive_iff.mpr ⟨_, again, lives⟩
    rw [dead s listed] at alive
    cases alive
  · rintro ⟨s, lookup, wrong⟩
    obtain ⟨listed, -⟩ | ⟨dead, sole⟩ := sound.lookup_eq_some.mp lookup
    · obtain ⟨session, found, same⟩ := sound.right_of_listedAt listed
      exact (wrong ⟨session, found, fun _ => same⟩).elim
    · obtain ⟨session, found, -⟩ := liveAt_iff.mp sole.live
      refine ⟨dead, s, sound.liveSessions_eq.mpr sole, session, found, ?_⟩
      by_contra accepted
      exact wrong ⟨session, found, fun dialed => (accepted dialed).elim⟩

theorem Right.apply (right : t.Right dst s) (sound : t.Sound) (e : Event) :
    (t.apply e).Right dst s := by
  obtain ⟨session, found, dialed⟩ := right
  obtain ⟨now, there, ages⟩ := sound.ages found e
  refine ⟨now, there, ?_⟩
  rw [ages.inbound, ages.dst]
  exact dialed

theorem right_installed (new : t.installed = some s) :
    (t.apply (.install dst false false)).Right dst s := by
  rw [installed] at new
  split at new
  · next ready =>
    cases new
    rw [SessionTable.apply, if_pos ready]
    exact ⟨_, heap_place_self .., fun _ => rfl⟩
  · cases new

end SessionTable

/-- The session that a call writes to. -/
def Stage.sending? : Stage → Option Nat
  | .sending s => some s
  | .lookingUp | .choosing | .waiting _ | .locked _ | .checking _ | .starting _ | .dialing _ _
  | .installing _ | .dropping _ | .returned _ => none

/-- A call is before a lookup. -/
def Stage.looks : Stage → Bool
  | .lookingUp | .locked _ => true
  | .choosing | .waiting _ | .checking _ | .starting _ | .dialing _ _ | .installing _
  | .sending _ | .dropping _ | .returned _ => false

namespace TcpBind

/-- No call with frames looks for a session when its destination shares one. -/
def Apart (b : TcpBind) : Action → Prop
  | .run i _ => ∀ call ∈ b.calls i, call.stage.looks = true → call.bufs ≠ [] →
      b.table.shared call.dst = false
  | .openBind _ | .reload _ | .closeBind | .cancel | .closeEnd | .accept _ _ | .kill _
  | .remove _ | .send _ _ => True

instance (b : TcpBind) (a : Action) : Decidable (b.Apart a) :=
  match a with
  | .run i _ => inferInstanceAs (Decidable (∀ call ∈ b.calls i, _ → _ → _ = _))
  | .openBind _ | .reload _ | .closeBind | .cancel | .closeEnd | .accept _ _ | .kill _
  | .remove _ | .send _ _ => isTrue trivial

/-- Every frame was written to a session of the destination it was sent to, or to one that was
accepted. -/
def SentRight (b : TcpBind) : Prop :=
  ∀ entry ∈ b.sent, b.table.Right entry.1 entry.2.1

/-- The sessions that calls write to are right, too. -/
structure Addressed (b : TcpBind) : Prop where
  sound : b.table.Sound
  sent : b.SentRight
  calls : ∀ i, ∀ call ∈ b.calls i, ∀ s ∈ call.stage.sending?, call.bufs ≠ [] →
    b.table.Right call.dst s

namespace Addressed

variable {b b' : TcpBind}

theorem tell (addressed : b.Addressed) (e : SessionTable.Event) : (b.tell e).Addressed where
  sound := addressed.sound.apply e
  sent entry member := (addressed.sent entry member).apply addressed.sound e
  calls i call found s sending some :=
    (addressed.calls i call found s sending some).apply addressed.sound e

theorem congr (addressed : b.Addressed) (table : b'.table = b.table) (calls : b'.calls = b.calls)
    (sent : b'.sent = b.sent) : b'.Addressed := by
  obtain ⟨sound, right, held⟩ := addressed
  rw [← table] at sound held
  rw [← calls] at held
  refine ⟨sound, ?_, held⟩
  rw [SentRight, table, sent]
  exact right

/-- The next session of a call is found by a lookup, dialed, or the one it has. -/
theorem next {dst : AddrPort} {stage now : Stage} {s : Nat} (next : b.Next dst stage now)
    (sending : s ∈ now.sending?) : stage.looks = true ∧ b.table.lookupSession dst = some s ∨
      (∃ mu, stage = .installing mu) ∧ b.table.installed = some s ∨ s ∈ stage.sending? := by
  cases next with
  | found there =>
    cases sending
    exact .inl ⟨rfl, there⟩
  | foundLate mu there =>
    cases sending
    exact .inl ⟨rfl, there⟩
  | installed mu new =>
    cases sending
    exact .inr (.inl ⟨⟨mu, rfl⟩, new⟩)
  | wrote => exact .inr (.inr sending)
  | _ => cases sending

theorem right_after (addressed : b.Addressed) {dst : AddrPort} {s : Nat}
    (right : b.table.Right dst s) (e : Option SessionTable.Event) :
    (tableAfter b.table e).Right dst s := by
  cases e with
  | none => exact right
  | some e => exact right.apply addressed.sound e

theorem ran (addressed : b.Addressed) {i : Nat} {ok : Bool} {call now : Call} {s : Nat}
    (found : call ∈ b.calls i) (apart : b.Apart (.run i ok))
    (next : b.Next call.dst call.stage now.stage) (sending : s ∈ now.stage.sending?)
    (some : call.bufs ≠ []) : (tableAfter b.table (b.callEvent ok call)).Right call.dst s := by
  obtain ⟨looks, lookup⟩ | ⟨⟨mu, stage⟩, new⟩ | same := Addressed.next next sending
  · refine addressed.right_after ?_ _
    have unshared := apart call found looks some
    by_contra wrong
    rw [addressed.sound.shared_iff.mpr ⟨s, lookup, wrong⟩] at unshared
    cases unshared
  · have told : b.callEvent ok call = .some (.install call.dst false false) := by
      rw [callEvent, stage]
    rw [told]
    exact SessionTable.right_installed new
  · exact addressed.right_after (addressed.calls i call found s same some) _

theorem run (addressed : b.Addressed) {i : Nat} {ok : Bool} (apart : b.Apart (.run i ok)) :
    (b.step (.run i ok)).Addressed := by
  obtain same | ⟨call, found, now, runs, ran⟩ := b.step_run_cases i ok
  · rw [same]
    exact addressed
  · have table : (b.step (.run i ok)).table = tableAfter b.table (b.callEvent ok call) := by
      rw [runs]
      exact table_runCall i ok call
    obtain ⟨base, same, frame⟩ := ran.result
    refine ⟨sound_step addressed.sound _, fun entry member => ?_,
      fun j other there s sending some => ?_⟩
    · rw [table]
      rw [same] at member
      refine addressed.right_after ?_ _
      obtain old | ⟨dst, stage, some⟩ := frame.sent entry member
      · exact addressed.sent entry old
      · rw [dst]
        refine addressed.calls i call found _ ?_ some
        rw [stage]
        rfl
    · rw [table]
      rw [same] at there
      obtain ⟨-, own⟩ | ⟨-, before⟩ := Runs.mem_update there
      · cases own
        rw [ran.dst]
        exact addressed.ran found apart ran.next sending fun none => some (ran.bufs none)
      · rw [frame.calls] at before
        exact addressed.right_after (addressed.calls j other before s sending some) _

theorem step (addressed : b.Addressed) (a : Action) (apart : b.Apart a) : (b.step a).Addressed := by
  cases a with
  | openBind =>
    rw [TcpBind.step]
    split
    · exact (addressed.tell .opened).congr rfl rfl rfl
    · exact addressed
  | closeBind =>
    rw [TcpBind.step]
    split
    · exact (addressed.tell .closed).congr rfl rfl rfl
    · exact addressed
  | reload | cancel | closeEnd =>
    rw [TcpBind.step]
    split
    · exact addressed.congr rfl rfl rfl
    · exact addressed
  | accept remote toNAT => exact addressed.tell _
  | kill s => exact addressed.tell _
  | remove s =>
    rw [TcpBind.step]
    split
    · exact addressed
    · exact addressed.tell _
  | send dst bufs =>
    refine ⟨addressed.sound, addressed.sent, fun i call found => ?_⟩
    obtain ⟨-, same⟩ | ⟨-, before⟩ := Runs.mem_update found
    · cases same
      intro _ sending
      cases sending
    · exact addressed.calls i call before
  | run i ok => exact addressed.run apart

end Addressed

theorem newTCPBind_addressed : newTCPBind.Addressed where
  sound := SessionTable.newTable_sound
  sent _ member := nomatch member
  calls _ _ found := nomatch found

end TcpBind

open TcpBind

/-- **Frames go where they are sent.** After any schedule, the lookups that would return a session
dialed to another destination are those with a shared session; and if no `Send` makes such a
lookup, every frame was written to a session of its destination, or to an accepted one. -/
theorem sent_to_destination (actions : List Action) :
    let b := Runs.after TcpBind.step newTCPBind actions
    (∀ dst, b.table.shared dst = true ↔
      ∃ s, b.table.lookupSession dst = some s ∧ ¬ b.table.Right dst s) ∧
      (Runs.Along TcpBind.step Apart newTCPBind actions → b.SentRight) := by
  intro b
  have sound : b.table.Sound := sound_after SessionTable.newTable_sound actions
  refine ⟨fun dst => sound.shared_iff, fun apart => ?_⟩
  have addressed : b.Addressed :=
    Runs.invariant Addressed (fun _ a addressed apart => addressed.step a apart)
      newTCPBind_addressed apart
  exact addressed.sent

/-- Another listener behind the same public address. -/
def otherListener : AddrPort :=
  { listener with port := 51821 }

/-- A destination with an address of its own. -/
def remoteListener : AddrPort :=
  ⟨.v4 (Addr.ofOctets 198 51 100 4), 51820, nofun⟩

/-- A call runs to its end, with a network that works. -/
def runs (i steps : Nat) : List Action :=
  List.replicate steps (.run i true)

/-- Two listeners with addresses of their own. -/
def separateListeners : List Action :=
  .openBind true :: .send listener [[1, 0, 0, 0]] :: runs 0 10 ++
    .send remoteListener [[2, 0, 0, 0]] :: runs 1 10

theorem separateListeners_right : Runs.Along TcpBind.step Apart newTCPBind separateListeners ∧
      (Runs.after TcpBind.step newTCPBind separateListeners).sent.length = 2 ∧
      (Runs.after TcpBind.step newTCPBind separateListeners).SentRight := by
  have apart : Runs.Along TcpBind.step Apart newTCPBind separateListeners := by
    decide +kernel
  exact ⟨apart, by decide +kernel, (sent_to_destination separateListeners).2 apart⟩

/-- A frame for the first listener, then one for the other listener behind its address. -/
def sharedAddress : List Action :=
  .openBind true :: .send listener [[1, 0, 0, 0]] :: runs 0 10 ++
    .send otherListener [[2, 0, 0, 0]] :: runs 1 3

/-- The second frame is written to the session that was dialed to the first listener. -/
theorem secondListener_misled : (otherListener, 0, [2, 0, 0, 0]) ∈
        (Runs.after TcpBind.step newTCPBind sharedAddress).sent ∧
      (Runs.after TcpBind.step newTCPBind sharedAddress).table.heap 0 =
        some ⟨listener.string, listener, true, false, false⟩ ∧
      ¬ (Runs.after TcpBind.step newTCPBind sharedAddress).SentRight := by
  have sent : (otherListener, 0, [2, 0, 0, 0]) ∈
      (Runs.after TcpBind.step newTCPBind sharedAddress).sent := by
    decide +kernel
  have dialed : (Runs.after TcpBind.step newTCPBind sharedAddress).table.heap 0 =
      some ⟨listener.string, listener, true, false, false⟩ := by
    decide +kernel
  refine ⟨sent, dialed, fun right => ?_⟩
  obtain ⟨session, found, same⟩ := right _ sent
  cases dialed.symm.trans found
  exact absurd (same rfl) (by decide)

end Conn
