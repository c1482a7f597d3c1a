import WireguardMesh.Foundation.GoMap
import WireguardMesh.Foundation.Runs
import WireguardMesh.Net.HostPort
import Mathlib.Logic.Function.Basic

/-! # The session table of a TCP bind

A `TCPBind` keeps its TCP sessions in a map by the text of their destination. A session is an
object of its own: goroutines hold on to it after it has left the map, and mark it dead without
the lock of the map. Sessions are numbered in the order in which they are made.

The operations are the critical sections of `installSessionToNAT`, `dropSession`, `Open` and
`Close`, and the write that marks a session dead. `SessionTable.Sound` is what they keep, and
`SessionTable.lookup_spec` what `lookupSession` then returns.
-/

namespace Conn

open Net

structure TcpSession where
  key : List Char
  dst : AddrPort
  alive : Bool
  inbound : Bool
  toNAT : Bool
deriving DecidableEq

/-- The part of `TCPBind` with the sessions. The map is nil unless the bind is open; `inboundIPs`
lists the addresses that have connected since then. -/
structure SessionTable where
  isOpen : Bool
  sessions : Option (GoMap (List Char) Nat)
  inboundIPs : List Addr
  heap : Nat → Option TcpSession
  made : Nat

/-- The table of `NewTCPBind`. -/
def newTable : SessionTable :=
  ⟨false, none, [], fun _ => none, 0⟩

namespace SessionTable

/-- `session.alive`. -/
def alive (t : SessionTable) (s : Nat) : Bool :=
  (t.heap s).any (·.alive)

/-- A session is alive and has an address. -/
def liveAt (t : SessionTable) (ip : Addr) (s : Nat) : Bool :=
  (t.heap s).any fun session => session.alive && decide (session.dst.addr = ip)

def lookupSession (t : SessionTable) (dst : AddrPort) : Option Nat :=
  match t.sessions with
  | none => none
  | some sessions =>
    if t.isOpen then
      match (sessions.lookup dst.string).filter t.alive with
      | some s => some s
      | none =>
        -- the session of the same address, if there is only one
        match (sessions.entries.map Sigma.snd).filter (t.liveAt dst.addr) with
        | [s] => some s
        | _ => none
    else none

/-- The session that `installSessionToNAT` returns. -/
def installed (t : SessionTable) : Option Nat :=
  if t.isOpen && t.sessions.isSome then some t.made else none

/-- A critical section, or a write to a session. -/
inductive Event
  /-- `Open` -/
  | opened
  /-- The first part of `Close`. -/
  | closed
  /-- `installSessionToNAT` -/
  | install (dst : AddrPort) (inbound toNAT : Bool)
  /-- `session.alive = false`, in `dropSession`, or in `installSessionToNAT` for the session that
  was replaced -/
  | kill (s : Nat)
  /-- The critical section of `dropSession`. -/
  | remove (s : Nat)
deriving DecidableEq

/-- The entry of a new session. -/
def place (t : SessionTable) (dst : AddrPort) (inbound toNAT : Bool) : SessionTable :=
  { t with
    sessions := t.sessions.map fun sessions => sessions.insert dst.string t.made
    inboundIPs := if inbound then dst.addr :: t.inboundIPs else t.inboundIPs
    heap := Function.update t.heap t.made (some ⟨dst.string, dst, true, inbound, toNAT⟩)
    made := t.made + 1 }

/-- `session.alive = false`. -/
def setDead (t : SessionTable) (s : Nat) : SessionTable :=
  { t with
    heap := Function.update t.heap s
      ((t.heap s).map fun session => { session with alive := false }) }

/-- The map without a session, if the session is still what is stored under its key. -/
def unlist (t : SessionTable) (s : Nat) (session : TcpSession) : SessionTable :=
  { t with
    sessions := t.sessions.map fun sessions =>
      if sessions.lookup session.key = some s then sessions.erase session.key else sessions }

/-- A table after an event. -/
def apply (t : SessionTable) : Event → SessionTable
  | .opened => { t with isOpen := true, sessions := some ∅, inboundIPs := [] }
  | .closed => { t with isOpen := false, sessions := none, inboundIPs := [] }
  | .install dst inbound toNAT =>
    if t.isOpen && t.sessions.isSome then t.place dst inbound toNAT else t
  | .kill s => t.setDead s
  | .remove s => (t.heap s).elim t (t.unlist s)

/-- A session is in the map, under a key. -/
def ListedAt (t : SessionTable) (key : List Char) (s : Nat) : Prop :=
  ∃ sessions ∈ t.sessions, s ∈ sessions.lookup key

/-- A session is in the map. -/
def Listed (t : SessionTable) (s : Nat) : Prop :=
  ∃ key, t.ListedAt key s

/-- A session is the only live one of an address. -/
structure Sole (t : SessionTable) (ip : Addr) (s : Nat) : Prop where
  listed : t.Listed s
  live : t.liveAt ip s = true
  only : ∀ other, t.Listed other → t.liveAt ip other = true → other = s

/-- **What every event keeps.** A session is stored under its key, the text of its destination; a
bind that is not open has no map; and the numbers from `made` on are free. -/
structure Sound (t : SessionTable) : Prop where
  keyed : ∀ key s, t.ListedAt key s → ∃ session ∈ t.heap s, session.key = key
  texts : ∀ s, ∀ session ∈ t.heap s, session.key = session.dst.string
  closed : t.isOpen = false → t.sessions = none
  fresh : ∀ s, t.made ≤ s → t.heap s = none

theorem newTable_sound : newTable.Sound where
  keyed _ _ listed := by
    obtain ⟨_, absent, _⟩ := listed
    cases absent
  texts _ _ found := nomatch found
  closed _ := rfl
  fresh _ _ := rfl

/-! ## What an event changes -/

/-- A session and the same session later on, when it may have died. -/
def Ages (before now : TcpSession) : Prop :=
  now = before ∨ now = { before with alive := false }

theorem Ages.key {before now : TcpSession} (ages : Ages before now) : now.key = before.key := by
  obtain rfl | rfl := ages <;> rfl

theorem Ages.dst {before now : TcpSession} (ages : Ages before now) : now.dst = before.dst := by
  obtain rfl | rfl := ages <;> rfl

theorem Ages.inbound {before now : TcpSession} (ages : Ages before now) :
    now.inbound = before.inbound := by
  obtain rfl | rfl := ages <;> rfl

variable {t : SessionTable} {s : Nat}

theorem alive_iff : t.alive s = true ↔ ∃ session ∈ t.heap s, session.alive = true := by
  rw [alive, Option.any_eq_true]
  rfl

theorem liveAt_iff {ip : Addr} : t.liveAt ip s = true ↔
    ∃ session ∈ t.heap s, session.alive = true ∧ session.dst.addr = ip := by
  rw [liveAt, Option.any_eq_true]
  simp only [Bool.and_eq_true, decide_eq_true_eq]
  rfl

theorem Sound.lt_made (sound : t.Sound) {session : TcpSession} (found : session ∈ t.heap s) :
    s < t.made := by
  by_contra beyond
  rw [sound.fresh s (not_lt.mp beyond)] at found
  cases found

theorem heap_place_self (dst : AddrPort) (inbound toNAT : Bool) :
    (t.place dst inbound toNAT).heap t.made = some ⟨dst.string, dst, true, inbound, toNAT⟩ :=
  Function.update_self ..

theorem heap_place_of_ne (dst : AddrPort) (inbound toNAT : Bool) (old : s ≠ t.made) :
    (t.place dst inbound toNAT).heap s = t.heap s :=
  Function.update_of_ne old ..

theorem heap_setDead_self : (t.setDead s).heap s =
    (t.heap s).map fun session => { session with alive := false } :=
  Function.update_self ..

theorem heap_setDead_of_ne {other : Nat} (differs : s ≠ other) :
    (t.setDead other).heap s = t.heap s :=
  Function.update_of_ne differs ..

theorem heap_remove (other : Nat) : (t.apply (.remove other)).heap = t.heap := by
  rw [apply]
  cases t.heap other <;> rfl

theorem Sound.ages (sound : t.Sound) {session : TcpSession} (found : session ∈ t.heap s)
    (e : Event) : ∃ now ∈ (t.apply e).heap s, Ages session now := by
  cases e with
  | opened | closed => exact ⟨session, found, .inl rfl⟩
  | install dst inbound toNAT =>
    refine ⟨session, ?_, .inl rfl⟩
    rw [apply]
    split
    · rwa [heap_place_of_ne _ _ _ (sound.lt_made found).ne]
    · exact found
  | kill other =>
    rw [apply]
    by_cases same : s = other
    · subst same
      rw [heap_setDead_self, Option.mem_def.mp found]
      exact ⟨_, rfl, .inr rfl⟩
    · rw [heap_setDead_of_ne same]
      exact ⟨session, found, .inl rfl⟩
  | remove other =>
    rw [heap_remove]
    exact ⟨session, found, .inl rfl⟩

theorem mem_heap_apply {e : Event} {now : TcpSession} (found : now ∈ (t.apply e).heap s) :
    (∃ session ∈ t.heap s, Ages session now) ∨
      s = t.made ∧ ∃ dst inbound toNAT, e = .install dst inbound toNAT ∧
        now = ⟨dst.string, dst, true, inbound, toNAT⟩ := by
  cases e with
  | opened | closed => exact .inl ⟨now, found, .inl rfl⟩
  | install dst inbound toNAT =>
    rw [apply] at found
    split at found
    · by_cases new : s = t.made
      · subst new
        rw [heap_place_self] at found
        cases found
        exact .inr ⟨rfl, dst, inbound, toNAT, rfl, rfl⟩
      · rw [heap_place_of_ne _ _ _ new] at found
        exact .inl ⟨now, found, .inl rfl⟩
    · exact .inl ⟨now, found, .inl rfl⟩
  | kill other =>
    rw [apply] at found
    by_cases same : s = other
    · subst same
      rw [heap_setDead_self] at found
      obtain ⟨session, before, rfl⟩ := Option.map_eq_some_iff.mp found
      exact .inl ⟨session, before, .inr rfl⟩
    · rw [heap_setDead_of_ne same] at found
      exact .inl ⟨now, found, .inl rfl⟩
  | remove other =>
    rw [heap_remove] at found
    exact .inl ⟨now, found, .inl rfl⟩

theorem listedAt_place {dst : AddrPort} {inbound toNAT : Bool} {key : List Char}
    (listed : (t.place dst inbound toNAT).ListedAt key s) :
    t.ListedAt key s ∧ key ≠ dst.string ∨ s = t.made ∧ key = dst.string := by
  obtain ⟨sessions, current, found⟩ := listed
  obtain ⟨before, inMap, rfl⟩ := Option.map_eq_some_iff.mp current
  rw [GoMap.lookup_insert] at found
  split at found
  · next same =>
    cases found
    exact .inr ⟨rfl, same⟩
  · next differs => exact .inl ⟨⟨before, inMap, found⟩, differs⟩

theorem listedAt_unlist {session : TcpSession} {key : List Char} {other : Nat} :
    (t.unlist s session).ListedAt key other ↔
      t.ListedAt key other ∧ ¬ (key = session.key ∧ other = s) := by
  constructor
  · rintro ⟨_, current, found⟩
    obtain ⟨sessions, inMap, rfl⟩ := Option.map_eq_some_iff.mp current
    split at found
    · by_cases same : key = session.key
      · rw [same, AList.lookup_erase] at found
        cases found
      · rw [AList.lookup_erase_ne same] at found
        exact ⟨⟨sessions, inMap, found⟩, fun own => same own.1⟩
    · next foreign =>
      refine ⟨⟨sessions, inMap, found⟩, ?_⟩
      rintro ⟨rfl, rfl⟩
      exact foreign found
  · rintro ⟨⟨sessions, inMap, found⟩, differs⟩
    refine ⟨_, Option.map_eq_some_iff.mpr ⟨sessions, inMap, rfl⟩, ?_⟩
    split
    · next own =>
      have elsewhere : key ≠ session.key := by
        rintro rfl
        exact differs ⟨rfl, Option.mem_unique found own⟩
      rwa [AList.lookup_erase_ne elsewhere]
    · exact found

/-- A session that is listed was listed, or is the one that was installed. -/
theorem listedAt_apply {e : Event} {key : List Char} (listed : (t.apply e).ListedAt key s) :
    t.ListedAt key s ∨ s = t.made ∧ ∃ dst inbound toNAT, e = .install dst inbound toNAT ∧
      key = dst.string ∧ (t.apply e).heap s = some ⟨key, dst, true, inbound, toNAT⟩ := by
  cases e with
  | opened =>
    obtain ⟨sessions, current, found⟩ := listed
    cases current
    rw [AList.lookup_empty] at found
    cases found
  | closed =>
    obtain ⟨sessions, absent, -⟩ := listed
    cases absent
  | install dst inbound toNAT =>
    rw [apply] at listed ⊢
    split at listed
    · next ready =>
      obtain ⟨before, -⟩ | ⟨rfl, rfl⟩ := listedAt_place listed
      · exact .inl before
      · refine .inr ⟨rfl, dst, inbound, toNAT, rfl, rfl, ?_⟩
        rw [if_pos ready, heap_place_self]
    · exact .inl listed
  | kill => exact .inl listed
  | remove other =>
    rw [apply] at listed
    cases found : t.heap other with
    | none =>
      rw [found] at listed
      exact .inl listed
    | some session =>
      rw [found] at listed
      exact .inl (listedAt_unlist.mp listed).1

/-- **A drop removes nothing else.** Another session stays in the map, also when it has replaced
the one dropped. -/
theorem listedAt_remove {key : List Char} {other : Nat} (listed : t.ListedAt key other)
    (differs : other ≠ s) : (t.apply (.remove s)).ListedAt key other := by
  rw [apply]
  cases t.heap s with
  | none => exact listed
  | some session => exact listedAt_unlist.mpr ⟨listed, fun same => differs same.2⟩

/-! ## Invariants -/

theorem isOpen_apply {e : Event} (notOpened : e ≠ .opened) (notClosed : e ≠ .closed) :
    (t.apply e).isOpen = t.isOpen := by
  cases e with
  | opened => exact (notOpened rfl).elim
  | closed => exact (notClosed rfl).elim
  | install =>
    rw [apply]
    split <;> rfl
  | kill => rfl
  | remove s =>
    rw [apply]
    cases t.heap s <;> rfl

theorem made_le_apply (e : Event) : t.made ≤ (t.apply e).made := by
  cases e with
  | opened | closed | kill => exact le_rfl
  | install =>
    rw [apply]
    split
    · exact Nat.le_succ _
    · exact le_rfl
  | remove s =>
    rw [apply]
    cases t.heap s <;> exact le_rfl

theorem Sound.apply (sound : t.Sound) (e : Event) : (t.apply e).Sound where
  keyed key s listed := by
    obtain before | ⟨-, dst, inbound, toNAT, -, rfl, heap⟩ := listedAt_apply listed
    · obtain ⟨session, found, same⟩ := sound.keyed key s before
      obtain ⟨now, there, ages⟩ := sound.ages found e
      exact ⟨now, there, ages.key.trans same⟩
    · exact ⟨_, heap, rfl⟩
  texts s now found := by
    obtain ⟨session, before, ages⟩ | ⟨-, dst, inbound, toNAT, -, rfl⟩ := mem_heap_apply found
    · rw [ages.key, ages.dst]
      exact sound.texts s session before
    · rfl
  closed shut := by
    cases e with
    | opened => cases shut
    | closed => rfl
    | install dst inbound toNAT =>
      rw [isOpen_apply (e := .install dst inbound toNAT) nofun nofun] at shut
      rw [SessionTable.apply, shut, Bool.false_and, if_neg Bool.false_ne_true]
      exact sound.closed shut
    | kill => exact sound.closed shut
    | remove other =>
      rw [isOpen_apply (e := .remove other) nofun nofun] at shut
      have before := sound.closed shut
      rw [SessionTable.apply]
      cases t.heap other with
      | none => exact before
      | some session =>
        change t.sessions.map _ = none
        rw [before, Option.map_none]
  fresh s beyond := by
    rw [Option.eq_none_iff_forall_not_mem]
    intro now found
    obtain ⟨session, before, -⟩ | ⟨rfl, dst, inbound, toNAT, rfl, rfl⟩ := mem_heap_apply found
    · rw [sound.fresh s ((made_le_apply e).trans beyond)] at before
      cases before
    · rw [SessionTable.apply] at beyond found
      split at beyond
      · exact absurd beyond (Nat.not_succ_le_self _)
      · next unready =>
        rw [if_neg unready, sound.fresh _ le_rfl] at found
        cases found

/-- A session has left the map, or is dead. -/
def Gone (t : SessionTable) (s : Nat) : Prop :=
  s < t.made ∧ (t.alive s = true → ¬ t.Listed s)

theorem Gone.apply (gone : t.Gone s) (e : Event) : (t.apply e).Gone s := by
  obtain ⟨old, away⟩ := gone
  refine ⟨old.trans_le (made_le_apply e), fun lives listed => ?_⟩
  obtain ⟨now, found, lives⟩ := alive_iff.mp lives
  obtain ⟨key, listed⟩ := listed
  obtain before | ⟨rfl, -⟩ := listedAt_apply listed
  · obtain ⟨session, earlier, ages⟩ | ⟨rfl, -⟩ := mem_heap_apply found
    · refine away (alive_iff.mpr ⟨session, earlier, ?_⟩) ⟨key, before⟩
      obtain rfl | rfl := ages
      · exact lives
      · cases lives
    · exact lt_irrefl _ old
  · exact lt_irrefl _ old

/-- An event replaces a session, or marks it dead. -/
def Discards (t : SessionTable) (e : Event) (s : Nat) : Prop :=
  s < t.made ∧ (e = .kill s ∨
    ∃ dst inbound toNAT, e = .install dst inbound toNAT ∧ t.ListedAt dst.string s)

/-! ## Lookups -/

theorem Sound.isOpen (sound : t.Sound) (listed : t.Listed s) : t.isOpen = true := by
  obtain ⟨key, sessions, inMap, -⟩ := listed
  by_contra shut
  rw [sound.closed (Bool.eq_false_iff.mpr shut)] at inMap
  cases inMap

theorem Sound.key_unique (sound : t.Sound) {key key' : List Char} (first : t.ListedAt key s)
    (second : t.ListedAt key' s) : key = key' := by
  obtain ⟨session, found, rfl⟩ := sound.keyed key s first
  obtain ⟨_, again, rfl⟩ := sound.keyed key' s second
  rw [Option.mem_unique found again]

theorem Discards.gone {e : Event} (discards : t.Discards e s) (sound : t.Sound) :
    (t.apply e).Gone s := by
  obtain ⟨old, rfl | ⟨dst, inbound, toNAT, rfl, listed⟩⟩ := discards
  · refine ⟨old, fun lives => ?_⟩
    obtain ⟨now, found, lives⟩ := alive_iff.mp lives
    rw [SessionTable.apply, heap_setDead_self] at found
    obtain ⟨session, -, rfl⟩ := Option.map_eq_some_iff.mp found
    cases lives
  · refine ⟨old.trans_le (made_le_apply _), fun _ still => ?_⟩
    have ready : (t.isOpen && t.sessions.isSome) = true := by
      rw [sound.isOpen ⟨_, listed⟩]
      obtain ⟨sessions, inMap, -⟩ := listed
      rw [Option.mem_def.mp inMap]
      rfl
    obtain ⟨key, still⟩ := still
    rw [SessionTable.apply, if_pos ready] at still
    obtain ⟨before, differs⟩ | ⟨new, -⟩ := listedAt_place still
    · exact differs (sound.key_unique before listed)
    · exact old.ne new

theorem listed_iff_mem {sessions : GoMap (List Char) Nat} (inMap : t.sessions = some sessions) :
    t.Listed s ↔ s ∈ sessions.entries.map Sigma.snd := by
  constructor
  · rintro ⟨key, other, same, found⟩
    cases inMap.symm.trans same
    exact List.mem_map.mpr ⟨⟨key, s⟩, AList.mem_lookup_iff.mp found, rfl⟩
  · intro member
    obtain ⟨⟨key, _⟩, entry, rfl⟩ := List.mem_map.mp member
    exact ⟨key, sessions, inMap, AList.mem_lookup_iff.mpr entry⟩

/-- The fallback of `lookupSession` finds a session if it is the only live one. -/
theorem Sound.filter_eq_singleton (sound : t.Sound) {sessions : GoMap (List Char) Nat}
    (inMap : t.sessions = some sessions) {ip : Addr} :
    (sessions.entries.map Sigma.snd).filter (t.liveAt ip) = [s] ↔ t.Sole ip s := by
  have members (other : Nat) : other ∈ (sessions.entries.map Sigma.snd).filter (t.liveAt ip) ↔
      t.Listed other ∧ t.liveAt ip other = true := by
    rw [List.mem_filter, listed_iff_mem inMap]
  have distinct : ((sessions.entries.map Sigma.snd).filter (t.liveAt ip)).Nodup := by
    refine List.Nodup.filter _ (List.Nodup.map_on ?_ (List.Nodup.of_map _ sessions.nodupKeys))
    rintro ⟨key, s⟩ entry ⟨key', _⟩ entry' ⟨⟩
    have same := sound.key_unique ⟨sessions, inMap, AList.mem_lookup_iff.mpr entry⟩
      ⟨sessions, inMap, AList.mem_lookup_iff.mpr entry'⟩
    rw [same]
  constructor
  · intro single
    simp only [single, List.mem_singleton] at members
    obtain ⟨listed, live⟩ := (members s).mp rfl
    exact ⟨listed, live, fun other there lives => (members other).mpr ⟨there, lives⟩⟩
  · intro sole
    refine List.perm_singleton.mp ((List.perm_ext_iff_of_nodup distinct
      (List.nodup_singleton s)).mpr fun other => ?_)
    rw [members, List.mem_singleton]
    constructor
    · exact fun found => sole.only other found.1 found.2
    · rintro rfl
      exact ⟨sole.listed, sole.live⟩

/-- **What `lookupSession` returns.** The live session stored for the destination, else the only
live session of its address. -/
theorem Sound.lookup_eq_some (sound : t.Sound) {dst : AddrPort} : t.lookupSession dst = some s ↔
      t.ListedAt dst.string s ∧ t.alive s = true ∨
        (∀ own, t.ListedAt dst.string own → t.alive own = false) ∧ t.Sole dst.addr s := by
  rw [lookupSession]
  cases inMap : t.sessions with
  | none =>
    refine iff_of_false nofun ?_
    rintro (⟨⟨_, absent, -⟩, -⟩ | ⟨-, ⟨_, _, absent, -⟩, -⟩)
    · rw [inMap] at absent
      cases absent
    · rw [inMap] at absent
      cases absent
  | some sessions =>
    have isOpen : t.isOpen = true := by
      by_contra shut
      rw [sound.closed (Bool.eq_false_iff.mpr shut)] at inMap
      cases inMap
    have listedAt (own : Nat) : t.ListedAt dst.string own ↔
        sessions.lookup dst.string = some own := by
      constructor
      · rintro ⟨_, same, found⟩
        cases inMap.symm.trans same
        exact found
      · exact fun found => ⟨sessions, inMap, found⟩
    dsimp only
    rw [if_pos isOpen]
    cases stored : (sessions.lookup dst.string).filter t.alive with
    | some own =>
      obtain ⟨found, lives⟩ := Option.filter_eq_some_iff.mp stored
      constructor
      · intro same
        cases same
        exact .inl ⟨(listedAt _).mpr found, lives⟩
      · rintro (⟨there, -⟩ | ⟨dead, -⟩)
        · exact found.symm.trans ((listedAt s).mp there)
        · rw [dead _ ((listedAt _).mpr found)] at lives
          cases lives
    | none =>
      have dead : ∀ own, t.ListedAt dst.string own → t.alive own = false := by
        intro own there
        rw [(listedAt own).mp there, Option.filter_eq_none_iff] at stored
        exact Bool.eq_false_iff.mpr (stored own rfl)
      dsimp only
      constructor
      · intro single
        refine .inr ⟨dead, (sound.filter_eq_singleton inMap).mp ?_⟩
        split at single
        · next found =>
          cases single
          exact found
        · cases single
      · rintro (⟨there, lives⟩ | ⟨-, sole⟩)
        · rw [dead s there] at lives
          cases lives
        · rw [(sound.filter_eq_singleton inMap).mpr sole]

/-- The session that a lookup returns is in the map, alive and of the same address, and if of
another port, the only live one of the address. -/
theorem Sound.lookup_spec (sound : t.Sound) {dst : AddrPort}
    (found : t.lookupSession dst = some s) :
    t.Listed s ∧ ∃ session ∈ t.heap s, session.alive = true ∧ session.dst.addr = dst.addr ∧
      (session.dst.port ≠ dst.port → t.Sole dst.addr s) := by
  obtain ⟨listed, lives⟩ | ⟨-, sole⟩ := sound.lookup_eq_some.mp found
  · obtain ⟨session, inHeap, lives⟩ := alive_iff.mp lives
    obtain ⟨_, again, key⟩ := sound.keyed _ _ listed
    cases Option.mem_unique inHeap again
    have same : session.dst = dst :=
      AddrPort.string_injective ((sound.texts s session inHeap).symm.trans key)
    refine ⟨⟨_, listed⟩, session, inHeap, lives, by rw [same], fun differs => ?_⟩
    exact (differs (by rw [same])).elim
  · obtain ⟨session, inHeap, lives, ip⟩ := liveAt_iff.mp sole.live
    exact ⟨sole.listed, session, inHeap, lives, ip, fun _ => sole⟩

theorem Gone.lookup_ne (gone : t.Gone s) (sound : t.Sound) (dst : AddrPort) :
    t.lookupSession dst ≠ some s := by
  intro found
  obtain ⟨listed, session, inHeap, lives, -⟩ := sound.lookup_spec found
  exact gone.2 (alive_iff.mpr ⟨session, inHeap, lives⟩) listed

end SessionTable

end Conn
