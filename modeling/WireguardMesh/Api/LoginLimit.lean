import Mathlib.Algebra.Order.BigOperators.Group.List
import Mathlib.Algebra.Order.Group.Nat
import WireguardMesh.Api.Login

/-! # The login limit

Five failures of an address within thirty minutes ban it. The ban is looked up at the gate, and the
failure is recorded later, so requests that have passed the gate before are all served: any number
of passwords can be compared (`sixGuesses_compared`). The limit holds for an address as long as no
request passes the gate that could make it six, counting recent failures and the requests in
progress, a successful login overlaps no other request of its address, and the store records every
failure (`login_limited`).
-/

namespace Api

open Net Store AuthTables

/-- Thirty minutes, in nanoseconds. -/
def window : Nat := 1800000000000

namespace Server

/-! ## The limit -/

/-- The wrong passwords of an address compared in the thirty minutes from a time on. -/
def wrongFrom (s : Server) (ip : String) (a : Nat) : Nat :=
  s.compared.countP fun c => c.ip = ip ∧ c.outcome = .wrong ∧ a ≤ c.time ∧ c.time ≤ a + window

/-- There is no successful login of the address in these thirty minutes. -/
def Quiet (s : Server) (ip : String) (a : Nat) : Prop :=
  ∀ c ∈ s.compared, c.ip = ip → c.outcome = .success → ¬ (a ≤ c.time ∧ c.time ≤ a + window)

instance (s : Server) (ip : String) (a : Nat) : Decidable (s.Quiet ip a) :=
  inferInstanceAs (Decidable (∀ c ∈ s.compared, c.ip = ip → c.outcome = .success →
    ¬ (a ≤ c.time ∧ c.time ≤ a + window)))

/-- What the limit asks of a step: at most five wrong passwords in thirty minutes without a
success, no comparison for a banned address, and a ban with the fifth failure. -/
def Limited (admin : String) (s : Server) (e : Event) : Prop :=
  (∀ ip, isBanableAuthIP ip = true → ∀ a, (step admin s e).Quiet ip a →
    (step admin s e).wrongFrom ip a ≤ 5) ∧
  match e.action with
  | .compare r _ _ => ∀ ip, s.requests.lookup r = some ⟨ip, .reading⟩ →
      isBanableAuthIP ip = true → ip ∉ s.tables.bans
  | .record r _ => ∀ ip, s.requests.lookup r = some ⟨ip, .failed⟩ → isBanableAuthIP ip = true →
      5 ≤ s.tables.recent ip (authCutoff e.now) + 1 → ip ∈ (step admin s e).tables.bans
  | _ => True

/-! ## The condition -/

/-- The requests in progress that satisfy a condition. -/
def count (s : Server) (p : Request → Bool) : Nat :=
  Ledger.weigh (fun _ q => if p q then 1 else 0) s.requests

/-- The requests of an address in progress. -/
def inProgress (s : Server) (ip : String) : Nat :=
  s.count fun q => q.ip = ip

/-- The requests of an address whose failure is not recorded yet. -/
def unrecorded (s : Server) (ip : String) : Nat :=
  s.count fun q => q = ⟨ip, .failed⟩

/-- The requests of an address whose success has not cleared its failures yet. -/
def uncleared (s : Server) (ip : String) : Nat :=
  s.count fun q => q = ⟨ip, .won⟩

/-- When the limit holds: a request passes the gate only if the recent failures of its address and
its requests in progress leave room for one more and no success is under way; a right password is
compared while no other request of the address is in progress; failures are recorded. -/
def Room (admin : String) (s : Server) (e : Event) : Prop :=
  s.clock ≤ e.now ∧ match e.action with
  | .gate _ ip _ => isBanableAuthIP ip = true → ip ∉ s.tables.bans →
      s.tables.recent ip (authCutoff e.now) + s.inProgress ip < 5 ∧ s.uncleared ip = 0
  | .compare r password issueFails => ∀ ip, s.requests.lookup r = some ⟨ip, .reading⟩ →
      outcomeOf admin password issueFails = .success → s.inProgress ip = 1
  | .record _ fault => fault = none
  | _ => True

/-! ## Counting requests -/

theorem count_finish (s : Server) (p : Request → Bool) {r : Nat} {q : Request} (reply : Reply)
    (found : s.requests.lookup r = some q) :
    s.count p = (s.finish r reply).count p + if p q then 1 else 0 := by
  rw [count, Ledger.weigh_erase _ _ r, found, add_comm]
  rfl

theorem count_advance_new (s : Server) (p : Request → Bool) {r : Nat} (ip : String) (stage : Stage)
    (fresh : r ∉ s.requests) :
    (s.advance r ip stage).count p = s.count p + if p ⟨ip, stage⟩ then 1 else 0 := by
  rw [count, advance, Ledger.weigh_insert, count, Ledger.weigh_erase _ s.requests r,
    AList.lookup_eq_none.mpr fresh]
  dsimp only [Option.elim]
  omega

theorem count_advance (s : Server) (p : Request → Bool) {r : Nat} {q : Request} (ip : String)
    (stage : Stage) (found : s.requests.lookup r = some q) :
    (s.advance r ip stage).count p + (if p q then 1 else 0) =
      s.count p + if p ⟨ip, stage⟩ then 1 else 0 := by
  rw [count, advance, Ledger.weigh_insert, count, Ledger.weigh_erase _ s.requests r, found]
  dsimp only [Option.elim]
  omega

theorem count_pos {s : Server} {p : Request → Bool} {r : Nat} {q : Request}
    (found : s.requests.lookup r = some q) (passes : p q = true) : 0 < s.count p := by
  rw [count, Ledger.weigh_erase _ _ r, found, Option.elim, if_pos passes]
  omega

/-- The gate ends a request or lets it in; the requests of a banable address are let in only if
it is not banned. -/
theorem authGate_cases (s : Server) (r : Nat) (ip : String) (storeFails : Bool) :
    (s.authGate r ip storeFails).tables = s.tables ∧
    (s.authGate r ip storeFails).compared = s.compared ∧
    ((∀ p, (s.authGate r ip storeFails).count p = s.count p) ∨
      r ∉ s.requests ∧ s.authGate r ip storeFails = s.advance r ip .reading ∧
        (isBanableAuthIP ip = true → ip ∉ s.tables.bans)) := by
  rw [authGate]
  split
  · exact ⟨rfl, rfl, .inl fun p => rfl⟩
  · next fresh =>
    have ended : ∀ (reply : Reply) (p : Request → Bool), (s.finish r reply).count p = s.count p := by
      intro reply p
      rw [count, count, Ledger.weigh_erase _ s.requests r, AList.lookup_eq_none.mpr fresh]
      exact (zero_add _).symm
    split
    · next open' => exact ⟨rfl, rfl, .inr ⟨fresh, rfl, fun banable => absurd banable open'⟩⟩
    · split
      · exact ⟨rfl, rfl, .inl (ended _)⟩
      · split
        · exact ⟨rfl, rfl, .inl (ended _)⟩
        · next banable _ allowed =>
          refine ⟨rfl, rfl, .inr ⟨fresh, rfl, fun _ banned => allowed ?_⟩⟩
          refine decide_eq_true ⟨?_, banned⟩
          rintro rfl
          exact banable (by decide)

/-! ## The invariant -/

/-- What holds for an address between the steps. -/
structure Guarded (s : Server) (ip : String) : Prop where
  past : ∀ c ∈ s.compared, c.time ≤ s.clock
  room : s.tables.recent ip (authCutoff s.clock) + s.inProgress ip ≤ 5
  banned : ip ∈ s.tables.bans → s.inProgress ip = 0
  /-- A success that has not cleared the failures yet is alone and the last comparison. -/
  alone : s.uncleared ip ≠ 0 → s.inProgress ip = 1 ∧ ∃ c ∈ s.compared, c.ip = ip ∧
    c.outcome = .success ∧ ∀ d ∈ s.compared, d.ip = ip → d.time ≤ c.time
  /-- Every wrong password is recorded or about to be. -/
  owed : ∀ a, s.clock ≤ a + window → s.Quiet ip a → ip ∉ s.tables.bans →
    s.wrongFrom ip a ≤ s.tables.recent ip (unix a) + s.unrecorded ip
  limit : ∀ a, s.Quiet ip a → s.wrongFrom ip a ≤ 5

theorem guarded_start (ip : String) : start.Guarded ip where
  past := nofun
  room := (Nat.zero_le 5 : 0 + 0 ≤ 5)
  banned := nofun
  alone := fun some => (some rfl).elim
  owed := fun _ _ _ _ => Nat.zero_le _
  limit := fun _ _ => Nat.zero_le _

variable {s s' : Server} {ip : String}

/-- No wrong passwords from a time on after which the address had no comparison. -/
theorem wrongFrom_eq_zero {a : Nat} (earlier : ∀ c ∈ s.compared, c.ip = ip → c.time < a) :
    s.wrongFrom ip a = 0 := by
  apply List.countP_eq_zero.mpr
  intro c member counted
  obtain ⟨own, -, since, -⟩ := of_decide_eq_true counted
  have time := earlier c member own
  omega

theorem wrongFrom_append {extra : List Comparison} (form : s'.compared = s.compared ++ extra)
    (a : Nat) : s'.wrongFrom ip a = s.wrongFrom ip a + extra.countP fun c =>
      c.ip = ip ∧ c.outcome = .wrong ∧ a ≤ c.time ∧ c.time ≤ a + window := by
  rw [wrongFrom, form, List.countP_append]
  rfl

theorem Quiet.of_append {extra : List Comparison} (form : s'.compared = s.compared ++ extra)
    {a : Nat} (quiet : s'.Quiet ip a) : s.Quiet ip a :=
  fun c member => quiet c (form ▸ List.mem_append_left _ member)

theorem authCutoff_le {now a : Nat} (inside : now ≤ a + window) : authCutoff now ≤ unix a := by
  simp only [authCutoff, unix, authFailWindow, window] at inside ⊢
  omega

theorem Guarded.past_append (g : s.Guarded ip) {extra : List Comparison}
    (later : s.clock ≤ s'.clock) (form : s'.compared = s.compared ++ extra)
    (new : ∀ c ∈ extra, c.time ≤ s'.clock) : ∀ c ∈ s'.compared, c.time ≤ s'.clock := by
  intro c member
  rw [form] at member
  rcases List.mem_append.mp member with old | added
  · exact (g.past c old).trans later
  · exact new c added

theorem Guarded.room_later (g : s.Guarded ip) {now : Nat} (later : s.clock ≤ now) :
    s.tables.recent ip (authCutoff now) + s.inProgress ip ≤ 5 := by
  refine (Nat.add_le_add_right (recent_anti s.tables ip ?_) _).trans g.room
  simp only [authCutoff, unix]
  omega

section

variable (g : s.Guarded ip) {extra : List Comparison} (later : s.clock ≤ s'.clock)
  (form : s'.compared = s.compared ++ extra) (others : ∀ c ∈ extra, c.time ≤ s'.clock ∧ c.ip ≠ ip)

include g later form others

/-- **Steps without a result.** A step that compares no password of the address keeps the
invariant, if it leaves room, keeps a ban free of requests, brings no success and drops no failure
owed. -/
theorem Guarded.frame (room : s'.tables.recent ip (authCutoff s'.clock) + s'.inProgress ip ≤ 5)
    (banned : ip ∈ s'.tables.bans → s'.inProgress ip = 0)
    (alone : s'.uncleared ip ≠ 0 → s.uncleared ip ≠ 0 ∧ s'.inProgress ip = s.inProgress ip)
    (owed : ip ∉ s'.tables.bans → ip ∉ s.tables.bans ∧
      ∀ c, authCutoff s'.clock ≤ c → c ≤ unix s'.clock →
        s.tables.recent ip c + s.unrecorded ip ≤ s'.tables.recent ip c + s'.unrecorded ip) :
    s'.Guarded ip := by
  have same : ∀ a, s'.wrongFrom ip a = s.wrongFrom ip a := by
    intro a
    rw [wrongFrom_append form, List.countP_eq_zero.mpr, Nat.add_zero]
    exact fun c member counted => (others c member).2 (of_decide_eq_true counted).1
  refine ⟨g.past_append later form fun c new => (others c new).1, room, banned, ?_, ?_, ?_⟩
  · intro waiting
    obtain ⟨before, progress⟩ := alone waiting
    obtain ⟨one, c, member, own, success, last⟩ := g.alone before
    refine ⟨progress.trans one, c, form ▸ List.mem_append_left _ member, own, success, ?_⟩
    intro d found ownD
    rw [form] at found
    rcases List.mem_append.mp found with old | new
    · exact last d old ownD
    · exact absurd ownD (others d new).2
  · intro a inside quiet free
    rw [same]
    by_cases future : s'.clock < a
    · rw [wrongFrom_eq_zero fun c member _ => (g.past c member).trans_lt (later.trans_lt future)]
      exact Nat.zero_le _
    · obtain ⟨freeBefore, kept⟩ := owed free
      refine (g.owed a (later.trans inside) (Quiet.of_append form quiet) freeBefore).trans ?_
      exact kept _ (authCutoff_le inside) (Nat.div_le_div_right (Nat.not_lt.mp future))
  · intro a quiet
    rw [same]
    exact g.limit a (Quiet.of_append form quiet)

/-- **Steps of other addresses.** -/
theorem Guarded.idle
    (recent : ∀ c, authCutoff s'.clock ≤ c → s'.tables.recent ip c = s.tables.recent ip c)
    (bans : ip ∈ s'.tables.bans ↔ ip ∈ s.tables.bans)
    (counts : ∀ p : Request → Bool, (∀ q, p q = true → q.ip = ip) → s'.count p = s.count p) :
    s'.Guarded ip := by
  have progress : s'.inProgress ip = s.inProgress ip := counts _ fun q own => of_decide_eq_true own
  have waiting : s'.uncleared ip = s.uncleared ip :=
    counts _ fun q own => by rw [of_decide_eq_true own]
  have pending : s'.unrecorded ip = s.unrecorded ip :=
    counts _ fun q own => by rw [of_decide_eq_true own]
  refine g.frame later form others ?_ ?_ ?_ ?_
  · rw [recent _ le_rfl, progress]
    exact g.room_later later
  · rw [bans, progress]
    exact g.banned
  · rw [waiting]
    exact fun some => ⟨some, progress⟩
  · rw [bans]
    intro free
    refine ⟨free, fun c since _ => ?_⟩
    rw [recent c since, pending]

end

theorem Guarded.still (g : s.Guarded ip) (later : s.clock ≤ s'.clock)
    (compared : s'.compared = s.compared) (tables : s'.tables = s.tables)
    (counts : ∀ p : Request → Bool, (∀ q, p q = true → q.ip = ip) → s'.count p = s.count p) :
    s'.Guarded ip :=
  g.idle later (compared.trans (List.append_nil _).symm)
    (nofun) (fun _ _ => by rw [tables]) (by rw [tables]) counts

theorem count_mono {p q : Request → Bool} (implies : ∀ x, p x = true → q x = true) :
    s.count p ≤ s.count q := by
  apply List.sum_le_sum
  intro e _
  dsimp only
  by_cases passes : p e.2 = true
  · rw [if_pos passes, if_pos (implies e.2 passes)]
  · rw [if_neg passes]
    exact Nat.zero_le _

theorem unrecorded_le : s.unrecorded ip ≤ s.inProgress ip :=
  count_mono fun q own => by rw [of_decide_eq_true own]; exact decide_eq_true rfl

theorem uncleared_le : s.uncleared ip ≤ s.inProgress ip :=
  count_mono fun q own => by rw [of_decide_eq_true own]; exact decide_eq_true rfl

section

variable {admin : String} {r now : Nat} {q : Request} {stage : Stage}

theorem ends_own (reply : Reply) (found : s.requests.lookup r = some ⟨ip, stage⟩) :
    s.inProgress ip = (s.finish r reply).inProgress ip + 1 ∧
    s.unrecorded ip = (s.finish r reply).unrecorded ip + (if stage = .failed then 1 else 0) ∧
    s.uncleared ip = (s.finish r reply).uncleared ip + if stage = .won then 1 else 0 := by
  refine ⟨?_, ?_, ?_⟩ <;> refine (s.count_finish _ reply found).trans ?_ <;>
    simp [inProgress, unrecorded, uncleared]

theorem compares_own (found : s.requests.lookup r = some ⟨ip, .reading⟩) (next : Stage) :
    (s.advance r ip next).inProgress ip = s.inProgress ip ∧
    (s.advance r ip next).unrecorded ip = s.unrecorded ip + (if next = .failed then 1 else 0) ∧
    (s.advance r ip next).uncleared ip = s.uncleared ip + if next = .won then 1 else 0 := by
  refine ⟨?_, ?_, ?_⟩
  · simpa [inProgress] using s.count_advance (fun q => q.ip = ip) ip next found
  · simpa [unrecorded] using s.count_advance (fun q => q = ⟨ip, .failed⟩) ip next found
  · simpa [uncleared] using s.count_advance (fun q => q = ⟨ip, .won⟩) ip next found

theorem count_finish_other (found : s.requests.lookup r = some q) (other : q.ip ≠ ip)
    (reply : Reply) (p : Request → Bool) (own : ∀ q, p q = true → q.ip = ip) :
    (s.finish r reply).count p = s.count p := by
  have ended := s.count_finish p reply found
  rw [if_neg fun passes => other (own q passes)] at ended
  exact ended.symm

theorem count_advance_other (found : s.requests.lookup r = some q) (other : q.ip ≠ ip)
    (stage : Stage) (p : Request → Bool) (own : ∀ q, p q = true → q.ip = ip) :
    (s.advance r q.ip stage).count p = s.count p := by
  have advanced := s.count_advance p q.ip stage found
  rw [if_neg fun passes => other (own q passes),
    if_neg fun passes => other (own ⟨q.ip, stage⟩ passes)] at advanced
  exact advanced

/-- While another request of the address is in progress no success is waiting to clear. -/
theorem Guarded.uncleared_eq_zero (g : s.Guarded ip)
    (found : s.requests.lookup r = some ⟨ip, stage⟩) (unfinished : stage ≠ .won) :
    s.uncleared ip = 0 := by
  by_contra waiting
  have one := (g.alone waiting).1
  obtain ⟨all, -, some⟩ := ends_own .token found
  have fewer : (s.finish r .token).uncleared ip ≤ _ := uncleared_le
  rw [if_neg unfinished] at some
  omega

/-! ## The steps -/

section

variable (g : s.Guarded ip)

include g

theorem Guarded.gate {addr : String} {fails : Bool} (later : s.clock ≤ now)
    (banable : isBanableAuthIP ip = true)
    (room : isBanableAuthIP addr = true → addr ∉ s.tables.bans →
      s.tables.recent addr (authCutoff now) + s.inProgress addr < 5 ∧ s.uncleared addr = 0) :
    (step admin s ⟨now, .gate r addr fails⟩).Guarded ip := by
  obtain ⟨tables, compared, ended | ⟨fresh, form, allowed⟩⟩ := s.authGate_cases r addr fails
  · exact g.still later compared tables fun p _ => ended p
  · have counts : ∀ p, (s.authGate r addr fails).count p = s.count p +
        if p ⟨addr, .reading⟩ then 1 else 0 :=
      fun p => form ▸ s.count_advance_new p addr .reading fresh
    by_cases own : addr = ip
    · subst own
      obtain ⟨few, quiet⟩ := room banable (allowed banable)
      have progress : (s.authGate r addr fails).inProgress addr = s.inProgress addr + 1 := by
        simpa [inProgress] using counts fun q => q.ip = addr
      have waiting : (s.authGate r addr fails).uncleared addr = s.uncleared addr := by
        simpa [uncleared] using counts fun q => q = ⟨addr, .won⟩
      have pending : (s.authGate r addr fails).unrecorded addr = s.unrecorded addr := by
        simpa [unrecorded] using counts fun q => q = ⟨addr, .failed⟩
      refine g.frame later (compared.trans (List.append_nil _).symm)
        (nofun) ?_ ?_ ?_ ?_
      · show (s.authGate r addr fails).tables.recent addr (authCutoff now) +
          (s.authGate r addr fails).inProgress addr ≤ 5
        rw [tables, progress]
        omega
      · exact fun banned => absurd (tables ▸ banned) (allowed banable)
      · exact fun some => absurd (waiting.trans quiet) some
      · refine fun _ => ⟨allowed banable, fun c _ _ => ?_⟩
        exact (congrArg₂ (· + ·) (by rw [← tables]; rfl) pending.symm).le
    · refine g.still later compared tables fun p belongs => (counts p).trans ?_
      rw [if_neg fun passes => own (belongs _ passes), Nat.add_zero]

theorem Guarded.badBody (later : s.clock ≤ now) : (step admin s ⟨now, .badBody r⟩).Guarded ip := by
  simp only [step, act]
  split
  · next addr found =>
    by_cases own : addr = ip
    · subst own
      obtain ⟨progress, pending, waiting⟩ := ends_own .invalidJSON found
      have none := g.uncleared_eq_zero found (by decide)
      have before := g.room_later later
      refine g.frame later (List.append_nil _).symm (nofun)
        ?_ ?_ ?_ ?_
      · show s.tables.recent addr (authCutoff now) + (s.finish r .invalidJSON).inProgress addr ≤ 5
        omega
      · intro banned
        have idle := g.banned banned
        omega
      · exact fun some => absurd (Nat.eq_zero_of_add_eq_zero_right (waiting.symm.trans none)) some
      · exact fun free => ⟨free, fun c _ _ => (congrArg _ pending).le⟩
    · exact g.still later rfl rfl fun p belongs =>
        count_finish_other found own .invalidJSON p belongs
  · exact g.still later rfl rfl fun p _ => rfl

theorem Guarded.failed {outcome : Outcome} (later : s.clock ≤ s'.clock)
    (tables : s'.tables = s.tables) (form : s'.compared = s.compared ++ [⟨ip, s'.clock, outcome⟩])
    (progress : s'.inProgress ip = s.inProgress ip)
    (pending : s'.unrecorded ip = s.unrecorded ip + 1) (waiting : s'.uncleared ip = 0) :
    s'.Guarded ip := by
  have room := g.room_later later
  have among : s'.unrecorded ip ≤ s'.inProgress ip := unrecorded_le
  have free : ip ∉ s.tables.bans := fun banned => by
    have idle := g.banned banned
    omega
  refine ⟨g.past_append later form (by simp), ?_, ?_, fun some => absurd waiting some, ?_, ?_⟩
  · rw [tables]
    omega
  · exact fun banned => absurd (tables ▸ banned) free
  · intro a inside quiet _
    have owed := g.owed a (later.trans inside) (Quiet.of_append form quiet) free
    rw [wrongFrom_append form, tables]
    have one := List.countP_le_length (l := [(⟨ip, s'.clock, outcome⟩ : Comparison)]) (p := fun c =>
      c.ip = ip ∧ c.outcome = .wrong ∧ a ≤ c.time ∧ c.time ≤ a + window)
    rw [List.length_singleton] at one
    omega
  · intro a quiet
    rw [wrongFrom_append form, List.countP_singleton]
    split
    · next counted =>
      have inside : s'.clock ≤ a + window := (of_decide_eq_true counted).2.2.2
      have owed := g.owed a (later.trans inside) (Quiet.of_append form quiet) free
      have recent := recent_anti s.tables ip (authCutoff_le inside)
      omega
    · exact g.limit a (Quiet.of_append form quiet)

theorem Guarded.succeeded (later : s.clock ≤ s'.clock)
    (tables : s'.tables = s.tables) (form : s'.compared = s.compared ++ [⟨ip, s'.clock, .success⟩])
    (progress : s'.inProgress ip = s.inProgress ip) (single : s.inProgress ip = 1) :
    s'.Guarded ip := by
  have room := g.room_later later
  have past := g.past_append later form (by simp)
  have last : (⟨ip, s'.clock, .success⟩ : Comparison) ∈ s'.compared := by simp [form]
  refine ⟨past, ?_, ?_, ?_, ?_, ?_⟩
  · rw [tables]
    omega
  · intro banned
    have idle := g.banned (tables ▸ banned)
    omega
  · exact fun _ => ⟨progress.trans single, _, last, rfl, rfl, fun d member _ => past d member⟩
  · intro a inside quiet _
    have early : s'.clock < a := by
      by_contra since
      exact quiet _ last rfl rfl ⟨Nat.not_lt.mp since, inside⟩
    rw [wrongFrom_eq_zero fun c member _ => (past c member).trans_lt early]
    exact Nat.zero_le _
  · intro a quiet
    rw [wrongFrom_append form, List.countP_singleton, if_neg (by simp)]
    exact g.limit a (Quiet.of_append form quiet)

theorem Guarded.compare {password : String} {issueFails : Bool} (later : s.clock ≤ now)
    (single : s.requests.lookup r = some ⟨ip, .reading⟩ →
      outcomeOf admin password issueFails = .success → s.inProgress ip = 1) :
    (step admin s ⟨now, .compare r password issueFails⟩).Guarded ip := by
  simp only [step, act]
  split
  · next addr found =>
    rw [login]
    by_cases own : addr = ip
    · subst own
      by_cases success : outcomeOf admin password issueFails = .success
      · rw [if_pos success, success]
        exact g.succeeded later rfl rfl (compares_own found .won).1 (single found success)
      · rw [if_neg success]
        obtain ⟨progress, pending, waiting⟩ := compares_own found .failed
        exact g.failed later rfl rfl progress pending
          (waiting.trans (g.uncleared_eq_zero found (by decide)))
    · rw [← apply_ite (Server.advance _ r addr)]
      refine g.idle later rfl (by simpa using own) (fun c _ => rfl) .rfl ?_
      exact fun p belongs => count_advance_other found own _ p belongs
  · exact g.still later rfl rfl fun p _ => rfl

/-- Recording a failure of the address: it is no longer owed, or the address is banned. -/
theorem Guarded.recorded (later : s.clock ≤ s'.clock)
    (compared : s'.compared = s.compared) (tables : s'.tables = s.tables.recorded ip s'.clock)
    (progress : s.inProgress ip = s'.inProgress ip + 1)
    (pending : s.unrecorded ip = s'.unrecorded ip + 1) (waiting : s'.uncleared ip = 0) :
    s'.Guarded ip := by
  have room := g.room_later later
  refine g.frame later (compared.trans (List.append_nil _).symm)
    (nofun) ?_ ?_ (fun some => absurd waiting some) ?_
  all_goals rw [tables]
  all_goals
    obtain ⟨fifth, banned, cleared⟩ | ⟨few, bans, added⟩ := s.tables.recorded_own ip s'.clock
  · rw [cleared]
    omega
  · rw [added _ le_rfl (Nat.sub_le _ _)]
    omega
  · omega
  · intro banned
    have idle := g.banned (bans ▸ banned)
    omega
  · exact fun free => absurd banned free
  · rw [bans]
    refine fun free => ⟨free, fun c since until' => ?_⟩
    rw [added c since until']
    omega

end

theorem named_of_banable (banable : isBanableAuthIP ip = true) : ip ≠ "" := by
  rintro rfl
  exact absurd banable (by decide)

/-- A failure is recorded: the request ends, and a banable address has one more failure. -/
theorem recordLoginFailure_none (s : Server) (r : Nat) (addr : String) (now : Nat) :
    ∃ reply, s.recordLoginFailure r addr now none =
      ({ s with tables := if isBanableAuthIP addr then s.tables.recorded addr now else s.tables } :
        Server).finish r reply := by
  rw [recordLoginFailure]
  split
  · exact ⟨.invalidPassword, rfl⟩
  · next banable =>
    rw [not_not] at banable
    obtain ⟨banned, count, result⟩ :=
      s.tables.recordAuthFailure_none (named_of_banable banable) now
    rw [result, if_pos banable]
    cases banned with
    | false => exact ⟨_, rfl⟩
    | true => exact ⟨_, rfl⟩

theorem Guarded.record (g : s.Guarded ip) (later : s.clock ≤ now)
    (banable : isBanableAuthIP ip = true) : (step admin s ⟨now, .record r none⟩).Guarded ip := by
  simp only [step, act]
  split
  · next addr found =>
    obtain ⟨reply, form⟩ := s.recordLoginFailure_none r addr now
    rw [form]
    by_cases own : addr = ip
    · subst own
      obtain ⟨progress, pending, waiting⟩ := ends_own reply found
      rw [if_pos banable]
      exact g.recorded later rfl rfl progress pending
        (waiting.symm.trans (g.uncleared_eq_zero found (by decide)))
    · refine g.idle later (List.append_nil _).symm (nofun)
        ?_ ?_ fun p belongs => count_finish_other found own reply p belongs
      all_goals dsimp only [finish]
      all_goals split
      · exact (s.tables.recorded_other own now).2
      · exact fun _ _ => rfl
      · exact (s.tables.recorded_other own now).1
      · exact .rfl
  · exact g.still later rfl rfl fun p _ => rfl

/-- The failures of a successful address are cleared or stay: no wrong password has followed. -/
theorem Guarded.cleared (g : s.Guarded ip) (later : s.clock ≤ s'.clock)
    (compared : s'.compared = s.compared)
    (fewer : ∀ c, s'.tables.recent ip c ≤ s.tables.recent ip c)
    (progress : s.inProgress ip = s'.inProgress ip + 1) (waiting : s.uncleared ip ≠ 0) :
    s'.Guarded ip := by
  obtain ⟨single, c, member, own, success, last⟩ := g.alone waiting
  have room := g.room_later later
  have none : s'.uncleared ip ≤ s'.inProgress ip := uncleared_le
  have past := g.past_append later (compared.trans (List.append_nil _).symm) (by simp)
  refine ⟨past, ?_, ?_, ?_, ?_, ?_⟩
  · have kept := fewer (authCutoff s'.clock)
    omega
  · omega
  · omega
  · intro a inside quiet _
    have early : c.time < a := by
      by_contra since
      have seen := g.past c member
      exact quiet c (compared ▸ member) own success ⟨by omega, by omega⟩
    rw [wrongFrom_eq_zero fun d found ownD => (last d (compared ▸ found) ownD).trans_lt early]
    exact Nat.zero_le _
  · intro a quiet
    rw [wrongFrom, compared]
    exact g.limit a fun d found => quiet d (compared ▸ found)

theorem clearLoginFailures_tables (s : Server) (r : Nat) (addr : String) (fails : Bool) :
    (s.clearLoginFailures r addr fails).tables = s.tables ∨
      (s.clearLoginFailures r addr fails).tables = s.tables.forget addr := by
  simp only [clearLoginFailures, finish, clearAuthFailures]
  split
  · exact .inl rfl
  · split
    · exact .inl rfl
    · exact .inr rfl

theorem Guarded.clear (g : s.Guarded ip) {fails : Bool} (later : s.clock ≤ now) :
    (step admin s ⟨now, .clear r fails⟩).Guarded ip := by
  simp only [step, act]
  split
  · next addr found =>
    have tables := s.clearLoginFailures_tables r addr fails
    by_cases own : addr = ip
    · subst own
      obtain ⟨progress, -, waiting⟩ := ends_own .token found
      refine g.cleared later rfl (fun c => ?_) progress (by rw [waiting, if_pos rfl]; omega)
      rcases tables with same | forgot
      · rw [same]
      · rw [forgot, recent_forget, if_pos rfl]
        exact Nat.zero_le _
    · refine g.idle later (List.append_nil _).symm (nofun)
        (fun c _ => ?_) ?_ fun p belongs => count_finish_other found own .token p belongs
      · dsimp only
        rcases tables with same | forgot
        · rw [same]
        · rw [forgot, recent_forget, if_neg fun same => own same.symm]
      · dsimp only
        rcases tables with same | forgot
        · rw [same]
        · rw [forgot]
          exact .rfl
  · exact g.still later rfl rfl fun p _ => rfl

/-- **One step.** -/
theorem Guarded.step {e : Event} (g : s.Guarded ip) (banable : isBanableAuthIP ip = true)
    (room : Room admin s e) : (step admin s e).Guarded ip := by
  obtain ⟨now, action⟩ := e
  obtain ⟨later, room⟩ := room
  cases action with
  | gate r addr fails => exact g.gate later banable room
  | badBody r => exact g.badBody later
  | compare r password issueFails => exact g.compare later (room ip)
  | record r fault =>
    obtain rfl : fault = none := room
    exact g.record later banable
  | clear r fails => exact g.clear later

end

/-- **The login limit.** It holds along every run of the server in which the requests leave
room. -/
theorem login_limited (admin : String) {events : List Event}
    (room : Runs.Along (step admin) (Room admin) start events) :
    Runs.Along (step admin) (Limited admin) start events := by
  refine Runs.along_of_invariant (fun s => ∀ ip, isBanableAuthIP ip = true → s.Guarded ip)
    (fun s e guarded room ip banable => (guarded ip banable).step banable room) ?_
    (fun ip _ => guarded_start ip) room
  intro s e guarded room
  refine ⟨fun ip banable a => ((guarded ip banable).step banable room).limit a, ?_⟩
  obtain ⟨now, action⟩ := e
  cases action with
  | gate r addr fails => trivial
  | badBody r => trivial
  | compare r password issueFails =>
    intro ip found banable banned
    have some : 0 < s.inProgress ip := count_pos found (decide_eq_true rfl)
    exact some.ne' ((guarded ip banable).banned banned)
  | record r fault =>
    intro ip found banable fifth
    obtain rfl : fault = none := room.2
    obtain ⟨reply, form⟩ := s.recordLoginFailure_none r ip now
    simp only [Server.step, act, found, form, finish, if_pos banable]
    rcases s.tables.recorded_own ip now with ⟨-, banned, -⟩ | ⟨few, -⟩
    · exact banned
    · dsimp only at fifth
      omega
  | clear r fails => trivial

/-- A guess that fails and the right password after it. -/
def secondTry : List Event :=
  [⟨1000, .gate 0 "203.0.113.9" false⟩, ⟨2000, .compare 0 "guess" false⟩, ⟨3000, .record 0 none⟩,
    ⟨4000, .gate 1 "203.0.113.9" false⟩, ⟨5000, .compare 1 "secret" false⟩, ⟨6000, .clear 1 false⟩]

theorem secondTry_limited : Runs.Along (step "secret") (Room "secret") start secondTry ∧
    Runs.Along (step "secret") (Limited "secret") start secondTry := by
  have room : Runs.Along (step "secret") (Room "secret") start secondTry := by
    refine ⟨⟨by decide, fun _ _ => by decide +kernel⟩, ⟨by decide, ?_⟩, ⟨by decide, rfl⟩,
      ⟨by decide, fun _ _ => by decide +kernel⟩, ⟨by decide, ?_⟩, ⟨by decide, trivial⟩, trivial⟩
    · exact fun _ _ right => absurd right (by decide)
    · intro ip found _
      obtain rfl : "203.0.113.9" = ip := congrArg Request.ip (Option.some.inj found)
      decide +kernel
  exact ⟨room, login_limited "secret" room⟩

/-- Six requests pass the gate before any of them has sent its body. -/
def sixGuesses : List Event :=
  (List.range 6).map (fun r => ⟨1000 + r, .gate r "203.0.113.9" false⟩) ++
    (List.range 6).map fun r => ⟨2000 + r, .compare r "guess" false⟩

/-- **The gate does not limit requests that are under way.** -/
theorem sixGuesses_compared : isBanableAuthIP "203.0.113.9" = true ∧
    ¬ Runs.Along (step "secret") (Limited "secret") start sixGuesses := by
  have banable : isBanableAuthIP "203.0.113.9" = true := by decide +kernel
  refine ⟨banable, fun limited => ?_⟩
  obtain ⟨-, -, -, -, -, -, -, -, -, -, -, ⟨most, -⟩, -⟩ := limited
  exact absurd (most "203.0.113.9" banable 0 (by decide +kernel)) (by decide +kernel)

end Server

end Api
