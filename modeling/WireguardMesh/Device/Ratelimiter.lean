import Mathlib.Order.Basic
import WireguardMesh.Net.Addr

/-! # The rate limiter

`Ratelimiter.Allow` charges a packet to the tokens of its address, which are the nanoseconds that
have passed, at most `maxTokens`; `cleanup` forgets the addresses that have been idle for a second.
The clock is read for every call and for every entry that a cleanup visits, so a run is a list of
calls and visits with their times, and a cleanup is the visits of the keys in some order. An
address that is forgotten has refilled (`charge_of_idle`). Tokens have 64 bits, and those of an
entry that is left alone for 292 years overflow.
-/

namespace Ratelimiter

open Net

def packetsPerSecond : Int := 20
def packetsBurstable : Int := 5
def garbageCollectTime : Int := 1000000000
def packetCost : Int := 1000000000 / packetsPerSecond
def maxTokens : Int := packetCost * packetsBurstable

/-- `Time.Sub`, held to the range of a `Duration`. -/
def sub (t u : Int) : Int :=
  max (-2 ^ 63) (min (t - u) (2 ^ 63 - 1))

/-- The sum of two `int64`. -/
def add64 (a b : Int) : Int :=
  (a + b + 2 ^ 63) % 2 ^ 64 - 2 ^ 63

structure RatelimiterEntry where
  lastTime : Int
  tokens : Int

abbrev Table := Addr → Option RatelimiterEntry

/-- The tokens of an entry when it is found. -/
def RatelimiterEntry.refill (entry : RatelimiterEntry) (now : Int) : Int :=
  min (add64 entry.tokens (sub now entry.lastTime)) maxTokens

/-- The answer of `Allow`, and the entry it leaves in the place of the one it has found. -/
def charge (now : Int) : Option RatelimiterEntry → Bool × RatelimiterEntry
  | none => (true, ⟨now, maxTokens - packetCost⟩)
  | some entry =>
    if packetCost < entry.refill now then (true, ⟨now, entry.refill now - packetCost⟩)
    else (false, ⟨now, entry.refill now⟩)

def allow (table : Table) (ip : Addr) (now : Int) : Bool × Table :=
  ((charge now (table ip)).1, Function.update table ip (charge now (table ip)).2)

/-- The body of the loop of `cleanup`. -/
def collect (table : Table) (key : Addr) (now : Int) : Table :=
  Function.update table key
    ((table key).filter fun entry => sub now entry.lastTime ≤ garbageCollectTime)

inductive Step
  | allow (ip : Addr) (now : Int)
  | collect (key : Addr) (now : Int)

namespace Step

def isAllow : Step → Bool
  | .allow .. => true
  | .collect .. => false

def time : Step → Int
  | .allow _ now | .collect _ now => now

end Step

structure Answer where
  ip : Addr
  now : Int
  ok : Bool
deriving DecidableEq

/-- The calls of `Allow` in a run with their answers. -/
def answers (table : Table) : List Step → List Answer
  | [] => []
  | .allow ip now :: rest =>
    ⟨ip, now, (allow table ip now).1⟩ :: answers (allow table ip now).2 rest
  | .collect key now :: rest => answers (collect table key now) rest

/-- The clock does not go back. -/
def Ordered (run : List Step) : Prop :=
  run.Pairwise (·.time ≤ ·.time)

/-- The times of a run are less than 292 years apart. -/
def Near (run : List Step) : Prop :=
  ∀ x ∈ run, ∀ y ∈ run, y.time - x.time < 2 ^ 63 - maxTokens

/-- The packets of an address that are allowed from a time to another one. -/
def allowedIn (ip : Addr) (start stop : Int) (run : List Answer) : List Answer :=
  run.filter fun a => a.ok ∧ a.ip = ip ∧ start ≤ a.now ∧ a.now ≤ stop

variable {table full : Table} {ip : Addr} {now start stop t : Int} {step : Step}
  {rest run : List Step} {entry : RatelimiterEntry}

theorem packetCost_eq : packetCost = 50000000 := rfl

theorem maxTokens_eq : maxTokens = 250000000 := rfl

/-- An entry on which no later step overflows. -/
structure Ready (later : List Step) (entry : RatelimiterEntry) : Prop where
  within : 0 ≤ entry.tokens ∧ entry.tokens ≤ maxTokens
  near : ∀ s ∈ later, entry.lastTime ≤ s.time ∧ s.time - entry.lastTime < 2 ^ 63 - maxTokens

/-- What an address can spend at a time. -/
def worth (t : Int) : Option RatelimiterEntry → Int
  | none => maxTokens
  | some entry => min (max entry.tokens 0 + max (t - entry.lastTime) 0) maxTokens

theorem worth_bounds (t : Int) (found : Option RatelimiterEntry) :
    0 ≤ worth t found ∧ worth t found ≤ maxTokens := by
  cases found <;> simp only [worth, maxTokens_eq] <;> omega

theorem Ready.refill (ready : Ready (.allow ip now :: rest) entry) :
    entry.refill now = worth now entry := by
  have within := ready.within
  obtain ⟨aged, near⟩ : entry.lastTime ≤ now ∧ now - entry.lastTime < _ :=
    ready.near _ List.mem_cons_self
  rw [RatelimiterEntry.refill, worth, add64, sub, maxTokens_eq] at *
  omega

theorem Ready.tail (ready : Ready (step :: rest) entry) : Ready rest entry :=
  ⟨ready.within, fun s member => ready.near s (.tail _ member)⟩

/-- **An idle entry has refilled.** It is charged as if it were not there. -/
theorem charge_of_idle (ready : Ready (.allow ip now :: rest) entry)
    (idle : garbageCollectTime < now - entry.lastTime) :
    charge now (some entry) = charge now none := by
  have within := ready.within
  have full : entry.refill now = maxTokens := by
    rw [ready.refill, worth]
    simp only [garbageCollectTime, maxTokens_eq] at *
    omega
  rw [charge, charge, full, if_pos (by decide)]

theorem worth_later (found : Option RatelimiterEntry) (later : t ≤ now) :
    worth now found ≤ worth t found + (now - t) := by
  cases found <;> simp only [worth] <;> omega

/-- What a charge leaves: it has paid for the packet, and adds nothing to what can be spent. -/
theorem charge_cases (now : Int) (found : Option RatelimiterEntry)
    (ready : ∀ entry ∈ found, Ready (.allow ip now :: rest) entry) :
    ∃ ok tokens, charge now found = (ok, ⟨now, tokens⟩) ∧ 0 ≤ tokens ∧
      tokens + (if ok then packetCost else 0) ≤ worth now found ∧
      ∀ t, now ≤ t → worth t (some ⟨now, tokens⟩) ≤ worth t found := by
  cases found with
  | none => exact ⟨true, _, rfl, by decide, by simp [worth], fun t _ => (worth_bounds t _).2⟩
  | some entry =>
    have aged : entry.lastTime ≤ now := ((ready entry rfl).near _ List.mem_cons_self).1
    have bounds := worth_bounds now entry
    rw [charge, (ready entry rfl).refill]
    split
    all_goals
      simp only [worth, packetCost_eq, maxTokens_eq] at *
      exact ⟨_, _, rfl, by omega, by simp, by omega⟩

/-- The entries of a table before steps that do not overflow. -/
def AllReady (later : List Step) (table : Table) : Prop :=
  ∀ q, ∀ entry ∈ table q, Ready later entry

theorem AllReady.tail (ready : AllReady (step :: rest) table) : AllReady rest table :=
  fun q entry found => (ready q entry found).tail

theorem allow_snd :
    (allow table ip now).2 = Function.update table ip (some (charge now (table ip)).2) :=
  rfl

theorem AllReady.allow (ready : AllReady (.allow ip now :: rest) table)
    (ordered : Ordered (.allow ip now :: rest)) (near : Near (.allow ip now :: rest)) :
    AllReady rest (allow table ip now).2 := by
  intro q entry found
  by_cases same : q = ip
  · subst same
    obtain ⟨ok, tokens, charged, positive, paid, -⟩ := charge_cases now _ (ready q)
    have most := (worth_bounds now (table q)).2
    rw [allow_snd, Function.update_self, charged] at found
    cases found
    refine ⟨⟨positive, ?_⟩, fun s member => ⟨(List.pairwise_cons.mp ordered).1 s member,
      near _ List.mem_cons_self s (.tail _ member)⟩⟩
    simp only [packetCost_eq] at *
    split at paid <;> omega
  · rw [allow_snd, Function.update_of_ne same] at found
    exact ready.tail q entry found

/-- The table of a run next to that of the run without visits. -/
def Forgets (later : List Step) (table full : Table) : Prop :=
  ∀ q, table q = full q ∨ table q = none ∧
    ∃ entry ∈ full q, ∀ s ∈ later, garbageCollectTime < s.time - entry.lastTime

theorem Forgets.tail (forgets : Forgets (step :: rest) table full) : Forgets rest table full := by
  refine fun q => (forgets q).imp_right ?_
  rintro ⟨gone, entry, found, idle⟩
  exact ⟨gone, entry, found, fun s member => idle s (.tail _ member)⟩

theorem Forgets.charge (forgets : Forgets (.allow ip now :: rest) table full)
    (ready : AllReady (.allow ip now :: rest) full) :
    charge now (table ip) = charge now (full ip) := by
  rcases forgets ip with same | ⟨gone, entry, found, idle⟩
  · rw [same]
  · rw [gone, found, charge_of_idle (ready ip entry found) (idle _ List.mem_cons_self)]

theorem Forgets.collect {key : Addr} (forgets : Forgets (.collect key now :: rest) table full)
    (ordered : Ordered (.collect key now :: rest)) : Forgets rest (collect table key now) full := by
  intro q
  by_cases same : q = key
  · subst same
    rw [Ratelimiter.collect, Function.update_self]
    rcases forgets.tail q with same | ⟨gone, idle⟩
    · rw [same]
      cases found : full q with
      | none => exact .inl rfl
      | some entry =>
        rw [Option.filter_some]
        split
        · exact .inl rfl
        · next late =>
          refine .inr ⟨rfl, entry, rfl, fun s member => ?_⟩
          have after : now ≤ s.time := (List.pairwise_cons.mp ordered).1 s member
          rw [decide_eq_true_eq, sub, garbageCollectTime] at *
          omega
    · rw [gone]
      exact .inr ⟨rfl, idle⟩
  · rw [Ratelimiter.collect, Function.update_of_ne same]
    exact forgets.tail q

theorem Near.tail (near : Near (step :: rest)) : Near rest :=
  fun x member y other => near x (.tail _ member) y (.tail _ other)

theorem answers_filter (ready : AllReady run full) (forgets : Forgets run table full)
    (ordered : Ordered run) (near : Near run) :
    answers table run = answers full (run.filter Step.isAllow) := by
  induction run generalizing table full with
  | nil => rfl
  | cons step rest ih =>
    have sorted := (List.pairwise_cons.mp ordered).2
    cases step with
    | allow ip now =>
      have same := forgets.charge ready
      rw [List.filter_cons_of_pos rfl, answers, answers,
        ih (ready.allow ordered near) _ sorted near.tail, allow, allow, same]
      intro q
      rw [allow_snd, allow_snd, same, Function.update_apply, Function.update_apply]
      split
      · exact .inl rfl
      · exact forgets.tail q
    | collect key now =>
      rw [List.filter_cons_of_neg Bool.false_ne_true, answers,
        ih ready.tail (forgets.collect ordered) sorted near.tail]

theorem allowedIn_late (late : ∀ s ∈ run, stop < s.time) :
    allowedIn ip start stop (answers table run) = [] := by
  induction run generalizing table with
  | nil => rfl
  | cons step rest ih =>
    have first := late step List.mem_cons_self
    have tail (t) : allowedIn ip start stop (answers t rest) = [] :=
      ih fun s member => late s (.tail _ member)
    cases step with
    | allow q now =>
      rw [answers, allowedIn, List.filter_cons_of_neg, ← allowedIn, tail]
      simp only [Step.time, decide_eq_true_eq] at first ⊢
      omega
    | collect key now => exact tail _

/-- What an address is allowed is paid from what it can spend, and from what is added until then. -/
theorem spend_le (ip : Addr) (stop : Int) (ready : AllReady run table) (ordered : Ordered run)
    (near : Near run) (calls : ∀ s ∈ run, s.isAllow) (after : start ≤ t)
    (upTo : t ≤ stop) (next : ∀ s ∈ run, start ≤ s.time → t ≤ s.time) :
    (allowedIn ip start stop (answers table run)).length * packetCost ≤
      worth t (table ip) + (stop - t) := by
  have unspent := worth_bounds t (table ip)
  induction run generalizing table t with
  | nil =>
    simp only [answers, allowedIn, List.filter_nil, List.length_nil]
    omega
  | cons step rest ih =>
    obtain ⟨first, sorted⟩ := List.pairwise_cons.mp ordered
    by_cases late : stop < step.time
    · rw [allowedIn_late]
      · simp only [List.length_nil]
        omega
      · intro s member
        rcases List.mem_cons.mp member with rfl | member
        · exact late
        · exact Int.lt_of_lt_of_le late (first s member)
    cases step with
    | collect key now => cases calls _ List.mem_cons_self
    | allow q now =>
      have here : start ≤ now → t ≤ now := next _ List.mem_cons_self
      have rest := ih (t := max t now) (ready.allow ordered near) sorted near.tail
        (fun s member => calls s (.tail _ member)) (by omega)
        (by simp only [Step.time] at late; omega)
        (fun s member inside => Int.max_le.mpr ⟨next s (.tail _ member) inside, first s member⟩)
        (worth_bounds ..)
      have waited := worth_later (table ip) (Int.le_max_left t now)
      rw [answers, allowedIn, List.filter_cons, ← allowedIn]
      simp only [packetCost_eq] at *
      by_cases same : q = ip
      · subst same
        obtain ⟨ok, tokens, charged, positive, paid, kept⟩ := charge_cases now _ (ready q)
        have kept := kept _ (Int.le_max_right t now)
        rw [show (allow table q now).2 q = some ⟨now, tokens⟩ by
          rw [allow_snd, Function.update_self, charged]] at rest
        split
        · next counted =>
          simp only [decide_eq_true_eq, allow, charged] at counted
          obtain ⟨rfl, -, inside, -⟩ := counted
          have left : worth now (some ⟨now, tokens⟩) ≤ tokens := by
            simp only [worth]
            omega
          rw [Int.max_eq_right (here inside)] at *
          rw [List.length_cons]
          simp only [packetCost_eq, ↓reduceIte] at paid
          omega
        · omega
      · rw [if_neg (by simp [same])]
        rw [show (allow table q now).2 ip = table ip by
          rw [allow_snd, Function.update_of_ne (Ne.symm same)]] at rest
        omega

/-- **Cleanups and the limit.** In a run in which the clock does not go back, and whose times are
less than 292 years apart, every call is answered as without the cleanups, and in an interval an
address is allowed at most the burst and one packet for each `packetCost` of its length. -/
theorem cleanup_unobservable (run : List Step) (ordered : Ordered run) (near : Near run) :
    answers (fun _ => none) run = answers (fun _ => none) (run.filter Step.isAllow) ∧
      ∀ ip start T, 0 ≤ T →
        ((allowedIn ip start (start + T) (answers (fun _ => none) run)).length : Int) ≤
          packetsBurstable + T / packetCost := by
  have ready (run) : AllReady run fun _ => none := fun q entry found => by cases found
  have same := answers_filter (ready run) (fun _ => .inl rfl) ordered near
  refine ⟨same, fun ip start T length => ?_⟩
  have spent := spend_le ip (start + T) (ready _) (ordered.filter Step.isAllow)
    (fun x member y other =>
      near x (List.mem_of_mem_filter member) y (List.mem_of_mem_filter other))
    (fun s member => List.of_mem_filter member) (Int.le_refl start) (by omega)
    fun _ _ inside => inside
  rw [same]
  simp only [worth, packetCost_eq, maxTokens_eq, packetsBurstable] at *
  omega

/-- The packets of one address: a burst, and one after a cleanup. -/
private def burst (last : Int) : List Step :=
  [0, 1, 2, 3, 4, 5].map (.allow (.v4 1)) ++ [.collect (.v4 1) 2000000000, .allow (.v4 1) last]

theorem cleanup_unobservable_burst : Ordered (burst 2000000001) ∧ Near (burst 2000000001) ∧
    answers (fun _ => none) (burst 2000000001) =
      answers (fun _ => none) ((burst 2000000001).filter Step.isAllow) := by
  have ordered : Ordered (burst 2000000001) := by unfold Ordered; decide
  have near : Near (burst 2000000001) := by unfold Near; decide
  exact ⟨ordered, near, (cleanup_unobservable _ ordered near).1⟩

/-- After 292 years the tokens overflow, and the packet of an address that was not forgotten is
refused. -/
theorem idle_overflows : Ordered (burst (2 ^ 63 + 5)) ∧
    answers (fun _ => none) (burst (2 ^ 63 + 5)) ≠
      answers (fun _ => none) ((burst (2 ^ 63 + 5)).filter Step.isAllow) := by
  unfold Ordered
  decide +kernel

end Ratelimiter
