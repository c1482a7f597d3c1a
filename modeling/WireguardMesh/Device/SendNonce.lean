import Mathlib.Algebra.Group.Nat.Defs
import Mathlib.Data.Fintype.Card
import WireguardMesh.Foundation.Runs

/-! # Nonces of sent messages

`SendStagedPackets` gives every element of a container the next nonce of the keypair it has read,
and queues the container when all of its elements have one. An element past the limit is staged
again, and the caller stores the limit in the counter, as `ExpireCurrentKeypairs` does. A state is
that of one keypair; a step that its caller cannot take leaves it as it is. A caller adds to a
counter past the limit once before it stores the limit, so with few callers the counter does not
wrap around, and a nonce is given once (`Wireguard.Sending.nonces_unique`).
-/

namespace Wireguard

def rejectAfterMessages : Nat := 2 ^ 64 - 2 ^ 13 - 1

/-- Where a caller of `SendStagedPackets` is. -/
inductive Caller
  /-- it has not read the keypair -/
  | idle
  | sending
  /-- after an `Add` past the limit, before the `Store` -/
  | past
deriving DecidableEq

/-- An element with a nonce, and the caller that has it in its container; a queued one has none. -/
structure OutboundElement (n : Nat) where
  nonce : Nat
  holder : Option (Fin n)
deriving DecidableEq

/-- The use of a keypair by `n` callers. -/
structure Sending (n : Nat) where
  sendNonce : Nat
  callers : Fin n → Caller
  elems : List (OutboundElement n)

inductive SendAction (n : Nat)
  /-- the keypair is read as the current one, with its counter below the limit -/
  | load (i : Fin n)
  | add (i : Fin n)
  | store (i : Fin n)
  /-- the container is queued -/
  | queue (i : Fin n)
  /-- the container is discarded, because the peer is not running -/
  | discard (i : Fin n)
  /-- the caller returns, or goes to the top -/
  | leave (i : Fin n)
  /-- the `Store` of `ExpireCurrentKeypairs` -/
  | expire

namespace Sending

variable {n : Nat}

def new : Sending n :=
  ⟨0, fun _ => .idle, []⟩

def setCaller (s : Sending n) (i : Fin n) (now : Caller) : Sending n :=
  { s with callers := Function.update s.callers i now }

/-- An element after a caller has queued its container. -/
def release (i : Fin n) (e : OutboundElement n) : OutboundElement n :=
  if e.holder = some i then { e with holder := none } else e

def step (s : Sending n) : SendAction n → Sending n
  | .load i =>
    if s.callers i = .idle ∧ s.sendNonce < rejectAfterMessages then s.setCaller i .sending else s
  | .add i =>
    if s.callers i = .sending then
      let nonce := s.sendNonce
      let s := { s with sendNonce := (nonce + 1) % 2 ^ 64 }
      if rejectAfterMessages ≤ nonce then s.setCaller i .past
      else { s with elems := s.elems ++ [⟨nonce, some i⟩] }
    else s
  | .store i =>
    if s.callers i = .past then
      { s.setCaller i .sending with sendNonce := rejectAfterMessages }
    else s
  | .queue i =>
    if s.callers i = .sending then { s with elems := s.elems.map (release i) } else s
  | .discard i =>
    if s.callers i = .sending then { s with elems := s.elems.filter (·.holder ≠ some i) } else s
  | .leave i =>
    if s.callers i = .sending ∧ ∀ e ∈ s.elems, e.holder ≠ some i then s.setCaller i .idle else s
  | .expire => { s with sendNonce := rejectAfterMessages }

/-- The elements of the outbound queue. -/
def queued (s : Sending n) : List (OutboundElement n) :=
  s.elems.filter (·.holder = none)

/-- The nonces that have been given to elements. -/
def nonces (s : Sending n) : List Nat :=
  s.elems.map OutboundElement.nonce

/-- The callers that are to store the limit. -/
def overs (s : Sending n) : Finset (Fin n) :=
  Finset.univ.filter fun i => s.callers i = .past

/-- **Fresh nonces.** The counter is past the limit by no more than the callers that have added to
it there, and every nonce given is below the counter, and given once. -/
structure Fresh (s : Sending n) : Prop where
  bounded : s.sendNonce ≤ rejectAfterMessages + s.overs.card
  below : ∀ m ∈ s.nonces, m < rejectAfterMessages ∧ m < s.sendNonce
  distinct : s.nonces.Nodup

variable {s s' : Sending n} {i : Fin n}

theorem overs_setCaller {now : Caller} (before : s.callers i ≠ .past) (after : now ≠ .past) :
    (s.setCaller i now).overs = s.overs := by
  refine Finset.filter_congr fun j _ => ?_
  by_cases here : j = i
  · subst here
    simp [setCaller, before, after]
  · simp [setCaller, here]

theorem card_overs_past (before : s.callers i ≠ .past) :
    (s.setCaller i .past).overs.card = s.overs.card + 1 := by
  have grown : (s.setCaller i .past).overs = insert i s.overs := by
    ext j
    rw [Finset.mem_insert, overs, overs, Finset.mem_filter, Finset.mem_filter, setCaller]
    by_cases here : j = i <;> simp [here]
  rw [grown, Finset.card_insert_of_notMem]
  simpa [overs] using before

/-- The counter does not wrap around. -/
theorem Fresh.succ_lt (fresh : s.Fresh) (few : n < 2 ^ 13) (before : s.callers i ≠ .past) :
    s.sendNonce + 1 < 2 ^ 64 := by
  have bound := fresh.bounded
  have all := Finset.card_le_univ (s.setCaller i .past).overs
  rw [card_overs_past before, Fintype.card_fin] at all
  rw [rejectAfterMessages] at bound
  omega

/-- **What a step can do.** The counter gets the limit or keeps its value, while elements are
passed on or dropped; or a caller adds to it, and an element gets a nonce below the limit. -/
theorem step_cases (fresh : s.Fresh) (few : n < 2 ^ 13) (a : SendAction n) :
    ((s.step a).nonces.Sublist s.nonces ∧ ((s.step a).sendNonce = rejectAfterMessages ∨
      (s.step a).sendNonce = s.sendNonce ∧ (s.step a).overs.card = s.overs.card)) ∨
    (s.step a).sendNonce = s.sendNonce + 1 ∧
      (rejectAfterMessages ≤ s.sendNonce ∧ (s.step a).nonces = s.nonces ∧
        (s.step a).overs.card = s.overs.card + 1 ∨
      s.sendNonce < rejectAfterMessages ∧ (s.step a).nonces = s.nonces ++ [s.sendNonce]) := by
  have idle : (s.nonces.Sublist s.nonces ∧ (s.sendNonce = rejectAfterMessages ∨
      s.sendNonce = s.sendNonce ∧ s.overs.card = s.overs.card)) := ⟨.refl _, .inr ⟨rfl, rfl⟩⟩
  cases a with
  | load i | leave i =>
    rw [step]
    split
    · next ready => exact .inl ⟨.refl _, .inr ⟨rfl, by rw [overs_setCaller] <;> simp [ready.1]⟩⟩
    · exact .inl idle
  | add i =>
    rw [step]
    split
    · next sending =>
      have before : s.callers i ≠ .past := by simp [sending]
      dsimp only
      rw [Nat.mod_eq_of_lt (fresh.succ_lt few before)]
      split
      · next reached => exact .inr ⟨rfl, .inl ⟨reached, rfl, card_overs_past before⟩⟩
      · next low => exact .inr ⟨rfl, .inr ⟨Nat.lt_of_not_le low, List.map_append⟩⟩
    · exact .inl idle
  | store i =>
    rw [step]
    split
    · exact .inl ⟨.refl _, .inl rfl⟩
    · exact .inl idle
  | queue i =>
    rw [step]
    split
    · have kept : OutboundElement.nonce ∘ release i = OutboundElement.nonce := by
        funext e
        rw [Function.comp, release]
        split <;> rfl
      refine .inl ⟨?_, .inr ⟨rfl, rfl⟩⟩
      rw [nonces, List.map_map, kept]
      exact .refl _
    · exact .inl idle
  | discard i =>
    rw [step]
    split
    · exact .inl ⟨List.filter_sublist.map _, .inr ⟨rfl, rfl⟩⟩
    · exact .inl idle
  | expire => exact .inl ⟨.refl _, .inl rfl⟩

theorem Fresh.step (fresh : s.Fresh) (few : n < 2 ^ 13) (a : SendAction n) : (s.step a).Fresh := by
  obtain ⟨bounded, below, distinct⟩ := fresh
  rcases step_cases ⟨bounded, below, distinct⟩ few a with
    ⟨fewer, kept⟩ | ⟨next, ⟨reached, same, overs⟩ | ⟨low, more⟩⟩
  · refine ⟨by omega, fun m member => ?_, distinct.sublist fewer⟩
    have := below m (fewer.subset member)
    omega
  · refine ⟨by omega, fun m member => ?_, same ▸ distinct⟩
    have := below m (same ▸ member)
    omega
  · refine ⟨by omega, fun m member => ?_, ?_⟩
    · rw [more, List.mem_append, List.mem_singleton] at member
      rcases member with old | rfl
      · have := below m old
        omega
      · omega
    · rw [more, List.nodup_append]
      refine ⟨distinct, List.nodup_singleton _, ?_⟩
      rintro m old _ new rfl
      exact absurd (below m old).2 (by simp [List.mem_singleton.mp new])

/-- A counter at the limit stays there, and no element gets a nonce. -/
def Spent (s : Sending n) (a : SendAction n) : Prop :=
  rejectAfterMessages ≤ s.sendNonce →
    rejectAfterMessages ≤ (s.step a).sendNonce ∧ (s.step a).nonces ⊆ s.nonces

theorem Fresh.spent (fresh : s.Fresh) (few : n < 2 ^ 13) (a : SendAction n) : s.Spent a := by
  intro reached
  rcases step_cases fresh few a with
    ⟨fewer, limit | ⟨same, _⟩⟩ | ⟨next, ⟨_, same, _⟩ | ⟨low, _⟩⟩
  · exact ⟨by omega, fewer.subset⟩
  · exact ⟨by omega, fewer.subset⟩
  · exact ⟨by omega, same ▸ List.Subset.refl _⟩
  · omega

/-- **Nonces are not reused.** With fewer than 2^13 callers, the queued elements of a keypair have
different nonces below the limit, and once its counter has reached the limit, it stays there and no
element gets a nonce of the keypair. -/
theorem nonces_unique (few : n < 2 ^ 13) (actions : List (SendAction n)) :
    ((Runs.after step new actions).queued.map OutboundElement.nonce).Nodup ∧
    (∀ e ∈ (Runs.after step new actions).queued, e.nonce < rejectAfterMessages) ∧
    Runs.Along step Spent (new : Sending n) actions := by
  have start : (new : Sending n).Fresh := ⟨Nat.zero_le _, List.forall_mem_nil _, List.nodup_nil⟩
  have fresh := Runs.always Fresh (fun _ a fresh => fresh.step few a) start actions
  refine ⟨fresh.distinct.sublist (List.filter_sublist.map _), fun e member => ?_, ?_⟩
  · exact (fresh.below _ (List.mem_map_of_mem (List.mem_of_mem_filter member))).1
  · exact Runs.along_of_invariant Fresh (fun _ a fresh _ => fresh.step few a)
      (fun _ a fresh _ => fresh.spent few a) start (Runs.along_trivial _ actions)

theorem twoCallers_unique :
    ((Runs.after step (new : Sending 2) [.load 0, .load 1, .add 0, .add 1, .queue 0,
      .queue 1]).queued.map OutboundElement.nonce).Nodup :=
  (nonces_unique (by decide) _).1

/-- An element that got its nonce before the keypair expired is queued after that. -/
theorem expired_queued :
    let s := Runs.after step (new : Sending 1) [.load 0, .add 0, .expire]
    s.sendNonce = rejectAfterMessages ∧ s.queued = [] ∧
      (s.step (.queue 0)).queued = [⟨0, none⟩] := by
  decide

end Sending

end Wireguard
