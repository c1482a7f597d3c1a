/-! # Conversations of two parties over reliable streams

Two parties are joined by a stream in each direction. A stream keeps the order and loses nothing,
but hands over what has been sent in portions of any size (`Pair.deliver`). A party is a function
of all it has heard so far: it waits for more, has failed, or has returned and left some of what it
heard unread.

When both parties keep to the same sequence of messages (`Follows`), the portions do not matter:
neither party ever fails, and once nothing is left to deliver both have returned, with exactly what
the other has sent after the conversation still unread (`Follows.completes`).
-/

namespace Conversation

variable {β α γ : Type}

inductive Side
  | left
  | right
deriving DecidableEq

def Side.other : Side → Side
  | .left => .right
  | .right => .left

/-- Where a party stands, and what it has sent. -/
inductive Progress (β α : Type)
  | waiting (sent : List β)
  | failed (sent : List β)
  | returned (value : α) (sent rest : List β)
deriving DecidableEq

namespace Progress

def sent : Progress β α → List β
  | waiting sent => sent
  | failed sent => sent
  | returned _ sent _ => sent

def isFailed : Progress β α → Bool
  | failed _ => true
  | _ => false

end Progress

/-- A party: where it stands once it has heard so much. -/
abbrev Party (β α : Type) := List β → Progress β α

/-! ## Runs -/

structure Pair (β α γ : Type) where
  left : Party β α
  right : Party β γ

/-- What has been delivered to each side. -/
structure Heard (β : Type) where
  left : List β
  right : List β
deriving DecidableEq

def Heard.size (heard : Heard β) : Nat :=
  heard.left.length + heard.right.length

namespace Pair

variable (pair : Pair β α γ)

/-- Hands the next symbols to a side, as many as asked for or as have been sent. -/
def deliver (heard : Heard β) : Side × Nat → Heard β
  | (.left, count) => { heard with
      left := heard.left ++ ((pair.right heard.right).sent.drop heard.left.length).take count }
  | (.right, count) => { heard with
      right := heard.right ++ ((pair.left heard.left).sent.drop heard.right.length).take count }

/-- A run from the start. -/
def run (schedule : List (Side × Nat)) : Heard β :=
  schedule.foldl pair.deliver ⟨[], []⟩

/-- All that has been sent is delivered. -/
def Quiet (heard : Heard β) : Prop :=
  (pair.right heard.right).sent.length ≤ heard.left.length ∧
    (pair.left heard.left).sent.length ≤ heard.right.length

instance (heard : Heard β) : Decidable (pair.Quiet heard) :=
  inferInstanceAs (Decidable (_ ∧ _))

/-- **The conversation completes**, however the streams are cut into portions: with these values,
and these symbols left unread. -/
structure Completes (value : α) (value' : γ) (restLeft restRight : List β) : Prop where
  /-- neither side fails -/
  safe : ∀ schedule, (pair.left (pair.run schedule).left).isFailed = false ∧
    (pair.right (pair.run schedule).right).isFailed = false
  /-- where nothing is left to deliver, both sides have returned -/
  returns : ∀ schedule, pair.Quiet (pair.run schedule) →
    (∃ sent, pair.left (pair.run schedule).left = .returned value sent restLeft) ∧
      ∃ sent, pair.right (pair.run schedule).right = .returned value' sent restRight
  /-- only so much is ever delivered -/
  bounded : ∃ total, ∀ schedule, (pair.run schedule).size ≤ total
  /-- every run goes on to where nothing is left to deliver -/
  finishes : ∀ schedule, ∃ more, pair.Quiet (pair.run (schedule ++ more))

variable {pair}

theorem exists_delivery {heard : Heard β} (pending : ¬ pair.Quiet heard) :
    ∃ delivery, heard.size < (pair.deliver heard delivery).size := by
  have one : ∀ {front sent : List β}, front.length < sent.length →
      (front ++ (sent.drop front.length).take 1).length = front.length + 1 := by
    intro front sent more
    rw [List.length_append, List.length_take, List.length_drop]
    omega
  by_cases toLeft : (pair.right heard.right).sent.length ≤ heard.left.length
  · refine ⟨(.right, 1), ?_⟩
    have toRight := one (Nat.lt_of_not_le fun done => pending ⟨toLeft, done⟩)
    simp only [deliver, Heard.size, toRight]
    omega
  · refine ⟨(.left, 1), ?_⟩
    simp only [deliver, Heard.size, one (Nat.lt_of_not_le toLeft)]
    omega

theorem exists_quiet {total : Nat} (bounded : ∀ schedule, (pair.run schedule).size ≤ total)
    (schedule : List (Side × Nat)) : ∃ more, pair.Quiet (pair.run (schedule ++ more)) := by
  by_cases quiet : pair.Quiet (pair.run schedule)
  · exact ⟨[], by rwa [List.append_nil]⟩
  · obtain ⟨delivery, grows⟩ := exists_delivery quiet
    have next : pair.run (schedule ++ [delivery]) = pair.deliver (pair.run schedule) delivery :=
      List.foldl_append
    have bound := bounded (schedule ++ [delivery])
    obtain ⟨more, done⟩ := exists_quiet bounded (schedule ++ [delivery])
    exact ⟨delivery :: more, by rwa [List.append_assoc, List.singleton_append] at done⟩
termination_by total - (pair.run schedule).size
decreasing_by rw [next] at bound ⊢; omega

end Pair

/-! ## Messages -/

/-- The messages of a conversation, each with the side that sends it. -/
abbrev Talk (β : Type) := List (Side × List β)

/-- All that a side says. -/
def said (me : Side) : Talk β → List β
  | [] => []
  | (side, message) :: talk => if side = me then message ++ said me talk else said me talk

/-- What a side has said once it has heard the given number of symbols. -/
def saidAfter (me : Side) : Talk β → Nat → List β
  | [], _ => []
  | (side, message) :: talk, heard =>
    if side = me then message ++ saidAfter me talk heard
    else if heard < message.length then []
    else saidAfter me talk (heard - message.length)

/-- **The party keeps to the conversation**: it returns the value once it has heard all that the
other side says, and sends more only after that; until then it waits, and has sent all that comes
before the message it waits for. -/
structure Follows (me : Side) (party : Party β α) (talk : Talk β) (value : α)
    (later : List β) : Prop where
  returns : ∀ rest,
    party (said me.other talk ++ rest) = .returned value (said me talk ++ later) rest
  waits : ∀ front back, said me.other talk = front ++ back → back ≠ [] →
    party front = .waiting (saidAfter me talk front.length)

theorem said_append (me : Side) (talk talk' : Talk β) :
    said me (talk ++ talk') = said me talk ++ said me talk' := by
  induction talk with
  | nil => rfl
  | cons turn talk ih =>
    rw [List.cons_append, said, said, ih]
    split
    · rw [List.append_assoc]
    · rfl

theorem Side.other_ne (me : Side) : me.other ≠ me := by
  cases me <;> exact nofun

theorem Side.eq_other {me side : Side} (different : side ≠ me) : side = me.other := by
  cases me <;> cases side <;> first | rfl | exact absurd rfl different

/-- Up to the end of what it hears in a first part, a side says what it says there. -/
theorem saidAfter_append_of_lt (me : Side) {talk : Talk β} (talk' : Talk β) {heard : Nat}
    (short : heard < (said me.other talk).length) :
    saidAfter me (talk ++ talk') heard = saidAfter me talk heard := by
  induction talk generalizing heard with
  | nil => exact absurd short (Nat.not_lt_zero heard)
  | cons turn talk ih =>
    obtain ⟨side, message⟩ := turn
    rw [List.cons_append, saidAfter, saidAfter]
    by_cases mine : side = me
    · rw [said, if_neg (mine ▸ me.other_ne.symm)] at short
      rw [if_pos mine, if_pos mine, ih short]
    · rw [said, if_pos (Side.eq_other mine), List.length_append] at short
      rw [if_neg mine, if_neg mine]
      split
      · rfl
      · exact ih (by omega)

/-- Having heard all of a first part, a side has said all of it and goes on with the rest. -/
theorem saidAfter_append (me : Side) (talk talk' : Talk β) (heard : Nat) :
    saidAfter me (talk ++ talk') ((said me.other talk).length + heard) =
      said me talk ++ saidAfter me talk' heard := by
  induction talk with
  | nil => rw [said, List.length_nil, Nat.zero_add]; rfl
  | cons turn talk ih =>
    obtain ⟨side, message⟩ := turn
    rw [List.cons_append, saidAfter, said, said]
    by_cases mine : side = me
    · rw [if_pos mine, if_pos mine, if_neg (mine ▸ me.other_ne.symm), ih, List.append_assoc]
    · rw [if_neg mine, if_neg mine, if_pos (Side.eq_other mine), List.length_append,
        if_neg (by omega), Nat.add_assoc, Nat.add_sub_cancel_left, ih]

theorem saidAfter_isPrefix (me : Side) (talk : Talk β) (heard : Nat) :
    saidAfter me talk heard <+: said me talk := by
  induction talk generalizing heard with
  | nil => exact List.prefix_rfl
  | cons turn talk ih =>
    rw [saidAfter, said]
    split
    · exact (List.prefix_append_right_inj _).mpr (ih heard)
    · split
      · exact List.nil_prefix
      · exact ih _

/-- **No deadlock.** When each side has heard what the other has said so far, both have heard
all. -/
theorem all_heard (talk : Talk β) {left right : Nat}
    (fromRight : (saidAfter .right talk right).length ≤ left)
    (fromLeft : (saidAfter .left talk left).length ≤ right) :
    (said .right talk).length ≤ left ∧ (said .left talk).length ≤ right := by
  induction talk generalizing left right with
  | nil => exact ⟨Nat.zero_le _, Nat.zero_le _⟩
  | cons turn talk ih =>
    obtain ⟨side, message⟩ := turn
    cases side with
    | left =>
      rw [saidAfter, if_pos rfl, List.length_append] at fromLeft
      rw [saidAfter, if_neg nofun, if_neg (by omega)] at fromRight
      rw [said, said, if_neg nofun, if_pos rfl, List.length_append]
      have both := ih fromRight (by omega)
      omega
    | right =>
      rw [saidAfter, if_pos rfl, List.length_append] at fromRight
      rw [saidAfter, if_neg nofun, if_neg (by omega)] at fromLeft
      rw [said, said, if_pos rfl, if_neg nofun, List.length_append]
      have both := ih (by omega) fromLeft
      omega

/-! ## Parties that keep to a conversation -/

namespace Follows

variable {me : Side} {party : Party β α} {talk : Talk β} {value : α} {later : List β}

section

variable {heard tail : List β} (follows : Follows me party talk value later)
  (begins : heard <+: said me.other talk ++ tail)

include follows begins

theorem cases :
    (heard.length < (said me.other talk).length ∧
        party heard = .waiting (saidAfter me talk heard.length)) ∨
      ∃ rest, heard = said me.other talk ++ rest ∧
        party heard = .returned value (said me talk ++ later) rest := by
  rcases Nat.lt_or_ge heard.length (said me.other talk).length with short | long
  · obtain ⟨back, split⟩ := List.prefix_of_prefix_length_le begins
      (List.prefix_append _ _) (Nat.le_of_lt short)
    refine .inl ⟨short, follows.waits heard back split.symm ?_⟩
    rintro rfl
    rw [List.append_nil] at split
    exact absurd (split ▸ short) (Nat.lt_irrefl _)
  · obtain ⟨rest, split⟩ := List.prefix_of_prefix_length_le (List.prefix_append _ _) begins long
    exact .inr ⟨rest, split.symm, split ▸ follows.returns rest⟩

theorem sent_isPrefix :
    (party heard).sent <+: said me talk ++ later := by
  rcases follows.cases begins with ⟨-, waits⟩ | ⟨rest, -, returned⟩
  · rw [waits]
    exact (saidAfter_isPrefix me talk heard.length).trans (List.prefix_append _ _)
  · rw [returned]
    exact List.prefix_rfl

theorem not_failed : (party heard).isFailed = false := by
  rcases follows.cases begins with ⟨-, waits⟩ | ⟨rest, -, returned⟩
  · rw [waits]; rfl
  · rw [returned]; rfl

theorem length_saidAfter_le :
    (saidAfter me talk heard.length).length ≤ (party heard).sent.length := by
  rcases follows.cases begins with ⟨-, waits⟩ | ⟨rest, -, returned⟩
  · rw [waits]
    exact Nat.le_refl _
  · rw [returned]
    exact ((saidAfter_isPrefix me talk heard.length).trans (List.prefix_append _ later)).length_le

/-- Once it has heard all of the conversation, it has returned and sent all it ever sends. -/
theorem returned_of_length (all : (said me.other talk).length ≤ heard.length) :
    ∃ rest, heard = said me.other talk ++ rest ∧
      party heard = .returned value (said me talk ++ later) rest := by
  rcases follows.cases begins with ⟨short, -⟩ | done
  · exact absurd all (Nat.not_le.mpr short)
  · exact done

end

end Follows

theorem delivered_isPrefix {heard sent total : List β} (count : Nat) (begins : heard <+: total)
    (sends : sent <+: total) : heard ++ (sent.drop heard.length).take count <+: total := by
  rcases Nat.le_total sent.length heard.length with done | more
  · rwa [List.drop_of_length_le done, List.take_nil, List.append_nil]
  · obtain ⟨rest, rfl⟩ := List.prefix_of_prefix_length_le begins sends more
    rw [List.drop_left]
    exact ((List.prefix_append_right_inj heard).mpr (List.take_prefix count rest)).trans sends

section Completes

variable {pair : Pair β α γ} {talk : Talk β} {value : α} {value' : γ} {later later' : List β}

/-- Each side has heard a beginning of what the other says and sends after that. -/
def OnTrack (talk : Talk β) (later later' : List β) (heard : Heard β) : Prop :=
  heard.left <+: said .right talk ++ later' ∧ heard.right <+: said .left talk ++ later

section

variable (left : Follows .left pair.left talk value later)
  (right : Follows .right pair.right talk value' later')

include left right

theorem OnTrack.deliver {heard : Heard β}
    (onTrack : OnTrack talk later later' heard) (delivery : Side × Nat) :
    OnTrack talk later later' (pair.deliver heard delivery) := by
  obtain ⟨side, count⟩ := delivery
  cases side with
  | left =>
    exact ⟨delivered_isPrefix count onTrack.1 (right.sent_isPrefix onTrack.2), onTrack.2⟩
  | right =>
    exact ⟨onTrack.1, delivered_isPrefix count onTrack.2 (left.sent_isPrefix onTrack.1)⟩

theorem OnTrack.run
    (schedule : List (Side × Nat)) :
    OnTrack talk later later' (pair.run schedule) := by
  have from_any : ∀ heard : Heard β, OnTrack talk later later' heard →
      OnTrack talk later later' (schedule.foldl pair.deliver heard) := by
    induction schedule with
    | nil => exact fun _ onTrack => onTrack
    | cons delivery schedule ih =>
      exact fun _ onTrack => ih _ (onTrack.deliver left right delivery)
  exact from_any _ ⟨List.nil_prefix, List.nil_prefix⟩

/-- Where all that has been sent is delivered, each side has heard all there is. -/
theorem OnTrack.of_quiet {heard : Heard β}
    (onTrack : OnTrack talk later later' heard) (quiet : pair.Quiet heard) :
    (∃ sent, pair.left heard.left = .returned value sent later') ∧
      ∃ sent, pair.right heard.right = .returned value' sent later := by
  obtain ⟨allLeft, allRight⟩ := all_heard talk
    (Nat.le_trans (right.length_saidAfter_le onTrack.2) quiet.1)
    (Nat.le_trans (left.length_saidAfter_le onTrack.1) quiet.2)
  obtain ⟨restLeft, splitLeft, returnedLeft⟩ := left.returned_of_length onTrack.1 allLeft
  obtain ⟨restRight, splitRight, returnedRight⟩ := right.returned_of_length onTrack.2 allRight
  have fullLeft : heard.left = said .right talk ++ later' := by
    have sentAll := quiet.1
    rw [returnedRight] at sentAll
    exact onTrack.1.eq_of_length_le sentAll
  have fullRight : heard.right = said .left talk ++ later := by
    have sentAll := quiet.2
    rw [returnedLeft] at sentAll
    exact onTrack.2.eq_of_length_le sentAll
  obtain rfl := List.append_cancel_left (splitLeft.symm.trans fullLeft)
  obtain rfl := List.append_cancel_left (splitRight.symm.trans fullRight)
  exact ⟨⟨_, returnedLeft⟩, ⟨_, returnedRight⟩⟩

end

theorem OnTrack.size_le {heard : Heard β} (onTrack : OnTrack talk later later' heard) :
    heard.size ≤ (said .right talk ++ later').length + (said .left talk ++ later).length :=
  Nat.add_le_add onTrack.1.length_le onTrack.2.length_le

/-- **Two parties that keep to one conversation complete it**, and leave unread what the other side
sends after it. -/
theorem Follows.completes (left : Follows .left pair.left talk value later)
    (right : Follows .right pair.right talk value' later') :
    pair.Completes value value' later' later where
  safe schedule :=
    have onTrack := OnTrack.run left right schedule
    ⟨left.not_failed onTrack.1, right.not_failed onTrack.2⟩
  returns schedule quiet := (OnTrack.run left right schedule).of_quiet left right quiet
  bounded := ⟨_, fun schedule => (OnTrack.run left right schedule).size_le⟩
  finishes := Pair.exists_quiet fun schedule => (OnTrack.run left right schedule).size_le

end Completes

end Conversation
