import Mathlib.Order.ConditionallyCompleteLattice.Basic
import Mathlib.Data.Int.ConditionallyCompleteOrder
import WireguardMesh.Core.Models
import WireguardMesh.Net.Masked

/-! # Address conflicts

`ConflictLosers` walks over the nodes, keeps for every host text the holder that wins so
far, and marks the other. Its comparison is a strict total order of the positions
(`Core.precedes_total`), so the pass keeps the first node of every host text and marks the others
(`Core.mem_conflictLosers`), and the nodes that take part in the plan have different hosts.
-/

namespace Core

open GoText Net

/-- `hostFromAddress`; none for an empty address. -/
def hostFromAddress (addr : String) : Option (List Char) :=
  let text := trimSpace addr.toList
  if text = [] then none
  else match splitFirst '/' text with
  | some (host, _) => some host
  | none => some text

/-- A holder of a host text: its position in the mesh and when its address changed. -/
structure Holder where
  idx : Nat
  changedAt : Time
deriving DecidableEq

/-- Which of two holders keeps the address: one without change time, else the earlier
change, else the earlier position. -/
def Holder.better (a b : Holder) : Bool :=
  if a.changedAt.isZero && b.changedAt.isZero then a.idx < b.idx
  else if a.changedAt.isZero then true
  else if b.changedAt.isZero then false
  else if a.changedAt ≠ b.changedAt then a.changedAt.before b.changedAt
  else a.idx < b.idx

/-- The winners so far, by host text, and the ids marked so far. -/
structure Contest where
  winners : GoMap (List Char) Holder
  losers : List String

/-- One round of `ConflictLosers`. -/
def Contest.enter (nodes : List Node) (contest : Contest) (entry : Node × Nat) : Contest :=
  match hostFromAddress entry.1.address with
  | none => contest
  | some host =>
    let holder : Holder := ⟨entry.2, entry.1.addressChangedAt⟩
    match contest.winners.lookup host with
    | none => { contest with winners := contest.winners.insert host holder }
    | some winner =>
      if holder.better winner then
        { winners := contest.winners.insert host holder,
          losers := contest.losers ++ (nodes[winner.idx]?.map Node.id).toList }
      else { contest with losers := contest.losers ++ [entry.1.id] }

/-- `ConflictLosers`: the ids of the nodes that lose their address. -/
def conflictLosers (mesh : Mesh) : List String :=
  (mesh.nodes.zipIdx.foldl (Contest.enter mesh.nodes) ⟨∅, []⟩).losers

/-! ## The order -/

/-- When the address of a node has changed; an address that has not comes before all times. -/
def Node.changeKey (n : Node) : WithBot ℤ :=
  if n.addressChangedAt.isZero then ⊥ else n.addressChangedAt.stamp

/-- **Who comes first.** A node whose address has not changed, then the one whose address changed
earlier, then the one listed earlier. -/
def Precedes (a b : Node × Nat) : Prop :=
  a.1.changeKey < b.1.changeKey ∨ a.1.changeKey = b.1.changeKey ∧ a.2 < b.2

theorem digit_inj {n x y a b : Int} (digits : (0 ≤ a ∧ a < n) ∧ 0 ≤ b ∧ b < n)
    (same : x * n + a = y * n + b) : x = y ∧ a = b := by
  obtain ⟨⟨low, high⟩, low', high'⟩ := digits
  have positive : 0 < n := by omega
  have digits : a = b := by
    have first := Int.add_mul_emod_self_right a x n
    have second := Int.add_mul_emod_self_right b y n
    rw [Int.add_comm, same, Int.add_comm, second, Int.emod_eq_of_lt low' high',
      Int.emod_eq_of_lt low high] at first
    exact first.symm
  subst digits
  exact ⟨Int.eq_of_mul_eq_mul_right positive.ne' (by omega), rfl⟩

theorem Time.stamp_injective : Function.Injective Time.stamp := by
  intro s t same
  obtain ⟨y, mo, d, h, mi, se, na, m12, d31, h24, m60, s60, n9⟩ := s
  obtain ⟨y', mo', d', h', mi', se', na', m12', d31', h24', m60', s60', n9'⟩ := t
  dsimp only [Time.stamp] at same
  obtain ⟨same, nanos⟩ := digit_inj (by omega) same
  obtain ⟨same, seconds⟩ := digit_inj (by omega) same
  obtain ⟨same, minutes⟩ := digit_inj (by omega) same
  obtain ⟨same, hours⟩ := digit_inj (by omega) same
  obtain ⟨same, days⟩ := digit_inj (by omega) same
  obtain ⟨years, months⟩ := digit_inj (by omega) same
  have sameMonth := Int.ofNat_inj.mp months
  have sameDay := Int.ofNat_inj.mp days
  have sameHour := Int.ofNat_inj.mp hours
  have sameMinute := Int.ofNat_inj.mp minutes
  have sameSecond := Int.ofNat_inj.mp seconds
  have sameNano := Int.ofNat_inj.mp nanos
  subst years sameMonth sameDay sameHour sameMinute sameSecond sameNano
  rfl

theorem precedes_trans {a b c : Node × Nat} (first : Precedes a b) (second : Precedes b c) :
    Precedes a c := by
  rcases first with early | ⟨same, before⟩
  · rcases second with early' | ⟨same', -⟩
    · exact .inl (early.trans early')
    · exact .inl (same' ▸ early)
  · rcases second with early' | ⟨same', before'⟩
    · exact .inl (same ▸ early')
    · exact .inr ⟨same.trans same', before.trans before'⟩

theorem precedes_irrefl (a : Node × Nat) : ¬ Precedes a a := fun first =>
  first.elim (lt_irrefl _) fun both => lt_irrefl _ both.2

theorem precedes_total {a b : Node × Nat} (different : a.2 ≠ b.2) : Precedes a b ∨ Precedes b a := by
  rcases lt_trichotomy a.1.changeKey b.1.changeKey with early | same | late
  · exact .inl (.inl early)
  · exact (Nat.lt_or_gt_of_ne different).imp (fun before => .inr ⟨same, before⟩)
      fun after => .inr ⟨same.symm, after⟩
  · exact .inr (.inl late)

def holderOf (entry : Node × Nat) : Holder :=
  ⟨entry.2, entry.1.addressChangedAt⟩

theorem better_iff {a b : Node × Nat} : (holderOf a).better (holderOf b) = true ↔ Precedes a b := by
  rw [Precedes, Node.changeKey, Node.changeKey, Holder.better, holderOf, holderOf]
  cases a.1.addressChangedAt.isZero <;> cases b.1.addressChangedAt.isZero
  · by_cases same : a.1.addressChangedAt = b.1.addressChangedAt
    · simp [same]
    · have apart : a.1.addressChangedAt.stamp ≠ b.1.addressChangedAt.stamp := fun equal =>
        same (Time.stamp_injective equal)
      simp [same, apart, Time.before]
  · simp
  · simp
  · simp

/-! ## The pass -/

/-- What is known after some nodes: a host text without winner has no node, a winner comes before
all others of its host text, and these are the ones marked. -/
structure Contest.Decided (contest : Contest) (entered : List (Node × Nat)) : Prop where
  vacant : ∀ host, contest.winners.lookup host = none → ∀ entry ∈ entered,
    hostFromAddress entry.1.address ≠ some host
  least : ∀ host winner, contest.winners.lookup host = some winner → ∃ first ∈ entered,
    holderOf first = winner ∧ hostFromAddress first.1.address = some host ∧
      ∀ entry ∈ entered, hostFromAddress entry.1.address = some host → entry = first ∨
        Precedes first entry
  marked : ∀ id, id ∈ contest.losers ↔ ∃ entry ∈ entered, entry.1.id = id ∧
    ∃ host, hostFromAddress entry.1.address = some host ∧
      contest.winners.lookup host ≠ some (holderOf entry)

theorem eq_of_holderOf {nodes : List Node} {a b : Node × Nat} (atA : nodes[a.2]? = some a.1)
    (atB : nodes[b.2]? = some b.1) (same : holderOf a = holderOf b) : a = b := by
  have position : a.2 = b.2 := congrArg Holder.idx same
  rw [← position] at atB
  exact Prod.ext (Option.some.inj (atA.symm.trans atB)) position

section

variable {nodes : List Node} {contest : Contest} {entered : List (Node × Nat)}
  {entry : Node × Nat} {host : List Char}

theorem exists_mem_concat {p : Node × Nat → Prop} :
    (∃ e ∈ entered ++ [entry], p e) ↔ (∃ e ∈ entered, p e) ∨ p entry := by
  simp [or_and_right, exists_or]

theorem Contest.Decided.skip (decided : contest.Decided entered)
    (own : hostFromAddress entry.1.address = none) : contest.Decided (entered ++ [entry]) where
  vacant host free := List.forall_mem_append.mpr ⟨decided.vacant host free, by simp [own]⟩
  least := by
    intro host winner found
    obtain ⟨first, member, holds, hosted, least⟩ := decided.least host winner found
    exact ⟨first, List.mem_append_left _ member, holds, hosted,
      List.forall_mem_append.mpr ⟨least, by simp [own]⟩⟩
  marked := by
    intro id
    rw [decided.marked, exists_mem_concat]
    refine (or_iff_left ?_).symm
    rintro ⟨-, host, hosted, -⟩
    rw [own] at hosted
    cases hosted

/-- A node that wins its host text: the entries of other texts keep their state, and those of
its own are the losers. -/
theorem Contest.Decided.win {losers : List String} (decided : contest.Decided entered)
    (apart : ∀ other ∈ entered, holderOf other ≠ holderOf entry)
    (own : hostFromAddress entry.1.address = some host)
    (first : ∀ other ∈ entered, hostFromAddress other.1.address = some host → Precedes entry other)
    (added : ∀ id, id ∈ losers ↔ id ∈ contest.losers ∨ ∃ other ∈ entered, other.1.id = id ∧
      hostFromAddress other.1.address = some host) :
    Contest.Decided ⟨contest.winners.insert host (holderOf entry), losers⟩ (entered ++ [entry]) where
  vacant := by
    intro text free
    rw [GoMap.lookup_insert] at free
    split at free
    · cases free
    · next different =>
      exact List.forall_mem_append.mpr ⟨decided.vacant text free, by simp [own, Ne.symm different]⟩
  least := by
    intro text winner found
    rw [GoMap.lookup_insert] at found
    split at found
    · next same =>
      subst same
      exact ⟨entry, List.mem_append_right _ (.head _), Option.some.inj found, own,
        List.forall_mem_append.mpr ⟨fun other member hosted => .inr (first other member hosted),
          by simp⟩⟩
    · next different =>
      obtain ⟨leader, member, holds, hosted, least⟩ := decided.least text winner found
      exact ⟨leader, List.mem_append_left _ member, holds, hosted,
        List.forall_mem_append.mpr ⟨least, by simp [own, Ne.symm different]⟩⟩
  marked := by
    intro id
    rw [added, decided.marked, exists_mem_concat]
    constructor
    · rintro (⟨other, member, same, text, hosted, loses⟩ | ⟨other, member, same, hosted⟩)
      · refine .inl ⟨other, member, same, text, hosted, ?_⟩
        rw [GoMap.lookup_insert]
        split
        · exact fun holds => apart other member (Option.some.inj holds).symm
        · exact loses
      · refine .inl ⟨other, member, same, host, hosted, ?_⟩
        rw [GoMap.lookup_insert, if_pos rfl]
        exact fun holds => apart other member (Option.some.inj holds).symm
    · rintro (⟨other, member, same, text, hosted, loses⟩ | ⟨-, text, hosted, loses⟩)
      · rw [GoMap.lookup_insert] at loses
        split at loses
        · next text =>
          subst text
          exact .inr ⟨other, member, same, hosted⟩
        · exact .inl ⟨other, member, same, text, hosted, loses⟩
      · rw [own] at hosted
        rw [GoMap.lookup_insert, if_pos (Option.some.inj hosted).symm] at loses
        exact absurd rfl loses

theorem Contest.Decided.lose {leader : Node × Nat} (decided : contest.Decided entered)
    (apart : ∀ other ∈ entered, holderOf other ≠ holderOf entry) (known : leader ∈ entered)
    (own : hostFromAddress entry.1.address = some host)
    (rival : contest.winners.lookup host = some (holderOf leader))
    (later : Precedes leader entry) (unique : ∀ other ∈ entered, holderOf other = holderOf leader →
      other = leader) : Contest.Decided { contest with losers := contest.losers ++ [entry.1.id] }
      (entered ++ [entry]) where
  vacant := by
    intro text free
    refine List.forall_mem_append.mpr ⟨decided.vacant text free, ?_⟩
    rw [List.forall_mem_singleton, own]
    rintro ⟨⟩
    rw [rival] at free
    cases free
  least := by
    intro text winner found
    obtain ⟨first, member, holds, hosted, least⟩ := decided.least text winner found
    refine ⟨first, List.mem_append_left _ member, holds, hosted,
      List.forall_mem_append.mpr ⟨least, ?_⟩⟩
    rw [List.forall_mem_singleton, own]
    rintro ⟨⟩
    rw [unique first member (holds.trans (Option.some.inj (found.symm.trans rival)))]
    exact .inr later
  marked := by
    intro id
    rw [List.mem_append, decided.marked, List.mem_singleton, exists_mem_concat]
    refine or_congr_right ⟨?_, fun loses => loses.1.symm⟩
    rintro rfl
    refine ⟨rfl, host, own, ?_⟩
    rw [rival]
    exact fun holds => apart leader known (Option.some.inj holds)

/-- **One round.** -/
theorem Contest.decided_enter (positions : ∀ e ∈ entered, nodes[e.2]? = some e.1 ∧ e.2 ≠ entry.2)
    (decided : contest.Decided entered) :
    (contest.enter nodes entry).Decided (entered ++ [entry]) := by
  have apart : ∀ other ∈ entered, holderOf other ≠ holderOf entry := fun other member same =>
    (positions other member).2 (congrArg Holder.idx same)
  rw [Contest.enter]
  cases own : hostFromAddress entry.1.address with
  | none => exact decided.skip own
  | some host =>
    dsimp only
    cases rival : contest.winners.lookup host with
    | none =>
      refine decided.win apart own
        (fun other member hosted => absurd hosted (decided.vacant host rival other member)) ?_
      intro id
      refine (or_iff_left ?_).symm
      rintro ⟨other, member, -, hosted⟩
      exact decided.vacant host rival other member hosted
    | some winner =>
      obtain ⟨leader, known, rfl, hosted, least⟩ := decided.least host winner rival
      dsimp only
      by_cases wins : (holderOf entry).better (holderOf leader) = true
      · rw [show (⟨entry.2, entry.1.addressChangedAt⟩ : Holder) = holderOf entry from rfl,
          if_pos wins]
        have before := better_iff.mp wins
        refine decided.win apart own (fun other member hosted' => ?_) ?_
        · rcases least other member hosted' with rfl | later
          · exact before
          · exact precedes_trans before later
        · intro id
          rw [show nodes[(holderOf leader).idx]? = some leader.1 from (positions leader known).1,
            List.mem_append]
          constructor
          · rintro (marked | last)
            · exact .inl marked
            · exact .inr ⟨leader, known, (List.mem_singleton.mp last).symm, hosted⟩
          · rintro (marked | ⟨other, member, rfl, hosted'⟩)
            · exact .inl marked
            · by_cases same : holderOf other = holderOf leader
              · rw [eq_of_holderOf (positions other member).1 (positions leader known).1 same]
                exact .inr (.head _)
              · refine .inl ((decided.marked _).mpr ⟨other, member, rfl, host, hosted', ?_⟩)
                rw [rival]
                exact fun holds => same (Option.some.inj holds).symm
      · rw [show (⟨entry.2, entry.1.addressChangedAt⟩ : Holder) = holderOf entry from rfl,
          if_neg wins]
        have later : Precedes leader entry :=
          (precedes_total (positions leader known).2).resolve_right fun before =>
            wins (better_iff.mpr before)
        exact decided.lose apart known own rival later fun other member same =>
          eq_of_holderOf (positions other member).1 (positions leader known).1 same

end

/-- **The pass over the nodes of a mesh.** -/
theorem decided_conflictLosers (mesh : Mesh) :
    (mesh.nodes.zipIdx.foldl (Contest.enter mesh.nodes) ⟨∅, []⟩).Decided mesh.nodes.zipIdx := by
  refine Runs.foldl_rounds (fun entered (contest : Contest) => contest.Decided entered) _ ?_
    ⟨nofun, nofun, ?_⟩
  · intro entered entry later contest whole decided
    refine Contest.decided_enter (fun e member => ⟨?_, ?_⟩) decided
    · exact List.mem_zipIdx_iff_getElem?.mp (whole ▸ List.mem_append_left _ member)
    · have apart : (mesh.nodes.zipIdx.map Prod.snd).Nodup := by
        rw [List.zipIdx_map_snd]
        exact List.nodup_range' 1
      rw [← whole, List.map_append, List.nodup_append] at apart
      exact apart.2.2 _ (List.mem_map_of_mem member) _ (List.mem_map_of_mem (.head _))
  · intro id
    refine iff_of_false List.not_mem_nil ?_
    rintro ⟨entry, member, -⟩
    cases member

/-- **The losers.** A node loses its address if and only if another one with its host text
comes first. -/
theorem mem_conflictLosers {mesh : Mesh} {id : String} : id ∈ conflictLosers mesh ↔
    ∃ i a host, mesh.nodes[i]? = some a ∧ a.id = id ∧ hostFromAddress a.address = some host ∧
      ∃ j b, mesh.nodes[j]? = some b ∧ hostFromAddress b.address = some host ∧
        Precedes (b, j) (a, i) := by
  have decided := decided_conflictLosers mesh
  rw [conflictLosers, decided.marked]
  constructor
  · rintro ⟨⟨a, i⟩, member, same, host, hosted, loses⟩
    cases found : (mesh.nodes.zipIdx.foldl (Contest.enter mesh.nodes) ⟨∅, []⟩).winners.lookup host with
    | none => exact (decided.vacant host found (a, i) member hosted).elim
    | some winner =>
      obtain ⟨⟨b, j⟩, listed, rfl, hosted', least⟩ := decided.least host winner found
      refine ⟨i, a, host, List.mem_zipIdx_iff_getElem?.mp member, same, hosted, j, b,
        List.mem_zipIdx_iff_getElem?.mp listed, hosted', ?_⟩
      rcases least (a, i) member hosted with equal | before
      · rw [found, equal] at loses
        exact absurd rfl loses
      · exact before
  · rintro ⟨i, a, host, atI, same, hosted, j, b, atJ, hosted', before⟩
    have member : (a, i) ∈ mesh.nodes.zipIdx := List.mem_zipIdx_iff_getElem?.mpr atI
    refine ⟨(a, i), member, same, host, hosted, fun found => ?_⟩
    obtain ⟨leader, listed, holds, -, least⟩ := decided.least host _ found
    have same : leader = (a, i) :=
      eq_of_holderOf (List.mem_zipIdx_iff_getElem?.mp listed) atI holds
    subst same
    rcases least (b, j) (List.mem_zipIdx_iff_getElem?.mpr atJ) hosted' with equal | after
    · rw [equal] at before
      exact precedes_irrefl _ before
    · exact precedes_irrefl _ (precedes_trans before after)

/-- **Conflicts leave one holder.** Of two nodes at different positions with one host text,
one is a loser. -/
theorem loser_of_sameHost {mesh : Mesh} {i j : Nat} {a b : Node} {host : List Char}
    (atI : mesh.nodes[i]? = some a) (atJ : mesh.nodes[j]? = some b) (different : i ≠ j)
    (hostA : hostFromAddress a.address = some host)
    (hostB : hostFromAddress b.address = some host) :
    a.id ∈ conflictLosers mesh ∨ b.id ∈ conflictLosers mesh := by
  have order : Precedes (a, i) (b, j) ∨ Precedes (b, j) (a, i) := precedes_total different
  rcases order with first | first
  · exact .inr (mem_conflictLosers.mpr ⟨j, b, host, atJ, rfl, hostB, i, a, atI, hostA, first⟩)
  · exact .inl (mem_conflictLosers.mpr ⟨i, a, host, atI, rfl, hostA, j, b, atJ, hostB, first⟩)

/-! ## Hosts -/

/-- `hostPrefix`: the VPN subnet and the host prefix of an IPv4 address text. -/
def hostPrefix (addr : String) : Option (Prefix × Prefix) :=
  match parsePrefix addr.toList with
  | none => none
  | some p => if p.ip.is4 then some (p.masked, prefixFrom p.ip 32) else none

/-- What `hostPrefix` says about an address text: the subnet is masked and contains the host, whose
text is the dotted form. -/
theorem hostPrefix_eq_some {addr : String} {subnet host : Prefix}
    (found : hostPrefix addr = some (subnet, host)) :
    ∃ a, host = prefixFrom (.v4 a) 32 ∧ subnet.masked = subnet ∧
      subnet.contains (.v4 a) = true ∧ hostFromAddress addr = some (string4 a) := by
  rw [hostPrefix] at found
  split at found
  · cases found
  · next p parsed =>
    split at found
    · next family =>
      cases found
      obtain ⟨valid, a, digits, ip, text, _⟩ := parsePrefix_v4 parsed family
      refine ⟨a, by rw [ip], Prefix.masked_idem valid, Prefix.contains_masked valid ip, ?_⟩
      have started : addr.toList ≠ [] := by
        rw [text]
        exact List.append_ne_nil_of_right_ne_nil _ (List.cons_ne_nil _ _)
      have cut : splitFirst '/' addr.toList = some (string4 a, digits) :=
        splitFirst_eq_some.mpr ⟨text, not_mem_string4 a (by decide) (by decide)⟩
      rw [hostFromAddress, trimSpace_of_parsePrefix parsed]
      simp only [if_neg started, cut]
    · cases found

theorem hostFromAddress_of_sameHost {first second : String} {subnet subnet' host : Prefix}
    (found : hostPrefix first = some (subnet, host))
    (found' : hostPrefix second = some (subnet', host)) :
    ∃ text, hostFromAddress first = some text ∧ hostFromAddress second = some text := by
  obtain ⟨a, same, _, _, text⟩ := hostPrefix_eq_some found
  obtain ⟨b, same', _, _, text'⟩ := hostPrefix_eq_some found'
  have equal : Addr.v4 a = .v4 b := congrArg Prefix.ip (same.symm.trans same')
  cases equal
  exact ⟨string4 a, text, text'⟩

end Core
