import Mathlib.Data.List.Basic

/-! # Reconciling who owns what

Things are owned by at most one owner each. A reconciliation visits owners one after the
other. When it visits an owner it adds what the owner wants and did not have in a snapshot
taken at the start, whoever has it now, and removes what the owner had in the snapshot and
does not want. After all owners that want something have been visited, and all others have lost
everything, everything is where it is wanted (`Reconcile.Progress.finish`).
-/

namespace Reconcile

variable {Q K : Type}

/-- Nothing has two owners. -/
def Exclusive (owns : Q → K → Prop) : Prop :=
  ∀ q k k', owns q k → owns q k' → k = k'

/-- The effect of a visit that adds and removes given things. -/
def Visit (owner : K) (added removed : Q → Prop) (owns owns' : Q → K → Prop) : Prop :=
  (∀ q, owns' q owner ↔ added q ∨ (owns q owner ∧ ¬ removed q)) ∧
    ∀ q k, k ≠ owner → (owns' q k ↔ owns q k ∧ ¬ added q)

/-- What the diff with the snapshot adds. -/
def ToAdd (had wants : Q → K → Prop) (owner : K) (q : Q) : Prop :=
  wants q owner ∧ ¬ had q owner

/-- What the diff with the snapshot removes. -/
def ToRemove (had wants : Q → K → Prop) (owner : K) (q : Q) : Prop :=
  had q owner ∧ ¬ wants q owner

/-- The state after some owners: they own what they want, and the others what they had and nobody
visited wants. -/
def Progress (had wants : Q → K → Prop) (visited : List K) (owns : Q → K → Prop) : Prop :=
  ∀ q k, owns q k ↔ (k ∈ visited ∧ wants q k) ∨
    (k ∉ visited ∧ had q k ∧ ∀ v ∈ visited, ¬ wants q v)

variable {had wants owns owns' : Q → K → Prop} {visited : List K} {owner : K}

theorem Progress.start (had wants : Q → K → Prop) : Progress had wants [] had := by
  intro q k
  simp

/-- **One visit.** The diff with the snapshot is right although the snapshot is old. -/
theorem Progress.visit (exclusive : Exclusive had) (disjoint : Exclusive wants)
    (fresh : owner ∉ visited) (progress : Progress had wants visited owns)
    (step : Visit owner (ToAdd had wants owner) (ToRemove had wants owner) owns owns') :
    Progress had wants (visited ++ [owner]) owns' := by
  intro q k
  have noneVisited : wants q owner → ∀ v ∈ visited, ¬ wants q v := by
    intro wanted v member other
    exact fresh (disjoint q v owner other wanted ▸ member)
  by_cases same : k = owner
  · subst same
    rw [step.1, progress, ToAdd, ToRemove]
    simp only [List.mem_append, List.mem_singleton, or_true, true_and, not_true_eq_false,
      false_and, or_false, fresh, not_false_eq_true, false_or]
    constructor
    · rintro (⟨wanted, _⟩ | ⟨⟨held, _⟩, kept⟩)
      · exact wanted
      · exact Classical.not_not.mp fun unwanted => kept ⟨held, unwanted⟩
    · intro wanted
      by_cases held : had q k
      · exact .inr ⟨⟨held, noneVisited wanted⟩, fun removed => removed.2 wanted⟩
      · exact .inl ⟨wanted, held⟩
  · rw [step.2 q k same, progress, ToAdd]
    simp only [List.mem_append, List.mem_singleton, same, or_false]
    constructor
    · rintro ⟨⟨member, wanted⟩ | ⟨outside, held, unwanted⟩, notAdded⟩
      · exact .inl ⟨member, wanted⟩
      · refine .inr ⟨outside, held, ?_⟩
        rintro v (member | rfl)
        · exact unwanted v member
        · exact fun wanted => notAdded ⟨wanted, fun other => same (exclusive q k v held other)⟩
    · rintro (⟨member, wanted⟩ | ⟨outside, held, unwanted⟩)
      · refine ⟨.inl ⟨member, wanted⟩, ?_⟩
        rintro ⟨other, _⟩
        exact same (disjoint q k owner wanted other)
      · refine ⟨.inr ⟨outside, held, fun v member => unwanted v (.inl member)⟩, ?_⟩
        rintro ⟨wanted, _⟩
        exact unwanted owner (.inr rfl) wanted

/-- **The end.** When the visited owners are all that want something and the others have lost
everything, ownership is as wanted. -/
theorem Progress.finish (progress : Progress had wants visited owns)
    (complete : ∀ q k, wants q k → k ∈ visited)
    (dropped : ∀ q k, owns' q k ↔ owns q k ∧ k ∈ visited) (q : Q) (k : K) :
    owns' q k ↔ wants q k := by
  rw [dropped, progress]
  constructor
  · rintro ⟨⟨_, wanted⟩ | ⟨outside, _⟩, member⟩
    · exact wanted
    · exact absurd member outside
  · intro wanted
    exact ⟨.inl ⟨complete q k wanted, wanted⟩, complete q k wanted⟩

end Reconcile
