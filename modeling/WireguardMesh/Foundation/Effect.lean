/-! # Fallible stateful programs

`EStateM` models a procedure that changes a state and may return an error. The
lemmas here say when such a procedure returns normally, one for each way of building
it, so that a whole procedure is read off by rewriting (`Effect.bind_eq_ok`).
-/

namespace Effect

variable {ε σ α β : Type}

variable {x : EStateM ε σ α} {s s' : σ} {b : β} {a : α}

/-- A procedure that only computes: its error, if any, leaves the state alone. -/
def lift : Except ε α → EStateM ε σ α
  | .ok a => fun s => .ok a s
  | .error e => fun s => .error e s

/-- The errors of a procedure passed through a function. -/
def mapError (f : ε → ε) (x : EStateM ε σ α) : EStateM ε σ α := fun s =>
  match x s with
  | .ok a s' => .ok a s'
  | .error e s' => .error (f e) s'

/-- **Sequencing.** A sequence returns when its first part does and the rest returns
from there. -/
theorem bind_eq_ok {f : α → EStateM ε σ β} :
    (x >>= f) s = .ok b s' ↔ ∃ a between, x s = .ok a between ∧ f a between = .ok b s' := by
  change EStateM.bind x f s = _ ↔ _
  rw [EStateM.bind]
  cases x s with
  | ok a between =>
    constructor
    · intro rest
      exact ⟨a, between, rfl, rest⟩
    · rintro ⟨_, _, same, rest⟩
      cases same
      exact rest
  | error e between =>
    constructor
    · nofun
    · rintro ⟨_, _, impossible, _⟩
      cases impossible

theorem bind_of_ok (f : α → EStateM ε σ β) (ran : x s = .ok a s') : (x >>= f) s = f a s' := by
  change EStateM.bind x f s = _
  rw [EStateM.bind, ran]

theorem bind_of_error {e : ε} (f : α → EStateM ε σ β) (stopped : x s = .error e s') :
    (x >>= f) s = .error e s' := by
  change EStateM.bind x f s = _
  rw [EStateM.bind, stopped]

theorem except_bind_eq_ok {x : Except ε α} {f : α → Except ε β} :
    (x >>= f) = .ok b ↔ ∃ a, x = .ok a ∧ f a = .ok b := by
  cases x with
  | ok a =>
    constructor
    · intro rest
      exact ⟨a, rfl, rest⟩
    · rintro ⟨_, same, rest⟩
      cases same
      exact rest
  | error e =>
    constructor
    · nofun
    · rintro ⟨_, impossible, _⟩
      cases impossible

theorem ok_bind (a : α) (f : α → Except ε β) : (.ok a : Except ε α) >>= f = f a :=
  rfl

theorem except_map_eq_ok {x : Except ε α} {f : α → β} :
    x.map f = .ok b ↔ ∃ a, x = .ok a ∧ f a = b := by
  cases x with
  | ok a => simp only [Except.map, Except.ok.injEq, exists_eq_left']
  | error e => simp only [Except.map, reduceCtorEq, false_and, exists_false]

theorem except_mapError_ok {δ : Type} (f : ε → δ) (a : α) : (Except.ok a).mapError f = .ok a :=
  rfl

theorem except_mapError_eq_ok {δ : Type} {f : ε → δ} {x : Except ε α} :
    x.mapError f = .ok a ↔ x = .ok a := by
  cases x with
  | ok b => rw [except_mapError_ok, Except.ok.injEq, Except.ok.injEq]
  | error e =>
    change Except.error _ = _ ↔ _
    simp only [reduceCtorEq]

/-- A condition under which a step is left out. -/
theorem except_ite_bind {c : Prop} [Decidable c] {x : Except ε α} {f : α → Except ε β}
    (run : (if c then f a else x >>= f) = .ok b) :
    ∃ a', (if c then .ok a else x) = Except.ok a' ∧ f a' = .ok b := by
  split at run
  · next skipped => exact ⟨a, if_pos skipped, run⟩
  · next taken =>
    rw [if_neg taken]
    exact except_bind_eq_ok.mp run

theorem except_pure_eq_ok {b : α} : (pure a : Except ε α) = .ok b ↔ a = b := by
  change Except.ok a = _ ↔ _
  rw [Except.ok.injEq]

theorem mem_of_except_mapM {f : α → Except ε β} (one : f a = .ok b) :
    ∀ {list : List α} {results : List β}, list.mapM f = .ok results → a ∈ list → b ∈ results
  | first :: list, results, made, member => by
      rw [List.mapM_cons] at made
      obtain ⟨result, head, made⟩ := except_bind_eq_ok.mp made
      obtain ⟨rest, tail, made⟩ := except_bind_eq_ok.mp made
      obtain rfl := except_pure_eq_ok.mp made
      rcases List.mem_cons.mp member with rfl | later
      · exact List.mem_cons.mpr (.inl (Except.ok.inj (one.symm.trans head)))
      · exact .tail _ (mem_of_except_mapM one tail later)

theorem pure_eq_ok {b : α} : (pure a : EStateM ε σ α) s = .ok b s' ↔ a = b ∧ s = s' := by
  change EStateM.Result.ok a s = _ ↔ _
  rw [EStateM.Result.ok.injEq]

theorem lift_eq_ok {x : Except ε α} :
    (lift x : EStateM ε σ α) s = .ok a s' ↔ x = .ok a ∧ s = s' := by
  cases x with
  | ok b => simp [lift]
  | error e => simp [lift]

theorem bind_get {f : σ → EStateM ε σ β} : ((get : EStateM ε σ σ) >>= f) s = f s s :=
  rfl

theorem bind_lift_eq_ok {x : Except ε α} {f : α → EStateM ε σ β} :
    (lift x >>= f) s = .ok b s' ↔ ∃ a, x = .ok a ∧ f a s = .ok b s' := by
  simp [bind_eq_ok, lift_eq_ok, and_assoc]

theorem mapError_eq_ok {f : ε → ε} : mapError f x s = .ok a s' ↔ x s = .ok a s' := by
  rw [mapError]
  cases x s with
  | ok b between => exact .rfl
  | error e between => simp

end Effect
