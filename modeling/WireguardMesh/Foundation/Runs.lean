import Mathlib.Logic.Function.Basic
import Mathlib.Order.Basic

/-! # Runs of a step function

A system takes one action after the other. `Runs.Along` says that something holds of every
action where it is taken. `Runs.invariant` carries an invariant along a run, and `Runs.along_iff`
compares two properties of the steps of a run, when either of them keeps the invariant that makes
them agree. A loop over a list is a run as well (`Runs.foldl_rounds`).

The parties of a system are numbered, and a party that changes is an update of the function that
holds them (`Runs.mem_update`).
-/

namespace Runs

universe u v

variable {S : Type u} {A : Type v} (step : S → A → S)

/-- A property of every step of a run. -/
def Along (P : S → A → Prop) : S → List A → Prop
  | _, [] => True
  | s, a :: rest => P s a ∧ Along P (step s a) rest

/-- The state at the end of a run. -/
def after (s : S) (actions : List A) : S :=
  actions.foldl step s

instance decidableAlong (P : S → A → Prop) [∀ s a, Decidable (P s a)] :
    ∀ s actions, Decidable (Along step P s actions)
  | _, [] => isTrue trivial
  | s, a :: rest =>
    haveI := decidableAlong P (step s a) rest
    inferInstanceAs (Decidable (P s a ∧ Along step P (step s a) rest))

variable {step} {P Q guard : S → A → Prop}

theorem along_and {s : S} {actions : List A} : Along step (fun s a => P s a ∧ Q s a) s actions ↔
      Along step P s actions ∧ Along step Q s actions := by
  induction actions generalizing s with
  | nil => exact (iff_of_eq (true_and _)).symm
  | cons a rest ih => rw [Along, Along, Along, ih, and_and_and_comm]

theorem along_trivial (s : S) (actions : List A) : Along step (fun _ _ => True) s actions := by
  induction actions generalizing s with
  | nil => trivial
  | cons a rest ih => exact ⟨trivial, ih _⟩

theorem after_append {s : S} {first second : List A} :
    after step s (first ++ second) = after step (after step s first) second :=
  List.foldl_append

theorem after_singleton {s : S} {a : A} : after step s [a] = step s a :=
  rfl

/-- **Invariants of a total step function.** -/
theorem always (inv : S → Prop) (keep : ∀ s a, inv s → inv (step s a)) {s : S} (start : inv s)
    (actions : List A) : inv (after step s actions) := by
  induction actions generalizing s with
  | nil => exact start
  | cons a rest ih => exact ih (keep s a start)

/-- **Invariants.** -/
theorem invariant (inv : S → Prop) (keep : ∀ s a, inv s → guard s a → inv (step s a)) {s : S}
    {actions : List A} (start : inv s) (run : Along step guard s actions) :
    inv (after step s actions) := by
  induction actions generalizing s with
  | nil => exact start
  | cons a rest ih => exact ih (keep s a start run.1) run.2

theorem along_of_invariant (inv : S → Prop) (keep : ∀ s a, inv s → guard s a → inv (step s a))
    (holds : ∀ s a, inv s → guard s a → P s a) {s : S} {actions : List A} (start : inv s)
    (run : Along step guard s actions) : Along step P s actions := by
  induction actions generalizing s with
  | nil => trivial
  | cons a rest ih => exact ⟨holds s a start run.1, ih (keep s a start run.1) run.2⟩

/-- **Two properties of a run.** They agree on every step that the invariant reaches, and
either of them keeps it. -/
theorem along_iff (inv : S → Prop) (agree : ∀ s a, inv s → guard s a → (P s a ↔ Q s a))
    (keep : ∀ s a, inv s → guard s a → P s a → inv (step s a)) {s : S} {actions : List A}
    (start : inv s) (run : Along step guard s actions) :
    Along step P s actions ↔ Along step Q s actions := by
  induction actions generalizing s with
  | nil => exact .rfl
  | cons a rest ih =>
    have first := agree s a start run.1
    constructor
    · intro holds
      exact ⟨first.mp holds.1, (ih (keep s a start run.1 holds.1) run.2).mp holds.2⟩
    · intro holds
      have held := first.mpr holds.1
      exact ⟨held, (ih (keep s a start run.1 held) run.2).mpr holds.2⟩

/-! ## Loops over a list -/

/-- **Loops that add.** If a round adds its own items only, a loop adds those of its rounds. -/
theorem foldl_iff (inv : S → Prop) {Q : A → Prop} (one : ∀ s a, inv (step s a) ↔ inv s ∨ Q a)
    (list : List A) (s : S) : inv (list.foldl step s) ↔ inv s ∨ ∃ a ∈ list, Q a := by
  induction list generalizing s with
  | nil => simp
  | cons a list ih => simp only [List.foldl_cons, ih, one, or_assoc, List.mem_cons, exists_eq_or_imp]

section

variable {V : Type u} (read : S → Option V) (p : A → Prop) [DecidablePred p] (f : A → V)
  (one : ∀ s a, read (step s a) = if p a then some (f a) else read s) (list : List A) (s : S)

include one

/-- **Loops that overwrite.** The last round that writes decides. -/
theorem foldl_last :
    read (list.foldl step s) = ((list.reverse.find? fun a => p a).map f).or (read s) := by
  induction list generalizing s with
  | nil => simp
  | cons a list ih =>
    rw [List.foldl_cons, ih, one, List.reverse_cons, List.find?_append, List.find?_singleton]
    by_cases writes : p a <;> cases list.reverse.find? fun a => p a <;> simp [writes]

theorem foldl_last_cases : (∃ a ∈ list, p a ∧ read (list.foldl step s) = some (f a)) ∨
    (∀ a ∈ list, ¬ p a) ∧ read (list.foldl step s) = read s := by
  rw [foldl_last read p f one]
  cases last : list.reverse.find? fun a => p a with
  | none => exact .inr ⟨by simpa using last, rfl⟩
  | some a => exact .inl ⟨a, by simpa using List.mem_of_find?_eq_some last,
      by simpa using List.find?_some last, rfl⟩

end

/-- **Loops round by round**, with the items that are done. -/
theorem foldl_rounds (inv : List A → S → Prop) (list : List A)
    (one : ∀ done a later s, done ++ a :: later = list → inv done s →
      inv (done ++ [a]) (step s a)) {s : S} (start : inv [] s) : inv list (list.foldl step s) := by
  have run (later : List A) : ∀ (done : List A) (s : S), done ++ later = list → inv done s →
      inv list (later.foldl step s) := by
    induction later with
    | nil =>
      intro done s whole held
      rwa [← whole, List.append_nil]
    | cons a later ih =>
      intro done s whole held
      exact ih _ _ (by rw [List.append_assoc]; exact whole) (one done a later s whole held)
  exact run list [] s rfl start

/-! ## Numbered parties -/

section

variable {α : Type u} {parties : Nat → Option α} {i j : Nat} {now : Option α} {a : α}

theorem mem_update (found : a ∈ Function.update parties i now j) :
    j = i ∧ a ∈ now ∨ j ≠ i ∧ a ∈ parties j := by
  by_cases here : j = i
  · subst here
    rw [Function.update_self] at found
    exact .inl ⟨rfl, found⟩
  · rw [Function.update_of_ne here] at found
    exact .inr ⟨here, found⟩

theorem mem_update_of_ne (differs : j ≠ i) (found : a ∈ parties j) :
    a ∈ Function.update parties i now j := by
  rwa [Function.update_of_ne differs]

theorem mem_update_self (a : α) : a ∈ Function.update parties i (some a) i := by
  rw [Function.update_self]
  rfl

end

end Runs
