import Mathlib.Data.Nat.Init

/-!
# Executions without an end

A step from a state with an action may be undefined.  An execution makes one step after the other,
and does not stop.

* `Execution` — its states and its actions, by their moments.
* `Execution.Often` — something happens again and again.
* `Execution.always` — an invariant holds at every moment.
* `Execution.waits` — what only one kind of step can change is still there when such a step is
  made; `Execution.leads` — what such steps turn into something else becomes that.
* `Execution.climbs` — a number that always becomes larger, as long as it is below a bound,
  reaches the bound.
-/

set_option autoImplicit false

namespace Executions

variable {σ α : Type}

/-- The states and the actions of an execution. -/
structure Execution (step : σ → α → Option σ) where
  state : Nat → σ
  action : Nat → α
  next : ∀ n, step (state n) (action n) = some (state (n + 1))

namespace Execution

variable {step : σ → α → Option σ} (e : Execution step)

/-- Something happens again and again. -/
def Often (A : σ → α → Prop) : Prop := ∀ n, ∃ m, n ≤ m ∧ A (e.state m) (e.action m)

theorem always {I : σ → Prop} {n : Nat}
    (hstep : ∀ m, n ≤ m → I (e.state m) → I (e.state (m + 1))) (h : I (e.state n)) {m : Nat}
    (hm : n ≤ m) : I (e.state m) := by
  induction m, hm using Nat.le_induction with
  | base => exact h
  | succ m hm ih => exact hstep m hm ih

/-- **What only one kind of step can change** is there when such a step is made. -/
theorem waits {P : σ → Prop} {A : σ → α → Prop} {n : Nat} (hoften : e.Often A)
    (hkeeps : ∀ m, n ≤ m → P (e.state m) → ¬ A (e.state m) (e.action m) → P (e.state (m + 1)))
    (h : P (e.state n)) : ∃ m, n ≤ m ∧ P (e.state m) ∧ A (e.state m) (e.action m) := by
  obtain ⟨last, hlast, hA⟩ := hoften n
  obtain ⟨k, rfl⟩ := Nat.exists_eq_add_of_le hlast
  -- the induction is on how far away the step is
  induction k generalizing n with
  | zero => exact ⟨n, Nat.le_refl n, h, hA⟩
  | succ k ih =>
    by_cases hnow : A (e.state n) (e.action n)
    · exact ⟨n, Nat.le_refl n, h, hnow⟩
    · obtain ⟨m, hm, hP, hAm⟩ := ih (n := n + 1) (fun m hm => hkeeps m (by omega))
        (hkeeps n (Nat.le_refl n) h hnow) (by omega) (by rwa [Nat.add_right_comm])
      exact ⟨m, by omega, hP, hAm⟩

/-- **What one kind of step turns into something else** becomes that. -/
theorem leads {P Q : σ → Prop} {A : σ → α → Prop} {n : Nat} (hoften : e.Often A)
    (hkeeps : ∀ m, n ≤ m → P (e.state m) → ¬ A (e.state m) (e.action m) → P (e.state (m + 1)))
    (hturns : ∀ m, n ≤ m → P (e.state m) → A (e.state m) (e.action m) → Q (e.state (m + 1)))
    (h : P (e.state n)) : ∃ m, n ≤ m ∧ Q (e.state m) := by
  obtain ⟨m, hm, hP, hA⟩ := e.waits hoften hkeeps h
  exact ⟨m + 1, by omega, hturns m hm hP hA⟩

/-- **A number that becomes larger as long as it is below a bound** reaches the bound. -/
theorem climbs (f : σ → Nat) (bound : Nat) {n : Nat}
    (hclimbs : ∀ m, n ≤ m → f (e.state m) < bound →
      ∃ m', m ≤ m' ∧ f (e.state m) < f (e.state m')) :
    ∃ m, n ≤ m ∧ bound ≤ f (e.state m) := by
  obtain ⟨k, hk⟩ : ∃ k, bound ≤ f (e.state n) + k := ⟨bound, by omega⟩
  -- the induction is on what is missing
  induction k generalizing n with
  | zero => exact ⟨n, Nat.le_refl n, hk⟩
  | succ k ih =>
    by_cases hbound : f (e.state n) < bound
    · obtain ⟨m, hm, hlt⟩ := hclimbs n (Nat.le_refl n) hbound
      obtain ⟨m', hm', hreached⟩ := ih (n := m) (fun i hi => hclimbs i (by omega)) (by omega)
      exact ⟨m', by omega, hreached⟩
    · exact ⟨n, Nat.le_refl n, by omega⟩

end Execution

end Executions
