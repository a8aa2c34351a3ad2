import Mathlib.Data.List.Sort
import Mathlib.Data.List.Nodup

/-!
# Tables whose rows have a key

A table is the list of its rows, `key` the key of a row, and no two rows have the same key.

* `filter_key` — selecting by a key that there is gives one row.
* `flatMap_forall` — an inner join along references that are never dangling has one row for each
  row of the referring table, in its order.
* `orderDesc_eq_reverse` — in a table that grows at the end, under increasing keys, the decreasing
  order is the reverse one.
-/

set_option autoImplicit false

namespace Keyed

variable {ρ σ τ κ : Type} {key : ρ → κ}

/-- **Selecting by key**: the row that has it. -/
theorem filter_key [DecidableEq κ] {rows : List ρ} {row : ρ} (hkeys : (rows.map key).Nodup)
    (hrow : row ∈ rows) : rows.filter (fun r => key row = key r) = [row] := by
  induction rows with
  | nil => cases hrow
  | cons r rows ih =>
    rw [List.map_cons, List.nodup_cons] at hkeys
    rcases List.mem_cons.1 hrow with rfl | hrow
    · have hrest : rows.filter (fun r => key row = key r) = [] := by
        rw [List.filter_eq_nil_iff]
        intro r hr heq
        exact hkeys.1 (List.mem_map.2 ⟨r, hr, (of_decide_eq_true heq).symm⟩)
      rw [List.filter_cons_of_pos (by simp), hrest]
    · have hne : key row ≠ key r := by
        intro heq
        exact hkeys.1 (List.mem_map.2 ⟨row, hrow, heq⟩)
      rw [List.filter_cons_of_neg (by simpa using hne)]
      exact ih hkeys.2 hrow

theorem filter_of_mem [DecidableEq κ] {rows : List ρ} {k : κ} (hkeys : (rows.map key).Nodup)
    (hk : k ∈ rows.map key) :
    ∃ row ∈ rows, key row = k ∧ rows.filter (fun r => k = key r) = [row] := by
  obtain ⟨row, hrow, rfl⟩ := List.mem_map.1 hk
  exact ⟨row, hrow, rfl, filter_key hkeys hrow⟩

/-- **An inner join along a reference**: one row for each row that refers. -/
theorem flatMap_forall {rows : List σ} {f : σ → List τ} {R : σ → τ → Prop}
    (hone : ∀ row ∈ rows, ∃ out, f row = [out] ∧ R row out) :
    List.Forall₂ R rows (rows.flatMap f) := by
  induction rows with
  | nil => exact .nil
  | cons row rows ih =>
    obtain ⟨out, hout, hR⟩ := hone row List.mem_cons_self
    rw [List.flatMap_cons, hout]
    exact .cons hR (ih fun row' hrow' => hone row' (List.mem_cons_of_mem _ hrow'))

theorem forall_of_forall {R : ρ → σ → Prop} {S : ρ → τ → Prop} {T : σ → τ → Prop}
    (hT : ∀ a b c, R a b → S a c → T b c) {as : List ρ} {bs : List σ} {cs : List τ}
    (hR : List.Forall₂ R as bs) (hS : List.Forall₂ S as cs) : List.Forall₂ T bs cs := by
  induction hR generalizing cs with
  | nil =>
    cases hS
    exact .nil
  | cons hab _ ih =>
    cases hS with
    | cons hac hrest => exact .cons (hT _ _ _ hab hac) (ih hrest)

theorem orderedInsert_smallest [LinearOrder κ] {rows : List ρ} {row : ρ}
    (hrow : ∀ r ∈ rows, key row < key r) :
    rows.orderedInsert (fun a b => key b ≤ key a) row = rows ++ [row] := by
  induction rows with
  | nil => rfl
  | cons r rows ih =>
    have hlt := hrow r List.mem_cons_self
    rw [List.orderedInsert_cons, if_neg (not_le.2 hlt)]
    rw [ih fun r' hr' => hrow r' (List.mem_cons_of_mem _ hr'), List.cons_append]

/-- **Decreasing order is the reverse** of the order in which increasing keys were given out. -/
theorem orderDesc_eq_reverse [LinearOrder κ] {rows : List ρ}
    (hkeys : rows.Pairwise fun a b => key a < key b) :
    rows.insertionSort (fun a b => key b ≤ key a) = rows.reverse := by
  induction rows with
  | nil => rfl
  | cons row rows ih =>
    obtain ⟨hrow, hrows⟩ := List.pairwise_cons.1 hkeys
    rw [List.insertionSort_cons, ih hrows, List.reverse_cons]
    apply orderedInsert_smallest
    intro r hr
    exact hrow r (List.mem_reverse.1 hr)

end Keyed
