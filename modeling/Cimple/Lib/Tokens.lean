import Mathlib.Data.List.Nodup
import Mathlib.Data.List.Perm.Subperm

/-!
# Tokens and the places that hold them

A token is passed on from place to place.  The places of one kind are the elements of a list,
and each holds a token or none; `held` is the tokens they hold.

* `count_held_set`, `held_set_perm`, `count_held_eraseIdx` — what becomes of the tokens when a
  place changes and when it is taken away.
* `countP_le_one` — tokens that are counted among others whose keys are distinct have distinct
  keys themselves.
-/

set_option autoImplicit false

namespace Tokens

variable {α β κ : Type} (holds : α → Option β)

/-- The tokens in a list of places. -/
def held (places : List α) : List β := places.filterMap holds

@[simp] theorem held_nil : held holds [] = [] := rfl

@[simp] theorem held_append (places places' : List α) :
    held holds (places ++ places') = held holds places ++ held holds places' :=
  List.filterMap_append

@[simp] theorem held_singleton (a : α) : held holds [a] = (holds a).toList := by
  cases h : holds a <;> simp [held, h]

theorem split_getElem? {places : List α} {i : Nat} {a : α} (h : places[i]? = some a) :
    ∃ before after, places = before ++ [a] ++ after ∧ before.length = i := by
  obtain ⟨hi, rfl⟩ := List.getElem?_eq_some_iff.1 h
  exact ⟨places.take i, places.drop (i + 1), by simp, by simp; omega⟩

theorem forall_mem_set {P : α → Prop} {places : List α} (h : ∀ a ∈ places, P a) (i : Nat) {b : α}
    (hb : P b) : ∀ a ∈ places.set i b, P a := fun a ha =>
  (List.mem_or_eq_of_mem_set ha).elim (h a) fun heq => heq ▸ hb

variable [DecidableEq β]

theorem count_held_set {places : List α} {i : Nat} {a : α} (h : places[i]? = some a) (b : α)
    (t : β) :
    (held holds (places.set i b)).count t + (holds a).toList.count t =
      (held holds places).count t + (holds b).toList.count t := by
  obtain ⟨before, after, rfl, rfl⟩ := split_getElem? h
  have hset : (before ++ [a] ++ after).set before.length b = before ++ [b] ++ after := by simp
  rw [hset]
  simp only [held_append, held_singleton, List.count_append]
  omega

theorem count_held_eraseIdx {places : List α} {i : Nat} {a : α} (h : places[i]? = some a)
    (t : β) :
    (held holds (places.eraseIdx i)).count t + (holds a).toList.count t =
      (held holds places).count t := by
  obtain ⟨before, after, rfl, rfl⟩ := split_getElem? h
  have herase : (before ++ [a] ++ after).eraseIdx before.length = before ++ after := by
    simp [List.eraseIdx_append_of_length_le]
  rw [herase]
  simp only [held_append, held_singleton, List.count_append]
  omega

/-- The tokens after a place has changed, up to their order. -/
theorem held_set_perm {places : List α} {i : Nat} {a : α} (h : places[i]? = some a) (b : α) :
    (held holds (places.set i b) ++ (holds a).toList).Perm
      (held holds places ++ (holds b).toList) := by
  refine List.perm_iff_count.2 fun t => ?_
  rw [List.count_append, List.count_append]
  exact count_held_set holds h b t

/-- **Distinct keys are passed on**: of a key there is one token at most. -/
theorem countP_le_one [DecidableEq κ] {tokens all : List β}
    (hle : ∀ t, tokens.count t ≤ all.count t) {key : β → κ} (hkeys : (all.map key).Nodup) (k : κ) :
    tokens.countP (fun t => key t = k) ≤ 1 := by
  have hsub : tokens.Subperm all := List.subperm_ext_iff.2 fun t _ => hle t
  calc tokens.countP (fun t => key t = k)
      ≤ all.countP (fun t => key t = k) := hsub.countP_le _
    _ = (all.map key).count k := by
        rw [List.count, List.countP_map]
        exact List.countP_congr fun t _ => by simp
    _ ≤ 1 := List.nodup_iff_count_le_one.1 hkeys k

end Tokens
