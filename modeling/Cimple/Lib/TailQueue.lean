import Mathlib.Data.List.Nodup

/-!
# Singly-linked tail queues by the identity of their elements

A linked queue is the list of its elements in order; `key` gives an element its identity (the
address of its node).  Walking to the successor and unlinking an element both go by identity.

* `next` — the element after a given one.
* `remove` — the queue without a given element; `none` if it is not linked in, since the walk to
  its predecessor runs off the end.
-/

set_option autoImplicit false

namespace TailQueue

variable {α κ : Type} [DecidableEq κ] (key : α → κ)

/-- The element after the one of identity `k`. -/
def next (k : κ) : List α → Option α
  | [] => none
  | a :: as => if key a = k then as.head? else next k as

/-- The queue with the element of identity `k` unlinked. -/
def remove (k : κ) : List α → Option (List α)
  | [] => none
  | a :: as => if key a = k then some as else (remove k as).map (a :: ·)

variable {key}

theorem next_append {before after : List α} {a : α} (h : key a ∉ before.map key) :
    next key (key a) (before ++ a :: after) = after.head? := by
  induction before with
  | nil => simp [next]
  | cons b before ih =>
    simp only [List.map_cons, List.mem_cons, not_or] at h
    simp [next, Ne.symm h.1, ih h.2]

theorem remove_append {before after : List α} {a : α} (h : key a ∉ before.map key) :
    remove key (key a) (before ++ a :: after) = some (before ++ after) := by
  induction before with
  | nil => simp [remove]
  | cons b before ih =>
    simp only [List.map_cons, List.mem_cons, not_or] at h
    simp [remove, Ne.symm h.1, ih h.2]

theorem remove_last {as : List α} {a : α} (h : key a ∉ as.map key) :
    remove key (key a) (as ++ [a]) = some as := by
  rw [remove_append h, List.append_nil]

theorem remove_some {k : κ} {as as' : List α} (h : remove key k as = some as') :
    ∃ before a after, as = before ++ a :: after ∧ key a = k ∧ as' = before ++ after := by
  induction as generalizing as' with
  | nil => cases h
  | cons b as ih =>
    simp only [remove] at h
    split at h
    · rename_i hb
      cases h
      exact ⟨[], b, as, rfl, hb, rfl⟩
    · obtain ⟨rest, hrest, rfl⟩ := Option.map_eq_some_iff.1 h
      obtain ⟨before, a, after, rfl, ha, rfl⟩ := ih hrest
      exact ⟨b :: before, a, after, rfl, ha, rfl⟩

theorem remove_nodup {k : κ} {as as' : List α} (h : remove key k as = some as')
    (hnodup : (as.map key).Nodup) : (as'.map key).Nodup := by
  obtain ⟨before, a, after, rfl, -, rfl⟩ := remove_some h
  refine hnodup.sublist (List.Sublist.map key ?_)
  exact (List.sublist_cons_self a after).append_left before

end TailQueue
