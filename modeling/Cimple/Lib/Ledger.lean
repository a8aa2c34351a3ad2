import Cimple.Lib.Keyed

/-!
# Ledgers of resources

A ledger lists, in order, the acquisitions, uses and releases of any number of resources.

* `history` — the events of one resource.
* `Held` — acquired, perhaps used, and not released yet.
* `Settled` — never acquired, or acquired, perhaps used, and then released once and for all.

`held_acquire`, `Held.use`, `Held.release` and the two `frame` rules follow a resource along a
ledger; `Settled.count` says what a ledger that leaks, or releases twice, cannot satisfy, and
`settled_map` takes the ledger of a part into that of the whole (`Event.map`).
-/

set_option autoImplicit false

namespace Ledger

/-- What happens to a resource. -/
inductive Event (ρ : Type) where
  | acquire (r : ρ)
  | use (r : ρ)
  | release (r : ρ)
  deriving DecidableEq

variable {ρ : Type}

/-- The resource of an event. -/
def Event.resource : Event ρ → ρ
  | .acquire r => r
  | .use r => r
  | .release r => r

variable [DecidableEq ρ]

/-- The events of a resource. -/
def history (r : ρ) (events : List (Event ρ)) : List (Event ρ) :=
  events.filter fun e => decide (e.resource = r)

/-- Acquired and not released. -/
def Held (r : ρ) (events : List (Event ρ)) : Prop :=
  ∃ n, history r events = .acquire r :: List.replicate n (.use r)

/-- **Settled**: never acquired, or released exactly once, after its last use. -/
def Settled (r : ρ) (events : List (Event ρ)) : Prop :=
  history r events = [] ∨ ∃ held, Held r held ∧ history r events = history r held ++ [.release r]

@[simp] theorem history_nil (r : ρ) : history r ([] : List (Event ρ)) = [] := rfl

@[simp] theorem history_append (r : ρ) (events events' : List (Event ρ)) :
    history r (events ++ events') = history r events ++ history r events' :=
  List.filter_append events events'

theorem history_cons (r : ρ) (e : Event ρ) (events : List (Event ρ)) :
    history r (e :: events) = if e.resource = r then e :: history r events
      else history r events := by
  unfold history
  by_cases h : e.resource = r
  · rw [List.filter_cons_of_pos (by simpa using h), if_pos h]
  · rw [List.filter_cons_of_neg (by simpa using h), if_neg h]

theorem history_cons_self {r : ρ} {e : Event ρ} (h : e.resource = r) (events : List (Event ρ)) :
    history r (e :: events) = e :: history r events := by
  rw [history_cons, if_pos h]

theorem history_cons_other {r : ρ} {e : Event ρ} (h : e.resource ≠ r) (events : List (Event ρ)) :
    history r (e :: events) = history r events := by
  rw [history_cons, if_neg h]

theorem count_eq_history {r : ρ} {e : Event ρ} (he : e.resource = r) (events : List (Event ρ)) :
    events.count e = (history r events).count e := by
  rw [history, List.count_filter (by simpa using he)]

theorem history_of_nodup {e : Event ρ} {events : List (Event ρ)}
    (hnodup : (events.map Event.resource).Nodup) (he : e ∈ events) :
    history e.resource events = [e] := by
  rw [← Keyed.filter_key hnodup he]
  exact List.filter_congr fun e' _ => decide_eq_decide.2 eq_comm

theorem history_of_not_mem {r : ρ} {events : List (Event ρ)}
    (h : r ∉ events.map Event.resource) : history r events = [] := by
  refine List.filter_eq_nil_iff.2 fun e he heq => h ?_
  exact List.mem_map.2 ⟨e, he, of_decide_eq_true heq⟩

/-! ## Following a resource -/

variable {r : ρ} {events more : List (Event ρ)}

/-- A resource that is acquired is held. -/
theorem held_acquire (h : history r events = []) (hmore : history r more = [.acquire r]) :
    Held r (events ++ more) :=
  ⟨0, by rw [history_append, h, hmore]; rfl⟩

/-- A resource that is held may be used. -/
theorem Held.use (h : Held r events) (hmore : ∀ e ∈ history r more, e = .use r) :
    Held r (events ++ more) := by
  obtain ⟨n, hn⟩ := h
  obtain ⟨k, hk⟩ : ∃ k, history r more = List.replicate k (.use r) :=
    ⟨_, List.eq_replicate_of_mem hmore⟩
  exact ⟨n + k, by rw [history_append, hn, hk, List.cons_append, List.replicate_append_replicate]⟩

/-- **A held resource that is released is settled.** -/
theorem Held.release (h : Held r events) (hmore : history r more = [.release r]) :
    Settled r (events ++ more) :=
  .inr ⟨events, h, by rw [history_append, hmore]⟩

theorem Held.frame (h : Held r events) (hmore : history r more = []) :
    Held r (events ++ more) :=
  h.use (by simp [hmore])

theorem Settled.frame (h : Settled r events) (hmore : history r more = []) :
    Settled r (events ++ more) := by
  rcases h with h | ⟨held, hheld, h⟩
  · exact .inl (by rw [history_append, h, hmore, List.append_nil])
  · exact .inr ⟨held, hheld, by rw [history_append, h, hmore, List.append_nil]⟩

theorem settled_of_history (h : history r events = [.acquire r, .release r]) :
    Settled r events := by
  have hheld : Held r ([] ++ [.acquire r]) :=
    held_acquire rfl (by simp [history_cons, Event.resource])
  refine .inr ⟨[.acquire r], hheld, ?_⟩
  rw [h]
  simp [history_cons, Event.resource]

theorem Held.not_settled (h : Held r events) : ¬ Settled r events := by
  obtain ⟨n, hn⟩ := h
  unfold Settled
  rw [hn]
  rintro (hnil | ⟨held, -, heq⟩)
  · cases hnil
  · have hmem : Event.release r ∈ .acquire r :: List.replicate n (.use r) := by
      rw [heq]
      simp
    simp at hmem

/-- **A resource that is settled has been released as often as acquired.** -/
theorem Settled.count (h : Settled r events) :
    events.count (.release r) = events.count (.acquire r) := by
  rw [count_eq_history (show (Event.release r).resource = r from rfl),
    count_eq_history (show (Event.acquire r).resource = r from rfl)]
  rcases h with h | ⟨held, ⟨n, hn⟩, h⟩
  · rw [h]
    rfl
  · rw [h, hn]
    simp [List.count_replicate]

/-- **What is settled cannot be released once more.** -/
theorem Settled.not_released (h : Settled r events) (hmore : history r more = [.release r]) :
    ¬ Settled r (events ++ more) := by
  intro hagain
  have hcount : ∀ e : Event ρ, e.resource = r → more.count e = ([.release r] : List _).count e := by
    intro e he
    rw [count_eq_history he, hmore]
  have hbefore := h.count
  have hafter := hagain.count
  rw [List.count_append, List.count_append, hcount _ rfl, hcount _ rfl, hbefore] at hafter
  simp at hafter

theorem settled_congr (h : history r events = history r more) :
    Settled r events ↔ Settled r more := by
  unfold Settled
  rw [h]

/-! ## The ledger of a part -/

variable {σ : Type}

/-- An event of a part, as one of the whole. -/
def Event.map (f : ρ → σ) : Event ρ → Event σ
  | .acquire r => .acquire (f r)
  | .use r => .use (f r)
  | .release r => .release (f r)

omit [DecidableEq ρ] in
theorem Event.map_resource (f : ρ → σ) (e : Event ρ) :
    (Event.map f e).resource = f e.resource := by
  cases e <;> rfl

variable [DecidableEq σ]

theorem history_map {f : ρ → σ} (hf : Function.Injective f) (r : ρ) (events : List (Event ρ)) :
    history (f r) (events.map (Event.map f)) = (history r events).map (Event.map f) := by
  unfold history
  rw [List.filter_map]
  congr 1
  apply List.filter_congr
  intro e _
  simp [Event.map_resource, hf.eq_iff]

omit [DecidableEq ρ] in
theorem history_map_other {f : ρ → σ} {r : σ} (hr : ∀ r', f r' ≠ r) (events : List (Event ρ)) :
    history r (events.map (Event.map f)) = [] := by
  apply history_of_not_mem
  intro hmem
  obtain ⟨e, he, rfl⟩ := List.mem_map.1 hmem
  obtain ⟨e, -, rfl⟩ := List.mem_map.1 he
  exact hr _ (Event.map_resource f e).symm

theorem settled_iff {r : ρ} {events : List (Event ρ)} :
    Settled r events ↔ history r events = [] ∨
      ∃ n, history r events = .acquire r :: List.replicate n (.use r) ++ [.release r] := by
  have hself : ∀ n, history r (.acquire r :: List.replicate n (.use r)) =
      .acquire r :: List.replicate n (.use r) := by
    intro n
    refine List.filter_eq_self.2 fun e he => ?_
    rcases List.mem_cons.1 he with rfl | he
    · exact decide_eq_true rfl
    · rw [List.eq_of_mem_replicate he]
      exact decide_eq_true rfl
  constructor
  · rintro (hnil | ⟨held, ⟨n, hheld⟩, h⟩)
    · exact .inl hnil
    · exact .inr ⟨n, by rw [h, hheld]⟩
  · rintro (hnil | ⟨n, h⟩)
    · exact .inl hnil
    · exact .inr ⟨_, ⟨n, hself n⟩, by rw [h, hself n]⟩

theorem not_settled_of_use {r : ρ} {events more : List (Event ρ)}
    (h : history r events = .use r :: more) : ¬ Settled r events := by
  rw [settled_iff, h]
  rintro (hnil | ⟨n, hn⟩)
  · cases hnil
  · cases hn

omit [DecidableEq ρ] in
theorem release_of_uses {r : ρ} {rest : List (Event ρ)} {m : Nat} (n : Nat)
    (h : List.replicate n (.use r) ++ rest = List.replicate m (.use r) ++ [.release r]) :
    ∃ j, rest = List.replicate j (.use r) ++ [.release r] := by
  induction n generalizing m with
  | zero => exact ⟨m, h⟩
  | succ n ih =>
    cases m with
    | zero => cases h
    | succ m => exact ih (List.cons.inj h).2

/-- **Uses may come between** acquiring and releasing: what is settled without them is settled with
them, if it is held where they come. -/
theorem Settled.use_between {r : ρ} {made more : List (Event ρ)} {uses : List ρ}
    (h : Settled r (made ++ more)) (hheld : r ∈ uses → Held r made) :
    Settled r (made ++ uses.map .use ++ more) := by
  by_cases hr : r ∈ uses
  · obtain ⟨k, hk⟩ : ∃ k, history r (uses.map .use) = List.replicate k (.use r) := by
      refine ⟨_, List.eq_replicate_of_mem fun e he => ?_⟩
      obtain ⟨hmem, hresource⟩ := List.mem_filter.1 he
      obtain ⟨r', -, rfl⟩ := List.mem_map.1 hmem
      exact congrArg Event.use (of_decide_eq_true hresource)
    obtain ⟨n, hn⟩ := hheld hr
    rw [settled_iff, history_append, hn] at h
    rcases h with hnil | ⟨m, hm⟩
    · cases hnil
    · obtain ⟨j, hj⟩ := release_of_uses n (List.cons.inj hm).2
      refine settled_iff.2 (.inr ⟨n + k + j, ?_⟩)
      rw [history_append, history_append, hn, hk, hj, ← List.replicate_append_replicate,
        ← List.replicate_append_replicate]
      simp only [List.cons_append, List.append_assoc]
  · refine (settled_congr ?_).2 h
    have hnone : history r (uses.map .use) = [] := by
      apply history_of_not_mem
      intro hmem
      obtain ⟨e, he, rfl⟩ := List.mem_map.1 hmem
      obtain ⟨r', hr', rfl⟩ := List.mem_map.1 he
      exact hr hr'
    rw [history_append, history_append, hnone, history_append, List.append_nil]

/-- **A part is as settled in the whole as it is by itself.** -/
theorem settled_map {f : ρ → σ} (hf : Function.Injective f) (r : ρ) (events : List (Event ρ)) :
    Settled (f r) (events.map (Event.map f)) ↔ Settled r events := by
  have hmap : Function.Injective (List.map (Event.map f)) := by
    apply List.map_injective_iff.2
    intro e e' heq
    cases e <;> cases e' <;> simp_all [Event.map, hf.eq_iff]
  rw [settled_iff, settled_iff, history_map hf, List.map_eq_nil_iff]
  apply or_congr_right
  apply exists_congr
  intro n
  have heq : (Event.acquire (f r) :: List.replicate n (.use (f r)) ++ [.release (f r)] :
      List (Event σ)) =
      (.acquire r :: List.replicate n (.use r) ++ [.release r] : List (Event ρ)).map
        (Event.map f) := by
    simp [Event.map]
  rw [heq, hmap.eq_iff]

end Ledger
