import Cimple.Lib.Ledger

/-!
# Constructors that unwind

A constructor acquires the parts of an object one after the other.  If a part fails, those before
it are released, the latest first, and so it goes in C through a ladder of labels.

* `Step` — a part: whether it fails, what acquiring it does, and what releasing it does.
* `build` — the steps of a constructor, and the labels it goes to.
* `Step.Sound`, `Sound` — steps that have nothing to do with one another, each of which can be
  undone.

Principal results: `build_settled_iff` (a constructor that fails is as clean as the part that
fails) and `build_destroy` (an object that is built and destroyed, in any order of its parts, leaves
nothing behind).
-/

set_option autoImplicit false

namespace Unwinding

open Ledger

/-- A part of an object, with the value it fails with, if it fails. -/
structure Step (ε ι ρ : Type) where
  part : ι
  fault : Option ε
  made : List (Event ρ)
  unmade : List (Event ρ)

variable {ε ι ρ : Type}

/-- The steps in `todo`, and the labels for those in `done`, the latest first. -/
def build : (done todo : List (Step ε ι ρ)) → Option ε × List (Event ρ)
  | _, [] => (none, [])
  | done, s :: todo =>
    match s.fault with
    | some e => (some e, s.made ++ done.flatMap Step.unmade)
    | none =>
      let rest := build (s :: done) todo
      (rest.1, s.made ++ rest.2)

theorem build_stop {s : Step ε ι ρ} {e : ε} (hs : s.fault = some e)
    (done todo : List (Step ε ι ρ)) :
    build done (s :: todo) = (some e, s.made ++ done.flatMap Step.unmade) := by
  simp only [build, hs]

theorem build_next {s : Step ε ι ρ} (hs : s.fault = none) (done todo : List (Step ε ι ρ)) :
    build done (s :: todo) =
      ((build (s :: done) todo).1, s.made ++ (build (s :: done) todo).2) := by
  simp only [build, hs]

/-- The first step that fails. -/
def FailsFirst (steps : List (Step ε ι ρ)) (s : Step ε ι ρ) (e : ε) : Prop :=
  ∃ before after, steps = before ++ s :: after ∧ (∀ b ∈ before, b.fault = none) ∧ s.fault = some e

theorem failsFirst_or (steps : List (Step ε ι ρ)) :
    (∀ s ∈ steps, s.fault = none) ∨ ∃ s e, FailsFirst steps s e := by
  induction steps with
  | nil => exact .inl fun s hs => absurd hs List.not_mem_nil
  | cons s steps ih =>
    cases hs : s.fault with
    | some e =>
      exact .inr ⟨s, e, [], steps, rfl, fun b hb => absurd hb List.not_mem_nil, hs⟩
    | none =>
      rcases ih with hall | ⟨t, e, before, after, rfl, hbefore, ht⟩
      · exact .inl (List.forall_mem_cons.2 ⟨hs, hall⟩)
      · exact .inr ⟨t, e, s :: before, after, rfl, List.forall_mem_cons.2 ⟨hs, hbefore⟩, ht⟩

theorem FailsFirst.mem {steps : List (Step ε ι ρ)} {s : Step ε ι ρ} {e : ε}
    (h : FailsFirst steps s e) : s ∈ steps := by
  obtain ⟨before, after, rfl, -⟩ := h
  simp

theorem FailsFirst.fault {steps : List (Step ε ι ρ)} {s : Step ε ι ρ} {e : ε}
    (h : FailsFirst steps s e) : s.fault = some e := by
  obtain ⟨before, after, -, -, hs⟩ := h
  exact hs

theorem FailsFirst.unique {steps : List (Step ε ι ρ)} {s s' : Step ε ι ρ} {e e' : ε}
    (h : FailsFirst steps s e) (h' : FailsFirst steps s' e') : s = s' := by
  have hfind : ∀ {t : Step ε ι ρ} {f : ε}, FailsFirst steps t f →
      steps.find? (fun t => t.fault.isSome) = some t := by
    rintro t f ⟨before, after, hsteps, hbefore, ht⟩
    rw [List.find?_eq_some_iff_append]
    refine ⟨by rw [ht]; rfl, before, after, hsteps, fun b hb => ?_⟩
    rw [hbefore b hb]
    rfl
  exact Option.some.inj ((hfind h).symm.trans (hfind h'))

theorem failsFirst_iff {before after : List (Step ε ι ρ)} {s : Step ε ι ρ} {e : ε}
    (hparts : ((before ++ s :: after).map Step.part).Nodup) :
    FailsFirst (before ++ s :: after) s e ↔
      (∀ b ∈ before, b.fault = none) ∧ s.fault = some e := by
  constructor
  · rintro ⟨before', after', hsteps, hbefore', hs⟩
    refine ⟨?_, hs⟩
    have hnodup : (before ++ s :: after).Nodup := List.Nodup.of_map _ hparts
    rw [List.nodup_middle, List.nodup_cons, List.mem_append, not_or] at hnodup
    obtain ⟨rfl, -⟩ := (List.append_cons_inj_of_notMem hnodup.1.1 hnodup.1.2).1 hsteps
    exact hbefore'
  · rintro ⟨hbefore, hs⟩
    exact ⟨before, after, rfl, hbefore, hs⟩

/-- **If nothing fails** everything is acquired. -/
theorem build_of_ok {todo : List (Step ε ι ρ)} (hall : ∀ s ∈ todo, s.fault = none) :
    ∀ done : List (Step ε ι ρ), build done todo = (none, todo.flatMap Step.made) := by
  induction todo with
  | nil => exact fun _ => rfl
  | cons s todo ih =>
    intro done
    rw [List.forall_mem_cons] at hall
    rw [build_next hall.1, ih hall.2, List.flatMap_cons]

/-- **If a step fails** what is before it is acquired, and then undone. -/
theorem build_of_fault {s : Step ε ι ρ} {e : ε} (hs : s.fault = some e)
    {before : List (Step ε ι ρ)} (hbefore : ∀ b ∈ before, b.fault = none)
    (after : List (Step ε ι ρ)) :
    ∀ done : List (Step ε ι ρ), build done (before ++ s :: after) =
      (some e, before.flatMap Step.made ++ s.made ++
        (before.reverse ++ done).flatMap Step.unmade) := by
  induction before with
  | nil =>
    intro done
    simp [build_stop hs]
  | cons b before ih =>
    intro done
    rw [List.forall_mem_cons] at hbefore
    rw [List.cons_append, build_next hbefore.1, ih hbefore.2]
    simp only [List.flatMap_cons, List.reverse_cons, List.append_assoc, List.singleton_append]

/-! ## Constructors with labels -/

section Climbs

variable {ν β : Type}

/-- What a constructor returns, what it acquires, uses and releases, and the object it makes. -/
structure Created (ν ρ β : Type) where
  ret : ν
  events : List (Event ρ)
  object : Option β

/-- **What a constructor with labels comes to**, from some point on: it does what the steps `todo`
do after `done`, and makes an object of which `makes` holds if none of them fails.  `code` is how a
fault, or there being none, is returned. -/
structure Climbs (code : Option ε → ν) (done todo : List (Step ε ι ρ)) (events : List (Event ρ))
    (makes : β → Prop) (created : Created ν ρ β) : Prop where
  ret : created.ret = code (build done todo).1
  events : created.events = events ++ (build done todo).2
  object : (build done todo).1 = none → ∃ object, created.object = some object ∧ makes object

variable {code : Option ε → ν} {done todo : List (Step ε ι ρ)} {events label : List (Event ρ)}
  {makes : β → Prop} {created : Created ν ρ β} {s : Step ε ι ρ}

theorem Climbs.stop {e : ε} (hs : s.fault = some e) (hlabel : done.flatMap Step.unmade = label) :
    Climbs code done (s :: todo) events makes
      ⟨code (some e), events ++ s.made ++ label, none⟩ where
  ret := by rw [build_stop hs]
  events := by rw [build_stop hs, hlabel, List.append_assoc]
  object := by
    rw [build_stop hs]
    intro h
    cases h

theorem Climbs.next (hs : s.fault = none)
    (h : Climbs code (s :: done) todo (events ++ s.made) makes created) :
    Climbs code done (s :: todo) events makes created where
  ret := by rw [build_next hs, h.ret]
  events := by rw [build_next hs, h.events, List.append_assoc]
  object := by
    rw [build_next hs]
    exact h.object

theorem Climbs.top {object : β} (h : makes object) :
    Climbs code done [] events makes ⟨code none, events, some object⟩ where
  ret := rfl
  events := (List.append_nil _).symm
  object _ := ⟨object, rfl, h⟩

theorem Climbs.mono {makes' : β → Prop} (h : Climbs code done todo events makes created)
    (hmakes : ∀ object, makes object → makes' object) :
    Climbs code done todo events makes' created where
  ret := h.ret
  events := h.events
  object hnone := by
    obtain ⟨object, hobject, hmade⟩ := h.object hnone
    exact ⟨object, hobject, hmakes object hmade⟩

theorem label_next {label' : List (Event ρ)} (hdone : done.flatMap Step.unmade = label)
    (h : label' = s.unmade ++ label) : (s :: done).flatMap Step.unmade = label' := by
  rw [List.flatMap_cons, hdone, h]

end Climbs

/-! ## Parts -/

section Parts

variable [DecidableEq ρ] {partOf : ρ → ι} {steps : List (Step ε ι ρ)}

/-- **A sound step** deals with resources of its own part only, and if it does not fail what it does
can be undone. -/
structure Step.Sound (partOf : ρ → ι) (s : Step ε ι ρ) : Prop where
  made : ∀ e ∈ s.made, partOf e.resource = s.part
  unmade : ∀ e ∈ s.unmade, partOf e.resource = s.part
  undone : s.fault = none → ∀ r, Settled r (s.made ++ s.unmade)

/-- **Sound steps**, each with a part of its own. -/
structure Sound (partOf : ρ → ι) (steps : List (Step ε ι ρ)) : Prop where
  sound : ∀ s ∈ steps, s.Sound partOf
  parts : (steps.map Step.part).Nodup

theorem Sound.made (h : Sound partOf steps) :
    ∀ s ∈ steps, ∀ e ∈ s.made, partOf e.resource = s.part := fun s hs => (h.sound s hs).made

theorem Sound.unmade (h : Sound partOf steps) :
    ∀ s ∈ steps, ∀ e ∈ s.unmade, partOf e.resource = s.part := fun s hs => (h.sound s hs).unmade

theorem Sound.undone (h : Sound partOf steps) :
    ∀ s ∈ steps, s.fault = none → ∀ r, Settled r (s.made ++ s.unmade) :=
  fun s hs => (h.sound s hs).undone

theorem Sound.of_append_left {before after : List (Step ε ι ρ)}
    (h : Sound partOf (before ++ after)) : Sound partOf before where
  sound s hs := h.sound s (List.mem_append_left _ hs)
  parts := by
    have := h.parts
    rw [List.map_append] at this
    exact (List.nodup_append.1 this).1

theorem history_other {r : ρ} {f : Step ε ι ρ → List (Event ρ)}
    (hlocal : ∀ s ∈ steps, ∀ e ∈ f s, partOf e.resource = s.part)
    (hr : partOf r ∉ steps.map Step.part) : history r (steps.flatMap f) = [] := by
  apply history_of_not_mem
  intro hmem
  obtain ⟨e, he, rfl⟩ := List.mem_map.1 hmem
  obtain ⟨s, hs, he⟩ := List.mem_flatMap.1 he
  exact hr (List.mem_map.2 ⟨s, hs, (hlocal s hs e he).symm⟩)

theorem history_part {r : ρ} {s : Step ε ι ρ} {f : Step ε ι ρ → List (Event ρ)}
    (hlocal : ∀ s ∈ steps, ∀ e ∈ f s, partOf e.resource = s.part)
    (hparts : (steps.map Step.part).Nodup) (hs : s ∈ steps) (hr : partOf r = s.part) :
    history r (steps.flatMap f) = history r (f s) := by
  induction steps with
  | nil => cases hs
  | cons t steps ih =>
    rw [List.map_cons, List.nodup_cons] at hparts
    rw [List.forall_mem_cons] at hlocal
    rw [List.flatMap_cons, history_append]
    rcases List.mem_cons.1 hs with rfl | hs
    · rw [history_other hlocal.2 (hr ▸ hparts.1), List.append_nil]
    · have hother : history r (f t) = [] := by
        apply history_of_not_mem
        intro hmem
        obtain ⟨e, he, rfl⟩ := List.mem_map.1 hmem
        exact hparts.1 (List.mem_map.2 ⟨s, hs, by rw [← hr, hlocal.1 e he]⟩)
      rw [hother, List.nil_append, ih hlocal.2 hparts.2 hs]

theorem Sound.held (h : Sound partOf steps) {s : Step ε ι ρ} (hs : s ∈ steps) {r : ρ}
    (hr : partOf r = s.part) (hheld : Held r s.made) : Held r (steps.flatMap Step.made) := by
  obtain ⟨n, hn⟩ := hheld
  exact ⟨n, by rw [history_part h.made h.parts hs hr, hn]⟩

/-- **A constructor that fails is as clean as the part that fails**: everything is settled exactly
if what is left by that part is. -/
theorem build_settled_iff (h : Sound partOf steps) {s : Step ε ι ρ} {e : ε}
    (hfails : FailsFirst steps s e) :
    (build [] steps).1 = some e ∧
      ((∀ r, Settled r (build [] steps).2) ↔ ∀ r, Settled r s.made) := by
  obtain ⟨before, after, rfl, hbefore, hfault⟩ := hfails
  rw [build_of_fault hfault hbefore after [], List.append_nil]
  refine ⟨rfl, ?_⟩
  have hsound := h.of_append_left
  have hparts := h.parts
  rw [List.map_append, List.map_cons, List.nodup_append] at hparts
  have hmade := h.made s (by simp)
  have hreverse : (before.reverse.map Step.part).Nodup := by
    rw [List.map_reverse]
    exact List.nodup_reverse.2 hsound.parts
  have hunmade : ∀ t ∈ before.reverse, ∀ e ∈ t.unmade, partOf e.resource = t.part :=
    fun t ht => hsound.unmade t (List.mem_reverse.1 ht)
  have hnot : s.part ∉ before.map Step.part := fun hmem =>
    hparts.2.2 _ hmem _ List.mem_cons_self rfl
  have hnot' : s.part ∉ before.reverse.map Step.part := by
    rwa [List.map_reverse, List.mem_reverse]
  -- what happens to a resource is what its part does
  have hown : ∀ r, partOf r = s.part → history r (before.flatMap Step.made ++ s.made ++
      before.reverse.flatMap Step.unmade) = history r s.made := by
    intro r hr
    rw [history_append, history_append, history_other hsound.made (hr ▸ hnot),
      history_other hunmade (hr ▸ hnot'), List.nil_append, List.append_nil]
  have hnone : ∀ r, partOf r ≠ s.part → history r s.made = [] := by
    intro r hr
    apply history_of_not_mem
    intro hmem
    obtain ⟨e, he, rfl⟩ := List.mem_map.1 hmem
    exact hr (hmade e he)
  constructor
  · intro hall r
    by_cases hr : partOf r = s.part
    · exact (settled_congr (hown r hr)).1 (hall r)
    · exact .inl (hnone r hr)
  · intro hclean r
    by_cases hr : partOf r = s.part
    · exact (settled_congr (hown r hr)).2 (hclean r)
    · by_cases hmem : partOf r ∈ before.map Step.part
      · obtain ⟨t, ht, hpart⟩ := List.mem_map.1 hmem
        refine (settled_congr ?_).1 (hsound.undone t ht (hbefore t ht) r)
        rw [history_append, history_append, history_append, hnone r hr, List.append_nil,
          history_part hsound.made hsound.parts ht hpart.symm,
          history_part hunmade hreverse (List.mem_reverse.2 ht) hpart.symm]
      · refine .inl ?_
        have hmem' : partOf r ∉ before.reverse.map Step.part := by
          rwa [List.map_reverse, List.mem_reverse]
        rw [history_append, history_append, hnone r hr, history_other hsound.made hmem,
          history_other hunmade hmem']
        rfl

/-- **What is built and destroyed leaves nothing behind**, in whatever order its parts are
released. -/
theorem build_destroy (h : Sound partOf steps) (hall : ∀ s ∈ steps, s.fault = none)
    {order : List (Step ε ι ρ)} (horder : order.Perm steps) (r : ρ) :
    Settled r (steps.flatMap Step.made ++ order.flatMap Step.unmade) := by
  have hparts : (order.map Step.part).Nodup := (horder.map Step.part).nodup_iff.2 h.parts
  have hunmade : ∀ s ∈ order, ∀ e ∈ s.unmade, partOf e.resource = s.part :=
    fun s hs => h.unmade s (horder.mem_iff.1 hs)
  by_cases hmem : partOf r ∈ steps.map Step.part
  · obtain ⟨s, hs, hpart⟩ := List.mem_map.1 hmem
    refine (settled_congr ?_).1 (h.undone s hs (hall s hs) r)
    rw [history_append, history_append, history_part h.made h.parts hs hpart.symm,
      history_part hunmade hparts (horder.mem_iff.2 hs) hpart.symm]
  · refine .inl ?_
    have hmem' : partOf r ∉ order.map Step.part := by
      rwa [(horder.map Step.part).mem_iff]
    rw [history_append, history_other h.made hmem, history_other hunmade hmem']
    rfl

end Parts

end Unwinding
