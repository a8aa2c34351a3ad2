import Cimple.EventLoop

/-!
# One round of the event loop (`event_loop_run`)

The loop walks its queue in step with an array taken before, while the handlers append to the
queue and fired one-shot entries are unlinked.

* `Registration`, `register` — a handler's calls of `event_loop_add` and `event_loop_add_once`.
* `Behaviour`, `calling` — any handlers; the calls the loop makes are recorded in order.
* `polled` — the entries at the start of a round, each with what `poll` has reported of it.
* `RoundDone` — which handlers have been called, and what has been registered.

Principal results: `handleNext_calling`, `handleEntries_calling` and `event_loop_round`.
-/

set_option autoImplicit false

namespace Cimple.Rounds

open Cimple.Events

variable {H σ : Type}

/-! ## Handlers -/

/-- A call of `event_loop_add`, or of `event_loop_add_once`; `allocOk` is whether the entry could
be allocated. -/
structure Registration (H : Type) where
  allocOk : Bool
  fd : Nat
  events : Int16
  handler : H
  once : Bool

/-- A registration; one that fails leaves the loop as it was. -/
def register (loop : EventLoop H) (r : Registration H) : EventLoop H :=
  if r.once then (eventLoopAddOnce r.allocOk loop r.fd r.events r.handler).getD loop
  else (eventLoopAdd r.allocOk loop r.fd r.events r.handler).getD loop

/-- What the handlers do: the code they return, what they register and the state they leave. -/
abbrev Behaviour (H σ : Type) :=
  H → Nat → Int16 → EventLoop H → σ → Int32 × List (Registration H) × σ

/-- A call of a handler: its arguments, the code it has returned and what it has registered. -/
structure Called (H : Type) where
  handler : H
  fd : Nat
  revents : Int16
  ret : Int32
  registered : List (Registration H)

/-- Calling the handlers; the calls are recorded. -/
def calling (b : Behaviour H σ) : Call H (σ × List (Called H)) :=
  fun handler fd revents loop s =>
    let (ret, registered, state) := b handler fd revents loop s.1
    some (ret, registered.foldl register loop, state,
      s.2 ++ [⟨handler, fd, revents, ret, registered⟩])

/-- The registration an entry comes from. -/
def asRegistration (entry : EventFd H) : Registration H :=
  ⟨true, entry.fd, entry.events, entry.handler, entry.once⟩

/-- **A registration appends an entry**, if the entry could be allocated. -/
theorem register_entries (loop : EventLoop H) (r : Registration H) :
    ∃ added, (register loop r).entries = loop.entries ++ added ∧
      added.map asRegistration = [r].filter Registration.allocOk := by
  obtain ⟨allocOk, fd, events, handler, once⟩ := r
  cases allocOk with
  | false => exact ⟨[], by cases once <;> simp [register, eventLoopAdd, eventLoopAddOnce], rfl⟩
  | true =>
    refine ⟨[⟨loop.fresh, fd, events, handler, once⟩], ?_, rfl⟩
    cases once <;> rfl

/-- **A handler appends entries**, in the order in which it registers them. -/
theorem registerAll_entries (rs : List (Registration H)) (loop : EventLoop H) :
    ∃ added, (rs.foldl register loop).entries = loop.entries ++ added ∧
      added.map asRegistration = rs.filter Registration.allocOk := by
  induction rs generalizing loop with
  | nil => exact ⟨[], by simp, rfl⟩
  | cons r rs ih =>
    obtain ⟨first, hfirst, hr⟩ := register_entries loop r
    obtain ⟨more, hmore, hrs⟩ := ih (register loop r)
    refine ⟨first ++ more, ?_, ?_⟩
    · rw [List.foldl_cons, hmore, hfirst, List.append_assoc]
    · rw [List.map_append, hr, hrs, ← List.filter_append]
      rfl

/-! ## A round -/

/-- The entries at the start of a round and what `poll` has reported of each. -/
def polled (revents : Nat → Int16) (loop : EventLoop H) : List (EventFd H × Int16) :=
  loop.entries.mapIdx fun i entry => (entry, revents i)

/-- The entry has fired. -/
def fired (p : EventFd H × Int16) : Bool := decide (p.2 ≠ 0)

/-- The entry is still registered afterwards. -/
def stays (p : EventFd H × Int16) : Bool := !(fired p && p.1.once)

/-- The element of the array for an entry, after `poll`. -/
def pollFdOf (p : EventFd H × Int16) : PollFd := ⟨p.1.fd, p.1.events, p.2⟩

theorem poll_makePollfds (revents : Nat → Int16) (loop : EventLoop H) :
    poll revents (makePollfds loop) = (polled revents loop).map pollFdOf := by
  apply List.ext_getElem?
  intro i
  simp only [poll, makePollfds, polled, loop.counted, List.take_length, List.getElem?_mapIdx,
    List.getElem?_map]
  cases loop.entries[i]? <;> rfl

/-- The handlers of the entries that have fired have been called, in order, and what they have
registered is there, in order. -/
structure RoundDone (ps : List (EventFd H × Int16)) (calls : List (Called H))
    (added : List (EventFd H)) : Prop where
  called : calls.map (fun c => (c.handler, c.fd, c.revents)) =
    (ps.filter fired).map fun p => (p.1.handler, p.1.fd, p.2)
  registered : added.map asRegistration =
    (calls.flatMap Called.registered).filter Registration.allocOk

theorem RoundDone.append {ps ps' : List (EventFd H × Int16)} {calls calls' : List (Called H)}
    {added added' : List (EventFd H)} (h : RoundDone ps calls added)
    (h' : RoundDone ps' calls' added') :
    RoundDone (ps ++ ps') (calls ++ calls') (added ++ added') := by
  constructor
  · rw [List.map_append, h.called, h'.called, List.filter_append, List.map_append]
  · rw [List.map_append, h.registered, h'.registered, List.flatMap_append, List.filter_append]

/-- **One iteration**: an entry that has fired is called, and unlinked if it is one-shot. -/
theorem handleNext_calling (b : Behaviour H σ) {before after : List (EventFd H)}
    {p : EventFd H × Int16} {loop : EventLoop H}
    (hentries : loop.entries = before ++ p.1 :: after) (ret : Int32) (state : σ)
    (log : List (Called H)) :
    ∃ ret' loop' state' calls added, handleNext (calling b) (pollFdOf p) p.1 ret loop (state, log) =
        some (TailQueue.next EventFd.addr p.1.addr loop.entries, ret', loop', state',
          log ++ calls) ∧
      RoundDone [p] calls added ∧
      loop'.entries = before ++ ([p].filter stays).map Prod.fst ++ after ++ added ∧
      (ret' < 0 ↔ ret < 0 ∨ ∃ c ∈ calls, c.ret < 0) := by
  obtain ⟨entry, revents⟩ := p
  by_cases hzero : revents = 0
  · have hstays : stays (entry, revents) = true := by simp [stays, fired, hzero]
    refine ⟨ret, loop, state, [], [], ?_, ⟨?_, rfl⟩, ?_, by simp⟩
    · simp [handleNext, pollFdOf, hzero]
    · simp [fired, hzero]
    · simpa [hstays] using hentries
  · rcases hb : b entry.handler entry.fd revents loop state with ⟨handlerRet, registered, state'⟩
    obtain ⟨added, hadded, hregistered⟩ := registerAll_entries registered loop
    have hcall : calling b entry.handler entry.fd revents loop (state, log) =
        some (handlerRet, registered.foldl register loop, state',
          log ++ [⟨entry.handler, entry.fd, revents, handlerRet, registered⟩]) := by
      simp only [calling, hb]
    rw [hentries, List.append_assoc, List.cons_append] at hadded
    obtain ⟨loop', hhandle, hentries'⟩ :=
      handleEntry_spec (p := pollFdOf (entry, revents)) hcall hadded
    refine ⟨if handlerRet < 0 then handlerRet else ret, loop', state',
      [⟨entry.handler, entry.fd, revents, handlerRet, registered⟩], added, ?_, ⟨?_, ?_⟩, ?_, ?_⟩
    · simp only [pollFdOf] at hhandle
      simp only [handleNext, pollFdOf, hhandle]
      rw [if_neg hzero]
      rfl
    · simp [fired, hzero]
    · simpa using hregistered
    · rw [hentries']
      cases honce : entry.once <;> simp [stays, fired, hzero, honce]
    · by_cases hneg : handlerRet < 0
      · simp [hneg]
      · simp [hneg]

/-- **The walk**: the entries that have fired are called in order, and what the handlers register
stands behind the entries there were. -/
theorem handleEntries_calling (b : Behaviour H σ) (ps : List (EventFd H × Int16)) :
    ∀ (before added : List (EventFd H)) (entry : Option (EventFd H)) (ret : Int32)
      (loop : EventLoop H) (state : σ) (log : List (Called H)),
      loop.entries = before ++ ps.map Prod.fst ++ added →
      (ps ≠ [] → entry = (ps.map Prod.fst).head?) →
      ∃ ret' loop' state' calls more,
        handleEntries (calling b) (ps.map pollFdOf) entry ret loop (state, log) =
          some (ret', loop', state', log ++ calls) ∧
        RoundDone ps calls more ∧
        loop'.entries = before ++ (ps.filter stays).map Prod.fst ++ added ++ more ∧
        (ret' < 0 ↔ ret < 0 ∨ ∃ c ∈ calls, c.ret < 0) := by
  induction ps with
  | nil =>
    intro before added entry ret loop state log hentries _
    exact ⟨ret, loop, state, [], [], by simp [handleEntries], ⟨rfl, rfl⟩, by simpa using hentries,
      by simp⟩
  | cons p ps ih =>
    intro before added entry ret loop state log hentries hentry
    obtain rfl : entry = some p.1 := hentry (List.cons_ne_nil p ps)
    have hsplit : loop.entries = before ++ p.1 :: (ps.map Prod.fst ++ added) := by
      rw [hentries, List.map_cons, List.append_assoc, List.cons_append]
    obtain ⟨ret₁, loop₁, state₁, calls, more, hnext, hdone, hentries₁, hret₁⟩ :=
      handleNext_calling b hsplit ret state log
    -- the successor was taken before the handler ran
    have hhead : ps ≠ [] →
        TailQueue.next EventFd.addr p.1.addr loop.entries = (ps.map Prod.fst).head? := by
      intro hne
      exact next_rest hsplit (by simpa using hne)
    obtain ⟨ret', loop', state', calls', more', hrest, hdone', hentries', hret'⟩ :=
      ih (before ++ ([p].filter stays).map Prod.fst) (added ++ more) _ ret₁ loop₁ state₁
        (log ++ calls) (by rw [hentries₁]; simp only [List.append_assoc]) hhead
    refine ⟨ret', loop', state', calls ++ calls', more ++ more', ?_, hdone.append hdone', ?_, ?_⟩
    · rw [List.map_cons, handleEntries_cons, hnext, Option.bind_some, hrest, List.append_assoc]
    · have hcons : (p :: ps).filter stays = [p].filter stays ++ ps.filter stays := by
        rw [← List.filter_append, List.singleton_append]
      rw [hentries', hcons, List.map_append]
      simp only [List.append_assoc]
    · rw [hret', hret₁]
      simp only [List.mem_append]
      constructor
      · rintro ((hold | ⟨c, hc, hneg⟩) | ⟨c, hc, hneg⟩)
        · exact .inl hold
        · exact .inr ⟨c, .inl hc, hneg⟩
        · exact .inr ⟨c, .inr hc, hneg⟩
      · rintro (hold | ⟨c, hc | hc, hneg⟩)
        · exact .inl (.inl hold)
        · exact .inl (.inr ⟨c, hc, hneg⟩)
        · exact .inr ⟨c, hc, hneg⟩

/-- **One round**: the handler of each entry that has fired is called exactly once, in the order
of registration, with the entry's own descriptor, events and argument, and no other; the queue is
then what was there, without the one-shot entries that have fired, and behind it what was
registered, in order; the result is negative exactly if some handler's was. -/
theorem event_loop_round (b : Behaviour H σ) (revents : Nat → Int16) (loop : EventLoop H)
    (state : σ) :
    ∃ ret loop' state' calls added,
      eventLoopRun (calling b) (some revents) loop (state, []) =
        some (ret, loop', state', calls) ∧
      calls.map (fun c => (c.handler, c.fd, c.revents)) =
        ((polled revents loop).filter fired).map (fun p => (p.1.handler, p.1.fd, p.2)) ∧
      loop'.entries = ((polled revents loop).filter stays).map Prod.fst ++ added ∧
      added.map asRegistration =
        (calls.flatMap Called.registered).filter Registration.allocOk ∧
      loop'.nfds = loop'.entries.length ∧ (ret < 0 ↔ ∃ c ∈ calls, c.ret < 0) := by
  have hfst : (polled revents loop).map Prod.fst = loop.entries := by
    apply List.ext_getElem?
    intro i
    simp only [polled, List.getElem?_map, List.getElem?_mapIdx]
    cases loop.entries[i]? <;> rfl
  obtain ⟨ret, loop', state', calls, added, hrun, hdone, hentries, hret⟩ :=
    handleEntries_calling b (polled revents loop) [] [] loop.entries.head? 0 loop state []
      (by simp [hfst]) (by simp [hfst])
  refine ⟨ret, loop', state', calls, added, ?_, hdone.called, by simpa using hentries,
    hdone.registered, loop'.counted, ?_⟩
  · simp only [eventLoopRun, poll_makePollfds]
    exact hrun
  · rw [hret]
    have hzero : ¬ (0 : Int32) < 0 := by decide
    simp only [hzero, false_or]

end Cimple.Rounds
