import Cimple.Lib.TailQueue

/-!
# The event loop (`event_loop.c`)

The loop keeps a tail queue of registered descriptors and their number.  A handler and its
argument are one value of a type `H`; `call` is what calling it does, to the loop itself and to
the rest of the program's state.  `none` stands for undefined behaviour: a handler that
misuses memory, or a walk that leaves the queue.

* `EventLoop` — the entries, their number and the fact that the two agree.
* `eventLoopAdd`, `eventLoopAddOnce`, `eventLoopRemove` — the operations.
* `eventLoopRun` — one round: the pointer walk of the source, with the successor taken before
  the handler runs; `handleNext` — one iteration of it.

Principal result: `eventLoopRun_invariant`, the rule by which a property of the loop and the
state is carried through a round.
-/

set_option autoImplicit false

namespace Cimple.Events

/-- `struct event_fd`; `addr` is the identity of the allocation. -/
structure EventFd (H : Type) where
  addr : Nat
  fd : Nat
  events : Int16
  handler : H
  once : Bool

/-- `struct event_loop`; `fresh` bounds the allocations made so far. -/
structure EventLoop (H : Type) where
  nfds : Nat
  entries : List (EventFd H)
  fresh : Nat
  counted : nfds = entries.length
  distinct : (entries.map EventFd.addr).Nodup
  allocated : ∀ e ∈ entries, e.addr < fresh

/-- `struct pollfd`. -/
structure PollFd where
  fd : Nat
  events : Int16
  revents : Int16

/-- `POLLIN`. -/
def pollIn : Int16 := 1

variable {H σ : Type}

/-! ## Registration -/

/-- `event_loop_create`. -/
def eventLoopCreate : EventLoop H where
  nfds := 0
  entries := []
  fresh := 0
  counted := rfl
  distinct := List.nodup_nil
  allocated := by simp

/-- `event_loop_add_internal`, with the entry `event_fd_create` has allocated. -/
def eventLoopAddInternal (loop : EventLoop H) (fd : Nat) (events : Int16) (handler : H)
    (once : Bool) : EventLoop H where
  nfds := loop.nfds + 1
  entries := loop.entries ++ [⟨loop.fresh, fd, events, handler, once⟩]
  fresh := loop.fresh + 1
  counted := by simp [loop.counted]
  distinct := by
    rw [List.map_append, List.nodup_append]
    refine ⟨loop.distinct, List.nodup_singleton _, ?_⟩
    simp only [List.map_cons, List.map_nil, List.mem_map, List.mem_singleton]
    rintro _ ⟨e, he, rfl⟩ _ rfl heq
    exact absurd (loop.allocated e he) (by simp [heq])
  allocated := by
    intro e he
    rcases List.mem_append.1 he with he | he
    · exact Nat.lt_succ_of_lt (loop.allocated e he)
    · simp [List.mem_singleton.1 he]

/-- `event_loop_add`; `allocOk` is whether the entry could be allocated. -/
def eventLoopAdd (allocOk : Bool) (loop : EventLoop H) (fd : Nat) (events : Int16)
    (handler : H) : Option (EventLoop H) :=
  if allocOk then some (eventLoopAddInternal loop fd events handler false) else none

/-- `event_loop_add_once`. -/
def eventLoopAddOnce (allocOk : Bool) (loop : EventLoop H) (fd : Nat) (events : Int16)
    (handler : H) : Option (EventLoop H) :=
  if allocOk then some (eventLoopAddInternal loop fd events handler true) else none

/-- `event_loop_remove`. -/
def eventLoopRemove (loop : EventLoop H) (entry : EventFd H) : Option (EventLoop H) :=
  match h : TailQueue.remove EventFd.addr entry.addr loop.entries with
  | none => none
  | some entries => some {
      nfds := loop.nfds - 1
      entries := entries
      fresh := loop.fresh
      counted := by
        obtain ⟨before, a, after, he, -, rfl⟩ := TailQueue.remove_some h
        simp [loop.counted, he]
      distinct := TailQueue.remove_nodup h loop.distinct
      allocated := by
        obtain ⟨before, a, after, he, -, rfl⟩ := TailQueue.remove_some h
        intro e hmem
        refine loop.allocated e (he ▸ ?_)
        rcases List.mem_append.1 hmem with hmem | hmem <;> simp [hmem] }

theorem addr_not_mem {loop : EventLoop H} {before after : List (EventFd H)} {entry : EventFd H}
    (h : loop.entries = before ++ entry :: after) : entry.addr ∉ before.map EventFd.addr := by
  have hd := loop.distinct
  rw [h, List.map_append, List.map_cons, List.nodup_append] at hd
  exact fun hmem => hd.2.2 _ hmem _ List.mem_cons_self rfl

theorem eventLoopRemove_append {loop : EventLoop H} {before after : List (EventFd H)}
    {entry : EventFd H} (h : loop.entries = before ++ entry :: after) :
    ∃ loop', eventLoopRemove loop entry = some loop' ∧ loop'.entries = before ++ after := by
  have hnew := addr_not_mem h
  have hremove : TailQueue.remove EventFd.addr entry.addr loop.entries =
      some (before ++ after) := by
    rw [h]
    exact TailQueue.remove_append hnew
  unfold eventLoopRemove
  split
  · rename_i hnone
    rw [hremove] at hnone
    cases hnone
  · rename_i entries hsome
    rw [hremove] at hsome
    cases hsome
    exact ⟨_, rfl, rfl⟩

/-! ## A round -/

/-- What calling a handler does: its return value, and the loop and the state it leaves. -/
abbrev Call (H σ : Type) := H → Nat → Int16 → EventLoop H → σ → Option (Int32 × EventLoop H × σ)

/-- `make_pollfds`. -/
def makePollfds (loop : EventLoop H) : List PollFd :=
  (loop.entries.take loop.nfds).map fun entry => ⟨entry.fd, entry.events, 0⟩

/-- A successful `poll`: what has happened to each descriptor of the array. -/
def poll (revents : Nat → Int16) (fds : List PollFd) : List PollFd :=
  fds.mapIdx fun i p => { p with revents := revents i }

/-- The handler of a ready entry is called and a one-shot entry is removed. -/
def handleEntry (call : Call H σ) (entry : EventFd H) (p : PollFd) (loop : EventLoop H)
    (state : σ) : Option (Int32 × EventLoop H × σ) := do
  let (handlerRet, loop, state) ← call entry.handler p.fd p.revents loop state
  let loop ← if entry.once then eventLoopRemove loop entry else some loop
  pure (handlerRet, loop, state)

theorem handleEntry_spec {call : Call H σ} {entry : EventFd H} {p : PollFd}
    {loop loop₁ : EventLoop H} {state state' : σ} {ret : Int32} {before after : List (EventFd H)}
    (hcall : call entry.handler p.fd p.revents loop state = some (ret, loop₁, state'))
    (hentries : loop₁.entries = before ++ entry :: after) :
    ∃ loop', handleEntry call entry p loop state = some (ret, loop', state') ∧
      loop'.entries = before ++ (if entry.once then [] else [entry]) ++ after := by
  unfold handleEntry
  cases entry.once with
  | true =>
    obtain ⟨loop', hremove, hentries'⟩ := eventLoopRemove_append hentries
    exact ⟨loop', by simp [hcall, hremove], by simpa using hentries'⟩
  | false => exact ⟨loop₁, by simp [hcall], by simpa using hentries⟩

theorem handleEntry_some {call : Call H σ} {entry : EventFd H} {p : PollFd}
    {loop loop' : EventLoop H} {state state' : σ} {ret : Int32}
    (h : handleEntry call entry p loop state = some (ret, loop', state')) :
    ∃ loop₁, call entry.handler p.fd p.revents loop state = some (ret, loop₁, state') := by
  unfold handleEntry at h
  obtain ⟨⟨handlerRet, loop₁, state₁⟩, hcall, h⟩ := Option.bind_eq_some_iff.1 h
  cases honce : entry.once with
  | true =>
    simp only [honce, if_true] at h
    obtain ⟨loop₂, -, heq⟩ := Option.bind_eq_some_iff.1 h
    cases heq
    exact ⟨loop₁, hcall⟩
  | false =>
    simp only [honce, Bool.false_eq_true, if_false] at h
    cases h
    exact ⟨_, hcall⟩

/-- The walk of `event_loop_run` along the array and the queue. -/
def handleEntries (call : Call H σ) :
    List PollFd → Option (EventFd H) → Int32 → EventLoop H → σ →
      Option (Int32 × EventLoop H × σ)
  | [], _, ret, loop, state => some (ret, loop, state)
  | _ :: _, none, _, _, _ => none
  | p :: fds, some entry, ret, loop, state =>
    -- the successor is taken first: the entry may be gone after its handler has run
    let next := TailQueue.next EventFd.addr entry.addr loop.entries
    if p.revents = 0 then handleEntries call fds next ret loop state
    else do
      let (handlerRet, loop, state) ← handleEntry call entry p loop state
      handleEntries call fds next (if handlerRet < 0 then handlerRet else ret) loop state

/-- One iteration of the walk: the successor, the return value so far, and what the handler
leaves. -/
def handleNext (call : Call H σ) (p : PollFd) (entry : EventFd H) (ret : Int32)
    (loop : EventLoop H) (state : σ) : Option (Option (EventFd H) × Int32 × EventLoop H × σ) :=
  let next := TailQueue.next EventFd.addr entry.addr loop.entries
  if p.revents = 0 then some (next, ret, loop, state)
  else do
    let (handlerRet, loop, state) ← handleEntry call entry p loop state
    some (next, if handlerRet < 0 then handlerRet else ret, loop, state)

theorem handleEntries_cons (call : Call H σ) (p : PollFd) (fds : List PollFd) (entry : EventFd H)
    (ret : Int32) (loop : EventLoop H) (state : σ) :
    handleEntries call (p :: fds) (some entry) ret loop state =
      (handleNext call p entry ret loop state).bind fun r =>
        handleEntries call fds r.1 r.2.1 r.2.2.1 r.2.2.2 := by
  rw [handleEntries, handleNext]
  split
  · rfl
  · cases handleEntry call entry p loop state <;> rfl

theorem next_rest {loop : EventLoop H} {before rest added : List (EventFd H)} {entry : EventFd H}
    (hentries : loop.entries = before ++ entry :: (rest ++ added)) (hne : rest ≠ []) :
    TailQueue.next EventFd.addr entry.addr loop.entries = rest.head? := by
  rw [hentries, TailQueue.next_append (addr_not_mem hentries)]
  cases rest with
  | nil => exact absurd rfl hne
  | cons e rest => rfl

/-- `event_loop_run`; `revents` is `none` when the array cannot be allocated or `poll` fails. -/
def eventLoopRun (call : Call H σ) (revents : Option (Nat → Int16)) (loop : EventLoop H)
    (state : σ) : Option (Int32 × EventLoop H × σ) :=
  match revents with
  | none => some (-1, loop, state)
  | some revents =>
    handleEntries call (poll revents (makePollfds loop)) loop.entries.head? 0 loop state

/-! ## Carrying a property through a round -/

/-- A handled entry keeps `P`, and leaves the other entries in place before those it adds. -/
def Keeps (call : Call H σ) (P : EventLoop H → σ → Prop) : Prop :=
  ∀ (before after : List (EventFd H)) (entry : EventFd H) (p : PollFd) (loop : EventLoop H)
    (state : σ), loop.entries = before ++ entry :: after → P loop state →
    ∃ ret loop' state' kept added, handleEntry call entry p loop state =
        some (ret, loop', state') ∧ P loop' state' ∧
      loop'.entries = before ++ kept ++ after ++ added

theorem handleEntries_invariant {call : Call H σ} {P : EventLoop H → σ → Prop}
    (hkeeps : Keeps call P) (fds : List PollFd) :
    ∀ (before rest added : List (EventFd H)) (entry : Option (EventFd H)) (ret : Int32)
      (loop : EventLoop H) (state : σ), loop.entries = before ++ rest ++ added →
      fds.length = rest.length → (rest ≠ [] → entry = rest.head?) → P loop state →
      ∃ ret' loop' state', handleEntries call fds entry ret loop state =
        some (ret', loop', state') ∧ P loop' state' := by
  induction fds with
  | nil =>
    intro _ _ _ _ ret loop state _ _ _ hP
    exact ⟨ret, loop, state, by simp [handleEntries], hP⟩
  | cons p fds ih =>
    intro before rest added entry ret loop state hentries hlen hentry hP
    obtain ⟨e, rest, rfl⟩ : ∃ e rest', rest = e :: rest' :=
      List.exists_cons_of_length_pos (by rw [← hlen]; simp)
    obtain rfl : entry = some e := hentry (by simp)
    have hsplit : loop.entries = before ++ e :: (rest ++ added) := by simp [hentries]
    have hnext : rest ≠ [] → TailQueue.next EventFd.addr e.addr loop.entries = rest.head? :=
      next_rest hsplit
    have hlen' : fds.length = rest.length := by simpa using hlen
    simp only [handleEntries]
    split
    · exact ih (before ++ [e]) rest added _ ret loop state (by simp [hentries]) hlen' hnext hP
    · obtain ⟨hret, loop', state', kept, more, hhandle, hP', hentries'⟩ :=
        hkeeps before (rest ++ added) e p loop state hsplit hP
      simp only [hhandle, Option.bind_eq_bind, Option.bind_some]
      exact ih (before ++ kept) rest (added ++ more) _ _ loop' state'
        (by simp [hentries', List.append_assoc]) hlen' hnext hP'

/-- **A round keeps what each of its handlers keeps**, and is defined. -/
theorem eventLoopRun_invariant {call : Call H σ} {P : EventLoop H → σ → Prop}
    (hkeeps : Keeps call P) (revents : Option (Nat → Int16)) {loop : EventLoop H} {state : σ}
    (hP : P loop state) :
    ∃ ret loop' state', eventLoopRun call revents loop state = some (ret, loop', state') ∧
      P loop' state' := by
  cases revents with
  | none => exact ⟨-1, loop, state, rfl, hP⟩
  | some revents =>
    refine handleEntries_invariant hkeeps _ [] loop.entries [] _ 0 loop state (by simp) ?_
      (fun _ => rfl) hP
    simp [poll, makePollfds, loop.counted]

end Cimple.Events
