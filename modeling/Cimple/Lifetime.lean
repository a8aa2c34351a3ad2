import Cimple.Dispatch
import Cimple.TcpServer

/-!
# From `server_main` to `server_destroy` (`server.c`, `server_main.c`)

One thread runs `server_main`, round after round of the event loop, and then `server_destroy`,
which joins the main thread and, through `tcp_server_destroy`, the client threads that are left.

* `Shared` — what the threads share, with the threads created, those that have not returned and
  the joins so far; `callHandler` — the handlers in the event loop.
* `Phase`, `Life`, `Action`, `step`, `run` — the listening thread, handler by handler and join by
  join, client threads and the main thread, in every order; `none` is undefined behaviour, and a
  thread that has to wait leaves the state as it is.
* `TornDown` — what holds of the threads; `Stopped` — what holds once `server_main` has returned.

Principal results: `run_inv`, `orderly_teardown` and `server_main_stops`.
-/

set_option autoImplicit false

namespace Cimple.Lifetime

open Octets JsonValue Descriptors Cimple.Events Cimple.RunQueue Cimple.Servers
open Cimple.Tcp (Handler Client TcpServer AcceptSteps ServerInv LoopInv clientEntry clientDestroy
  tcpServerAccept tcpServerCreate)
open Cimple.Dispatching (Dispatch MainThread started)

/-! ## State -/

/-- The threads besides the listening one. -/
inductive Thread where
  | main
  | client (addr : Nat)
  deriving DecidableEq

/-- A client thread, by its client. -/
def Thread.client? : Thread → Option Nat
  | .main => none
  | .client addr => some addr

/-- What the threads share; the client threads created, and those that have not returned; and
the joins, the last one first. -/
structure Shared where
  tcp : TcpServer
  dispatch : Dispatch
  created : List Nat
  live : List Nat
  joined : List Thread

/-- Where the listening thread is: at the head of the loop of `server_listen_thread`; in the walk
of `event_loop_run`; back from `server_main`; in `client_queue_destroy`, with the main thread
joined; or back from `tcp_server_destroy`. -/
inductive Phase where
  | listening
  | walking (fds : List PollFd) (entry : Option (EventFd Handler)) (ret : Int32)
  | returned (ret : Int32)
  | sweeping (clients : List Client)
  | destroyed

/-- The event loop, which is the listening thread's, and the rest. -/
structure Life where
  loop : EventLoop Handler
  shared : Shared
  phase : Phase

/-- The server after `server_create`: the signal descriptor and the socket are in the event
loop. -/
def initial (server : Server) (fds : FdTable) (signalFd acceptFd : Nat) : Option Life := do
  let loop ← eventLoopAdd true eventLoopCreate signalFd pollIn (.other 0)
  let (loop, tcp) ← tcpServerCreate true loop fds acceptFd
  some ⟨loop, ⟨tcp, started server, [], [], []⟩, .listening⟩

/-! ## Handlers -/

/-- The handlers, as the event loop calls them: `lockOk` is whether `server_set_stopping` can
lock the mutex. -/
def callHandler (accept : AcceptSteps) (lockOk : Bool) : Call Handler Shared :=
  fun handler _ _ loop s =>
    match handler with
    | .clientDestroy addr =>
      (clientDestroy addr s.tcp).map fun tcp =>
        (0, loop, { s with tcp, joined := .client addr :: s.joined })
    | .accept =>
      (tcpServerAccept accept loop s.tcp).map fun (ret, loop, tcp) =>
        (ret, loop, if ret < 0 then { s with tcp }
          else { s with
            tcp, created := s.tcp.fresh :: s.created, live := s.tcp.fresh :: s.live })
    | .other _ =>
      if lockOk then some (0, loop, { s with dispatch := s.dispatch.critical serverSetStopping })
      else some (-1, loop, s)

/-- The handler has to wait: for the thread it joins, or for the mutex. -/
def blocks (handler : Handler) (lockOk : Bool) (s : Shared) : Bool :=
  match handler with
  | .clientDestroy addr => s.live.contains addr
  | .accept => false
  | .other _ => lockOk && !s.dispatch.mutexFree

/-! ## Steps -/

/-- One step of a thread: the listening thread polls, calls the next handler, joins the main
thread, or destroys the next client; a client thread enters a critical section or returns; the
main thread makes a step. -/
inductive Action where
  | poll (revents : Option (Nat → Int16))
  | handle (accept : AcceptSteps) (lockOk : Bool)
  | joinMain
  | destroyNext
  | enqueueWorker (addr : Nat) (worker : Worker)
  | enqueueRun (addr : Nat) (run : Run)
  | finish (addr : Nat)
  | main (ok : Bool) (env : AssignEnv)

variable (toText : Json → CStr) (o : ByteOrder)

/-- A step of a client thread or of the main thread, as far as the dispatch of runs goes. -/
def Life.dispatched (s : Life) (action : Dispatching.Action) : Option Life :=
  (Dispatching.step toText o s.shared.dispatch action).map fun dispatch =>
    { s with shared := { s.shared with dispatch } }

def step (s : Life) : Action → Option Life
  | .poll revents =>
    match s.phase with
    | .listening =>
      if s.shared.dispatch.server.stopping then some { s with phase := .returned 0 }
      else
        match revents with
        | none => some { s with phase := .returned (-1) }
        | some revents => some { s with
            phase := .walking (poll revents (makePollfds s.loop)) s.loop.entries.head? 0 }
    | _ => some s
  | .handle accept lockOk =>
    match s.phase with
    | .walking [] _ ret =>
      some { s with phase := if ret < 0 then .returned ret else .listening }
    | .walking (_ :: _) none _ => none
    | .walking (p :: fds) (some entry) ret =>
      if p.revents ≠ 0 ∧ blocks entry.handler lockOk s.shared = true then some s
      else
        (handleNext (callHandler accept lockOk) p entry ret s.loop s.shared).map fun r =>
          ⟨r.2.2.1, r.2.2.2, .walking fds r.1 r.2.1⟩
    | _ => some s
  | .joinMain =>
    match s.phase with
    | .returned _ =>
      if s.shared.dispatch.main = .exited then
        -- `tcp_server_destroy` closes the socket first
        let tcp := { s.shared.tcp with fds := close s.shared.tcp.fds s.shared.tcp.acceptFd }
        some { s with
          shared := { s.shared with tcp, joined := .main :: s.shared.joined }
          phase := .sweeping tcp.clientQueue }
      else some s
    | _ => some s
  | .destroyNext =>
    match s.phase with
    | .sweeping [] => some { s with phase := .destroyed }
    | .sweeping (client :: clients) =>
      if s.shared.live.contains client.addr then some s
      else
        (clientDestroy client.addr s.shared.tcp).map fun tcp => { s with
          shared := { s.shared with tcp, joined := .client client.addr :: s.shared.joined }
          phase := .sweeping clients }
    | _ => some s
  | .enqueueWorker addr worker =>
    if addr ∈ s.shared.live then s.dispatched toText o (.enqueueWorker worker) else some s
  | .enqueueRun addr run =>
    if addr ∈ s.shared.live then s.dispatched toText o (.enqueueRun run) else some s
  | .finish addr =>
    if addr ∈ s.shared.live then
      -- the thread writes to its `cleanup_fd` and returns
      let tcp := { s.shared.tcp with
        clientQueue := s.shared.tcp.clientQueue.map (Tcp.Client.done addr) }
      some { s with shared := { s.shared with
        tcp, live := s.shared.live.filter fun other => other ≠ addr } }
    else some s
  | .main ok env => s.dispatched toText o (.main ok env)

def run (s : Life) (actions : List Action) : Option Life := actions.foldlM (step toText o) s

/-! ## What the threads share -/

/-- A client, and the descriptor its entry in the event loop waits on. -/
def pair (client : Client) : Nat × Nat := (client.addr, client.cleanupFd)

/-- The invariant of what the threads share: every client thread created has a client in the queue
or has been joined, and one that has not returned has a client. -/
structure SharedInv (acceptFd : Nat) (held : List (Nat × Nat)) (s : Shared) : Prop where
  tcp : ServerInv acceptFd held s.tcp
  created : s.created.Perm (s.tcp.clientQueue.map Client.addr ++ s.tcp.destroyed)
  live : ∀ addr ∈ s.live, addr ∈ s.tcp.clientQueue.map Client.addr
  joined : s.joined.filterMap Thread.client? = s.tcp.destroyed

variable {toText o} {acceptFd : Nat} {held : List (Nat × Nat)}

theorem SharedInv.dispatched {s : Shared} (h : SharedInv acceptFd held s) (dispatch : Dispatch) :
    SharedInv acceptFd held { s with dispatch } :=
  ⟨h.tcp, h.created, h.live, h.joined⟩

/-- **A client whose thread has returned is destroyed.** -/
theorem SharedInv.destroy {s : Shared} (h : SharedInv acceptFd held s) {before after : List Client}
    {client : Client} (hqueue : s.tcp.clientQueue = before ++ client :: after)
    (hlive : client.addr ∉ s.live) :
    ∃ tcp, clientDestroy client.addr s.tcp = some tcp ∧ tcp.clientQueue = before ++ after ∧
      SharedInv acceptFd held { s with tcp, joined := .client client.addr :: s.joined } := by
  obtain ⟨tcp, hdestroy, hqueue', -, htcp⟩ := Tcp.clientDestroy_spec h.tcp hqueue
  have hdestroyed := Tcp.clientDestroy_destroyed hdestroy
  refine ⟨tcp, hdestroy, hqueue', htcp, ?_, ?_, ?_⟩
  · refine h.created.trans ?_
    show (s.tcp.clientQueue.map Client.addr ++ s.tcp.destroyed).Perm
      (tcp.clientQueue.map Client.addr ++ tcp.destroyed)
    simp only [hqueue, hqueue', hdestroyed, List.map_append, List.map_cons, List.append_assoc,
      List.cons_append]
    exact List.Perm.append_left _ List.perm_middle.symm
  · intro addr haddr
    have hmem := h.live addr haddr
    have hne : addr ≠ client.addr := fun heq => hlive (heq ▸ haddr)
    show addr ∈ tcp.clientQueue.map Client.addr
    rw [hqueue']
    rw [hqueue] at hmem
    simpa [hne] using hmem
  · show (Thread.client client.addr :: s.joined).filterMap Thread.client? = tcp.destroyed
    rw [List.filterMap_cons, h.joined, hdestroyed]
    rfl

theorem split_queue {queue : List Client} {before after : List (Nat × Nat)} {addr fd : Nat}
    (h : queue.map pair = before ++ (addr, fd) :: after) :
    ∃ before' client after', queue = before' ++ client :: after' ∧ client.addr = addr ∧
      before'.map pair = before ∧ after'.map pair = after := by
  obtain ⟨before', rest, rfl, hbefore, hrest⟩ := List.map_eq_append_iff.1 h
  obtain ⟨client, after', rfl, hpair, hafter⟩ := List.map_eq_cons_iff.1 hrest
  exact ⟨before', client, after', rfl, congrArg Prod.fst hpair, hbefore, hafter⟩

/-- **What a handler that does not have to wait does**: it is defined; the client of a one-shot
entry is destroyed; entries are only added, and if the handler succeeds they are for the clients it
has added. -/
theorem callHandler_spec {s : Shared} (h : SharedInv acceptFd held s) {entry : EventFd Handler}
    {before after : List (Nat × Nat)}
    (hqueue : s.tcp.clientQueue.map pair = before ++ (clientEntry entry).toList ++ after)
    {accept : AcceptSteps} {lockOk : Bool} (hblocks : blocks entry.handler lockOk s = false)
    (fd : Nat) (revents : Int16) (loop : EventLoop Handler) :
    ∃ ret loop' s' more clients,
      callHandler accept lockOk entry.handler fd revents loop s = some (ret, loop', s') ∧
      loop'.entries = loop.entries ++ more ∧ (∀ e ∈ more, e.once = true) ∧
      (¬ ret < 0 → more.filterMap clientEntry = clients) ∧
      s'.tcp.clientQueue.map pair = before ++ after ++ clients ∧ SharedInv acceptFd held s' ∧
      s'.joined.count .main = s.joined.count .main := by
  cases hentry : entry.handler with
  | clientDestroy addr =>
    have hclient : clientEntry entry = some (addr, entry.fd) := by simp [clientEntry, hentry]
    rw [hclient, Option.toList_some, List.append_assoc, List.singleton_append] at hqueue
    obtain ⟨before', client, after', hsplit, rfl, rfl, rfl⟩ := split_queue hqueue
    have hlive : client.addr ∉ s.live := by simpa [blocks, hentry] using hblocks
    obtain ⟨tcp, hdestroy, hqueue', hinv⟩ := h.destroy hsplit hlive
    refine ⟨0, loop, _, [], [], by simp only [callHandler, hdestroy, Option.map_some], by simp,
      by simp, fun _ => rfl, ?_, hinv, by simp⟩
    simp [hqueue']
  | accept =>
    have hnone : clientEntry entry = none := by simp [clientEntry, hentry]
    rw [hnone, Option.toList_none, List.append_nil] at hqueue
    rcases Tcp.tcpServerAccept_cases accept loop h.tcp with
      ⟨loop', tcp, added, haccept, hadded, honce, -, hqueue', hdestroyed, htcp⟩ |
      ⟨tcp, client, haccept, hqueue', haddr, hdestroyed, htcp⟩
    · have hfail : (-1 : Int32) < 0 := by decide
      refine ⟨-1, loop', { s with tcp }, added, [], ?_, hadded, honce,
        fun hnot => absurd hfail hnot, ?_, ⟨htcp, ?_, ?_, ?_⟩, rfl⟩
      · simp only [callHandler, haccept, Option.map_some, if_pos hfail]
      · simp only [hqueue', hqueue, List.append_nil]
      · simp only [hqueue', hdestroyed]
        exact h.created
      · simp only [hqueue']
        exact h.live
      · simp only [hdestroyed]
        exact h.joined
    · have hzero : ¬ (0 : Int32) < 0 := by decide
      refine ⟨0,
        eventLoopAddInternal loop client.cleanupFd pollIn (.clientDestroy client.addr) true,
        { s with tcp, created := s.tcp.fresh :: s.created, live := s.tcp.fresh :: s.live },
        [⟨loop.fresh, client.cleanupFd, pollIn, .clientDestroy client.addr, true⟩], [pair client],
        ?_, rfl, ?_, fun _ => rfl, ?_, ⟨htcp, ?_, ?_, ?_⟩, rfl⟩
      · simp only [callHandler, haccept, Option.map_some, if_neg hzero]
      · simp
      · simp only [hqueue', List.map_append, hqueue, List.map_singleton]
      · simp only [hqueue', hdestroyed, List.map_append, List.map_singleton, haddr,
          List.append_assoc, List.singleton_append]
        exact (h.created.cons _).trans List.perm_middle.symm
      · intro addr hmem
        simp only [hqueue', List.map_append, List.map_singleton, haddr, List.mem_append,
          List.mem_singleton]
        rcases List.mem_cons.1 hmem with heq | hmem
        · exact .inr heq
        · exact .inl (h.live addr hmem)
      · simp only [hdestroyed]
        exact h.joined
  | other id =>
    have hnone : clientEntry entry = none := by simp [clientEntry, hentry]
    rw [hnone, Option.toList_none, List.append_nil] at hqueue
    cases lockOk with
    | true =>
      exact ⟨0, loop, _, [], [], rfl, by simp, by simp, fun _ => rfl, by simp [hqueue],
        h.dispatched _, rfl⟩
    | false =>
      exact ⟨-1, loop, s, [], [], rfl, by simp, by simp, fun _ => rfl, by simp [hqueue], h, rfl⟩

/-! ## The walk -/

/-- The invariant of the walk of `event_loop_run`: the entries it has left are those of the array,
and they, with those behind it, are for the first clients of the queue; as long as no handler has
failed, the entries added are for the others. -/
def WalkInv (loop : EventLoop Handler) (queue : List Client) (fds : List PollFd)
    (entry : Option (EventFd Handler)) (ret : Int32) : Prop :=
  ∃ before rest added clients, loop.entries = before ++ rest ++ added ∧
    fds.length = rest.length ∧ (rest ≠ [] → entry = rest.head?) ∧
    queue.map pair = (before ++ rest).filterMap clientEntry ++ clients ∧
    (¬ ret < 0 → added.filterMap clientEntry = clients) ∧
    ∀ e ∈ loop.entries, (clientEntry e).isSome = true → e.once = true

theorem WalkInv.start {loop : EventLoop Handler} {queue : List Client} (h : LoopInv loop queue)
    (revents : Nat → Int16) :
    WalkInv loop queue (poll revents (makePollfds loop)) loop.entries.head? 0 :=
  ⟨[], loop.entries, [], [], by simp, by simp [poll, makePollfds, loop.counted], fun _ => rfl,
    by rw [List.append_nil]; exact h.entries.symm, fun _ => rfl, h.once⟩

theorem WalkInv.loopInv {loop : EventLoop Handler} {queue : List Client}
    {entry : Option (EventFd Handler)} {ret : Int32} (h : WalkInv loop queue [] entry ret)
    (hret : ¬ ret < 0) : LoopInv loop queue := by
  obtain ⟨before, rest, added, clients, hentries, hlen, -, hqueue, hadded, honce⟩ := h
  obtain rfl : rest = [] := List.length_eq_zero_iff.1 hlen.symm
  refine ⟨?_, honce⟩
  rw [hentries, List.filterMap_append, hadded hret]
  exact hqueue.symm

theorem WalkInv.entry {loop : EventLoop Handler} {queue : List Client} {p : PollFd}
    {fds : List PollFd} {entry : Option (EventFd Handler)} {ret : Int32}
    (h : WalkInv loop queue (p :: fds) entry ret) : ∃ e, entry = some e := by
  obtain ⟨before, rest, added, clients, -, hlen, hentry, -⟩ := h
  obtain ⟨e, rest, rfl⟩ := List.exists_cons_of_length_pos (l := rest) (by rw [← hlen]; simp)
  exact ⟨e, hentry (by simp)⟩

/-- **An iteration of the walk** whose handler does not have to wait is defined and keeps the
invariant. -/
theorem WalkInv.next {loop : EventLoop Handler} {s : Shared} {p : PollFd} {fds : List PollFd}
    {entry : EventFd Handler} {ret : Int32}
    (h : WalkInv loop s.tcp.clientQueue (p :: fds) (some entry) ret)
    (hs : SharedInv acceptFd held s) (accept : AcceptSteps) {lockOk : Bool}
    (hblocks : p.revents ≠ 0 → blocks entry.handler lockOk s = false) :
    ∃ next ret' loop' s', handleNext (callHandler accept lockOk) p entry ret loop s =
        some (next, ret', loop', s') ∧ SharedInv acceptFd held s' ∧
      WalkInv loop' s'.tcp.clientQueue fds next ret' ∧
      s'.joined.count .main = s.joined.count .main := by
  obtain ⟨before, rest, added, clients, hentries, hlen, hentry, hqueue, hadded, honce⟩ := h
  obtain ⟨e, rest, rfl⟩ := List.exists_cons_of_length_pos (l := rest) (by rw [← hlen]; simp)
  obtain rfl : entry = e := Option.some.inj (hentry (by simp))
  have hsplit : loop.entries = before ++ entry :: (rest ++ added) := by simp [hentries]
  have hnext := next_rest hsplit
  have hlen' : fds.length = rest.length := by simpa using hlen
  unfold handleNext
  split
  · exact ⟨_, ret, loop, s, rfl, hs, ⟨before ++ [entry], rest, added, clients, by simp [hentries],
      hlen', hnext, by simpa using hqueue, hadded, honce⟩, rfl⟩
  · rename_i hready
    have hqueue' : s.tcp.clientQueue.map pair = before.filterMap clientEntry ++
        (clientEntry entry).toList ++ (rest.filterMap clientEntry ++ clients) := by
      rw [hqueue, List.filterMap_append, List.filterMap_cons]
      cases clientEntry entry <;> simp
    obtain ⟨handlerRet, loop₁, s', more, others, hcall, hmore, honceMore, hothers, hqueue₁, hs',
      hjoined⟩ := callHandler_spec hs hqueue' (hblocks hready) p.fd p.revents loop
    have hentries₁ : loop₁.entries = before ++ entry :: (rest ++ (added ++ more)) := by
      simp [hmore, hentries]
    obtain ⟨loop', hhandle, hentries'⟩ : ∃ loop', handleEntry (callHandler accept lockOk) entry p
        loop s = some (handlerRet, loop', s') ∧ loop'.entries = before ++
          (if entry.once then [] else [entry]) ++ (rest ++ (added ++ more)) :=
      handleEntry_spec hcall hentries₁
    -- what is left of the entry is for no client
    have hkept : (if entry.once then [] else [entry]).filterMap clientEntry = [] := by
      cases hclient : clientEntry entry with
      | none => cases entry.once <;> simp [hclient]
      | some c =>
        have := honce entry (by simp [hentries]) (by simp [hclient])
        simp [this]
    simp only [hhandle, Option.bind_eq_bind, Option.bind_some]
    refine ⟨_, _, loop', s', rfl, hs', ⟨before ++ (if entry.once then [] else [entry]), rest,
      added ++ more, clients ++ others, ?_, hlen', hnext, ?_, ?_, ?_⟩, hjoined⟩
    · rw [hentries']
      simp only [List.append_assoc]
    · rw [hqueue₁, List.filterMap_append, List.filterMap_append, hkept]
      simp only [List.append_nil, List.append_assoc]
    · intro hret
      split at hret
      · rename_i hfail
        exact absurd hfail hret
      · rename_i hok
        rw [List.filterMap_append, hadded hret, hothers hok]
    · intro e he hsome
      have hsublist : (if entry.once then [] else [entry]).Sublist [entry] := by
        cases entry.once <;> simp
      have hmem : e ∈ loop₁.entries := by
        rw [hentries'] at he
        rw [hentries₁, List.append_cons]
        exact ((hsublist.append_left before).append_right _).subset he
      rw [hmore, List.mem_append] at hmem
      rcases hmem with hmem | hmem
      · exact honce e hmem hsome
      · exact honceMore e hmem

/-! ## The invariant -/

/-- The main thread has been joined. -/
def MainJoined (s : Shared) : Prop := s.dispatch.main = .exited ∧ s.joined.count .main = 1

/-- What the listening thread relies on. -/
def PhaseInv (s : Life) : Prop :=
  match s.phase with
  | .listening => LoopInv s.loop s.shared.tcp.clientQueue ∧ s.shared.joined.count .main = 0
  | .walking fds entry ret => WalkInv s.loop s.shared.tcp.clientQueue fds entry ret ∧
      s.shared.joined.count .main = 0
  | .returned _ => s.shared.joined.count .main = 0
  | .sweeping clients => s.shared.tcp.clientQueue.map Client.addr = clients.map Client.addr ∧
      MainJoined s.shared
  | .destroyed => s.shared.tcp.clientQueue = [] ∧ MainJoined s.shared

/-- The descriptor of the socket, until `tcp_server_destroy` closes it. -/
def Phase.listens (socket : Nat × Nat) : Phase → List (Nat × Nat)
  | .sweeping _ | .destroyed => []
  | _ => [socket]

/-- **The invariant.** -/
structure Inv (socket : Nat × Nat) (s : Life) : Prop where
  shared : SharedInv socket.1 (s.phase.listens socket) s.shared
  phase : PhaseInv s

variable {socket : Nat × Nat} {s : Life}

/-- Steps of the dispatch of runs are defined. -/
theorem dispatched_inv (h : Inv socket s) (action : Dispatching.Action) :
    ∃ s', s.dispatched toText o action = some s' ∧ Inv socket s' := by
  obtain ⟨dispatch, hstep⟩ : ∃ dispatch,
      Dispatching.step toText o s.shared.dispatch action = some dispatch := by
    cases action with
    | main ok env => exact Dispatching.mainStep_some toText o _ ok env
    | _ => exact ⟨_, rfl⟩
  have hexited : s.shared.dispatch.main = .exited → dispatch.main = .exited := fun hmain =>
    Dispatching.step_exited hmain hstep
  refine ⟨{ s with shared := { s.shared with dispatch } }, by simp [Life.dispatched, hstep],
    h.shared.dispatched dispatch, ?_⟩
  have hphase := h.phase
  unfold PhaseInv at hphase ⊢
  cases hat : s.phase with
  | sweeping clients =>
    rw [hat] at hphase
    exact ⟨hphase.1, hexited hphase.2.1, hphase.2.2⟩
  | destroyed =>
    rw [hat] at hphase
    exact ⟨hphase.1, hexited hphase.2.1, hphase.2.2⟩
  | _ =>
    rw [hat] at hphase
    exact hphase

theorem map_done_pair (clients : List Client) (addr : Nat) :
    (clients.map (Tcp.Client.done addr)).map pair = clients.map pair := by
  rw [List.map_map]
  refine List.map_congr_left fun client _ => ?_
  simp [pair, Tcp.Client.done_addr, Tcp.Client.done_cleanupFd]

/-- A client thread returns. -/
theorem finish_inv (h : Inv socket s) (addr : Nat) :
    ∃ s', step toText o s (.finish addr) = some s' ∧ Inv socket s' := by
  simp only [step]
  split
  · refine ⟨_, rfl, ⟨h.shared.tcp.done addr, ?_, ?_, h.shared.joined⟩, ?_⟩
    · simp only [Tcp.map_done_addr]
      exact h.shared.created
    · simp only [Tcp.map_done_addr]
      exact fun other hother => h.shared.live other (List.mem_of_mem_filter hother)
    · have hphase := h.phase
      unfold PhaseInv at hphase ⊢
      cases hat : s.phase with
      | listening =>
        rw [hat] at hphase
        exact ⟨⟨hphase.1.entries.trans (map_done_pair _ addr).symm, hphase.1.once⟩, hphase.2⟩
      | walking fds entry ret =>
        rw [hat] at hphase
        simp only [WalkInv, map_done_pair]
        exact hphase
      | returned ret =>
        rw [hat] at hphase
        exact hphase
      | sweeping clients =>
        rw [hat] at hphase
        simp only [Tcp.map_done_addr]
        exact hphase
      | destroyed =>
        rw [hat] at hphase
        simp only [hphase.1, List.map_nil]
        exact ⟨trivial, hphase.2⟩
  · exact ⟨s, rfl, h⟩

/-- The listening thread calls a handler. -/
theorem handle_inv (h : Inv socket s) (accept : AcceptSteps) (lockOk : Bool) :
    ∃ s', step toText o s (.handle accept lockOk) = some s' ∧ Inv socket s' := by
  have hphase := h.phase
  have hshared := h.shared
  unfold PhaseInv at hphase
  simp only [step]
  cases hat : s.phase with
  | walking fds entry ret =>
    rw [hat] at hphase hshared
    obtain ⟨hwalk, hjoined⟩ := hphase
    cases fds with
    | nil =>
      refine ⟨_, rfl, ?_⟩
      by_cases hret : ret < 0
      · simp only [if_pos hret]
        exact ⟨hshared, hjoined⟩
      · simp only [if_neg hret]
        exact ⟨hshared, hwalk.loopInv hret, hjoined⟩
    | cons p fds =>
      obtain ⟨entry, rfl⟩ := hwalk.entry
      simp only
      split
      · exact ⟨s, rfl, h⟩
      · rename_i hblocks
        have hblocks' : p.revents ≠ 0 → blocks entry.handler lockOk s.shared = false :=
          fun hready => Bool.eq_false_iff.2 fun hblocked => hblocks ⟨hready, hblocked⟩
        obtain ⟨next, ret', loop', s', hnext, hs', hwalk', hjoined'⟩ :=
          hwalk.next hshared accept hblocks'
        exact ⟨⟨loop', s', .walking fds next ret'⟩, by simp [hnext], hs', hwalk',
          hjoined'.trans hjoined⟩
  | _ => exact ⟨s, rfl, h⟩

theorem joinMain_inv (h : Inv socket s) :
    ∃ s', step toText o s .joinMain = some s' ∧ Inv socket s' := by
  have hphase := h.phase
  have hshared := h.shared
  unfold PhaseInv at hphase
  simp only [step]
  cases hat : s.phase with
  | returned ret =>
    rw [hat] at hphase hshared
    simp only
    split
    · rename_i hexited
      have hclosed := hshared.tcp.close
      rw [← hshared.tcp.listens] at hclosed
      refine ⟨_, rfl, ⟨?_, hshared.created, hshared.live, hshared.joined⟩, rfl, hexited, ?_⟩
      · rw [← hshared.tcp.listens]
        exact hclosed
      · show (Thread.main :: s.shared.joined).count .main = 1
        rw [List.count_cons_self, hphase]
    · exact ⟨s, rfl, h⟩
  | _ => exact ⟨s, rfl, h⟩

/-- The listening thread destroys a client. -/
theorem destroyNext_inv (h : Inv socket s) :
    ∃ s', step toText o s .destroyNext = some s' ∧ Inv socket s' := by
  have hphase := h.phase
  have hshared := h.shared
  unfold PhaseInv at hphase
  simp only [step]
  cases hat : s.phase with
  | sweeping clients =>
    rw [hat] at hphase hshared
    obtain ⟨haddrs, hexited, hjoined⟩ := hphase
    cases clients with
    | nil => exact ⟨_, rfl, hshared, List.map_eq_nil_iff.1 haddrs, hexited, hjoined⟩
    | cons client clients =>
      simp only
      split
      · exact ⟨s, rfl, h⟩
      · rename_i hlive
        obtain ⟨first, queue, hqueue, hfirst, hrest⟩ := List.map_eq_cons_iff.1 haddrs
        have hlive' : first.addr ∉ s.shared.live := by
          rw [hfirst]
          simpa using hlive
        obtain ⟨tcp, hdestroy, hqueue', hs'⟩ := hshared.destroy
          (show s.shared.tcp.clientQueue = [] ++ first :: queue from hqueue) hlive'
        rw [hfirst] at hdestroy hs'
        simp only [hdestroy, Option.map_some]
        refine ⟨_, rfl, hs', ?_, hexited, ?_⟩
        · show tcp.clientQueue.map Client.addr = clients.map Client.addr
          rw [hqueue', List.nil_append, hrest]
        · show (Thread.client client.addr :: s.shared.joined).count .main = 1
          rw [List.count_cons_of_ne (by simp), hjoined]
  | _ => exact ⟨s, rfl, h⟩

variable (toText o) in
/-- **Every step is defined and keeps the invariant.** -/
theorem step_inv (h : Inv socket s) (action : Action) :
    ∃ s', step toText o s action = some s' ∧ Inv socket s' := by
  cases action with
  | poll revents =>
    have hphase := h.phase
    have hshared := h.shared
    unfold PhaseInv at hphase
    simp only [step]
    cases hat : s.phase with
    | listening =>
      rw [hat] at hphase hshared
      simp only
      split
      · exact ⟨_, rfl, hshared, hphase.2⟩
      · cases revents with
        | none => exact ⟨_, rfl, hshared, hphase.2⟩
        | some revents => exact ⟨_, rfl, hshared, WalkInv.start hphase.1 revents, hphase.2⟩
    | _ => exact ⟨s, rfl, h⟩
  | handle accept lockOk => exact handle_inv h accept lockOk
  | joinMain => exact joinMain_inv h
  | destroyNext => exact destroyNext_inv h
  | enqueueWorker addr worker =>
    simp only [step]
    split
    · exact dispatched_inv h _
    · exact ⟨s, rfl, h⟩
  | enqueueRun addr run =>
    simp only [step]
    split
    · exact dispatched_inv h _
    · exact ⟨s, rfl, h⟩
  | finish addr => exact finish_inv h addr
  | main ok env => exact dispatched_inv h _

theorem run_inv (actions : List Action) :
    ∀ {s : Life}, Inv socket s → ∃ s', run toText o s actions = some s' ∧ Inv socket s' :=
  Runs.foldlM_some fun _ h action _ => step_inv toText o h action

theorem initial_inv {server : Server} {fds : FdTable} {signalFd acceptFd : Nat}
    (hstray : fds.stray = []) (h : initial server fds signalFd acceptFd = some s) :
    Inv (acceptFd, fds.next) s := by
  simp only [initial, eventLoopAdd, if_true, Option.bind_eq_bind, Option.bind_some] at h
  obtain ⟨⟨loop, tcp⟩, hcreate, h⟩ := Option.bind_eq_some_iff.1 h
  cases h
  have hnone : ∀ e ∈
      (eventLoopAddInternal eventLoopCreate signalFd pollIn (.other 0) false).entries,
      clientEntry e = none := by
    simp [eventLoopAddInternal, eventLoopCreate, clientEntry]
  have htcp := Tcp.tcpServerCreate_inv (s := ⟨loop, tcp⟩) hnone hstray hcreate
  have hempty : tcp.clientQueue = [] ∧ tcp.destroyed = [] := by
    obtain ⟨_, -, hcreate⟩ := Option.bind_eq_some_iff.1 hcreate
    obtain ⟨_, -, hcreate⟩ := Option.bind_eq_some_iff.1 hcreate
    cases hcreate
    exact ⟨rfl, rfl⟩
  exact ⟨⟨htcp.1, by simp [hempty.1, hempty.2], by simp, hempty.2.symm⟩, htcp.2, rfl⟩

/-! ## Teardown -/

/-- **Orderly teardown**: a thread is joined once at most, and a client thread only after it has
returned; and when `tcp_server_destroy` has returned, every thread created has been joined, and
nothing can move any more. -/
structure TornDown (toText : Json → CStr) (o : ByteOrder) (s : Life) : Prop where
  once : ∀ thread, s.shared.joined.count thread ≤ 1
  finished : ∀ addr, .client addr ∈ s.shared.joined → addr ∉ s.shared.live
  all : s.phase = .destroyed → s.shared.joined.count .main = 1 ∧
    ∀ addr ∈ s.shared.created, s.shared.joined.count (.client addr) = 1
  still : s.phase = .destroyed → s.shared.live = [] ∧ s.shared.dispatch.main = .exited ∧
    ∀ action, step toText o s action = some s

theorem count_client (joined : List Thread) (addr : Nat) :
    joined.count (.client addr) = (joined.filterMap Thread.client?).count addr := by
  induction joined with
  | nil => rfl
  | cons thread joined ih =>
    cases thread with
    | main => rw [List.count_cons_of_ne (by simp), ih, List.filterMap_cons_none rfl]
    | client other => simp [Thread.client?, List.count_cons, ih]

theorem count_main (h : PhaseInv s) : s.shared.joined.count .main ≤ 1 := by
  unfold PhaseInv at h
  split at h
  · omega
  · omega
  · omega
  · exact Nat.le_of_eq h.2.2
  · exact Nat.le_of_eq h.2.2

theorem destroyed_still (hphase : s.phase = .destroyed) (hlive : s.shared.live = [])
    (hmain : s.shared.dispatch.main = .exited) (action : Action) :
    step toText o s action = some s := by
  cases action with
  | main ok env =>
    simp only [step, Life.dispatched, Dispatching.step, Dispatching.Dispatch.mainStep, hmain,
      Option.map_some]
  | _ => simp [step, hphase, hlive]

/-- The invariant is the contract. -/
theorem Inv.tornDown (h : Inv socket s) : TornDown toText o s := by
  have haddrs := h.shared.tcp.addrs
  have hcreated : s.shared.created.Nodup := h.shared.created.nodup_iff.2 haddrs
  have hclients : ∀ addr,
      s.shared.joined.count (.client addr) = s.shared.tcp.destroyed.count addr :=
    fun addr => by rw [count_client, h.shared.joined]
  refine ⟨fun thread => ?_, fun addr hjoined hlive => ?_, fun hdone => ?_, fun hdone => ?_⟩
  · cases thread with
    | main => exact count_main h.phase
    | client addr =>
      rw [hclients]
      exact List.nodup_iff_count_le_one.1 (List.nodup_append.1 haddrs).2.1 addr
  · have hdestroyed : addr ∈ s.shared.tcp.destroyed := by
      rw [← List.count_pos_iff, ← hclients, List.count_pos_iff]
      exact hjoined
    exact (List.nodup_append.1 haddrs).2.2 addr (h.shared.live addr hlive) addr hdestroyed rfl
  · have hphase := h.phase
    unfold PhaseInv at hphase
    rw [hdone] at hphase
    refine ⟨hphase.2.2, fun addr haddr => ?_⟩
    have hcount := h.shared.created.count_eq addr
    rw [hphase.1, List.map_nil, List.nil_append] at hcount
    rw [hclients, ← hcount]
    exact List.count_eq_one_of_mem hcreated haddr
  · have hphase := h.phase
    unfold PhaseInv at hphase
    rw [hdone] at hphase
    have hlive : s.shared.live = [] := by
      refine List.eq_nil_iff_forall_not_mem.2 fun addr haddr => ?_
      have hmem := h.shared.live addr haddr
      rw [hphase.1] at hmem
      cases hmem
    exact ⟨hlive, hphase.2.1, destroyed_still hdone hlive hphase.2.1⟩

/-- **Orderly teardown.**  Whatever fails, in whatever order connections arrive, threads move and
return, and the signal comes: every step is defined, no thread is joined twice, and once
`tcp_server_destroy` has returned every thread ever created has been joined and none can move. -/
theorem orderly_teardown (toText : Json → CStr) (o : ByteOrder) (server : Server) (fds : FdTable)
    (signalFd acceptFd : Nat) (start : Life) (actions : List Action) (hstray : fds.stray = [])
    (hstart : initial server fds signalFd acceptFd = some start) :
    ∃ s, run toText o start actions = some s ∧ TornDown toText o s := by
  obtain ⟨s, hrun, hinv⟩ := run_inv actions (initial_inv hstray hstart)
  exact ⟨s, hrun, hinv.tornDown⟩

/-! ## Stopping -/

/-- `accept4` fails, or a step of `client_create` does. -/
def acceptFails (steps : AcceptSteps) (fds : FdTable) : Bool :=
  match steps.conn.bind fun fd => (openFd fds fd).map fun fds => (fd, fds) with
  | none => true
  | some (_, fds) =>
    !steps.create.allocOk ||
      (steps.create.eventfd.bind fun fd => (openFd fds fd).map fun fds => (fd, fds)).isNone ||
      !steps.create.entryOk || !steps.create.threadOk

/-- What a handler calls fails. -/
def handlerFails (accept : AcceptSteps) (lockOk : Bool) (fds : FdTable) : Handler → Bool
  | .clientDestroy _ => false
  | .accept => acceptFails accept fds
  | .other _ => !lockOk

/-- What the listening thread calls fails: the array cannot be allocated or polled, or a handler
that is called fails. -/
def fails (s : Life) : Action → Bool
  | .poll revents =>
    match s.phase with
    | .listening => revents.isNone
    | _ => false
  | .handle accept lockOk =>
    match s.phase with
    | .walking (p :: _) (some entry) _ =>
      p.revents ≠ 0 && handlerFails accept lockOk s.shared.tcp.fds entry.handler
    | _ => false
  | _ => false

/-- In a run from a state, whatever fails fails when the server is stopping. -/
def failsLate (toText : Json → CStr) (o : ByteOrder) (s : Life) : List Action → Bool
  | [] => true
  | action :: actions => (!fails s action || s.shared.dispatch.server.stopping) &&
      match step toText o s action with
      | none => true
      | some s' => failsLate toText o s' actions

/-- `server_main` has returned. -/
def Phase.hasReturned : Phase → Bool
  | .listening => false
  | .walking _ _ _ => false
  | _ => true

/-- **The main thread can be joined**: the server is stopping, and the main thread, if it waits,
has a signal; two steps of its own, whatever comes between them, take it out of its loop. -/
structure Stopped (toText : Json → CStr) (o : ByteOrder) (d : Dispatch) : Prop where
  stopping : d.server.stopping = true
  awake : d.main ≠ .waiting false
  exits : ∀ actions d', Dispatching.run toText o d actions = some d' →
    2 ≤ actions.countP Dispatching.Action.isMain → d'.main = .exited

theorem stopped {d : Dispatch} (hstopping : d.server.stopping = true)
    (hawake : Dispatching.Awake d) : Stopped toText o d := by
  have hmain : d.main ≠ .waiting false := fun hwaiting => by
    have := hawake hwaiting
    simp [serverReadyForAction, hstopping] at this
  refine ⟨hstopping, hmain, fun actions d' hrun htwo => ?_⟩
  have hrest := Dispatching.run_exits actions hstopping hmain hrun
  have hle : d.main.rest ≤ 2 := by
    cases d.main <;> simp [MainThread.rest]
  have hzero : d'.main.rest = 0 := by omega
  cases h : d'.main with
  | exited => rfl
  | _ => simp [h, MainThread.rest] at hzero

theorem tcpServerAccept_ok {steps : AcceptSteps} {loop loop' : EventLoop Handler}
    {tcp tcp' : TcpServer} {ret : Int32} (hok : acceptFails steps tcp.fds = false)
    (h : tcpServerAccept steps loop tcp = some (ret, loop', tcp')) : ¬ ret < 0 := by
  have hzero : ¬ (0 : Int32) < 0 := by decide
  unfold acceptFails at hok
  unfold tcpServerAccept at h
  split at hok
  · cases hok
  · rename_i connFd fds hconn
    simp only [Bool.or_eq_false_iff, Bool.not_eq_false'] at hok
    obtain ⟨⟨⟨halloc, heventfd⟩, hentry⟩, hthread⟩ := hok
    obtain ⟨⟨cleanupFd, fds'⟩, hcleanup⟩ :=
      Option.isSome_iff_exists.1 (Option.isNone_eq_false_iff.1 heventfd)
    simp only [hconn, Tcp.clientCreate, halloc, hcleanup, hentry, hthread, eventLoopAddOnce,
      Bool.not_true, Bool.false_eq_true, if_true, if_false, Option.bind_eq_bind, Option.bind_some,
      if_neg hzero, Option.some.injEq, Prod.mk.injEq] at h
    rw [← h.1]
    exact hzero

variable (toText o) in
/-- **A handler that is called** makes a step of the dispatch, or none; and it fails only if what
it calls fails. -/
theorem callHandler_dispatch {accept : AcceptSteps} {lockOk : Bool} {handler : Handler} {fd : Nat}
    {revents : Int16} {loop loop' : EventLoop Handler} {s s' : Shared} {ret : Int32}
    (h : callHandler accept lockOk handler fd revents loop s = some (ret, loop', s')) :
    (s'.dispatch = s.dispatch ∨
        Dispatching.step toText o s.dispatch .setStopping = some s'.dispatch) ∧
      (ret < 0 → handlerFails accept lockOk s.tcp.fds handler = true) := by
  have hzero : ¬ (0 : Int32) < 0 := by decide
  cases handler with
  | clientDestroy addr =>
    obtain ⟨tcp, -, heq⟩ := Option.map_eq_some_iff.1 h
    cases heq
    exact ⟨.inl rfl, fun hret => absurd hret hzero⟩
  | accept =>
    obtain ⟨⟨_, _, tcp⟩, haccept, heq⟩ := Option.map_eq_some_iff.1 h
    cases heq
    refine ⟨.inl ?_, fun hret => ?_⟩
    · by_cases hret : ret < 0
      · simp only [if_pos hret]
      · simp only [if_neg hret]
    · by_contra hok
      exact tcpServerAccept_ok (Bool.eq_false_iff.2 hok) haccept hret
  | other id =>
    cases lockOk with
    | true =>
      cases h
      exact ⟨.inr rfl, fun hret => absurd hret hzero⟩
    | false =>
      cases h
      exact ⟨.inl rfl, fun _ => rfl⟩

variable (toText o) in
theorem handleNext_dispatch {accept : AcceptSteps} {lockOk : Bool} {p : PollFd}
    {entry : EventFd Handler} {next : Option (EventFd Handler)} {loop loop' : EventLoop Handler}
    {s s' : Shared} {ret ret' : Int32}
    (h : handleNext (callHandler accept lockOk) p entry ret loop s = some (next, ret', loop', s')) :
    (s'.dispatch = s.dispatch ∨
        Dispatching.step toText o s.dispatch .setStopping = some s'.dispatch) ∧
      (ret' < 0 → ret < 0 ∨
        p.revents ≠ 0 ∧ handlerFails accept lockOk s.tcp.fds entry.handler = true) := by
  unfold handleNext at h
  split at h
  · cases h
    exact ⟨.inl rfl, .inl⟩
  · rename_i hready
    obtain ⟨⟨handlerRet, loop₁, s₁⟩, hhandle, heq⟩ := Option.bind_eq_some_iff.1 h
    cases heq
    obtain ⟨loop₂, hcall⟩ := handleEntry_some hhandle
    obtain ⟨hdispatch, hfails⟩ := callHandler_dispatch toText o hcall
    refine ⟨hdispatch, fun hret => ?_⟩
    split at hret
    · exact .inr ⟨hready, hfails hret⟩
    · exact .inl hret

/-- Something has failed, or `server_main` has returned. -/
def Phase.needsStop : Phase → Bool
  | .listening => false
  | .walking _ _ ret => ret < 0
  | _ => true

/-- **What a step does to the dispatch, and how a round gets to an end of `server_main`**: it is
a step of the dispatch, or leaves it as it is; and something fails, or the server is stopping. -/
theorem step_cases {s s' : Life} {action : Action} (h : step toText o s action = some s') :
    (s'.shared.dispatch = s.shared.dispatch ∨ ∃ dispatched,
      Dispatching.step toText o s.shared.dispatch dispatched = some s'.shared.dispatch) ∧
    (s'.phase.needsStop = true → s.phase.needsStop = true ∨ fails s action = true ∨
      s.shared.dispatch.server.stopping = true) := by
  have hdispatched : ∀ dispatched, s.dispatched toText o dispatched = some s' →
      (∃ dispatched, Dispatching.step toText o s.shared.dispatch dispatched =
        some s'.shared.dispatch) ∧ s'.phase = s.phase := by
    intro dispatched hd
    obtain ⟨dispatch, hstep, heq⟩ := Option.map_eq_some_iff.1 hd
    cases heq
    exact ⟨⟨dispatched, hstep⟩, rfl⟩
  cases action with
  | poll revents =>
    simp only [step] at h
    split at h
    · rename_i hat
      split at h
      · rename_i hstopping
        cases h
        exact ⟨.inl rfl, fun _ => .inr (.inr hstopping)⟩
      · cases revents with
        | none =>
          cases h
          exact ⟨.inl rfl, fun _ => .inr (.inl (by simp [fails, hat]))⟩
        | some revents =>
          cases h
          exact ⟨.inl rfl, fun hneeds => absurd hneeds (by simp [Phase.needsStop])⟩
    · cases h
      exact ⟨.inl rfl, .inl⟩
  | handle accept lockOk =>
    simp only [step] at h
    split at h
    · rename_i entry ret hat
      cases h
      refine ⟨.inl rfl, fun hneeds => .inl ?_⟩
      by_cases hret : ret < 0
      · simpa [hat, Phase.needsStop] using hret
      · simp [hret, Phase.needsStop] at hneeds
    · cases h
    · rename_i p fds entry ret hat
      split at h
      · cases h
        exact ⟨.inl rfl, .inl⟩
      · obtain ⟨⟨next, ret', loop', shared⟩, hnext, heq⟩ := Option.map_eq_some_iff.1 h
        cases heq
        obtain ⟨hdispatch, hfails⟩ := handleNext_dispatch toText o hnext
        refine ⟨hdispatch.imp_right fun hstep => ⟨_, hstep⟩, fun hneeds => ?_⟩
        rcases hfails (by simpa [Phase.needsStop] using hneeds) with hret | ⟨hready, hfail⟩
        · exact .inl (by simpa [hat, Phase.needsStop] using hret)
        · exact .inr (.inl (by simp [fails, hat, hready, hfail]))
    · cases h
      exact ⟨.inl rfl, .inl⟩
  | joinMain =>
    simp only [step] at h
    split at h
    · rename_i hat
      refine ⟨.inl ?_, fun _ => .inl (by simp [hat, Phase.needsStop])⟩
      split at h <;> cases h <;> rfl
    · cases h
      exact ⟨.inl rfl, .inl⟩
  | destroyNext =>
    simp only [step] at h
    split at h
    · rename_i hat
      cases h
      exact ⟨.inl rfl, fun _ => .inl (by simp [hat, Phase.needsStop])⟩
    · rename_i hat
      refine ⟨.inl ?_, fun _ => .inl (by simp [hat, Phase.needsStop])⟩
      split at h
      · cases h
        rfl
      · obtain ⟨tcp, -, heq⟩ := Option.map_eq_some_iff.1 h
        cases heq
        rfl
    · cases h
      exact ⟨.inl rfl, .inl⟩
  | finish addr =>
    simp only [step] at h
    split at h <;> cases h <;> exact ⟨.inl rfl, .inl⟩
  | main ok env =>
    obtain ⟨hstep, hphase⟩ := hdispatched _ h
    exact ⟨.inr hstep, fun hneeds => .inl (hphase ▸ hneeds)⟩
  | _ =>
    simp only [step] at h
    split at h
    · obtain ⟨hstep, hphase⟩ := hdispatched _ h
      exact ⟨.inr hstep, fun hneeds => .inl (hphase ▸ hneeds)⟩
    · cases h
      exact ⟨.inl rfl, .inl⟩

/-- Once something has failed or `server_main` has returned, the server is stopping; and the main
thread does not sleep with something to do. -/
structure StopInv (s : Life) : Prop where
  stops : s.phase.needsStop = true → s.shared.dispatch.server.stopping = true
  awake : Dispatching.Awake s.shared.dispatch

theorem step_stops {s s' : Life} {action : Action} (h : StopInv s)
    (hlate : fails s action = true → s.shared.dispatch.server.stopping = true)
    (hstep : step toText o s action = some s') : StopInv s' := by
  obtain ⟨hdispatched, hneedsStop⟩ := step_cases hstep
  have hstopping : s'.phase.needsStop = true → s.shared.dispatch.server.stopping = true := by
    intro hneeds
    rcases hneedsStop hneeds with hbefore | hfails | hstopping
    · exact h.stops hbefore
    · exact hlate hfails
    · exact hstopping
  rcases hdispatched with hsame | ⟨dispatched, hdispatch⟩
  · rw [← hsame] at hstopping
    exact ⟨hstopping, by rw [hsame]; exact h.awake⟩
  · exact ⟨fun hneeds => (Dispatching.step_stopping (hstopping hneeds) hdispatch).1,
      Dispatching.step_awake h.awake hdispatch⟩

theorem run_stops (actions : List Action) :
    ∀ {s s' : Life}, StopInv s → failsLate toText o s actions = true →
      run toText o s actions = some s' → StopInv s' := by
  induction actions with
  | nil =>
    intro s s' h _ hrun
    cases hrun
    exact h
  | cons action actions ih =>
    intro s s' h hlate hrun
    obtain ⟨s₁, hstep, hrun⟩ := Option.bind_eq_some_iff.1 hrun
    simp only [failsLate, hstep, Bool.and_eq_true, Bool.or_eq_true, Bool.not_eq_true'] at hlate
    refine ih (step_stops h (fun hfails => hlate.1.resolve_left fun hnot => ?_) hstep) hlate.2 hrun
    rw [hfails] at hnot
    cases hnot

/-- **The server can be shut down** in every run in which whatever fails fails when the server is
stopping: once `server_main` has returned, the main thread leaves its loop and can be joined. -/
theorem server_main_stops (toText : Json → CStr) (o : ByteOrder) (server : Server) (fds : FdTable)
    (signalFd acceptFd : Nat) (start : Life) (actions : List Action) (hstray : fds.stray = [])
    (hstart : initial server fds signalFd acceptFd = some start)
    (hlate : failsLate toText o start actions = true) :
    ∃ s, run toText o start actions = some s ∧
      (s.phase.hasReturned = true → Stopped toText o s.shared.dispatch) := by
  obtain ⟨s, hrun, -⟩ := run_inv actions (initial_inv hstray hstart)
  have hbegin : StopInv start := by
    simp only [initial, eventLoopAdd, if_true, Option.bind_eq_bind, Option.bind_some] at hstart
    obtain ⟨_, -, h⟩ := Option.bind_eq_some_iff.1 hstart
    cases h
    refine ⟨fun hneeds => ?_, fun hwaiting => ?_⟩
    · cases hneeds
    · cases hwaiting
  have hinv := run_stops actions hbegin hlate hrun
  refine ⟨s, hrun, fun hreturned => stopped (hinv.stops ?_) hinv.awake⟩
  cases hat : s.phase with
  | listening => simp [hat, Phase.hasReturned] at hreturned
  | walking fds entry ret => simp [hat, Phase.hasReturned] at hreturned
  | _ => rfl

/-! ## Runs of the server -/

/-- An accept whose connection and whose `cleanup_fd` get these descriptors. -/
def accepts (connFd cleanupFd : Nat) : AcceptSteps :=
  ⟨some connFd, ⟨true, some cleanupFd, true, true⟩⟩

/-- An accept that fails in `accept4`. -/
def acceptFailing : AcceptSteps := ⟨none, ⟨true, none, true, true⟩⟩

/-- The descriptor at an index is readable. -/
def ready (i : Nat) : Nat → Int16 := fun j => if i = j then pollIn else 0

/-- The main thread goes to sleep, and then `accept4` fails. -/
def stranded : List Action :=
  [.main true ⟨true, []⟩, .main true ⟨true, []⟩, .poll (some (ready 1)),
    .handle acceptFailing true, .handle acceptFailing true, .handle acceptFailing true]

/-- A connection arrives, the server is told to stop, and everything is torn down. -/
def served : List Action :=
  [.main true ⟨true, []⟩, .main true ⟨true, []⟩, .poll (some (ready 1)),
    .handle (accepts 5 6) true, .handle (accepts 5 6) true, .handle (accepts 5 6) true,
    .poll (some (ready 0)), .handle acceptFailing true, .handle acceptFailing true,
    .handle acceptFailing true, .handle acceptFailing true, .poll none,
    .main true ⟨true, []⟩, .main true ⟨true, []⟩, .joinMain, .finish 0, .destroyNext,
    .destroyNext]

/-- `server_main` returns after a failed `accept4`; no thread is left that could wake the main
thread, for which `server_destroy` waits. -/
theorem server_main_leaves_main_waiting :
    ∃ start s, initial emptyServer Tcp.noFds 3 4 = some start ∧
      run (fun _ => .ofAscii "") .little start stranded = some s ∧
      s.phase = .returned (-1) ∧ s.shared.dispatch.server.stopping = false ∧
      s.shared.dispatch.main = .waiting false ∧ s.shared.live = [] ∧
      ¬ (s.phase.hasReturned = true →
        Stopped (fun _ => .ofAscii "") .little s.shared.dispatch) :=
  ⟨_, _, rfl, rfl, rfl, rfl, rfl, rfl, fun h => (h rfl).awake rfl⟩

/-- A server that is told to stop and is torn down. -/
theorem orderly_teardown_served :
    ∃ start, initial emptyServer Tcp.noFds 3 4 = some start ∧
      (run (fun _ => .ofAscii "") .little start served).map (fun s => s.shared.joined) =
        some [.client 0, .main] ∧
      ∃ s, run (fun _ => .ofAscii "") .little start served = some s ∧
        TornDown (fun _ => .ofAscii "") .little s :=
  ⟨_, rfl, rfl, orderly_teardown _ _ emptyServer Tcp.noFds 3 4 _ _ rfl rfl⟩

/-- A server that is told to stop while it serves a client. -/
theorem server_main_stops_served :
    ∃ start, initial emptyServer Tcp.noFds 3 4 = some start ∧
      (run (fun _ => .ofAscii "") .little start served).map (fun s => s.phase.hasReturned) =
        some true ∧
      ∃ s, run (fun _ => .ofAscii "") .little start served = some s ∧
        (s.phase.hasReturned = true →
          Stopped (fun _ => .ofAscii "") .little s.shared.dispatch) :=
  ⟨_, rfl, rfl, server_main_stops _ _ emptyServer Tcp.noFds 3 4 _ _ rfl rfl rfl⟩

end Cimple.Lifetime
