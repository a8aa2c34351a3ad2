import Cimple.Lib.Tokens
import Cimple.Server

/-!
# The descriptors of the workers (`server_handle_cmd_new_worker`, `worker_queue.c`)

A worker's descriptor is duplicated by a handler, passes to the worker, with it to the queue, and
from the queue to the main thread or to `server_destroy`, which closes it.

* `NewWorker` — a call of the handler, statement by statement; alone it is
  `serverHandleCmdNewWorker` (`handler_alone`).
* `State`, `Action`, `step`, `run` — any number of calls, the main thread, which holds the mutex
  from the removal of a worker to the end of the assignment, other threads that open and close
  descriptors of their own, and the end of the server.
* `Close` — a descriptor that was closed, with the file that was meant and the file it named.
* `OneOwner` — every duplicated descriptor is closed once, by who owns it.

Principal results: `step_inv`, `run_inv` and `worker_fds_one_owner`.
-/

set_option autoImplicit false

namespace Cimple.WorkerFds

open Octets JsonValue Descriptors Tokens Cimple.RunQueue Cimple.Command Cimple.JsonRpc
  Cimple.Storage Cimple.Servers

/-! ## State -/

/-- Where a call of `server_handle_cmd_new_worker` is, once `file_dup` has returned a descriptor:
before `worker_create`, before `server_enqueue_worker`, at one of its two labels, or over. -/
inductive NewWorker where
  | duped (worker : Worker)
  | created (worker : Worker)
  | destroyWorker (worker : Worker)
  | close (worker : Worker)
  | returned

/-- The call is over. -/
def NewWorker.isOver : NewWorker → Bool
  | .returned => true
  | _ => false

/-- A call of `net_close`. -/
structure Close where
  fd : Nat
  meant : Nat
  named : Option Nat

/-- Before `server_destroy` destroys the queues, while it destroys the workers', and after. -/
inductive Stage where
  | running
  | destroying
  | destroyed
  deriving DecidableEq

/-- The server, the calls of the handler, the assignment of the main thread, the descriptors of
other threads, and what has been duplicated and closed for workers. -/
structure State where
  server : Server
  handlers : List NewWorker
  main : Option (Run × Worker)
  others : List (Nat × Nat)
  stage : Stage
  duped : List Nat
  closes : List Close

/-- A server that has just been created: whatever is open belongs to others. -/
def started (fds : FdTable) (runs : Queue) (db : Db) : State :=
  ⟨⟨false, [], runs, db, fds⟩, [], none, fds.opened, .running, [], []⟩

/-! ## Steps -/

/-- One step of a thread.  `fd` is the descriptor the system comes up with; `ok` is whether the
call succeeds. -/
inductive Action where
  | dup (conn : Nat) (fd : Option Nat)
  | create (i : Nat) (ok : Bool)
  | enqueue (i : Nat) (ok : Bool)
  | cleanup (i : Nat)
  | take
  | assign (env : AssignEnv)
  | enqueueRun (run : Run)
  | setStopping
  | openOther (fd : Nat)
  | closeOther (i : Nat)
  | destroy
  | destroyNext

/-- `server_lock` fails in `server_enqueue_worker`. -/
def Action.lockFails : Action → Bool
  | .enqueue _ ok => !ok
  | _ => false

def State.setHandler (s : State) (i : Nat) (handler : NewWorker) : State :=
  { s with handlers := s.handlers.set i handler }

/-- `net_close` of a worker's descriptor, which `worker_destroy` does as well. -/
def State.closeFd (s : State) (worker : Worker) : State :=
  { s with
    server := workerDestroy worker s.server
    closes := ⟨worker.fd, worker.file, fileOf s.server.fds worker.fd⟩ :: s.closes }

/-- A critical section of another thread; the main thread must not be inside its own. -/
def State.critical (s : State) (change : Server → Server) : State :=
  if s.main.isNone then { s with server := change s.server } else s

variable (toText : Json → CStr) (o : ByteOrder)

/-- A step; an action whose thread cannot move leaves the state as it is. -/
def step (s : State) : Action → State
  | .dup conn fd =>
    match s.stage, fd.bind fun fd => (openFd s.server.fds fd).map fun fds => (fd, fds) with
    | .running, some (fd, fds) =>
      { s with
        server := { s.server with fds }
        handlers := s.handlers ++ [.duped ⟨fd, s.server.fds.next, conn⟩]
        duped := s.server.fds.next :: s.duped }
    | _, _ => s
  | .create i ok =>
    match s.handlers[i]? with
    | some (.duped worker) => s.setHandler i (if ok then .created worker else .close worker)
    | _ => s
  | .enqueue i ok =>
    match s.handlers[i]? with
    | some (.created worker) =>
      if !ok then s.setHandler i (.destroyWorker worker)
      else if s.main.isSome then s
      else { s.setHandler i .returned with server := serverAddWorker s.server worker }
    | _ => s
  | .cleanup i =>
    match s.handlers[i]? with
    -- the label falls through to the next one
    | some (.destroyWorker worker) => (s.closeFd worker).setHandler i (.close worker)
    | some (.close worker) => (s.closeFd worker).setHandler i .returned
    | _ => s
  | .take =>
    match s.stage, s.main, s.server.stopping, runQueueRemoveFirst s.server.runQueue,
      s.server.workerQueue with
    | .running, none, false, some (run, runQueue), worker :: workerQueue =>
      { s with server := { s.server with runQueue, workerQueue }, main := some (run, worker) }
    | _, _, _, _, _ => s
  | .assign env =>
    match s.main with
    | some (run, worker) =>
      let runQueue := if (sendStartRun toText o env run).1 then s.server.runQueue
        else runQueueAddFirst s.server.runQueue run
      { s with server := { s.server with runQueue }, main := none }.closeFd worker
    | none => s
  | .enqueueRun run => s.critical fun server => serverAddRun server run
  | .setStopping => s.critical serverSetStopping
  | .openOther fd =>
    match openFd s.server.fds fd with
    | some fds =>
      { s with server := { s.server with fds }, others := (fd, s.server.fds.next) :: s.others }
    | none => s
  | .closeOther i =>
    match s.others[i]? with
    | some (fd, _) =>
      { s with
        server := { s.server with fds := close s.server.fds fd }
        others := s.others.eraseIdx i }
    | none => s
  | .destroy =>
    -- the threads have been joined
    if s.stage = .running ∧ s.main.isNone ∧ s.handlers.all NewWorker.isOver then
      { s with stage := .destroying }
    else s
  | .destroyNext =>
    match s.stage, s.server.workerQueue with
    | .destroying, [] => { s with stage := .destroyed }
    | .destroying, worker :: workerQueue =>
      { s with server := { s.server with workerQueue } }.closeFd worker
    | _, _ => s

def run (s : State) (actions : List Action) : State := actions.foldl (step toText o) s

variable {toText o}

/-- **A call of the handler that nobody interrupts is `server_handle_cmd_new_worker`.** -/
theorem handler_alone (env : HandlerEnv) (request : JsonrpcRequest) (conn : Nat) {s : State}
    (hstage : s.stage = .running) (hmain : s.main = none) (hhandlers : s.handlers = []) :
    (run toText o s [.dup conn env.dup, .create 0 env.workerOk, .enqueue 0 env.lockOk, .cleanup 0,
      .cleanup 0]).server = (serverHandleCmdNewWorker env request conn s.server).state := by
  have hfail : (-1 : Int32) < 0 := by decide
  have hzero : ¬ (0 : Int32) < 0 := by decide
  simp only [run, List.foldl_cons, List.foldl_nil, serverHandleCmdNewWorker, step, hstage]
  cases env.dup.bind fun fd => (openFd s.server.fds fd).map fun fds => (fd, fds) with
  | none => simp [hhandlers]
  | some r =>
    cases hworker : env.workerOk with
    | false => simp [hhandlers, State.setHandler, State.closeFd, workerDestroy]
    | true =>
      cases hlock : env.lockOk with
      | false =>
        simp [hhandlers, State.setHandler, State.closeFd, workerDestroy, serverEnqueueWorker, hlock,
          hfail]
      | true =>
        simp [hhandlers, State.setHandler, hmain, serverEnqueueWorker, hlock, hzero]

/-- **An assignment that nobody interrupts is `server_assign_run`.** -/
theorem assign_alone (env : AssignEnv) {s : State} (hstage : s.stage = .running)
    (hmain : s.main = none) (hstopping : s.server.stopping = false) {server : Server}
    {a : Assignment} (h : serverAssignRun toText o env s.server = some (server, a)) :
    (run toText o s [.take, .assign env]).server = server := by
  simp only [serverAssignRun] at h
  split at h
  · rename_i run runQueue worker workerQueue hruns hworkers
    cases h
    simp [WorkerFds.run, step, hstage, hmain, hstopping, hruns, hworkers, State.closeFd,
      workerDestroy]
  · cases h

/-! ## The contract -/

/-- **Every duplicated descriptor has one owner**: it is closed once at most, and not while its
worker is queued; who closes a number closes the file that was meant; and in the end every one
has been closed. -/
structure OneOwner (s : State) : Prop where
  once : ∀ file ∈ s.duped, (s.closes.map Close.meant).count file ≤ 1
  queued : ∀ worker ∈ s.server.workerQueue, (worker.fd, worker.file) ∈ s.server.fds.opened ∧
    worker.file ∉ s.closes.map Close.meant
  owned : ∀ c ∈ s.closes, c.named = some c.meant
  finished : s.stage = .destroyed →
    ∀ file ∈ s.duped, (s.closes.map Close.meant).count file = 1

/-! ## The invariant -/

/-- A worker's descriptor and its file. -/
def entry (worker : Worker) : Nat × Nat := (worker.fd, worker.file)

/-- The descriptor a call of the handler has to see to. -/
def NewWorker.holds : NewWorker → Option (Nat × Nat)
  | .duped worker | .created worker | .destroyWorker worker | .close worker => some (entry worker)
  | .returned => none

/-- The descriptors that are held for workers. -/
def State.held (s : State) : List (Nat × Nat) :=
  s.server.workerQueue.map entry ++ Tokens.held NewWorker.holds s.handlers ++
    s.main.toList.map fun m => entry m.2

/-- The invariant, as long as `server_lock` does not fail in `server_enqueue_worker`: what is
held is open, and what has been duplicated is held or has been closed. -/
structure Inv (s : State) : Prop where
  owned : Owned s.server.fds (s.held ++ s.others)
  ledger : ∀ file, s.duped.count file =
    (s.held.map Prod.snd).count file + (s.closes.map Close.meant).count file
  distinct : s.duped.Nodup
  bound : ∀ file ∈ s.duped, file < s.server.fds.next
  right : ∀ c ∈ s.closes, c.named = some c.meant
  locks : ∀ worker, .destroyWorker worker ∉ s.handlers
  joined : s.stage ≠ .running → s.handlers.all NewWorker.isOver = true ∧ s.main = none
  destroyed : s.stage = .destroyed → s.server.workerQueue = []

variable {s s' : State}

theorem Inv.move (h : Inv s) (hfds : s'.server.fds = s.server.fds) (hothers : s'.others = s.others)
    (hduped : s'.duped = s.duped) (hcloses : s'.closes = s.closes)
    (hheld : ∀ t, s'.held.count t = s.held.count t)
    (hlocks : ∀ worker, .destroyWorker worker ∉ s'.handlers)
    (hjoined : s'.stage ≠ .running → s'.handlers.all NewWorker.isOver = true ∧ s'.main = none)
    (hdestroyed : s'.stage = .destroyed → s'.server.workerQueue = []) : Inv s' := by
  have hperm : s.held.Perm s'.held := List.perm_iff_count.2 fun t => (hheld t).symm
  refine ⟨?_, fun file => ?_, by rw [hduped]; exact h.distinct, ?_, by rw [hcloses]; exact h.right,
    hlocks, hjoined, hdestroyed⟩
  · rw [hfds, hothers]
    exact h.owned.perm (hperm.append_right _)
  · rw [hduped, hcloses, ← (hperm.map Prod.snd).count_eq]
    exact h.ledger file
  · rw [hduped, hfds]
    exact h.bound

/-- A descriptor that is held is closed. -/
theorem Inv.closeFd (h : Inv s) {worker : Worker} {held : List (Nat × Nat)}
    (hheld : s.held.Perm (entry worker :: held))
    (hfds : s'.server.fds = close s.server.fds worker.fd) (hothers : s'.others = s.others)
    (hduped : s'.duped = s.duped)
    (hcloses : s'.closes = ⟨worker.fd, worker.file, fileOf s.server.fds worker.fd⟩ :: s.closes)
    (hheld' : s'.held.Perm held) (hlocks : ∀ worker, .destroyWorker worker ∉ s'.handlers)
    (hjoined : s'.stage ≠ .running → s'.handlers.all NewWorker.isOver = true ∧ s'.main = none)
    (hdestroyed : s'.stage = .destroyed → s'.server.workerQueue = []) : Inv s' := by
  have howned := h.owned.perm (hheld.append_right s.others)
  have hopen : entry worker ∈ s.server.fds.opened := howned.opened _ List.mem_cons_self
  refine ⟨?_, fun file => ?_, by rw [hduped]; exact h.distinct, ?_, ?_, hlocks, hjoined,
    hdestroyed⟩
  · rw [hfds, hothers]
    exact Owned.perm howned.close (hheld'.symm.append_right _)
  · have hledger := h.ledger file
    rw [(hheld.map Prod.snd).count_eq, List.map_cons, List.count_cons] at hledger
    rw [hduped, hcloses, (hheld'.map Prod.snd).count_eq, List.map_cons, List.count_cons, hledger,
      Nat.add_right_comm, Nat.add_assoc]
    rfl
  · rw [hduped, hfds, close_next]
    exact h.bound
  · rw [hcloses]
    intro c hc
    rcases List.mem_cons.1 hc with rfl | hc
    · exact fileOf_of_mem hopen
    · exact h.right c hc

theorem Inv.setHandler (h : Inv s) {i : Nat} {old new : NewWorker} (hi : s.handlers[i]? = some old)
    (hholds : new.holds = old.holds) (hold : old.isOver = false)
    (hnew : ∀ worker, new ≠ .destroyWorker worker) : Inv (s.setHandler i new) := by
  -- a call that is not over has not been joined
  have hrunning : s.stage = .running := by
    by_contra hnot
    have hover := List.all_eq_true.1 (h.joined hnot).1 old (List.mem_of_getElem? hi)
    rw [hold] at hover
    cases hover
  refine h.move rfl rfl rfl rfl (fun t => ?_) ?_ (fun hnot => absurd hrunning hnot)
    (fun hdone => by rw [State.setHandler, hrunning] at hdone; cases hdone)
  · have hcount := (held_set_perm NewWorker.holds hi new).count_eq t
    rw [hholds, List.count_append, List.count_append] at hcount
    simp only [State.held, State.setHandler, List.count_append]
    omega
  · intro worker hmem
    rcases List.mem_or_eq_of_mem_set hmem with hmem | heq
    · exact h.locks worker hmem
    · exact hnew worker heq.symm

theorem Inv.setReturned (h : Inv s) {i : Nat} {old : NewWorker} (hi : s.handlers[i]? = some old)
    {worker : Worker} (hholds : old.holds = some (entry worker)) :
    s.stage = .running ∧ (∀ worker, .destroyWorker worker ∉ s.handlers.set i .returned) ∧
      ∀ t, (Tokens.held NewWorker.holds s.handlers).count t =
        (Tokens.held NewWorker.holds (s.handlers.set i .returned)).count t +
          [entry worker].count t := by
  refine ⟨?_, fun w hmem => ?_, fun t => ?_⟩
  · by_contra hnot
    have hover := List.all_eq_true.1 (h.joined hnot).1 old (List.mem_of_getElem? hi)
    cases old with
    | returned => cases hholds
    | _ => cases hover
  · rcases List.mem_or_eq_of_mem_set hmem with hmem | heq
    · exact h.locks w hmem
    · cases heq
  · have hcount := (held_set_perm NewWorker.holds hi .returned).count_eq t
    rw [hholds, List.count_append] at hcount
    simpa [NewWorker.holds] using hcount.symm

/-- A new descriptor is held by the call that has made it. -/
theorem dup_inv (h : Inv s) (conn : Nat) (fd : Option Nat) :
    Inv (step toText o s (.dup conn fd)) := by
  simp only [step]
  split
  · rename_i fd fds hstage hdup
    obtain ⟨fd', -, hopen⟩ := Option.bind_eq_some_iff.1 hdup
    obtain ⟨fds', hopen, heq⟩ := Option.map_eq_some_iff.1 hopen
    cases heq
    have howned := h.owned.openFd hopen
    refine ⟨howned.perm ?_, fun file => ?_, ?_, ?_, h.right, ?_,
      fun hnot => absurd hstage hnot, fun hdone => absurd (hstage.symm.trans hdone) (by simp)⟩
    · refine List.perm_iff_count.2 fun t => ?_
      simp only [State.held, List.count_append, List.count_cons, held_append, held_singleton,
        NewWorker.holds, entry, Option.toList_some, List.count_nil]
      omega
    · have hledger := h.ledger file
      simp only [State.held, List.map_append, List.count_append, List.count_cons, held_append,
        held_singleton, NewWorker.holds, entry, Option.toList_some, List.map_cons, List.map_nil,
        List.count_nil] at hledger ⊢
      omega
    · exact List.nodup_cons.2 ⟨fun hmem => Nat.lt_irrefl _ (h.bound _ hmem), h.distinct⟩
    · intro file hfile
      show file < fds.next
      rw [openFd_next hopen]
      rcases List.mem_cons.1 hfile with rfl | hfile
      · exact Nat.lt_succ_self _
      · exact Nat.lt_succ_of_lt (h.bound file hfile)
    · intro worker hmem
      rcases List.mem_append.1 hmem with hmem | hmem
      · exact h.locks worker hmem
      · cases List.mem_singleton.1 hmem
  · exact h

theorem create_inv (h : Inv s) (i : Nat) (ok : Bool) : Inv (step toText o s (.create i ok)) := by
  simp only [step]
  split
  · rename_i worker hi
    cases ok with
    | true => exact h.setHandler hi rfl rfl (fun _ => by simp)
    | false => exact h.setHandler hi rfl rfl (fun _ => by simp)
  · exact h

theorem enqueue_inv (h : Inv s) (i : Nat) : Inv (step toText o s (.enqueue i true)) := by
  simp only [step, Bool.not_true, Bool.false_eq_true, if_false]
  split
  · rename_i worker hi
    split
    · exact h
    · obtain ⟨hrunning, hlocks, hcount⟩ := h.setReturned hi rfl
      refine h.move rfl rfl rfl rfl (fun t => ?_) hlocks (fun hnot => absurd hrunning hnot)
        (fun hdone => absurd (hrunning.symm.trans hdone) (by simp))
      have := hcount t
      simp only [State.held, State.setHandler, serverAddWorker, List.map_append, List.map_cons,
        List.map_nil, List.count_append]
      omega
  · exact h

theorem cleanup_inv (h : Inv s) (i : Nat) : Inv (step toText o s (.cleanup i)) := by
  simp only [step]
  split
  · rename_i worker hi
    exact absurd (List.mem_of_getElem? hi) (h.locks worker)
  · rename_i worker hi
    obtain ⟨hrunning, hlocks, hcount⟩ := h.setReturned hi rfl
    refine h.closeFd (List.perm_iff_count.2 fun t => ?_) rfl rfl rfl rfl (.refl _) hlocks
      (fun hnot => absurd hrunning hnot)
      (fun hdone => absurd (hrunning.symm.trans hdone) (by simp))
    have := hcount t
    simp only [State.held, State.setHandler, State.closeFd, workerDestroy, List.count_append,
      List.count_cons, List.count_nil] at this ⊢
    omega
  · exact h

theorem take_inv (h : Inv s) : Inv (step toText o s .take) := by
  simp only [step]
  split
  · rename_i run runQueue worker workerQueue hstage hmain hstopping hruns hworkers
    refine h.move rfl rfl rfl rfl (fun t => ?_) h.locks (fun hnot => absurd hstage hnot)
      (fun hdone => absurd (hstage.symm.trans hdone) (by simp))
    simp only [State.held, hworkers, hmain, List.map_cons, List.count_append, List.count_cons,
      Option.toList_some, Option.toList_none, List.map_nil, List.count_nil]
    omega
  · exact h

theorem assign_inv (h : Inv s) (env : AssignEnv) : Inv (step toText o s (.assign env)) := by
  simp only [step]
  split
  · rename_i run worker hmain
    have hrunning : s.stage = .running := by
      by_contra hnot
      rw [(h.joined hnot).2] at hmain
      cases hmain
    refine h.closeFd (List.perm_iff_count.2 fun t => ?_) rfl rfl rfl rfl (.refl _) h.locks
      (fun hnot => absurd hrunning hnot)
      (fun hdone => absurd (hrunning.symm.trans hdone) (by simp))
    simp only [State.held, State.closeFd, workerDestroy, hmain, List.count_append,
      List.count_cons, Option.toList_some, Option.toList_none, List.map_cons, List.map_nil,
      List.count_nil]
    omega
  · exact h

theorem openOther_inv (h : Inv s) (fd : Nat) : Inv (step toText o s (.openOther fd)) := by
  simp only [step]
  split
  · rename_i fds hopen
    have howned := h.owned.openFd hopen
    refine ⟨howned.perm List.perm_middle.symm, h.ledger, h.distinct, fun file hfile => ?_,
      h.right, h.locks, h.joined, h.destroyed⟩
    show file < fds.next
    rw [openFd_next hopen]
    exact Nat.lt_succ_of_lt (h.bound file hfile)
  · exact h

theorem closeOther_inv (h : Inv s) (i : Nat) : Inv (step toText o s (.closeOther i)) := by
  simp only [step]
  split
  · rename_i fd file hi
    obtain ⟨before, after, hsplit, rfl⟩ := split_getElem? hi
    have howned : Owned s.server.fds ((fd, file) :: (s.held ++ (before ++ after))) := by
      refine h.owned.perm (List.perm_iff_count.2 fun t => ?_)
      simp only [hsplit, List.count_append, List.count_cons, List.count_nil]
      omega
    refine ⟨?_, h.ledger, h.distinct, ?_, h.right, h.locks, h.joined, h.destroyed⟩
    · have herase : s.others.eraseIdx before.length = before ++ after := by
        simp [hsplit, List.eraseIdx_append_of_length_le]
      rw [herase]
      exact howned.close
    · simpa using h.bound
  · exact h

theorem destroyNext_inv (h : Inv s) : Inv (step toText o s .destroyNext) := by
  simp only [step]
  split
  · rename_i hstage hworkers
    exact h.move rfl rfl rfl rfl (fun _ => rfl) h.locks
      (fun _ => h.joined (by simp [hstage])) (fun _ => hworkers)
  · rename_i worker workerQueue hstage hworkers
    refine h.closeFd (List.perm_iff_count.2 fun t => ?_) rfl rfl rfl rfl (.refl _) h.locks
      (fun _ => h.joined (by simp [hstage]))
      (fun hdone => absurd (hstage.symm.trans hdone) (by simp))
    simp only [State.held, State.closeFd, workerDestroy, hworkers, List.map_cons,
      List.count_append, List.count_cons]
    omega
  · exact h

/-- **A step in which `server_lock` does not fail in `server_enqueue_worker` keeps the
invariant.** -/
theorem step_inv (h : Inv s) {action : Action} (hlock : action.lockFails = false) :
    Inv (step toText o s action) := by
  cases action with
  | dup conn fd => exact dup_inv h conn fd
  | create i ok => exact create_inv h i ok
  | enqueue i ok =>
    obtain rfl : ok = true := by simpa [Action.lockFails] using hlock
    exact enqueue_inv h i
  | cleanup i => exact cleanup_inv h i
  | take => exact take_inv h
  | assign env => exact assign_inv h env
  | enqueueRun run =>
    simp only [step, State.critical]
    split
    · exact h.move rfl rfl rfl rfl (fun _ => rfl) h.locks h.joined h.destroyed
    · exact h
  | setStopping =>
    simp only [step, State.critical]
    split
    · exact h.move rfl rfl rfl rfl (fun _ => rfl) h.locks h.joined h.destroyed
    · exact h
  | openOther fd => exact openOther_inv h fd
  | closeOther i => exact closeOther_inv h i
  | destroy =>
    simp only [step]
    split
    · rename_i hjoined
      exact h.move rfl rfl rfl rfl (fun _ => rfl) h.locks
        (fun _ => ⟨hjoined.2.2, Option.isNone_iff_eq_none.1 hjoined.2.1⟩)
        (fun hdone => by cases hdone)
    · exact h
  | destroyNext => exact destroyNext_inv h

/-- **A run in which `server_lock` does not fail in `server_enqueue_worker` keeps the
invariant.** -/
theorem run_inv (actions : List Action) (hlocks : ∀ action ∈ actions, action.lockFails = false)
    (h : Inv s) : Inv (run toText o s actions) :=
  List.foldlRecOn actions _ h fun _ h action haction => step_inv h (hlocks action haction)

theorem started_inv (fds : FdTable) (runs : Queue) (db : Db) : Inv (started fds runs db) :=
  ⟨owned_opened fds, fun _ => rfl, List.nodup_nil, fun _ h => absurd h List.not_mem_nil,
    fun _ h => absurd h List.not_mem_nil, fun _ => List.not_mem_nil, fun h => absurd rfl h,
    fun _ => rfl⟩

/-- The invariant is the contract. -/
theorem Inv.oneOwner (h : Inv s) : OneOwner s := by
  have hone : ∀ file ∈ s.duped, (s.held.map Prod.snd).count file +
      (s.closes.map Close.meant).count file = 1 := by
    intro file hfile
    rw [← h.ledger file]
    exact List.count_eq_one_of_mem h.distinct hfile
  refine ⟨fun file hfile => ?_, fun worker hworker => ?_, h.right, fun hdone file hfile => ?_⟩
  · have := hone file hfile
    omega
  · have hmem : entry worker ∈ s.held := by
      simp only [State.held, List.mem_append]
      exact .inl (.inl (List.mem_map_of_mem hworker))
    have hheld : 0 < (s.held.map Prod.snd).count worker.file :=
      List.count_pos_iff.2 (List.mem_map_of_mem hmem)
    have hduped : worker.file ∈ s.duped := by
      rw [← List.count_pos_iff, h.ledger]
      omega
    refine ⟨h.owned.opened _ (List.mem_append_left _ hmem), fun hclosed => ?_⟩
    have hcount := List.count_pos_iff.2 hclosed
    have := hone worker.file hduped
    omega
  · -- nobody holds anything any more
    obtain ⟨hover, hmain⟩ := h.joined (by rw [hdone]; decide)
    have hhandlers : Tokens.held NewWorker.holds s.handlers = [] := by
      refine List.filterMap_eq_nil_iff.2 fun handler hhandler => ?_
      have hisOver := List.all_eq_true.1 hover handler hhandler
      cases handler with
      | returned => rfl
      | _ => cases hisOver
    have hnone : s.held = [] := by
      rw [State.held, h.destroyed hdone, hhandlers, hmain]
      rfl
    have := hone file hfile
    rw [hnone, List.map_nil, List.count_nil] at this
    omega

/-- **Every duplicated descriptor has one owner**, in every run in which `server_lock` does not
fail in `server_enqueue_worker`. -/
theorem worker_fds_one_owner (toText : Json → CStr) (o : ByteOrder) (fds : FdTable) (runs : Queue)
    (db : Db) (actions : List Action)
    (hlocks : ∀ action ∈ actions, action.lockFails = false) :
    OneOwner (run toText o (started fds runs db) actions) :=
  (run_inv actions hlocks (started_inv fds runs db)).oneOwner

/-- A call whose `server_lock` fails, while another thread gets the descriptor that the first
label has closed. -/
def closedTwice : List Action :=
  [.dup 4 (some 7), .create 0 true, .enqueue 0 false, .cleanup 0, .openOther 7, .cleanup 0]

/-- The server after that. -/
def serverClosedTwice : State :=
  run (fun _ => .ofAscii "") .little (started emptyServer.fds [] v01) closedTwice

/-- Both labels close the descriptor; the second time it is another thread's. -/
theorem worker_fd_closed_twice :
    serverClosedTwice.closes.map Close.meant = [0, 0] ∧
      serverClosedTwice.closes.map Close.named = [some 1, some 0] ∧
      serverClosedTwice.others = [(7, 1)] ∧ serverClosedTwice.server.fds.opened = [] ∧
      ¬ OneOwner serverClosedTwice := by
  refine ⟨rfl, rfl, rfl, rfl, fun h => ?_⟩
  exact absurd (h.once 0 (List.mem_singleton_self 0)) (by decide)

/-- One worker gets a run, a second one is left in the queue when the server is destroyed. -/
theorem worker_fds_closed_once :
    OneOwner (run (fun _ => .ofAscii "") .little
      (started emptyServer.fds [runQueued (.ofAscii "repo") (.ofAscii "HEAD")] v01)
      [.dup 4 (some 7), .create 0 true, .enqueue 0 true, .take, .dup 5 (some 8), .create 1 true,
        .assign ⟨true, []⟩, .enqueue 1 true, .destroy, .destroyNext, .destroyNext]) :=
  worker_fds_one_owner _ _ _ _ _ _ (by decide)

end Cimple.WorkerFds
