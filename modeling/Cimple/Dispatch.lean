import Cimple.Lib.Runs
import Cimple.Server

/-!
# The main thread and its mutex (`server_main_thread`)

Client threads and the signal handler enter critical sections under `server_mtx`; the main
thread holds the mutex from one wait on `server_cv` to the next, and assigns runs while it does.

* `MainThread` — where the main thread is; `Dispatch` — the server, the main thread, what has
  been assigned and what has been enqueued.
* `Action`, `step`, `run` — every order of critical sections, wake-ups and assignments; an
  action whose thread cannot move leaves the state as it is.
* `sentRuns` — the runs whose `start-run` frame has been sent completely.

Principal results: `dispatch_conserves` (runs are neither lost, duplicated nor reordered) and
`no_lost_wakeup` (the main thread does not sleep while there is something to do, and touches the
queues only when it may).
-/

set_option autoImplicit false

namespace Cimple.Dispatching

open Octets JsonValue Cimple.RunQueue Cimple.Servers

/-! ## State -/

/-- Where the main thread is: before it has locked the mutex; in the loop, with the mutex
locked; in `pthread_cond_wait`, with or without a signal for it; or returned. -/
inductive MainThread where
  | start
  | locked
  | waiting (signalled : Bool)
  | exited
  deriving DecidableEq

/-- The threads' shared state, the assignments so far and the runs enqueued so far, each in
order. -/
structure Dispatch where
  server : Server
  main : MainThread
  assigned : List Assignment
  enqueued : List Run

/-- The mutex is not locked. -/
def Dispatch.mutexFree (d : Dispatch) : Bool := d.main ≠ .locked

/-- `server_notify`: a signal is for a thread that waits. -/
def serverNotify : MainThread → MainThread
  | .waiting _ => .waiting true
  | main => main

/-! ## Steps -/

/-- One step of a thread: a critical section of another thread, or a step of the main thread.
`ok` is whether `pthread_mutex_lock`, or `pthread_cond_wait`, succeeds. -/
inductive Action where
  | enqueueWorker (worker : Worker)
  | enqueueRun (run : Run)
  | setStopping
  | main (ok : Bool) (env : AssignEnv)

variable (toText : Json → CStr) (o : ByteOrder)

/-- A critical section of another thread, ending with `server_notify`. -/
def Dispatch.critical (d : Dispatch) (change : Server → Server) : Dispatch :=
  if d.mutexFree then { d with server := change d.server, main := serverNotify d.main } else d

/-- A step of `server_main_thread`. -/
def Dispatch.mainStep (d : Dispatch) (ok : Bool) (env : AssignEnv) : Option Dispatch :=
  match d.main with
  | .start => some { d with main := if ok then .locked else .exited }
  | .waiting _ => some { d with main := .locked }
  | .exited => some d
  | .locked =>
    if !serverReadyForAction d.server then
      some { d with main := if ok then .waiting false else .exited }
    else if d.server.stopping then some { d with main := .exited }
    else do
      let (server, assignment) ← serverAssignRun toText o env d.server
      some { d with server, assigned := d.assigned ++ [assignment] }

/-- A step; `none` is undefined behaviour. -/
def step (d : Dispatch) : Action → Option Dispatch
  | .enqueueWorker worker => some (d.critical fun server => serverAddWorker server worker)
  | .enqueueRun run =>
    let d' := d.critical fun server => serverAddRun server run
    some { d' with enqueued := if d.mutexFree then d.enqueued ++ [run] else d.enqueued }
  | .setStopping => some (d.critical serverSetStopping)
  | .main ok env => d.mainStep toText o ok env

def run (d : Dispatch) (actions : List Action) : Option Dispatch := actions.foldlM (step toText o) d

/-- The server after `server_create`: the main thread has not locked the mutex yet. -/
def started (server : Server) : Dispatch := ⟨server, .start, [], []⟩

/-- The runs whose `start-run` frame was sent completely, in sending order. -/
def sentRuns (assigned : List Assignment) : List Run :=
  (assigned.filter fun a => a.bytes = startRunFrame toText a.run).map Assignment.run

/-! ## Conservation -/

/-- The runs sent and the runs queued are the runs loaded and the runs enqueued. -/
def Conserved (loaded : Queue) (d : Dispatch) : Prop :=
  sentRuns toText d.assigned ++ d.server.runQueue = loaded ++ d.enqueued

variable {toText o}

/-- **An assignment moves the first run from the queue to the sent ones, or moves nothing.** -/
theorem serverAssignRun_spec (toText : Json → CStr) (o : ByteOrder) (env : AssignEnv)
    {server : Server}
    (hruns : server.runQueue ≠ []) (hworkers : server.workerQueue ≠ []) :
    ∃ server' a, serverAssignRun toText o env server = some (server', a) ∧
      sentRuns toText [a] ++ server'.runQueue = server.runQueue := by
  obtain ⟨run, runs, hruns⟩ := List.exists_cons_of_ne_nil hruns
  obtain ⟨worker, workers, hworkers⟩ := List.exists_cons_of_ne_nil hworkers
  have hsent := sendStartRun_spec toText o env run
  simp only [serverAssignRun, hruns, runQueueRemoveFirst, hworkers]
  refine ⟨_, _, rfl, ?_⟩
  simp only [workerDestroy, sentRuns, List.filter_cons, List.filter_nil]
  cases hok : (sendStartRun toText o env run).1 with
  | true => simp [hsent.1 hok]
  | false =>
    have hne : ¬ (sendStartRun toText o env run).2 = startRunFrame toText run := fun h => by
      rw [hsent.2 h] at hok
      cases hok
    simp [hne, runQueueAddFirst]

theorem serverAssignRun_some (toText : Json → CStr) (o : ByteOrder) (env : AssignEnv)
    {server : Server} (hruns : server.runQueue ≠ []) (hworkers : server.workerQueue ≠ []) :
    ∃ r, serverAssignRun toText o env server = some r := by
  obtain ⟨server', a, hassign, -⟩ := serverAssignRun_spec toText o env hruns hworkers
  exact ⟨_, hassign⟩

theorem ready_queues {server : Server} (hready : serverReadyForAction server = true)
    (hstopping : server.stopping = false) :
    server.runQueue ≠ [] ∧ server.workerQueue ≠ [] := by
  simpa [serverReadyForAction, runQueueIsEmpty, hstopping] using hready

theorem mainStep_some (toText : Json → CStr) (o : ByteOrder) (d : Dispatch) (ok : Bool)
    (env : AssignEnv) : ∃ d', step toText o d (.main ok env) = some d' := by
  simp only [step, Dispatch.mainStep]
  split
  · exact ⟨_, rfl⟩
  · exact ⟨_, rfl⟩
  · exact ⟨_, rfl⟩
  · split
    · exact ⟨_, rfl⟩
    · rename_i hready
      split
      · exact ⟨_, rfl⟩
      · rename_i hstopping
        obtain ⟨hruns, hworkers⟩ := ready_queues (by simpa using hready) (by simpa using hstopping)
        obtain ⟨⟨server', a⟩, hassign⟩ := serverAssignRun_some toText o env hruns hworkers
        exact ⟨_, by simp only [hassign]; rfl⟩

/-- **What a step of the main thread can do**: it moves on without touching the server, and goes
to sleep only if there is nothing to do; or it enters `server_assign_run`, which it does only
while it is not stopping and there is something in both queues. -/
theorem mainStep_cases {d d' : Dispatch} {ok : Bool} {env : AssignEnv}
    (h : step toText o d (.main ok env) = some d') :
    (d'.server = d.server ∧ d'.assigned = d.assigned ∧ d'.enqueued = d.enqueued ∧
      (d'.main = .waiting false → serverReadyForAction d.server = false)) ∨
    (d.main = .locked ∧ d'.main = .locked ∧ d.server.stopping = false ∧
      d.server.runQueue ≠ [] ∧ d.server.workerQueue ≠ [] ∧ d'.enqueued = d.enqueued ∧
      ∃ a, serverAssignRun toText o env d.server = some (d'.server, a) ∧
        d'.assigned = d.assigned ++ [a]) := by
  simp only [step, Dispatch.mainStep] at h
  split at h
  · cases h
    refine .inl ⟨rfl, rfl, rfl, fun hmain => ?_⟩
    cases ok <;> cases hmain
  · cases h
    exact .inl ⟨rfl, rfl, rfl, fun hmain => by cases hmain⟩
  · rename_i hexited
    cases h
    exact .inl ⟨rfl, rfl, rfl, fun hmain => by rw [hexited] at hmain; cases hmain⟩
  · rename_i hlocked
    split at h
    · rename_i hready
      cases h
      exact .inl ⟨rfl, rfl, rfl, fun _ => by simpa using hready⟩
    · rename_i hready
      split at h
      · cases h
        exact .inl ⟨rfl, rfl, rfl, fun hmain => by cases hmain⟩
      · rename_i hstopping
        obtain ⟨⟨server, a⟩, hassign, h⟩ := Option.bind_eq_some_iff.1 h
        cases h
        obtain ⟨hruns, hworkers⟩ := ready_queues (by simpa using hready) (by simpa using hstopping)
        exact .inr ⟨hlocked, hlocked, by simpa using hstopping, hruns, hworkers, rfl, a, hassign,
          rfl⟩

theorem step_conserved {loaded : Queue} {d : Dispatch} (h : Conserved toText loaded d)
    (action : Action) :
    ∃ d', step toText o d action = some d' ∧ Conserved toText loaded d' := by
  unfold Conserved at h
  cases action with
  | enqueueWorker worker =>
    refine ⟨_, rfl, ?_⟩
    cases hfree : d.mutexFree <;> simp [Conserved, Dispatch.critical, hfree, serverAddWorker, h]
  | enqueueRun run =>
    refine ⟨_, rfl, ?_⟩
    cases hfree : d.mutexFree with
    | false => simp [Conserved, Dispatch.critical, hfree, h]
    | true =>
      simp only [Conserved, Dispatch.critical, hfree, if_true, serverAddRun, runQueueAddLast]
      rw [← List.append_assoc, h, List.append_assoc]
  | setStopping =>
    refine ⟨_, rfl, ?_⟩
    cases hfree : d.mutexFree <;> simp [Conserved, Dispatch.critical, hfree, serverSetStopping, h]
  | main ok env =>
    obtain ⟨d', hstep⟩ := mainStep_some toText o d ok env
    refine ⟨d', hstep, ?_⟩
    rcases mainStep_cases hstep with ⟨hserver, hassigned, henqueued, -⟩ |
      ⟨-, -, -, hruns, hworkers, henqueued, a, hassign, hassigned⟩
    · rw [Conserved, hserver, hassigned, henqueued]
      exact h
    · obtain ⟨server', a', hassign', hmoved⟩ := serverAssignRun_spec toText o env hruns hworkers
      rw [hassign'] at hassign
      cases hassign
      have hsplit : sentRuns toText (d.assigned ++ [a]) =
          sentRuns toText d.assigned ++ sentRuns toText [a] := by
        simp [sentRuns, List.filter_append]
      rw [Conserved, hassigned, henqueued, hsplit, List.append_assoc, hmoved, h]

theorem enqueueRun_frame {d d' : Dispatch} {run : Run} (hfree : d.mutexFree = true)
    (h : step toText o d (.enqueueRun run) = some d') :
    d'.server.db = d.server.db ∧ d'.assigned = d.assigned ∧ d'.enqueued = d.enqueued ++ [run] := by
  simp only [step, Dispatch.critical, hfree, if_true, Option.some.injEq] at h
  subst h
  exact ⟨rfl, rfl, rfl⟩

theorem setStopping_frame {d d' : Dispatch} (h : step toText o d .setStopping = some d') :
    d'.server.db = d.server.db ∧ d'.assigned = d.assigned ∧ d'.enqueued = d.enqueued := by
  simp only [step, Dispatch.critical, Option.some.injEq] at h
  subst h
  split <;> exact ⟨rfl, rfl, rfl⟩

theorem mainStep_frame {d d' : Dispatch} {ok : Bool} {env : AssignEnv}
    (h : step toText o d (.main ok env) = some d') :
    d'.server.db = d.server.db ∧ d'.enqueued = d.enqueued ∧
      ∃ assigned, d'.assigned = d.assigned ++ assigned := by
  rcases mainStep_cases h with ⟨hserver, hassigned, henqueued, -⟩ |
    ⟨-, -, -, -, -, henqueued, a, hassign, hassigned⟩
  · exact ⟨by rw [hserver], henqueued, [], by rw [hassigned, List.append_nil]⟩
  · refine ⟨?_, henqueued, [a], hassigned⟩
    simp only [serverAssignRun] at hassign
    split at hassign
    · simp only [Option.some.injEq, Prod.mk.injEq] at hassign
      rw [← hassign.1]
      rfl
    · cases hassign

theorem run_conserved {loaded : Queue} (actions : List Action) :
    ∀ {d : Dispatch}, Conserved toText loaded d →
      ∃ d', run toText o d actions = some d' ∧ Conserved toText loaded d' :=
  Runs.foldlM_some fun _ h action _ => step_conserved h action

/-- **Dispatch neither loses, duplicates nor reorders runs.**  For every order of critical
sections and steps of the main thread, and however requests fail to be made or to be sent,
whenever the mutex is free the runs sent completely, followed by the queue, are the queue loaded
at the start followed by the runs enqueued. -/
theorem dispatch_conserves (toText : Json → CStr) (o : ByteOrder) (server : Server)
    (actions : List Action) :
    ∃ d, run toText o (started server) actions = some d ∧
      (d.mutexFree = true → sentRuns toText d.assigned ++ d.server.runQueue =
        server.runQueue ++ d.enqueued) := by
  have hstart : Conserved toText server.runQueue (started server) := by
    simp [Conserved, started, sentRuns]
  obtain ⟨d, hrun, h⟩ := run_conserved (o := o) actions hstart
  exact ⟨d, hrun, fun _ => h⟩

/-! ## Wake-ups -/

/-- The main thread sleeps without a signal only while there is nothing for it to do. -/
def Awake (d : Dispatch) : Prop :=
  d.main = .waiting false → serverReadyForAction d.server = false

theorem serverNotify_signalled (main : MainThread) : serverNotify main ≠ .waiting false := by
  cases main <;> simp [serverNotify]

theorem critical_awake {d : Dispatch} (h : Awake d) (change : Server → Server) :
    Awake (d.critical change) := by
  unfold Dispatch.critical
  split
  · exact fun hmain => absurd hmain (serverNotify_signalled d.main)
  · exact h

/-- **No step loses a wake-up.** -/
theorem step_awake {d d' : Dispatch} {action : Action} (h : Awake d)
    (hstep : step toText o d action = some d') : Awake d' := by
  cases action with
  | enqueueWorker worker =>
    cases hstep
    exact critical_awake h _
  | enqueueRun run =>
    cases hstep
    exact critical_awake h _
  | setStopping =>
    cases hstep
    exact critical_awake h _
  | main ok env =>
    rcases mainStep_cases hstep with ⟨hserver, -, -, hready⟩ | ⟨-, hlocked, -⟩
    · intro hmain
      rw [hserver]
      exact hready hmain
    · intro hmain
      rw [hlocked] at hmain
      cases hmain

theorem run_awake (actions : List Action) :
    ∀ {d d' : Dispatch}, Awake d → run toText o d actions = some d' → Awake d' :=
  Runs.foldlM_invariant fun _ _ h _ _ => step_awake h

/-- **What a step can do once the server is stopping**: it may enqueue, but assigns nothing. -/
theorem step_stopping {d d' : Dispatch} {action : Action} (h : d.server.stopping = true)
    (hstep : step toText o d action = some d') :
    d'.server.stopping = true ∧ d'.assigned = d.assigned ∧
      d.server.runQueue <+: d'.server.runQueue := by
  have hcritical : ∀ change : Server → Server, (change d.server).stopping = true →
      d.server.runQueue <+: (change d.server).runQueue →
      (d.critical change).server.stopping = true ∧ (d.critical change).assigned = d.assigned ∧
        d.server.runQueue <+: (d.critical change).server.runQueue := by
    intro change hstopping hprefix
    unfold Dispatch.critical
    split
    · exact ⟨hstopping, rfl, hprefix⟩
    · exact ⟨h, rfl, List.prefix_refl _⟩
  cases action with
  | enqueueWorker worker =>
    cases hstep
    exact hcritical _ h (List.prefix_refl _)
  | enqueueRun run =>
    cases hstep
    exact hcritical _ h (List.prefix_append _ _)
  | setStopping =>
    cases hstep
    exact hcritical _ rfl (List.prefix_refl _)
  | main ok env =>
    rcases mainStep_cases hstep with ⟨hserver, hassigned, -, -⟩ | ⟨-, -, hgoing, -⟩
    · rw [hserver]
      exact ⟨h, hassigned, List.prefix_refl _⟩
    · rw [h] at hgoing
      cases hgoing

theorem run_stopping (actions : List Action) {d d' : Dispatch} (h : d.server.stopping = true)
    (hrun : run toText o d actions = some d') :
    d'.server.stopping = true ∧ d'.assigned = d.assigned ∧
      d.server.runQueue <+: d'.server.runQueue := by
  refine Runs.foldlM_invariant
    (I := fun d₁ => d₁.server.stopping = true ∧ d₁.assigned = d.assigned ∧
      d.server.runQueue <+: d₁.server.runQueue)
    (fun d₁ d₂ h₁ action _ hstep => ?_) ⟨h, rfl, List.prefix_refl _⟩ hrun
  obtain ⟨h₂, hassigned, hprefix⟩ := step_stopping h₁.1 hstep
  exact ⟨h₂, hassigned.trans h₁.2.1, h₁.2.2.trans hprefix⟩

/-- The steps of its own after which a main thread that has a signal, or is not waiting, has left
its loop, once the server is stopping. -/
def MainThread.rest : MainThread → Nat
  | .exited => 0
  | .locked => 1
  | _ => 2

/-- A step of the main thread. -/
def Action.isMain : Action → Bool
  | .main _ _ => true
  | _ => false

theorem serverNotify_rest (main : MainThread) : (serverNotify main).rest = main.rest := by
  cases main <;> rfl

/-- **A server that is stopping takes its main thread out of the loop**: another thread's step does
not hold it up, and a step of its own brings it closer. -/
theorem step_rest {d d' : Dispatch} {action : Action} (hstopping : d.server.stopping = true)
    (hmain : d.main ≠ .waiting false) (hstep : step toText o d action = some d') :
    d'.main ≠ .waiting false ∧
      d'.main.rest ≤ d.main.rest - (if action.isMain then 1 else 0) := by
  have hcritical : ∀ change : Server → Server,
      (d.critical change).main ≠ .waiting false ∧
        (d.critical change).main.rest ≤ d.main.rest := by
    intro change
    unfold Dispatch.critical
    split
    · exact ⟨serverNotify_signalled d.main, Nat.le_of_eq (serverNotify_rest d.main)⟩
    · exact ⟨hmain, Nat.le_refl _⟩
  cases action with
  | enqueueWorker worker =>
    cases hstep
    exact hcritical _
  | enqueueRun run =>
    cases hstep
    exact hcritical _
  | setStopping =>
    cases hstep
    exact hcritical _
  | main ok env =>
    have hready : serverReadyForAction d.server = true := by
      simp [serverReadyForAction, hstopping]
    simp only [step, Dispatch.mainStep] at hstep
    split at hstep
    · rename_i hat
      cases hstep
      cases ok <;> simp [hat, MainThread.rest, Action.isMain]
    · rename_i hat
      cases hstep
      simp [hat, MainThread.rest, Action.isMain]
    · rename_i hat
      cases hstep
      simp [hat, MainThread.rest]
    · rw [if_neg (by simp [hready]), if_pos hstopping] at hstep
      cases hstep
      simp [MainThread.rest]

/-- **A server that is stopping takes its main thread out of the loop** in two of its steps. -/
theorem run_exits (actions : List Action) :
    ∀ {d d' : Dispatch}, d.server.stopping = true → d.main ≠ .waiting false →
      run toText o d actions = some d' →
      d'.main.rest ≤ d.main.rest - actions.countP Action.isMain := by
  induction actions with
  | nil =>
    intro d d' _ _ hrun
    cases hrun
    exact Nat.le_refl _
  | cons action actions ih =>
    intro d d' hstopping hmain hrun
    obtain ⟨d₁, hstep, hrun⟩ := Option.bind_eq_some_iff.1 hrun
    obtain ⟨hmain₁, hrest₁⟩ := step_rest hstopping hmain hstep
    have hrest := ih (step_stopping hstopping hstep).1 hmain₁ hrun
    rw [List.countP_cons]
    omega

theorem step_exited {d d' : Dispatch} {action : Action} (h : d.main = .exited)
    (hstep : step toText o d action = some d') : d'.main = .exited := by
  have hcritical : ∀ change : Server → Server, (d.critical change).main = .exited := by
    intro change
    unfold Dispatch.critical
    split
    · simp only [h, serverNotify]
    · exact h
  cases action with
  | enqueueWorker worker =>
    cases hstep
    exact hcritical _
  | enqueueRun run =>
    cases hstep
    exact hcritical _
  | setStopping =>
    cases hstep
    exact hcritical _
  | main ok env =>
    simp only [step, Dispatch.mainStep, h, Option.some.injEq] at hstep
    rw [← hstep, h]

/-- **No lost wake-up, no unsafe dispatch.**  In every state that any order of critical sections,
wake-ups and assignments can lead to: the main thread waits without a signal only if it is not
ready; it enters `server_assign_run` only with something in both queues; and after a critical
section that sets the stop flag no run is removed from the queue any more. -/
theorem no_lost_wakeup (toText : Json → CStr) (o : ByteOrder) (server : Server)
    (actions : List Action) :
    ∃ d, run toText o (started server) actions = some d ∧
      (d.main = .waiting false → serverReadyForAction d.server = false) ∧
      (∀ ok env d', step toText o d (.main ok env) = some d' → d'.assigned ≠ d.assigned →
        d.server.runQueue ≠ [] ∧ d.server.workerQueue ≠ []) ∧
      (d.mutexFree = true → ∀ actions' d',
        run toText o d (.setStopping :: actions') = some d' →
          d'.assigned = d.assigned ∧ d.server.runQueue <+: d'.server.runQueue) := by
  have hstart : Conserved toText server.runQueue (started server) := by
    simp [Conserved, started, sentRuns]
  obtain ⟨d, hrun, -⟩ := run_conserved (o := o) actions hstart
  refine ⟨d, hrun, ?_, ?_, ?_⟩
  · have hawake : Awake (started server) := by
      intro hmain
      cases hmain
    exact run_awake actions hawake hrun
  · intro ok env d' hstep hentered
    rcases mainStep_cases hstep with ⟨-, hassigned, -⟩ | ⟨-, -, -, hruns, hworkers, -⟩
    · exact absurd hassigned hentered
    · exact ⟨hruns, hworkers⟩
  · intro hfree actions' d' hrun'
    have hstep : step toText o d .setStopping =
        some { d with server := serverSetStopping d.server, main := serverNotify d.main } := by
      simp [step, Dispatch.critical, hfree]
    rw [run, List.foldlM_cons, hstep] at hrun'
    exact (run_stopping actions' rfl hrun').2

end Cimple.Dispatching
