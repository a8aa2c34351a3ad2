import Cimple.Lib.Executions
import Cimple.Dispatch

/-!
# Every run is sent

What the main thread does if the server goes on and on: workers that come again and again, and
sends that do not fail for ever, get every run out, in the order of the queue.

* `Goes`, `Tries`, `Sends`, `Brings` — steps of the main thread, those of them that try to send
  a run, those that do, and critical sections that bring a worker.
* `Fair` — what is asked of an execution without an end.
* `Up` — what the steps keep: the main thread is there, and does not sleep while there is
  something to do.
* `waitingExecution` — a server that gets its one run out, and then waits for ever.

Principal results: `every_run_sent` and `workers_in_order`.
-/

set_option autoImplicit false

namespace Cimple.Fairness

open Octets JsonValue Executions Cimple.RunQueue Cimple.Servers Cimple.Dispatching

variable {toText : Json → CStr} {o : ByteOrder}

/-! ## Steps that are needed -/

/-- A step of the main thread, unless it sleeps. -/
def Goes (d : Dispatch) (action : Action) : Prop := action.isMain = true ∨ d.main = .waiting false

/-- A step of the main thread that tries to send the first run to the first worker. -/
def Tries (d : Dispatch) (action : Action) : Prop :=
  d.main = .locked ∧ d.server.runQueue ≠ [] ∧ d.server.workerQueue ≠ [] ∧ action.isMain = true

/-- A step of the main thread that sends the first run to the first worker. -/
def Sends (toText : Json → CStr) (o : ByteOrder) (d : Dispatch) (action : Action) : Prop :=
  Tries d action ∧ ∀ ok env run, action = .main ok env → d.server.runQueue.head? = some run →
    (sendStartRun toText o env run).1 = true

/-- A critical section that brings a worker. -/
def Brings (d : Dispatch) (action : Action) : Prop :=
  d.mutexFree = true ∧ ∃ worker, action = .enqueueWorker worker

/-- **What is asked of an execution**: nobody stops the server and its mutex can always be locked;
the main thread goes on, unless it sleeps, and workers come, again and again; and if runs are tried
to be sent again and again, sending does not fail for ever. -/
structure Fair (e : Execution (step toText o)) : Prop where
  begins : e.state 0 = started (e.state 0).server
  going : (e.state 0).server.stopping = false
  never : ∀ n, e.action n ≠ .setStopping
  locks : ∀ n ok env, e.action n = .main ok env → ok = true
  goes : e.Often Goes
  brings : e.Often Brings
  sends : e.Often Tries → e.Often (Sends toText o)

/-! ## What steps keep -/

/-- The server is not stopping, its main thread is there, and it does not sleep while there is
something to do. -/
structure Up (d : Dispatch) : Prop where
  going : d.server.stopping = false
  there : d.main ≠ .exited
  awake : Awake d

theorem critical_main {d : Dispatch} (change : Server → Server) :
    (d.critical change).main = if d.mutexFree then serverNotify d.main else d.main := by
  unfold Dispatch.critical
  split <;> rfl

theorem critical_server {d : Dispatch} (change : Server → Server) :
    (d.critical change).server = if d.mutexFree then change d.server else d.server := by
  unfold Dispatch.critical
  split <;> rfl

theorem critical_up {d : Dispatch} (h : Up d) {change : Server → Server}
    (hchange : (change d.server).stopping = d.server.stopping) : Up (d.critical change) where
  going := by
    rw [critical_server]
    split
    · exact hchange.trans h.going
    · exact h.going
  there := by
    rw [critical_main]
    have := h.there
    split
    · cases hmain : d.main <;> simp_all [serverNotify]
    · exact this
  awake := critical_awake h.awake change

theorem step_up {d d' : Dispatch} {action : Action} (h : Up d) (hnever : action ≠ .setStopping)
    (hlocks : ∀ ok env, action = .main ok env → ok = true)
    (hstep : step toText o d action = some d') : Up d' := by
  cases action with
  | enqueueWorker worker =>
    cases hstep
    exact critical_up h rfl
  | enqueueRun run =>
    cases hstep
    obtain ⟨hgoing, hthere, hawake⟩ : Up (d.critical fun server => serverAddRun server run) :=
      critical_up h rfl
    exact ⟨hgoing, hthere, hawake⟩
  | setStopping => exact absurd rfl hnever
  | main ok env =>
    obtain rfl := hlocks ok env rfl
    refine ⟨?_, ?_, step_awake h.awake hstep⟩
    · rcases mainStep_cases hstep with ⟨hserver, -⟩ | ⟨-, -, -, -, -, -, a, hassign, -⟩
      · rw [hserver]
        exact h.going
      · simp only [serverAssignRun] at hassign
        split at hassign
        · simp only [Option.some.injEq, Prod.mk.injEq] at hassign
          rw [← hassign.1]
          exact h.going
        · cases hassign
    · intro hexited
      simp only [step, Dispatch.mainStep] at hstep
      split at hstep
      · cases hstep
        cases hexited
      · cases hstep
        cases hexited
      · rename_i hat
        exact h.there hat
      · split at hstep
        · cases hstep
          cases hexited
        · simp only [h.going, Bool.false_eq_true, if_false] at hstep
          obtain ⟨⟨server, a⟩, -, hstep⟩ := Option.bind_eq_some_iff.1 hstep
          cases hstep
          rename_i hat _
          rw [hat] at hexited
          cases hexited

/-- **What a step of another thread does** to the main thread and to what waits for it. -/
theorem step_other {d d' : Dispatch} {action : Action} (hother : ¬ action.isMain = true)
    (hnever : action ≠ .setStopping) (hstep : step toText o d action = some d') :
    d'.main = (if d.mutexFree then serverNotify d.main else d.main) ∧
      d'.assigned = d.assigned ∧ d.server.workerQueue <+: d'.server.workerQueue := by
  cases action with
  | enqueueWorker worker =>
    cases hstep
    refine ⟨critical_main _, ?_, ?_⟩
    · unfold Dispatch.critical
      split <;> rfl
    · rw [critical_server]
      split
      · exact List.prefix_append _ _
      · exact List.prefix_refl _
  | enqueueRun run =>
    cases hstep
    refine ⟨critical_main _, ?_, ?_⟩
    · show (Dispatch.critical _ _).assigned = _
      unfold Dispatch.critical
      split <;> rfl
    · show _ <+: (Dispatch.critical _ _).server.workerQueue
      rw [critical_server]
      split <;> exact List.prefix_refl _
  | setStopping => exact absurd rfl hnever
  | main ok env => exact absurd rfl hother

theorem step_locks {d d' : Dispatch} {action : Action} (hup : Up d) (hmain : d.main ≠ .locked)
    (hgoes : action.isMain = true) (hlocks : ∀ ok env, action = .main ok env → ok = true)
    (hstep : step toText o d action = some d') :
    d'.main = .locked ∧ d'.server = d.server := by
  cases action with
  | main ok env =>
    obtain rfl := hlocks ok env rfl
    simp only [step, Dispatch.mainStep] at hstep
    split at hstep
    · cases hstep
      exact ⟨rfl, rfl⟩
    · cases hstep
      exact ⟨rfl, rfl⟩
    · rename_i hexited
      exact absurd hexited hup.there
    · rename_i hlocked
      exact absurd hlocked hmain
  | enqueueWorker | enqueueRun | setStopping => cases hgoes

/-- What has been enqueued stays enqueued, and what has been sent stays sent. -/
theorem step_monotone {d d' : Dispatch} {action : Action}
    (hstep : step toText o d action = some d') :
    d.enqueued <+: d'.enqueued ∧ sentRuns toText d.assigned <+: sentRuns toText d'.assigned := by
  have hcritical : ∀ change : Server → Server, (d.critical change).assigned = d.assigned ∧
      (d.critical change).enqueued = d.enqueued := by
    intro change
    unfold Dispatch.critical
    split <;> exact ⟨rfl, rfl⟩
  cases action with
  | enqueueWorker worker =>
    cases hstep
    rw [(hcritical _).1, (hcritical _).2]
    exact ⟨List.prefix_refl _, List.prefix_refl _⟩
  | enqueueRun run =>
    cases hstep
    simp only [(hcritical _).1]
    refine ⟨?_, List.prefix_refl _⟩
    split
    · exact List.prefix_append _ _
    · exact List.prefix_refl _
  | setStopping =>
    cases hstep
    rw [(hcritical _).1, (hcritical _).2]
    exact ⟨List.prefix_refl _, List.prefix_refl _⟩
  | main ok env =>
    obtain ⟨-, henqueued, assigned, hassigned⟩ := mainStep_frame hstep
    rw [henqueued, hassigned, sentRuns, sentRuns, List.filter_append, List.map_append]
    exact ⟨List.prefix_refl _, List.prefix_append _ _⟩

/-- **A send that does not fail** sends one run more. -/
theorem sends_step {d d' : Dispatch} {action : Action} (hup : Up d)
    (hsends : Sends toText o d action) (hstep : step toText o d action = some d') :
    (sentRuns toText d'.assigned).length = (sentRuns toText d.assigned).length + 1 := by
  obtain ⟨⟨hlocked, hruns, hworkers, hmain⟩, hsent⟩ := hsends
  obtain ⟨run, runs, hqueue⟩ := List.exists_cons_of_ne_nil hruns
  obtain ⟨worker, workers, hqueue'⟩ := List.exists_cons_of_ne_nil hworkers
  cases action with
  | main ok env =>
    have hok := hsent ok env run rfl (by rw [hqueue]; rfl)
    have hbytes := (sendStartRun_spec toText o env run).1 hok
    have hready : serverReadyForAction d.server = true := by
      simp [serverReadyForAction, runQueueIsEmpty, hqueue, hqueue']
    simp only [step, Dispatch.mainStep, hlocked, hready, hup.going, serverAssignRun, hqueue, hqueue',
      runQueueRemoveFirst, Bool.not_true, Bool.false_eq_true, if_false] at hstep
    cases hstep
    simp [sentRuns, List.filter_append, hbytes]
  | enqueueWorker | enqueueRun | setStopping => cases hmain

/-! ## Executions -/

section

variable {e : Execution (step toText o)}

theorem Fair.up (hfair : Fair e) (n : Nat) : Up (e.state n) := by
  refine e.always (I := Up) (n := 0) (fun m _ h => ?_) ?_ (Nat.zero_le n)
  · exact step_up h (hfair.never m) (hfair.locks m) (e.next m)
  · rw [hfair.begins]
    exact ⟨hfair.going, by simp [started], fun hmain => by cases hmain⟩

theorem Fair.conserved (hfair : Fair e) (n : Nat) :
    Conserved toText (e.state 0).server.runQueue (e.state n) := by
  refine e.always (I := Conserved toText (e.state 0).server.runQueue) (n := 0) (fun m _ h => ?_) ?_
    (Nat.zero_le n)
  · obtain ⟨d, hstep, hconserved⟩ := step_conserved (o := o) h (e.action m)
    rw [e.next m, Option.some.injEq] at hstep
    rwa [hstep]
  · rw [Conserved, hfair.begins]
    simp [started, sentRuns]

theorem monotone (e : Execution (step toText o)) {n m : Nat} (h : n ≤ m) :
    (e.state n).enqueued <+: (e.state m).enqueued ∧
      sentRuns toText (e.state n).assigned <+: sentRuns toText (e.state m).assigned := by
  refine e.always (I := fun d => (e.state n).enqueued <+: d.enqueued ∧
    sentRuns toText (e.state n).assigned <+: sentRuns toText d.assigned) (fun k _ ih => ?_)
    ⟨List.prefix_refl _, List.prefix_refl _⟩ h
  obtain ⟨henqueued, hsent⟩ := step_monotone (e.next k)
  exact ⟨ih.1.trans henqueued, ih.2.trans hsent⟩

theorem Fair.goes_on (hfair : Fair e) {n : Nat} (hruns : (e.state n).server.runQueue ≠ [])
    (hworkers : (e.state n).server.workerQueue ≠ []) (hgoes : Goes (e.state n) (e.action n)) :
    (e.action n).isMain = true := by
  refine hgoes.resolve_right fun hsleeps => ?_
  have hready := (hfair.up n).awake hsleeps
  simp [serverReadyForAction, runQueueIsEmpty, hruns, hworkers] at hready

/-- **As long as the queue is not empty, the main thread tries to send** again and again. -/
theorem Fair.tries (hfair : Fair e) {n : Nat}
    (hqueue : ∀ m, n ≤ m → (e.state m).server.runQueue ≠ []) :
    ∃ m, n ≤ m ∧ Tries (e.state m) (e.action m) := by
  have hstays : ∀ m, (e.state m).server.workerQueue ≠ [] → ¬ (e.action m).isMain = true →
      (e.state (m + 1)).server.workerQueue ≠ [] := by
    intro m hworkers hother hnone
    obtain ⟨-, -, hprefix⟩ := step_other hother (hfair.never m) (e.next m)
    exact hworkers (List.prefix_nil.1 (hnone ▸ hprefix))
  -- a worker comes
  obtain ⟨m₁, hm₁, hfree, worker, hbrings⟩ := hfair.brings n
  have hcame : (e.state (m₁ + 1)).server.workerQueue ≠ [] := by
    have hstep := e.next m₁
    rw [hbrings] at hstep
    simp only [step, Option.some.injEq] at hstep
    rw [← hstep, critical_server, if_pos hfree]
    simp [serverAddWorker]
  -- the main thread locks the mutex, if it has not locked it
  obtain ⟨m₂, hm₂, hworkers, hlocked⟩ : ∃ m, m₁ + 1 ≤ m ∧
      ((e.state m).server.workerQueue ≠ [] ∧ (e.state m).main = .locked) := by
    by_cases hlocked : (e.state (m₁ + 1)).main = .locked
    · exact ⟨m₁ + 1, Nat.le_refl _, hcame, hlocked⟩
    refine e.leads (P := fun d => d.server.workerQueue ≠ [] ∧ d.main ≠ .locked)
      (Q := fun d => d.server.workerQueue ≠ [] ∧ d.main = .locked) hfair.goes ?_ ?_ ⟨hcame, hlocked⟩
    · rintro m hm ⟨hworkers, hmain⟩ hother
      have hother' : ¬ (e.action m).isMain = true := fun h => hother (.inl h)
      refine ⟨hstays m hworkers hother', ?_⟩
      rw [(step_other hother' (hfair.never m) (e.next m)).1]
      split
      · cases hat : (e.state m).main <;> simp_all [serverNotify]
      · exact hmain
    · rintro m hm ⟨hworkers, hmain⟩ hgoes
      have hmove := hfair.goes_on (hqueue m (by omega)) hworkers hgoes
      obtain ⟨hlocked, hserver⟩ := step_locks (hfair.up m) hmain hmove (hfair.locks m) (e.next m)
      exact ⟨hserver ▸ hworkers, hlocked⟩
  -- and then it tries
  obtain ⟨m₃, hm₃, ⟨hworkers, hlocked⟩, hgoes⟩ := e.waits (n := m₂)
    (P := fun d => d.server.workerQueue ≠ [] ∧ d.main = .locked) hfair.goes (fun m _ h hother => by
      have hother' : ¬ (e.action m).isMain = true := fun h => hother (.inl h)
      refine ⟨hstays m h.1 hother', ?_⟩
      rw [(step_other hother' (hfair.never m) (e.next m)).1, h.2]
      simp [serverNotify]) ⟨hworkers, hlocked⟩
  have hruns := hqueue m₃ (by omega)
  exact ⟨m₃, by omega, hlocked, hruns, hworkers, hfair.goes_on hruns hworkers hgoes⟩

/-- **The first run in the queue gets out.** -/
theorem Fair.sends_next (hfair : Fair e) {n : Nat} (hqueue : (e.state n).server.runQueue ≠ []) :
    ∃ m, n ≤ m ∧ (sentRuns toText (e.state n).assigned).length <
      (sentRuns toText (e.state m).assigned).length := by
  by_contra hnone
  -- if nothing gets out, the queue does not become empty
  have hlength : ∀ m, n ≤ m → (sentRuns toText (e.state m).assigned).length =
      (sentRuns toText (e.state n).assigned).length := by
    intro m hm
    have hle := (monotone e hm).2.length_le
    by_contra hne
    exact hnone ⟨m, hm, by omega⟩
  have hstuck : ∀ m, n ≤ m → (e.state m).server.runQueue ≠ [] := by
    intro m hm hempty
    have hnow := congrArg List.length (hfair.conserved n)
    have hlater := congrArg List.length (hfair.conserved m)
    have hmore := (monotone e hm).1.length_le
    have hpos := List.length_pos_of_ne_nil hqueue
    simp only [List.length_append, hempty, List.length_nil, hlength m hm] at hnow hlater
    omega
  -- so it is tried again and again, and in the end it does
  have htries : e.Often Tries := by
    intro k
    obtain ⟨m, hm, htries⟩ := hfair.tries (n := max n k) fun i hi => hstuck i (by omega)
    exact ⟨m, by omega, htries⟩
  obtain ⟨m, hm, hsends⟩ := hfair.sends htries n
  have hone := sends_step (hfair.up m) hsends (e.next m)
  rw [hlength m hm, hlength (m + 1) (by omega)] at hone
  omega

end

/-- **Every run is sent.**  As long as nobody stops the server, workers come again and again, and
sending does not fail for ever, whatever is in the queue or has been enqueued at any moment has
been sent in full at a later one, in the order in which it was loaded and enqueued. -/
theorem every_run_sent {e : Execution (step toText o)} (hfair : Fair e) (n : Nat) :
    ∃ m, n ≤ m ∧ (e.state 0).server.runQueue ++ (e.state n).enqueued <+:
      sentRuns toText (e.state m).assigned := by
  obtain ⟨m, hm, hlong⟩ := e.climbs (fun d => (sentRuns toText d.assigned).length)
    ((e.state 0).server.runQueue ++ (e.state n).enqueued).length (n := n) fun m hm hshort => by
      refine hfair.sends_next fun hempty => ?_
      have hnow := congrArg List.length (hfair.conserved m)
      have hmore := (monotone e hm).1.length_le
      simp only [List.length_append, hempty, List.length_nil] at hnow hshort
      omega
  have hall : (e.state 0).server.runQueue ++ (e.state n).enqueued <+:
      (e.state 0).server.runQueue ++ (e.state m).enqueued :=
    (List.prefix_append_right_inj _).2 (monotone e hm).1
  have hsent : sentRuns toText (e.state m).assigned <+:
      (e.state 0).server.runQueue ++ (e.state m).enqueued := by
    rw [← hfair.conserved m]
    exact List.prefix_append _ _
  exact ⟨m, hm, List.prefix_of_prefix_length_le hall hsent hlong⟩

/-! ## An execution -/

/-- A worker that waits, and a run in the queue. -/
def waitingWorker : Worker := ⟨5, 0, 4⟩

def waitingRun : Run := runCreated 1 (.ofAscii "repo") (.ofAscii "HEAD")

def loaded : Server := { emptyServer with workerQueue := [waitingWorker], runQueue := [waitingRun] }

/-- Some text. -/
def someText (_ : Json) : CStr := .ofAscii "start-run"

/-- The server after the run has been sent, with workers that have come since. -/
def afterSent (workers : Nat) (main : MainThread) : Dispatch :=
  ⟨{ workerDestroy waitingWorker emptyServer with
      workerQueue := List.replicate workers waitingWorker }, main,
    [⟨waitingRun, waitingWorker, startRunFrame someText waitingRun⟩], []⟩

/-- The main thread goes to sleep, a worker comes, and the main thread wakes up. -/
inductive Part where
  | sleeps
  | comes
  | wakes

def round (k : Nat) : Part → Dispatch × Action
  | .sleeps => (afterSent k .locked, .main true ⟨true, []⟩)
  | .comes => (afterSent k (.waiting false), .enqueueWorker waitingWorker)
  | .wakes => (afterSent (k + 1) (.waiting true), .main true ⟨true, []⟩)

def Part.number : Part → Nat
  | .sleeps => 0
  | .comes => 1
  | .wakes => 2

def partOf (n : Nat) : Part :=
  if n % 3 = 0 then .sleeps else if n % 3 = 1 then .comes else .wakes

/-- The run is sent, and then workers come for ever. -/
def moment : Nat → Dispatch × Action
  | 0 => (started loaded, .main true ⟨true, []⟩)
  | 1 => ({ started loaded with main := .locked }, .main true ⟨true, []⟩)
  | n + 2 => round (n / 3) (partOf n)

theorem moment_round (k : Nat) (part : Part) :
    moment (3 * k + part.number + 2) = round k part := by
  have hpart : (3 * k + part.number) / 3 = k ∧ partOf (3 * k + part.number) = part := by
    cases part <;> refine ⟨?_, ?_⟩ <;> simp [partOf, Part.number, Nat.add_mod] <;> omega
  rw [moment, hpart.1, hpart.2]

theorem moment_cases (n : Nat) :
    n = 0 ∨ n = 1 ∨ ∃ (k : Nat) (part : Part), n = 3 * k + part.number + 2 := by
  by_cases hfirst : n < 2
  · omega
  · obtain ⟨n, rfl⟩ := Nat.exists_eq_add_of_le' (Nat.le_of_not_lt hfirst)
    have hlt := Nat.mod_lt n (show 0 < 3 by decide)
    have hsplit := Nat.div_add_mod n 3
    refine .inr (.inr ⟨n / 3, partOf n, ?_⟩)
    unfold partOf
    split
    · simp only [Part.number]
      omega
    · split <;> (simp only [Part.number]; omega)

theorem round_next (k : Nat) (part : Part) :
    step someText .little (round k part).1 (round k part).2 =
      some (moment (3 * k + part.number + 3)).1 := by
  cases part with
  | sleeps =>
    rw [show 3 * k + Part.number .sleeps + 3 = 3 * k + Part.number .comes + 2 from rfl, moment_round]
    rfl
  | comes =>
    rw [show 3 * k + Part.number .comes + 3 = 3 * k + Part.number .wakes + 2 from rfl, moment_round]
    simp [round, step, Dispatch.critical, afterSent, Dispatch.mutexFree, serverAddWorker,
      serverNotify, List.replicate_succ']
  | wakes =>
    rw [show 3 * k + Part.number .wakes + 3 = 3 * (k + 1) + Part.number .sleeps + 2 from rfl,
      moment_round]
    rfl

theorem moment_next (n : Nat) :
    step someText .little (moment n).1 (moment n).2 = some (moment (n + 1)).1 := by
  rcases moment_cases n with rfl | rfl | ⟨k, part, rfl⟩
  · rfl
  · simp [moment, started, step, Dispatch.mainStep, loaded, serverReadyForAction, runQueueIsEmpty,
      emptyServer, serverAssignRun, runQueueRemoveFirst, sendStartRun_ok, round, afterSent,
      workerDestroy, partOf]
  · rw [moment_round]
    exact round_next k part

/-- The execution. -/
def waitingExecution : Execution (step someText .little) :=
  ⟨fun n => (moment n).1, fun n => (moment n).2, moment_next⟩

theorem round_often {A : Dispatch → Action → Prop} (part : Part)
    (h : ∀ k, A (round k part).1 (round k part).2) : waitingExecution.Often A := by
  intro n
  refine ⟨3 * n + part.number + 2, by omega, ?_⟩
  show A (moment (3 * n + part.number + 2)).1 (moment (3 * n + part.number + 2)).2
  rw [moment_round]
  exact h n

theorem waitingExecution_fair : Fair waitingExecution where
  begins := rfl
  going := rfl
  never n := by
    have hround : ∀ k part, (round k part).2 ≠ .setStopping := by
      intro k part
      cases part <;> simp [round]
    have hfirst : ∀ ok env, Action.main ok env ≠ .setStopping := by simp
    rcases moment_cases n with rfl | rfl | ⟨k, part, rfl⟩
    · exact hfirst _ _
    · exact hfirst _ _
    · show (moment _).2 ≠ .setStopping
      rw [moment_round]
      exact hround k part
  locks n := by
    have hround : ∀ k part ok env, (round k part).2 = .main ok env → ok = true := by
      intro k part
      cases part <;> simp [round]
    have hfirst : ∀ ok env, Action.main true ⟨true, []⟩ = .main ok env → ok = true := by simp
    rcases moment_cases n with rfl | rfl | ⟨k, part, rfl⟩
    · exact hfirst
    · exact hfirst
    · show ∀ ok env, (moment _).2 = .main ok env → ok = true
      rw [moment_round]
      exact hround k part
  goes := round_often .sleeps fun _ => .inl rfl
  brings := round_often .comes fun _ => ⟨rfl, waitingWorker, rfl⟩
  sends htries := by
    -- after the run has been sent nothing is tried
    obtain ⟨n, hn, -, hruns, -⟩ := htries 2
    have hnone : ∀ k part, (round k part).1.server.runQueue = [] := by
      intro k part
      cases part <;> rfl
    rcases moment_cases n with rfl | rfl | ⟨k, part, rfl⟩
    · omega
    · omega
    · refine absurd ?_ hruns
      show (moment _).1.server.runQueue = []
      rw [moment_round]
      exact hnone k part

/-- The one run is sent. -/
theorem every_run_sent_waiting :
    ∃ m, 0 ≤ m ∧ [waitingRun] ++ [] <+: sentRuns someText (waitingExecution.state m).assigned :=
  every_run_sent waitingExecution_fair 0

/-! ## Workers -/

/-- The workers that come in a run, in order. -/
def broughtWorkers (toText : Json → CStr) (o : ByteOrder) (d : Dispatch) : List Action → List Worker
  | [] => []
  | action :: actions =>
    let brought := match action with
      | .enqueueWorker worker => if d.mutexFree then [worker] else []
      | _ => []
    brought ++ (step toText o d action).elim [] fun d' => broughtWorkers toText o d' actions

/-- The workers that have been tried and those that wait, in order. -/
def knownWorkers (d : Dispatch) : List Worker :=
  d.assigned.map Assignment.worker ++ d.server.workerQueue

theorem step_workers {d d' : Dispatch} {action : Action}
    (hstep : step toText o d action = some d') :
    knownWorkers d' = knownWorkers d ++ broughtWorkers toText o d [action] := by
  have hassigned : ∀ change : Server → Server, (d.critical change).assigned = d.assigned := by
    intro change
    unfold Dispatch.critical
    split <;> rfl
  cases action with
  | enqueueWorker worker =>
    cases hstep
    simp only [knownWorkers, hassigned, critical_server, broughtWorkers]
    cases d.mutexFree <;> simp [step, serverAddWorker]
  | enqueueRun run =>
    cases hstep
    simp only [knownWorkers, hassigned, critical_server, broughtWorkers]
    cases d.mutexFree <;> simp [step, serverAddRun]
  | setStopping =>
    cases hstep
    simp only [knownWorkers, hassigned, critical_server, broughtWorkers]
    cases d.mutexFree <;> simp [step, serverSetStopping]
  | main ok env =>
    have hnone : broughtWorkers toText o d [.main ok env] = [] := by
      simp [broughtWorkers, hstep]
    rw [hnone, List.append_nil]
    rcases mainStep_cases hstep with
      ⟨hserver, hassigned, -⟩ | ⟨-, -, -, -, -, -, a, hassign, hassigned⟩
    · rw [knownWorkers, knownWorkers, hserver, hassigned]
    · simp only [serverAssignRun] at hassign
      split at hassign
      · rename_i worker workers hqueue
        simp only [Option.some.injEq, Prod.mk.injEq] at hassign
        obtain ⟨hserver, rfl⟩ := hassign
        simp [knownWorkers, hassigned, ← hserver, workerDestroy, hqueue]
      · cases hassign

/-- **Workers are served in the order in which they come**, and each of them once at most.  For
every order of critical sections and steps of the main thread, and whatever fails, the workers that
have been tried, followed by those that wait, are those that were there at the start followed by
those that have come. -/
theorem workers_in_order (toText : Json → CStr) (o : ByteOrder) (server : Server)
    (actions : List Action) :
    ∃ d, run toText o (started server) actions = some d ∧
      d.assigned.map Assignment.worker ++ d.server.workerQueue =
        server.workerQueue ++ broughtWorkers toText o (started server) actions := by
  have hruns : ∀ (actions : List Action) {d d' : Dispatch}, run toText o d actions = some d' →
      knownWorkers d' = knownWorkers d ++ broughtWorkers toText o d actions := by
    intro actions
    induction actions with
    | nil =>
      intro d d' hrun
      cases hrun
      simp [broughtWorkers]
    | cons action actions ih =>
      intro d d' hrun
      obtain ⟨d₁, hstep, hrest⟩ := Option.bind_eq_some_iff.1 hrun
      rw [ih hrest, step_workers hstep]
      simp [broughtWorkers, hstep]
  have hstart : Conserved toText server.runQueue (started server) := by
    simp [Conserved, started, sentRuns]
  obtain ⟨d, hrun, -⟩ := run_conserved (o := o) actions hstart
  exact ⟨d, hrun, by simpa [knownWorkers, started] using hruns actions hrun⟩

end Cimple.Fairness
