import Cimple.Worker

/-!
# The run a worker executes (`worker_main`, allocations included)

`worker_create` leaves `worker->run` uninitialised and `worker_do_run` leaves it dangling.

* `Turn` — the outside world in one turn of `worker_main`, with the allocations that fail.
* The functions of a turn, as in `Cimple.Workers`, each with its allocations.
* `Turn.seen` — the turn as the worker gets to see it: what a failed allocation keeps from it has
  not been received.
* `Moment`, `moments` — the calls of `event_loop_run` and of `worker_do_run` in an execution.
* `execution` — `worker_main` turn by turn, with its calls and its outcome.
* `Fresh` — what is asked of such a call.

Principal results: `workerGetRun_eq` and `workerMain_eq` (a failed allocation looks like a failed
connection), `execution_eq` (`moments` is the trace of `worker_main`), `workerTurn_fresh` and
`worker_never_stale`.
-/

set_option autoImplicit false

namespace Cimple.Turns

open Octets JsonValue Events Cimple.JsonRpc Cimple.Command Cimple.RunQueue Cimple.Protocol
  Cimple.Workers

/-! ## A turn with its allocations -/

/-- The outside world in one turn, and which allocations succeed: the request of the
announcement, the context of the connection, the default response, the default error, the run,
the process output and the request of the report. -/
structure Turn extends Round where
  newWorkerOk : Bool
  ctxOk : Bool
  defaultResponseOk : Bool
  defaultErrorOk : Bool
  runOk : Bool
  outputOk : Bool
  finishedOk : Bool

/-- `worker_handle_cmd_start_run`; without memory for the run `worker->run` is not assigned. -/
def workerHandleCmdStartRun (runOk : Bool) : CmdHandler Worker := fun request _ worker =>
  match requestParseStartRun request with
  | .error _ => ⟨-1, none, worker⟩
  | .ok run =>
    if !runOk then ⟨-1, none, worker⟩
    else ⟨0, none, { worker.record (.accepted run) with run := some run }⟩

/-- The table of commands. -/
def workerCommands (runOk : Bool) : List (CmdDesc Worker) :=
  [⟨cmdStartRun, workerHandleCmdStartRun runOk⟩]

/-- `cmd_dispatcher_handle_conn_internal`. -/
def cmdDispatcherHandleConnInternal (turn : Turn) (fd : Nat) (worker : Worker) : Served Worker :=
  if !turn.ctxOk then ⟨-1, [], worker⟩
  else
    match jsonrpcRequestRecv turn.received with
    | none => ⟨-1, [], worker⟩
    | some request =>
      if jsonrpcRequestIsNotification request then
        let handled := cmdDispatcherHandleInternal (workerCommands turn.runOk) request fd worker
        ⟨handled.ret, [], handled.state⟩
      else if !turn.defaultResponseOk then ⟨-1, [], worker⟩
      else if !turn.defaultErrorOk then ⟨-1, [], worker⟩
      else
        match jsonrpcResponseCreate request .null,
          jsonrpcErrorCreate request (-1) defaultErrorMessage with
        | .ok defaultResponse, .ok defaultError =>
          let handled := cmdDispatcherHandleInternal (workerCommands turn.runOk) request fd worker
          let actual := actualResponse handled.ret handled.response defaultResponse defaultError
          ⟨if turn.answerOk then handled.ret else -1, [actual], handled.state⟩
        | _, _ => ⟨-1, [], worker⟩

/-- `cmd_dispatcher_handle_event`. -/
def cmdDispatcherHandleEvent (turn : Turn) (fd : Nat) (revents : Int16) (worker : Worker) :
    Served Worker :=
  if revents &&& pollIn = 0 then ⟨-1, [], worker⟩
  else cmdDispatcherHandleConnInternal turn fd worker

/-- The handlers, as the event loop calls them. -/
def handlers (turn : Turn) : Call Handler Worker := fun handler fd revents loop worker =>
  match handler with
  | .setStopping => some (0, loop, workerSetStopping worker)
  | .handleEvent =>
    let served := cmdDispatcherHandleEvent turn fd revents worker
    some (served.ret, loop, served.state)

/-- `worker_get_run` up to the entry in the event loop: the connection, or a negative value. -/
def workerAnnounce (turn : Turn) (s : State) : Except Int32 Nat × State :=
  match turn.connect with
  | none => (.error (-1), s)
  | some fd =>
    if !turn.newWorkerOk then (.error (-1), s)
    else
      match requestCreateNewWorker with
      | .error _ => (.error (-1), s)
      | .ok request =>
        let (ret, worker) := jsonrpcRequestSend turn.announceOk request s.worker
        if ret < 0 then (.error ret, { s with worker })
        else
          match eventLoopAddOnce turn.entryOk s.loop fd pollIn .handleEvent with
          | none => (.error (-1), { s with worker })
          | some loop => (.ok fd, ⟨loop, worker⟩)

/-- The rest of `worker_get_run`: a round of the event loop. -/
def workerAwait (turn : Turn) (s : State) : Option (Int32 × State) :=
  (eventLoopRun (handlers turn) turn.revents s.loop s.worker).map fun r =>
    (r.1, ⟨r.2.1, r.2.2⟩)

/-- `worker_get_run`. -/
def workerGetRun (turn : Turn) (s : State) : Option (Int32 × State) :=
  match workerAnnounce turn s with
  | (.error ret, s) => some (ret, s)
  | (.ok _, s) => workerAwait turn s

/-- `worker_do_run`; without memory for the output the run is not destroyed. -/
def workerDoRun (turn : Turn) (worker : Worker) : Option (Int32 × Worker) :=
  if !turn.outputOk then some (-1, worker)
  else do
    let run ← worker.run
    let result := ciRunGitRepo turn.ci
    let worker := { worker.record (.ci run.repoUrl run.repoRev result) with run := none }
    match result with
    | none => some (-1, worker)
    | some result =>
      if !turn.finishedOk then some (-1, worker)
      else
        match requestCreateFinishedRun run.id result with
        | .error _ => some (-1, worker)
        | .ok finishedRequest =>
          match turn.reconnect with
          | none => some (-1, worker)
          | some _ => some (jsonrpcRequestSend turn.reportOk finishedRequest worker)

/-- `worker_main`, for the turns the outside world has come to: the state, and the value
returned if it has returned. -/
def workerMain : List Turn → State → Option (State × Option Int32)
  | [], s => some (s, none)
  | turn :: turns, s => do
    let (ret, s) ← workerGetRun turn s
    if ret < 0 then some (s, some ret)
    else if s.worker.stopping then some (s, some ret)
    else
      let (ret, worker) ← workerDoRun turn s.worker
      let s := { s with worker }
      if ret < 0 then some (s, some ret) else workerMain turns s

/-! ## Failed allocations -/

/-- No allocation that the connection's handler makes for what it has received fails. -/
def Turn.getsThrough (turn : Turn) : Bool :=
  turn.ctxOk && turn.runOk &&
    match jsonrpcRequestRecv turn.received with
    | none => true
    | some request =>
      jsonrpcRequestIsNotification request || turn.defaultResponseOk && turn.defaultErrorOk

/-- The turn as the worker gets to see it. -/
def Turn.seen (turn : Turn) : Round :=
  { turn.toRound with
    announceOk := turn.newWorkerOk && turn.announceOk
    received := if turn.getsThrough then turn.received else none
    reconnect := if turn.finishedOk then turn.reconnect else none }

theorem workerCommands_true : workerCommands true = Workers.workerCommands := by
  have hhandler : workerHandleCmdStartRun true = Workers.workerHandleCmdStartRun := by
    funext request fd worker
    unfold workerHandleCmdStartRun Workers.workerHandleCmdStartRun
    cases requestParseStartRun request <;> rfl
  unfold workerCommands Workers.workerCommands
  rw [hhandler]

theorem workerCommands_false (request : JsonrpcRequest) (fd : Nat) (worker : Worker) :
    cmdDispatcherHandleInternal (workerCommands false) request fd worker =
      ⟨-1, none, worker⟩ := by
  unfold cmdDispatcherHandleInternal
  cases hcmd : cmdOf (workerCommands false) request with
  | none => rfl
  | some cmd =>
    obtain rfl : cmd = ⟨cmdStartRun, workerHandleCmdStartRun false⟩ := by
      simpa [workerCommands] using cmdOf_mem hcmd
    simp only [workerHandleCmdStartRun]
    cases requestParseStartRun request <;> rfl

/-- A handler that does not get through has failed, and has left the worker as it was. -/
theorem handleConn_failed {turn : Turn} (h : turn.getsThrough = false) (fd : Nat)
    (worker : Worker) :
    (cmdDispatcherHandleConnInternal turn fd worker).ret = -1 ∧
      (cmdDispatcherHandleConnInternal turn fd worker).state = worker := by
  unfold cmdDispatcherHandleConnInternal
  cases hctx : turn.ctxOk with
  | false => exact ⟨rfl, rfl⟩
  | true =>
    cases hrecv : jsonrpcRequestRecv turn.received with
    | none => exact ⟨rfl, rfl⟩
    | some request =>
      cases hrun : turn.runOk with
      | false =>
        simp only [workerCommands_false, Bool.not_true, Bool.false_eq_true, if_false, ite_self]
        split
        · exact ⟨rfl, rfl⟩
        · split
          · exact ⟨rfl, rfl⟩
          · split
            · exact ⟨rfl, rfl⟩
            · split <;> exact ⟨rfl, rfl⟩
      | true =>
        -- the handler is to be answered, and there is no memory for an answer
        simp only [Turn.getsThrough, hctx, hrun, hrecv, Bool.and_self, Bool.true_and,
          Bool.or_eq_false_iff, Bool.and_eq_false_iff] at h
        obtain ⟨hn, hresponse | herror⟩ := h
        · simp [hn, hresponse]
        · simp [hn, herror]

theorem handleConn_done {turn : Turn} (h : turn.getsThrough = true) (fd : Nat)
    (worker : Worker) :
    cmdDispatcherHandleConnInternal turn fd worker =
      Command.cmdDispatcherHandleConnInternal Workers.workerCommands fd turn.received
        turn.answerOk worker := by
  unfold cmdDispatcherHandleConnInternal Command.cmdDispatcherHandleConnInternal
  simp only [Turn.getsThrough, Bool.and_eq_true] at h
  obtain ⟨⟨hctx, hrun⟩, hanswer⟩ := h
  simp only [hctx, hrun, workerCommands_true, Bool.not_true, Bool.false_eq_true, if_false]
  cases hrecv : jsonrpcRequestRecv turn.received with
  | none => rfl
  | some request =>
    cases hn : jsonrpcRequestIsNotification request with
    | true => simp [hn]
    | false =>
      simp only [hrecv, hn, Bool.false_or, Bool.and_eq_true] at hanswer
      cases hresponse : jsonrpcResponseCreate request .null <;>
        cases herror : jsonrpcErrorCreate request (-1) defaultErrorMessage <;>
        simp [hn, hanswer, hresponse, herror]

/-- **An allocation that fails is, for the worker, a request that has not been received.** -/
theorem served_eq (turn : Turn) (fd : Nat) (revents : Int16) (worker : Worker) :
    (cmdDispatcherHandleEvent turn fd revents worker).ret =
        (servedConn turn.seen revents fd worker).ret ∧
      (cmdDispatcherHandleEvent turn fd revents worker).state =
        (servedConn turn.seen revents fd worker).state := by
  unfold cmdDispatcherHandleEvent servedConn Command.cmdDispatcherHandleEvent
  split
  · exact ⟨rfl, rfl⟩
  · cases hthrough : turn.getsThrough with
    | false =>
      simp only [Turn.seen, hthrough, Bool.false_eq_true, if_false]
      exact handleConn_failed hthrough fd worker
    | true =>
      simp only [Turn.seen, hthrough, if_true, handleConn_done hthrough, and_self]

theorem handlers_eq (turn : Turn) : handlers turn = Workers.handlers turn.seen := by
  funext handler fd revents loop worker
  cases handler with
  | setStopping => rfl
  | handleEvent =>
    obtain ⟨hret, hstate⟩ := served_eq turn fd revents worker
    simp only [handlers, Workers.handlers, hret, hstate]
    rfl

theorem workerAnnounce_eq (turn : Turn) (s : State) :
    workerAnnounce turn s = Workers.workerAnnounce turn.seen s := by
  unfold workerAnnounce Workers.workerAnnounce
  have hconnect : turn.seen.connect = turn.connect := rfl
  have hentry : turn.seen.entryOk = turn.entryOk := rfl
  rw [hconnect, hentry]
  cases turn.connect with
  | none => rfl
  | some fd =>
    cases hnew : turn.newWorkerOk with
    | false =>
      have hsent : turn.seen.announceOk = false := by simp [Turn.seen, hnew]
      rw [hsent]
      rfl
    | true =>
      have hsent : turn.seen.announceOk = turn.announceOk := by simp [Turn.seen, hnew]
      rw [hsent]
      rfl

/-- **`worker_get_run` with its allocations** is `worker_get_run` in the turn as it is seen. -/
theorem workerGetRun_eq (turn : Turn) (s : State) :
    workerGetRun turn s = Workers.workerGetRun turn.seen s := by
  unfold workerGetRun Workers.workerGetRun
  rw [workerAnnounce_eq]
  unfold workerAwait Workers.workerAwait
  rw [handlers_eq]
  rfl

/-- **`worker_do_run` with its allocations**, if there is memory for the output. -/
theorem workerDoRun_eq {turn : Turn} (houtput : turn.outputOk = true) (worker : Worker) :
    workerDoRun turn worker = Workers.workerDoRun turn.seen worker := by
  unfold workerDoRun Workers.workerDoRun
  have hci : turn.seen.ci = turn.ci := rfl
  have hreport : turn.seen.reportOk = turn.reportOk := rfl
  simp only [houtput, Bool.not_true, Bool.false_eq_true, if_false, hci, hreport]
  cases worker.run with
  | none => rfl
  | some run =>
    simp only [Option.bind_eq_bind, Option.bind_some]
    cases ciRunGitRepo turn.ci with
    | none => rfl
    | some result =>
      simp only [requestCreateFinishedRun_eq]
      cases hfinished : turn.finishedOk with
      | false =>
        have hreconnect : turn.seen.reconnect = none := by simp [Turn.seen, hfinished]
        rw [hreconnect]
        rfl
      | true =>
        have hreconnect : turn.seen.reconnect = turn.reconnect := by simp [Turn.seen, hfinished]
        rw [hreconnect]
        rfl

theorem workerDoRun_noOutput {turn : Turn} (houtput : turn.outputOk = false) (worker : Worker) :
    workerDoRun turn worker = some (-1, worker) := by
  unfold workerDoRun
  rw [houtput]
  rfl

/-- **`worker_main` with its allocations** is `worker_main` in the turns as they are seen, as long
as there is memory for the output. -/
theorem workerMain_eq (turns : List Turn) :
    ∀ s, (∀ turn ∈ turns, turn.outputOk = true) →
      workerMain turns s = Workers.workerMain (turns.map Turn.seen) s := by
  induction turns with
  | nil => exact fun s _ => rfl
  | cons turn turns ih =>
    intro s houtput
    have hrest := fun s => ih s fun turn hturn => houtput turn (List.mem_cons_of_mem _ hturn)
    have hdo := workerDoRun_eq (houtput turn List.mem_cons_self)
    simp only [workerMain, Workers.workerMain, List.map_cons, workerGetRun_eq, hdo, hrest]

/-! ## Moments of an execution -/

/-- A call of `event_loop_run`, with the connection and the state it finds, or a call of
`worker_do_run`, with its turn, the state the turn began in and the state the call finds. -/
inductive Moment where
  | polls (fd : Nat) (s : State)
  | doRun (turn : Turn) (before s : State)

/-- The calls of an execution of `worker_main`, in order. -/
def moments : List Turn → State → List Moment
  | [], _ => []
  | turn :: turns, s =>
    let polls :=
      match workerAnnounce turn s with
      | (.error _, _) => []
      | (.ok fd, s) => [.polls fd s]
    let rest :=
      match workerGetRun turn s with
      | none => []
      | some (ret, s₁) =>
        if ret < 0 then []
        else if s₁.worker.stopping then []
        else
          let rest :=
            match workerDoRun turn s₁.worker with
            | none => []
            | some (ret, worker) => if ret < 0 then [] else moments turns { s₁ with worker }
          .doRun turn s s₁ :: rest
    polls ++ rest

/-- A turn of `worker_main`: its calls and its outcome, as in `workerMain`. -/
def workerTurn (turn : Turn) (s : State) : List Moment × Option (State × Option Int32) :=
  let polls :=
    match workerAnnounce turn s with
    | (.error _, _) => []
    | (.ok fd, s) => [.polls fd s]
  match workerGetRun turn s with
  | none => (polls, none)
  | some (ret, s₁) =>
    if ret < 0 then (polls, some (s₁, some ret))
    else if s₁.worker.stopping then (polls, some (s₁, some ret))
    else
      let calls := polls ++ [.doRun turn s s₁]
      match workerDoRun turn s₁.worker with
      | none => (calls, none)
      | some (ret, worker) =>
        (calls, some ({ s₁ with worker }, if ret < 0 then some ret else none))

/-- An execution of `worker_main`, turn by turn: its calls and its outcome. -/
def execution : List Turn → State → List Moment × Option (State × Option Int32)
  | [], s => ([], some (s, none))
  | turn :: turns, s =>
    match workerTurn turn s with
    | (calls, some (s, none)) => (calls ++ (execution turns s).1, (execution turns s).2)
    | r => r

/-- **`moments` is the trace of `worker_main`.** -/
theorem execution_eq (turns : List Turn) :
    ∀ s, execution turns s = (moments turns s, workerMain turns s) := by
  induction turns with
  | nil => exact fun s => rfl
  | cons turn turns ih =>
    intro s
    simp only [execution, workerTurn, moments, workerMain, Option.bind_eq_bind]
    cases hget : workerGetRun turn s with
    | none => simp
    | some got =>
      obtain ⟨ret, s₁⟩ := got
      simp only [Option.bind_some]
      by_cases hret : ret < 0
      · simp [hret]
      · cases hstopping : s₁.worker.stopping with
        | true => simp [hret]
        | false =>
          simp only [hret, if_false, Bool.false_eq_true]
          cases hdo : workerDoRun turn s₁.worker with
          | none => simp
          | some done =>
            obtain ⟨ret₂, worker₂⟩ := done
            by_cases hret₂ : ret₂ < 0
            · simp [hret₂]
            · simp [hret₂, ih]

/-- The event loop holds exactly the entry of the signal's descriptor. -/
def OnlySignal (signalfd : Nat) (s : State) : Prop :=
  ∃ sig, s.loop.entries = [sig] ∧ IsSignalEntry sig ∧ sig.fd = signalfd

/-- **What is asked of a call.**  `event_loop_run` polls the signal's descriptor and the connection
just opened; `worker_do_run` finds a run that was parsed from the request received in its turn,
the last thing that has happened, and only the signal's entry. -/
def Fresh (signalfd : Nat) : Moment → Prop
  | .polls fd s => ∃ sig conn, s.loop.entries = [sig, conn] ∧ IsSignalEntry sig ∧
      sig.fd = signalfd ∧ IsConnEntry fd conn
  | .doRun turn before s => OnlySignal signalfd s ∧
      ∃ request run, jsonrpcRequestRecv turn.received = some request ∧
        requestParseStartRun request = .ok run ∧ s.worker.run = some run ∧
        s.worker.events = before.worker.events ++ [.sent newWorkerRequest, .accepted run]

theorem workerCreate_onlySignal (signalfd : Nat) : OnlySignal signalfd (workerCreate signalfd) :=
  ⟨_, rfl, ⟨rfl, rfl⟩, rfl⟩

theorem seen_received {turn : Turn} {request : JsonrpcRequest}
    (h : jsonrpcRequestRecv turn.seen.received = some request) :
    jsonrpcRequestRecv turn.received = some request := by
  simp only [Turn.seen] at h
  split at h
  · exact h
  · cases h

/-- **`worker_get_run`**: it is defined, what it polls is fresh, and if the worker goes on, so is
the run it goes on with. -/
theorem workerGetRun_fresh {signalfd : Nat} {turn : Turn} {s : State}
    (hreports : turn.reports = true) (hrest : OnlySignal signalfd s) :
    ∃ ret s', workerGetRun turn s = some (ret, s') ∧
      (∀ fd s₁, workerAnnounce turn s = (.ok fd, s₁) → Fresh signalfd (.polls fd s₁)) ∧
      (¬ ret < 0 → s'.worker.stopping = false → Fresh signalfd (.doRun turn s s')) := by
  obtain ⟨sig, hentries, hsig, hsigfd⟩ := hrest
  rw [workerGetRun_eq, workerAnnounce_eq]
  unfold Workers.workerGetRun
  rcases workerAnnounce_cases turn.seen s with
    ⟨ret, s', hannounce, hret, -⟩ | ⟨fd, conn, loop', -, hannounce, hloop, hconn⟩
  · rw [hannounce]
    refine ⟨ret, s', rfl, ?_, fun hnot => absurd hret hnot⟩
    intro fd s₁ h
    cases h
  · rw [hannounce]
    rw [hentries, List.singleton_append] at hloop
    have hpolls : ∀ fd₁ s₁, ((Except.ok fd, ⟨loop', s.worker.record (.sent newWorkerRequest)⟩) :
        Except Int32 Nat × State) = (.ok fd₁, s₁) → Fresh signalfd (.polls fd₁ s₁) := by
      intro fd₁ s₁ h
      cases h
      exact ⟨sig, conn, hloop, hsig, hsigfd, hconn⟩
    cases hrev : turn.revents with
    | none =>
      have hawait : Workers.workerAwait turn.seen
          ⟨loop', s.worker.record (.sent newWorkerRequest)⟩ =
          some (-1, ⟨loop', s.worker.record (.sent newWorkerRequest)⟩) := by
        have hseen : turn.seen.revents = none := hrev
        simp [Workers.workerAwait, eventLoopRun, hseen]
      exact ⟨-1, _, hawait, hpolls, fun hnot => absurd (by decide) hnot⟩
    | some revents =>
      have hrev' : turn.seen.revents = some revents := hrev
      obtain ⟨ret, s', hawait, hquiet, hserved⟩ := workerAwait_spec
        (s := ⟨loop', s.worker.record (.sent newWorkerRequest)⟩) hloop hsig hconn hrev'
      refine ⟨ret, s', hawait, hpolls, ?_⟩
      intro hret hstopping
      by_cases h1 : revents 1 = 0
      · -- only the signal was there, and it has stopped the worker
        have h0 : revents 0 ≠ 0 := by simpa [Round.reports, hrev, h1] using hreports
        rw [(hquiet h1).2, afterSignal_stopping h0] at hstopping
        cases hstopping
      · obtain ⟨hworker, hentries', hret'⟩ := hserved h1
        rcases servedConn_cases turn.seen (revents 1) fd
            (afterSignal revents (s.worker.record (.sent newWorkerRequest))) with
          ⟨hfail, -⟩ | ⟨request, run, hrecv, hparse, hstate, -⟩
        · rw [hret', hfail] at hret
          exact absurd (by decide) hret
        · have h0 : revents 0 = 0 := by
            by_contra hsignalled
            rw [hworker, hstate] at hstopping
            simp [afterSignal, hsignalled, workerSetStopping, Worker.record] at hstopping
          refine ⟨⟨sig, hentries', hsig, hsigfd⟩, request, run, seen_received hrecv, hparse,
            by rw [hworker, hstate], ?_⟩
          rw [hworker, hstate]
          simp [afterSignal, h0, Worker.record]

theorem workerDoRun_defined (turn : Turn) {worker : Worker} {run : Run}
    (hrun : worker.run = some run) : ∃ r, workerDoRun turn worker = some r := by
  cases houtput : turn.outputOk with
  | false => exact ⟨_, workerDoRun_noOutput houtput worker⟩
  | true =>
    obtain ⟨ret, worker', -, hdo, -⟩ := workerDoRun_cases turn.seen hrun
    exact ⟨(ret, worker'), by rw [workerDoRun_eq houtput, hdo]⟩

/-- **One turn**: it is defined, its calls are fresh, and if the worker goes on, it is between two
turns again. -/
theorem workerTurn_fresh {signalfd : Nat} {turn : Turn} {s : State}
    (hreports : turn.reports = true) (hrest : OnlySignal signalfd s) :
    ∃ s' r, (workerTurn turn s).2 = some (s', r) ∧ (r = none → OnlySignal signalfd s') ∧
      ∀ m ∈ (workerTurn turn s).1, Fresh signalfd m := by
  obtain ⟨ret, s₁, hget, hpolls, hrun⟩ := workerGetRun_fresh hreports hrest
  unfold workerTurn
  simp only [hget]
  generalize hfirst : (match workerAnnounce turn s with
    | (.error _, _) => []
    | (.ok fd, s) => [Moment.polls fd s]) = polls
  have hfresh : ∀ m ∈ polls, Fresh signalfd m := by
    subst hfirst
    intro m hm
    split at hm
    · cases hm
    · rename_i fd s₂ hannounce
      obtain rfl := List.mem_singleton.1 hm
      exact hpolls fd s₂ hannounce
  by_cases hret : ret < 0
  · rw [if_pos hret]
    exact ⟨s₁, some ret, rfl, nofun, hfresh⟩
  · rw [if_neg hret]
    cases hstopping : s₁.worker.stopping with
    | true => exact ⟨s₁, some ret, rfl, nofun, hfresh⟩
    | false =>
      have hjob := hrun hret hstopping
      obtain ⟨hsignal, request, run, -, -, hlive, -⟩ := id hjob
      obtain ⟨⟨ret₂, worker₂⟩, hdo⟩ := workerDoRun_defined turn hlive
      simp only [hdo, Bool.false_eq_true, if_false]
      refine ⟨_, _, rfl, fun _ => hsignal, ?_⟩
      intro m hm
      rcases List.mem_append.1 hm with hm | hm
      · exact hfresh m hm
      · obtain rfl := List.mem_singleton.1 hm
        exact hjob

/-- Every execution, from a state between two turns. -/
theorem execution_fresh {signalfd : Nat} (turns : List Turn) :
    ∀ {s : State}, (∀ turn ∈ turns, turn.reports = true) → OnlySignal signalfd s →
      (∃ r, (execution turns s).2 = some r) ∧ ∀ m ∈ (execution turns s).1, Fresh signalfd m := by
  induction turns with
  | nil =>
    intro s _ _
    rw [execution]
    exact ⟨⟨_, rfl⟩, List.forall_mem_nil _⟩
  | cons turn turns ih =>
    intro s hreports hrest
    obtain ⟨s', r, hturn, hnext, hfresh⟩ :=
      workerTurn_fresh (hreports turn List.mem_cons_self) hrest
    rw [execution]
    generalize workerTurn turn s = done at hturn hfresh
    obtain ⟨calls, outcome⟩ := done
    obtain rfl : outcome = some (s', r) := hturn
    cases r with
    | some ret => exact ⟨⟨_, rfl⟩, hfresh⟩
    | none =>
      obtain ⟨hdone, hlater⟩ :=
        ih (fun turn hturn => hreports turn (List.mem_cons_of_mem _ hturn)) (hnext rfl)
      exact ⟨hdone, fun m hm => (List.mem_append.1 hm).elim (hfresh m) (hlater m)⟩

/-- **The worker never runs a stale job**: in every execution of `worker_main`, whatever arrives
and whatever fails, no pointer to a dead run is followed, each call of `worker_do_run` finds a run
parsed in the call of `worker_get_run` just before, and no connection is polled that is not the
one just opened. -/
theorem worker_never_stale (signalfd : Nat) (turns : List Turn)
    (hreports : ∀ turn ∈ turns, turn.reports = true) :
    (∃ r, workerMain turns (workerCreate signalfd) = some r) ∧
      ∀ m ∈ moments turns (workerCreate signalfd), Fresh signalfd m := by
  have hfresh := execution_fresh turns hreports (workerCreate_onlySignal signalfd)
  rw [execution_eq] at hfresh
  exact hfresh

/-- A turn in which run 7 arrives and its script succeeds; nothing fails. -/
def jobTurn : Turn :=
  ⟨startRound ⟨true, true, true, [(true, some ⟨0, []⟩)]⟩, true, true, true, true, true, true, true⟩

/-- Two runs, one after the other. -/
theorem worker_never_stale_twice :
    (moments [jobTurn, jobTurn] (workerCreate 3)).length = 4 ∧
      (∃ r, workerMain [jobTurn, jobTurn] (workerCreate 3) = some r) ∧
      ∀ m ∈ moments [jobTurn, jobTurn] (workerCreate 3), Fresh 3 m := by
  refine ⟨rfl, worker_never_stale 3 [jobTurn, jobTurn] ?_⟩
  intro turn hturn
  simp only [List.mem_cons, List.not_mem_nil, or_false, or_self] at hturn
  rw [hturn]
  rfl

end Cimple.Turns
