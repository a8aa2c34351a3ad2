import Cimple.Protocol

/-!
# The worker (`ci.c`, `worker.c`)

`worker_main` announces itself to the server on a new connection, waits in one round of its
event loop for a request on that connection or for a termination signal, executes the run it has
been given and reports the result on another connection.

* `ciRunGitRepo` — the steps of a CI run: each may fail, the last captures a process.
* `workerAnnounce`, `workerAwait` — the two halves of `worker_get_run`; `workerDoRun`;
  `workerMain` — the loop.  `Round` is what the outside world does in one turn of it.
* `Event` — what the worker does that others can see, in order.

`worker->run` is an `Option`: `none` is a pointer to no live run, and following it is undefined
(`none` as the result).  Allocations succeed, and the descriptors the worker opens and closes in
a turn are not recorded.

Principal results: `workerAwait_spec` (one round of the event loop), `workerGetRun_spec` and
`accountability`.
-/

set_option autoImplicit false

namespace Cimple.Workers

open Octets JsonValue Events Cimple.JsonRpc Cimple.Command Cimple.RunQueue Cimple.Protocol

/-! ## A CI run -/

/-- What becomes of the steps of `ci_run_git_repo`: whether each one succeeds, and for each of
the CI scripts whether it exists and what executing it yields. -/
structure CiSteps where
  clone : Bool
  checkout : Bool
  chdir : Bool
  scripts : List (Bool × Option ProcessOutput)

/-- `ci_run`: the first of the scripts that exists is executed. -/
def ciRun : List (Bool × Option ProcessOutput) → Option ProcessOutput
  | [] => none
  | (fileExists, output) :: scripts => if !fileExists then ciRun scripts else output

/-- `ci_run_git_repo`; `none` is a negative value. -/
def ciRunGitRepo (steps : CiSteps) : Option ProcessOutput :=
  if steps.clone && steps.checkout then
    if steps.chdir then ciRun steps.scripts else none
  else none

/-! ## State -/

/-- What a worker does that others can see. -/
inductive Event where
  /-- A request sent to the server in full. -/
  | sent (request : JsonrpcRequest)
  /-- `worker_set_stopping`. -/
  | signalled
  /-- A run taken by `worker_handle_cmd_start_run`. -/
  | accepted (run : Run)
  /-- A call of `ci_run_git_repo`, and its output if it has not failed. -/
  | ci (url rev : CStr) (output : Option ProcessOutput)

/-- `struct worker`, without its event loop. -/
structure Worker where
  stopping : Bool
  run : Option Run
  events : List Event

/-- An event is recorded. -/
def Worker.record (worker : Worker) (e : Event) : Worker :=
  { worker with events := worker.events ++ [e] }

/-- The handlers in the worker's event loop. -/
inductive Handler where
  | setStopping
  | handleEvent
  deriving DecidableEq

/-- The worker and its event loop. -/
structure State where
  loop : EventLoop Handler
  worker : Worker

/-- `worker_create`: the field `run` is not initialised. -/
def workerCreate (signalfd : Nat) : State :=
  ⟨eventLoopAddInternal eventLoopCreate signalfd pollIn .setStopping false, ⟨false, none, []⟩⟩

/-! ## Handlers -/

/-- `worker_set_stopping`. -/
def workerSetStopping (worker : Worker) : Worker :=
  { worker.record .signalled with stopping := true }

/-- `worker_handle_cmd_start_run`. -/
def workerHandleCmdStartRun : CmdHandler Worker := fun request _ worker =>
  match requestParseStartRun request with
  | .error _ => ⟨-1, none, worker⟩
  | .ok run => ⟨0, none, { worker.record (.accepted run) with run := some run }⟩

/-- The table of commands. -/
def workerCommands : List (CmdDesc Worker) := [⟨cmdStartRun, workerHandleCmdStartRun⟩]

/-- The outside world in one turn of `worker_main`: the connection for the announcement and
whether it can be sent on; the result of `poll` (the signal's descriptor comes first); what
arrives on the connection, and whether an answer to it can be sent; the CI run; and the
connection for the report. -/
structure Round where
  connect : Option Nat
  announceOk : Bool
  entryOk : Bool
  revents : Option (Nat → Int16)
  received : Option Json
  answerOk : Bool
  ci : CiSteps
  reconnect : Option Nat
  reportOk : Bool

/-- The handlers, as the event loop calls them. -/
def handlers (round : Round) : Call Handler Worker := fun handler fd revents loop worker =>
  match handler with
  | .setStopping => some (0, loop, workerSetStopping worker)
  | .handleEvent =>
    let served := cmdDispatcherHandleEvent workerCommands fd revents round.received
      round.answerOk worker
    some (served.ret, loop, served.state)

/-! ## The main loop -/

/-- `jsonrpc_request_send`. -/
def jsonrpcRequestSend (ok : Bool) (request : JsonrpcRequest) (worker : Worker) :
    Int32 × Worker :=
  if ok then (0, worker.record (.sent request)) else (-1, worker)

/-- `worker_get_run` up to the entry in the event loop: the connection, or a negative value. -/
def workerAnnounce (round : Round) (s : State) : Except Int32 Nat × State :=
  match round.connect with
  | none => (.error (-1), s)
  | some fd =>
    match requestCreateNewWorker with
    | .error _ => (.error (-1), s)
    | .ok request =>
      let (ret, worker) := jsonrpcRequestSend round.announceOk request s.worker
      if ret < 0 then (.error ret, { s with worker })
      else
        match eventLoopAddOnce round.entryOk s.loop fd pollIn .handleEvent with
        | none => (.error (-1), { s with worker })
        | some loop => (.ok fd, ⟨loop, worker⟩)

/-- The rest of `worker_get_run`: a round of the event loop. -/
def workerAwait (round : Round) (s : State) : Option (Int32 × State) :=
  (eventLoopRun (handlers round) round.revents s.loop s.worker).map fun r =>
    (r.1, ⟨r.2.1, r.2.2⟩)

/-- `worker_get_run`. -/
def workerGetRun (round : Round) (s : State) : Option (Int32 × State) :=
  match workerAnnounce round s with
  | (.error ret, s) => some (ret, s)
  | (.ok _, s) => workerAwait round s

/-- `worker_do_run`; the run is destroyed whatever happens. -/
def workerDoRun (round : Round) (worker : Worker) : Option (Int32 × Worker) := do
  let run ← worker.run
  let result := ciRunGitRepo round.ci
  let worker := { worker.record (.ci run.repoUrl run.repoRev result) with run := none }
  match result with
  | none => some (-1, worker)
  | some result =>
    match requestCreateFinishedRun run.id result with
    | .error _ => some (-1, worker)
    | .ok finishedRequest =>
      match round.reconnect with
      | none => some (-1, worker)
      | some _ => some (jsonrpcRequestSend round.reportOk finishedRequest worker)

/-- `worker_main`, for the turns the outside world has come to: the state, and the value
returned if it has returned. -/
def workerMain : List Round → State → Option (State × Option Int32)
  | [], s => some (s, none)
  | round :: rounds, s => do
    let (ret, s) ← workerGetRun round s
    if ret < 0 then some (s, some ret)
    else if s.worker.stopping then some (s, some ret)
    else
      let (ret, worker) ← workerDoRun round s.worker
      let s := { s with worker }
      if ret < 0 then some (s, some ret) else workerMain rounds s

/-! ## One turn -/

/-- The entry of the signal's descriptor. -/
def IsSignalEntry (e : EventFd Handler) : Prop := e.handler = .setStopping ∧ e.once = false

/-- The entry of a connection. -/
def IsConnEntry (fd : Nat) (e : EventFd Handler) : Prop :=
  e.handler = .handleEvent ∧ e.once = true ∧ e.fd = fd

/-- Between turns the event loop holds the signal's descriptor only. -/
def AtRest (s : State) : Prop := ∃ sig, s.loop.entries = [sig] ∧ IsSignalEntry sig

theorem workerCreate_atRest (signalfd : Nat) : AtRest (workerCreate signalfd) :=
  ⟨_, rfl, rfl, rfl⟩

/-- The worker after the signal's handler has had its turn. -/
def afterSignal (revents : Nat → Int16) (worker : Worker) : Worker :=
  if revents 0 = 0 then worker else workerSetStopping worker

/-- What the handler of the connection does. -/
def servedConn (round : Round) (revents : Int16) (fd : Nat) (worker : Worker) : Served Worker :=
  cmdDispatcherHandleEvent workerCommands fd revents round.received round.answerOk worker

theorem afterSignal_stopping {revents : Nat → Int16} (h : revents 0 ≠ 0) (worker : Worker) :
    (afterSignal revents worker).stopping = true := by
  simp [afterSignal, h, workerSetStopping]

/-- **One round of the worker's event loop**: the signal's handler, if the signal is there, and
then the connection's, if something has happened to it, which takes the entry away. -/
theorem workerAwait_spec {round : Round} {s : State} {sig conn : EventFd Handler} {fd : Nat}
    (hentries : s.loop.entries = [sig, conn]) (hsig : IsSignalEntry sig)
    (hconn : IsConnEntry fd conn) {revents : Nat → Int16} (hrev : round.revents = some revents) :
    ∃ ret s', workerAwait round s = some (ret, s') ∧
      (revents 1 = 0 → ret = 0 ∧ s'.worker = afterSignal revents s.worker) ∧
      (revents 1 ≠ 0 → s'.worker = (servedConn round (revents 1) fd
          (afterSignal revents s.worker)).state ∧ s'.loop.entries = [sig] ∧
        ret = if (servedConn round (revents 1) fd (afterSignal revents s.worker)).ret < 0 then
          (servedConn round (revents 1) fd (afterSignal revents s.worker)).ret else 0) := by
  obtain ⟨hsigHandler, hsigOnce⟩ := hsig
  obtain ⟨hconnHandler, hconnOnce, hconnFd⟩ := hconn
  have hfds : poll revents (makePollfds s.loop) =
      [⟨sig.fd, sig.events, revents 0⟩, ⟨conn.fd, conn.events, revents 1⟩] := by
    simp [poll, makePollfds, s.loop.counted, hentries, List.mapIdx_cons]
  have hnext : TailQueue.next EventFd.addr sig.addr s.loop.entries = some conn := by
    simp [TailQueue.next, hentries]
  -- the signal's entry does not touch the loop
  have hfirst : ∀ ret, handleEntries (handlers round) (poll revents (makePollfds s.loop))
      s.loop.entries.head? ret s.loop s.worker =
      handleEntries (handlers round) [⟨conn.fd, conn.events, revents 1⟩] (some conn) ret s.loop
        (afterSignal revents s.worker) := by
    intro ret
    rw [hfds, hentries, List.head?_cons]
    by_cases h0 : revents 0 = 0
    · simp [handleEntries, h0, hnext, afterSignal]
    · simp [handleEntries, h0, hnext, afterSignal, handleEntry, handlers, hsigHandler, hsigOnce]
  have hrun : workerAwait round s =
      (handleEntries (handlers round) [⟨conn.fd, conn.events, revents 1⟩] (some conn) 0 s.loop
        (afterSignal revents s.worker)).map fun r => (r.1, ⟨r.2.1, r.2.2⟩) := by
    rw [workerAwait, hrev]
    exact congrArg _ (hfirst 0)
  rw [hrun]
  by_cases h1 : revents 1 = 0
  · exact ⟨0, ⟨s.loop, afterSignal revents s.worker⟩, by simp [handleEntries, h1],
      fun _ => ⟨rfl, rfl⟩, fun h => absurd h1 h⟩
  · have hcall : handlers round conn.handler conn.fd (revents 1) s.loop
        (afterSignal revents s.worker) =
        some ((servedConn round (revents 1) fd (afterSignal revents s.worker)).ret, s.loop,
          (servedConn round (revents 1) fd (afterSignal revents s.worker)).state) := by
      simp [handlers, hconnHandler, hconnFd, servedConn]
    obtain ⟨loop', hhandle, hentries'⟩ := handleEntry_spec
      (p := ⟨conn.fd, conn.events, revents 1⟩) hcall
      (show s.loop.entries = [sig] ++ conn :: [] from hentries)
    refine ⟨_, ⟨loop', _⟩, ?_, fun h => absurd h h1, fun _ => ⟨rfl, ?_, rfl⟩⟩
    · simp [handleEntries, h1, hhandle]
    · simpa [hconnOnce] using hentries'

/-- **A request that is served is an accepted run**; anything else fails and leaves the worker
as it was. -/
theorem servedConn_cases (round : Round) (revents : Int16) (fd : Nat) (worker : Worker) :
    let served := servedConn round revents fd worker
    (served.ret = -1 ∧ served.state = worker) ∨
      ∃ request run, jsonrpcRequestRecv round.received = some request ∧
        requestParseStartRun request = .ok run ∧
        served.state = { worker.record (.accepted run) with run := some run } ∧
        (served.ret = 0 ∨ round.answerOk = false ∧ served.ret = -1) := by
  simp only [servedConn, cmdDispatcherHandleEvent]
  split
  · exact .inl ⟨rfl, rfl⟩
  · rcases cmdDispatcherHandleConnInternal_spec workerCommands fd round.received round.answerOk
      worker with ⟨-, hret, hstate⟩ | ⟨request, hrecv, hstate, hret⟩
    · exact .inl ⟨hret, hstate⟩
    · rw [hstate]
      -- the table has one entry: it is called, or the method is unknown
      have hhandled : cmdDispatcherHandleInternal workerCommands request fd worker =
          workerHandleCmdStartRun request fd worker ∨
          cmdDispatcherHandleInternal workerCommands request fd worker = ⟨-1, none, worker⟩ := by
        unfold cmdDispatcherHandleInternal
        cases hcmd : cmdOf workerCommands request with
        | none => exact .inr rfl
        | some cmd =>
          obtain rfl : cmd = ⟨cmdStartRun, workerHandleCmdStartRun⟩ := by
            simpa [workerCommands] using cmdOf_mem hcmd
          exact .inl rfl
      rcases hhandled with hhandled | hhandled
      · rw [hhandled] at hret ⊢
        cases hparse : requestParseStartRun request with
        | error e =>
          simp only [workerHandleCmdStartRun, hparse] at hret ⊢
          exact .inl ⟨hret.elim id And.right, trivial⟩
        | ok run =>
          simp only [workerHandleCmdStartRun, hparse] at hret ⊢
          exact .inr ⟨request, run, hrecv, hparse, rfl, hret⟩
      · rw [hhandled] at hret ⊢
        exact .inl ⟨hret.elim id And.right, rfl⟩

/-- A successful `poll` without a timeout reports something. -/
def Round.reports (round : Round) : Bool :=
  match round.revents with
  | none => true
  | some revents => revents 0 ≠ 0 || revents 1 ≠ 0

/-- **A round after which the worker goes on has accepted a run**, the one that was received. -/
theorem workerAwait_cases (round : Round) {s : State} {sig conn : EventFd Handler} {fd : Nat}
    (hentries : s.loop.entries = [sig, conn]) (hsig : IsSignalEntry sig)
    (hconn : IsConnEntry fd conn) :
    ∃ ret s', workerAwait round s = some (ret, s') ∧
      (round.reports = true → ¬ ret < 0 → s'.worker.stopping = false →
        ∃ request run, jsonrpcRequestRecv round.received = some request ∧
          requestParseStartRun request = .ok run ∧ s'.worker.run = some run ∧ AtRest s') := by
  cases hrev : round.revents with
  | none => exact ⟨-1, s, by simp [workerAwait, eventLoopRun, hrev],
      fun _ hret => absurd (by decide) hret⟩
  | some revents =>
    obtain ⟨ret, s', hawait, hquiet, hserved⟩ := workerAwait_spec hentries hsig hconn hrev
    refine ⟨ret, s', hawait, fun hreports hret hstopping => ?_⟩
    by_cases h1 : revents 1 = 0
    · -- only the signal was there, and it has stopped the worker
      have h0 : revents 0 ≠ 0 := by simpa [Round.reports, hrev, h1] using hreports
      rw [(hquiet h1).2, afterSignal_stopping h0] at hstopping
      cases hstopping
    · obtain ⟨hworker, hloop, hret'⟩ := hserved h1
      rcases servedConn_cases round (revents 1) fd (afterSignal revents s.worker) with
        ⟨hfail, -⟩ | ⟨request, run, hrecv, hparse, hstate, -⟩
      · rw [hret', hfail] at hret
        exact absurd (by decide) hret
      · exact ⟨request, run, hrecv, hparse, by rw [hworker, hstate], sig, hloop, hsig⟩

/-- A turn in which connecting to the server, sending to it and allocating succeed, and a
successful `poll` reports something. -/
structure Round.Ok (round : Round) : Prop where
  connect : round.connect.isSome = true
  announce : round.announceOk = true
  entry : round.entryOk = true
  answer : round.answerOk = true
  reconnect : round.reconnect.isSome = true
  report : round.reportOk = true
  poll : round.reports = true

/-- The announcement. -/
def newWorkerRequest : JsonrpcRequest := ⟨.object (requestMembers none cmdNewWorker)⟩

/-- **What an announcement comes to**: it fails, and nothing is registered, or it is sent and
leaves the connection in the event loop. -/
theorem workerAnnounce_cases (round : Round) (s : State) :
    (∃ ret s', workerAnnounce round s = (.error ret, s') ∧ ret < 0 ∧ s'.loop = s.loop ∧
        (s'.worker = s.worker ∨ s'.worker = s.worker.record (.sent newWorkerRequest)) ∧
        ¬ (round.connect.isSome = true ∧ round.announceOk = true ∧ round.entryOk = true)) ∨
      ∃ fd conn loop', round.connect = some fd ∧ workerAnnounce round s =
          (.ok fd, ⟨loop', s.worker.record (.sent newWorkerRequest)⟩) ∧
        loop'.entries = s.loop.entries ++ [conn] ∧ IsConnEntry fd conn := by
  have hneg : (-1 : Int32) < 0 := by decide
  cases hfd : round.connect with
  | none => exact .inl ⟨-1, s, by simp [workerAnnounce, hfd], hneg, rfl, .inl rfl, by simp⟩
  | some fd =>
    cases hannounce : round.announceOk with
    | false => exact .inl ⟨-1, s, by simp [workerAnnounce, hfd, requestCreateNewWorker_eq,
        jsonrpcRequestSend, hannounce, hneg], hneg, rfl, .inl rfl, by simp⟩
    | true =>
      cases hentry : round.entryOk with
      | false =>
        refine .inl ⟨-1, ⟨s.loop, s.worker.record (.sent newWorkerRequest)⟩, ?_, hneg, rfl,
          .inr rfl, by simp⟩
        simp only [workerAnnounce, hfd, requestCreateNewWorker_eq, jsonrpcRequestSend, hannounce,
          hentry, eventLoopAddOnce, if_true]
        rfl
      | true =>
        refine .inr ⟨fd, ⟨s.loop.fresh, fd, pollIn, .handleEvent, true⟩,
          eventLoopAddInternal s.loop fd pollIn .handleEvent true, rfl, ?_, rfl, rfl, rfl, rfl⟩
        simp only [workerAnnounce, hfd, requestCreateNewWorker_eq, jsonrpcRequestSend, hannounce,
          hentry, eventLoopAddOnce, if_true]
        rfl

theorem workerAnnounce_spec {round : Round} {s : State} {sig : EventFd Handler}
    (hentries : s.loop.entries = [sig]) (hok : round.Ok) :
    ∃ fd conn loop', workerAnnounce round s =
        (.ok fd, ⟨loop', s.worker.record (.sent newWorkerRequest)⟩) ∧
      loop'.entries = [sig, conn] ∧ IsConnEntry fd conn := by
  rcases workerAnnounce_cases round s with
    ⟨-, -, -, -, -, -, hfailed⟩ | ⟨fd, conn, loop', -, hannounce, hloop, hconn⟩
  · exact absurd ⟨hok.connect, hok.announce, hok.entry⟩ hfailed
  · exact ⟨fd, conn, loop', hannounce, by rw [hloop, hentries]; rfl, hconn⟩

/-- The event of a termination signal, if there was one. -/
def signals (signalled : Bool) : List Event := if signalled then [.signalled] else []

/-- **What `worker_get_run` comes to** while the worker is not stopping: either no run is
accepted, and it has failed or a signal has come, or one run is accepted, with a signal or
without. -/
theorem workerGetRun_spec {round : Round} {s : State} (hrest : AtRest s) (hok : round.Ok)
    (hstopping : s.worker.stopping = false) :
    ∃ ret s' signalled, workerGetRun round s = some (ret, s') ∧ s'.worker.stopping = signalled ∧
      (s'.worker.events = s.worker.events ++ .sent newWorkerRequest :: signals signalled ∧
          (ret < 0 ∨ signalled = true) ∨
        ∃ run, s'.worker.events = s.worker.events ++ .sent newWorkerRequest ::
            (signals signalled ++ [.accepted run]) ∧
          s'.worker.run = some run ∧ ret = 0 ∧ AtRest s') := by
  obtain ⟨sig, hentries, hsig⟩ := hrest
  obtain ⟨fd, conn, loop', hannounce, hentries', hconn⟩ := workerAnnounce_spec hentries hok
  have hget : workerGetRun round s =
      workerAwait round ⟨loop', s.worker.record (.sent newWorkerRequest)⟩ := by
    simp only [workerGetRun, hannounce]
  rw [hget]
  cases hrev : round.revents with
  | none =>
    refine ⟨-1, ⟨loop', s.worker.record (.sent newWorkerRequest)⟩, false,
      by simp [workerAwait, eventLoopRun, hrev], hstopping, .inl ⟨?_, .inl (by decide)⟩⟩
    simp [Worker.record, signals]
  | some revents =>
    obtain ⟨ret, s', hawait, hquiet, hserved⟩ := workerAwait_spec
      (s := ⟨loop', s.worker.record (.sent newWorkerRequest)⟩) hentries' hsig hconn hrev
    -- the signal's handler has run, or has not
    obtain ⟨signalled, hsignalled, hevents, hstop⟩ : ∃ signalled : Bool,
        (revents 0 ≠ 0 → signalled = true) ∧
        (afterSignal revents (s.worker.record (.sent newWorkerRequest))).events =
          s.worker.events ++ .sent newWorkerRequest :: signals signalled ∧
        (afterSignal revents (s.worker.record (.sent newWorkerRequest))).stopping =
          signalled := by
      by_cases h0 : revents 0 = 0
      · exact ⟨false, fun h => absurd h0 h, by simp [afterSignal, h0, signals, Worker.record],
          by simpa [afterSignal, h0, Worker.record] using hstopping⟩
      · exact ⟨true, fun _ => rfl, by simp [afterSignal, h0, signals, Worker.record,
          workerSetStopping], by simp [afterSignal, h0, workerSetStopping]⟩
    by_cases h1 : revents 1 = 0
    · obtain ⟨-, hworker⟩ := hquiet h1
      have h0 : revents 0 ≠ 0 := by simpa [Round.reports, hrev, h1] using hok.poll
      exact ⟨ret, s', signalled, hawait, by rw [hworker, hstop],
        .inl ⟨by rw [hworker, hevents], .inr (hsignalled h0)⟩⟩
    · obtain ⟨hworker, hloop, hret⟩ := hserved h1
      rcases servedConn_cases round (revents 1) fd
          (afterSignal revents (s.worker.record (.sent newWorkerRequest))) with
        ⟨hfail, hsame⟩ | ⟨-, run, -, -, hstate, hok' | ⟨hanswer, -⟩⟩
      · refine ⟨ret, s', signalled, hawait, by rw [hworker, hsame, hstop],
          .inl ⟨by rw [hworker, hsame, hevents], .inl ?_⟩⟩
        rw [hret, hfail]
        decide
      · refine ⟨ret, s', signalled, hawait, by rw [hworker, hstate]; exact hstop,
          .inr ⟨run, ?_, by rw [hworker, hstate], ?_, sig, hloop, hsig⟩⟩
        · rw [hworker, hstate]
          show (afterSignal revents _).events ++ [.accepted run] = _
          rw [hevents, List.append_assoc]
          rfl
        · rw [hret, hok']
          rfl
      · rw [hok.answer] at hanswer
        cases hanswer

/-- **What `worker_do_run` comes to**: a CI run of the worker's run, and a report of its output
unless the CI run has failed or the report cannot be sent. -/
theorem workerDoRun_cases (round : Round) {worker : Worker} {run : Run}
    (hrun : worker.run = some run) :
    ∃ ret worker' sent, workerDoRun round worker = some (ret, worker') ∧
      worker'.stopping = worker.stopping ∧ worker'.events = worker.events ++
        .ci run.repoUrl run.repoRev (ciRunGitRepo round.ci) :: sent ∧
      (ret < 0 ∧ sent = [] ∧ ¬ ((ciRunGitRepo round.ci).isSome = true ∧
          round.reconnect.isSome = true ∧ round.reportOk = true) ∨
        ∃ output, ciRunGitRepo round.ci = some output ∧ ret = 0 ∧
          sent = [.sent ⟨finishedRunJson run.id output⟩]) := by
  have hneg : (-1 : Int32) < 0 := by decide
  simp only [workerDoRun, hrun, Option.bind_eq_bind, Option.bind_some]
  cases hci : ciRunGitRepo round.ci with
  | none => exact ⟨-1, _, [], rfl, rfl, rfl, .inl ⟨hneg, rfl, by simp⟩⟩
  | some output =>
    simp only [requestCreateFinishedRun_eq]
    cases hfd : round.reconnect with
    | none => exact ⟨-1, _, [], rfl, rfl, rfl, .inl ⟨hneg, rfl, by simp⟩⟩
    | some fd =>
      cases hreport : round.reportOk with
      | false => exact ⟨-1, _, [], rfl, rfl, rfl, .inl ⟨hneg, rfl, by simp⟩⟩
      | true =>
        exact ⟨0, _, _, rfl, rfl, by simp [Worker.record], .inr ⟨output, rfl, rfl, rfl⟩⟩

theorem workerDoRun_spec {round : Round} {worker : Worker} {run : Run}
    (hrun : worker.run = some run) (hok : round.Ok) :
    ∃ ret worker', workerDoRun round worker = some (ret, worker') ∧
      worker'.stopping = worker.stopping ∧
      (ret < 0 ∧ worker'.events = worker.events ++ [.ci run.repoUrl run.repoRev none] ∨
        ∃ output, ret = 0 ∧ worker'.events = worker.events ++
          [.ci run.repoUrl run.repoRev (some output), .sent ⟨finishedRunJson run.id output⟩]) := by
  obtain ⟨ret, worker', sent, hdo, hstop, hevents,
    ⟨hret, rfl, hfailed⟩ | ⟨output, hci, rfl, rfl⟩⟩ := workerDoRun_cases round hrun
  · have hci : ciRunGitRepo round.ci = none := by
      by_contra hsome
      exact hfailed ⟨Option.isSome_iff_ne_none.2 hsome, hok.reconnect, hok.report⟩
    exact ⟨ret, worker', hdo, hstop, .inl ⟨hret, by rw [hevents, hci]⟩⟩
  · exact ⟨0, worker', hdo, hstop, .inr ⟨output, rfl, by rw [hevents, hci]⟩⟩

/-! ## Accountability -/

/-- A `new-worker` message. -/
def Event.announces : Event → Bool
  | .sent request => jsonrpcRequestGetMethod request = some cmdNewWorker
  | _ => false

/-- The events up to the next announcement. -/
def untilAnnounced (events : List Event) : List Event := events.takeWhile fun e => !e.announces

/-- **A reported run**: no signal had come when it was accepted, and before the next announcement
one CI run of its URL and revision has succeeded and one message has been sent, `finished-run`
with its identifier and that output. -/
def Reported (before : List Event) (run : Run) (after : List Event) : Prop :=
  .signalled ∉ before ∧ ∃ output, untilAnnounced after =
    [.ci run.repoUrl run.repoRev (some output), .sent ⟨finishedRunJson run.id output⟩]

/-- **A dropped run**: a signal had come when it was accepted, or its CI run has failed; the
worker does nothing more. -/
def Dropped (before : List Event) (run : Run) (after : List Event) : Prop :=
  .signalled ∈ before ∧ after = [] ∨
    .signalled ∉ before ∧ after = [.ci run.repoUrl run.repoRev none]

/-- Every accepted run has been reported. -/
def AllReported (events : List Event) : Prop :=
  ∀ before run after, events = before ++ .accepted run :: after → Reported before run after

theorem newWorkerRequest_announces : (Event.sent newWorkerRequest).announces = true := by
  have h := (jsonrpcRequestFromJson_requestMembers none cmdNewWorker).2.1
  simp [Event.announces, newWorkerRequest, h]

theorem ci_announces (url rev : CStr) (output : Option ProcessOutput) :
    (Event.ci url rev output).announces = false := rfl

theorem finishedRun_announces (id : Int32) (output : ProcessOutput) :
    (Event.sent ⟨finishedRunJson id output⟩).announces = false := by
  have h := (jsonrpcRequestFromJson_requestJson none cmdFinishedRun
    [(finishedKeyRunId, .int id.toInt), (finishedKeyEc, .int output.ec.toInt),
      (finishedKeyData, .string (base64Encode output.data).bytes)]).2.1
  have hne : cmdFinishedRun ≠ cmdNewWorker := by decide
  simp [Event.announces, finishedRunJson, h, hne]

theorem untilAnnounced_append {e : Event} (he : e.announces = true) (events turn : List Event) :
    untilAnnounced (events ++ e :: turn) = untilAnnounced events := by
  have hnil : (e :: turn).takeWhile (fun e => !e.announces) = [] := by simp [he]
  unfold untilAnnounced
  rw [List.takeWhile_append, hnil, List.append_nil]
  split
  · rename_i hlen
    exact (List.IsPrefix.eq_of_length (List.takeWhile_prefix _) hlen).symm
  · rfl

theorem acceptance_cases {events turn before after : List Event} {run : Run} {e : Event}
    (he : e.announces = true) (h : events ++ e :: turn = before ++ .accepted run :: after) :
    (∃ after', events = before ++ .accepted run :: after' ∧
        untilAnnounced after = untilAnnounced after') ∨
      ∃ before', before = events ++ e :: before' ∧ turn = before' ++ .accepted run :: after := by
  rcases List.append_eq_append_iff.1 h with ⟨middle, rfl, hmiddle⟩ | ⟨middle, rfl, hmiddle⟩
  · cases middle with
    | nil => cases hmiddle; cases he
    | cons e' middle =>
      obtain ⟨rfl, rfl⟩ := List.cons.inj hmiddle
      exact .inr ⟨middle, rfl, rfl⟩
  · cases middle with
    | nil => cases hmiddle; cases he
    | cons e' middle =>
      obtain ⟨rfl, rfl⟩ := List.cons.inj hmiddle
      exact .inl ⟨middle, rfl, untilAnnounced_append he middle turn⟩

/-- A turn that accepts nothing, or a run it reports, leaves every accepted run reported. -/
theorem AllReported.turn {events turn : List Event} (h : AllReported events)
    (hcalm : Event.signalled ∉ events)
    (hturn : (∀ run, .accepted run ∉ turn) ∨ ∃ run output,
      turn = [.accepted run, .ci run.repoUrl run.repoRev (some output),
        .sent ⟨finishedRunJson run.id output⟩]) :
    AllReported (events ++ .sent newWorkerRequest :: turn) := by
  intro before run after hsplit
  rcases acceptance_cases newWorkerRequest_announces hsplit with
    ⟨after', hevents, huntil⟩ | ⟨before', rfl, hturn'⟩
  · obtain ⟨hbefore, output, hreport⟩ := h before run after' hevents
    exact ⟨hbefore, output, by rw [huntil, hreport]⟩
  · rcases hturn with hnone | ⟨run', output, rfl⟩
    · exact absurd (hturn' ▸ by simp) (hnone run)
    · have hfirst : before' = [] ∧ run' = run ∧
          after = [.ci run'.repoUrl run'.repoRev (some output),
            .sent ⟨finishedRunJson run'.id output⟩] := by
        match before', hturn' with
        | [], hturn' => simp_all
        | [_], hturn' => simp at hturn'
        | [_, _], hturn' => simp at hturn'
        | _ :: _ :: _ :: _, hturn' => simp at hturn'
      obtain ⟨rfl, rfl, rfl⟩ := hfirst
      refine ⟨by simpa using hcalm, output, ?_⟩
      simp [untilAnnounced, ci_announces, finishedRun_announces]

theorem AllReported.drop {events turn : List Event} (h : AllReported events)
    (hturn : ∀ before run after, turn = before ++ .accepted run :: after →
      Dropped (events ++ .sent newWorkerRequest :: before) run after)
    {before after : List Event} {run : Run}
    (hsplit : events ++ .sent newWorkerRequest :: turn = before ++ .accepted run :: after) :
    Reported before run after ∨ Dropped before run after := by
  rcases acceptance_cases newWorkerRequest_announces hsplit with
    ⟨after', hevents, huntil⟩ | ⟨before', rfl, hturn'⟩
  · obtain ⟨hbefore, output, hreport⟩ := h before run after' hevents
    exact .inl ⟨hbefore, output, by rw [huntil, hreport]⟩
  · exact .inr (hturn before' run after hturn')

/-- The one acceptance of a turn. -/
theorem acceptance_in_turn {signalled : Bool} {rest before after : List Event} {run run' : Run}
    (hrest : ∀ r, .accepted r ∉ rest)
    (h : signals signalled ++ .accepted run :: rest = before ++ .accepted run' :: after) :
    before = signals signalled ∧ run = run' ∧ after = rest := by
  have hnone : ∀ r, .accepted r ∉ signals signalled := by
    intro r
    cases signalled <;> simp [signals]
  rcases List.append_eq_append_iff.1 h with ⟨middle, rfl, hmiddle⟩ | ⟨middle, hbefore, hmiddle⟩
  · cases middle with
    | nil =>
      obtain ⟨heq, rfl⟩ := List.cons.inj hmiddle
      cases heq
      exact ⟨List.append_nil _, rfl, rfl⟩
    | cons e middle =>
      obtain ⟨rfl, rfl⟩ := List.cons.inj hmiddle
      exact absurd (by simp) (hrest run')
  · cases middle with
    | nil =>
      obtain ⟨heq, rfl⟩ := List.cons.inj hmiddle
      cases heq
      exact ⟨by rw [hbefore, List.append_nil], rfl, rfl⟩
    | cons e middle =>
      obtain ⟨rfl, -⟩ := List.cons.inj hmiddle
      exact absurd (hbefore ▸ by simp) (hnone run')

/-- Every execution, from a worker that has reported what it has accepted. -/
theorem workerMain_accountable (rounds : List Round) :
    ∀ {s : State}, (∀ round ∈ rounds, round.Ok) → AtRest s → s.worker.stopping = false →
      Event.signalled ∉ s.worker.events → AllReported s.worker.events →
      ∃ s' ret, workerMain rounds s = some (s', ret) ∧
        ∀ before run after, s'.worker.events = before ++ .accepted run :: after →
          Reported before run after ∨ Dropped before run after ∧ ret.isSome = true := by
  induction rounds with
  | nil =>
    intro s _ _ _ _ hreported
    exact ⟨s, none, rfl, fun before run after h => .inl (hreported before run after h)⟩
  | cons round rounds ih =>
    intro s hrounds hrest hstopping hcalm hreported
    have hok := hrounds round List.mem_cons_self
    obtain ⟨ret, s₁, signalled, hget, hstop, houtcome⟩ := workerGetRun_spec hrest hok hstopping
    -- a turn that ends the loop has dropped what it has accepted
    have hreturned : ∀ turn, s₁.worker.events = s.worker.events ++ .sent newWorkerRequest :: turn →
        (∀ before run after, turn = before ++ .accepted run :: after →
          Dropped (s.worker.events ++ .sent newWorkerRequest :: before) run after) →
        ∀ before run after, s₁.worker.events = before ++ .accepted run :: after →
          Reported before run after ∨ Dropped before run after ∧ (some ret).isSome = true := by
      intro turn hevents hturn before run after hsplit
      rw [hevents] at hsplit
      exact (hreported.drop hturn hsplit).imp_right fun h => ⟨h, rfl⟩
    simp only [workerMain, hget, Option.bind_eq_bind, Option.bind_some]
    rcases houtcome with ⟨hevents, hend⟩ | ⟨run, hevents, hrun, rfl, hrest₁⟩
    · have hdone := hreturned _ hevents fun before run after h => by
        exfalso
        have hmem : Event.accepted run ∈ signals signalled := h ▸ by simp
        cases signalled <;> simp [signals] at hmem
      by_cases hret : ret < 0
      · exact ⟨s₁, some ret, by simp [hret], hdone⟩
      · have hsig : signalled = true := hend.resolve_left hret
        exact ⟨s₁, some ret, by simp [hret, hstop, hsig], hdone⟩
    · have hret : ¬ (0 : Int32) < 0 := by decide
      cases hsig : signalled with
      | true =>
        refine ⟨s₁, some 0, by simp [hret, hstop, hsig], hreturned _ hevents ?_⟩
        intro before run' after h
        obtain ⟨rfl, rfl, rfl⟩ := acceptance_in_turn (by simp) h
        exact .inl ⟨by simp [hsig, signals], rfl⟩
      | false =>
        obtain ⟨ret₂, worker₂, hdo, hstop₂, hci | ⟨output, rfl, hevents₂⟩⟩ :=
          workerDoRun_spec hrun hok
        · refine ⟨{ s₁ with worker := worker₂ }, some ret₂,
            by simp [hret, hstop, hsig, hdo, hci.1], ?_⟩
          intro before run' after hsplit
          have hall : worker₂.events = s.worker.events ++ .sent newWorkerRequest ::
              (signals signalled ++ .accepted run :: [.ci run.repoUrl run.repoRev none]) := by
            rw [hci.2, hevents]
            simp
          have hworker : ({ s₁ with worker := worker₂ } : State).worker = worker₂ := rfl
          rw [hworker, hall] at hsplit
          refine (hreported.drop ?_ hsplit).imp_right fun h => ⟨h, rfl⟩
          intro before run' after h
          obtain ⟨rfl, rfl, rfl⟩ := acceptance_in_turn (by simp) h
          exact .inr ⟨by simpa [hsig, signals, newWorkerRequest] using hcalm, rfl⟩
        · have hall : worker₂.events = s.worker.events ++ .sent newWorkerRequest ::
              [.accepted run, .ci run.repoUrl run.repoRev (some output),
                .sent ⟨finishedRunJson run.id output⟩] := by
            rw [hevents₂, hevents, hsig]
            simp [signals]
          have hnext := ih (s := { s₁ with worker := worker₂ })
            (fun r hr => hrounds r (List.mem_cons_of_mem _ hr)) hrest₁
            (by rw [hstop₂, hstop, hsig])
            (by rw [hall]; simpa using hcalm)
            (by rw [hall]; exact hreported.turn hcalm (.inr ⟨run, output, rfl⟩))
          simpa [hret, hstop, hsig, hdo] using hnext

/-- **Worker accountability.**  In every execution of `worker_main` in which allocating,
connecting to the server and sending to it succeed, an accepted run is reported, in one message
with its identifier and before the next announcement, unless a signal came in the same round or
its CI run failed; then nothing is sent for it, and `worker_main` returns without another
announcement. -/
theorem accountability (signalfd : Nat) (rounds : List Round)
    (hrounds : ∀ round ∈ rounds, round.Ok) :
    ∃ s ret, workerMain rounds (workerCreate signalfd) = some (s, ret) ∧
      ∀ before run after, s.worker.events = before ++ .accepted run :: after →
        Reported before run after ∨ Dropped before run after ∧ ret.isSome = true := by
  refine workerMain_accountable rounds hrounds (workerCreate_atRest signalfd) rfl (by
    simp [workerCreate]) ?_
  intro before run after h
  simp [workerCreate] at h

/-- A turn in which run 7 arrives. -/
def startRound (ci : CiSteps) : Round where
  connect := some 4
  announceOk := true
  entryOk := true
  revents := some fun i => if i = 1 then pollIn else 0
  received := some (startRunJson (runCreated 7 (.ofAscii "repo") (.ofAscii "HEAD")))
  answerOk := true
  ci := ci
  reconnect := some 4
  reportOk := true

theorem startRound_ok (ci : CiSteps) : (startRound ci).Ok :=
  ⟨rfl, rfl, rfl, rfl, rfl, rfl, rfl⟩

/-- A repository that cannot be cloned: the run is accepted, and the worker leaves without a
message about it. -/
theorem accountability_clone_failed :
    ∃ s, (startRound ⟨false, true, true, []⟩).Ok ∧
      workerMain [startRound ⟨false, true, true, []⟩] (workerCreate 3) = some (s, some (-1)) ∧
      ∃ before run after, s.worker.events = before ++ .accepted run :: after ∧
        ∀ request, .sent request ∉ after := by
  refine ⟨_, startRound_ok _, rfl, [.sent newWorkerRequest],
    runCreated 7 (.ofAscii "repo") (.ofAscii "HEAD"),
    [.ci (.ofAscii "repo") (.ofAscii "HEAD") none], rfl, by simp⟩

/-- A script that runs and is reported, and a repository that cannot be cloned. -/
theorem accountability_two_rounds :
    let rounds := [startRound ⟨true, true, true, [(false, none), (true, some ⟨2, [65]⟩)]⟩,
      startRound ⟨false, true, true, []⟩]
    ∃ s ret, workerMain rounds (workerCreate 3) = some (s, ret) ∧ ret = some (-1) ∧
      s.worker.events.length = 7 ∧
      ∀ before run after, s.worker.events = before ++ .accepted run :: after →
        Reported before run after ∨ Dropped before run after ∧ ret.isSome = true := by
  intro rounds
  obtain ⟨s, ret, hmain, haccount⟩ := accountability 3 rounds (by
    simp only [rounds, List.mem_cons, List.not_mem_nil, or_false]
    rintro round (rfl | rfl) <;> exact startRound_ok _)
  refine ⟨s, ret, hmain, ?_, ?_, haccount⟩ <;> cases hmain <;> rfl

end Cimple.Workers
