import Cimple.Lib.FdTable
import Cimple.Storage

/-!
# The server (`worker_queue.c`, `server.c`)

* `Server` — the fields of `struct server` that its functions read and write.
* `serverEnqueueWorker`, `serverEnqueueRun`, `serverAssignRun` — the critical sections under
  `server_mtx`.
* `serverHandleCmd*`, `serverCommands` — the handlers and their table.  `HandlerEnv` is what
  the outside world does to one call.
* `FinishedRunContract` — what a `finished-run` message may change.

Principal results: `serverCommands_answer` and `finished_run_contract_iff`.
-/

set_option autoImplicit false

namespace Cimple.Servers

open Octets JsonValue Descriptors Cimple.Json Cimple.JsonRpc Cimple.Command Cimple.RunQueue
  Cimple.Protocol Cimple.Storage

/-! ## State -/

/-- `struct worker` of the server: its descriptor, the file behind it and the connection it
duplicates. -/
structure Worker where
  fd : Nat
  file : Nat
  conn : Nat
  deriving DecidableEq

/-- `struct server`: its queues, its storage and the descriptor table. -/
structure Server where
  stopping : Bool
  workerQueue : List Worker
  runQueue : Queue
  db : Db
  fds : FdTable

/-- `worker_destroy`. -/
def workerDestroy (worker : Worker) (server : Server) : Server :=
  { server with fds := close server.fds worker.fd }

/-! ## Critical sections -/

/-- `server_set_stopping`, with the mutex locked. -/
def serverSetStopping (server : Server) : Server := { server with stopping := true }

/-- `server_enqueue_worker`, with the mutex locked. -/
def serverAddWorker (server : Server) (worker : Worker) : Server :=
  { server with workerQueue := server.workerQueue ++ [worker] }

/-- `server_enqueue_run`, with the mutex locked. -/
def serverAddRun (server : Server) (run : Run) : Server :=
  { server with runQueue := runQueueAddLast server.runQueue run }

/-- `server_ready_for_action`. -/
def serverReadyForAction (server : Server) : Bool :=
  server.stopping || (!runQueueIsEmpty server.runQueue && !server.workerQueue.isEmpty)

/-- The outside world during an assignment: whether the request, its text and its buffer can be
made, and the kernel's answers to `send`. -/
structure AssignEnv where
  createOk : Bool
  answers : List ByteStream.WriteAns

/-- An assignment that was tried: the run, the worker and what went out on the connection. -/
structure Assignment where
  run : Run
  worker : Worker
  bytes : Bytes

/-- The frame of a `start-run` request. -/
def startRunFrame (toText : Json → CStr) (run : Run) : Bytes :=
  Net.frame (Net.bufCreateFromString (toText (startRunJson run)))

/-- Making and sending the request of `server_assign_run`: whether it has succeeded, and the
bytes that went out. -/
def sendStartRun (toText : Json → CStr) (o : ByteOrder) (env : AssignEnv) (run : Run) :
    Bool × Bytes :=
  if !env.createOk then (false, [])
  else
    match requestCreateStartRun run with
    | .error _ => (false, [])
    | .ok request =>
      let w := libjsonSend toText o env.answers request.impl
      (w.ok, w.bytes)

/-- `server_assign_run`; removing from an empty queue is undefined. -/
def serverAssignRun (toText : Json → CStr) (o : ByteOrder) (env : AssignEnv) (server : Server) :
    Option (Server × Assignment) :=
  match runQueueRemoveFirst server.runQueue, server.workerQueue with
  | some (run, runQueue), worker :: workerQueue =>
    let (ok, bytes) := sendStartRun toText o env run
    let server := { server with
      runQueue := if ok then runQueue else runQueueAddFirst runQueue run
      workerQueue }
    some (workerDestroy worker server, ⟨run, worker, bytes⟩)
  | _, _ => none

/-- **A run is assigned exactly if its frame is on the wire in full.** -/
theorem sendStartRun_spec (toText : Json → CStr) (o : ByteOrder) (env : AssignEnv) (run : Run) :
    (sendStartRun toText o env run).1 = true ↔
      (sendStartRun toText o env run).2 = startRunFrame toText run := by
  unfold sendStartRun
  split
  · simp only [Bool.false_eq_true, false_iff]
    intro h
    have := congrArg List.length h
    simp [startRunFrame, Net.frame_length] at this
    omega
  · rw [requestCreateStartRun_eq]
    exact (Net.netSendBuf_bytes_eq_iff o env.answers _).symm

theorem sendStartRun_ok (toText : Json → CStr) (o : ByteOrder) (run : Run) :
    sendStartRun toText o ⟨true, []⟩ run = (true, startRunFrame toText run) := by
  have hok : (sendStartRun toText o ⟨true, []⟩ run).1 = true := by
    simp only [sendStartRun, requestCreateStartRun_eq]
    exact Net.netSendBuf_ok o List.not_mem_nil _
  exact Prod.ext hok ((sendStartRun_spec toText o _ run).1 hok)

/-! ## Handlers -/

/-- The outside world during the call of a handler: the descriptor `fcntl` comes up with, if
any; whether a worker can be allocated, the mutex locked and a response allocated; the statements
of `storage_run_create`; and the statement of any other call of the storage. -/
structure HandlerEnv where
  dup : Option Nat
  workerOk : Bool
  lockOk : Bool
  responseOk : Bool
  create : CreateAttempts
  storage : Attempt

/-- `server_enqueue_worker`. -/
def serverEnqueueWorker (env : HandlerEnv) (server : Server) (worker : Worker) : Int32 × Server :=
  if !env.lockOk then (-1, server) else (0, serverAddWorker server worker)

/-- `server_enqueue_run`. -/
def serverEnqueueRun (env : HandlerEnv) (server : Server) (run : Run) : Int32 × Server :=
  let (ret, db) := storageSqliteRunCreate env.create server.db run.repoUrl run.repoRev
  let server := { server with db }
  if ret < 0 then (ret, server)
  else if !env.lockOk then (-1, server)
  else (0, serverAddRun server (runSetId run ret))

/-- `server_handle_cmd_new_worker`. -/
def serverHandleCmdNewWorker (env : HandlerEnv) : CmdHandler Server := fun _ conn server =>
  match env.dup.bind fun fd => (openFd server.fds fd).map fun fds => (fd, fds) with
  | none => ⟨-1, none, server⟩
  | some (fd, fds) =>
    let worker := ⟨fd, server.fds.next, conn⟩
    let server := { server with fds }
    if !env.workerOk then ⟨-1, none, { server with fds := close server.fds fd }⟩
    else
      let (ret, server) := serverEnqueueWorker env server worker
      if ret < 0 then
        let server := workerDestroy worker server
        ⟨ret, none, { server with fds := close server.fds fd }⟩
      else ⟨ret, none, server⟩

/-- `server_handle_cmd_queue_run`. -/
def serverHandleCmdQueueRun (env : HandlerEnv) : CmdHandler Server := fun request _ server =>
  match requestParseQueueRun request with
  | .error _ => ⟨-1, none, server⟩
  | .ok run =>
    if !env.responseOk then ⟨-1, none, server⟩
    else
      match jsonrpcResponseCreate request .null with
      | .error _ => ⟨-1, none, server⟩
      | .ok response =>
        let (ret, server) := serverEnqueueRun env server run
        if ret < 0 then ⟨ret, none, server⟩ else ⟨ret, some response, server⟩

/-- `server_handle_cmd_finished_run`. -/
def serverHandleCmdFinishedRun (env : HandlerEnv) : CmdHandler Server := fun request _ server =>
  match requestParseFinishedRun request with
  | .error _ => ⟨-1, none, server⟩
  | .ok (runId, output) =>
    let (ret, db) := storageSqliteRunFinished env.storage server.db runId output
    ⟨ret, none, { server with db }⟩

/-- `server_handle_cmd_get_runs`. -/
def serverHandleCmdGetRuns (env : HandlerEnv) : CmdHandler Server := fun request _ server =>
  match requestParseGetRuns request with
  | .error _ => ⟨-1, none, server⟩
  | .ok () =>
    match storageSqliteGetRuns env.storage server.db with
    | .error ret => ⟨ret, none, server⟩
    | .ok runs =>
      if !env.responseOk then ⟨-1, none, server⟩
      else
        match responseCreateGetRuns request runs with
        | .error _ => ⟨-1, none, server⟩
        | .ok response => ⟨0, some response, server⟩

theorem serverHandleCmdNewWorker_frame (env : HandlerEnv) (request : JsonrpcRequest) (conn : Nat)
    (server : Server) :
    (serverHandleCmdNewWorker env request conn server).state.db = server.db ∧
      (serverHandleCmdNewWorker env request conn server).state.runQueue = server.runQueue := by
  have henqueue : ∀ (server : Server) (worker : Worker),
      (serverEnqueueWorker env server worker).2.db = server.db ∧
        (serverEnqueueWorker env server worker).2.runQueue = server.runQueue := by
    intro server worker
    cases h : env.lockOk <;> simp [serverEnqueueWorker, serverAddWorker, h]
  simp only [serverHandleCmdNewWorker]
  split
  · exact ⟨rfl, rfl⟩
  · split
    · exact ⟨rfl, rfl⟩
    · split <;> exact henqueue _ _

/-- The table of commands. -/
def serverCommands (env : HandlerEnv) : List (CmdDesc Server) :=
  [⟨cmdNewWorker, serverHandleCmdNewWorker env⟩, ⟨cmdQueueRun, serverHandleCmdQueueRun env⟩,
    ⟨cmdFinishedRun, serverHandleCmdFinishedRun env⟩, ⟨cmdGetRuns, serverHandleCmdGetRuns env⟩]

/-- **The server's handlers answer the request they get.** -/
theorem serverCommands_answer (env : HandlerEnv) :
    ∀ cmd ∈ serverCommands env, AnswersRequest cmd.handler := by
  simp only [serverCommands, List.mem_cons, List.not_mem_nil, or_false]
  rintro cmd (rfl | rfl | rfl | rfl) request fd server response h
  · simp only [serverHandleCmdNewWorker] at h
    split at h
    · cases h
    · split at h
      · cases h
      · split at h <;> cases h
  · simp only [serverHandleCmdQueueRun] at h
    split at h
    · cases h
    · split at h
      · cases h
      · split at h
        · cases h
        · rename_i hresponse
          split at h
          · cases h
          · cases h
            exact ⟨.null, hresponse⟩
  · simp only [serverHandleCmdFinishedRun] at h
    split at h <;> cases h
  · simp only [serverHandleCmdGetRuns, requestParseGetRuns] at h
    split at h
    · cases h
    · split at h
      · cases h
      · split at h
        · cases h
        · rename_i runs _ _ _ hresponse
          cases h
          simp only [responseCreateGetRuns, runQueueToJson_eq] at hresponse
          exact ⟨_, hresponse⟩

/-! ## Finished runs -/

/-- The range of an `int`. -/
def InInt32 (n : Int) : Prop := -2147483648 ≤ n ∧ n < 2147483648

instance (n : Int) : Decidable (InInt32 n) := inferInstanceAs (Decidable (_ ∧ _))

theorem toInt_ofInt_iff (n : Int) : (Int32.ofInt n).toInt = n ↔ InInt32 n := by
  unfold InInt32
  constructor
  · intro h
    have h₁ := (Int32.ofInt n).le_toInt
    have h₂ := (Int32.ofInt n).toInt_lt
    omega
  · rintro ⟨h₁, h₂⟩
    exact Int32.toInt_ofInt_of_le h₁ h₂

/-- The parameters of a `finished-run` request: integers of 64 bits, and a text. -/
structure FinishedRunParams (request : JsonrpcRequest) (n e : Int) (text : Bytes) : Prop where
  params : ∃ params, request.impl.get? jsonrpcKeyParams = some params ∧
    params.get? finishedKeyRunId = some (.int n) ∧
    params.get? finishedKeyEc = some (.int e) ∧
    params.get? finishedKeyData = some (.string text)
  runId : InInt64 n
  exitCode : InInt64 e

/-- A row exists. -/
def HasRun (db : Db) (n : Int) : Prop := ∃ run ∈ db.runs, run.id = n

/-- **The contract**: a call that does not fail has given the run it names its result, and
changed nothing else; a call that names no run, or whose numbers are no `int`s, fails and
changes nothing. -/
structure FinishedRunContract (n e : Int) (text : Bytes) (before : Server) (ret : Int32)
    (after : Server) : Prop where
  marked : ¬ ret < 0 → HasRun before.db n ∧ ∃ data,
    base64Decode (CStr.ofBytes text) = .ok data ∧
    after.db.runs = before.db.runs.map (fun run =>
      if run.id = n then
        { run with status := RunStatus.finished.code.toInt, exitCode := e, output := data }
      else run) ∧
    after.db.repos = before.db.repos ∧ after.runQueue = before.runQueue ∧
    after.workerQueue = before.workerQueue
  refused : ¬ HasRun before.db n ∨ ¬ InInt32 n ∨ ¬ InInt32 e → ret < 0 ∧ after = before

theorem requestParseFinishedRun_params {request : JsonrpcRequest} {n e : Int} {text : Bytes}
    (h : FinishedRunParams request n e text) :
    requestParseFinishedRun request = (base64Decode (CStr.ofBytes text)).map fun data =>
      (Int32.ofInt n, ⟨Int32.ofInt e, data⟩) := by
  obtain ⟨params, hparams, hn, he, htext⟩ := h.params
  have hget : libjsonGet request.impl jsonrpcKeyParams = .ok params := libjsonGet_ok.2 hparams
  have hid : jsonrpcRequestGetParamInt request finishedKeyRunId = .ok n :=
    bind_ok.2 ⟨params, hget, libjsonGetInt_ok.2 ⟨hn, h.runId⟩⟩
  have hec : jsonrpcRequestGetParamInt request finishedKeyEc = .ok e :=
    bind_ok.2 ⟨params, hget, libjsonGetInt_ok.2 ⟨he, h.exitCode⟩⟩
  have hdata : jsonrpcRequestGetParamString request finishedKeyData = .ok (CStr.ofBytes text) :=
    bind_ok.2 ⟨params, hget, libjsonGetString_ok.2 ⟨text, htext, rfl⟩⟩
  simp only [requestParseFinishedRun, hid, hec, hdata]
  show (base64Decode (CStr.ofBytes text) >>= fun data => pure _) = _
  cases base64Decode (CStr.ofBytes text) <;> rfl

/-- **A finished-run message changes the run it names and nothing else** exactly if its output
is not base64, or the statement fails, or both of its numbers are `int`s and the run exists. -/
theorem finished_run_contract_iff (env : HandlerEnv) (request : JsonrpcRequest) (conn : Nat)
    (before : Server) (n e : Int) (text : Bytes) (h : FinishedRunParams request n e text) :
    FinishedRunContract n e text before (serverHandleCmdFinishedRun env request conn before).ret
        (serverHandleCmdFinishedRun env request conn before).state ↔
      (∀ data, base64Decode (CStr.ofBytes text) ≠ .ok data) ∨ env.storage.fault.isSome = true ∨
        InInt32 n ∧ InInt32 e ∧ HasRun before.db n := by
  -- a call that fails has changed nothing
  have hfailed : ∀ ret : Int32, ret < 0 → FinishedRunContract n e text before ret before :=
    fun ret hret => ⟨fun hok => absurd hret hok, fun _ => ⟨hret, rfl⟩⟩
  simp only [serverHandleCmdFinishedRun, requestParseFinishedRun_params h]
  cases hdecode : base64Decode (CStr.ofBytes text) with
  | error err =>
    simp only [Except.map, reduceCtorEq, ne_eq, not_false_eq_true, implies_true, true_or, iff_true]
    exact hfailed (-1) (by decide)
  | ok data =>
    simp only [Except.map, storageSqliteRunFinished]
    cases hfault : env.storage.fault with
    | some fault => simpa using hfailed fault fault.2
    | none =>
      have hzero : ¬ (0 : Int32) < 0 := by decide
      simp only [ne_eq, Except.ok.injEq, Option.isSome_none, Bool.false_eq_true, false_or]
      constructor
      · intro hcontract
        by_contra hnot
        rw [not_or] at hnot
        refine hzero (hcontract.refused ?_).1
        by_contra hall
        simp only [not_or, not_not] at hall
        exact hnot.2 ⟨hall.2.1, hall.2.2, hall.1⟩
      · rintro (hnone | ⟨hn, he, hrow⟩)
        · exact absurd rfl (hnone data)
        · refine ⟨fun _ => ⟨hrow, data, hdecode, ?_, rfl, rfl, rfl⟩, ?_⟩
          · simp only [runUpdate, (toInt_ofInt_iff n).2 hn, (toInt_ofInt_iff e).2 he]
            rfl
          · rintro (hno | hno | hno)
            · exact absurd hrow hno
            · exact absurd hn hno
            · exact absurd he hno

/-- A server without runs. -/
def emptyServer : Server :=
  ⟨false, [], [], v01, ⟨[], [], [], 0, List.nodup_nil, List.nodup_nil, bounded_nil⟩⟩

/-- An outside world in which nothing fails. -/
def calm : HandlerEnv := ⟨some 5, true, true, true, ⟨noFault, noFault, noFault⟩, noFault⟩

/-- The server after `queue-run repo HEAD`. -/
def serverWithRun : Server :=
  (serverHandleCmdQueueRun calm ⟨queueRunJson 0 (.ofAscii "repo") (.ofAscii "HEAD")⟩ 4
    emptyServer).state

/-- The request of `finished-run` for a run, with exit code 2 and no output. -/
def finishedRunRequest (n : Int) : JsonrpcRequest :=
  ⟨requestJson none cmdFinishedRun [(finishedKeyRunId, .int n), (finishedKeyEc, .int 2),
    (finishedKeyData, .string [])]⟩

theorem finishedRunRequest_params (n : Int) (hn : InInt64 n) :
    FinishedRunParams (finishedRunRequest n) n 2 [] :=
  ⟨⟨_, requestJson_params _ _ _, rfl, rfl, rfl⟩, hn, by decide⟩

/-- A message for a run that does not exist is accepted, and one whose number is the run's plus
2^32 marks the run. -/
theorem finished_run_unknown :
    (serverHandleCmdFinishedRun calm (finishedRunRequest 7) 4 emptyServer).ret = 0 ∧
      ¬ FinishedRunContract 7 2 [] emptyServer
        (serverHandleCmdFinishedRun calm (finishedRunRequest 7) 4 emptyServer).ret
        (serverHandleCmdFinishedRun calm (finishedRunRequest 7) 4 emptyServer).state ∧
      (serverHandleCmdFinishedRun calm (finishedRunRequest 4294967297) 4
        serverWithRun).state.db.runs.map RunRow.status = [2] := by
  refine ⟨rfl, fun h => ?_, rfl⟩
  have hrefused := h.refused (.inl (by rintro ⟨run, hrun, -⟩; cases hrun))
  exact absurd hrefused.1 (by decide)

/-- A message for the run that exists. -/
theorem finished_run_known :
    FinishedRunContract 1 2 [] serverWithRun
      (serverHandleCmdFinishedRun calm (finishedRunRequest 1) 4 serverWithRun).ret
      (serverHandleCmdFinishedRun calm (finishedRunRequest 1) 4 serverWithRun).state :=
  (finished_run_contract_iff calm _ 4 serverWithRun 1 2 []
    (finishedRunRequest_params 1 (by decide))).2
    (.inr (.inr ⟨by decide, by decide, ⟨_, List.mem_singleton_self _, rfl⟩⟩))

end Cimple.Servers
