import Cimple.Lib.Tokens
import Cimple.Dispatch
import Cimple.Worker

/-!
# Clients, a server and its workers

One lifetime of a server that starts with an empty database, and every order in which the
threads of the server, the processes of the workers and the messages between them can move.

* `Creator` — a thread of the server that serves a `queue-run` request: it moves by one
  statement of `storage_run_create`, or by the critical section, at a time.
* `Proc` — a worker process: it moves by one of the three parts of a turn of `worker_main`.
* `System`, `Action`, `System.step`, `System.run` — the whole.  A message is in flight, under the
  number of its connection, from when it has been sent in full to when it is taken or lost; the
  number of a connection may be used again.  An action whose party cannot move leaves the
  system as it is.
* `CiCall` — a call of `ci_run_git_repo`, and the run it was made for.

A statement is made and reset in one step.  As long as no row is rolled back that is no restriction:
other threads see what has been written before it is committed (`Statements.lean`).  Whether one has
been is noted in `rolledBack`, since what the system does then is not what it is for.

Messages are the values of the requests; that a request is parsed from its text with the fields
it was created from is the subject of `Commands.lean`.

Principal results: `create_alone` and `turn_alone`, by which a thread or a process that moves by
itself does what the functions of `Server.lean` and `Worker.lean` do at once.
-/

set_option autoImplicit false

namespace Cimple.Systems

open Octets JsonValue Cimple.Json Cimple.JsonRpc Cimple.Command Cimple.RunQueue Cimple.Protocol
  Cimple.Storage Cimple.Servers Cimple.Dispatching Cimple.Workers

/-! ## Parties -/

/-- A thread that serves a `queue-run` request: before one of the statements of
`storage_run_create`, or before the critical section of `server_enqueue_run`. -/
inductive Creator where
  | insertRepo (run : Run)
  | findRepo (run : Run)
  | insertRun (run : Run) (repoId : Int32)
  | enqueue (run : Run)

/-- One statement: the thread after it, unless it has failed, and the database. -/
def Creator.statement (a : Attempt) (db : Db) : Creator → Option Creator × Db
  | .insertRepo run =>
    let (ret, db) := storageSqliteInsertRepoStmt a db run.repoUrl
    (if ret < 0 then none else some (.findRepo run), db)
  | .findRepo run =>
    let ret := storageSqliteFindRepo a db run.repoUrl
    (if ret < 0 then none else some (.insertRun run ret), db)
  | .insertRun run repoId =>
    let (ret, db) := storageSqliteInsertRun a db repoId run.repoRev
    (if ret < 0 then none else some (.enqueue (runSetId run ret)), db)
  | .enqueue run => (some (.enqueue run), db)

/-- A statement inserts a row that is rolled back. -/
def Creator.rollsBack (a : Attempt) (db : Db) : Creator → Bool
  | .insertRun run repoId => a.fault.isNone && a.rollback &&
    (runInsert a.candidate db .created repoId.toInt run.repoRev).isOk
  | _ => false

/-- Where a worker process is: before its announcement, in its event loop, before the execution
of a run, or gone. -/
inductive Phase where
  | idle
  | waiting (conn : Nat)
  | ready
  | exited
  deriving DecidableEq

/-- A worker process. -/
structure Proc where
  state : Workers.State
  phase : Phase

/-- A call of `ci_run_git_repo` for the run of a worker; no result is a negative value. -/
structure CiCall where
  id : Int32
  url : CStr
  rev : CStr
  result : Option ProcessOutput

/-- The server, its threads, the workers, the messages in flight with the numbers of their
connections, the calls of `ci_run_git_repo` so far, and whether a row has been rolled back. -/
structure System where
  dispatch : Dispatch
  creators : List Creator
  procs : List Proc
  toServer : List (Nat × Json)
  toWorker : List (Nat × Json)
  calls : List CiCall
  rolledBack : Bool

/-- A server that has just started on the database the schema leaves. -/
def System.initial : System := ⟨started emptyServer, [], [], [], [], [], false⟩

/-- The database. -/
def System.db (s : System) : Db := s.dispatch.server.db

/-- The system with another database. -/
def System.setDb (s : System) (db : Db) : System :=
  { s with dispatch := { s.dispatch with server := { s.dispatch.server with db } } }

/-! ## Steps of the server -/

/-- The run of a `queue-run` message that is accepted, and whose response can be made. -/
def queuedRun (message : Json) : Option Run := do
  let request ← jsonrpcRequestRecv (some message)
  if jsonrpcRequestGetMethod request ≠ some cmdQueueRun then none
  else
    match requestParseQueueRun request, jsonrpcResponseCreate request .null with
    | .ok run, .ok _ => some run
    | _, _ => none

/-- A thread of the server receives a message of a client. -/
def System.queueRun (s : System) (message : Json) : System :=
  { s with creators := s.creators ++ ((queuedRun message).map Creator.insertRepo).toList }

/-- The handler of a message waits for the mutex: it is the one of `new-worker`. -/
def waitsForMutex (message : Json) : Bool :=
  (jsonrpcRequestRecv (some message)).bind jsonrpcRequestGetMethod = some cmdNewWorker

/-- A thread of the server serves a message of a worker. -/
def System.serve (s : System) (i : Nat) (env : HandlerEnv) (sendOk : Bool) : System :=
  match s.toServer[i]? with
  | none => s
  | some (conn, message) =>
    if waitsForMutex message && !s.dispatch.mutexFree then s
    else
      let served := cmdDispatcherHandleConnInternal (serverCommands env) conn (some message)
        sendOk s.dispatch.server
      { s with
        dispatch := { s.dispatch with
          server := served.state
          main := if waitsForMutex message then serverNotify s.dispatch.main
            else s.dispatch.main }
        toServer := s.toServer.eraseIdx i }

/-! ## Steps of a worker -/

/-- The events of a worker that are not among the earlier ones. -/
def newEvents (before after : Workers.Worker) : List Event :=
  after.events.drop before.events.length

/-- The message of an event, on the connection it was sent on. -/
def sentMessage (conn : Option Nat) : Event → Option (Nat × Json)
  | .sent request => conn.map fun conn => (conn, request.impl)
  | _ => none

/-- The call of an event, for the run the worker had. -/
def ciCall (run : Option Run) : Event → Option CiCall
  | .ci url rev result => run.map fun run => ⟨run.id, url, rev, result⟩
  | _ => none

/-- A worker announces itself. -/
def System.announce (s : System) (i : Nat) (round : Round) : System :=
  match s.procs[i]? with
  | some ⟨state, .idle⟩ =>
    let (ret, state') := workerAnnounce round state
    let phase := match ret with
      | .error _ => .exited
      | .ok conn => .waiting conn
    { s with
      procs := s.procs.set i ⟨state', phase⟩
      toServer := s.toServer ++
        (newEvents state.worker state'.worker).filterMap (sentMessage round.connect) }
  | _ => s

/-- The message in flight with number `j`, if it is one on the connection. -/
def System.onConn (s : System) (conn : Nat) (j : Option Nat) : Option (Nat × (Nat × Json)) :=
  j.bind fun j => ((s.toWorker[j]?).filter fun m => m.1 = conn).map fun m => (j, m)

/-- A worker leaves its event loop, and has then read a message on its connection, or none. -/
def System.await (s : System) (i : Nat) (message : Option Nat) (round : Round) : Option System :=
  match s.procs[i]? with
  | some ⟨state, .waiting conn⟩ =>
    if !round.reports then some s
    else do
      let message := s.onConn conn message
      let received := message.map fun m => m.2.2
      let (ret, state) ← workerAwait { round with received } state
      let phase := if ret < 0 || state.worker.stopping then .exited else .ready
      some { s with
        procs := s.procs.set i ⟨state, phase⟩
        toWorker := message.elim s.toWorker fun m => s.toWorker.eraseIdx m.1 }
  | _ => some s

/-- A worker executes its run. -/
def System.execute (s : System) (i : Nat) (round : Round) : Option System :=
  match s.procs[i]? with
  | some ⟨state, .ready⟩ => do
    let (ret, worker) ← workerDoRun round state.worker
    some { s with
      procs := s.procs.set i ⟨{ state with worker }, if ret < 0 then .exited else .idle⟩
      toServer := s.toServer ++
        (newEvents state.worker worker).filterMap (sentMessage round.reconnect)
      calls := s.calls ++ (newEvents state.worker worker).filterMap (ciCall state.worker.run) }
  | _ => some s

/-- A worker process is gone. -/
def System.kill (s : System) (i : Nat) : System :=
  match s.procs[i]? with
  | some ⟨state, _⟩ => { s with procs := s.procs.set i ⟨state, .exited⟩ }
  | none => s

/-! ## Steps of the system -/

inductive Action where
  /-- A client's message is received by a new thread. -/
  | queueRun (message : Json)
  /-- A thread that serves a `queue-run` request moves. -/
  | create (i : Nat) (attempt : Attempt) (lockOk : Bool)
  /-- A termination signal for the server. -/
  | setStopping
  /-- The main thread moves. -/
  | main (ok : Bool) (env : AssignEnv)
  /-- A worker's message is served. -/
  | serve (i : Nat) (env : HandlerEnv) (sendOk : Bool)
  /-- A message in flight is lost with its connection. -/
  | loseToServer (i : Nat)
  | loseToWorker (i : Nat)
  /-- A worker is started. -/
  | spawn (signalfd : Nat)
  | announce (i : Nat) (round : Round)
  | await (i : Nat) (message : Option Nat) (round : Round)
  | execute (i : Nat) (round : Round)
  /-- A worker fails. -/
  | kill (i : Nat)

section

variable (toText : Json → CStr) (o : ByteOrder)

/-- A thread that serves a `queue-run` request moves. -/
def System.create (s : System) (i : Nat) (attempt : Attempt) (lockOk : Bool) : Option System :=
  match s.creators[i]? with
  | none => some s
  | some (.enqueue run) =>
    if !lockOk then some { s with creators := s.creators.eraseIdx i }
    else if !s.dispatch.mutexFree then some s
    else do
      let dispatch ← Dispatching.step toText o s.dispatch (.enqueueRun run)
      some { s with dispatch, creators := s.creators.eraseIdx i }
  | some creator =>
    let (next, db) := creator.statement attempt s.db
    some { s.setDb db with
      creators := next.elim (s.creators.eraseIdx i) (s.creators.set i)
      rolledBack := s.rolledBack || creator.rollsBack attempt s.db }

/-- The `start-run` messages that were sent in full. -/
def startMessages (assigned : List Assignment) : List (Nat × Json) :=
  (assigned.filter fun a => a.bytes = startRunFrame toText a.run).map fun a =>
    (a.worker.conn, startRunJson a.run)

/-- The main thread moves. -/
def System.main (s : System) (ok : Bool) (env : AssignEnv) : Option System := do
  let dispatch ← Dispatching.step toText o s.dispatch (.main ok env)
  some { s with
    dispatch
    toWorker := s.toWorker ++
      startMessages toText (dispatch.assigned.drop s.dispatch.assigned.length) }

/-- A step; `none` is undefined behaviour. -/
def System.step (s : System) : Action → Option System
  | .queueRun message => some (s.queueRun message)
  | .create i attempt lockOk => s.create toText o i attempt lockOk
  | .setStopping => do
    let dispatch ← Dispatching.step toText o s.dispatch .setStopping
    some { s with dispatch }
  | .main ok env => s.main toText o ok env
  | .serve i env sendOk => some (s.serve i env sendOk)
  | .loseToServer i => some { s with toServer := s.toServer.eraseIdx i }
  | .loseToWorker i => some { s with toWorker := s.toWorker.eraseIdx i }
  | .spawn signalfd => some { s with procs := s.procs ++ [⟨workerCreate signalfd, .idle⟩] }
  | .announce i round => some (s.announce i round)
  | .await i message round => s.await i message round
  | .execute i round => s.execute i round
  | .kill i => some (s.kill i)

def System.run (s : System) (actions : List Action) : Option System :=
  actions.foldlM (System.step toText o) s

theorem System.run_append (s : System) (actions actions' : List Action) :
    s.run toText o (actions ++ actions') =
      (s.run toText o actions).bind fun s' => s'.run toText o actions' := List.foldlM_append

end

/-! ## A party that moves by itself -/

section

variable {toText : Json → CStr} {o : ByteOrder}

/-- The steps of the thread `i`, if nothing else moves in between. -/
def createAll (i : Nat) (env : HandlerEnv) : List Action :=
  [.create i env.create.insertRepo env.lockOk, .create i env.create.findRepo env.lockOk,
    .create i env.create.insertRun env.lockOk, .create i noFault env.lockOk]

/-- The system with one thread more, if it has not failed, and another database. -/
def System.withThread (s : System) (db : Db) (thread : Option Creator) : System :=
  { s.setDb db with creators := s.creators ++ thread.toList }

@[simp] theorem withThread_none_creators (s : System) (db : Db) :
    (s.withThread db none).creators = s.creators := List.append_nil _

@[simp] theorem withThread_server (s : System) (db : Db) (thread : Option Creator) :
    (s.withThread db thread).dispatch.server = { s.dispatch.server with db } := rfl

/-- The system after a statement that may have been rolled back. -/
def System.noting (s : System) (a : Attempt) (db : Db) (c : Creator) : System :=
  { s with rolledBack := s.rolledBack || c.rollsBack a db }

theorem noting_kept {s : System} {a : Attempt} {db : Db} {c : Creator}
    (h : c.rollsBack a db = false) : s.noting a db c = s := by
  simp only [System.noting, h, Bool.or_false]

theorem create_statement (s : System) (db : Db) {c : Creator} (hc : ∀ run, c ≠ .enqueue run)
    (a : Attempt) (lockOk : Bool) {i : Nat} (hi : i = s.creators.length) :
    (s.withThread db (some c)).create toText o i a lockOk =
      some ((s.noting a db c).withThread (c.statement a db).2 (c.statement a db).1) := by
  subst hi
  have hget : (s.withThread db (some c)).creators[s.creators.length]? = some c := by
    simp [System.withThread]
  have hdb : (s.withThread db (some c)).db = db := rfl
  simp only [System.create, hget]
  cases c with
  | enqueue run => exact absurd rfl (hc run)
  | insertRepo | findRepo | insertRun =>
    rw [hdb]
    cases (Creator.statement a db _).1 <;>
      simp [System.withThread, System.setDb, System.noting, List.eraseIdx_append_of_length_le]

/-- The system after a critical section that enqueues a run. -/
def System.withRun (s : System) (db : Db) (run : Run) : System :=
  { s with dispatch := { s.dispatch with
      server := serverAddRun { s.dispatch.server with db } run
      main := serverNotify s.dispatch.main
      enqueued := s.dispatch.enqueued ++ [run] } }

theorem create_enqueue {s : System} (hfree : s.dispatch.mutexFree = true) (db : Db) (run : Run)
    (a : Attempt) (lockOk : Bool) {i : Nat} (hi : i = s.creators.length) :
    (s.withThread db (some (.enqueue run))).create toText o i a lockOk =
      some (if lockOk then s.withRun db run else s.withThread db none) := by
  subst hi
  have hget : (s.withThread db (some (.enqueue run))).creators[s.creators.length]? =
      some (.enqueue run) := by
    simp [System.withThread]
  have hfree' : (s.withThread db (some (.enqueue run))).dispatch.mutexFree = true := hfree
  have herase : (s.withThread db (some (.enqueue run))).creators.eraseIdx s.creators.length =
      s.creators := by
    simp [System.withThread, List.eraseIdx_append_of_length_le]
  simp only [System.create, hget, hfree', herase]
  cases lockOk with
  | false => simp [System.withThread, System.setDb]
  | true =>
    simp only [Dispatching.step, Dispatch.critical, hfree']
    rfl

theorem create_gone (s : System) (db : Db) (a : Attempt) (lockOk : Bool) {i : Nat}
    (hi : i = s.creators.length) :
    (s.withThread db none).create toText o i a lockOk = some (s.withThread db none) := by
  subst hi
  have hget : (s.withThread db none).creators[s.creators.length]? = none := by
    simp [System.withThread]
  simp only [System.create, hget]

/-- **A thread that moves by itself** does what `server_enqueue_run` does. -/
theorem create_alone (s : System) (env : HandlerEnv) (run : Run)
    (hfree : s.dispatch.mutexFree = true) :
    ∃ s', System.run toText o (s.withThread s.db (some (.insertRepo run)))
        (createAll s.creators.length env) = some s' ∧ s'.creators = s.creators ∧
      s'.dispatch.server = (serverEnqueueRun env s.dispatch.server run).2 := by
  simp only [System.run, createAll, List.foldlM_cons, List.foldlM_nil, System.step,
    Option.bind_eq_bind, Option.pure_def, serverEnqueueRun, storageSqliteRunCreate,
    storageSqliteInsertRepo]
  rw [create_statement s s.db (by simp) _ _ rfl, noting_kept rfl]
  simp only [Creator.statement, Option.bind_some, System.db]
  obtain ⟨ret₁, db₁, hrepo⟩ : ∃ ret db, storageSqliteInsertRepoStmt env.create.insertRepo
    s.dispatch.server.db run.repoUrl = (ret, db) := ⟨_, _, rfl⟩
  by_cases h₁ : ret₁ < 0
  · simp [hrepo, h₁, create_gone]
  simp only [hrepo, h₁, if_false]
  rw [create_statement s db₁ (by simp) _ _ rfl, noting_kept rfl]
  simp only [Creator.statement, Option.bind_some]
  by_cases h₂ : storageSqliteFindRepo env.create.findRepo db₁ run.repoUrl < 0
  · simp [h₂, create_gone]
  simp only [h₂, if_false]
  -- the row of the third statement may be rolled back, which is noted
  rw [create_statement s db₁ (by simp) _ _ rfl]
  simp only [Creator.statement, Option.bind_some]
  obtain ⟨ret₃, db₃, hrun⟩ : ∃ ret db, storageSqliteInsertRun env.create.insertRun db₁
    (storageSqliteFindRepo env.create.findRepo db₁ run.repoUrl) run.repoRev = (ret, db) :=
    ⟨_, _, rfl⟩
  generalize hs₁ : s.noting env.create.insertRun db₁ _ = s₁
  have hcreators : s₁.creators = s.creators := by rw [← hs₁]; rfl
  have hdispatch : s₁.dispatch = s.dispatch := by rw [← hs₁]; rfl
  by_cases h₃ : ret₃ < 0
  · simp [hrun, h₃, create_gone, hcreators, hdispatch]
  simp only [hrun, h₃, if_false]
  rw [← hdispatch] at hfree
  rw [create_enqueue hfree _ _ _ _ (by rw [hcreators])]
  cases env.lockOk <;> simp [System.withRun, hcreators, hdispatch]

/-- The message of a thread is one that the dispatcher serves with the handler of `queue-run`. -/
theorem queuedRun_served {message : Json} {run : Run} (h : queuedRun message = some run)
    {env : HandlerEnv} (henv : env.responseOk = true) (conn : Nat) (sendOk : Bool)
    (server : Server) :
    (cmdDispatcherHandleConnInternal (serverCommands env) conn (some message) sendOk server).state =
      (serverEnqueueRun env server run).2 := by
  obtain ⟨request, hrecv, h⟩ := Option.bind_eq_some_iff.1 h
  split at h
  · cases h
  rename_i hmethod
  rw [ne_eq, not_not] at hmethod
  split at h
  · rename_i response hparse hresponse
    cases h
    have hcmd : cmdOf (serverCommands env) request =
        some ⟨cmdQueueRun, serverHandleCmdQueueRun env⟩ := by
      simp only [cmdOf, hmethod, Option.bind_some]
      rfl
    rw [served_state hrecv hcmd]
    simp only [serverHandleCmdQueueRun, hparse, henv, hresponse]
    simp only [Bool.not_true, Bool.false_eq_true, if_false]
    split <;> rfl
  · cases h

theorem queuedRun_queueRunJson (id : Int32) (url rev : CStr) :
    queuedRun (queueRunJson id url rev) = some (runQueued url rev) := by
  obtain ⟨hjson, hmethod, -⟩ := jsonrpcRequestFromJson_requestJson (some id) cmdQueueRun
    [(runKeyUrl, .string url.bytes), (runKeyRev, .string rev.bytes)]
  have hrecv : jsonrpcRequestRecv (some (queueRunJson id url rev)) =
      some ⟨queueRunJson id url rev⟩ := by
    simp [jsonrpcRequestRecv, queueRunJson, hjson, Except.toOption]
  have hmethod' : jsonrpcRequestGetMethod ⟨queueRunJson id url rev⟩ = some cmdQueueRun := hmethod
  have hid : (queueRunJson id url rev).get? jsonrpcKeyId = some (.int id.toInt) := rfl
  have hresponse : ∃ response, jsonrpcResponseCreate ⟨queueRunJson id url rev⟩ .null =
      .ok response := ⟨_, jsonrpcResponseCreate_eq hid .null⟩
  obtain ⟨response, hresponse⟩ := hresponse
  simp only [queuedRun, hrecv, Option.bind_eq_bind, Option.bind_some, hmethod', ne_eq,
    not_true_eq_false, if_false, requestParseQueueRun_queueRunJson, hresponse]

/-- **A process that moves by itself** does what a turn of `worker_main` does. -/
theorem turn_alone {s : System} {i : Nat} {state : Workers.State}
    (hproc : s.procs[i]? = some ⟨state, .idle⟩) (round : Round) (hreports : round.reports = true)
    (message : Option Nat) (hreceived : ∀ conn, round.connect = some conn →
      (s.onConn conn message).map (fun m => m.2.2) = round.received) :
    (System.run toText o s [.announce i round, .await i message round, .execute i round]).map
        (fun s' => s'.procs[i]?) =
      (workerMain [round] state).map fun (state', ret) =>
        some ⟨state', if ret.isSome then .exited else .idle⟩ := by
  have hset : ∀ (s' : System) (p : Proc), s'.procs = s.procs.set i p → s'.procs[i]? = some p := by
    intro s' p h
    rw [h, List.getElem?_set_self (List.getElem?_eq_some_iff.1 hproc).1]
  simp only [System.run, List.foldlM_cons, List.foldlM_nil, System.step, Option.bind_eq_bind,
    Option.bind_some, Option.pure_def, workerMain, workerGetRun]
  rcases workerAnnounce_cases round state with
    ⟨ret, state₁, hannounce, hret, -⟩ | ⟨conn, entry, loop₁, hconnect, hannounce, -⟩
  · have hproc₁ := hset (s.announce i round) ⟨state₁, .exited⟩ (by
      simp only [System.announce, hproc, hannounce])
    simp [System.await, System.execute, hproc₁, hannounce, hret]
  · generalize hstate₁ : (⟨loop₁, _⟩ : Workers.State) = state₁ at hannounce
    have hprocs₁ : (s.announce i round).procs = s.procs.set i ⟨state₁, .waiting conn⟩ := by
      simp only [System.announce, hproc, hannounce]
    have hproc₁ := hset (s.announce i round) _ hprocs₁
    have hmessage : (s.announce i round).onConn conn message = s.onConn conn message := by
      simp only [System.announce, hproc, System.onConn]
    have hround :
        { round with received := (s.onConn conn message).map fun m => m.2.2 } = round := by
      rw [hreceived conn hconnect]
    simp only [hannounce, System.await, hproc₁, hreports, hmessage, hround]
    cases hawait : workerAwait round state₁ with
    | none => simp
    | some r =>
      obtain ⟨ret, state₂⟩ := r
      have hi : i < (s.announce i round).procs.length := by
        rw [hprocs₁, List.length_set]
        exact (List.getElem?_eq_some_iff.1 hproc).1
      by_cases hret : ret < 0
      · simp [System.execute, hret, hi]
      · by_cases hstopping : state₂.worker.stopping = true
        · simp [System.execute, hret, hstopping, hi]
        · cases hdo : workerDoRun round state₂.worker with
          | none => simp [System.execute, hret, hstopping, hi, hdo]
          | some r =>
            obtain ⟨ret₂, worker₂⟩ := r
            by_cases hret₂ : ret₂ < 0 <;>
              simp [System.execute, hret, hstopping, hi, hdo, hret₂]

end

end Cimple.Systems
