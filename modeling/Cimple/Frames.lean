import Cimple.Dispatch
import Cimple.Lib.Tokens
import Cimple.Lib.Writers

/-!
# The frames on a connection (`net_send_buf`, `server_assign_run`, `command.c`)

A connection is written to by its client thread, which answers its request, and by the main
thread, once a worker has been registered on it.  Neither holds a lock that the other would have
to take, and a frame takes several calls of `send`.

* `Client`, `Assigning`, `State` — the client threads, the main thread and the connections.  A
  descriptor stands for the connection it refers to; that it does is what `WorkerFds.lean` is
  about.
* `Action`, `step`, `run` — every order of requests, single calls of `send` and steps of the main
  thread; an action whose thread cannot move leaves the state as it is.
* `netSendPieces_eq`, `assign_alone` — sends that nobody interrupts are `net_send_buf` and
  `server_assign_run`.
* `WholeFrames` — every connection has complete frames on it, except for the last one.

Principal results: `step_inv`, `run_inv` and `whole_frames`.
-/

set_option autoImplicit false

namespace Cimple.Frames

open Octets JsonValue ByteStream Descriptors Tokens Writers Cimple.Json Cimple.JsonRpc
  Cimple.Command Cimple.RunQueue Cimple.Protocol Cimple.Storage Cimple.Servers Cimple.Dispatching

/-! ## Sending -/

/-- What `net_send_buf` hands to `net_send`, one piece after the other; an empty piece takes no
call of `send`. -/
def netSendBufPieces (o : ByteOrder) (buf : Net.Buf) : List Bytes :=
  [store32 o (htonl o buf.size), buf.contents].filter (· ≠ [])

/-- `net_send_part`, with what is left to send before and after the call. -/
def netSendPart : WriteAns → List Bytes → Option (Bytes × List Bytes)
  | .fail, _ => none
  | .took _, [] => some ([], [])
  | .took n, piece :: pieces =>
    let left := piece.drop (n + 1)
    some (piece.take (n + 1), if left = [] then pieces else left :: pieces)

theorem netSendBufPieces_flatten (o : ByteOrder) (buf : Net.Buf) :
    (netSendBufPieces o buf).flatten = Net.frame buf := by
  rw [netSendBufPieces, List.flatten_filter_ne_nil, store32_htonl]
  simp [Net.frame]

theorem netSendPart_spec {ans : WriteAns} {pieces left : List Bytes} {bytes : Bytes}
    (h : netSendPart ans pieces = some (bytes, left)) :
    pieces.flatten = bytes ++ left.flatten := by
  cases ans with
  | fail => cases h
  | took n =>
    cases pieces with
    | nil =>
      cases h
      rfl
    | cons piece pieces =>
      cases h
      have hsplit := List.take_append_drop (n + 1) piece
      split
      · rename_i hleft
        rw [hleft, List.append_nil] at hsplit
        rw [hsplit, List.flatten_cons]
      · rw [List.flatten_cons, List.flatten_cons, ← List.append_assoc, hsplit]

/-- The calls of `send` one after the other, until nothing is left or one fails; past the end of
the list of answers everything is taken. -/
def netSendPieces : List WriteAns → List Bytes → Written
  | answers, [] => ⟨true, [], answers⟩
  | [], piece :: pieces => ⟨true, (piece :: pieces).flatten, []⟩
  | ans :: answers, piece :: pieces =>
    match netSendPart ans (piece :: pieces) with
    | none => ⟨false, [], answers⟩
    | some (bytes, left) =>
      let w := netSendPieces answers left
      ⟨w.ok, bytes ++ w.bytes, w.answers⟩

@[simp] theorem netSendPieces_nil (answers : List WriteAns) :
    netSendPieces answers [] = ⟨true, [], answers⟩ := by
  cases answers <;> rfl

/-- A piece is sent like the data of a `net_send`. -/
theorem netSendPieces_cons (answers : List WriteAns) {piece : Bytes} (hpiece : piece ≠ [])
    (pieces : List Bytes) :
    netSendPieces answers (piece :: pieces) =
      let w := Net.netSend answers piece
      if w.ok then
        let w' := netSendPieces w.answers pieces
        ⟨w'.ok, w.bytes ++ w'.bytes, w'.answers⟩
      else w := by
  induction answers generalizing piece with
  | nil =>
    obtain ⟨b, data, rfl⟩ := List.exists_cons_of_ne_nil hpiece
    cases pieces <;> simp [netSendPieces, Net.netSend, writeAll]
  | cons ans answers ih =>
    obtain ⟨b, data, rfl⟩ := List.exists_cons_of_ne_nil hpiece
    cases ans with
    | fail => simp [netSendPieces, netSendPart, Net.netSend, writeAll]
    | took n =>
      simp only [netSendPieces, netSendPart, Net.netSend, writeAll, List.drop_succ_cons,
        List.take_succ_cons]
      by_cases hleft : data.drop n = []
      · simp [hleft]
      · by_cases hok : (writeAll answers (data.drop n)).ok = true
        · simp [hleft, ih hleft, Net.netSend, hok]
        · simp [hleft, ih hleft, Net.netSend, hok]

/-- **Calls of `send` that nobody interrupts are `net_send_buf`.** -/
theorem netSendPieces_eq (o : ByteOrder) (answers : List WriteAns) (buf : Net.Buf) :
    netSendPieces answers (netSendBufPieces o buf) = Net.netSendBuf o answers buf := by
  have hsize : store32 o (htonl o buf.size) ≠ [] := by
    rw [store32_htonl]
    exact List.cons_ne_nil _ _
  -- whether or not the second piece is there, it is sent like the data
  have hdata : ∀ answers, netSendPieces answers ([buf.contents].filter (· ≠ [])) =
      Net.netSend answers buf.contents := by
    intro answers
    by_cases hempty : buf.contents = []
    · simp [hempty, Net.netSend]
    · rw [List.filter_cons_of_pos (by simpa using hempty), List.filter_nil,
        netSendPieces_cons answers hempty]
      obtain ⟨ok, bytes, answers'⟩ := Net.netSend answers buf.contents
      cases ok <;> simp
  rw [netSendBufPieces, List.filter_cons_of_pos (by simpa using hsize),
    netSendPieces_cons answers hsize, Net.netSendBuf]
  simp only [hdata]

/-! ## State -/

/-- A client thread: in `jsonrpc_request_recv`, sending its response, or past that. -/
inductive ClientPhase where
  | receiving
  | sending (pieces : List Bytes)
  | done

/-- A client and its connection. -/
structure Client where
  conn : Nat
  phase : ClientPhase

/-- The main thread inside `jsonrpc_request_send`, called by `server_assign_run`. -/
structure Assigning where
  run : Run
  worker : Worker
  pieces : List Bytes

/-- The server, its threads, and the connections accepted so far with what has been sent on
them. -/
structure State where
  server : Server
  main : MainThread
  assigning : Option Assigning
  clients : List Client
  wires : Nat → Wire Net.Buf UInt8
  next : Nat

/-- The server after `server_create`. -/
def started (fds : FdTable) (runs : Queue) (db : Db) : State :=
  ⟨⟨false, [], runs, db, fds⟩, .start, none, [], fun _ => .empty, 0⟩

/-! ## Steps -/

/-- One step of a thread.  `received` is what `libjson_recv` returns, `bufOk` whether the buffer
of the response can be allocated, `ok` whether the main thread's lock or wait succeeds, and
`createOk` whether its request and the buffer of that can be made. -/
inductive Action where
  | connect
  | receive (i : Nat) (received : Option Json) (env : HandlerEnv) (bufOk : Bool)
  | send (i : Nat) (ans : WriteAns)
  | main (ok createOk : Bool)
  | mainSend (ans : WriteAns)
  | setStopping

def State.setClient (s : State) (i : Nat) (client : Client) : State :=
  { s with clients := s.clients.set i client }

def State.setWire (s : State) (conn : Nat) (wire : Wire Net.Buf UInt8) : State :=
  { s with wires := Function.update s.wires conn wire }

variable (toText : Json → CStr) (o : ByteOrder)

/-- The buffer of `libjson_send`. -/
def bufOf (value : Json) : Net.Buf := Net.bufCreateFromString (toText value)

/-- The handler has changed a queue, inside a critical section that ended with
`server_notify`. -/
def queuesChanged (before after : Server) : Bool :=
  after.workerQueue ≠ before.workerQueue ∨ after.runQueue ≠ before.runQueue

/-- `cmd_dispatcher_handle_conn_internal` up to the first call of `send`. -/
def State.receive (s : State) (i conn : Nat) (received : Option Json) (env : HandlerEnv)
    (bufOk : Bool) : State :=
  let served := cmdDispatcherHandleConnInternal (serverCommands env) conn received true s.server
  let changed := queuesChanged s.server served.state
  -- the main thread holds the mutex
  if changed && decide (s.main = .locked) then s
  else
    let s := { s with
      server := served.state
      main := if changed then serverNotify s.main else s.main }
    match bufOk, served.sent with
    | true, response :: _ =>
      let buf := bufOf toText response.impl
      (s.setClient i ⟨conn, .sending (netSendBufPieces o buf)⟩).setWire conn
        ((s.wires conn).begin buf)
    | _, _ => s.setClient i ⟨conn, .done⟩

/-- The end of `server_assign_run`. -/
def State.assigned (s : State) (run : Run) (worker : Worker) (ok : Bool) : State :=
  let runQueue := if ok then s.server.runQueue else runQueueAddFirst s.server.runQueue run
  { s with server := workerDestroy worker { s.server with runQueue }, assigning := none }

/-- `server_assign_run` up to the first call of `send`. -/
def State.assign (s : State) (createOk : Bool) : State :=
  match runQueueRemoveFirst s.server.runQueue, s.server.workerQueue with
  | some (run, runQueue), worker :: workerQueue =>
    let s := { s with server := { s.server with runQueue, workerQueue } }
    match createOk, requestCreateStartRun run with
    | true, .ok request =>
      let buf := bufOf toText request.impl
      { s with assigning := some ⟨run, worker, netSendBufPieces o buf⟩ }.setWire worker.conn
        ((s.wires worker.conn).begin buf)
    | _, _ => s.assigned run worker false
  -- not reached: there is something in both queues (`ready_queues`)
  | _, _ => s

/-- A step of `server_main_thread` outside `jsonrpc_request_send`. -/
def State.mainStep (s : State) (ok createOk : Bool) : State :=
  match s.main with
  | .start => { s with main := if ok then .locked else .exited }
  | .waiting _ => { s with main := .locked }
  | .exited => s
  | .locked =>
    if !serverReadyForAction s.server then { s with main := if ok then .waiting false else .exited }
    else if s.server.stopping then { s with main := .exited }
    else s.assign toText o createOk

/-- A step; an action whose thread cannot move leaves the state as it is. -/
def step (s : State) : Action → State
  | .connect => { s with clients := s.clients ++ [⟨s.next, .receiving⟩], next := s.next + 1 }
  | .receive i received env bufOk =>
    match s.clients[i]? with
    | some ⟨conn, .receiving⟩ => s.receive toText o i conn received env bufOk
    | _ => s
  | .send i ans =>
    match s.clients[i]? with
    | some ⟨conn, .sending pieces⟩ =>
      match netSendPart ans pieces with
      | none => (s.setClient i ⟨conn, .done⟩).setWire conn (s.wires conn).giveUp
      | some (bytes, left) =>
        (s.setClient i ⟨conn, if left = [] then .done else .sending left⟩).setWire conn
          ((s.wires conn).put bytes)
    | _ => s
  | .main ok createOk =>
    match s.assigning with
    | some _ => s
    | none => s.mainStep toText o ok createOk
  | .mainSend ans =>
    match s.assigning with
    | none => s
    | some ⟨run, worker, pieces⟩ =>
      match netSendPart ans pieces with
      | none => (s.assigned run worker false).setWire worker.conn (s.wires worker.conn).giveUp
      | some (bytes, left) =>
        let s := s.setWire worker.conn ((s.wires worker.conn).put bytes)
        if left = [] then s.assigned run worker true
        else { s with assigning := some ⟨run, worker, left⟩ }
  | .setStopping =>
    if s.main = .locked then s
    else { s with server := serverSetStopping s.server, main := serverNotify s.main }

def run (s : State) (actions : List Action) : State := actions.foldl (step toText o) s

variable {toText o} {s : State}

/-- An assignment begun in `s` is over in `s'`: the outcome of its sends, and what they have put
on the worker's connection. -/
structure AssignmentOver (run : Run) (worker : Worker) (ok : Bool) (bytes : Bytes)
    (s s' : State) : Prop where
  server : s'.server = (s.assigned run worker ok).server
  ended : s'.assigning = none
  wire : (s'.wires worker.conn).bytes = (s.wires worker.conn).bytes ++ bytes

variable (toText o) in
theorem mainSend_step {run : Run} {worker : Worker} {pieces : List Bytes}
    (h : s.assigning = some ⟨run, worker, pieces⟩) (ans : WriteAns) :
    let s' := step toText o s (.mainSend ans)
    (netSendPart ans pieces = none ∧ AssignmentOver run worker false [] s s') ∨
      ∃ bytes left, netSendPart ans pieces = some (bytes, left) ∧
        (left = [] ∧ AssignmentOver run worker true bytes s s' ∨
          left ≠ [] ∧ s'.assigning = some ⟨run, worker, left⟩ ∧ s'.server = s.server ∧
            (s'.wires worker.conn).bytes = (s.wires worker.conn).bytes ++ bytes) := by
  simp only [step, h]
  cases hsent : netSendPart ans pieces with
  | none =>
    refine .inl ⟨rfl, rfl, rfl, ?_⟩
    simp [State.setWire, Wire.giveUp]
  | some sent =>
    obtain ⟨bytes, left⟩ := sent
    refine .inr ⟨bytes, left, rfl, ?_⟩
    by_cases hleft : left = []
    · subst hleft
      exact .inl ⟨rfl, rfl, rfl, by simp [State.assigned, State.setWire, Wire.put]⟩
    · exact .inr ⟨hleft, by simp [hleft, State.setWire, Wire.put]⟩

theorem mainSends_none (h : s.assigning = none) (answers : List WriteAns) :
    Frames.run toText o s (answers.map .mainSend) = s := by
  induction answers with
  | nil => rfl
  | cons ans answers ih =>
    have hstep : step toText o s (.mainSend ans) = s := by simp only [step, h]
    rw [List.map_cons, Frames.run, List.foldl_cons, hstep]
    exact ih

/-- Calls of `send` by the main thread that nobody interrupts. -/
theorem mainSends_alone {run : Run} {worker : Worker} (answers : List WriteAns) :
    ∀ {pieces : List Bytes} {s : State}, pieces ≠ [] →
      s.assigning = some ⟨run, worker, pieces⟩ →
      (Frames.run toText o s (answers.map .mainSend)).assigning = none →
      AssignmentOver run worker (netSendPieces answers pieces).ok
        (netSendPieces answers pieces).bytes s
        (Frames.run toText o s (answers.map .mainSend)) := by
  induction answers with
  | nil =>
    intro pieces s _ h hover
    rw [List.map_nil, Frames.run, List.foldl_nil, h] at hover
    cases hover
  | cons ans answers ih =>
    intro pieces s hpieces h hover
    obtain ⟨piece, pieces, rfl⟩ := List.exists_cons_of_ne_nil hpieces
    have hrun : Frames.run toText o s ((ans :: answers).map .mainSend) =
        Frames.run toText o (step toText o s (.mainSend ans)) (answers.map .mainSend) := rfl
    rw [hrun] at hover ⊢
    rcases mainSend_step toText o h ans with
      ⟨hnone, hdone⟩ | ⟨bytes, left, hsome, ⟨rfl, hdone⟩ | ⟨hleft, hmore, hserver, hwire⟩⟩
    · simpa only [netSendPieces, hnone, mainSends_none hdone.ended] using hdone
    · simpa only [netSendPieces, hsome, netSendPieces_nil, List.append_nil,
        mainSends_none hdone.ended] using hdone
    · have hdone := ih hleft hmore hover
      simp only [netSendPieces, hsome]
      refine ⟨?_, hdone.ended, ?_⟩
      · rw [hdone.server]
        simp only [State.assigned, hserver]
      · rw [hdone.wire, hwire, List.append_assoc]

/-- **An assignment that nobody interrupts is `server_assign_run`.** -/
theorem assign_alone {env : AssignEnv} (hassigning : s.assigning = none) (hmain : s.main = .locked)
    (hstopping : s.server.stopping = false) {server : Server} {a : Assignment}
    (h : serverAssignRun toText o env s.server = some (server, a)) :
    let s' := Frames.run toText o s (.main true env.createOk :: env.answers.map .mainSend)
    s'.assigning = none → s'.server = server ∧
      (s'.wires a.worker.conn).bytes = (s.wires a.worker.conn).bytes ++ a.bytes := by
  intro s' hover
  obtain ⟨createOk, answers⟩ := env
  simp only [serverAssignRun] at h
  split at h
  · rename_i run runQueue worker workerQueue hruns hworkers
    cases h
    have hqueues : runQueueIsEmpty s.server.runQueue = false ∧ s.server.workerQueue ≠ [] := by
      refine ⟨?_, by simp [hworkers]⟩
      cases hqueue : s.server.runQueue with
      | nil => simp [hqueue, runQueueRemoveFirst] at hruns
      | cons => rfl
    have hready : serverReadyForAction s.server = true := by
      simp [serverReadyForAction, hqueues.1, hqueues.2]
    have hfirst : step toText o s (.main true createOk) = s.assign toText o createOk := by
      simp [step, hassigning, State.mainStep, hmain, hready, hstopping]
    have hrun : s' = Frames.run toText o (s.assign toText o createOk) (answers.map .mainSend) := by
      rw [← hfirst]
      rfl
    rw [hrun] at hover ⊢
    simp only [State.assign, hruns, hworkers, sendStartRun, requestCreateStartRun_eq] at hover ⊢
    cases createOk with
    | false =>
      rw [mainSends_none rfl]
      exact ⟨rfl, by simp [State.assigned]⟩
    | true =>
      have hpieces : netSendBufPieces o (bufOf toText (startRunJson run)) ≠ [] := by
        intro hnil
        have hframe := netSendBufPieces_flatten o (bufOf toText (startRunJson run))
        simp [hnil, Net.frame, be32] at hframe
      have hdone := mainSends_alone answers hpieces rfl hover
      rw [netSendPieces_eq] at hdone
      refine ⟨hdone.server, ?_⟩
      rw [hdone.wire]
      simp [State.setWire, Wire.begin, libjsonSend, bufOf]
  · cases h

/-! ## Requests -/

/-- The request adds a worker to the queue: its method is `new-worker`, and no step of the
handler fails. -/
def registers (env : HandlerEnv) (request : JsonrpcRequest) : Bool :=
  decide (jsonrpcRequestGetMethod request = some cmdNewWorker) && env.dup.isSome && env.workerOk &&
    env.lockOk

/-- What is received is a request that adds a worker to the queue and asks for a response. -/
def registersAnswered (env : HandlerEnv) (received : Option Json) : Bool :=
  (jsonrpcRequestRecv received).any fun request =>
    registers env request && !jsonrpcRequestIsNotification request

/-- A worker is added for the connection of the request. -/
def AddsWorker (conn : Nat) (before after : Server) : Prop :=
  ∃ worker : Worker, worker.conn = conn ∧ after.workerQueue = before.workerQueue ++ [worker]

theorem serverHandleCmdNewWorker_queue (env : HandlerEnv) (request : JsonrpcRequest) (conn : Nat)
    (server : Server) :
    let after := (serverHandleCmdNewWorker env request conn server).state
    after.workerQueue = server.workerQueue ∨
      (env.dup.isSome = true ∧ env.workerOk = true ∧ env.lockOk = true) ∧
        AddsWorker conn server after := by
  simp only [serverHandleCmdNewWorker]
  split
  · exact .inl rfl
  · rename_i fd fds hdup
    obtain ⟨fd', hfd, -⟩ := Option.bind_eq_some_iff.1 hdup
    cases hworker : env.workerOk with
    | false => exact .inl (by simp)
    | true =>
      cases hlock : env.lockOk with
      | false =>
        have hfail : (-1 : Int32) < 0 := by decide
        exact .inl (by simp [serverEnqueueWorker, hlock, hfail, workerDestroy])
      | true =>
        have hzero : ¬ (0 : Int32) < 0 := by decide
        refine .inr ⟨⟨by simp [hfd], rfl, rfl⟩, ⟨fd, server.fds.next, conn⟩, rfl, ?_⟩
        simp [serverEnqueueWorker, hlock, hzero, serverAddWorker]

theorem serverEnqueueRun_workers (env : HandlerEnv) (server : Server) (run : Run) :
    (serverEnqueueRun env server run).2.workerQueue = server.workerQueue := by
  simp only [serverEnqueueRun]
  split
  · rfl
  · split <;> rfl

/-- **Only a `new-worker` request adds a worker**, one and for its own connection; nothing takes
a worker away. -/
theorem handled_queue (env : HandlerEnv) (request : JsonrpcRequest) (conn : Nat)
    (server : Server) :
    let after := (cmdDispatcherHandleInternal (serverCommands env) request conn server).state
    after.workerQueue = server.workerQueue ∨
      registers env request = true ∧ AddsWorker conn server after := by
  simp only [cmdDispatcherHandleInternal]
  split
  · rename_i cmd hcmd
    obtain ⟨method, hmethod, hlookup⟩ := Option.bind_eq_some_iff.1 hcmd
    have hname : cmd.name = method := by simpa using List.find?_some hlookup
    have hmem := cmdOf_mem hcmd
    simp only [serverCommands, List.mem_cons, List.not_mem_nil, or_false] at hmem
    rcases hmem with rfl | rfl | rfl | rfl
    · rcases serverHandleCmdNewWorker_queue env request conn server with hsame | ⟨hok, hadds⟩
      · exact .inl hsame
      · refine .inr ⟨?_, hadds⟩
        simp [registers, hmethod, ← hname, hok.1, hok.2.1, hok.2.2]
    · refine .inl ?_
      simp only [serverHandleCmdQueueRun]
      split
      · rfl
      · rename_i run _
        have hworkers := serverEnqueueRun_workers env server run
        generalize serverEnqueueRun env server run = enqueued at hworkers ⊢
        split
        · rfl
        · split
          · rfl
          · split
            · exact hworkers
            · exact hworkers
    · refine .inl ?_
      simp only [serverHandleCmdFinishedRun]
      split <;> rfl
    · refine .inl ?_
      simp only [serverHandleCmdGetRuns]
      split
      · rfl
      · split
        · rfl
        · split
          · rfl
          · split <;> rfl
  · exact .inl rfl

/-- **A connection on which a worker is registered is not answered on.** -/
theorem served_queue {env : HandlerEnv} {received : Option Json}
    (h : registersAnswered env received = false) (conn : Nat) (server : Server) :
    let served := cmdDispatcherHandleConnInternal (serverCommands env) conn received true server
    served.state.workerQueue = server.workerQueue ∨
      served.sent = [] ∧ AddsWorker conn server served.state := by
  simp only [cmdDispatcherHandleConnInternal]
  cases hrecv : jsonrpcRequestRecv received with
  | none => exact .inl rfl
  | some request =>
    rcases handled_queue env request conn server with hsame | ⟨hregisters, hadds⟩
    · refine .inl ?_
      simp only
      split
      · exact hsame
      · split
        · exact hsame
        · rfl
    · have hnotification : jsonrpcRequestIsNotification request = true := by
        simpa [registersAnswered, hrecv, hregisters] using h
      exact .inr (by simpa only [hnotification, if_true] using ⟨trivial, hadds⟩)

/-! ## The invariant -/

/-- A client that may still send, with what is left to send. -/
def Client.writer : Client → Option (Nat × Bytes)
  | ⟨conn, .receiving⟩ => some (conn, [])
  | ⟨conn, .sending pieces⟩ => some (conn, pieces.flatten)
  | ⟨_, .done⟩ => none

/-- Who may still send: clients, the main thread to a worker of the queue, and the main thread
inside an assignment. -/
def writersOf (clients : List Client) (workers : List Worker) (assigning : Option Assigning) :
    List (Nat × Bytes) :=
  held Client.writer clients ++ workers.map (fun worker => (worker.conn, [])) ++
    assigning.toList.map fun a => (a.worker.conn, a.pieces.flatten)

def State.writers (s : State) : List (Nat × Bytes) :=
  writersOf s.clients s.server.workerQueue s.assigning

@[simp] theorem writers_setWire (s : State) (conn : Nat) (wire : Wire Net.Buf UInt8) :
    (s.setWire conn wire).writers = s.writers := rfl

@[simp] theorem writers_setClient (s : State) (i : Nat) (client : Client) :
    (s.setClient i client).writers =
      writersOf (s.clients.set i client) s.server.workerQueue s.assigning := rfl

/-- The invariant: on every connection one thread at most may still send. -/
def Inv (s : State) : Prop := OneWriter Net.frame s.wires s.next s.writers

theorem started_inv (fds : FdTable) (runs : Queue) (db : Db) : Inv (started fds runs db) :=
  oneWriter_nil

theorem writersOf_client {clients : List Client} {i : Nat} {client : Client} {w : Nat × Bytes}
    (hi : clients[i]? = some client) (hw : client.writer = some w) (workers : List Worker)
    (assigning : Option Assigning) :
    ∃ rest, (writersOf clients workers assigning).Perm (w :: rest) ∧
      ∀ (client' : Client) (workers' : List Worker),
        (writersOf (clients.set i client') (workers ++ workers') assigning).Perm
          (client'.writer.toList ++ workers'.map (fun worker => (worker.conn, [])) ++ rest) := by
  obtain ⟨before, after, rfl, rfl⟩ := split_getElem? hi
  refine ⟨held Client.writer before ++ held Client.writer after ++
      workers.map (fun worker => (worker.conn, [])) ++
      assigning.toList.map (fun a => (a.worker.conn, a.pieces.flatten)),
    List.perm_iff_count.2 fun t => ?_, fun client' workers' => List.perm_iff_count.2 fun t => ?_⟩
  · simp only [writersOf, held_append, held_singleton, hw, Option.toList_some, List.count_append,
      List.count_cons, List.count_nil]
    omega
  · have hset : (before ++ [client] ++ after).set before.length client' =
        before ++ [client'] ++ after := by simp
    simp only [writersOf, hset, held_append, held_singleton, List.map_append, List.count_append]
    omega

/-- **A request, if it does not both register a worker and ask for a response, passes the
connection on or begins the response.** -/
theorem receive_inv (h : Inv s) {i conn : Nat} (hi : s.clients[i]? = some ⟨conn, .receiving⟩)
    {received : Option Json} {env : HandlerEnv} (hanswered : registersAnswered env received = false)
    (bufOk : Bool) : Inv (s.receive toText o i conn received env bufOk) := by
  obtain ⟨rest, hwriters, hnew⟩ := writersOf_client hi rfl s.server.workerQueue s.assigning
  have hmine := OneWriter.perm h hwriters
  simp only [State.receive]
  split
  · exact h
  · rcases served_queue hanswered conn s.server with hsame | ⟨hsent, worker, hconn, hadded⟩
    · split
      · rename_i response _ hsent
        refine (hmine.begin (bufOf toText response.impl)).perm ?_
        have hperm := hnew ⟨conn, .sending (netSendBufPieces o (bufOf toText response.impl))⟩ []
        simpa [Client.writer, netSendBufPieces_flatten, hsame] using hperm.symm
      · refine hmine.finish.perm ?_
        simpa [Client.writer, hsame] using (hnew ⟨conn, .done⟩ []).symm
    · simp only [hsent]
      refine hmine.perm ?_
      simpa [Client.writer, hconn, hadded] using (hnew ⟨conn, .done⟩ [worker]).symm

theorem send_inv (h : Inv s) (i : Nat) (ans : WriteAns) : Inv (step toText o s (.send i ans)) := by
  simp only [step]
  split
  · rename_i conn pieces hi
    obtain ⟨rest, hwriters, hnew⟩ := writersOf_client hi rfl s.server.workerQueue s.assigning
    have hmine := OneWriter.perm h hwriters
    split
    · refine hmine.giveUp.perm ?_
      simpa [Client.writer] using (hnew ⟨conn, .done⟩ []).symm
    · rename_i bytes left hsent
      rw [netSendPart_spec hsent] at hmine
      by_cases hleft : left = []
      · subst hleft
        refine hmine.put.finish.perm ?_
        simpa [Client.writer] using (hnew ⟨conn, .done⟩ []).symm
      · refine hmine.put.perm ?_
        simpa [Client.writer, hleft] using (hnew ⟨conn, .sending left⟩ []).symm
  · exact h

theorem assign_inv (h : Inv s) (hassigning : s.assigning = none) (createOk : Bool) :
    Inv (s.assign toText o createOk) := by
  simp only [State.assign]
  split
  · rename_i run runQueue worker workerQueue hruns hworkers
    have hmine : OneWriter Net.frame s.wires s.next
        ((worker.conn, []) :: writersOf s.clients workerQueue none) := by
      refine OneWriter.perm h (List.perm_iff_count.2 fun t => ?_)
      simp only [State.writers, writersOf, hworkers, hassigning, List.map_cons, List.count_append,
        List.count_cons]
      omega
    split
    · rename_i request _
      refine (hmine.begin (bufOf toText request.impl)).perm (List.perm_iff_count.2 fun t => ?_)
      simp only [State.writers, State.setWire, writersOf, Option.toList_some, Option.toList_none,
        List.map_cons, List.map_nil, netSendBufPieces_flatten, List.count_append, List.count_cons,
        List.count_nil]
      omega
    · exact hmine.finish
  · exact h

/-- The main thread sends. -/
theorem mainSend_inv (h : Inv s) (ans : WriteAns) : Inv (step toText o s (.mainSend ans)) := by
  simp only [step]
  split
  · exact h
  · rename_i run worker pieces hassigning
    have hperm : ∀ left : List Bytes,
        (writersOf s.clients s.server.workerQueue (some ⟨run, worker, left⟩)).Perm
          ((worker.conn, left.flatten) :: writersOf s.clients s.server.workerQueue none) := by
      intro left
      refine List.perm_iff_count.2 fun t => ?_
      simp only [writersOf, Option.toList_some, Option.toList_none, List.map_cons, List.map_nil,
        List.count_append, List.count_cons, List.count_nil]
      omega
    have hmine : OneWriter Net.frame s.wires s.next
        ((worker.conn, pieces.flatten) :: writersOf s.clients s.server.workerQueue none) := by
      refine OneWriter.perm h ?_
      rw [State.writers, hassigning]
      exact hperm pieces
    split
    · exact hmine.giveUp
    · rename_i bytes left hsent
      rw [netSendPart_spec hsent] at hmine
      split
      · rename_i hleft
        subst hleft
        exact hmine.put.finish
      · exact hmine.put.perm (hperm left).symm

/-- A request that registers a worker and asks for a response. -/
def Action.registersAnswered : Action → Bool
  | .receive _ received env _ => Frames.registersAnswered env received
  | _ => false

/-- **A step without such a request keeps the invariant.** -/
theorem step_inv (h : Inv s) {action : Action} (haction : action.registersAnswered = false) :
    Inv (step toText o s action) := by
  cases action with
  | connect =>
    refine (OneWriter.connect h).perm (List.perm_iff_count.2 fun t => ?_)
    simp only [State.writers, writersOf, step, held_append, held_singleton, Client.writer,
      Option.toList_some, List.count_append, List.count_cons, List.count_nil]
    omega
  | receive i received env bufOk =>
    simp only [step]
    split
    · rename_i conn hi
      exact receive_inv h hi haction bufOk
    · exact h
  | send i ans => exact send_inv h i ans
  | main ok createOk =>
    simp only [step]
    split
    · exact h
    · rename_i hassigning
      simp only [State.mainStep]
      split
      · exact h
      · exact h
      · exact h
      · split
        · exact h
        · split
          · exact h
          · exact assign_inv h hassigning createOk
  | mainSend ans => exact mainSend_inv h ans
  | setStopping =>
    simp only [step]
    split
    · exact h
    · exact h

/-- **A run without such a request keeps the invariant.** -/
theorem run_inv (actions : List Action)
    (hactions : ∀ action ∈ actions, action.registersAnswered = false) (h : Inv s) :
    Inv (run toText o s actions) :=
  List.foldlRecOn actions _ h fun _ h action haction => step_inv h (hactions action haction)

/-! ## The contract -/

def ClientPhase.isSending : ClientPhase → Bool
  | .sending _ => true
  | _ => false

/-- A thread is inside `net_send_buf` for the connection. -/
def State.isSending (s : State) (conn : Nat) : Bool :=
  (s.clients.any fun client => decide (client.conn = conn) && client.phase.isSending) ||
    s.assigning.any fun a => decide (a.worker.conn = conn)

/-- **Whole frames on every connection**: the frames begun on it, in order, except that of the
last one there may be only a prefix, if a `send` has failed or the thread is not through. -/
def WholeFrames (s : State) : Prop :=
  ∀ conn, ∃ bufs part, (s.wires conn).bytes = bufs.flatMap Net.frame ++ part ∧
    (part = [] ∧ (s.wires conn).begun = bufs ∨
      ((s.wires conn).cut = true ∨ s.isSending conn = true) ∧
        ∃ buf, (s.wires conn).begun = bufs ++ [buf] ∧ part <+: Net.frame buf)

/-- Who has something left to send is inside `net_send_buf`. -/
theorem isSending_of_mem {conn : Nat} {left : Bytes} (hleft : left ≠ [])
    (h : (conn, left) ∈ s.writers) : s.isSending conn = true := by
  simp only [State.writers, writersOf, List.mem_append] at h
  rcases h with (hclient | hworker) | hassigning
  · obtain ⟨⟨conn', phase⟩, hmem, hw⟩ := List.mem_filterMap.1 hclient
    cases phase with
    | receiving =>
      cases hw
      exact absurd rfl hleft
    | sending pieces =>
      cases hw
      have hclient : (s.clients.any fun client =>
          decide (client.conn = conn) && client.phase.isSending) = true :=
        List.any_eq_true.2 ⟨_, hmem, by simp [ClientPhase.isSending]⟩
      rw [State.isSending, hclient, Bool.true_or]
    | done => cases hw
  · obtain ⟨worker, -, heq⟩ := List.mem_map.1 hworker
    cases heq
    exact absurd rfl hleft
  · obtain ⟨a, ha, heq⟩ := List.mem_map.1 hassigning
    cases heq
    have ha : s.assigning = some a := by simpa using ha
    simp [State.isSending, ha]

theorem Inv.wholeFrames (h : Inv s) : WholeFrames s := by
  intro conn
  obtain ⟨bufs, part, hbytes, hwhole | ⟨hcut | ⟨left, hleft, hmem⟩, hlast⟩⟩ :=
    OneWriter.whole h conn
  · exact ⟨bufs, part, hbytes, .inl hwhole⟩
  · exact ⟨bufs, part, hbytes, .inr ⟨.inl hcut, hlast⟩⟩
  · exact ⟨bufs, part, hbytes, .inr ⟨.inr (isSending_of_mem hleft hmem), hlast⟩⟩

/-- **Whole frames on every connection**, in every run in which no request both registers a
worker and asks for a response. -/
theorem whole_frames (toText : Json → CStr) (o : ByteOrder) (fds : FdTable) (runs : Queue) (db : Db)
    (actions : List Action) (hactions : ∀ action ∈ actions, action.registersAnswered = false) :
    WholeFrames (run toText o (started fds runs db) actions) :=
  (run_inv actions hactions (started_inv fds runs db)).wholeFrames

/-- The texts json-c prints for the two messages of the run below. -/
def interleavedText (value : Json) : CStr :=
  if libjsonHas value jsonrpcKeyMethod then
    .ofAscii ("\x7b \"jsonrpc\": \"2.0\", \"method\": \"start-run\", \"params\": " ++
      "\x7b \"id\": 7, \"url\": \"repo\", \"rev\": \"HEAD\" \x7d \x7d")
  else .ofAscii "\x7b \"jsonrpc\": \"2.0\", \"id\": 1, \"result\": null \x7d"

/-- A `new-worker` request with an identifier: the size of its response is sent, then the main
thread, which has a run, sends its frame, then the client thread sends the rest. -/
def interleaved : List Action :=
  [.connect, .main true true, .main true true,
    .receive 0 (some (.object (requestMembers (some 1) cmdNewWorker))) calm true,
    .send 0 (.took 3), .main true true, .main true true, .mainSend (.took 3),
    .mainSend (.took 200), .send 0 (.took 200)]

/-- The server after that. -/
def serverInterleaved : State :=
  run interleavedText .little
    (started emptyServer.fds [runCreated 7 (.ofAscii "repo") (.ofAscii "HEAD")] v01) interleaved

/-- What is on the connection then. -/
def interleavedBytes : Bytes :=
  let start := bufOf interleavedText
    (startRunJson (runCreated 7 (.ofAscii "repo") (.ofAscii "HEAD")))
  let response := bufOf interleavedText (responseJson (.int 1) jsonrpcKeyResult .null)
  be32 response.size ++ Net.frame start ++ response.contents

theorem flatMap_frame_split {bufs : List Net.Buf} {bytes : Bytes}
    (h : bufs.flatMap Net.frame = bytes) (hne : bytes ≠ []) :
    4 + (ofBe32 (bytes.take 4)).toNat ≤ bytes.length ∧
      ∃ bufs' : List Net.Buf,
        bufs'.flatMap Net.frame = bytes.drop (4 + (ofBe32 (bytes.take 4)).toNat) := by
  subst h
  cases bufs with
  | nil => exact absurd rfl hne
  | cons buf bufs =>
    have hsize : ((buf :: bufs).flatMap Net.frame).take 4 = be32 buf.size := by
      rw [List.flatMap_cons, Net.frame, List.append_assoc, List.take_left' (be32_length _)]
    have hlength := Net.frame_length buf
    rw [hsize, ofBe32_be32, ← hlength, List.flatMap_cons]
    exact ⟨by simp, bufs, by simp⟩

/-- What is on the connection is no sequence of frames, although no `send` has failed and nobody
is sending any more. -/
theorem frames_interleaved :
    (serverInterleaved.wires 0).cut = false ∧ serverInterleaved.isSending 0 = false ∧
      (¬ ∃ bufs : List Net.Buf, (serverInterleaved.wires 0).bytes = bufs.flatMap Net.frame) ∧
      ¬ WholeFrames serverInterleaved := by
  have hstate : (serverInterleaved.wires 0).cut = false ∧ serverInterleaved.isSending 0 = false ∧
      (serverInterleaved.wires 0).bytes = interleavedBytes := by decide +kernel
  obtain ⟨hcut, hsending, hsent⟩ := hstate
  have hbytes : ¬ ∃ bufs : List Net.Buf,
      (serverInterleaved.wires 0).bytes = bufs.flatMap Net.frame := by
    rintro ⟨bufs, h⟩
    -- the second size read is in the middle of a text
    obtain ⟨-, bufs', h'⟩ := flatMap_frame_split (h.symm.trans hsent) (by decide)
    exact absurd (flatMap_frame_split h' (by decide)).1 (by decide)
  refine ⟨hcut, hsending, hbytes, fun h => ?_⟩
  obtain ⟨bufs, part, hwhole, ⟨rfl, -⟩ | ⟨hcut' | hsending', -⟩⟩ := h 0
  · exact hbytes ⟨bufs, by simpa using hwhole⟩
  · rw [hcut] at hcut'
    cases hcut'
  · rw [hsending] at hsending'
    cases hsending'

/-- A worker that asks for no response gets a run, while another client gets one. -/
theorem whole_frames_apart :
    WholeFrames (run interleavedText .little
      (started emptyServer.fds [runCreated 7 (.ofAscii "repo") (.ofAscii "HEAD")] v01)
      [.connect, .connect, .main true true, .main true true,
        .receive 0 (some (.object (requestMembers none cmdNewWorker))) calm true,
        .receive 1 (some (.object (requestMembers (some 1) cmdGetRuns))) calm true,
        .send 1 (.took 3), .main true true, .main true true, .mainSend (.took 3), .mainSend .fail,
        .send 1 (.took 200)]) :=
  whole_frames _ _ _ _ _ _ (by decide)

end Cimple.Frames
