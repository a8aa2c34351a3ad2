import Cimple.Jobs

/-!
# Results belong to their runs

* `Inv` — what holds in every reachable state.  The jobs in flight, at workers and executed are
  among the jobs sent, each as often at most (`delivered`); the jobs sent are enqueued
  (`conserved`); and as long as the keys fit, the jobs created have distinct identifiers and are
  backed by rows (`jobs`).
* `ResultsBelong` — the result in a row is that of a call for its repository and revision, and
  no run is executed twice.

Principal results: `step_inv` and `results_belong`.
-/

set_option autoImplicit false

namespace Cimple.Results

open Octets JsonValue Tokens Cimple.Json Cimple.JsonRpc Cimple.Command Cimple.RunQueue
  Cimple.Protocol Cimple.Storage Cimple.Servers Cimple.Dispatching Cimple.Workers Cimple.Systems
  Cimple.Jobs

/-! ## The invariant -/

/-- A worker's event loop and run are those of its phase. -/
def ProcOk (p : Proc) : Prop :=
  match p.phase with
  | .idle => AtRest p.state
  | .waiting conn => ∃ sig entry, p.state.loop.entries = [sig, entry] ∧ IsSignalEntry sig ∧
      IsConnEntry conn entry
  | .ready => AtRest p.state ∧ p.state.worker.run.isSome = true
  | .exited => True

/-- A message of a worker: an announcement, or the result of a call. -/
def WorkerMessage (calls : List CiCall) (message : Json) : Prop :=
  message = newWorkerRequest.impl ∨ ∃ call ∈ calls, ∃ output, call.result = some output ∧
    message = finishedRunJson call.id output

/-- The result in a row is the result of a call for the run. -/
def HasResult (row : RunRow) (call : CiCall) : Prop :=
  call.id.toInt = row.id ∧ ∃ output, call.result = some output ∧
    output.ec.toInt = row.exitCode ∧ output.data = row.output

variable (toText : Json → CStr)

/-- What holds in every reachable state. -/
structure Inv (s : System) : Prop where
  conserved : Conserved toText [] s.dispatch
  delivered : ∀ job, (held messageJob s.toWorker).count job + (held procJob s.procs).count job +
    (s.calls.map callJob).count job ≤ ((sentRuns toText s.dispatch.assigned).map runJob).count job
  procs : ∀ p ∈ s.procs, ProcOk p
  messages : ∀ m ∈ s.toServer, WorkerMessage s.calls m.2
  results : ∀ row ∈ s.db.runs, row.status = RunStatus.finished.code.toInt →
    ∃ call ∈ s.calls, HasResult row call
  jobs : Regular s → JobsInv s.db s.creators (createdJobs s)

variable {toText} {o : ByteOrder}

theorem initial_inv (toText : Json → CStr) : Inv toText System.initial where
  conserved := rfl
  delivered _ := Nat.le_refl _
  procs := List.forall_mem_nil _
  messages := List.forall_mem_nil _
  results := List.forall_mem_nil _
  jobs _ := ⟨List.forall_mem_nil _, List.forall_mem_nil _, List.forall_mem_nil _,
    List.forall_mem_nil _, List.nodup_nil⟩

/-! ## The threads of the server -/

theorem queueRun_inv {s : System} (h : Inv toText s) (message : Json) :
    Inv toText (s.queueRun message) := by
  have hheld : ∀ run : Option Run, held creatorJob (run.map Creator.insertRepo).toList = [] := by
    intro run
    cases run <;> rfl
  refine ⟨h.conserved, h.delivered, h.procs, h.messages, h.results, fun hregular => ?_⟩
  refine (h.jobs hregular).subperm ?_ ?_
  · rw [createdJobs, createdJobs, System.queueRun, held_append, hheld, List.append_nil]
  · intro c hc
    rcases List.mem_append.1 hc with hc | hc
    · exact .inl hc
    · obtain ⟨run, -, rfl⟩ := Option.map_eq_some_iff.1 (Option.mem_toList.1 hc)
      exact .inr trivial

theorem statement_grows (a : Attempt) (db : Db) (c : Creator) : Grows db (c.statement a db).2 := by
  cases c with
  | insertRepo run => exact storageSqliteInsertRepoStmt_grows a db run.repoUrl
  | insertRun run repoId => exact storageSqliteInsertRun_grows a db repoId run.repoRev
  | findRepo | enqueue => exact .refl db

theorem results_grow {calls : List CiCall} {a : Attempt} {db : Db} {c : Creator}
    (h : ∀ row ∈ db.runs, row.status = RunStatus.finished.code.toInt →
      ∃ call ∈ calls, HasResult row call) :
    ∀ row ∈ (c.statement a db).2.runs, row.status = RunStatus.finished.code.toInt →
      ∃ call ∈ calls, HasResult row call := by
  cases c with
  | insertRepo run =>
    rcases storageSqliteInsertRepoStmt_spec a db run.repoUrl with hsame | ⟨hruns, -⟩
    · simpa only [Creator.statement, hsame] using h
    · simpa only [Creator.statement, hruns] using h
  | insertRun run repoId =>
    rcases storageSqliteInsertRun_spec a db repoId run.repoRev with
      ⟨-, hsame⟩ | ⟨-, -, -, id, -, -, hruns⟩
    · simpa only [Creator.statement, hsame] using h
    · simp only [Creator.statement, hruns]
      intro row hrow hstatus
      rcases List.mem_append.1 hrow with hrow | hrow
      · exact h row hrow hstatus
      · rw [List.mem_singleton.1 hrow] at hstatus
        exact absurd hstatus (show RunStatus.created.code.toInt ≠ _ by decide)
  | findRepo | enqueue => exact h

theorem create_inv {s : System} (h : Inv toText s) (i : Nat) (a : Attempt) (lockOk : Bool) :
    ∃ s', s.create toText o i a lockOk = some s' ∧ Inv toText s' := by
  cases hget : s.creators[i]? with
  | none => exact ⟨s, by simp only [System.create, hget], h⟩
  | some c =>
    obtain ⟨before, after, hsplit, rfl⟩ := split_getElem? hget
    have herase : s.creators.eraseIdx before.length = before ++ after := by
      simp [hsplit, List.eraseIdx_append_of_length_le]
    have hset : ∀ c', s.creators.set before.length c' = before ++ [c'] ++ after := by
      simp [hsplit]
    by_cases henqueue : ∃ run, c = .enqueue run
    · obtain ⟨run, rfl⟩ := henqueue
      -- the thread is gone, and its job is enqueued or lost
      have hfewer : ∀ c ∈ before ++ after, c ∈ s.creators ∨ CreatorOk s.db c := by
        intro c hc
        rw [hsplit]
        simp only [List.mem_append, List.mem_singleton] at hc ⊢
        exact .inl (hc.elim (fun hc => .inl (.inl hc)) .inr)
      cases lockOk with
      | false =>
        refine ⟨{ s with creators := before ++ after }, by simp [System.create, hget, herase],
          h.conserved, h.delivered, h.procs, h.messages, h.results, fun hregular => ?_⟩
        refine (h.jobs hregular).subperm ?_ hfewer
        refine List.subperm_ext_iff.2 fun t _ => ?_
        simp only [createdJobs, hsplit, held_append, List.count_append]
        omega
      | true =>
        cases hfree : s.dispatch.mutexFree with
        | false => exact ⟨s, by simp [System.create, hget, hfree], h⟩
        | true =>
          obtain ⟨d, hstep, hconserved⟩ := step_conserved (o := o) h.conserved (.enqueueRun run)
          obtain ⟨hdb, hassigned, henqueued⟩ := enqueueRun_frame hfree hstep
          refine ⟨{ s with dispatch := d, creators := before ++ after },
            by simp [System.create, hget, hfree, hstep, herase], hconserved, ?_, h.procs,
            h.messages, ?_, fun hregular => ?_⟩
          · simpa only [hassigned] using h.delivered
          · simpa only [System.db, hdb] using h.results
          · simp only [Regular, System.db, hdb] at hregular ⊢
            refine (h.jobs hregular).subperm ?_ hfewer
            refine List.subperm_ext_iff.2 fun t _ => ?_
            simp only [createdJobs, hsplit, henqueued, held_append, held_singleton, creatorJob,
              List.map_append, List.map_cons, List.map_nil, Option.toList_some, List.count_append]
            omega
    · have hnext : ∀ run, c ≠ .enqueue run := fun run hrun => henqueue ⟨run, hrun⟩
      have hstep : s.create toText o before.length a lockOk =
          some { s.setDb (c.statement a s.db).2 with
            creators := before ++ (c.statement a s.db).1.toList ++ after
            rolledBack := s.rolledBack || c.rollsBack a s.db } := by
        cases c with
        | enqueue run => exact absurd rfl (hnext run)
        | insertRepo | findRepo | insertRun =>
          simp only [System.create, hget, herase]
          cases (Creator.statement a s.db _).1 with
          | none => simp
          | some c' => rw [Option.elim_some, hset, Option.toList_some]
      refine ⟨_, hstep, h.conserved, h.delivered, h.procs, h.messages, results_grow h.results,
        fun hregular => ?_⟩
      obtain ⟨hbefore, hkept⟩ := Bool.or_eq_false_iff.1 hregular.2
      have hjobs := h.jobs (hregular.of_grows (statement_grows a s.db c) fun _ => hbefore)
      rw [createdJobs, hsplit] at hjobs
      exact statement_jobsInv hnext hjobs hregular.1 hkept

/-! ## The main thread -/

theorem held_startMessages (assigned : List Assignment) :
    held messageJob (startMessages toText assigned) = (sentRuns toText assigned).map runJob := by
  have hmessage : ∀ a : Assignment, messageJob (a.worker.conn, startRunJson a.run) =
      some (runJob a.run) := by
    intro a
    simp [messageJob, requestParseStartRun_startRunJson, Except.toOption, runJob, runCreated,
      runNew]
  simp only [startMessages, sentRuns, held, List.filterMap_map, List.map_map]
  induction assigned.filter fun a => a.bytes = startRunFrame toText a.run with
  | nil => rfl
  | cons a assigned => simp [hmessage]

theorem sentRuns_append (assigned assigned' : List Assignment) :
    sentRuns toText (assigned ++ assigned') =
      sentRuns toText assigned ++ sentRuns toText assigned' := by
  simp [sentRuns, List.filter_append]

theorem main_inv {s : System} (h : Inv toText s) (ok : Bool) (env : AssignEnv) :
    ∃ s', s.main toText o ok env = some s' ∧ Inv toText s' := by
  obtain ⟨d, hstep, hconserved⟩ := step_conserved (o := o) h.conserved (.main ok env)
  obtain ⟨hdb, henqueued, assigned, hassigned⟩ := mainStep_frame hstep
  refine ⟨{ s with dispatch := d, toWorker := s.toWorker ++ startMessages toText assigned },
    by simp [System.main, hstep, hassigned], hconserved, fun job => ?_, h.procs, h.messages, ?_, ?_⟩
  · have hdelivered := h.delivered job
    simp only [hassigned, held_append, held_startMessages, sentRuns_append, List.map_append,
      List.count_append]
    omega
  · simpa only [System.db, hdb] using h.results
  · simpa only [Regular, System.db, hdb, createdJobs, henqueued] using h.jobs

theorem setStopping_inv {s : System} (h : Inv toText s) :
    ∃ s', s.step toText o .setStopping = some s' ∧ Inv toText s' := by
  obtain ⟨d, hstep, hconserved⟩ := step_conserved (o := o) h.conserved .setStopping
  obtain ⟨hdb, hassigned, henqueued⟩ := setStopping_frame hstep
  refine ⟨{ s with dispatch := d }, by simp [System.step, hstep], hconserved, ?_, h.procs,
    h.messages, ?_, ?_⟩
  · simpa only [hassigned] using h.delivered
  · simpa only [System.db, hdb] using h.results
  · simpa only [Regular, System.db, hdb, createdJobs, henqueued] using h.jobs

/-! ## Messages of workers -/

theorem jsonrpcRequestRecv_newWorker :
    jsonrpcRequestRecv (some newWorkerRequest.impl) = some newWorkerRequest := by
  have h := (jsonrpcRequestFromJson_requestMembers none cmdNewWorker).1
  simp [jsonrpcRequestRecv, newWorkerRequest, h, Except.toOption]

theorem jsonrpcRequestRecv_finishedRun (id : Int32) (output : ProcessOutput) :
    jsonrpcRequestRecv (some (finishedRunJson id output)) = some ⟨finishedRunJson id output⟩ := by
  have h := (jsonrpcRequestFromJson_requestJson none cmdFinishedRun
    [(finishedKeyRunId, .int id.toInt), (finishedKeyEc, .int output.ec.toInt),
      (finishedKeyData, .string (base64Encode output.data).bytes)]).1
  simp [jsonrpcRequestRecv, finishedRunJson, h, Except.toOption]

theorem cmdOf_newWorker (env : HandlerEnv) : cmdOf (serverCommands env) newWorkerRequest =
    some ⟨cmdNewWorker, serverHandleCmdNewWorker env⟩ := by
  have h := (jsonrpcRequestFromJson_requestMembers none cmdNewWorker).2.1
  simp only [cmdOf, newWorkerRequest, h, Option.bind_some]
  rfl

theorem cmdOf_finishedRun (env : HandlerEnv) (id : Int32) (output : ProcessOutput) :
    cmdOf (serverCommands env) ⟨finishedRunJson id output⟩ =
      some ⟨cmdFinishedRun, serverHandleCmdFinishedRun env⟩ := by
  have h := (jsonrpcRequestFromJson_requestJson none cmdFinishedRun
    [(finishedKeyRunId, .int id.toInt), (finishedKeyEc, .int output.ec.toInt),
      (finishedKeyData, .string (base64Encode output.data).bytes)]).2.1
  simp only [cmdOf, finishedRunJson, h, Option.bind_some]
  rfl

/-- **What serving a message of a worker does**: the runs and the database stay as they are, or a
result of a call is stored. -/
theorem workerMessage_served {calls : List CiCall} {message : Json}
    (h : WorkerMessage calls message) (env : HandlerEnv) (conn : Nat) (sendOk : Bool)
    (server : Server) :
    let after := (cmdDispatcherHandleConnInternal (serverCommands env) conn (some message) sendOk
      server).state
    after.runQueue = server.runQueue ∧ (after.db = server.db ∨
      ∃ call ∈ calls, ∃ output, call.result = some output ∧
        after.db = (storageSqliteRunFinished env.storage server.db call.id output).2) := by
  rcases h with rfl | ⟨call, hcall, output, hresult, rfl⟩
  · rw [served_state jsonrpcRequestRecv_newWorker (cmdOf_newWorker env)]
    obtain ⟨hdb, hqueue⟩ := serverHandleCmdNewWorker_frame env newWorkerRequest conn server
    exact ⟨hqueue, .inl hdb⟩
  · rw [served_state (jsonrpcRequestRecv_finishedRun call.id output)
      (cmdOf_finishedRun env call.id output)]
    simp only [serverHandleCmdFinishedRun, requestParseFinishedRun_finishedRunJson]
    exact ⟨trivial, .inr ⟨call, hcall, output, hresult, rfl⟩⟩

theorem runFinished_results {calls : List CiCall} {a : Attempt} {db : Db} {call : CiCall}
    {output : ProcessOutput} (hcall : call ∈ calls) (hresult : call.result = some output)
    (h : ∀ row ∈ db.runs, row.status = RunStatus.finished.code.toInt →
      ∃ call ∈ calls, HasResult row call) :
    ∀ row ∈ (storageSqliteRunFinished a db call.id output).2.runs,
      row.status = RunStatus.finished.code.toInt → ∃ call ∈ calls, HasResult row call := by
  simp only [storageSqliteRunFinished]
  cases a.fault with
  | some e => exact h
  | none =>
    intro row hrow hstatus
    obtain ⟨row', hrow', rfl⟩ := List.mem_map.1 hrow
    unfold RunRow.update at hstatus ⊢
    split at hstatus
    · rename_i hid
      rw [if_pos hid]
      exact ⟨call, hcall, hid.symm, output, hresult, rfl, rfl⟩
    · rename_i hid
      rw [if_neg hid]
      exact h row' hrow' hstatus

/-- A message is served: the runs stay as they are, and a result may be stored. -/
theorem Inv.served {s : System} (h : Inv toText s) (i : Nat) {a : Attempt} {server : Server}
    (main : MainThread) (hqueue : server.runQueue = s.dispatch.server.runQueue)
    (hdb : server.db = s.db ∨ ∃ call ∈ s.calls, ∃ output, call.result = some output ∧
      server.db = (storageSqliteRunFinished a s.db call.id output).2) :
    Inv toText { s with
      dispatch := { s.dispatch with server, main }
      toServer := s.toServer.eraseIdx i } := by
  refine ⟨?_, h.delivered, h.procs, fun m hm => h.messages m (List.mem_of_mem_eraseIdx hm), ?_, ?_⟩
  · simpa only [Conserved, hqueue] using h.conserved
  · show ∀ row ∈ server.db.runs, _
    rcases hdb with hdb | ⟨call, hcall, output, hresult, hdb⟩
    · rw [hdb]
      exact h.results
    · rw [hdb]
      exact runFinished_results hcall hresult h.results
  · show Bounded server.db ∧ s.rolledBack = false → JobsInv server.db s.creators (createdJobs s)
    rcases hdb with hdb | ⟨call, -, output, -, hdb⟩
    · rw [hdb]
      exact h.jobs
    · rw [hdb]
      intro hregular
      have hgrows := storageSqliteRunFinished_grows a s.db call.id output
      have hjobs := h.jobs ⟨hregular.1.of_grows hgrows, hregular.2⟩
      obtain ⟨hrepos, hruns⟩ := storageSqliteRunFinished_spec a s.db call.id output
      refine hjobs.grows hgrows (by rw [hrepos]; exact hjobs.repoIds) fun run' hrun' => ?_
      obtain ⟨run, hrun, hid⟩ := hruns run' hrun'
      rw [hid]
      exact hjobs.runIds run hrun

theorem serve_inv {s : System} (h : Inv toText s) (i : Nat) (env : HandlerEnv) (sendOk : Bool) :
    Inv toText (s.serve i env sendOk) := by
  unfold System.serve
  split
  · exact h
  · rename_i conn message hget
    split
    · exact h
    · have hmessage := h.messages (conn, message) (List.mem_of_getElem? hget)
      obtain ⟨hqueue, hdb⟩ := workerMessage_served hmessage env conn sendOk s.dispatch.server
      exact h.served i _ hqueue hdb

/-! ## Workers -/

/-- A worker changes, and the jobs it and the messages to workers hold with it. -/
theorem Inv.setProc {s : System} (h : Inv toText s) {i : Nat} {p : Proc}
    (hget : s.procs[i]? = some p) (p' : Proc) (toServer toWorker : List (Nat × Json))
    (calls : List CiCall) (hp' : ProcOk p')
    (hjobs : ∀ job, (held messageJob toWorker).count job + (procJob p').toList.count job +
        (calls.map callJob).count job ≤
      (held messageJob s.toWorker).count job + (procJob p).toList.count job)
    (hmessages : ∀ m ∈ toServer, m ∈ s.toServer ∨ WorkerMessage (s.calls ++ calls) m.2) :
    Inv toText { s with
      procs := s.procs.set i p'
      toServer
      toWorker
      calls := s.calls ++ calls } := by
  refine ⟨h.conserved, fun job => ?_, forall_mem_set h.procs i hp', fun m hm => ?_, ?_, h.jobs⟩
  · have hdelivered := h.delivered job
    have hset := count_held_set procJob hget p' job
    have := hjobs job
    simp only [List.map_append, List.count_append]
    omega
  · rcases hmessages m hm with hm | hm
    · rcases h.messages m hm with hm | ⟨call, hcall, hm⟩
      · exact .inl hm
      · exact .inr ⟨call, List.mem_append_left _ hcall, hm⟩
    · exact hm
  · intro row hrow hstatus
    obtain ⟨call, hcall, hrow⟩ := h.results row hrow hstatus
    exact ⟨call, List.mem_append_left _ hcall, hrow⟩

theorem procJob_of_phase {p : Proc} (h : p.phase ≠ .ready) : procJob p = none := if_neg h

theorem kill_inv {s : System} (h : Inv toText s) (i : Nat) : Inv toText (s.kill i) := by
  unfold System.kill
  split
  · rename_i state phase hget
    have hset := h.setProc hget ⟨state, .exited⟩ s.toServer s.toWorker [] trivial
      (fun job => by simp [procJob]) (fun m hm => .inl hm)
    simpa using hset
  · exact h

theorem newEvents_append {before after : Workers.Worker} (events : List Event)
    (h : after.events = before.events ++ events) : newEvents before after = events := by
  simp [newEvents, h]

theorem announce_inv {s : System} (h : Inv toText s) (i : Nat) (round : Round) :
    Inv toText (s.announce i round) := by
  unfold System.announce
  split
  · rename_i state hget
    -- what an announcement sends is an announcement
    have hsent : ∀ m ∈ s.toServer ++ [Event.sent newWorkerRequest].filterMap
        (sentMessage round.connect), m ∈ s.toServer ∨ WorkerMessage (s.calls ++ []) m.2 := by
      intro m hm
      refine (List.mem_append.1 hm).imp_right fun hm => .inl ?_
      simp only [List.filterMap_cons, List.filterMap_nil, sentMessage] at hm
      cases hconn : round.connect with
      | none => simp [hconn] at hm
      | some conn =>
        simp only [hconn, Option.map_some, List.mem_singleton] at hm
        rw [hm]
    obtain ⟨sig, hsig, hsigEntry⟩ := h.procs _ (List.mem_of_getElem? hget)
    rcases workerAnnounce_cases round state with
      ⟨ret, state', hannounce, -, -, hworker, -⟩ | ⟨conn, entry, loop', -, hannounce, hloop, hconn⟩
    · simp only [hannounce]
      rcases hworker with hworker | hworker
      · rw [newEvents_append [] (by simp [hworker])]
        simpa using h.setProc hget ⟨state', .exited⟩ s.toServer s.toWorker [] trivial
          (fun job => by simp [procJob]) fun m hm => .inl hm
      · rw [newEvents_append [.sent newWorkerRequest] (by simp [hworker, Worker.record])]
        simpa using h.setProc hget ⟨state', .exited⟩ _ s.toWorker [] trivial
          (fun job => by simp [procJob]) hsent
    · simp only [hannounce]
      rw [newEvents_append [.sent newWorkerRequest] rfl]
      simpa using h.setProc hget ⟨⟨loop', _⟩, .waiting conn⟩ _ s.toWorker []
        ⟨sig, entry, by rw [hloop, hsig]; rfl, hsigEntry, hconn⟩ (fun job => by simp [procJob])
        hsent
  · exact h

theorem onConn_spec {s : System} {conn j : Nat} {message : Option Nat} {m : Nat × Json}
    (h : s.onConn conn message = some (j, m)) : s.toWorker[j]? = some m := by
  obtain ⟨j', -, h⟩ := Option.bind_eq_some_iff.1 h
  obtain ⟨m', hm', h⟩ := Option.map_eq_some_iff.1 h
  cases h
  exact (Option.filter_eq_some_iff.1 hm').1

theorem jsonrpcRequestRecv_some {impl : Json} {request : JsonrpcRequest}
    (h : jsonrpcRequestRecv (some impl) = some request) : request = ⟨impl⟩ := by
  cases hjson : jsonrpcRequestFromJson impl with
  | error e => simp [jsonrpcRequestRecv, hjson, Except.toOption] at h
  | ok request' =>
    obtain rfl : request' = request := by simpa [jsonrpcRequestRecv, hjson, Except.toOption] using h
    exact (jsonrpcRequestFromJson_ok hjson).1

theorem await_inv {s : System} (h : Inv toText s) (i : Nat) (message : Option Nat)
    (round : Round) : ∃ s', s.await i message round = some s' ∧ Inv toText s' := by
  unfold System.await
  split
  · rename_i state conn hget
    split
    · exact ⟨s, rfl, h⟩
    · rename_i hreports
      obtain ⟨sig, entry, hentries, hsig, hconn⟩ := h.procs _ (List.mem_of_getElem? hget)
      obtain ⟨ret, state', hawait, haccept⟩ := workerAwait_cases
        { round with received := (s.onConn conn message).map fun m => m.2.2 } hentries hsig hconn
      simp only [hawait, Option.bind_eq_bind, Option.bind_some]
      refine ⟨_, rfl, ?_⟩
      -- the message is gone from those in flight
      have htaken : ∀ job, (held messageJob ((s.onConn conn message).elim s.toWorker fun m =>
          s.toWorker.eraseIdx m.1)).count job +
          (((s.onConn conn message).map fun m => m.2).bind messageJob).toList.count job =
          (held messageJob s.toWorker).count job := by
        intro job
        cases hmessage : s.onConn conn message with
        | none => simp
        | some m => exact count_held_eraseIdx messageJob (onConn_spec hmessage) job
      by_cases hend : (decide (ret < 0) || state'.worker.stopping) = true
      · rw [if_pos hend]
        simpa using h.setProc hget ⟨state', .exited⟩ s.toServer _ [] trivial
          (fun job => by have := htaken job; simp [procJob]; omega) fun m hm => .inl hm
      · rw [if_neg hend]
        simp only [Bool.or_eq_true, decide_eq_true_eq, not_or, Bool.not_eq_true] at hend
        have hreported : round.reports = true := by simpa using hreports
        obtain ⟨request, run, hrecv, hparse, hrun, hrest⟩ := haccept hreported hend.1 hend.2
        have hjob : ((s.onConn conn message).map fun m => m.2).bind messageJob =
            some (runJob run) := by
          cases hmessage : s.onConn conn message with
          | none => simp [hmessage, jsonrpcRequestRecv] at hrecv
          | some m =>
            rw [hmessage] at hrecv
            rw [jsonrpcRequestRecv_some hrecv] at hparse
            simp [messageJob, hparse, Except.toOption]
        have hset := h.setProc hget ⟨state', .ready⟩ s.toServer
          ((s.onConn conn message).elim s.toWorker fun m => s.toWorker.eraseIdx m.1) []
          ⟨hrest, by simp [hrun]⟩ (fun job => ?_) fun m hm => .inl hm
        · simpa using hset
        · have := htaken job
          simp only [hjob, Option.toList_some] at this
          simp only [procJob, hrun, if_true, Option.map_some, Option.toList_some, List.map_nil,
            List.count_nil]
          omega
  · exact ⟨s, rfl, h⟩

theorem execute_inv {s : System} (h : Inv toText s) (i : Nat) (round : Round) :
    ∃ s', s.execute i round = some s' ∧ Inv toText s' := by
  unfold System.execute
  split
  · rename_i state hget
    obtain ⟨⟨sig, hentries, hsig⟩, hsome⟩ : AtRest state ∧ state.worker.run.isSome = true :=
      h.procs _ (List.mem_of_getElem? hget)
    obtain ⟨run, hrun⟩ := Option.isSome_iff_exists.1 hsome
    obtain ⟨ret, worker, sent, hdo, -, hevents, hsent⟩ :=
      workerDoRun_cases round hrun
    simp only [hdo, Option.bind_eq_bind, Option.bind_some, newEvents_append _ hevents]
    refine ⟨_, rfl, ?_⟩
    have hcalls : (Event.ci run.repoUrl run.repoRev (ciRunGitRepo round.ci) :: sent).filterMap
        (ciCall state.worker.run) =
        [⟨run.id, run.repoUrl, run.repoRev, ciRunGitRepo round.ci⟩] := by
      rcases hsent with ⟨-, rfl, -⟩ | ⟨output, -, -, rfl⟩ <;> simp [ciCall, hrun]
    rw [hcalls]
    refine h.setProc hget _ _ _ _ ?_ (fun job => ?_) fun m hm => ?_
    · by_cases hret : ret < 0
      · simp only [ProcOk, hret, if_true]
      · simp only [ProcOk, hret, if_false]
        exact ⟨sig, hentries, hsig⟩
    · have hgone : procJob ⟨{ state with worker }, if ret < 0 then .exited else .idle⟩ = none :=
        procJob_of_phase (by split <;> simp)
      have hready : procJob ⟨state, .ready⟩ = some (runJob run) := by simp [procJob, hrun]
      rw [hgone, hready]
      simp [callJob, runJob]
    · refine (List.mem_append.1 hm).imp_right fun hm => ?_
      rcases hsent with ⟨-, rfl, -⟩ | ⟨output, hci, -, rfl⟩
      · simp [sentMessage] at hm
      · cases hconn : round.reconnect with
        | none => simp [sentMessage, hconn] at hm
        | some conn =>
          simp only [List.filterMap_cons, List.filterMap_nil, sentMessage, hconn, Option.map_some,
            List.mem_singleton] at hm
          rw [hm]
          exact .inr ⟨_, List.mem_append_right _ (List.mem_singleton_self _), output, hci, rfl⟩
  · exact ⟨s, rfl, h⟩

theorem spawn_inv {s : System} (h : Inv toText s) (signalfd : Nat) :
    Inv toText { s with procs := s.procs ++ [⟨workerCreate signalfd, .idle⟩] } := by
  refine ⟨h.conserved, fun job => ?_, fun p hp => ?_, h.messages, h.results, h.jobs⟩
  · simpa [procJob] using h.delivered job
  · rcases List.mem_append.1 hp with hp | hp
    · exact h.procs p hp
    · rw [List.mem_singleton.1 hp]
      exact workerCreate_atRest signalfd

theorem loseToWorker_inv {s : System} (h : Inv toText s) (i : Nat) :
    Inv toText { s with toWorker := s.toWorker.eraseIdx i } := by
  refine ⟨h.conserved, fun job => ?_, h.procs, h.messages, h.results, h.jobs⟩
  have hfewer : (held messageJob (s.toWorker.eraseIdx i)).count job ≤
      (held messageJob s.toWorker).count job :=
    ((List.eraseIdx_sublist s.toWorker i).filterMap messageJob).count_le job
  exact le_trans (Nat.add_le_add_right (Nat.add_le_add_right hfewer _) _) (h.delivered job)

/-! ## Runs -/

/-- **Every step is defined and keeps the invariant.** -/
theorem step_inv {s : System} (h : Inv toText s) (action : Systems.Action) :
    ∃ s', s.step toText o action = some s' ∧ Inv toText s' := by
  cases action with
  | queueRun message => exact ⟨_, rfl, queueRun_inv h message⟩
  | create i attempt lockOk => exact create_inv h i attempt lockOk
  | setStopping => exact setStopping_inv h
  | main ok env => exact main_inv h ok env
  | serve i env sendOk => exact ⟨_, rfl, serve_inv h i env sendOk⟩
  | loseToServer i =>
    exact ⟨_, rfl, h.conserved, h.delivered, h.procs,
      fun m hm => h.messages m (List.mem_of_mem_eraseIdx hm), h.results, h.jobs⟩
  | loseToWorker i => exact ⟨_, rfl, loseToWorker_inv h i⟩
  | spawn signalfd => exact ⟨_, rfl, spawn_inv h signalfd⟩
  | announce i round => exact ⟨_, rfl, announce_inv h i round⟩
  | await i message round => exact await_inv h i message round
  | execute i round => exact execute_inv h i round
  | kill i => exact ⟨_, rfl, kill_inv h i⟩

theorem run_inv (o : ByteOrder) (actions : List Systems.Action) :
    ∀ {s : System}, Inv toText s → ∃ s', s.run toText o actions = some s' ∧ Inv toText s' :=
  Runs.foldlM_some fun _ h action _ => step_inv h action

/-! ## Results -/

/-- **Results belong to their runs**: the result in a row is the result of a call that was made
for the run, with the URL and the revision stored in the row; and no run was executed twice. -/
structure ResultsBelong (s : System) : Prop where
  finished : ∀ row ∈ s.db.runs, row.status = RunStatus.finished.code.toInt →
    ∃ call ∈ s.calls, HasResult row call ∧ call.rev.bytes = row.repoRev ∧
      ∃ repo ∈ s.db.repos, repo.id = row.repoId ∧ repo.url = call.url.bytes
  once : ∀ id : Int32, s.calls.countP (fun call => call.id = id) ≤ 1

theorem Inv.sent_sublist {s : System} (h : Inv toText s) :
    ((sentRuns toText s.dispatch.assigned).map runJob).Sublist (createdJobs s) := by
  have hconserved : sentRuns toText s.dispatch.assigned ++ s.dispatch.server.runQueue =
      [] ++ s.dispatch.enqueued := h.conserved
  rw [List.nil_append] at hconserved
  rw [createdJobs, ← hconserved, List.map_append, List.append_assoc]
  exact List.sublist_append_left _ _

theorem Inv.resultsBelong {s : System} (h : Inv toText s) (hregular : Regular s) :
    ResultsBelong s := by
  have hjobs := h.jobs hregular
  have hcalls : ∀ job, (s.calls.map callJob).count job ≤ (createdJobs s).count job := by
    intro job
    have hdelivered := h.delivered job
    have hsent := h.sent_sublist.count_le job
    omega
  refine ⟨fun row hrow hstatus => ?_, fun id => ?_⟩
  · obtain ⟨call, hcall, hid, hresult⟩ := h.results row hrow hstatus
    have hcreated : callJob call ∈ createdJobs s := by
      have hpos := List.count_pos_iff.2 (List.mem_map_of_mem (f := callJob) hcall)
      exact List.count_pos_iff.1 (Nat.lt_of_lt_of_le hpos (hcalls _))
    obtain ⟨row', hrow', hid', hrev, repo, hrepo, hrepoId, hurl⟩ := hjobs.backed _ hcreated
    -- identifiers are keys: it is the same row
    have hsame : row' = row :=
      List.inj_on_of_nodup_map s.db.runIds hrow' hrow (hid'.trans hid)
    subst hsame
    exact ⟨call, hcall, ⟨hid, hresult⟩, hrev.symm, repo, hrepo, hrepoId, hurl⟩
  · have honce := countP_le_one hcalls hjobs.distinct id
    rwa [List.countP_map] at honce

/-- **Results belong to their runs.**  Whatever order clients, threads, workers and messages
move in, and whatever fails, every state is defined; and as long as the keys of the runs stay
below 2^31, those of the repositories do not exceed 2^32 and no row that is inserted is rolled
back, the result in a row is that of a call of `ci_run_git_repo` with the URL and the revision of
the row, and no run has been executed twice. -/
theorem results_belong (toText : Json → CStr) (o : ByteOrder) (actions : List Systems.Action) :
    ∃ s, System.initial.run toText o actions = some s ∧ (Regular s → ResultsBelong s) := by
  obtain ⟨s, hrun, h⟩ := run_inv o actions (initial_inv toText)
  exact ⟨s, hrun, h.resultsBelong⟩

/-! ## A run from beginning to end -/

/-- The text json-c prints for the one request the server sends below. -/
def sampleText (_ : Json) : CStr :=
  .ofAscii "\x7b \"jsonrpc\": \"2.0\", \"method\": \"start-run\", \"params\": \x7b \"id\": 1, \"url\": \"repo\", \"rev\": \"HEAD\" \x7d \x7d"

/-- A client queues a run of `repo` at `HEAD`, which gets the key 1. -/
def sampleRun : Run := runCreated 1 (.ofAscii "repo") (.ofAscii "HEAD")

def queueing (i : Nat) : List Systems.Action :=
  .queueRun (queueRunJson 0 sampleRun.repoUrl sampleRun.repoRev) :: createAll i calm

/-- The server after that. -/
def queued (db : Db) (creators : List Creator) : System :=
  ⟨⟨⟨false, [], [sampleRun], db, emptyServer.fds⟩, .start, [], [sampleRun]⟩, creators, [], [], [],
    [], false⟩

/-- A CI run that yields exit code 2 and one byte. -/
def sampleOutput : ProcessOutput := ⟨2, [65]⟩

def sampleRound : Round := startRound ⟨true, true, true, [(true, some sampleOutput)]⟩

/-- A worker is given the run. -/
def assigning : List Systems.Action :=
  [.spawn 3, .announce 0 sampleRound, .serve 0 calm true, .main true ⟨true, []⟩,
    .main true ⟨true, []⟩]

/-- It executes the run, and the result is stored. -/
def executing : List Systems.Action :=
  [.await 0 (some 0) sampleRound, .execute 0 sampleRound, .serve 0 calm true]

theorem sampleRound_turn : ∃ announced accepted done,
    workerAnnounce sampleRound (workerCreate 3) = (.ok 4, announced) ∧
      newEvents (workerCreate 3).worker announced.worker = [.sent newWorkerRequest] ∧
      workerAwait { sampleRound with received := some (startRunJson sampleRun) } announced =
        some (0, accepted) ∧ accepted.worker.stopping = false ∧
      accepted.worker.run = some sampleRun ∧
      workerDoRun sampleRound accepted.worker = some (0, done) ∧
      newEvents accepted.worker done = [.ci sampleRun.repoUrl sampleRun.repoRev (some sampleOutput),
        .sent ⟨finishedRunJson sampleRun.id sampleOutput⟩] :=
  ⟨_, _, _, rfl, rfl, rfl, rfl, rfl, rfl, rfl⟩

/-- A queued run is executed and its result stored, whatever else is in the database. -/
theorem queued_turn (toText : Json → CStr) (o : ByteOrder) (db : Db) (creators : List Creator) :
    ∃ s, (queued db creators).run toText o (assigning ++ executing) = some s ∧
      s.db = runUpdate db .finished 2 [65] 1 ∧
      s.calls = [⟨1, sampleRun.repoUrl, sampleRun.repoRev, some sampleOutput⟩] ∧
      s.rolledBack = false := by
  obtain ⟨announced, accepted, done, hannounce, hannounced, hawait, hstopping, hrun, hdo, hdone⟩ :=
    sampleRound_turn
  obtain ⟨fds, hopen⟩ : ∃ fds, Descriptors.openFd emptyServer.fds 5 = some fds := ⟨_, rfl⟩
  have hmutex : waitsForMutex newWorkerRequest.impl = true := rfl
  have hmutex' : waitsForMutex (finishedRunJson 1 sampleOutput) = false := rfl
  have hconnect : sampleRound.connect = some 4 := rfl
  have hreconnect : sampleRound.reconnect = some 4 := rfl
  have hreports : sampleRound.reports = true := rfl
  let assigned : System :=
    { queued db creators with
      dispatch := ⟨⟨false, [], [], db, Descriptors.close fds 5⟩, .locked,
        [⟨sampleRun, ⟨5, emptyServer.fds.next, 4⟩, startRunFrame toText sampleRun⟩], [sampleRun]⟩
      procs := [⟨announced, .waiting 4⟩]
      toWorker := [(4, startRunJson sampleRun)] }
  have hserved : (cmdDispatcherHandleConnInternal (serverCommands calm) 4
      (some newWorkerRequest.impl) true ⟨false, [], [sampleRun], db, emptyServer.fds⟩).state =
        ⟨false, [⟨5, emptyServer.fds.next, 4⟩], [sampleRun], db, fds⟩ := by
    rw [served_state jsonrpcRequestRecv_newWorker (cmdOf_newWorker calm)]
    simp [serverHandleCmdNewWorker, calm, hopen, serverEnqueueWorker, serverAddWorker]
  have hassigning : (queued db creators).run toText o assigning = some assigned := by
    simp [assigning, queued, assigned, System.run, System.step, System.announce, hannounce,
      hannounced, hconnect, sentMessage, System.serve, hmutex, Dispatch.mutexFree, hserved,
      serverNotify, System.main, Dispatching.step, Dispatch.mainStep, serverReadyForAction,
      runQueueIsEmpty, serverAssignRun, runQueueRemoveFirst, sendStartRun_ok, workerDestroy,
      startMessages]
  let accepting : System := { assigned with procs := [⟨accepted, .ready⟩], toWorker := [] }
  have haccepting : assigned.await 0 (some 0) sampleRound = some accepting := by
    have hget : assigned.procs[0]? = some ⟨announced, .waiting 4⟩ := rfl
    have hconn : assigned.onConn 4 (some 0) = some (0, 4, startRunJson sampleRun) := rfl
    simp only [System.await, hget, hreports, hconn, Option.map_some, hawait, Option.bind_eq_bind,
      Option.bind_some, hstopping]
    rfl
  let executed : System :=
    { accepting with
      procs := [⟨{ accepted with worker := done }, .idle⟩]
      toServer := [(4, finishedRunJson 1 sampleOutput)]
      calls := [⟨1, sampleRun.repoUrl, sampleRun.repoRev, some sampleOutput⟩] }
  have hexecuting : accepting.execute 0 sampleRound = some executed := by
    have hget : accepting.procs[0]? = some ⟨accepted, .ready⟩ := rfl
    simp only [System.execute, hget, hdo, hrun, hdone, hreconnect, Option.bind_eq_bind,
      Option.bind_some]
    rfl
  have hserved' : (cmdDispatcherHandleConnInternal (serverCommands calm) 4
      (some (finishedRunJson 1 sampleOutput)) true executed.dispatch.server).state =
        { executed.dispatch.server with db := runUpdate db .finished 2 [65] 1 } := by
    rw [served_state (jsonrpcRequestRecv_finishedRun 1 sampleOutput)
      (cmdOf_finishedRun calm 1 sampleOutput)]
    simp only [serverHandleCmdFinishedRun, requestParseFinishedRun_finishedRunJson]
    rfl
  have hstoring : (executed.serve 0 calm true).db = runUpdate db .finished 2 [65] 1 ∧
      (executed.serve 0 calm true).calls = executed.calls ∧
      (executed.serve 0 calm true).rolledBack = false := by
    have hget : executed.toServer[0]? = some (4, finishedRunJson 1 sampleOutput) := rfl
    simp only [System.serve, hget, hmutex', hserved']
    exact ⟨rfl, rfl, rfl⟩
  refine ⟨executed.serve 0 calm true, ?_, hstoring⟩
  rw [System.run_append, hassigning]
  simp [System.run, executing, System.step, haccepting, hexecuting]

/-- Nothing has been run yet, the repository of the run is new, and the key it will get is read as
the key 1. -/
structure NewRepo (key : Int) (s : System) : Prop where
  rest : s = { System.initial.setDb s.db with creators := s.creators }
  url : sampleRun.repoUrl.bytes ∉ s.db.repos.map RepoRow.url
  key_eq : newRowid none (s.db.repos.map RepoRow.id) = some key
  cut : columnInt key = 1
  one : 1 ∈ s.db.repos.map RepoRow.id ++ [key]
  runs : s.db.runs = []

/-- A run of a new repository is queued, if the key of the repository is read as 1. -/
theorem queueing_new (toText : Json → CStr) (o : ByteOrder) {s : System} {key : Int}
    (h : NewRepo key s) :
    ∃ db, s.run toText o (queueing s.creators.length) = some (queued db s.creators) ∧
      db.repos = s.db.repos ++ [⟨key, sampleRun.repoUrl.bytes⟩] ∧
      db.runs = [createdRow 1 1 sampleRun.repoRev] := by
  obtain ⟨hrest, hurl, hkey, hcut, hone, hruns⟩ := h
  obtain ⟨db₁, hinsert, hrepos₁, hruns₁⟩ := storageSqliteInsertRepoStmt_new hurl hkey
  have hfind : storageSqliteFindRepo noFault db₁ sampleRun.repoUrl = 1 := by
    have hnone : (s.db.repos.find? fun repo => repo.url = sampleRun.repoUrl.bytes) = none := by
      rw [List.find?_eq_none]
      intro repo hrepo heq
      exact hurl (List.mem_map.2 ⟨repo, hrepo, by simpa using heq⟩)
    simp [storageSqliteFindRepo, noFault, repoFind, hrepos₁, List.find?_append, hnone, hcut]
  have hone₁ : (1 : Int32).toInt ∈ db₁.repos.map RepoRow.id := by simpa [hrepos₁] using hone
  have hfirst : newRowid none (db₁.runs.map RunRow.id) = some 1 := by rw [hruns₁, hruns]; rfl
  obtain ⟨db₂, hrun, hrepos₂, hruns₂⟩ :=
    storageSqliteInsertRun_new sampleRun.repoRev hone₁ hfirst
  have hneg : ¬ (1 : Int32) < 0 := by decide
  have hcolumn : columnInt 1 = 1 := rfl
  have hfree : s.dispatch.mutexFree = true := by rw [hrest]; rfl
  have hqueue : s.queueRun (queueRunJson 0 sampleRun.repoUrl sampleRun.repoRev) =
      s.withThread s.db (some (.insertRepo (runQueued sampleRun.repoUrl sampleRun.repoRev))) := by
    rw [System.queueRun, queuedRun_queueRunJson]
    rfl
  refine ⟨db₂, ?_, by rw [hrepos₂, hrepos₁], by rw [hruns₂, hruns₁, hruns]; rfl⟩
  simp only [queueing, createAll, calm, System.run, List.foldlM_cons, List.foldlM_nil, System.step,
    Option.bind_eq_bind, Option.bind_some, hqueue]
  rw [create_statement s s.db (by simp) _ _ rfl, noting_kept rfl]
  simp only [Creator.statement, runQueued, runNew, hinsert, Option.bind_some]
  rw [if_neg (by decide), create_statement s db₁ (by simp) _ _ rfl, noting_kept rfl]
  simp only [Creator.statement, hfind, hneg, if_false, Option.bind_some]
  rw [create_statement s db₁ (by simp) _ _ rfl, noting_kept rfl]
  simp only [Creator.statement, hrun, hcolumn, hneg, if_false, Option.bind_some]
  rw [create_enqueue hfree _ _ _ _ rfl]
  exact congrArg (fun s => some (System.withRun s db₂ sampleRun)) hrest

theorem one_run (toText : Json → CStr) (o : ByteOrder) {s : System} {key : Int}
    (h : NewRepo key s) :
    ∃ s', s.run toText o (queueing s.creators.length ++ (assigning ++ executing)) = some s' ∧
      s'.db.repos = s.db.repos ++ [⟨key, sampleRun.repoUrl.bytes⟩] ∧
      s'.db.runs =
        [⟨1, RunStatus.finished.code.toInt, 2, [65], 1, sampleRun.repoRev.bytes⟩] ∧
      s'.calls = [⟨1, sampleRun.repoUrl, sampleRun.repoRev, some sampleOutput⟩] ∧
      s'.rolledBack = false := by
  obtain ⟨db, hqueueing, hrepos, hrunsDb⟩ := queueing_new toText o h
  obtain ⟨s', hturn, hdb, hcalls, hkept⟩ := queued_turn toText o db s.creators
  refine ⟨s', ?_, by rw [hdb]; exact hrepos, ?_, hcalls, hkept⟩
  · rw [System.run_append, hqueueing]
    exact hturn
  · rw [hdb]
    simp only [runUpdate, hrunsDb]
    rfl

theorem initial_newRepo : NewRepo 1 System.initial :=
  ⟨rfl, List.not_mem_nil, show newRowid none [] = some 1 from rfl, rfl, by simp, rfl⟩

theorem first_run (toText : Json → CStr) (o : ByteOrder) :
    ∃ s, System.initial.run toText o (queueing 0 ++ (assigning ++ executing)) = some s ∧
      s.db.runs = [⟨1, RunStatus.finished.code.toInt, 2, [65], 1, sampleRun.repoRev.bytes⟩] ∧
      Regular s := by
  obtain ⟨s, hrun, hrepos, hruns, -, hkept⟩ := one_run toText o initial_newRepo
  refine ⟨s, hrun, hruns, ⟨?_, ?_⟩, hkept⟩
  · simp [hruns]
  · rw [hrepos, show System.initial.db.repos = [] from rfl]
    simp

/-- A run of `repo` that is queued, executed and stored. -/
theorem results_belong_one_run :
    ∃ s, System.initial.run sampleText .little (queueing 0 ++ (assigning ++ executing)) = some s ∧
      s.db.runs = [⟨1, RunStatus.finished.code.toInt, 2, [65], 1, sampleRun.repoRev.bytes⟩] ∧
      ResultsBelong s := by
  obtain ⟨s, hrun, hresults⟩ := results_belong sampleText .little
    (queueing 0 ++ (assigning ++ executing))
  obtain ⟨s', hrun', hruns, hregular⟩ := first_run sampleText .little
  obtain rfl : s = s' := Option.some.inj (hrun.symm.trans hrun')
  exact ⟨s, hrun, hruns, hresults hregular⟩

/-! ## A repository whose key is no `int` -/

/-- As many different URLs as an `int` has values, all of eight characters. -/
def urlNo (k : Nat) : CStr := base64Encode (be32 (UInt32.ofNat k))

theorem urlNo_length (k : Nat) : (urlNo k).bytes.length = 8 := by
  show (Base64.encode _).length = 8
  rw [Base64.encode_length, be32_length]

theorem urlNo_inj {j k : Nat} (hj : j < 4294967296) (hk : k < 4294967296)
    (h : (urlNo j).bytes = (urlNo k).bytes) : j = k := by
  have hdecode := base64Decode_base64Encode (be32 (UInt32.ofNat j))
  rw [show base64Encode (be32 (UInt32.ofNat j)) = base64Encode (be32 (UInt32.ofNat k)) from
    CStr.eq_iff.2 h, base64Decode_base64Encode, Except.ok.injEq] at hdecode
  have hword := congrArg (fun m => (ofBe32 m).toNat) hdecode
  simp only [ofBe32_be32, UInt32.toNat_ofNat'] at hword
  omega

/-- Clients have asked for the first `n` URLs, and their threads have come no further than to
insert the repositories. -/
structure Pending (n : Nat) (s : System) : Prop where
  rest : s = { System.initial.setDb s.db with creators := s.creators }
  creators : s.creators.length = n
  repos : s.db.repos = (List.range n).map fun k => ⟨k + 1, (urlNo k).bytes⟩
  runs : s.db.runs = []

theorem Pending.newRowid {n : Nat} {s : System} (h : Pending n s) (hn : n ≤ 4294967296) :
    newRowid none (s.db.repos.map RepoRow.id) = some (n + 1) := by
  rw [h.repos]
  cases n with
  | zero => rfl
  | succ n =>
    have hlast : (n : Int) + 1 < 9223372036854775807 := by omega
    refine newRowid_max ?_ ?_ hlast
    · simp only [List.map_map, List.mem_map, List.mem_range]
      exact ⟨n, by omega, by simp⟩
    · simp only [List.map_map, List.mem_map, List.mem_range]
      rintro _ ⟨k, hk, rfl⟩
      simp only [Function.comp_apply]
      omega

/-- One more client. -/
theorem Pending.succ {n : Nat} {s : System} (toText : Json → CStr) (o : ByteOrder)
    (h : Pending n s) (hn : n < 4294967296) :
    ∃ s', s.run toText o [.queueRun (queueRunJson 0 (urlNo n) sampleRun.repoRev),
      .create n noFault true] = some s' ∧ Pending (n + 1) s' := by
  have hurl : (urlNo n).bytes ∉ s.db.repos.map RepoRow.url := by
    rw [h.repos]
    simp only [List.map_map, List.mem_map, List.mem_range]
    rintro ⟨k, hk, heq⟩
    exact absurd (urlNo_inj (by omega) hn heq) (by omega)
  obtain ⟨db, hinsert, hrepos, hruns⟩ :=
    storageSqliteInsertRepoStmt_new hurl (h.newRowid (Nat.le_of_lt hn))
  have hqueue : s.queueRun (queueRunJson 0 (urlNo n) sampleRun.repoRev) =
      s.withThread s.db (some (.insertRepo (runQueued (urlNo n) sampleRun.repoRev))) := by
    rw [System.queueRun, queuedRun_queueRunJson]
    rfl
  have hcreate : (s.withThread s.db (some (.insertRepo (runQueued (urlNo n)
      sampleRun.repoRev)))).create toText o n noFault true = _ :=
    create_statement s s.db (by simp) noFault true h.creators.symm
  rw [noting_kept rfl] at hcreate
  refine ⟨s.withThread db (some (.findRepo (runQueued (urlNo n) sampleRun.repoRev))), ?_, ?_⟩
  · simp only [System.run, List.foldlM_cons, List.foldlM_nil, System.step, Option.bind_eq_bind,
      Option.bind_some, hqueue, hcreate]
    simp only [Creator.statement, runQueued, runNew, hinsert]
    rfl
  · refine ⟨?_, ?_, ?_, ?_⟩
    · exact congrArg (fun s' => System.withThread s' db _) h.rest
    · simp [System.withThread, h.creators]
    · show db.repos = _
      rw [hrepos, h.repos, List.range_succ, List.map_append]
      rfl
    · show db.runs = []
      rw [hruns, h.runs]

theorem exists_pending (toText : Json → CStr) (o : ByteOrder) (n : Nat) (hn : n ≤ 4294967296) :
    ∃ actions s, System.initial.run toText o actions = some s ∧ Pending n s := by
  induction n with
  | zero => exact ⟨[], System.initial, rfl, rfl, rfl, rfl, rfl⟩
  | succ n ih =>
    obtain ⟨actions, s, hrun, h⟩ := ih (by omega)
    obtain ⟨s', hstep, h'⟩ := h.succ toText o (by omega)
    exact ⟨_, s', by rw [System.run_append, hrun]; exact hstep, h'⟩

/-- The 2^32 threads before it have made the key of `repo` 2^32 + 1, which is read as the key of
the first repository: the result of `repo` is in a row of that repository, though no row has been
rolled back. -/
theorem results_mixed_up :
    ∃ actions s, System.initial.run sampleText .little actions = some s ∧
      (∀ run ∈ s.db.runs, run.id < 2147483648) ∧ s.rolledBack = false ∧ ¬ ResultsBelong s := by
  obtain ⟨actions, s, hrun, h⟩ := exists_pending sampleText .little 4294967296 (Nat.le_refl _)
  have hurl : sampleRun.repoUrl.bytes ∉ s.db.repos.map RepoRow.url := by
    rw [h.repos]
    simp only [List.map_map, List.mem_map, List.mem_range]
    rintro ⟨k, -, heq⟩
    have hlength := urlNo_length k
    rw [show (urlNo k).bytes = sampleRun.repoUrl.bytes from heq] at hlength
    exact absurd hlength (by decide)
  have hone : (⟨1, (urlNo 0).bytes⟩ : RepoRow) ∈ s.db.repos := by
    rw [h.repos]
    exact List.mem_map.2 ⟨0, List.mem_range.2 (by omega), rfl⟩
  have hnew : NewRepo _ s :=
    ⟨h.rest, hurl, h.newRowid (Nat.le_refl _), by decide,
      List.mem_append_left _ (List.mem_map_of_mem hone), h.runs⟩
  obtain ⟨s', hturn, hrepos, hruns, hcalls, hkept⟩ := one_run sampleText .little hnew
  refine ⟨_, s', by rw [System.run_append, hrun]; exact hturn, by simp [hruns], hkept,
    fun hresults => ?_⟩
  obtain ⟨call, hcall, -, -, repo, hrepo, hid, hrepoUrl⟩ :=
    hresults.finished _ (by rw [hruns]; exact List.mem_singleton_self _) rfl
  rw [hcalls, List.mem_singleton] at hcall
  have hfirst : (⟨1, (urlNo 0).bytes⟩ : RepoRow) ∈ s'.db.repos := by
    rw [hrepos]
    exact List.mem_append_left _ hone
  -- there is one repository with the key 1, and its URL is another
  have hsame : repo = ⟨1, (urlNo 0).bytes⟩ :=
    List.inj_on_of_nodup_map s'.db.repoIds hrepo hfirst hid
  rw [hsame, hcall] at hrepoUrl
  have hlength := urlNo_length 0
  rw [show (urlNo 0).bytes = sampleRun.repoUrl.bytes from hrepoUrl] at hlength
  exact absurd hlength (by decide)

end Cimple.Results
