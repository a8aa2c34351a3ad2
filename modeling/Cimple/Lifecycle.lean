import Cimple.Construction

/-!
# Creating and destroying the server (`server_create`, `server_destroy`)

Everything that `server_create` acquires is in one ledger, with the ledgers of the dispatcher, of
the storage and of the sockets in it.  What is on the queues of a server, and the entries of its
event loop, belong to them and are left out.

* `serverCreate` — with its ladder of labels; `serverDestroy`.
* `serverSteps` — the same as a list of steps.
* `Succeeds`, `DispatcherLeaks`, `StorageLeaks` — what happens to a `server_create`.

Principal results: `serverCreate_build` (the labels undo the steps, the latest first),
`server_create_clean_iff` and `server_lifetime`.
-/

set_option autoImplicit false

namespace Cimple.Lifecycle

open Ledger Unwinding Cimple.Construction
open Cimple.CommandTable (CmdDispatcher cmdDispatcherCreate cmdDispatcherDestroy)
open Cimple.Startup (Fault storageSqliteCreate storageSqliteDestroy)
open Cimple.Sockets (BindEnv netBind failure)

/-! ## The source -/

/-- What `server_create` acquires. -/
inductive Res where
  /-- The `struct server`. -/
  | memory
  | mutex
  | cond
  | dispatcher (b : CommandTable.Block)
  | eventLoop
  | signalfd
  | workerQueue
  /-- The settings of the storage, and the path in them. -/
  | settings
  | path
  | storage (r : Startup.Res)
  /-- `server->storage.sqlite`, from when it is set. -/
  | storagePtr
  | runQueue
  | tcpServer
  | net (r : Sockets.Res)
  | mainThread
  deriving DecidableEq

/-- What a function returns, and what it acquires, uses and releases. -/
structure Ran where
  ret : Int32
  events : List (Event Res)

/-- The outcomes of `tcp_server_create`. -/
structure TcpEnv where
  callocOk : Bool
  bind : BindEnv
  addOk : Bool

/-- What the outside world does to one `server_create`.  `queueLock` is how locking and binding
the statement for the queue ends, and `queueRows` how reading its rows does. -/
structure ServerEnv where
  mallocOk : Bool
  mutex : Fault
  cond : Fault
  handlers : Servers.HandlerEnv
  dispatcher : CommandTable.CreateEnv Servers.Server
  loopOk : Bool
  signalfd : Fault
  addOk : Bool
  settingsOk : Bool
  pathOk : Bool
  storage : Startup.Env
  queueLock : Fault
  queueRows : Fault
  tcp : TcpEnv
  mainThread : Fault

/-- `storage_sqlite_settings_create`. -/
def storageSqliteSettingsCreate (env : ServerEnv) : Ran :=
  if !env.settingsOk then ⟨-1, []⟩
  else if !env.pathOk then ⟨-1, [.acquire .settings, .release .settings]⟩
  else ⟨0, [.acquire .settings, .acquire .path]⟩

/-- `storage_settings_destroy`. -/
def storageSettingsDestroy : List (Event Res) := [.release .path, .release .settings]

/-- `storage_create`, which reads or sets the pointer in the server. -/
def storageCreate (env : Startup.Env) : Ran :=
  let created := storageSqliteCreate env
  ⟨created.ret, created.events.map (Event.map .storage) ++
    (if created.readsCaller then [.use .storagePtr] else []) ++
    if created.assigned then [.acquire .storagePtr] else []⟩

/-- `storage_destroy`, for a storage with the handle `handle`. -/
def storageDestroy (handle : Nat) : List (Event Res) :=
  .use .storagePtr :: (storageSqliteDestroy handle).map (Event.map .storage) ++
    [.release .storagePtr]

/-- `storage_get_run_queue`. -/
def storageGetRunQueue (env : ServerEnv) : Ran :=
  match env.queueLock with
  | some e => ⟨e.1, []⟩
  | none =>
    match env.queueRows with
    | some e => ⟨e.1, [.acquire .runQueue, .release .runQueue]⟩
    | none => ⟨0, [.acquire .runQueue]⟩

/-- What `tcp_server_create` returns, a negative value or the position of the address that it
listens at; and what it acquires, uses and releases. -/
structure TcpCreated where
  ret : Except { e : Int32 // e < 0 } Nat
  events : List (Event Res)

/-- `net_close` of the listening socket. -/
def netClose (acceptFd : Nat) : Event Res := .release (.net (.socket acceptFd))

/-- `tcp_server_create`. -/
def tcpServerCreate (env : TcpEnv) : TcpCreated :=
  if !env.callocOk then ⟨.error failure, []⟩
  else
    let bound := netBind env.bind
    let events := .acquire .tcpServer :: bound.events.map (Event.map .net)
    match bound.ret with
    | .error e => ⟨.error e, events ++ [.release .tcpServer]⟩
    | .ok (acceptFd, _) =>
      if !env.addOk then ⟨.error failure, events ++ [netClose acceptFd, .release .tcpServer]⟩
      else ⟨.ok acceptFd, events⟩

/-- `tcp_server_destroy`: until the threads of the clients have been joined, they use what is in
`clientUses`. -/
def tcpServerDestroy (acceptFd : Nat) (clientUses : List Res) : List (Event Res) :=
  netClose acceptFd :: clientUses.map .use ++ [.release .tcpServer]

/-- `struct server`. -/
structure Server where
  cmdDispatcher : CmdDispatcher Servers.Server
  handle : Nat
  acceptFd : Nat

/-- The label `free`. -/
def freeLabel : List (Event Res) := [.release .memory]

/-- The label `destroy_mtx`, and those after it. -/
def destroyMtx : List (Event Res) := .release .mutex :: freeLabel

/-- The label `destroy_cv`. -/
def destroyCv : List (Event Res) := .release .cond :: destroyMtx

/-- The label `destroy_cmd_dispatcher`. -/
def destroyCmdDispatcher (cmdDispatcher : CmdDispatcher Servers.Server) : List (Event Res) :=
  (cmdDispatcherDestroy cmdDispatcher).map (Event.map .dispatcher) ++ destroyCv

/-- The label `destroy_event_loop`. -/
def destroyEventLoop (cmdDispatcher : CmdDispatcher Servers.Server) : List (Event Res) :=
  .release .eventLoop :: destroyCmdDispatcher cmdDispatcher

/-- The label `close_signalfd`. -/
def closeSignalfd (cmdDispatcher : CmdDispatcher Servers.Server) : List (Event Res) :=
  .release .signalfd :: destroyEventLoop cmdDispatcher

/-- The label `destroy_worker_queue`. -/
def destroyWorkerQueue (cmdDispatcher : CmdDispatcher Servers.Server) : List (Event Res) :=
  .release .workerQueue :: closeSignalfd cmdDispatcher

/-- The label `destroy_storage`. -/
def destroyStorage (cmdDispatcher : CmdDispatcher Servers.Server) (handle : Nat) :
    List (Event Res) :=
  storageDestroy handle ++ destroyWorkerQueue cmdDispatcher

/-- The label `destroy_run_queue`. -/
def destroyRunQueue (cmdDispatcher : CmdDispatcher Servers.Server) (handle : Nat) :
    List (Event Res) :=
  .release .runQueue :: destroyStorage cmdDispatcher handle

/-- The label `destroy_tcp_server`: there are no clients yet. -/
def destroyTcpServer (server : Server) : List (Event Res) :=
  tcpServerDestroy server.acceptFd [] ++ destroyRunQueue server.cmdDispatcher server.handle

/-- `server_create` from `tcp_server_create` on. -/
def serverCreateThreads (env : ServerEnv) (cmdDispatcher : CmdDispatcher Servers.Server)
    (handle : Nat) (events : List (Event Res)) : Created Int32 Res Server :=
  let tcp := tcpServerCreate env.tcp
  let events := events ++ tcp.events
  match tcp.ret with
  | .error e => ⟨e.1, events ++ destroyRunQueue cmdDispatcher handle, none⟩
  | .ok acceptFd =>
    let server := ⟨cmdDispatcher, handle, acceptFd⟩
    match env.mainThread with
    | some e => ⟨e.1, events ++ destroyTcpServer server, none⟩
    | none => ⟨0, events ++ [.acquire .mainThread], some server⟩

/-- `server_create` from `worker_queue_create` on; it is undefined to go on with a storage that has
no handle. -/
def serverCreateStorage (env : ServerEnv) (cmdDispatcher : CmdDispatcher Servers.Server)
    (events : List (Event Res)) : Option (Created Int32 Res Server) :=
  let events := events ++ [.acquire .workerQueue]
  let settings := storageSqliteSettingsCreate env
  let events := events ++ settings.events
  if settings.ret < 0 then some ⟨settings.ret, events ++ destroyWorkerQueue cmdDispatcher, none⟩
  else
    let storage := storageCreate env.storage
    let events := events ++ storage.events ++ storageSettingsDestroy
    if storage.ret < 0 then some ⟨storage.ret, events ++ destroyWorkerQueue cmdDispatcher, none⟩
    else do
      let handle ← env.storage.opened.handle
      let queue := storageGetRunQueue env
      let events := events ++ queue.events
      if queue.ret < 0 then
        some ⟨queue.ret, events ++ destroyStorage cmdDispatcher handle, none⟩
      else some (serverCreateThreads env cmdDispatcher handle events)

/-- `server_create` from `event_loop_create` on. -/
def serverCreateLoop (env : ServerEnv) (cmdDispatcher : CmdDispatcher Servers.Server)
    (events : List (Event Res)) : Option (Created Int32 Res Server) :=
  if !env.loopOk then some ⟨-1, events ++ destroyCmdDispatcher cmdDispatcher, none⟩
  else
    let events := events ++ [.acquire .eventLoop]
    match env.signalfd with
    | some e => some ⟨e.1, events ++ destroyEventLoop cmdDispatcher, none⟩
    | none =>
      let events := events ++ [.acquire .signalfd]
      if !env.addOk then some ⟨-1, events ++ closeSignalfd cmdDispatcher, none⟩
      else serverCreateStorage env cmdDispatcher events

/-- `server_create`; it is undefined to go on without a dispatcher. -/
def serverCreate (env : ServerEnv) : Option (Created Int32 Res Server) :=
  if !env.mallocOk then some ⟨-1, [], none⟩
  else
    let events := [.acquire .memory]
    match env.mutex with
    | some e => some ⟨e.1, events ++ freeLabel, none⟩
    | none =>
      let events := events ++ [.acquire .mutex]
      match env.cond with
      | some e => some ⟨e.1, events ++ destroyMtx, none⟩
      | none => do
        let events := events ++ [.acquire .cond]
        let created ← cmdDispatcherCreate env.dispatcher (Servers.serverCommands env.handlers)
        let events := events ++ created.events.map (Event.map .dispatcher)
        if created.ret < 0 then some ⟨created.ret, events ++ destroyCv, none⟩
        else do
          let cmdDispatcher ← created.dispatcher
          serverCreateLoop env cmdDispatcher events

/-- `server_destroy`: until they have been joined, the main thread uses what is in `mainUses`, and
the threads of the clients what is in `clientUses`. -/
def serverDestroy (server : Server) (mainUses clientUses : List Res) : List (Event Res) :=
  mainUses.map .use ++ .release .mainThread ::
    tcpServerDestroy server.acceptFd clientUses ++ storageDestroy server.handle ++
    [.release .runQueue, .release .workerQueue, .release .signalfd, .release .eventLoop] ++
    (cmdDispatcherDestroy server.cmdDispatcher).map (Event.map .dispatcher) ++
    [.release .cond, .release .mutex, .release .memory]

/-! ## As steps -/

/-- The parts of a server, in the order in which they are made. -/
inductive Part where
  | memory
  | mutex
  | cond
  | dispatcher
  | eventLoop
  | signalfd
  | entry
  | workerQueue
  | storage
  | runQueue
  | tcpServer
  | mainThread
  deriving DecidableEq

/-- The part that a resource belongs to. -/
def Res.part : Res → Part
  | .memory => .memory
  | .mutex => .mutex
  | .cond => .cond
  | .dispatcher _ => .dispatcher
  | .eventLoop => .eventLoop
  | .signalfd => .signalfd
  | .workerQueue => .workerQueue
  | .settings | .path | .storage _ | .storagePtr => .storage
  | .runQueue => .runQueue
  | .tcpServer | .net _ => .tcpServer
  | .mainThread => .mainThread

/-- A part of a server. -/
abbrev ServerStep := Step { e : Int32 // e < 0 } Part Res

/-- The dispatcher. -/
def dispatcherStep (env : ServerEnv) : ServerStep :=
  copyStep .dispatcher .dispatcher env.dispatcher (Servers.serverCommands env.handlers)

/-- The settings of the storage, and the storage that is made with them. -/
def storageMade (env : ServerEnv) : Ran :=
  let settings := storageSqliteSettingsCreate env
  if settings.ret < 0 then settings
  else
    let storage := storageCreate env.storage
    ⟨storage.ret, settings.events ++ storage.events ++ storageSettingsDestroy⟩

/-- The storage. -/
def storageStep (env : ServerEnv) : ServerStep :=
  ⟨.storage, faultOf (storageMade env).ret, (storageMade env).events,
    env.storage.opened.handle.toList.flatMap storageDestroy⟩

/-- The queue of runs. -/
def runQueueStep (env : ServerEnv) : ServerStep :=
  ⟨.runQueue, faultOf (storageGetRunQueue env).ret, (storageGetRunQueue env).events,
    [.release .runQueue]⟩

/-- The TCP server. -/
def tcpStep (env : ServerEnv) : ServerStep :=
  match (tcpServerCreate env.tcp).ret with
  | .error e => ⟨.tcpServer, some e, (tcpServerCreate env.tcp).events, []⟩
  | .ok acceptFd =>
    ⟨.tcpServer, none, (tcpServerCreate env.tcp).events, tcpServerDestroy acceptFd []⟩

/-- The steps of `server_create` up to the dispatcher. -/
def firstSteps (env : ServerEnv) : List ServerStep :=
  [single .memory (faultUnless env.mallocOk) .memory, single .mutex env.mutex .mutex,
    single .cond env.cond .cond, dispatcherStep env]

/-- The steps that watch for signals. -/
def loopSteps (env : ServerEnv) : List ServerStep :=
  [single .eventLoop (faultUnless env.loopOk) .eventLoop,
    single .signalfd env.signalfd .signalfd, ⟨.entry, faultUnless env.addOk, [], []⟩]

/-- The steps of the storage, and of the queues. -/
def storageSteps (env : ServerEnv) : List ServerStep :=
  [single .workerQueue none .workerQueue, storageStep env, runQueueStep env]

/-- The steps that start other threads. -/
def threadSteps (env : ServerEnv) : List ServerStep :=
  [tcpStep env, single .mainThread env.mainThread .mainThread]

/-- The steps of `server_create`. -/
def serverSteps (env : ServerEnv) : List ServerStep :=
  firstSteps env ++ (loopSteps env ++ (storageSteps env ++ threadSteps env))

theorem serverCreateThreads_climbs (env : ServerEnv) {cmdDispatcher : CmdDispatcher Servers.Server}
    {handle : Nat} {done : List ServerStep} {events : List (Event Res)}
    (hdone : done.flatMap Step.unmade = destroyRunQueue cmdDispatcher handle) :
    Climbs Fault.ret done (threadSteps env) events
      (fun server => server.cmdDispatcher = cmdDispatcher ∧ server.handle = handle ∧
        (tcpServerCreate env.tcp).ret = .ok server.acceptFd)
      (serverCreateThreads env cmdDispatcher handle events) := by
  unfold serverCreateThreads threadSteps
  rcases htcp : tcpServerCreate env.tcp with ⟨e | acceptFd, tcp⟩
  · have hstep : tcpStep env = ⟨.tcpServer, some e, tcp, []⟩ := by
      simp only [tcpStep, htcp]
    rw [hstep]
    exact Climbs.stop rfl hdone
  · have hstep : tcpStep env = ⟨.tcpServer, none, tcp, tcpServerDestroy acceptFd []⟩ := by
      simp only [tcpStep, htcp]
    rw [hstep]
    apply Climbs.next rfl
    cases hthread : env.mainThread with
    | some e => exact stop_nothing e.2 rfl rfl (label_next hdone rfl)
    | none => exact Climbs.next rfl (Climbs.top ⟨rfl, rfl, rfl⟩)

/-- What `server_create` makes: its dispatcher, its storage and its TCP server are those that were
created. -/
structure Makes (env : ServerEnv) (server : Server) : Prop where
  dispatcher : ∃ events, cmdDispatcherCreate env.dispatcher (Servers.serverCommands env.handlers) =
    some ⟨0, some server.cmdDispatcher, events⟩
  handle : env.storage.opened.handle = some server.handle
  acceptFd : (tcpServerCreate env.tcp).ret = .ok server.acceptFd

/-- The storage, and the queues. -/
theorem serverCreateStorage_climbs (env : ServerEnv) {cmdDispatcher : CmdDispatcher Servers.Server}
    {done : List ServerStep} {events : List (Event Res)}
    (hdone : done.flatMap Step.unmade = closeSignalfd cmdDispatcher)
    (hhandle : ¬ (storageSqliteCreate env.storage).ret < 0 →
      ∃ handle, env.storage.opened.handle = some handle) :
    ∃ created, serverCreateStorage env cmdDispatcher events = some created ∧
      Climbs Fault.ret done (storageSteps env ++ threadSteps env) events
        (fun server => server.cmdDispatcher = cmdDispatcher ∧
          env.storage.opened.handle = some server.handle ∧
          (tcpServerCreate env.tcp).ret = .ok server.acceptFd) created := by
  unfold serverCreateStorage
  have hqueue : (single .workerQueue none .workerQueue :: done).flatMap Step.unmade =
      destroyWorkerQueue cmdDispatcher := label_next hdone rfl
  by_cases hsettings : (storageSqliteSettingsCreate env).ret < 0
  · have hmade : storageMade env = storageSqliteSettingsCreate env := if_pos hsettings
    refine ⟨_, if_pos hsettings, Climbs.next rfl ?_⟩
    refine stop_ret hsettings ?_ ?_ hqueue
    · rw [← hmade]
      rfl
    · rw [← hmade]
      rfl
  · have hmade : storageMade env = ⟨(storageCreate env.storage).ret,
        (storageSqliteSettingsCreate env).events ++ (storageCreate env.storage).events ++
          storageSettingsDestroy⟩ := if_neg hsettings
    have hfault : (storageStep env).fault = faultOf (storageCreate env.storage).ret := by
      rw [storageStep, hmade]
    have hevents : (storageStep env).made = (storageSqliteSettingsCreate env).events ++
        (storageCreate env.storage).events ++ storageSettingsDestroy := by
      rw [storageStep, hmade]
    simp only [if_neg hsettings]
    have happend : events ++ [.acquire .workerQueue] ++ (storageSqliteSettingsCreate env).events ++
        (storageCreate env.storage).events ++ storageSettingsDestroy =
        events ++ [.acquire .workerQueue] ++ ((storageSqliteSettingsCreate env).events ++
        (storageCreate env.storage).events ++ storageSettingsDestroy) := by
      simp only [List.append_assoc]
    rw [happend]
    by_cases hstorage : (storageCreate env.storage).ret < 0
    · refine ⟨_, if_pos hstorage, Climbs.next rfl ?_⟩
      exact stop_ret hstorage hfault hevents hqueue
    · obtain ⟨handle, hopened⟩ := hhandle hstorage
      have hlabel : (storageStep env :: single .workerQueue none .workerQueue :: done).flatMap
          Step.unmade = destroyStorage cmdDispatcher handle := by
        apply label_next hqueue
        rw [storageStep, hopened]
        simp [destroyStorage]
      simp only [if_neg hstorage, hopened, Option.bind_eq_bind, Option.bind_some]
      by_cases hrows : (storageGetRunQueue env).ret < 0
      · refine ⟨_, if_pos hrows, Climbs.next rfl (next_ret hstorage hfault hevents ?_)⟩
        exact stop_ret hrows rfl rfl hlabel
      · refine ⟨_, if_neg hrows, Climbs.next rfl (next_ret hstorage hfault hevents ?_)⟩
        refine next_ret hrows rfl rfl ?_
        apply (serverCreateThreads_climbs env (label_next hlabel rfl)).mono
        rintro server ⟨hdispatcher, rfl, hacceptFd⟩
        exact ⟨hdispatcher, rfl, hacceptFd⟩

/-- The event loop, and what it watches. -/
theorem serverCreateLoop_climbs (env : ServerEnv) {cmdDispatcher : CmdDispatcher Servers.Server}
    {done : List ServerStep} {events : List (Event Res)}
    (hdone : done.flatMap Step.unmade = destroyCmdDispatcher cmdDispatcher)
    (hhandle : ¬ (storageSqliteCreate env.storage).ret < 0 →
      ∃ handle, env.storage.opened.handle = some handle) :
    ∃ created, serverCreateLoop env cmdDispatcher events = some created ∧
      Climbs Fault.ret done (loopSteps env ++ (storageSteps env ++ threadSteps env)) events
        (fun server => server.cmdDispatcher = cmdDispatcher ∧
          env.storage.opened.handle = some server.handle ∧
          (tcpServerCreate env.tcp).ret = .ok server.acceptFd) created := by
  unfold serverCreateLoop loopSteps
  cases env.loopOk with
  | false => exact ⟨_, rfl, stop_nothing minus_one_neg rfl rfl hdone⟩
  | true =>
    have hloop : (single .eventLoop none .eventLoop :: done).flatMap Step.unmade =
        destroyEventLoop cmdDispatcher := label_next hdone rfl
    simp only [Bool.not_true, Bool.false_eq_true, if_false]
    cases env.signalfd with
    | some e => exact ⟨_, rfl, Climbs.next rfl (stop_nothing e.2 rfl rfl hloop)⟩
    | none =>
      have hsignalfd : (single .signalfd none .signalfd :: single .eventLoop none .eventLoop ::
          done).flatMap Step.unmade = closeSignalfd cmdDispatcher := label_next hloop rfl
      cases env.addOk with
      | false =>
        refine ⟨_, rfl, Climbs.next rfl (Climbs.next rfl ?_)⟩
        exact stop_nothing minus_one_neg rfl rfl hsignalfd
      | true =>
        simp only [Bool.not_true, Bool.false_eq_true, if_false]
        obtain ⟨created, hcreated, hclimbs⟩ := @serverCreateStorage_climbs env cmdDispatcher
          (⟨.entry, none, [], []⟩ :: single .signalfd none .signalfd ::
            single .eventLoop none .eventLoop :: done)
          (events ++ [.acquire .eventLoop] ++ [.acquire .signalfd])
          (label_next hsignalfd rfl) hhandle
        refine ⟨created, hcreated, Climbs.next rfl (Climbs.next rfl (Climbs.next rfl ?_))⟩
        show Climbs _ _ _ (events ++ [.acquire .eventLoop] ++ [.acquire .signalfd] ++ []) _ created
        rwa [List.append_nil]

theorem handle_of_created {env : Startup.Env} (h : ¬ (storageSqliteCreate env).ret < 0) :
    ∃ handle, env.opened.handle = some handle := by
  rw [Startup.storageSqliteCreate_ret, not_not] at h
  obtain ⟨handle, hopened⟩ := h.opened
  exact ⟨handle, by rw [hopened]; rfl⟩

/-- **`server_create` does what its steps do**, and its labels undo them, the latest first. -/
theorem serverCreate_build (env : ServerEnv) :
    ∃ created, serverCreate env = some created ∧
      Climbs Fault.ret [] (serverSteps env) [] (Makes env) created := by
  unfold serverCreate serverSteps firstSteps
  cases env.mallocOk with
  | false => exact ⟨_, rfl, stop_nothing minus_one_neg rfl rfl rfl⟩
  | true =>
    have hmemory : ([single .memory none .memory] : List ServerStep).flatMap Step.unmade =
        freeLabel := rfl
    simp only [Bool.not_true, Bool.false_eq_true, if_false]
    cases env.mutex with
    | some e => exact ⟨_, rfl, Climbs.next rfl (stop_nothing e.2 rfl rfl hmemory)⟩
    | none =>
      have hmutex : ([single .mutex none .mutex, single .memory none .memory] :
          List ServerStep).flatMap Step.unmade = destroyMtx := rfl
      cases env.cond with
      | some e =>
        refine ⟨_, rfl, Climbs.next rfl (Climbs.next rfl ?_)⟩
        exact stop_nothing e.2 rfl rfl hmutex
      | none =>
        have hcond : ([single .cond none .cond, single .mutex none .mutex,
            single .memory none .memory] : List ServerStep).flatMap Step.unmade = destroyCv := rfl
        rcases cmdDispatcherCreate_cases env.dispatcher (Servers.serverCommands env.handlers) with
          ⟨-, dispatcher, -, hcreated⟩ | ⟨-, events, hcreated, -⟩
        · have hstep : dispatcherStep env = ⟨.dispatcher, none,
              (copied (Servers.serverCommands env.handlers).length).map (Event.map .dispatcher),
              (cmdDispatcherDestroy dispatcher).map (Event.map .dispatcher)⟩ :=
            copyStep_copied hcreated
          simp only [hcreated, Option.bind_eq_bind, Option.bind_some, if_neg zero_not_neg]
          have hdone : (dispatcherStep env :: [single .cond none .cond, single .mutex none .mutex,
              single .memory none .memory] : List ServerStep).flatMap Step.unmade =
                destroyCmdDispatcher dispatcher := by
            apply label_next hcond
            rw [hstep]
            rfl
          obtain ⟨made, hmade, hclimbs⟩ := @serverCreateLoop_climbs env dispatcher _
            ([.acquire .memory] ++ [.acquire .mutex] ++ [.acquire .cond] ++
              (copied (Servers.serverCommands env.handlers).length).map (Event.map .dispatcher))
            hdone handle_of_created
          refine ⟨made, hmade, Climbs.next rfl (Climbs.next rfl (Climbs.next rfl ?_))⟩
          refine next_ret zero_not_neg ?_ ?_ (hclimbs.mono ?_)
          · rw [hstep]
            rfl
          · rw [hstep]
          · rintro server ⟨rfl, hhandle, hacceptFd⟩
            exact ⟨⟨_, hcreated⟩, hhandle, hacceptFd⟩
        · have hstep : dispatcherStep env = ⟨.dispatcher, some ⟨-1, minus_one_neg⟩,
              events.map (Event.map .dispatcher), []⟩ := copyStep_failed hcreated
          simp only [hcreated, Option.bind_eq_bind, Option.bind_some, if_pos minus_one_neg]
          refine ⟨_, rfl, Climbs.next rfl (Climbs.next rfl (Climbs.next rfl ?_))⟩
          rw [hstep]
          exact stop_ret minus_one_neg rfl rfl hcond

/-! ## The steps are sound -/

/-- **The dispatcher**: it fails exactly if the table cannot be copied, and leaves something exactly
if a name is lost. -/
theorem dispatcherStep_spec (env : ServerEnv) :
    (dispatcherStep env).Sound Res.part ∧ (dispatcherStep env).part = .dispatcher ∧
      ((dispatcherStep env).fault = none ↔
        Copies env.dispatcher (Servers.serverCommands env.handlers)) ∧
      ((dispatcherStep env).fault ≠ none → ((∀ r, Settled r (dispatcherStep env).made) ↔
        ¬ LosesNames env.dispatcher (Servers.serverCommands env.handlers))) :=
  copyStep_spec (fun _ _ h => Res.dispatcher.inj h) (fun _ => rfl) _ _

theorem storage_injective : Function.Injective Res.storage := fun _ _ h => Res.storage.inj h

theorem settled_storage {before after : List (Event Res)} {events : List (Event Startup.Res)}
    {r : Startup.Res} (hbefore : history (.storage r) before = [])
    (hafter : history (.storage r) after = []) :
    Settled (.storage r) (before ++ events.map (Event.map .storage) ++ after) ↔
      Settled r events := by
  rw [← settled_map storage_injective r events]
  apply settled_congr
  rw [history_append, history_append, hbefore, hafter, List.append_nil, List.nil_append]

theorem history_storage_other {r : Res} (hr : ∀ r', Res.storage r' ≠ r)
    (events : List (Event Startup.Res)) :
    history r (events.map (Event.map .storage)) = [] :=
  history_map_other hr events

/-- The settings can be made. -/
def HasSettings (env : ServerEnv) : Prop := env.settingsOk = true ∧ env.pathOk = true

/-- A storage is not created, and leaves a handle, or reads the pointer in the server before it is
set. -/
def StorageLeaks (env : ServerEnv) : Prop :=
  HasSettings env ∧ Startup.ObtainsHandle env.storage ∧ ¬ Startup.Succeeds env.storage

theorem storageMade_cases (env : ServerEnv) :
    (¬ HasSettings env ∧ (storageMade env).ret < 0 ∧ ∀ r, Settled r (storageMade env).events) ∨
      (HasSettings env ∧ storageMade env = ⟨(storageCreate env.storage).ret,
        [.acquire .settings, .acquire .path] ++ (storageCreate env.storage).events ++
          storageSettingsDestroy⟩) := by
  unfold HasSettings storageMade storageSqliteSettingsCreate
  cases env.settingsOk with
  | false => exact .inl ⟨fun h => Bool.false_ne_true h.1, minus_one_neg, fun r => .inl rfl⟩
  | true =>
    cases env.pathOk with
    | false =>
      refine .inl ⟨fun h => Bool.false_ne_true h.2, minus_one_neg, fun r => ?_⟩
      cases r with
      | settings => exact settled_of_history rfl
      | _ => exact .inl rfl
    | true => exact .inr ⟨⟨rfl, rfl⟩, rfl⟩

/-- What a storage that is not created leaves, with the settings it was to be made with. -/
theorem storage_failed {env : Startup.Env} (hfails : ¬ Startup.Succeeds env) :
    (∀ r, Settled r ([.acquire .settings, .acquire .path] ++ (storageCreate env).events ++
      storageSettingsDestroy)) ↔ ¬ Startup.ObtainsHandle env := by
  rcases Startup.storageSqliteCreate_cases env with
    ⟨-, hunopened⟩ | ⟨handle, -, hobtains, -, heq, -⟩ | ⟨handle, hsucceeds, -⟩
  · obtain ⟨⟨-, hunread, hunset⟩, hrest, hclosed⟩ := Startup.storageSqliteCreate_unopened hunopened
    have hevents : (storageCreate env).events =
        (storageSqliteCreate env).events.map (Event.map .storage) := by
      simp [storageCreate, hunread, hunset]
    rw [hevents, ← hclosed]
    constructor
    · intro h handle
      exact (settled_storage rfl rfl).1 (h (.storage (.db handle)))
    · intro h r
      cases r with
      | storage r =>
        refine (settled_storage rfl rfl).2 ?_
        by_cases hdb : ∃ handle, r = .db handle
        · obtain ⟨handle, rfl⟩ := hdb
          exact h handle
        · exact hrest r fun handle heq => hdb ⟨handle, heq⟩
      | settings =>
        apply settled_of_history
        rw [history_append, history_append, history_storage_other (fun _ => Res.noConfusion)]
        rfl
      | path =>
        apply settled_of_history
        rw [history_append, history_append, history_storage_other (fun _ => Res.noConfusion)]
        rfl
      | _ =>
        refine .inl ?_
        rw [history_append, history_append, history_storage_other (fun _ => Res.noConfusion)]
        rfl
  · refine iff_of_false (fun h => ?_) (not_not.2 hobtains)
    suffices huse : history .storagePtr ([.acquire .settings, .acquire .path] ++
        (storageCreate env).events ++ storageSettingsDestroy) = [.use .storagePtr] from
      not_settled_of_use huse (h .storagePtr)
    rw [history_append, history_append, storageCreate, heq, history_append, history_append,
      history_storage_other (fun _ => Res.noConfusion)]
    rfl
  · exact absurd hsucceeds hfails

/-- **A storage that is created and destroyed** leaves nothing, and nothing of its settings. -/
theorem storage_lifetime {env : Startup.Env} (h : Startup.Succeeds env) (r : Res) :
    Settled r ([.acquire .settings, .acquire .path] ++ (storageCreate env).events ++
      storageSettingsDestroy ++ env.opened.handle.toList.flatMap storageDestroy) := by
  rcases Startup.storageSqliteCreate_cases env with
    ⟨hnot, -⟩ | ⟨handle, hnot, -⟩ | ⟨handle, -, hopened, -, heq, -, -⟩
  · exact absurd h hnot
  · exact absurd h hnot
  · have hlife := Startup.create_destroy_settled h hopened
    rw [heq] at hlife
    have hhandle : env.opened.handle = some handle := by
      rw [hopened]
      rfl
    rw [hhandle, storageCreate, heq]
    simp only [Bool.false_eq_true, if_false, if_true, List.append_nil, Option.toList_some,
      List.flatMap_cons, List.flatMap_nil, storageDestroy]
    cases r with
    | storage r =>
      refine (settled_congr ?_).2 ((settled_map storage_injective r _).2 (hlife r))
      simp [history_cons, Event.resource, storageSettingsDestroy]
    | settings =>
      apply settled_of_history
      simp [history_cons, Event.resource, storageSettingsDestroy, history_storage_other]
    | path =>
      apply settled_of_history
      simp [history_cons, Event.resource, storageSettingsDestroy, history_storage_other]
    | storagePtr =>
      refine settled_iff.2 (.inr ⟨1, ?_⟩)
      simp [history_cons, Event.resource, storageSettingsDestroy, history_storage_other]
    | _ =>
      refine .inl ?_
      simp [history_cons, Event.resource, storageSettingsDestroy, history_storage_other]

theorem part_of_storage {events : List (Event Startup.Res)} :
    ∀ e ∈ events.map (Event.map Res.storage), e.resource.part = .storage := by
  intro e he
  obtain ⟨e, -, rfl⟩ := List.mem_map.1 he
  rw [Event.map_resource]
  rfl

theorem part_of_storageCreate {env : Startup.Env} :
    ∀ e ∈ (storageCreate env).events, e.resource.part = .storage := by
  intro e he
  simp only [storageCreate, List.mem_append] at he
  rcases he with (he | he) | he
  · exact part_of_storage e he
  · split at he
    · rw [List.mem_singleton.1 he]
      rfl
    · cases he
  · split at he
    · rw [List.mem_singleton.1 he]
      rfl
    · cases he

theorem part_of_storageMade (env : ServerEnv) :
    ∀ e ∈ (storageMade env).events, e.resource.part = .storage := by
  have hsettings : ∀ e ∈ (storageSqliteSettingsCreate env).events, e.resource.part = .storage := by
    unfold storageSqliteSettingsCreate
    split
    · intro e he
      cases he
    · split <;> simp [Event.resource, Res.part]
  have hdestroy : ∀ e ∈ storageSettingsDestroy, e.resource.part = .storage := by
    simp [storageSettingsDestroy, Event.resource, Res.part]
  by_cases hret : (storageSqliteSettingsCreate env).ret < 0
  · have hmade : storageMade env = storageSqliteSettingsCreate env := if_pos hret
    rw [hmade]
    exact hsettings
  · have hmade : storageMade env = ⟨(storageCreate env.storage).ret,
        (storageSqliteSettingsCreate env).events ++ (storageCreate env.storage).events ++
          storageSettingsDestroy⟩ := if_neg hret
    rw [hmade]
    intro e he
    rcases List.mem_append.1 he with he | he
    · rcases List.mem_append.1 he with he | he
      · exact hsettings e he
      · exact part_of_storageCreate e he
    · exact hdestroy e he

theorem part_of_storageDestroy (handles : List Nat) :
    ∀ e ∈ handles.flatMap storageDestroy, e.resource.part = .storage := by
  intro e he
  obtain ⟨handle, -, he⟩ := List.mem_flatMap.1 he
  rcases List.mem_append.1 he with he | he
  · rcases List.mem_cons.1 he with rfl | he
    · rfl
    · exact part_of_storage e he
  · rw [List.mem_singleton.1 he]
    rfl

/-- **The storage**: it fails exactly if its settings or its start-up do, and leaves something
exactly if the start-up has obtained a handle. -/
theorem storageStep_spec (env : ServerEnv) :
    (storageStep env).Sound Res.part ∧
      ((storageStep env).fault = none ↔ HasSettings env ∧ Startup.Succeeds env.storage) ∧
      ((storageStep env).fault ≠ none → ((∀ r, Settled r (storageStep env).made) ↔
        ¬ StorageLeaks env)) := by
  have hlocal : ∀ e ∈ (storageStep env).made, e.resource.part = (storageStep env).part :=
    part_of_storageMade env
  have hlocal' : ∀ e ∈ (storageStep env).unmade, e.resource.part = (storageStep env).part :=
    part_of_storageDestroy _
  rcases storageMade_cases env with ⟨hnot, hret, hclean⟩ | ⟨hsettings, hmade⟩
  · have hfault : (storageStep env).fault ≠ none := fun h => faultOf_eq_none.1 h hret
    refine ⟨⟨hlocal, hlocal', fun h => absurd h hfault⟩, ?_, fun _ => ?_⟩
    · exact iff_of_false hfault fun h => hnot h.1
    · exact iff_of_true hclean fun h => hnot h.1
  · have hfault : (storageStep env).fault = none ↔ Startup.Succeeds env.storage := by
      rw [storageStep, hmade, faultOf_eq_none, storageCreate, Startup.storageSqliteCreate_ret,
        not_not]
    have hevents : (storageStep env).made = [.acquire .settings, .acquire .path] ++
        (storageCreate env.storage).events ++ storageSettingsDestroy := by
      rw [storageStep, hmade]
    refine ⟨⟨hlocal, hlocal', fun h => ?_⟩, ?_, fun h => ?_⟩
    · rw [hevents]
      exact storage_lifetime (hfault.1 h)
    · rw [hfault]
      exact (and_iff_right hsettings).symm
    · rw [hevents, storage_failed (mt hfault.2 h), StorageLeaks, not_iff_not]
      exact ⟨fun hobtains => ⟨hsettings, hobtains, mt hfault.2 h⟩, fun hleaks => hleaks.2.1⟩

/-! ## The queue and the TCP server -/

theorem runQueueStep_spec (env : ServerEnv) :
    (runQueueStep env).Sound Res.part ∧ LeavesNothing (runQueueStep env) ∧
      ((runQueueStep env).fault = none ↔ env.queueLock = none ∧ env.queueRows = none) := by
  unfold runQueueStep storageGetRunQueue
  cases env.queueLock with
  | some e =>
    refine ⟨⟨fun e he => (by cases he), ?_, fun h => ?_⟩, fun _ r => .inl rfl, ?_⟩
    · simp [Event.resource, Res.part]
    · exact absurd (faultOf_eq_none.1 h) (not_not.2 e.2)
    · exact iff_of_false (fun h => faultOf_eq_none.1 h e.2) fun h => by cases h.1
  | none =>
    cases env.queueRows with
    | some e =>
      refine ⟨⟨?_, ?_, fun h => ?_⟩, fun _ r => ?_, ?_⟩
      · simp [Event.resource, Res.part]
      · simp [Event.resource, Res.part]
      · exact absurd (faultOf_eq_none.1 h) (not_not.2 e.2)
      · cases r with
        | runQueue => exact settled_of_history rfl
        | _ => exact .inl rfl
      · exact iff_of_false (fun h => faultOf_eq_none.1 h e.2) fun h => by cases h.2
    | none =>
      refine ⟨⟨?_, ?_, fun _ r => ?_⟩, fun h => ?_, ?_⟩
      · simp [Event.resource, Res.part]
      · simp [Event.resource, Res.part]
      · cases r with
        | runQueue => exact settled_of_history rfl
        | _ => exact .inl rfl
      · exact absurd (faultOf_of_nonneg zero_not_neg) h
      · exact iff_of_true (faultOf_of_nonneg zero_not_neg) ⟨rfl, rfl⟩

/-- There is memory for the TCP server, an address that it can listen at, and memory for its entry
in the event loop. -/
def Listens (env : TcpEnv) : Prop :=
  env.callocOk = true ∧ env.addOk = true ∧ env.bind.listen = none ∧
    ∃ list, env.bind.addrs = some list ∧ ∃ it ∈ list, ∃ fd,
      Sockets.Usable Sockets.BindAddr.socket Sockets.BindAddr.setUp it fd

theorem net_injective : Function.Injective Res.net := fun _ _ h => Res.net.inj h

theorem settled_around_net {events : List (Event Sockets.Res)}
    (h : ∀ r, Settled r events) (r : Res) :
    Settled r (.acquire .tcpServer :: events.map (Event.map .net) ++ [.release .tcpServer]) := by
  cases r with
  | net r =>
    refine (settled_congr ?_).2 ((settled_map net_injective r events).2 (h r))
    simp [history_cons, Event.resource]
  | tcpServer =>
    apply settled_of_history
    simp [history_cons, Event.resource, history_map_other]
  | _ =>
    refine .inl ?_
    simp [history_cons, Event.resource, history_map_other]

/-- **Closing the listening socket**, and freeing the TCP server, leaves nothing. -/
theorem tcp_lifetime {env : BindEnv} {acceptFd : Nat} {fd : Sockets.Fd}
    (h : (netBind env).ret = .ok (acceptFd, fd)) (r : Res) :
    Settled r (.acquire .tcpServer :: (netBind env).events.map (Event.map .net) ++
      [netClose acceptFd, .release .tcpServer]) := by
  obtain ⟨-, -, hheld, hrest⟩ := (Sockets.netBind_keeps env).first acceptFd fd h
  have hclosed : ∀ r, Settled r ((netBind env).events ++ [.release (.socket acceptFd)]) := by
    intro r
    by_cases hr : r = .socket acceptFd
    · subst hr
      apply hheld.release
      simp [history_cons, Event.resource]
    · apply (hrest r hr).frame
      simp [history_cons, Event.resource, Ne.symm hr]
  have hall := settled_around_net hclosed r
  simpa [netClose, Event.map] using hall

theorem part_of_net {events : List (Event Sockets.Res)} :
    ∀ e ∈ events.map (Event.map Res.net), e.resource.part = .tcpServer := by
  intro e he
  obtain ⟨e, -, rfl⟩ := List.mem_map.1 he
  rw [Event.map_resource]
  rfl

theorem part_of_tcp {events : List (Event Sockets.Res)} {more : List (Event Res)}
    (hmore : ∀ e ∈ more, e.resource.part = .tcpServer) :
    ∀ e ∈ .acquire .tcpServer :: events.map (Event.map Res.net) ++ more,
      e.resource.part = .tcpServer := by
  intro e he
  rcases List.mem_append.1 he with he | he
  · rcases List.mem_cons.1 he with rfl | he
    · rfl
    · exact part_of_net e he
  · exact hmore e he

/-- **The TCP server**: it fails exactly if there is nothing to listen at, and then leaves
nothing. -/
theorem tcpStep_spec (env : ServerEnv) :
    (tcpStep env).Sound Res.part ∧ (tcpStep env).part = .tcpServer ∧ LeavesNothing (tcpStep env) ∧
      ((tcpStep env).fault = none ↔ Listens env.tcp) := by
  have hclosing : ∀ acceptFd, ∀ e ∈ [netClose acceptFd, .release .tcpServer],
      e.resource.part = .tcpServer := by
    intro acceptFd
    simp [netClose, Event.resource, Res.part]
  have hkeeps := Sockets.netBind_keeps env.tcp.bind
  unfold tcpStep tcpServerCreate Listens
  cases env.tcp.callocOk with
  | false =>
    refine ⟨⟨fun e he => (by cases he), fun e he => (by cases he), fun h => (by cases h)⟩, rfl,
      fun _ r => .inl rfl, iff_of_false (fun h => by cases h) fun h => Bool.false_ne_true h.1⟩
  | true =>
    simp only [Bool.not_true, Bool.false_eq_true, if_false]
    cases hbound : (netBind env.tcp.bind).ret with
    | error e =>
      obtain ⟨hclean, hnot⟩ := hkeeps.failed e hbound
      refine ⟨⟨part_of_tcp ?_, fun e he => (by cases he), fun h => (by cases h)⟩, rfl,
        fun _ => settled_around_net hclean, ?_⟩
      · simp [Event.resource, Res.part]
      · exact iff_of_false (fun h => by cases h) fun h => hnot h.2.2
    | ok found =>
      obtain ⟨acceptFd, fd⟩ := found
      have hlife := tcp_lifetime hbound
      obtain ⟨hlisten, ⟨list, hlist, before, it, after, rfl, -, husable, -⟩, -⟩ :=
        hkeeps.first acceptFd fd hbound
      cases env.tcp.addOk with
      | false =>
        refine ⟨⟨part_of_tcp (hclosing acceptFd), fun e he => (by cases he), fun h => (by cases h)⟩,
          rfl, fun _ => hlife, ?_⟩
        exact iff_of_false (fun h => by cases h) fun h => Bool.false_ne_true h.2.1
      | true =>
        refine ⟨⟨?_, hclosing acceptFd, fun _ => hlife⟩, rfl, fun h => absurd rfl h, ?_⟩
        · have hpart := @part_of_tcp (netBind env.tcp.bind).events [] fun e he =>
            (by cases he)
          rwa [List.append_nil] at hpart
        · exact iff_of_true rfl ⟨trivial, rfl, hlisten, _, hlist, it, by simp, fd, husable⟩

/-! ## The server -/

theorem serverSteps_parts (env : ServerEnv) : (serverSteps env).map Step.part =
    [.memory, .mutex, .cond, .dispatcher, .eventLoop, .signalfd, .entry, .workerQueue, .storage,
      .runQueue, .tcpServer, .mainThread] := by
  have hdispatcher := (dispatcherStep_spec env).2.1
  have htcp := (tcpStep_spec env).2.1
  simp [serverSteps, firstSteps, loopSteps, storageSteps, threadSteps, single, hdispatcher, htcp,
    storageStep, runQueueStep]

/-- **The steps of `server_create` are sound.** -/
theorem serverSteps_sound (env : ServerEnv) : Sound Res.part (serverSteps env) where
  parts := by
    rw [serverSteps_parts]
    decide
  sound := by
    have hentry : (⟨.entry, faultUnless env.addOk, [], []⟩ : ServerStep).Sound Res.part :=
      ⟨fun e he => (by cases he), fun e he => (by cases he), fun _ r => .inl rfl⟩
    simp only [serverSteps, firstSteps, loopSteps, storageSteps, threadSteps,
      List.forall_mem_append, List.forall_mem_cons, List.not_mem_nil, false_implies, implies_true,
      and_true]
    exact ⟨⟨single_sound (by rfl) _, single_sound (by rfl) _, single_sound (by rfl) _,
        (dispatcherStep_spec env).1⟩,
      ⟨single_sound (by rfl) _, single_sound (by rfl) _, hentry⟩,
      ⟨single_sound (by rfl) _, (storageStep_spec env).1, (runQueueStep_spec env).1⟩,
      (tcpStep_spec env).1, single_sound (by rfl) _⟩

/-- The turn of the dispatcher comes. -/
structure ReachesDispatcher (env : ServerEnv) : Prop where
  allocated : env.mallocOk = true
  mutex : env.mutex = none
  cond : env.cond = none

/-- The turn of the storage comes. -/
structure ReachesStorage (env : ServerEnv) : Prop extends ReachesDispatcher env where
  dispatcher : Copies env.dispatcher (Servers.serverCommands env.handlers)
  eventLoop : env.loopOk = true
  signalfd : env.signalfd = none
  entry : env.addOk = true

/-- **No step fails.** -/
structure Succeeds (env : ServerEnv) : Prop extends ReachesStorage env where
  settings : HasSettings env
  storage : Startup.Succeeds env.storage
  queue : env.queueLock = none ∧ env.queueRows = none
  tcp : Listens env.tcp
  mainThread : env.mainThread = none

theorem reachesDispatcher_iff (env : ServerEnv) : ReachesDispatcher env ↔
    ∀ s ∈ ([single .memory (faultUnless env.mallocOk) .memory, single .mutex env.mutex .mutex,
      single .cond env.cond .cond] : List ServerStep), s.fault = none := by
  simp only [List.forall_mem_cons, List.not_mem_nil, false_implies, implies_true, and_true, single,
    faultUnless_eq_none]
  exact ⟨fun h => ⟨h.allocated, h.mutex, h.cond⟩, fun h => ⟨h.1, h.2.1, h.2.2⟩⟩

theorem reachesStorage_iff (env : ServerEnv) : ReachesStorage env ↔
    ∀ s ∈ firstSteps env ++ loopSteps env ++ [single .workerQueue none .workerQueue],
      s.fault = none := by
  simp only [firstSteps, loopSteps, List.forall_mem_append, List.forall_mem_cons,
    List.not_mem_nil, false_implies, implies_true, and_true, single, faultUnless_eq_none,
    (dispatcherStep_spec env).2.2.1]
  constructor
  · intro h
    exact ⟨⟨h.allocated, h.mutex, h.cond, h.dispatcher⟩, h.eventLoop, h.signalfd, h.entry⟩
  · rintro ⟨⟨hmemory, hmutex, hcond, hdispatcher⟩, hloop, hsignalfd, hentry⟩
    exact ⟨⟨hmemory, hmutex, hcond⟩, hdispatcher, hloop, hsignalfd, hentry⟩

theorem succeeds_iff (env : ServerEnv) :
    Succeeds env ↔ ∀ s ∈ serverSteps env, s.fault = none := by
  have hsteps : serverSteps env = (firstSteps env ++ loopSteps env ++
      [single .workerQueue none .workerQueue]) ++ storageStep env :: runQueueStep env ::
        threadSteps env := rfl
  rw [hsteps, List.forall_mem_append, ← reachesStorage_iff]
  simp only [threadSteps, List.forall_mem_cons, List.not_mem_nil, false_implies, implies_true,
    and_true, (storageStep_spec env).2.1, (runQueueStep_spec env).2.2, (tcpStep_spec env).2.2.2,
    single]
  constructor
  · intro h
    exact ⟨h.toReachesStorage, ⟨h.settings, h.storage⟩, h.queue, h.tcp, h.mainThread⟩
  · rintro ⟨hreaches, ⟨hsettings, hstorage⟩, hqueue, htcp, hthread⟩
    exact ⟨hreaches, hsettings, hstorage, hqueue, htcp, hthread⟩

theorem serverSteps_leave (env : ServerEnv) : ∀ s ∈ serverSteps env,
    s = dispatcherStep env ∨ s = storageStep env ∨
      (LeavesNothing s ∧ s.part ≠ .dispatcher ∧ s.part ≠ .storage) := by
  have hsingle : ∀ {part : Part} (fault : Fault) (r : Res), part ≠ .dispatcher → part ≠ .storage →
      single part fault r = dispatcherStep env ∨ single part fault r = storageStep env ∨
        (LeavesNothing (single part fault r) ∧ part ≠ .dispatcher ∧ part ≠ .storage) :=
    fun fault r hdispatcher hstorage => .inr (.inr ⟨single_leaves _ fault r, hdispatcher, hstorage⟩)
  have htcp : (tcpStep env).part ≠ .dispatcher ∧ (tcpStep env).part ≠ .storage := by
    rw [(tcpStep_spec env).2.1]
    decide
  simp only [serverSteps, firstSteps, loopSteps, storageSteps, threadSteps,
    List.forall_mem_append, List.forall_mem_cons, List.not_mem_nil, false_implies, implies_true,
    and_true]
  refine ⟨⟨hsingle _ _ ?_ ?_, hsingle _ _ ?_ ?_, hsingle _ _ ?_ ?_, .inl trivial⟩,
    ⟨hsingle _ _ ?_ ?_, hsingle _ _ ?_ ?_, .inr (.inr ⟨fun _ r => .inl rfl, ?_, ?_⟩)⟩,
    ⟨hsingle _ _ ?_ ?_, .inr (.inl trivial), .inr (.inr ⟨(runQueueStep_spec env).2.1, ?_, ?_⟩)⟩,
    .inr (.inr ⟨(tcpStep_spec env).2.2.1, htcp⟩), hsingle _ _ ?_ ?_⟩ <;> exact Part.noConfusion

theorem dispatcher_failsFirst {env : ServerEnv} {e : { e : Int32 // e < 0 }} :
    FailsFirst (serverSteps env) (dispatcherStep env) e ↔
      ReachesDispatcher env ∧ (dispatcherStep env).fault = some e := by
  have hparts := (serverSteps_sound env).parts
  have hsteps : serverSteps env = [single .memory (faultUnless env.mallocOk) .memory,
      single .mutex env.mutex .mutex, single .cond env.cond .cond] ++ dispatcherStep env ::
        (loopSteps env ++ (storageSteps env ++ threadSteps env)) := rfl
  rw [hsteps] at hparts ⊢
  rw [failsFirst_iff hparts, ← reachesDispatcher_iff]

theorem storage_failsFirst {env : ServerEnv} {e : { e : Int32 // e < 0 }} :
    FailsFirst (serverSteps env) (storageStep env) e ↔
      ReachesStorage env ∧ (storageStep env).fault = some e := by
  have hparts := (serverSteps_sound env).parts
  have hsteps : serverSteps env = (firstSteps env ++ loopSteps env ++
      [single .workerQueue none .workerQueue]) ++ storageStep env :: runQueueStep env ::
        threadSteps env := rfl
  rw [hsteps] at hparts ⊢
  rw [failsFirst_iff hparts, ← reachesStorage_iff]

/-- **A `server_create` that fails leaves nothing behind, but for two defects**: the names of a
dispatcher whose table cannot be copied whole, and the handle of a storage that cannot be
created. -/
theorem server_create_clean_iff (env : ServerEnv) (hfails : ¬ Succeeds env) :
    ∃ created, serverCreate env = some created ∧ created.ret < 0 ∧
      ((∀ r, Settled r created.events) ↔
        ¬ (ReachesDispatcher env ∧
            LosesNames env.dispatcher (Servers.serverCommands env.handlers)) ∧
          ¬ (ReachesStorage env ∧ StorageLeaks env)) := by
  obtain ⟨created, hcreated, hclimbs⟩ := serverCreate_build env
  refine ⟨created, hcreated, ?_⟩
  rcases failsFirst_or (serverSteps env) with hall | ⟨s, e, hfirst⟩
  · exact absurd ((succeeds_iff env).2 hall) hfails
  · obtain ⟨herror, hclean⟩ := build_settled_iff (serverSteps_sound env) hfirst
    rw [hclimbs.ret, hclimbs.events, herror, List.nil_append]
    refine ⟨e.2, ?_⟩
    rw [hclean]
    have hfault : s.fault ≠ none := by simp [hfirst.fault]
    -- a defect is that of the step that fails
    have hdispatcher : ReachesDispatcher env ∧
        LosesNames env.dispatcher (Servers.serverCommands env.handlers) →
          s = dispatcherStep env := by
      rintro ⟨hreaches, hloses⟩
      obtain ⟨e', he'⟩ := Option.ne_none_iff_exists'.1
        (mt (dispatcherStep_spec env).2.2.1.1 hloses.not_copies)
      exact hfirst.unique (dispatcher_failsFirst.2 ⟨hreaches, he'⟩)
    have hstorage : ReachesStorage env ∧ StorageLeaks env → s = storageStep env := by
      rintro ⟨hreaches, hleaks⟩
      obtain ⟨e', he'⟩ := Option.ne_none_iff_exists'.1
        (mt (storageStep_spec env).2.1.1 fun h => hleaks.2.2 h.2)
      exact hfirst.unique (storage_failsFirst.2 ⟨hreaches, he'⟩)
    have hparts : (dispatcherStep env).part ≠ (storageStep env).part := by
      rw [(dispatcherStep_spec env).2.1]
      exact Part.noConfusion
    rcases serverSteps_leave env s hfirst.mem with rfl | rfl | ⟨hleaves, hnot, hnot'⟩
    · rw [(dispatcherStep_spec env).2.2.2 hfault]
      have hreaches := (dispatcher_failsFirst.1 hfirst).1
      constructor
      · intro hkept
        exact ⟨fun h => hkept h.2, fun h => hparts (congrArg Step.part (hstorage h))⟩
      · intro h hloses
        exact h.1 ⟨hreaches, hloses⟩
    · rw [(storageStep_spec env).2.2 hfault]
      have hreaches := (storage_failsFirst.1 hfirst).1
      constructor
      · intro hkept
        exact ⟨fun h => hparts (congrArg Step.part (hdispatcher h)).symm, fun h => hkept h.2⟩
      · intro h hleaks
        exact h.2 ⟨hreaches, hleaks⟩
    · refine iff_of_true (hleaves hfault) ⟨fun h => ?_, fun h => ?_⟩
      · rw [hdispatcher h, (dispatcherStep_spec env).2.1] at hnot
        exact hnot rfl
      · rw [hstorage h] at hnot'
        exact hnot' rfl

/-- A server that listens at its only address, with the storage `storage`. -/
def withStorage (storage : Startup.Env) : ServerEnv where
  mallocOk := true
  mutex := none
  cond := none
  handlers := Servers.calm
  dispatcher := ⟨true, true, fun _ => true, fun _ =>
    ⟨none, Servers.serverHandleCmdGetRuns Servers.calm⟩⟩
  loopOk := true
  signalfd := none
  addOk := true
  settingsOk := true
  pathOk := true
  storage := storage
  queueLock := none
  queueRows := none
  tcp := ⟨true, ⟨some [⟨true, some ⟨4, by decide⟩, true, true, true⟩], none⟩, true⟩
  mainThread := none

theorem withStorage_reaches (storage : Startup.Env) : ReachesStorage (withStorage storage) where
  allocated := rfl
  mutex := rfl
  cond := rfl
  dispatcher := ⟨rfl, rfl, fun _ _ => rfl⟩
  eventLoop := rfl
  signalfd := rfl
  entry := rfl

/-- A database that is newer than the program is left open. -/
theorem server_create_newer_database :
    ∃ created, serverCreate (withStorage Startup.newerDatabase) = some created ∧ created.ret < 0 ∧
      ¬ ∀ r, Settled r created.events := by
  have hstorage : ¬ Startup.Succeeds Startup.newerDatabase :=
    (Startup.storageSqliteCreate_ret _).1 (by decide)
  obtain ⟨created, hcreated, hret, hclean⟩ :=
    server_create_clean_iff (withStorage Startup.newerDatabase) fun h => hstorage h.storage
  refine ⟨created, hcreated, hret, fun h => (hclean.1 h).2 ?_⟩
  exact ⟨withStorage_reaches _, ⟨rfl, rfl⟩, ⟨rfl, rfl, rfl⟩, hstorage⟩

/-! ## The life of a server -/

/-- The order in which `server_destroy` releases the parts: that of the labels, but for the storage
and the queue of runs. -/
def destroySteps (env : ServerEnv) : List ServerStep :=
  [single .mainThread env.mainThread .mainThread, tcpStep env, storageStep env, runQueueStep env,
    single .workerQueue none .workerQueue, ⟨.entry, faultUnless env.addOk, [], []⟩,
    single .signalfd env.signalfd .signalfd,
    single .eventLoop (faultUnless env.loopOk) .eventLoop, dispatcherStep env,
    single .cond env.cond .cond, single .mutex env.mutex .mutex,
    single .memory (faultUnless env.mallocOk) .memory]

theorem destroySteps_perm (env : ServerEnv) : (destroySteps env).Perm (serverSteps env) := by
  refine List.Perm.trans ?_ (List.reverse_perm (serverSteps env))
  exact ((List.Perm.swap _ _ _).cons _).cons _

/-- What is released after the listening socket has been closed, and the threads of the clients
joined. -/
def afterClients (server : Server) : List (Event Res) :=
  .release .tcpServer :: storageDestroy server.handle ++
    [.release .runQueue, .release .workerQueue, .release .signalfd, .release .eventLoop] ++
    (cmdDispatcherDestroy server.cmdDispatcher).map (Event.map .dispatcher) ++
    [.release .cond, .release .mutex, .release .memory]

theorem serverDestroy_eq (server : Server) (mainUses clientUses : List Res) :
    serverDestroy server mainUses clientUses = mainUses.map .use ++
      ([.release .mainThread, netClose server.acceptFd] ++
        (clientUses.map .use ++ afterClients server)) := by
  simp [serverDestroy, tcpServerDestroy, afterClients]

theorem destroySteps_unmade {env : ServerEnv} {server : Server} (h : Makes env server) :
    (destroySteps env).flatMap Step.unmade =
      [.release .mainThread, netClose server.acceptFd] ++ afterClients server := by
  obtain ⟨⟨events, hdispatcher⟩, hhandle, hacceptFd⟩ := h
  have hunmade : (dispatcherStep env).unmade =
      (cmdDispatcherDestroy server.cmdDispatcher).map (Event.map .dispatcher) := by
    rw [dispatcherStep, copyStep_copied hdispatcher]
  have hunmade' : (storageStep env).unmade = storageDestroy server.handle := by
    simp [storageStep, hhandle]
  have hunmade'' : (tcpStep env).unmade = tcpServerDestroy server.acceptFd [] := by
    simp [tcpStep, hacceptFd]
  simp [destroySteps, hunmade, hunmade', hunmade'', single, runQueueStep, tcpServerDestroy,
    afterClients]

theorem serverCreate_made {env : ServerEnv} (h : Succeeds env) :
    ∃ created server, serverCreate env = some created ∧ created.ret = 0 ∧
      created.object = some server ∧ Makes env server ∧
      created.events = (serverSteps env).flatMap Step.made := by
  obtain ⟨created, hcreated, hclimbs⟩ := serverCreate_build env
  have hbuild := build_of_ok ((succeeds_iff env).1 h) []
  obtain ⟨server, hserver, hmakes⟩ := hclimbs.object (by rw [hbuild])
  refine ⟨created, server, hcreated, ?_, hserver, hmakes, ?_⟩
  · rw [hclimbs.ret, hbuild]
    rfl
  · rw [hclimbs.events, hbuild, List.nil_append]

/-- **A server that is created and destroyed leaves nothing behind**, and nothing is used after it
has been released: whatever the main thread and the threads of the clients use, of what is held,
until they are joined. -/
theorem server_lifetime {env : ServerEnv} (h : Succeeds env) :
    ∃ created server, serverCreate env = some created ∧ created.ret = 0 ∧
      created.object = some server ∧
      ∀ mainUses clientUses : List Res, (∀ r ∈ mainUses, Held r created.events) →
        (∀ r ∈ clientUses, r ≠ .mainThread ∧ r ≠ .net (.socket server.acceptFd) ∧
          Held r created.events) →
        ∀ r, Settled r (created.events ++ serverDestroy server mainUses clientUses) := by
  obtain ⟨created, server, hcreated, hret, hserver, hmakes, hevents⟩ := serverCreate_made h
  refine ⟨created, server, hcreated, hret, hserver, fun mainUses clientUses hmain hclients r => ?_⟩
  -- without the uses of other threads
  have hplain : Settled r (created.events ++ ([.release .mainThread, netClose server.acceptFd] ++
      afterClients server)) := by
    rw [hevents, ← destroySteps_unmade hmakes]
    exact build_destroy (serverSteps_sound env) ((succeeds_iff env).1 h) (destroySteps_perm env) r
  -- with those of the clients, whose threads are joined after the main thread
  have hclient : Settled r (created.events ++ ([.release .mainThread, netClose server.acceptFd] ++
      (clientUses.map .use ++ afterClients server))) := by
    rw [← List.append_assoc, ← List.append_assoc]
    rw [← List.append_assoc] at hplain
    refine hplain.use_between fun hr => ?_
    obtain ⟨hthread, hsocket, hheld⟩ := hclients r hr
    apply hheld.frame
    simp [history_cons, netClose, Event.resource, Ne.symm hthread, Ne.symm hsocket]
  rw [serverDestroy_eq, ← List.append_assoc]
  exact hclient.use_between (hmain r)

/-- A database of the version that the program is built with. -/
def sameVersion : Startup.Env := { Startup.newerDatabase with versionStep := .row 1 }

theorem sameVersion_succeeds : Succeeds (withStorage sameVersion) where
  toReachesStorage := withStorage_reaches sameVersion
  settings := ⟨rfl, rfl⟩
  storage := ⟨rfl, rfl, ⟨3, rfl⟩, rfl,
    ⟨1, ⟨rfl, 1, rfl, by decide, by decide⟩, Nat.le_refl 1, fun i hle hlt =>
      absurd hlt (Nat.not_lt.2 hle)⟩, fun _ _ => ⟨rfl, rfl⟩⟩
  queue := ⟨rfl, rfl⟩
  tcp := ⟨rfl, rfl, rfl, _, rfl, _, List.mem_singleton_self _, _, rfl, rfl⟩
  mainThread := rfl

/-- The main thread and a client lock and unlock the mutex, and nothing is left. -/
theorem server_lifetime_locks :
    ∃ created server, serverCreate (withStorage sameVersion) = some created ∧
      ∀ r, Settled r (created.events ++ serverDestroy server [.mutex, .mutex] [.mutex, .mutex]) := by
  obtain ⟨created, server, hcreated, -, -, hsettled⟩ := server_lifetime sameVersion_succeeds
  obtain ⟨created', -, hcreated', -, -, -, hevents⟩ := serverCreate_made sameVersion_succeeds
  cases hcreated.symm.trans hcreated'
  have hheld : Held .mutex created.events := by
    rw [hevents]
    apply (serverSteps_sound _).held (s := single .mutex none .mutex)
    · exact List.mem_cons_of_mem _ List.mem_cons_self
    · rfl
    · exact ⟨0, rfl⟩
  refine ⟨created, server, hcreated, hsettled _ _ ?_ ?_⟩
  · intro r hr
    obtain rfl : r = .mutex := by simpa using hr
    exact hheld
  · intro r hr
    obtain rfl : r = .mutex := by simpa using hr
    exact ⟨Res.noConfusion, Res.noConfusion, hheld⟩

end Cimple.Lifecycle
