import Cimple.Construction

/-!
# Creating and destroying the worker (`worker_create`, `worker_destroy`)

* `workerCreate` — with its ladder of labels; `workerDestroy`.
* `workerSteps` — the same as a list of steps.
* `Succeeds` — no step fails.

Principal results: `workerCreate_build`, and `worker_lifecycle`: unlike the server, the worker
leaves nothing behind, whatever fails.
-/

set_option autoImplicit false

namespace Cimple.WorkerLifecycle

open Ledger Unwinding Cimple.Construction
open Cimple.CommandTable (CmdDispatcher cmdDispatcherCreate cmdDispatcherDestroy)
open Cimple.Startup (Fault)
open Cimple.Workers (workerCommands)

/-! ## The source -/

/-- What `worker_create` acquires. -/
inductive Res where
  /-- The `struct worker`. -/
  | memory
  | settings
  | host
  | port
  | dispatcher (b : CommandTable.Block)
  | eventLoop
  | signalfd
  /-- The library, between `libgit_init` and `libgit_shutdown`. -/
  | libgit
  deriving DecidableEq

/-- What the outside world does to one `worker_create`. -/
structure WorkerEnv where
  mallocOk : Bool
  settingsOk : Bool
  hostOk : Bool
  portOk : Bool
  dispatcher : CommandTable.CreateEnv Workers.Worker
  loopOk : Bool
  signalfd : Fault
  addOk : Bool
  libgit : Fault

/-- `worker_settings_copy`: whether there is a copy. -/
def workerSettingsCopy (env : WorkerEnv) : Bool × List (Event Res) :=
  if !env.settingsOk then (false, [])
  else if !env.hostOk then (false, [.acquire .settings, .release .settings])
  else if !env.portOk then
    (false, [.acquire .settings, .acquire .host, .release .host, .release .settings])
  else (true, [.acquire .settings, .acquire .host, .acquire .port])

/-- `worker_settings_destroy`. -/
def workerSettingsDestroy : List (Event Res) :=
  [.release .port, .release .host, .release .settings]

/-- `struct worker`. -/
structure Worker where
  cmdDispatcher : CmdDispatcher Workers.Worker

/-- The label `free`. -/
def freeLabel : List (Event Res) := [.release .memory]

/-- The label `free_settings`, and those after it. -/
def freeSettings : List (Event Res) := workerSettingsDestroy ++ freeLabel

/-- The label `destroy_cmd_dispatcher`. -/
def destroyCmdDispatcher (cmdDispatcher : CmdDispatcher Workers.Worker) : List (Event Res) :=
  (cmdDispatcherDestroy cmdDispatcher).map (Event.map .dispatcher) ++ freeSettings

/-- The label `destroy_event_loop`. -/
def destroyEventLoop (cmdDispatcher : CmdDispatcher Workers.Worker) : List (Event Res) :=
  .release .eventLoop :: destroyCmdDispatcher cmdDispatcher

/-- The label `close_signalfd`. -/
def closeSignalfd (cmdDispatcher : CmdDispatcher Workers.Worker) : List (Event Res) :=
  .release .signalfd :: destroyEventLoop cmdDispatcher

/-- `worker_create` from `event_loop_create` on. -/
def workerCreateLoop (env : WorkerEnv) (cmdDispatcher : CmdDispatcher Workers.Worker)
    (events : List (Event Res)) : Created Int32 Res Worker :=
  if !env.loopOk then ⟨-1, events ++ destroyCmdDispatcher cmdDispatcher, none⟩
  else
    let events := events ++ [.acquire .eventLoop]
    match env.signalfd with
    | some e => ⟨e.1, events ++ destroyEventLoop cmdDispatcher, none⟩
    | none =>
      let events := events ++ [.acquire .signalfd]
      if !env.addOk then ⟨-1, events ++ closeSignalfd cmdDispatcher, none⟩
      else
        match env.libgit with
        | some e => ⟨e.1, events ++ closeSignalfd cmdDispatcher, none⟩
        | none => ⟨0, events ++ [.acquire .libgit], some ⟨cmdDispatcher⟩⟩

/-- `worker_create`; it is undefined to go on without a dispatcher. -/
def workerCreate (env : WorkerEnv) : Option (Created Int32 Res Worker) :=
  if !env.mallocOk then some ⟨-1, [], none⟩
  else
    let events := [.acquire .memory]
    let (copied, settings) := workerSettingsCopy env
    let events := events ++ settings
    if !copied then some ⟨-1, events ++ freeLabel, none⟩
    else do
      let created ← cmdDispatcherCreate env.dispatcher workerCommands
      let events := events ++ created.events.map (Event.map .dispatcher)
      if created.ret < 0 then some ⟨created.ret, events ++ freeSettings, none⟩
      else do
        let cmdDispatcher ← created.dispatcher
        some (workerCreateLoop env cmdDispatcher events)

/-- `worker_destroy`. -/
def workerDestroy (worker : Worker) : List (Event Res) :=
  [.release .libgit, .release .signalfd, .release .eventLoop] ++
    (cmdDispatcherDestroy worker.cmdDispatcher).map (Event.map .dispatcher) ++
    workerSettingsDestroy ++ [.release .memory]

/-! ## As steps -/

/-- The parts of a worker, in the order in which they are made. -/
inductive Part where
  | memory
  | settings
  | dispatcher
  | eventLoop
  | signalfd
  | entry
  | libgit
  deriving DecidableEq

/-- The part that a resource belongs to. -/
def Res.part : Res → Part
  | .memory => .memory
  | .settings | .host | .port => .settings
  | .dispatcher _ => .dispatcher
  | .eventLoop => .eventLoop
  | .signalfd => .signalfd
  | .libgit => .libgit

/-- A part of a worker. -/
abbrev WorkerStep := Step { e : Int32 // e < 0 } Part Res

/-- The copy of the settings. -/
def settingsStep (env : WorkerEnv) : WorkerStep :=
  ⟨.settings, faultUnless (workerSettingsCopy env).1, (workerSettingsCopy env).2,
    workerSettingsDestroy⟩

/-- The dispatcher. -/
def dispatcherStep (env : WorkerEnv) : WorkerStep :=
  copyStep .dispatcher .dispatcher env.dispatcher workerCommands

/-- The steps from the event loop on. -/
def loopSteps (env : WorkerEnv) : List WorkerStep :=
  [single .eventLoop (faultUnless env.loopOk) .eventLoop,
    single .signalfd env.signalfd .signalfd, ⟨.entry, faultUnless env.addOk, [], []⟩,
    single .libgit env.libgit .libgit]

/-- The steps of `worker_create`. -/
def workerSteps (env : WorkerEnv) : List WorkerStep :=
  single .memory (faultUnless env.mallocOk) .memory :: settingsStep env :: dispatcherStep env ::
    loopSteps env

/-- There is memory for the settings. -/
def HasSettings (env : WorkerEnv) : Prop :=
  env.settingsOk = true ∧ env.hostOk = true ∧ env.portOk = true

/-- **No step fails.** -/
structure Succeeds (env : WorkerEnv) : Prop where
  allocated : env.mallocOk = true
  settings : HasSettings env
  dispatcher : Copies env.dispatcher workerCommands
  eventLoop : env.loopOk = true
  signalfd : env.signalfd = none
  entry : env.addOk = true
  libgit : env.libgit = none

/-- **The settings**: they are copied whole, or nothing is left of them. -/
theorem settingsStep_spec (env : WorkerEnv) :
    (settingsStep env).Sound Res.part ∧ LeavesNothing (settingsStep env) ∧
      ((settingsStep env).fault = none ↔ HasSettings env) := by
  have hunmade : ∀ e ∈ workerSettingsDestroy, e.resource.part = .settings := by
    simp [workerSettingsDestroy, Event.resource, Res.part]
  have hfailed : ∀ {events : List (Event Res)}, (∀ e ∈ events, e.resource.part = .settings) →
      (∀ r, Settled r events) → ∀ {p : Prop}, ¬ p →
        (⟨.settings, faultUnless false, events, workerSettingsDestroy⟩ : WorkerStep).Sound
            Res.part ∧
          LeavesNothing (⟨.settings, faultUnless false, events, workerSettingsDestroy⟩ :
            WorkerStep) ∧ (faultUnless false = none ↔ p) := by
    intro events hmade hclean p hp
    exact ⟨⟨hmade, hunmade, fun h => (by cases h)⟩, fun _ => hclean,
      iff_of_false (fun h => by cases h) hp⟩
  unfold settingsStep workerSettingsCopy HasSettings
  cases env.settingsOk with
  | false =>
    exact hfailed (fun e he => (by cases he)) (fun r => .inl rfl) fun h => Bool.false_ne_true h.1
  | true =>
    cases env.hostOk with
    | false =>
      refine hfailed ?_ (fun r => ?_) fun h => Bool.false_ne_true h.2.1
      · simp [Event.resource, Res.part]
      · cases r with
        | settings => exact settled_of_history rfl
        | _ => exact .inl rfl
    | true =>
      cases env.portOk with
      | false =>
        refine hfailed ?_ (fun r => ?_) fun h => Bool.false_ne_true h.2.2
        · simp [Event.resource, Res.part]
        · cases r with
          | settings => exact settled_of_history rfl
          | host => exact settled_of_history rfl
          | _ => exact .inl rfl
      | true =>
        refine ⟨⟨?_, hunmade, fun _ r => ?_⟩, fun h => absurd rfl h,
          iff_of_true rfl ⟨rfl, rfl, rfl⟩⟩
        · simp [Event.resource, Res.part]
        · cases r with
          | settings => exact settled_of_history rfl
          | host => exact settled_of_history rfl
          | port => exact settled_of_history rfl
          | _ => exact .inl rfl

theorem workerCommands_keeps (env : CommandTable.CreateEnv Workers.Worker) :
    ¬ LosesNames env workerCommands := by
  rintro ⟨-, -, hfirst, i, hi, hfails⟩
  obtain rfl : i = 0 := Nat.lt_one_iff.1 hi
  exact Bool.false_ne_true (hfails.symm.trans hfirst)

/-- **The dispatcher** leaves nothing when it fails. -/
theorem dispatcherStep_spec (env : WorkerEnv) :
    (dispatcherStep env).Sound Res.part ∧ (dispatcherStep env).part = .dispatcher ∧
      LeavesNothing (dispatcherStep env) ∧
      ((dispatcherStep env).fault = none ↔ Copies env.dispatcher workerCommands) := by
  obtain ⟨hsound, hpart, hfault, hclean⟩ := @copyStep_spec _ _ _ .dispatcher Res.dispatcher _
    Res.part (fun _ _ h => Res.dispatcher.inj h) (fun _ => rfl) env.dispatcher workerCommands
  exact ⟨hsound, hpart, fun h => (hclean h).2 (workerCommands_keeps _), hfault⟩

theorem succeeds_iff (env : WorkerEnv) :
    Succeeds env ↔ ∀ s ∈ workerSteps env, s.fault = none := by
  simp only [workerSteps, loopSteps, List.forall_mem_cons, List.not_mem_nil, false_implies,
    implies_true, and_true, single, faultUnless_eq_none, (settingsStep_spec env).2.2,
    (dispatcherStep_spec env).2.2.2]
  constructor
  · intro h
    exact ⟨h.allocated, h.settings, h.dispatcher, h.eventLoop, h.signalfd, h.entry, h.libgit⟩
  · rintro ⟨hmemory, hsettings, hdispatcher, hloop, hsignalfd, hentry, hlibgit⟩
    exact ⟨hmemory, hsettings, hdispatcher, hloop, hsignalfd, hentry, hlibgit⟩

end Cimple.WorkerLifecycle
