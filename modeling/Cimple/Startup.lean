import Cimple.Lib.Ledger

/-!
# Starting the storage (`storage_sqlite_create`)

The ledger of a start-up has what it acquires and releases: its memory, the library, database
handles, prepared statements and their mutexes.

* `Env` — the outcome of every step, and what the memory of the caller's `struct storage` holds.
* `sqliteGetUserVersion`, `storageSqliteUpgrade`, `storageSqliteSetup`, `preparedStmtInit`,
  `storageSqlitePrepareStatements`, `storageSqliteCreate` — the functions, with their labels.
* `Succeeds` — no step fails, for a database of a version that is known.
* `Clean` — a failure that releases what it has acquired and nothing else.

Principal results: `storageSqliteCreate_ret`, `create_settles_rest` and `start_up_clean_iff`.
-/

set_option autoImplicit false

namespace Cimple.Startup

open Ledger

/-! ## The source -/

/-- The statement that reads the version, and the statements of a storage. -/
inductive StmtId where
  | userVersion
  | repoFind
  | repoInsert
  | runInsert
  | runFinished
  | getRuns
  | getRunQueue
  deriving DecidableEq

/-- What a start-up acquires. -/
inductive Res where
  /-- The `struct storage_sqlite`. -/
  | memory
  /-- The library, between `sqlite3_initialize` and `sqlite3_shutdown`. -/
  | library
  | db (handle : Nat)
  | stmt (id : StmtId)
  | mutex (id : StmtId)
  deriving DecidableEq

/-- The value a step fails with, if it fails. -/
abbrev Fault := Option { e : Int32 // e < 0 }

/-- The value a step returns. -/
def Fault.ret : Fault → Int32
  | none => 0
  | some e => e.1

/-- `sqlite3_open_v2`: it may leave a handle when it fails, which is to be closed all the same. -/
inductive Opened where
  | ok (handle : Nat)
  | failed (e : { e : Int32 // e < 0 }) (handle : Option Nat)

/-- The handle, if there is one. -/
def Opened.handle : Opened → Option Nat
  | .ok handle => some handle
  | .failed _ handle => handle

/-- A step of the statement that reads the version. -/
inductive VersionStep where
  | failed (e : { e : Int32 // e < 0 })
  | done
  | row (version : Int32)

/-- A schema script: whether there is memory for `full_script` and for `full_stmt`, and how the
execution ends. -/
structure ScriptEnv where
  scriptOk : Bool
  stmtOk : Bool
  exec : Fault

/-- What the outside world does to a start-up.  `newest` is the number of schemas the program is
built with; `callerDb` is what `storage->sqlite->db` holds before the call. -/
structure Env where
  newest : Nat
  callerDb : Nat
  mallocOk : Bool
  libraryInit : Fault
  opened : Opened
  foreignKeys : Fault
  versionStep : VersionStep
  script : Nat → ScriptEnv
  mutex : StmtId → Fault
  prepare : StmtId → Fault

/-- What a function returns, and what it acquires, uses and releases. -/
structure Ran where
  ret : Int32
  events : List (Event Res)

/-- `sqlite_prepare`. -/
def sqlitePrepare (env : Env) (id : StmtId) : Ran :=
  match env.prepare id with
  | some e => ⟨e.1, []⟩
  | none => ⟨0, [.acquire (.stmt id)]⟩

/-- `sqlite_finalize`. -/
def sqliteFinalize (id : StmtId) : List (Event Res) := [.release (.stmt id)]

/-- `sqlite_get_user_version`, with `*output`. -/
def sqliteGetUserVersion (env : Env) (output : Nat) : Ran × Nat :=
  let prepared := sqlitePrepare env .userVersion
  if prepared.ret < 0 then (prepared, output)
  else
    let stepped := prepared.events ++ [.use (.stmt .userVersion)]
    let finalized := stepped ++ sqliteFinalize .userVersion
    match env.versionStep with
    | .failed e => (⟨e.1, finalized⟩, output)
    | .done => (⟨-1, finalized⟩, output)
    | .row result =>
      if result < 0 then (⟨-1, finalized⟩, output) else (⟨1, finalized⟩, result.toInt.toNat)

/-- `storage_sqlite_upgrade_to`, and in it `sqlite_exec_as_transaction`. -/
def storageSqliteUpgradeTo (env : Env) (version : Nat) : Int32 :=
  if !(env.script version).scriptOk then -1
  else if !(env.script version).stmtOk then -1
  else (env.script version).exec.ret

/-- The loop of `storage_sqlite_upgrade_from_to`, `count` versions from `version` on. -/
def storageSqliteUpgradeFromTo (env : Env) : (count version : Nat) → Int32
  | 0, _ => 0
  | count + 1, version =>
    let ret := storageSqliteUpgradeTo env version
    if ret < 0 then ret else storageSqliteUpgradeFromTo env count (version + 1)

/-- `storage_sqlite_upgrade`. -/
def storageSqliteUpgrade (env : Env) : Ran :=
  let (read, currentVersion) := sqliteGetUserVersion env 0
  if read.ret < 0 then read
  else if env.newest < currentVersion then ⟨-1, read.events⟩
  else if currentVersion = env.newest then ⟨0, read.events⟩
  else ⟨storageSqliteUpgradeFromTo env (env.newest - currentVersion) currentVersion, read.events⟩

/-- `storage_sqlite_setup`. -/
def storageSqliteSetup (env : Env) : Ran :=
  match env.foreignKeys with
  | some e => ⟨e.1, []⟩
  | none => storageSqliteUpgrade env

/-- `prepared_stmt_init`. -/
def preparedStmtInit (env : Env) (id : StmtId) : Ran :=
  match env.mutex id with
  | some e => ⟨e.1, []⟩
  | none =>
    let prepared := sqlitePrepare env id
    if prepared.ret < 0 then
      ⟨prepared.ret, .acquire (.mutex id) :: prepared.events ++ [.release (.mutex id)]⟩
    else ⟨prepared.ret, .acquire (.mutex id) :: prepared.events⟩

/-- `prepared_stmt_destroy`. -/
def preparedStmtDestroy (id : StmtId) : List (Event Res) :=
  .release (.mutex id) :: sqliteFinalize id

/-- The statements of a storage, in the order in which they are prepared. -/
def storageStmts : List StmtId :=
  [.repoFind, .repoInsert, .runInsert, .runFinished, .getRuns, .getRunQueue]

/-- The calls of `prepared_stmt_init` from `todo` on, and the labels they go to: `done` are the
statements initialised so far, the latest first. -/
def prepareFrom (env : Env) : (done todo : List StmtId) → Ran
  | _, [] => ⟨0, []⟩
  | done, id :: todo =>
    let init := preparedStmtInit env id
    if init.ret < 0 then ⟨init.ret, init.events ++ done.flatMap preparedStmtDestroy⟩
    else
      let rest := prepareFrom env (id :: done) todo
      ⟨rest.ret, init.events ++ rest.events⟩

/-- `storage_sqlite_prepare_statements`. -/
def storageSqlitePrepareStatements (env : Env) : Ran := prepareFrom env [] storageStmts

/-- What `storage_sqlite_create` leaves: whether it has read `storage->sqlite`, and whether it has
set it. -/
structure Created extends Ran where
  readsCaller : Bool
  assigned : Bool

/-- The label `destroy`, and `free` after it. -/
def destroyLabel : List (Event Res) := [.release .library, .release .memory]

/-- The label `close`, and those after it: the handle it closes is the one the caller's
`storage->sqlite` has. -/
def closeLabel (env : Env) : List (Event Res) := .release (.db env.callerDb) :: destroyLabel

/-- `storage_sqlite_create`. -/
def storageSqliteCreate (env : Env) : Created :=
  if !env.mallocOk then ⟨⟨-1, []⟩, false, false⟩
  else
    match env.libraryInit with
    | some e => ⟨⟨e.1, [.acquire .memory, .release .memory]⟩, false, false⟩
    | none =>
      let initialised : List (Event Res) := [.acquire .memory, .acquire .library]
      match env.opened with
      | .failed e handle =>
        let opened := handle.toList.map fun h => Event.acquire (Res.db h)
        ⟨⟨e.1, initialised ++ opened ++ destroyLabel⟩, false, false⟩
      | .ok handle =>
        let opened := initialised ++ [.acquire (.db handle)]
        let setup := storageSqliteSetup env
        if setup.ret < 0 then
          ⟨⟨setup.ret, opened ++ setup.events ++ closeLabel env⟩, true, false⟩
        else
          let prepared := storageSqlitePrepareStatements env
          if prepared.ret < 0 then
            ⟨⟨prepared.ret, opened ++ setup.events ++ prepared.events ++ closeLabel env⟩,
              true, false⟩
          else ⟨⟨prepared.ret, opened ++ setup.events ++ prepared.events⟩, false, true⟩

/-- `storage_sqlite_finalize_statements`. -/
def storageSqliteFinalizeStatements : List (Event Res) :=
  storageStmts.reverse.flatMap preparedStmtDestroy

/-- `storage_sqlite_destroy`, for a storage with the handle `handle`. -/
def storageSqliteDestroy (handle : Nat) : List (Event Res) :=
  storageSqliteFinalizeStatements ++ .release (.db handle) :: destroyLabel

/-! ## The contract -/

/-- No step of a script fails. -/
def ScriptEnv.Works (script : ScriptEnv) : Prop :=
  script.scriptOk = true ∧ script.stmtOk = true ∧ script.exec = none

/-- The version of the database can be read, and is not negative. -/
def ReadsVersion (env : Env) (version : Nat) : Prop :=
  env.prepare .userVersion = none ∧
    ∃ result, env.versionStep = .row result ∧ ¬ result < 0 ∧ version = result.toInt.toNat

/-- The version of the database is one that is known, and the scripts from it on work. -/
def Upgradable (env : Env) : Prop :=
  ∃ version, ReadsVersion env version ∧ version ≤ env.newest ∧
    ∀ i, version ≤ i → i < env.newest → (env.script i).Works

/-- A statement of a storage can be initialised. -/
def Preparable (env : Env) (id : StmtId) : Prop := env.mutex id = none ∧ env.prepare id = none

/-- **No step fails.** -/
structure Succeeds (env : Env) : Prop where
  allocated : env.mallocOk = true
  initialised : env.libraryInit = none
  opened : ∃ handle, env.opened = .ok handle
  foreignKeys : env.foreignKeys = none
  upgradable : Upgradable env
  preparable : ∀ id ∈ storageStmts, Preparable env id

/-- A database handle is obtained: opening it succeeds, or fails and leaves a handle. -/
def ObtainsHandle (env : Env) : Prop :=
  env.mallocOk = true ∧ env.libraryInit = none ∧ env.opened.handle.isSome = true

/-- **A clean failure**: a negative value, every handle that was obtained and no other is closed,
every statement that was prepared is finalised, each exactly once, and the caller's storage is
neither read nor set. -/
structure Clean (created : Created) : Prop where
  negative : created.ret < 0
  closed : ∀ handle, Settled (.db handle) created.events
  finalised : ∀ id, Settled (.stmt id) created.events
  unread : created.readsCaller = false
  unset : created.assigned = false

/-! ## Steps -/

theorem Fault.ret_neg {fault : Fault} : fault.ret < 0 ↔ fault ≠ none := by
  cases fault with
  | none => simp [Fault.ret]
  | some e => simpa [Fault.ret] using e.2

theorem storageSqliteUpgradeTo_ret {env : Env} {version : Nat} :
    storageSqliteUpgradeTo env version < 0 ↔ ¬ (env.script version).Works := by
  unfold storageSqliteUpgradeTo ScriptEnv.Works
  cases (env.script version).scriptOk with
  | false => simp
  | true =>
    cases (env.script version).stmtOk with
    | false => simp
    | true => simp [Fault.ret_neg]

/-- The loop fails exactly if one of the scripts does. -/
theorem storageSqliteUpgradeFromTo_ret (env : Env) (count : Nat) :
    ∀ version, storageSqliteUpgradeFromTo env count version < 0 ↔
      ∃ i, version ≤ i ∧ i < version + count ∧ ¬ (env.script i).Works := by
  induction count with
  | zero =>
    intro version
    simp only [storageSqliteUpgradeFromTo, Nat.add_zero]
    constructor
    · intro h
      exact absurd h (by decide)
    · rintro ⟨i, hle, hlt, -⟩
      omega
  | succ count ih =>
    intro version
    simp only [storageSqliteUpgradeFromTo]
    by_cases hto : storageSqliteUpgradeTo env version < 0
    · rw [if_pos hto]
      refine ⟨fun _ => ⟨version, Nat.le_refl _, by omega, storageSqliteUpgradeTo_ret.1 hto⟩,
        fun _ => hto⟩
    · rw [if_neg hto, ih (version + 1)]
      constructor
      · rintro ⟨i, hle, hlt, hi⟩
        exact ⟨i, by omega, by omega, hi⟩
      · rintro ⟨i, hle, hlt, hi⟩
        rcases Nat.eq_or_lt_of_le hle with rfl | hle
        · exact absurd (storageSqliteUpgradeTo_ret.2 hi) hto
        · exact ⟨i, by omega, by omega, hi⟩

theorem sqlitePrepare_cases (env : Env) (id : StmtId) :
    (env.prepare id = none ∧ sqlitePrepare env id = ⟨0, [.acquire (.stmt id)]⟩) ∨
      (env.prepare id ≠ none ∧ (sqlitePrepare env id).ret < 0 ∧
        (sqlitePrepare env id).events = []) := by
  unfold sqlitePrepare
  cases hprepare : env.prepare id with
  | none => exact .inl ⟨rfl, rfl⟩
  | some e => exact .inr ⟨by simp, e.2, rfl⟩

theorem ReadsVersion.unique {env : Env} {version version' : Nat} (h : ReadsVersion env version)
    (h' : ReadsVersion env version') : version = version' := by
  obtain ⟨-, result, hresult, -, rfl⟩ := h
  obtain ⟨-, result', hresult', -, rfl⟩ := h'
  rw [hresult] at hresult'
  cases hresult'
  rfl

/-- **The version**: it is given, or the value is negative. -/
theorem sqliteGetUserVersion_spec (env : Env) (output : Nat) :
    ((sqliteGetUserVersion env output).1.ret < 0 ∧ ∀ version, ¬ ReadsVersion env version) ∨
      ((sqliteGetUserVersion env output).1.ret = 1 ∧
        ReadsVersion env (sqliteGetUserVersion env output).2) := by
  unfold sqliteGetUserVersion ReadsVersion
  rcases sqlitePrepare_cases env .userVersion with ⟨hprepare, heq⟩ | ⟨hprepare, hret, -⟩
  · simp only [heq, hprepare]
    rw [if_neg (by decide)]
    cases hstep : env.versionStep with
    | failed e => exact .inl ⟨e.2, by simp⟩
    | done => exact .inl ⟨show (-1 : Int32) < 0 by decide, by simp⟩
    | row result =>
      by_cases hresult : result < 0
      · simp only [if_pos hresult]
        refine .inl ⟨by decide, ?_⟩
        rintro version ⟨-, result', heq, hnot, -⟩
        cases heq
        exact hnot hresult
      · simp only [if_neg hresult]
        exact .inr ⟨trivial, trivial, result, rfl, hresult, rfl⟩
  · simp only [if_pos hret]
    exact .inl ⟨hret, fun version h => hprepare h.1⟩

theorem sqliteGetUserVersion_events (env : Env) (output : Nat) :
    (sqliteGetUserVersion env output).1.events = [] ∨
      (sqliteGetUserVersion env output).1.events =
        [.acquire (.stmt .userVersion), .use (.stmt .userVersion),
          .release (.stmt .userVersion)] := by
  unfold sqliteGetUserVersion
  rcases sqlitePrepare_cases env .userVersion with ⟨-, heq⟩ | ⟨-, hret, hevents⟩
  · simp only [heq]
    rw [if_neg (by decide)]
    cases env.versionStep with
    | failed e => exact .inr rfl
    | done => exact .inr rfl
    | row result =>
      by_cases hresult : result < 0
      · simp only [if_pos hresult]
        exact .inr rfl
      · simp only [if_neg hresult]
        exact .inr rfl
  · simp only [if_pos hret]
    exact .inl hevents

/-- **An upgrade fails** exactly if the version cannot be read, is unknown, or a script fails. -/
theorem storageSqliteUpgrade_ret (env : Env) :
    (storageSqliteUpgrade env).ret < 0 ↔ ¬ Upgradable env := by
  unfold storageSqliteUpgrade
  rcases sqliteGetUserVersion_spec env 0 with ⟨hret, hnone⟩ | ⟨hret, hversion⟩
  · simp only [if_pos hret]
    refine iff_of_true hret ?_
    rintro ⟨version, hversion, -⟩
    exact hnone version hversion
  · have hread : ¬ (sqliteGetUserVersion env 0).1.ret < 0 := by
      rw [hret]
      decide
    have hupgradable : Upgradable env ↔ (sqliteGetUserVersion env 0).2 ≤ env.newest ∧
        ∀ i, (sqliteGetUserVersion env 0).2 ≤ i → i < env.newest → (env.script i).Works := by
      constructor
      · rintro ⟨version, hversion', hrest⟩
        rwa [hversion.unique hversion']
      · exact fun hrest => ⟨_, hversion, hrest⟩
    simp only [if_neg hread, hupgradable]
    by_cases hnew : env.newest < (sqliteGetUserVersion env 0).2
    · rw [if_pos hnew]
      refine iff_of_true (show (-1 : Int32) < 0 by decide) ?_
      rintro ⟨hle, -⟩
      omega
    · rw [if_neg hnew]
      by_cases heq : (sqliteGetUserVersion env 0).2 = env.newest
      · rw [if_pos heq]
        refine iff_of_false (show ¬ (0 : Int32) < 0 by decide) (not_not.2 ⟨by omega, ?_⟩)
        intro i hle hlt
        omega
      · rw [if_neg heq, storageSqliteUpgradeFromTo_ret]
        constructor
        · rintro ⟨i, hle, hlt, hi⟩ ⟨-, hworks⟩
          exact hi (hworks i hle (by omega))
        · intro hnot
          by_contra hall
          refine hnot ⟨by omega, fun i hle hlt => ?_⟩
          by_contra hi
          exact hall ⟨i, hle, by omega, hi⟩

theorem storageSqliteSetup_ret (env : Env) :
    (storageSqliteSetup env).ret < 0 ↔ ¬ (env.foreignKeys = none ∧ Upgradable env) := by
  unfold storageSqliteSetup
  cases env.foreignKeys with
  | some e => exact iff_of_true e.2 (by simp)
  | none => simpa using storageSqliteUpgrade_ret env

theorem storageSqliteSetup_events (env : Env) :
    (storageSqliteSetup env).events = [] ∨
      (storageSqliteSetup env).events =
        [.acquire (.stmt .userVersion), .use (.stmt .userVersion),
          .release (.stmt .userVersion)] := by
  have hupgrade : (storageSqliteUpgrade env).events = (sqliteGetUserVersion env 0).1.events := by
    simp only [storageSqliteUpgrade]
    split
    · rfl
    · split
      · rfl
      · split <;> rfl
  unfold storageSqliteSetup
  cases env.foreignKeys with
  | some e => exact .inl rfl
  | none =>
    simp only [hupgrade]
    exact sqliteGetUserVersion_events env 0

/-! ## The statements -/

/-- The statement a resource is part of. -/
def Res.stmtId : Res → Option StmtId
  | .stmt id => some id
  | .mutex id => some id
  | _ => none

/-- **`prepared_stmt_init`** acquires a statement and its mutex, or fails with neither. -/
theorem preparedStmtInit_cases (env : Env) (id : StmtId) :
    (Preparable env id ∧
        preparedStmtInit env id = ⟨0, [.acquire (.mutex id), .acquire (.stmt id)]⟩) ∨
      (¬ Preparable env id ∧ (preparedStmtInit env id).ret < 0 ∧
        ((preparedStmtInit env id).events = [] ∨
          (preparedStmtInit env id).events = [.acquire (.mutex id), .release (.mutex id)])) := by
  unfold preparedStmtInit Preparable
  cases hmutex : env.mutex id with
  | some e => exact .inr ⟨by simp, e.2, .inl rfl⟩
  | none =>
    rcases sqlitePrepare_cases env id with ⟨hprepare, heq⟩ | ⟨hprepare, hret, hevents⟩
    · rw [heq]
      exact .inl ⟨⟨rfl, hprepare⟩, if_neg (show ¬ (0 : Int32) < 0 by decide)⟩
    · simp only [if_pos hret, hevents]
      exact .inr ⟨fun h => hprepare h.2, hret, .inr rfl⟩

theorem preparedStmtInit_failed {env : Env} {id : StmtId} {r : Res} {events : List (Event Res)}
    (hfails : ¬ Preparable env id) (hfresh : history r events = []) :
    Settled r (events ++ (preparedStmtInit env id).events) := by
  rcases preparedStmtInit_cases env id with ⟨h, -⟩ | ⟨-, -, h | h⟩
  · exact absurd h hfails
  · rw [h]
    exact .inl (by simpa using hfresh)
  · rw [h]
    by_cases hr : r = .mutex id
    · have hheld : Held r (events ++ [.acquire (.mutex id)]) :=
        held_acquire hfresh (by simp [history_cons, Event.resource, hr])
      have hsettled : Settled r (events ++ [.acquire (.mutex id)] ++ [.release (.mutex id)]) :=
        hheld.release (by simp [history_cons, Event.resource, hr])
      rwa [List.append_assoc] at hsettled
    · refine .inl ?_
      simp [hfresh, history_cons, Event.resource, Ne.symm hr]

theorem preparedStmtInit_held {env : Env} {id : StmtId} {r : Res} {events : List (Event Res)}
    (hworks : Preparable env id) (hr : r.stmtId = some id) (hfresh : history r events = []) :
    Held r (events ++ (preparedStmtInit env id).events) := by
  rcases preparedStmtInit_cases env id with ⟨-, h⟩ | ⟨h, -⟩
  · rw [h]
    refine held_acquire hfresh ?_
    cases r with
    | stmt id' =>
      cases hr
      simp [history_cons, Event.resource]
    | mutex id' =>
      cases hr
      simp [history_cons, Event.resource]
    | _ => cases hr
  · exact absurd hworks h

theorem preparedStmtInit_frame {env : Env} {id : StmtId} {r : Res} (hr : r.stmtId ≠ some id) :
    history r (preparedStmtInit env id).events = [] := by
  have hmutex : Res.mutex id ≠ r := fun h => hr (by rw [← h]; rfl)
  have hstmt : Res.stmt id ≠ r := fun h => hr (by rw [← h]; rfl)
  rcases preparedStmtInit_cases env id with ⟨-, h⟩ | ⟨-, -, h | h⟩ <;> rw [h] <;>
    simp [history_cons, Event.resource, hmutex, hstmt]

theorem preparedStmtDestroy_history (id : StmtId) (r : Res) :
    history r (preparedStmtDestroy id) = if r.stmtId = some id then [.release r] else [] := by
  unfold preparedStmtDestroy sqliteFinalize
  by_cases hr : r.stmtId = some id
  · rw [if_pos hr]
    cases r with
    | stmt id' =>
      cases hr
      simp [history_cons, Event.resource]
    | mutex id' =>
      cases hr
      simp [history_cons, Event.resource]
    | _ => cases hr
  · have hmutex : Res.mutex id ≠ r := fun h => hr (by rw [← h]; rfl)
    have hstmt : Res.stmt id ≠ r := fun h => hr (by rw [← h]; rfl)
    simp [history_cons, Event.resource, hmutex, hstmt, hr]

theorem Res.stmtId_ne {r : Res} {id id' : StmtId} (hr : r.stmtId = some id') (hne : id' ≠ id) :
    r.stmtId ≠ some id := by
  rw [hr]
  simpa using hne

theorem destroyAll_frame {r : Res} {ids : List StmtId} (h : ∀ id ∈ ids, r.stmtId ≠ some id) :
    history r (ids.flatMap preparedStmtDestroy) = [] := by
  rw [history, List.filter_flatMap, List.flatMap_eq_nil_iff]
  intro id hid
  have hdestroy := preparedStmtDestroy_history id r
  rwa [if_neg (h id hid)] at hdestroy

/-- **Destroying statements** releases what is part of one of them, once. -/
theorem destroyAll_release {r : Res} {id : StmtId} (hr : r.stmtId = some id) (ids : List StmtId)
    (hnodup : ids.Nodup) (hid : id ∈ ids) :
    history r (ids.flatMap preparedStmtDestroy) = [.release r] := by
  induction ids with
  | nil => cases hid
  | cons id' ids ih =>
    obtain ⟨hnot, hids⟩ := List.nodup_cons.1 hnodup
    rw [List.flatMap_cons, history_append, preparedStmtDestroy_history]
    rcases List.mem_cons.1 hid with rfl | hmem
    · have hrest : ∀ id' ∈ ids, r.stmtId ≠ some id' := by
        intro id' hmem
        refine Res.stmtId_ne hr ?_
        rintro rfl
        exact hnot hmem
      rw [if_pos hr, destroyAll_frame hrest, List.append_nil]
    · have hne : id ≠ id' := by
        rintro rfl
        exact hnot hmem
      rw [if_neg (Res.stmtId_ne hr hne), ih hids hmem, List.nil_append]

/-- What holds of a ledger while statements are prepared: those in `done` are held, and nothing
has happened to the others. -/
structure Preparing (done todo : List StmtId) (events : List (Event Res)) : Prop where
  held : ∀ r, (∃ id ∈ done, r.stmtId = some id) → Held r events
  fresh : ∀ r, (∃ id ∈ todo, r.stmtId = some id) → history r events = []

theorem Preparing.next {env : Env} {done todo : List StmtId} {id : StmtId}
    {events : List (Event Res)} (h : Preparing done (id :: todo) events)
    (hnodup : (id :: (done ++ todo)).Nodup) (hworks : Preparable env id) :
    Preparing (id :: done) todo (events ++ (preparedStmtInit env id).events) := by
  have hid := (List.nodup_cons.1 hnodup).1
  constructor
  · rintro r ⟨id', hmem, hr⟩
    rcases List.mem_cons.1 hmem with rfl | hmem
    · exact preparedStmtInit_held hworks hr (h.fresh r ⟨id', List.mem_cons_self, hr⟩)
    · have hne : id' ≠ id := fun heq => hid (List.mem_append_left _ (heq ▸ hmem))
      exact (h.held r ⟨id', hmem, hr⟩).frame (preparedStmtInit_frame (Res.stmtId_ne hr hne))
  · rintro r ⟨id', hmem, hr⟩
    have hne : id' ≠ id := fun heq => hid (List.mem_append_right _ (heq ▸ hmem))
    rw [history_append, h.fresh r ⟨id', List.mem_cons_of_mem _ hmem, hr⟩,
      preparedStmtInit_frame (Res.stmtId_ne hr hne), List.append_nil]

theorem Preparing.unwind {env : Env} {done todo : List StmtId} {id : StmtId}
    {events : List (Event Res)} (h : Preparing done (id :: todo) events)
    (hnodup : (done ++ id :: todo).Nodup) (hfails : ¬ Preparable env id) {r : Res}
    (hr : ∃ id' ∈ done ++ id :: todo, r.stmtId = some id') :
    Settled r (events ++ (preparedStmtInit env id).events ++ done.flatMap preparedStmtDestroy) := by
  obtain ⟨hdone, -, hdisjoint⟩ := List.nodup_append.1 hnodup
  obtain ⟨id', hmem, hr⟩ := hr
  rcases List.mem_append.1 hmem with hmem | hmem
  · -- it has been initialised before
    have hne : id' ≠ id := hdisjoint id' hmem id List.mem_cons_self
    refine ((h.held r ⟨id', hmem, hr⟩).frame
      (preparedStmtInit_frame (Res.stmtId_ne hr hne))).release ?_
    exact destroyAll_release hr done hdone hmem
  · refine (preparedStmtInit_failed hfails (h.fresh r ⟨id', hmem, hr⟩)).frame ?_
    exact destroyAll_frame fun id'' hmem'' =>
      Res.stmtId_ne hr (hdisjoint id'' hmem'' id' hmem).symm

/-- **The six statements**: if one of them cannot be initialised the value is negative, and every
one of them is settled; else every one of them is held. -/
theorem prepareFrom_spec (env : Env) (todo : List StmtId) :
    ∀ {done : List StmtId} {events : List (Event Res)}, (done ++ todo).Nodup →
      Preparing done todo events →
      ((prepareFrom env done todo).ret < 0 ∧ (∃ id ∈ todo, ¬ Preparable env id) ∧
          ∀ r, (∃ id ∈ done ++ todo, r.stmtId = some id) →
            Settled r (events ++ (prepareFrom env done todo).events)) ∨
        ((prepareFrom env done todo).ret = 0 ∧ (∀ id ∈ todo, Preparable env id) ∧
          ∀ r, (∃ id ∈ done ++ todo, r.stmtId = some id) →
            Held r (events ++ (prepareFrom env done todo).events)) := by
  induction todo with
  | nil =>
    intro done events hnodup hpreparing
    refine .inr ⟨rfl, by simp, ?_⟩
    intro r hr
    simpa [prepareFrom] using hpreparing.held r (by simpa using hr)
  | cons id todo ih =>
    intro done events hnodup hpreparing
    rcases preparedStmtInit_cases env id with ⟨hworks, hinit⟩ | ⟨hfails, hret, -⟩
    · have hret : ¬ (preparedStmtInit env id).ret < 0 := by
        rw [hinit]
        exact show ¬ (0 : Int32) < 0 by decide
      have hnodup' : (id :: (done ++ todo)).Nodup := List.perm_middle.nodup_iff.1 hnodup
      have hmem : ∀ r : Res, (∃ id' ∈ done ++ id :: todo, r.stmtId = some id') ↔
          ∃ id' ∈ id :: done ++ todo, r.stmtId = some id' := fun r => by
        simp only [List.perm_middle.mem_iff, List.cons_append]
      simp only [prepareFrom, if_neg hret, ← List.append_assoc, hmem]
      rcases ih hnodup' (hpreparing.next hnodup' hworks) with
        ⟨hlt, ⟨id', hmem', hnot⟩, h⟩ | ⟨hzero, hall, h⟩
      · exact .inl ⟨hlt, ⟨id', List.mem_cons_of_mem _ hmem', hnot⟩, h⟩
      · exact .inr ⟨hzero, List.forall_mem_cons.2 ⟨hworks, hall⟩, h⟩
    · simp only [prepareFrom, if_pos hret, ← List.append_assoc]
      exact .inl ⟨hret, ⟨id, List.mem_cons_self, hfails⟩, fun r hr =>
        hpreparing.unwind hnodup hfails hr⟩

theorem prepareFrom_frame {env : Env} {r : Res} (todo : List StmtId) :
    ∀ {done : List StmtId}, (∀ id ∈ done, r.stmtId ≠ some id) →
      (∀ id ∈ todo, r.stmtId ≠ some id) → history r (prepareFrom env done todo).events = [] := by
  induction todo with
  | nil =>
    intro done _ _
    rfl
  | cons id todo ih =>
    intro done hdone htodo
    obtain ⟨hid, htodo⟩ := List.forall_mem_cons.1 htodo
    simp only [prepareFrom]
    split
    · rw [history_append, preparedStmtInit_frame hid, List.nil_append]
      exact destroyAll_frame hdone
    · rw [history_append, preparedStmtInit_frame hid, List.nil_append]
      exact ih (List.forall_mem_cons.2 ⟨hid, hdone⟩) htodo

/-! ## The start-up -/

theorem storageSqliteSetup_frame {env : Env} {r : Res} (hr : r ≠ .stmt .userVersion) :
    history r (storageSqliteSetup env).events = [] := by
  rcases storageSqliteSetup_events env with h | h <;> rw [h] <;>
    simp [history_cons, Event.resource, Ne.symm hr]

theorem storageSqliteSetup_settled {env : Env} {events : List (Event Res)}
    (hfresh : history (.stmt .userVersion) events = []) :
    Settled (.stmt .userVersion) (events ++ (storageSqliteSetup env).events) := by
  rcases storageSqliteSetup_events env with h | h <;> rw [h]
  · exact .inl (by simpa using hfresh)
  · have hheld : Held (.stmt .userVersion) (events ++ [.acquire (Res.stmt .userVersion)]) :=
      held_acquire hfresh rfl
    have hused : Held (.stmt .userVersion) (events ++ [.acquire (Res.stmt .userVersion)] ++
        [.use (.stmt .userVersion)]) := hheld.use (by simp [history_cons, Event.resource])
    have hsettled : Settled (.stmt .userVersion) (events ++ [.acquire (Res.stmt .userVersion)] ++
        [.use (.stmt .userVersion)] ++ [.release (.stmt .userVersion)]) := hused.release rfl
    simpa using hsettled

/-- What is done with an open database: `storage_sqlite_setup`, and the statements. -/
def startOpened (env : Env) : Ran :=
  let setup := storageSqliteSetup env
  if setup.ret < 0 then setup
  else
    let prepared := storageSqlitePrepareStatements env
    ⟨prepared.ret, setup.events ++ prepared.events⟩

/-- Nothing of it fails. -/
def Works (env : Env) : Prop :=
  (env.foreignKeys = none ∧ Upgradable env) ∧ ∀ id ∈ storageStmts, Preparable env id

theorem storageStmts_nodup : storageStmts.Nodup := by decide

theorem Res.stmtId_cases (r : Res) :
    r.stmtId = none ∨ r.stmtId = some .userVersion ∨ ∃ id ∈ storageStmts, r.stmtId = some id := by
  cases r with
  | stmt id => cases id <;> simp [Res.stmtId, storageStmts]
  | mutex id => cases id <;> simp [Res.stmtId, storageStmts]
  | _ => exact .inl rfl

theorem startOpened_frame (env : Env) {r : Res} (hr : r.stmtId = none) :
    history r (startOpened env).events = [] := by
  have hsetup : history r (storageSqliteSetup env).events = [] := by
    refine storageSqliteSetup_frame ?_
    rintro rfl
    cases hr
  have hprepared : history r (storageSqlitePrepareStatements env).events = [] :=
    prepareFrom_frame storageStmts (by simp) (by simp [hr])
  simp only [startOpened]
  split
  · exact hsetup
  · rw [history_append, hsetup, hprepared, List.append_nil]

/-- **An open database** is set up and its statements are held, or the value is negative and every
statement is settled. -/
theorem startOpened_spec (env : Env) (events : List (Event Res))
    (hfresh : ∀ r : Res, r.stmtId ≠ none → history r events = []) :
    ((startOpened env).ret < 0 ∧ ¬ Works env ∧
        ∀ r : Res, r.stmtId ≠ none → Settled r (events ++ (startOpened env).events)) ∨
      (¬ (startOpened env).ret < 0 ∧ Works env ∧
        (∀ r : Res, (∃ id ∈ storageStmts, r.stmtId = some id) →
          Held r (events ++ (startOpened env).events)) ∧
        ∀ r : Res, r.stmtId = some .userVersion →
          Settled r (events ++ (startOpened env).events)) := by
  -- the setup settles every part of a statement
  have hsetup : ∀ r : Res, r.stmtId ≠ none →
      Settled r (events ++ (storageSqliteSetup env).events) := by
    intro r hr
    by_cases heq : r = .stmt .userVersion
    · rw [heq]
      exact storageSqliteSetup_settled (hfresh _ (by simp [Res.stmtId]))
    · refine .inl ?_
      rw [history_append, hfresh r hr, storageSqliteSetup_frame heq, List.append_nil]
  have hversion : ∀ r : Res, r.stmtId = some .userVersion →
      history r (storageSqlitePrepareStatements env).events = [] := by
    intro r hr
    refine prepareFrom_frame storageStmts (by simp) ?_
    rw [hr]
    decide
  have hpreparing : Preparing [] storageStmts (events ++ (storageSqliteSetup env).events) := by
    constructor
    · rintro r ⟨id, hid, -⟩
      cases hid
    · rintro r ⟨id, hid, hr⟩
      rw [history_append, hfresh r (by simp [hr]), storageSqliteSetup_frame, List.append_nil]
      rintro rfl
      cases hr
      revert hid
      decide
  have hret := storageSqliteSetup_ret env
  unfold startOpened
  by_cases hfails : (storageSqliteSetup env).ret < 0
  · simp only [if_pos hfails]
    exact .inl ⟨hfails, fun hworks => hret.1 hfails hworks.1, hsetup⟩
  · simp only [if_neg hfails, ← List.append_assoc]
    have hworks : env.foreignKeys = none ∧ Upgradable env := not_not.1 (mt hret.2 hfails)
    rcases prepareFrom_spec env storageStmts (show ([] ++ storageStmts).Nodup from storageStmts_nodup)
        hpreparing with
      ⟨hlt, ⟨id, hid, hnot⟩, hsettled⟩ | ⟨hzero, hall, hheld⟩
    · refine .inl ⟨hlt, fun h => hnot (h.2 id hid), ?_⟩
      intro r hr
      rcases r.stmtId_cases with hnone | huser | hsix
      · exact absurd hnone hr
      · exact (hsetup r hr).frame (hversion r huser)
      · exact hsettled r hsix
    · refine .inr ⟨?_, ⟨hworks, hall⟩, hheld, ?_⟩
      · show ¬ (prepareFrom env [] storageStmts).ret < 0
        rw [hzero]
        decide
      · intro r hr
        exact (hsetup r (by simp [hr])).frame (hversion r hr)

/-- The ledger when the database has been opened. -/
def openedLedger (handle : Nat) : List (Event Res) :=
  [.acquire .memory, .acquire .library, .acquire (.db handle)]

theorem storageSqliteCreate_opened {env : Env} {handle : Nat} (hmalloc : env.mallocOk = true)
    (hinit : env.libraryInit = none) (hopened : env.opened = .ok handle) :
    storageSqliteCreate env =
      if (startOpened env).ret < 0 then
        ⟨⟨(startOpened env).ret,
          openedLedger handle ++ (startOpened env).events ++ closeLabel env⟩, true, false⟩
      else ⟨⟨(startOpened env).ret, openedLedger handle ++ (startOpened env).events⟩,
        false, true⟩ := by
  simp only [storageSqliteCreate, startOpened, hmalloc, hinit, hopened, Bool.not_true,
    Bool.false_eq_true, if_false]
  split
  · rfl
  · split <;> simp [openedLedger]

theorem history_of_stmtId {r : Res} {events : List (Event Res)} (hr : r.stmtId ≠ none)
    (h : ∀ e ∈ events, e.resource.stmtId = none) : history r events = [] := by
  apply List.filter_eq_nil_iff.2
  intro e he heq
  apply hr
  rw [← of_decide_eq_true heq]
  exact h e he

theorem openedLedger_fresh {handle : Nat} (r : Res) (hr : r.stmtId ≠ none) :
    history r (openedLedger handle) = [] :=
  history_of_stmtId hr (by simp [openedLedger, Event.resource, Res.stmtId])

theorem succeeds_iff {env : Env} {handle : Nat} (hmalloc : env.mallocOk = true)
    (hinit : env.libraryInit = none) (hopened : env.opened = .ok handle) :
    Succeeds env ↔ Works env :=
  ⟨fun h => ⟨⟨h.foreignKeys, h.upgradable⟩, h.preparable⟩,
    fun h => ⟨hmalloc, hinit, ⟨handle, hopened⟩, h.1.1, h.1.2, h.2⟩⟩

/-- **A failure before there is an open database** settles everything but the handle that
opening it may have left. -/
theorem storageSqliteCreate_unopened {env : Env}
    (h : ∀ handle, ¬ (env.mallocOk = true ∧ env.libraryInit = none ∧ env.opened = .ok handle)) :
    ((storageSqliteCreate env).ret < 0 ∧ (storageSqliteCreate env).readsCaller = false ∧
        (storageSqliteCreate env).assigned = false) ∧
      (∀ r, (∀ handle, r ≠ .db handle) → Settled r (storageSqliteCreate env).events) ∧
      ((∀ handle, Settled (.db handle) (storageSqliteCreate env).events) ↔
        ¬ ObtainsHandle env) := by
  unfold storageSqliteCreate ObtainsHandle
  cases hmalloc : env.mallocOk with
  | false => exact ⟨⟨show (-1 : Int32) < 0 by decide, rfl, rfl⟩, fun r _ => .inl rfl,
      iff_of_true (fun _ => .inl rfl) (by simp)⟩
  | true =>
    cases hinit : env.libraryInit with
    | some e =>
      refine ⟨⟨e.2, rfl, rfl⟩, fun r _ => ?_, iff_of_true (fun _ => .inl rfl) (by simp)⟩
      cases r with
      | memory => exact settled_of_history rfl
      | _ => exact .inl rfl
    | none =>
      cases hopened : env.opened with
      | ok handle => exact absurd ⟨hmalloc, hinit, hopened⟩ (h handle)
      | failed e left =>
        refine ⟨⟨e.2, rfl, rfl⟩, fun r hr => ?_, ?_⟩
        · cases r with
          | memory => cases left <;> exact settled_of_history rfl
          | library => cases left <;> exact settled_of_history rfl
          | db handle => exact absurd rfl (hr handle)
          | _ => cases left <;> exact .inl rfl
        · cases left with
          | none => exact iff_of_true (fun _ => .inl rfl) (by simp [Opened.handle])
          | some handle =>
            refine iff_of_false ?_ (by simp [Opened.handle])
            intro hsettled
            have hheld : Held (.db handle) ([.acquire .memory, .acquire .library] ++
                (.acquire (.db handle) :: destroyLabel)) :=
              held_acquire rfl (by simp [history_cons, Event.resource, destroyLabel])
            exact hheld.not_settled (hsettled handle)

/-- **Every start-up**: there is no open database; or there is one, a step fails and the label
`close` is passed; or there is one and no step fails. -/
theorem storageSqliteCreate_cases (env : Env) :
    (¬ Succeeds env ∧ ∀ handle,
        ¬ (env.mallocOk = true ∧ env.libraryInit = none ∧ env.opened = .ok handle)) ∨
      (∃ handle, ¬ Succeeds env ∧ ObtainsHandle env ∧ (startOpened env).ret < 0 ∧
        storageSqliteCreate env = ⟨⟨(startOpened env).ret,
          openedLedger handle ++ (startOpened env).events ++ closeLabel env⟩, true, false⟩ ∧
        ∀ r : Res, r.stmtId ≠ none →
          Settled r (openedLedger handle ++ (startOpened env).events)) ∨
      (∃ handle, Succeeds env ∧ env.opened = .ok handle ∧ ¬ (startOpened env).ret < 0 ∧
        storageSqliteCreate env = ⟨⟨(startOpened env).ret,
          openedLedger handle ++ (startOpened env).events⟩, false, true⟩ ∧
        (∀ r : Res, (∃ id ∈ storageStmts, r.stmtId = some id) →
          Held r (openedLedger handle ++ (startOpened env).events)) ∧
        ∀ r : Res, r.stmtId = some .userVersion →
          Settled r (openedLedger handle ++ (startOpened env).events)) := by
  by_cases h : ∃ handle,
      env.mallocOk = true ∧ env.libraryInit = none ∧ env.opened = .ok handle
  · obtain ⟨handle, hmalloc, hinit, hopened⟩ := h
    have hsucceeds := succeeds_iff hmalloc hinit hopened
    rw [storageSqliteCreate_opened hmalloc hinit hopened]
    rcases startOpened_spec env (openedLedger handle) openedLedger_fresh with
      ⟨hlt, hnot, hsettled⟩ | ⟨hge, hworks, hheld, hversion⟩
    · refine .inr (.inl ⟨handle, mt hsucceeds.1 hnot, ⟨hmalloc, hinit, ?_⟩, hlt, if_pos hlt,
        hsettled⟩)
      rw [hopened]
      rfl
    · exact .inr (.inr ⟨handle, hsucceeds.2 hworks, hopened, hge, if_neg hge, hheld, hversion⟩)
  · refine .inl ⟨?_, not_exists.1 h⟩
    intro hsucceeds
    obtain ⟨handle, hopened⟩ := hsucceeds.opened
    exact h ⟨handle, hsucceeds.allocated, hsucceeds.initialised, hopened⟩

/-- **The value is negative exactly if a step fails.** -/
theorem storageSqliteCreate_ret (env : Env) :
    (storageSqliteCreate env).ret < 0 ↔ ¬ Succeeds env := by
  rcases storageSqliteCreate_cases env with
    ⟨hnot, hunopened⟩ | ⟨handle, hnot, -, hlt, heq, -⟩ | ⟨handle, hsucceeds, -, hge, heq, -⟩
  · exact iff_of_true (storageSqliteCreate_unopened hunopened).1.1 hnot
  · rw [heq]
    exact iff_of_true hlt hnot
  · rw [heq]
    exact iff_of_false hge (not_not.2 hsucceeds)

/-- **A failure settles everything but database handles**: the memory, the library, and every
statement with its mutex. -/
theorem create_settles_rest {env : Env} (hfails : ¬ Succeeds env) (r : Res)
    (hr : ∀ handle, r ≠ .db handle) : Settled r (storageSqliteCreate env).events := by
  rcases storageSqliteCreate_cases env with
    ⟨-, hunopened⟩ | ⟨handle, -, -, -, heq, hsettled⟩ | ⟨handle, hsucceeds, -⟩
  · exact (storageSqliteCreate_unopened hunopened).2.1 r hr
  · rw [heq]
    by_cases hstmt : r.stmtId = none
    · -- the memory or the library
      have hframe := startOpened_frame env hstmt
      cases r with
      | db handle => exact absurd rfl (hr handle)
      | stmt id => cases hstmt
      | mutex id => cases hstmt
      | _ =>
        apply settled_of_history
        simp [openedLedger, closeLabel, destroyLabel, history_cons, Event.resource, hframe]
    · apply (hsettled r hstmt).frame
      exact history_of_stmtId hstmt (by simp [closeLabel, destroyLabel, Event.resource, Res.stmtId])
  · exact absurd hsucceeds hfails

theorem storageSqliteDestroy_history {handle : Nat} {r : Res} (hr : r.stmtId ≠ none) :
    history r (storageSqliteDestroy handle) =
      history r (storageStmts.reverse.flatMap preparedStmtDestroy) := by
  have hclosing : history r (.release (.db handle) :: destroyLabel) = [] :=
    history_of_stmtId hr (by simp [destroyLabel, Event.resource, Res.stmtId])
  unfold storageSqliteDestroy storageSqliteFinalizeStatements
  rw [history_append, hclosing, List.append_nil]

/-- **A storage that is created and destroyed** leaves nothing behind. -/
theorem create_destroy_settled {env : Env} {handle : Nat} (h : Succeeds env)
    (hopened : env.opened = .ok handle) (r : Res) :
    Settled r ((storageSqliteCreate env).events ++ storageSqliteDestroy handle) := by
  rcases storageSqliteCreate_cases env with
    ⟨hnot, -⟩ | ⟨handle', hnot, -⟩ | ⟨handle', -, hopened', -, heq, hheld, hversion⟩
  · exact absurd h hnot
  · exact absurd h hnot
  · rw [hopened] at hopened'
    cases hopened'
    rw [heq]
    rcases r.stmtId_cases with hnone | huser | ⟨id, hid, hr⟩
    · have hframe := startOpened_frame env hnone
      have hfinalize : history r storageSqliteFinalizeStatements = [] :=
        destroyAll_frame (by simp [hnone])
      cases r with
      | stmt id => cases hnone
      | mutex id => cases hnone
      | db handle' =>
        by_cases heq : handle = handle'
        · apply settled_of_history
          simp [openedLedger, storageSqliteDestroy, destroyLabel, history_cons, Event.resource,
            hframe, hfinalize, heq]
        · refine .inl ?_
          simp [openedLedger, storageSqliteDestroy, destroyLabel, history_cons, Event.resource,
            hframe, hfinalize, heq]
      | _ =>
        apply settled_of_history
        simp [openedLedger, storageSqliteDestroy, destroyLabel, history_cons, Event.resource,
          hframe, hfinalize]
    · apply (hversion r huser).frame
      rw [storageSqliteDestroy_history (by simp [huser])]
      apply destroyAll_frame
      rw [huser]
      decide
    · apply (hheld r ⟨id, hid, hr⟩).release
      rw [storageSqliteDestroy_history (by simp [hr])]
      exact destroyAll_release hr _ (by decide) (List.mem_reverse.2 hid)

/-- **A failing start-up is clean exactly if it has obtained no handle**: once a database is open,
the label `close` reads the caller's storage, and a handle that is left by an open that fails is
not closed. -/
theorem start_up_clean_iff (env : Env) :
    (¬ Succeeds env → Clean (storageSqliteCreate env)) ↔ (Succeeds env ∨ ¬ ObtainsHandle env) := by
  rcases storageSqliteCreate_cases env with
    ⟨hnot, hunopened⟩ | ⟨handle, hnot, hobtains, -, heq, -⟩ | ⟨handle, hsucceeds, -⟩
  · obtain ⟨⟨hret, hunread, hunset⟩, hrest, hclosed⟩ := storageSqliteCreate_unopened hunopened
    constructor
    · intro hclean
      exact .inr (hclosed.1 (hclean hnot).closed)
    · rintro (hsucceeds | hobtains) -
      · exact absurd hsucceeds hnot
      · exact ⟨hret, hclosed.2 hobtains, fun id => hrest _ (by simp), hunread, hunset⟩
  · apply iff_of_false
    · intro hclean
      have hunread := (hclean hnot).unread
      rw [heq] at hunread
      cases hunread
    · exact not_or.2 ⟨hnot, not_not.2 hobtains⟩
  · exact iff_of_true (fun hnot => absurd hsucceeds hnot) (.inl hsucceeds)

/-- A database of a version that is newer than the program, and a caller whose memory was last
used for another storage. -/
def newerDatabase : Env where
  newest := 1
  callerDb := 7
  mallocOk := true
  libraryInit := none
  opened := .ok 3
  foreignKeys := none
  versionStep := .row 2
  script _ := ⟨true, true, none⟩
  mutex _ := none
  prepare _ := none

/-- The handle 3 is left open, and the handle 7 is closed. -/
theorem start_up_closes_other :
    (storageSqliteCreate newerDatabase).ret = -1 ∧
      (storageSqliteCreate newerDatabase).readsCaller = true ∧
      .release (.db 7) ∈ (storageSqliteCreate newerDatabase).events ∧
      .release (.db 3) ∉ (storageSqliteCreate newerDatabase).events ∧
      ¬ (¬ Succeeds newerDatabase → Clean (storageSqliteCreate newerDatabase)) := by
  refine ⟨by decide, by decide, by decide, by decide, ?_⟩
  intro hclean
  have hfails : ¬ Succeeds newerDatabase := (storageSqliteCreate_ret newerDatabase).1 (by decide)
  exact absurd (hclean hfails).unread (by decide)

end Cimple.Startup
