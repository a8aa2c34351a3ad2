import Cimple.Server

/-!
# Queueing a run (`server_handle_cmd_queue_run`)

The handler adds a row to the database and then a run to the queue in memory, and both the new
key and the error travel in one `int`.

* `repoKey`, `insertedKeys` — the keys of the repository and of the run that
  `storage_run_create` comes to, if it gets as far as inserting the run.
* `insertedRow`, `keptRows` — the row it inserts, unless that is rolled back.
* `QueueContract` — both stores agree with the answer.
* `Queueable` — the handler fails before it inserts the run; or the row stays, the mutex can be
  locked and both keys are `int`s; or the row is rolled back and the handler fails after all.

Principal results: `storageSqliteRunCreate_keys` and `queue_contract_iff`.
-/

set_option autoImplicit false

namespace Cimple.Enqueueing

open Octets JsonValue Cimple.Json Cimple.JsonRpc Cimple.Command Cimple.RunQueue Cimple.Protocol
  Cimple.Storage Cimple.Servers

/-! ## The keys of a new run -/

/-- The key of the repository of a URL, once the statement of `storage_sqlite_insert_repo` has
been executed: that of the row there is, or that of a new row. -/
def repoKey (candidate : Option Int) (db : Db) (url : CStr) : Option Int :=
  (repoFind db url).or (newRowid candidate (db.repos.map RepoRow.id))

/-- The row of a run for a repository, as `storage_sqlite_insert_run` inserts it. -/
def insertedRow (id : Int) (repoId : Int32) (rev : CStr) : RunRow :=
  ⟨id, RunStatus.created.code.toInt, -1, [], repoId.toInt, rev.bytes⟩

/-- What is left of it once the statement is reset. -/
def keptRows (a : Attempt) (row : RunRow) : List RunRow := if a.rollback then [] else [row]

/-- A statement fails. -/
def CreateAttempts.fails (a : CreateAttempts) : Bool :=
  a.insertRepo.fault.isSome || a.findRepo.fault.isSome || a.insertRun.fault.isSome

/-- The keys of the repository and of the run, if `storage_run_create` inserts the run: no
statement fails, there are keys left, and the repository's key, cut to an `int`, is not negative
and is the key of a row. -/
def insertedKeys (a : CreateAttempts) (db : Db) (url : CStr) : Option (Int × Int) :=
  if CreateAttempts.fails a then none
  else do
    let key ← repoKey a.insertRepo.candidate db url
    if columnInt key < 0 ∨ (columnInt key).toInt ∉ key :: db.repos.map RepoRow.id then none
    else
      let id ← newRowid a.insertRun.candidate (db.runs.map RunRow.id)
      some (key, id)

theorem repoFind_of_mem {db : Db} {repo : RepoRow} {url : CStr} (h : repo ∈ db.repos)
    (hurl : repo.url = url.bytes) : repoFind db url = some repo.id := by
  obtain ⟨before, after, hsplit⟩ := List.append_of_mem h
  have hurls := db.repoUrls
  rw [hsplit, List.map_append, List.map_cons, List.nodup_append] at hurls
  have hbefore : before.find? (fun r => r.url = url.bytes) = none := by
    rw [List.find?_eq_none]
    intro r hr heq
    exact hurls.2.2 _ (List.mem_map_of_mem hr) _ List.mem_cons_self
      (by rw [of_decide_eq_true heq, hurl])
  rw [repoFind, hsplit, List.find?_append, hbefore]
  simp [hurl]

theorem repoFind_eq_none {db : Db} {url : CStr} :
    repoFind db url = none ↔ url.bytes ∉ db.repos.map RepoRow.url := by
  simp [repoFind]

/-- **The statement of `storage_sqlite_insert_repo`, if it does not fail**: the URL has a row, with
the key, and at most that row is new. -/
theorem storageSqliteInsertRepoStmt_key {a : Attempt} (hfault : a.fault = none) (db : Db)
    (url : CStr) :
    (repoKey a.candidate db url = none ∧
      storageSqliteInsertRepoStmt a db url = (sqliteFull, db)) ∨
    ∃ key db', repoKey a.candidate db url = some key ∧
      storageSqliteInsertRepoStmt a db url = (0, db') ∧ db'.runs = db.runs ∧
      ⟨key, url.bytes⟩ ∈ db'.repos ∧
      (db'.repos = db.repos ∨ db'.repos = db.repos ++ [⟨key, url.bytes⟩]) := by
  simp only [storageSqliteInsertRepoStmt, hfault, repoKey]
  rcases repoInsert_cases a.candidate db url with
    ⟨hurl, h⟩ | ⟨hurl, hid, h⟩ | ⟨hurl, id, db', hid, h, hrepos, hruns⟩
  · obtain ⟨repo, hrepo, heq⟩ := List.mem_map.1 hurl
    have hmem : ⟨repo.id, url.bytes⟩ ∈ db.repos := by
      rw [← heq]
      exact hrepo
    exact .inr ⟨repo.id, db, by simp [repoFind_of_mem hrepo heq], by rw [h], rfl, hmem, .inl rfl⟩
  · exact .inl ⟨by simp [repoFind_eq_none.2 hurl, hid], by rw [h]⟩
  · exact .inr ⟨id, db', by simp [repoFind_eq_none.2 hurl, hid], by rw [h], hruns,
      by simp [hrepos], .inr hrepos⟩

theorem repoIds_iff {db db' : Db} {repo : RepoRow} (hmem : repo ∈ db'.repos)
    (hrepos : db'.repos = db.repos ∨ db'.repos = db.repos ++ [repo]) (n : Int) :
    n ∈ db'.repos.map RepoRow.id ↔ n ∈ repo.id :: db.repos.map RepoRow.id := by
  rcases hrepos with hsame | hnew
  · rw [hsame] at hmem ⊢
    constructor
    · exact List.mem_cons_of_mem _
    · intro h
      rcases List.mem_cons.1 h with rfl | h
      · exact List.mem_map_of_mem hmem
      · exact h
  · rw [hnew, List.map_append, List.mem_append, List.mem_cons, List.map_singleton,
      List.mem_singleton, or_comm]

theorem storageSqliteFindRepo_of_mem {a : Attempt} (hfault : a.fault = none) {db : Db} {key : Int}
    {url : CStr} (h : ⟨key, url.bytes⟩ ∈ db.repos) :
    storageSqliteFindRepo a db url = columnInt key := by
  simp only [storageSqliteFindRepo, hfault, repoFind_of_mem h rfl]

/-- **`storage_sqlite_insert_repo`**: it fails, or the URL has a row, whose key, cut to an `int`,
is returned. -/
theorem storageSqliteInsertRepo_key (a a' : Attempt) (db : Db) (url : CStr) :
    ((a.fault.isSome = true ∨ a'.fault.isSome = true ∨ repoKey a.candidate db url = none) ∧
      ∃ ret db', storageSqliteInsertRepo a a' db url = (ret, db') ∧ ret < 0 ∧
        db'.runs = db.runs) ∨
    ∃ key db', a.fault = none ∧ a'.fault = none ∧ repoKey a.candidate db url = some key ∧
      storageSqliteInsertRepo a a' db url = (columnInt key, db') ∧ db'.runs = db.runs ∧
      ⟨key, url.bytes⟩ ∈ db'.repos ∧
      (db'.repos = db.repos ∨ db'.repos = db.repos ++ [⟨key, url.bytes⟩]) := by
  have hzero : ¬ (0 : Int32) < 0 := by decide
  rcases hinsert : a.fault with _ | e
  · rcases storageSqliteInsertRepoStmt_key hinsert db url with
      ⟨hkey, h⟩ | ⟨key, db', hkey, h, hruns, hmem, hrepos⟩
    · have hfull : sqliteFull < 0 := by decide
      refine .inl ⟨by simp [hkey], sqliteFull, db, ?_, hfull, rfl⟩
      simp only [storageSqliteInsertRepo, h, if_pos hfull]
    · rcases hfind : a'.fault with _ | e
      · refine .inr ⟨key, db', rfl, rfl, hkey, ?_, hruns, hmem, hrepos⟩
        simp only [storageSqliteInsertRepo, h, if_neg hzero,
          storageSqliteFindRepo_of_mem hfind hmem]
      · refine .inl ⟨by simp, e, db', ?_, e.2, hruns⟩
        simp only [storageSqliteInsertRepo, h, if_neg hzero, storageSqliteFindRepo, hfind]
  · refine .inl ⟨by simp, e, db, ?_, e.2, rfl⟩
    simp only [storageSqliteInsertRepo, storageSqliteInsertRepoStmt, hinsert, if_pos e.2]

/-- **`storage_sqlite_insert_run`**: it fails, or it inserts a row, whose key, cut to an `int`, is
returned whether or not the row stays. -/
theorem storageSqliteInsertRun_key (a : Attempt) (db : Db) (repoId : Int32) (rev : CStr) :
    ((a.fault.isSome = true ∨ repoId.toInt ∉ db.repos.map RepoRow.id ∨
        newRowid a.candidate (db.runs.map RunRow.id) = none) ∧
      ∃ ret, storageSqliteInsertRun a db repoId rev = (ret, db) ∧ ret < 0) ∨
    ∃ id db', a.fault = none ∧ repoId.toInt ∈ db.repos.map RepoRow.id ∧
      newRowid a.candidate (db.runs.map RunRow.id) = some id ∧
      storageSqliteInsertRun a db repoId rev = (columnInt id, db') ∧ db'.repos = db.repos ∧
      db'.runs = db.runs ++ keptRows a (insertedRow id repoId rev) := by
  rcases hinsert : a.fault with _ | e
  · rcases runInsert_cases a.candidate db .created repoId.toInt rev with
      ⟨hrepo, h⟩ | ⟨-, hid, h⟩ | ⟨hrepo, id, db', hid, h, hrepos, hruns⟩
    · refine .inl ⟨.inr (.inl hrepo), sqliteConstraint, ?_, by decide⟩
      simp only [storageSqliteInsertRun, hinsert, h]
    · refine .inl ⟨.inr (.inr hid), sqliteFull, ?_, by decide⟩
      simp only [storageSqliteInsertRun, hinsert, h]
    · simp only [storageSqliteInsertRun, hinsert, h, keptRows]
      cases a.rollback with
      | true => exact .inr ⟨id, db, trivial, hrepo, hid, rfl, rfl, (List.append_nil _).symm⟩
      | false => exact .inr ⟨id, db', trivial, hrepo, hid, rfl, hrepos, hruns⟩
  · refine .inl ⟨by simp, e, ?_, e.2⟩
    simp only [storageSqliteInsertRun, hinsert]

/-- **What `storage_run_create` does**: it inserts the run under its key, for the repository that
has the other key cut to an `int`, and returns the run's key cut to an `int`, even if the row does
not stay; or it fails and has inserted no run. -/
theorem storageSqliteRunCreate_keys (a : CreateAttempts) (db : Db) (url rev : CStr) :
    ∃ ret db', storageSqliteRunCreate a db url rev = (ret, db') ∧
      ((insertedKeys a db url = none ∧ ret < 0 ∧ db'.runs = db.runs) ∨
        ∃ key id, insertedKeys a db url = some (key, id) ∧ ¬ columnInt key < 0 ∧
          ret = columnInt id ∧ db'.runs = db.runs ++
            keptRows a.insertRun (insertedRow id (columnInt key) rev) ∧
          ⟨key, url.bytes⟩ ∈ db'.repos) := by
  unfold storageSqliteRunCreate
  rcases storageSqliteInsertRepo_key a.insertRepo a.findRepo db url with
    ⟨hwhy, ret, db₁, h, hret, hruns⟩ | ⟨key, db₁, hinsert, hfind, hkey, h, hruns₁, hmem, hrepos⟩
  · refine ⟨ret, db₁, by simp only [h, if_pos hret], .inl ⟨?_, hret, hruns⟩⟩
    rcases hwhy with hwhy | hwhy | hwhy <;> simp [insertedKeys, CreateAttempts.fails, hwhy]
  · by_cases hcut : columnInt key < 0
    · exact ⟨columnInt key, db₁, by simp only [h, if_pos hcut],
        .inl ⟨by simp [insertedKeys, hkey, hcut], hcut, hruns₁⟩⟩
    · have hids := repoIds_iff hmem hrepos (columnInt key).toInt
      simp only [h, if_neg hcut]
      rcases storageSqliteInsertRun_key a.insertRun db₁ (columnInt key) rev with
        ⟨hwhy, ret, h', hret⟩ | ⟨id, db₂, hrun, hrepo, hid, h', hrepos₂, hruns₂⟩
      · rw [hids, hruns₁] at hwhy
        refine ⟨ret, db₁, h', .inl ⟨?_, hret, hruns₁⟩⟩
        rcases hwhy with hwhy | hwhy | hwhy
        · simp [insertedKeys, CreateAttempts.fails, hwhy]
        · simp only [insertedKeys, hkey, Option.bind_eq_bind, Option.bind_some,
            if_pos (Or.inr hwhy), ite_self]
        · simp [insertedKeys, hkey, hwhy]
      · rw [hids] at hrepo
        rw [hruns₁] at hid hruns₂
        refine ⟨columnInt id, db₂, h', .inr ⟨key, id, ?_, hcut, rfl, hruns₂, ?_⟩⟩
        · have hboth : ¬ (columnInt key < 0 ∨
              (columnInt key).toInt ∉ key :: db.repos.map RepoRow.id) := by
            rintro (hneg | hno)
            · exact hcut hneg
            · exact hno hrepo
          simp only [insertedKeys, CreateAttempts.fails, hinsert, hfind, hrun, hkey,
            Option.isSome_none, Bool.or_self, Bool.false_eq_true, if_false, Option.bind_eq_bind,
            Option.bind_some, if_neg hboth, hid]
        · rw [hrepos₂]
          exact hmem

/-! ## The contract -/

/-- **The contract**: a call that fails has changed neither store and makes no response; a call
that does not has added a row and a run of its number, both with the request's URL and
revision. -/
structure QueueContract (run : Run) (before : Server) (out : Handled Server) : Prop where
  refused : out.ret < 0 → out.state.db.runs = before.db.runs ∧
    out.state.runQueue = before.runQueue ∧ out.response = none
  queued : ¬ out.ret < 0 → ∃ row queued, out.state.db.runs = before.db.runs ++ [row] ∧
    out.state.runQueue = before.runQueue ++ [queued] ∧ queued.id.toInt = row.id ∧
    queued.repoUrl = run.repoUrl ∧ queued.repoRev = run.repoRev ∧
    row.repoRev = run.repoRev.bytes ∧
    ∃ repo ∈ out.state.db.repos, repo.id = row.repoId ∧ repo.url = run.repoUrl.bytes

/-- What an inserted run needs: its row stays, the mutex can be locked and both keys are `int`s, the
run's not a negative one; or its row is rolled back, and the mutex cannot be locked or the run's key
is negative as an `int`. -/
def InsertedOk (env : HandlerEnv) (key id : Int) : Prop :=
  if env.create.insertRun.rollback then env.lockOk = false ∨ columnInt id < 0
  else env.lockOk = true ∧ InInt32 key ∧ InInt32 id ∧ 0 ≤ id

instance (env : HandlerEnv) (key id : Int) : Decidable (InsertedOk env key id) :=
  inferInstanceAs (Decidable (ite _ _ _))

/-- No response can be made; or the run is not inserted; or it has what it needs. -/
def Queueable (env : HandlerEnv) (request : JsonrpcRequest) (db : Db) (run : Run) : Prop :=
  env.responseOk = false ∨ jsonrpcRequestIsNotification request = true ∨
    ∀ key id, insertedKeys env.create db run.repoUrl = some (key, id) → InsertedOk env key id

theorem queueContract_refused {run : Run} {before after : Server} {ret : Int32} (hret : ret < 0)
    (hruns : after.db.runs = before.db.runs) (hqueue : after.runQueue = before.runQueue) :
    QueueContract run before ⟨ret, none, after⟩ :=
  ⟨fun _ => ⟨hruns, hqueue, rfl⟩, fun hnot => absurd hret hnot⟩

theorem jsonrpcResponseCreate_request {request : JsonrpcRequest}
    (h : jsonrpcRequestIsNotification request = false) (result : Json) :
    ∃ response, jsonrpcResponseCreate request result = .ok response := by
  simp only [jsonrpcRequestIsNotification, libjsonHas, Bool.not_eq_false',
    Option.isSome_iff_exists] at h
  obtain ⟨id, hid⟩ := h
  exact ⟨_, jsonrpcResponseCreate_eq hid result⟩

theorem columnInt_neg_iff {n : Int} (h : InInt32 n) : columnInt n < 0 ↔ n < 0 := by
  have hn : (columnInt n).toInt = n := (toInt_ofInt_iff n).2 h
  rw [Int32.lt_iff_toInt_lt, hn]
  rfl

theorem repoKey_of_url {db : Db} {key : Int} {url : CStr} {repoId : Int32} {repo : RepoRow}
    (hkey : ⟨key, url.bytes⟩ ∈ db.repos) (hrepo : repo ∈ db.repos) (hid : repo.id = repoId.toInt)
    (hurl : repo.url = url.bytes) : key = repoId.toInt := by
  have h := repoFind_of_mem hkey rfl
  rw [repoFind_of_mem hrepo hurl, Option.some.injEq] at h
  rw [← hid, h]

theorem serverEnqueueRun_inserted {env : HandlerEnv} {before : Server} {run : Run} {id : Int}
    {db' : Db} (response : JsonrpcResponse)
    (h : storageSqliteRunCreate env.create before.db run.repoUrl run.repoRev =
      (columnInt id, db')) :
    (let (ret, server) := serverEnqueueRun env before run
      if ret < 0 then (⟨ret, none, server⟩ : Handled Server)
      else ⟨ret, some response, server⟩) =
    if columnInt id < 0 then ⟨columnInt id, none, { before with db := db' }⟩
    else if env.lockOk = false then ⟨-1, none, { before with db := db' }⟩
    else ⟨0, some response,
      serverAddRun { before with db := db' } (runSetId run (columnInt id))⟩ := by
  have hfail : (-1 : Int32) < 0 := by decide
  have hzero : ¬ (0 : Int32) < 0 := by decide
  simp only [serverEnqueueRun, h]
  by_cases hneg : columnInt id < 0
  · simp only [if_pos hneg]
  · cases env.lockOk with
    | false => simp only [if_neg hneg, Bool.not_false, if_true, if_pos hfail]
    | true =>
      simp only [if_neg hneg, Bool.not_true, Bool.false_eq_true, if_false, if_neg hzero,
        reduceCtorEq]

/-- **A run whose row is rolled back** is not queued exactly if the mutex cannot be locked or its
key is negative as an `int`. -/
theorem rolledBack_contract {env : HandlerEnv} {before : Server} {run : Run} {id : Int} {db' : Db}
    (response : JsonrpcResponse) (hruns : db'.runs = before.db.runs) :
    QueueContract run before
        (if columnInt id < 0 then ⟨columnInt id, none, { before with db := db' }⟩
        else if env.lockOk = false then ⟨-1, none, { before with db := db' }⟩
        else ⟨0, some response,
          serverAddRun { before with db := db' } (runSetId run (columnInt id))⟩) ↔
      env.lockOk = false ∨ columnInt id < 0 := by
  by_cases hneg : columnInt id < 0
  · simp only [hneg, if_true, or_true, iff_true]
    exact queueContract_refused hneg hruns rfl
  · simp only [hneg, if_false, or_false]
    cases hlock : env.lockOk with
    | false =>
      simp only [if_true, iff_true]
      exact queueContract_refused (by decide) hruns rfl
    | true =>
      simp only [reduceCtorEq, if_false, iff_false]
      intro h
      obtain ⟨row, -, hrow, -⟩ := h.queued (show ¬ (0 : Int32) < 0 by decide)
      have := congrArg List.length (hruns.symm.trans hrow)
      simp at this

/-- **A run whose row stays** is queued, with the mutex, keys that are `int`s, and no other way. -/
theorem kept_contract {env : HandlerEnv} {before : Server} {run : Run} {key id : Int} {db' : Db}
    (response : JsonrpcResponse)
    (hruns : db'.runs = before.db.runs ++ [insertedRow id (columnInt key) run.repoRev])
    (hmem : ⟨key, run.repoUrl.bytes⟩ ∈ db'.repos) :
    QueueContract run before
        (if columnInt id < 0 then ⟨columnInt id, none, { before with db := db' }⟩
        else if env.lockOk = false then ⟨-1, none, { before with db := db' }⟩
        else ⟨0, some response,
          serverAddRun { before with db := db' } (runSetId run (columnInt id))⟩) ↔
      env.lockOk = true ∧ InInt32 key ∧ InInt32 id ∧ 0 ≤ id := by
  -- the row is there, so the contract is about the queue
  have hnew : db'.runs ≠ before.db.runs := by
    intro h
    have := congrArg List.length (hruns.symm.trans h)
    simp at this
  by_cases hneg : columnInt id < 0
  · simp only [if_pos hneg]
    refine ⟨fun h => absurd (h.refused hneg).1 hnew, fun ⟨_, _, hid, hpos⟩ => ?_⟩
    have := (columnInt_neg_iff hid).1 hneg
    omega
  · simp only [if_neg hneg]
    cases hlock : env.lockOk with
    | false =>
      have hfail : (-1 : Int32) < 0 := by decide
      simp only [if_true, Bool.false_eq_true, false_and, iff_false]
      exact fun h => hnew (h.refused hfail).1
    | true =>
      have hzero : ¬ (0 : Int32) < 0 := by decide
      simp only [reduceCtorEq, if_false, true_and]
      constructor
      · intro h
        obtain ⟨row, queued, hrow, hqueued, hnum, -, -, -, repo, hrepo, hrepoId, hurl⟩ :=
          h.queued hzero
        obtain rfl : insertedRow id (columnInt key) run.repoRev = row := by
          simpa using hruns.symm.trans hrow
        obtain rfl : runSetId run (columnInt id) = queued := by
          simpa [serverAddRun, runQueueAddLast] using hqueued
        have hkey := repoKey_of_url hmem hrepo hrepoId hurl
        have hid : InInt32 id := (toInt_ofInt_iff id).1 hnum
        refine ⟨(toInt_ofInt_iff key).1 hkey.symm, hid, ?_⟩
        rw [columnInt_neg_iff hid] at hneg
        omega
      · rintro ⟨hkey, hid, -⟩
        refine ⟨fun h => absurd h hzero, fun _ => ⟨_, _, hruns, rfl, (toInt_ofInt_iff id).2 hid,
          rfl, rfl, rfl, _, hmem, ((toInt_ofInt_iff key).2 hkey).symm, rfl⟩⟩

/-- **A run is inserted and then queued** exactly if it has what it needs. -/
theorem serverEnqueueRun_contract (env : HandlerEnv) (before : Server) (run : Run)
    (response : JsonrpcResponse) :
    QueueContract run before
        (let (ret, server) := serverEnqueueRun env before run
         if ret < 0 then ⟨ret, none, server⟩ else ⟨ret, some response, server⟩) ↔
      ∀ key id, insertedKeys env.create before.db run.repoUrl = some (key, id) →
        InsertedOk env key id := by
  obtain ⟨ret, db', hcreate, hcases⟩ :=
    storageSqliteRunCreate_keys env.create before.db run.repoUrl run.repoRev
  rcases hcases with ⟨hnone, hret, hruns⟩ | ⟨key, id, hkeys, -, rfl, hruns, hmem⟩
  · simp only [serverEnqueueRun, hcreate, if_pos hret, hnone, reduceCtorEq, false_implies,
      implies_true, iff_true]
    exact queueContract_refused hret hruns rfl
  · rw [serverEnqueueRun_inserted response hcreate]
    simp only [hkeys, Option.some.injEq, Prod.mk.injEq, and_imp, forall_apply_eq_imp_iff,
      forall_eq', InsertedOk]
    cases hback : env.create.insertRun.rollback with
    | true =>
      simp only [keptRows, hback, if_true, List.append_nil] at hruns
      simpa only [if_true] using rolledBack_contract response hruns
    | false =>
      simp only [keptRows, hback, Bool.false_eq_true, if_false] at hruns
      simpa only [Bool.false_eq_true, if_false] using kept_contract response hruns hmem

/-- **Queueing a run leaves both stores in agreement with the answer** exactly if no response can
be made, or the run is not inserted; or its row stays, the mutex can be locked and both keys fit the
`int` they are returned in; or its row is rolled back and the call fails all the same. -/
theorem queue_contract_iff (env : HandlerEnv) (request : JsonrpcRequest) (conn : Nat)
    (before : Server) (run : Run) (h : requestParseQueueRun request = .ok run) :
    QueueContract run before (serverHandleCmdQueueRun env request conn before) ↔
      Queueable env request before.db run := by
  have hfail : (-1 : Int32) < 0 := by decide
  simp only [serverHandleCmdQueueRun, h, Queueable]
  cases hresponse : env.responseOk with
  | false => simpa using queueContract_refused hfail rfl rfl
  | true =>
    cases hnotification : jsonrpcRequestIsNotification request with
    | true =>
      obtain ⟨e, he⟩ := jsonrpcResponseCreate_notification hnotification .null
      simpa [he] using queueContract_refused hfail rfl rfl
    | false =>
      obtain ⟨response, he⟩ := jsonrpcResponseCreate_request hnotification .null
      simpa [he] using serverEnqueueRun_contract env before run response

/-- The request `queue-run repo HEAD`. -/
def queueRunRequest : JsonrpcRequest := ⟨queueRunJson 0 (.ofAscii "repo") (.ofAscii "HEAD")⟩

/-- A database whose last run has the largest number an `int` can be. -/
def crowdedDb : Db where
  repos := [⟨1, (CStr.ofAscii "repo").bytes⟩]
  runStatus := v01RunStatus
  runs := [⟨2147483647, 2, 0, [], 1, (CStr.ofAscii "HEAD").bytes⟩]
  statusRows := v01.statusRows
  repoIds := List.nodup_singleton _
  repoUrls := List.nodup_singleton _
  runIds := List.nodup_singleton _
  repoIdsRange := List.forall_mem_singleton.2 (by decide)
  runIdsRange := List.forall_mem_singleton.2 (by decide)
  statusRefs := List.forall_mem_singleton.2 (.tail _ (.head _))
  repoRefs := List.forall_mem_singleton.2 (.head _)

/-- A call in which the commit of the new row fails. -/
def uncommitted : HandlerEnv :=
  { calm with create := ⟨noFault, noFault, { noFault with rollback := true }⟩ }

/-- A call that cannot lock the mutex, and one that gives out the key 2^31, fail and have added a
row; a call whose row is rolled back succeeds and has queued the run without one. -/
theorem queue_run_half_done :
    (∃ run, requestParseQueueRun queueRunRequest = .ok run ∧
      ¬ QueueContract run emptyServer
        (serverHandleCmdQueueRun { calm with lockOk := false } queueRunRequest 4 emptyServer) ∧
      ¬ QueueContract run { emptyServer with db := crowdedDb }
        (serverHandleCmdQueueRun calm queueRunRequest 4 { emptyServer with db := crowdedDb }) ∧
      ¬ QueueContract run emptyServer
        (serverHandleCmdQueueRun uncommitted queueRunRequest 4 emptyServer)) ∧
    (serverHandleCmdQueueRun { calm with lockOk := false } queueRunRequest 4 emptyServer).ret =
      -1 ∧
    (serverHandleCmdQueueRun calm queueRunRequest 4 { emptyServer with db := crowdedDb }).ret =
      -2147483648 ∧
    (serverHandleCmdQueueRun uncommitted queueRunRequest 4 emptyServer).ret = 0 := by
  have hlock : (serverHandleCmdQueueRun { calm with lockOk := false } queueRunRequest 4
    emptyServer).ret = -1 := rfl
  have hcut : (serverHandleCmdQueueRun calm queueRunRequest 4
    { emptyServer with db := crowdedDb }).ret = -2147483648 := rfl
  have hback : (serverHandleCmdQueueRun uncommitted queueRunRequest 4 emptyServer).ret = 0 := rfl
  refine ⟨⟨_, requestParseQueueRun_queueRunJson 0 _ _, fun h => ?_, fun h => ?_, fun h => ?_⟩,
    hlock, hcut, hback⟩
  · have hruns := (h.refused (by rw [hlock]; decide)).1
    exact absurd (congrArg List.length hruns) (by decide)
  · have hruns := (h.refused (by rw [hcut]; decide)).1
    exact absurd (congrArg List.length hruns) (by decide)
  · obtain ⟨row, -, hruns, -⟩ := h.queued (by rw [hback]; decide)
    exact absurd (congrArg List.length hruns) (by simp; decide)

/-- A call that queues the first run. -/
theorem queue_run_done :
    ∃ run, requestParseQueueRun queueRunRequest = .ok run ∧
      QueueContract run emptyServer
        (serverHandleCmdQueueRun calm queueRunRequest 4 emptyServer) := by
  refine ⟨_, requestParseQueueRun_queueRunJson 0 _ _,
    (queue_contract_iff calm queueRunRequest 4 emptyServer _
      (requestParseQueueRun_queueRunJson 0 _ _)).2 (.inr (.inr fun key id hkeys => ?_))⟩
  obtain ⟨rfl, rfl⟩ : 1 = key ∧ 1 = id := by simpa using (Option.some.inj hkeys)
  decide

end Cimple.Enqueueing
