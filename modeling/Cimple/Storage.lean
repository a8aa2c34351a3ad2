import Mathlib.Data.List.Sort
import Cimple.Protocol

/-!
# The storage (`sqlite/v01.sql`, `sqlite.c`, `storage_sqlite.c`)

* `Db` — the tables of the schema with their constraints: keys, unique columns, foreign keys,
  and the two rows of `cimple_run_status`.
* `repoFind`, `repoInsert`, `runInsert`, `runUpdate`, `cimpleRunsView` — the prepared
  statements and the view, as SQLite evaluates them.  Each statement is atomic.  A statement
  commits by itself in its last step; `INSERT ... RETURNING` is stepped only to its row, and
  commits when it is reset.
* `storageSqlite*` — the functions around them.  `Attempt` is what happens to one execution
  of a statement: locking, binding or stepping may fail, and then nothing has changed; or the
  commit of a reset fails, which is only logged, and the inserted row is rolled back.

A call of `storage.c` reaches these functions through a table with one entry.
-/

set_option autoImplicit false

namespace Cimple.Storage

open Octets Cimple.Json Cimple.RunQueue Cimple.Protocol

/-! ## Tables -/

/-- A row of `cimple_repos`. -/
structure RepoRow where
  id : Int
  url : Bytes
  deriving DecidableEq

/-- A row of `cimple_run_status`. -/
structure RunStatusRow where
  id : Int
  label : Bytes
  deriving DecidableEq

/-- A row of `cimple_runs`. -/
structure RunRow where
  id : Int
  status : Int
  exitCode : Int
  output : Bytes
  repoId : Int
  repoRev : Bytes
  deriving DecidableEq

/-- The rows the schema puts into `cimple_run_status`. -/
def v01RunStatus : List RunStatusRow :=
  [⟨1, (CStr.ofAscii "created").bytes⟩, ⟨2, (CStr.ofAscii "finished").bytes⟩]

/-- A database with the schema, foreign keys on. -/
structure Db where
  repos : List RepoRow
  runStatus : List RunStatusRow
  runs : List RunRow
  statusRows : runStatus = v01RunStatus
  repoIds : (repos.map RepoRow.id).Nodup
  repoUrls : (repos.map RepoRow.url).Nodup
  runIds : (runs.map RunRow.id).Nodup
  repoIdsRange : ∀ repo ∈ repos, InInt64 repo.id
  runIdsRange : ∀ run ∈ runs, InInt64 run.id
  statusRefs : ∀ run ∈ runs, run.status ∈ runStatus.map RunStatusRow.id
  repoRefs : ∀ run ∈ runs, run.repoId ∈ repos.map RepoRow.id

/-- The database the schema leaves. -/
def v01 : Db where
  repos := []
  runStatus := v01RunStatus
  runs := []
  statusRows := rfl
  repoIds := List.nodup_nil
  repoUrls := List.nodup_nil
  runIds := List.nodup_nil
  repoIdsRange := by simp
  runIdsRange := by simp
  statusRefs := by simp
  repoRefs := by simp

theorem code_mem_runStatus (db : Db) (status : RunStatus) :
    status.code.toInt ∈ db.runStatus.map RunStatusRow.id := by
  rw [db.statusRows]
  cases status <;> decide

/-! ## Statements -/

/-- `-SQLITE_FULL`, the value `sqlite_step` returns when no key is left. -/
def sqliteFull : Int32 := -13

/-- `-SQLITE_CONSTRAINT`, the value it returns when a reference is to no row. -/
def sqliteConstraint : Int32 := -19

/-- `SELECT id FROM cimple_repos WHERE url = ?`. -/
def repoFind (db : Db) (url : CStr) : Option Int :=
  (db.repos.find? fun repo => repo.url = url.bytes).map RepoRow.id

/-- The key of a new row: one above the largest.  Above the largest of all there is none, and
SQLite tries others; `candidate` is the one it comes up with. -/
def newRowid (candidate : Option Int) (ids : List Int) : Option Int :=
  match ids.max? with
  | none => some 1
  | some last =>
    if last < 9223372036854775807 then some (last + 1)
    else candidate.filter fun id => InInt64 id ∧ id ∉ ids

theorem newRowid_spec {candidate : Option Int} {ids : List Int} {id : Int}
    (hids : ∀ i ∈ ids, InInt64 i) (h : newRowid candidate ids = some id) :
    id ∉ ids ∧ InInt64 id := by
  unfold newRowid at h
  split at h
  · rename_i hnone
    obtain rfl := List.max?_eq_none_iff.1 hnone
    cases h
    exact ⟨by simp, by decide⟩
  · rename_i last hlast
    obtain ⟨hmem, hmax⟩ := List.max?_eq_some_iff.1 hlast
    have hrange := hids last hmem
    unfold InInt64 at hrange
    split at h
    · rename_i hlt
      cases h
      refine ⟨fun hid => ?_, ?_⟩
      · have := hmax _ hid
        omega
      · unfold InInt64
        omega
    · obtain ⟨-, hp⟩ := Option.filter_eq_some_iff.1 h
      have hp := of_decide_eq_true hp
      exact ⟨hp.2, hp.1⟩

/-- `INSERT INTO cimple_repos(url) VALUES (?) ON CONFLICT(url) DO NOTHING`; `none` when no key
is left. -/
def repoInsert (candidate : Option Int) (db : Db) (url : CStr) : Option Db :=
  if hurl : url.bytes ∈ db.repos.map RepoRow.url then some db
  else
    match hid : newRowid candidate (db.repos.map RepoRow.id) with
    | none => none
    | some id => some { db with
        repos := db.repos ++ [⟨id, url.bytes⟩]
        repoIds := by
          have hnew := (newRowid_spec (by simpa using db.repoIdsRange) hid).1
          simpa [List.nodup_append, db.repoIds] using hnew
        repoUrls := by simpa [List.nodup_append, db.repoUrls] using hurl
        repoIdsRange := by
          have hrange := (newRowid_spec (by simpa using db.repoIdsRange) hid).2
          simp only [List.mem_append, List.mem_singleton]
          rintro repo (hrepo | rfl)
          · exact db.repoIdsRange repo hrepo
          · exact hrange
        repoRefs := fun run hrun => by simpa using .inl (by simpa using db.repoRefs run hrun) }

/-- `INSERT INTO cimple_runs(status, exit_code, output, repo_id, repo_rev)
VALUES (?, -1, x'', ?, ?) RETURNING id`. -/
def runInsert (candidate : Option Int) (db : Db) (status : RunStatus) (repoId : Int)
    (rev : CStr) : Except Int32 (Int × Db) :=
  if hrepo : repoId ∈ db.repos.map RepoRow.id then
    match hid : newRowid candidate (db.runs.map RunRow.id) with
    | none => .error sqliteFull
    | some id => .ok (id, { db with
        runs := db.runs ++ [⟨id, status.code.toInt, -1, [], repoId, rev.bytes⟩]
        runIds := by
          have hnew := (newRowid_spec (by simpa using db.runIdsRange) hid).1
          simpa [List.nodup_append, db.runIds] using hnew
        runIdsRange := by
          have hrange := (newRowid_spec (by simpa using db.runIdsRange) hid).2
          simp only [List.mem_append, List.mem_singleton]
          rintro run (hrun | rfl)
          · exact db.runIdsRange run hrun
          · exact hrange
        statusRefs := by
          simp only [List.mem_append, List.mem_singleton]
          rintro run (hrun | rfl)
          · exact db.statusRefs run hrun
          · exact code_mem_runStatus db status
        repoRefs := by
          simp only [List.mem_append, List.mem_singleton]
          rintro run (hrun | rfl)
          · exact db.repoRefs run hrun
          · exact hrepo })
  else .error sqliteConstraint

/-- A row with a result. -/
def RunRow.update (status : RunStatus) (exitCode : Int) (output : Bytes) (id : Int)
    (run : RunRow) : RunRow :=
  if run.id = id then { run with status := status.code.toInt, exitCode, output } else run

@[simp] theorem RunRow.update_id (status : RunStatus) (exitCode : Int) (output : Bytes) (id : Int)
    (run : RunRow) : (run.update status exitCode output id).id = run.id := by
  unfold RunRow.update
  split <;> rfl

@[simp] theorem RunRow.update_repoId (status : RunStatus) (exitCode : Int) (output : Bytes)
    (id : Int) (run : RunRow) : (run.update status exitCode output id).repoId = run.repoId := by
  unfold RunRow.update
  split <;> rfl

@[simp] theorem RunRow.update_repoRev (status : RunStatus) (exitCode : Int) (output : Bytes)
    (id : Int) (run : RunRow) : (run.update status exitCode output id).repoRev = run.repoRev := by
  unfold RunRow.update
  split <;> rfl

/-- `UPDATE cimple_runs SET status = ?, exit_code = ?, output = ? WHERE id = ?`. -/
def runUpdate (db : Db) (status : RunStatus) (exitCode : Int) (output : Bytes) (id : Int) :
    Db where
  repos := db.repos
  runStatus := db.runStatus
  runs := db.runs.map (RunRow.update status exitCode output id)
  statusRows := db.statusRows
  repoIds := db.repoIds
  repoUrls := db.repoUrls
  runIds := by simpa [Function.comp_def] using db.runIds
  repoIdsRange := db.repoIdsRange
  runIdsRange := by
    intro run' hrun'
    obtain ⟨run, hrun, rfl⟩ := List.mem_map.1 hrun'
    simpa using db.runIdsRange run hrun
  statusRefs := by
    intro run' hrun'
    obtain ⟨run, hrun, rfl⟩ := List.mem_map.1 hrun'
    unfold RunRow.update
    split
    · exact code_mem_runStatus db status
    · exact db.statusRefs run hrun
  repoRefs := by
    intro run' hrun'
    obtain ⟨run, hrun, rfl⟩ := List.mem_map.1 hrun'
    simpa using db.repoRefs run hrun

/-! ## The view -/

/-- A row of `cimple_runs_view`; `status` is the label. -/
structure ViewRow where
  id : Int
  status : Bytes
  exitCode : Int
  output : Bytes
  repoUrl : Bytes
  repoRev : Bytes
  deriving DecidableEq

/-- `cimple_runs_view`: the two inner joins. -/
def cimpleRunsView (db : Db) : List ViewRow :=
  db.runs.flatMap fun run =>
    (db.runStatus.filter fun status => run.status = status.id).flatMap fun status =>
      (db.repos.filter fun repo => run.repoId = repo.id).map fun repo =>
        ⟨run.id, status.label, run.exitCode, run.output, repo.url, run.repoRev⟩

/-- The decimal text of an integer. -/
def decimalText (n : Int) : Bytes := (toString n).toList.map fun c => c.toNat.toUInt8

/-- `text = ?` with an integer bound: the column's affinity makes a text of the integer. -/
def textEqInt (text : Bytes) (n : Int) : Bool := text = decimalText n

/-- `SELECT ... FROM cimple_runs_view WHERE status = ? ORDER BY id`. -/
def selectRunQueue (db : Db) (status : RunStatus) : List ViewRow :=
  ((cimpleRunsView db).filter fun row => textEqInt row.status status.code.toInt).insertionSort
    fun a b => a.id ≤ b.id

/-- `SELECT ... FROM cimple_runs_view ORDER BY id DESC`. -/
def selectRuns (db : Db) : List ViewRow :=
  (cimpleRunsView db).insertionSort fun a b => b.id ≤ a.id

/-! ## Columns -/

/-- `sqlite_column_int` of an integer: its low 32 bits. -/
def columnInt (n : Int) : Int32 := Int32.ofInt n

/-- The number denoted by a text of digits. -/
def digitsValue (text : Bytes) : Nat :=
  text.foldl (fun n c => n * 10 + (c.toNat - 48)) 0

/-- The number denoted by the longest numeric prefix of a text, 0 if there is none. -/
def numericPrefix (text : Bytes) : Int :=
  let isSpace (c : UInt8) : Bool := c = 32 ∨ (9 ≤ c ∧ c ≤ 13)
  let digits (text : Bytes) : Bytes := text.takeWhile fun c => 48 ≤ c ∧ c ≤ 57
  match text.dropWhile isSpace with
  | 45 :: text => -(digitsValue (digits text) : Int)
  | 43 :: text => digitsValue (digits text)
  | text => digitsValue (digits text)

/-- `sqlite_column_int` of a text: an integer out of range is cut to the nearest in range. -/
def columnIntText (text : Bytes) : Int32 :=
  columnInt (max (-9223372036854775808) (min 9223372036854775807 (numericPrefix text)))

/-! ## The functions of `storage_sqlite.c` -/

/-- What becomes of one execution of a prepared statement: the negative value with which
locking, binding or stepping fails, if one of them does; the key SQLite comes up with when it has
to search for one; and whether `sqlite3_reset` rolls back what the step has not committed. -/
structure Attempt where
  fault : Option { e : Int32 // e < 0 }
  candidate : Option Int
  rollback : Bool

/-- An execution in which nothing fails. -/
def noFault : Attempt := ⟨none, none, false⟩

/-- `storage_sqlite_find_repo`: 0 when there is no such row. -/
def storageSqliteFindRepo (a : Attempt) (db : Db) (url : CStr) : Int32 :=
  match a.fault with
  | some e => e
  | none =>
    match repoFind db url with
    | none => 0
    | some id => columnInt id

/-- The statement of `storage_sqlite_insert_repo`. -/
def storageSqliteInsertRepoStmt (a : Attempt) (db : Db) (url : CStr) : Int32 × Db :=
  match a.fault with
  | some e => (e, db)
  | none =>
    match repoInsert a.candidate db url with
    | none => (sqliteFull, db)
    | some db => (0, db)

/-- `storage_sqlite_insert_repo`. -/
def storageSqliteInsertRepo (a a' : Attempt) (db : Db) (url : CStr) : Int32 × Db :=
  let (ret, db) := storageSqliteInsertRepoStmt a db url
  if ret < 0 then (ret, db) else (storageSqliteFindRepo a' db url, db)

/-- `storage_sqlite_insert_run`: the key has been read when `sqlite_reset` rolls the row back, and
is returned all the same. -/
def storageSqliteInsertRun (a : Attempt) (db : Db) (repoId : Int32) (rev : CStr) : Int32 × Db :=
  match a.fault with
  | some e => (e, db)
  | none =>
    match runInsert a.candidate db .created repoId.toInt rev with
    | .error e => (e, db)
    | .ok (id, db') => (columnInt id, if a.rollback then db else db')

/-- The three statements of `storage_sqlite_run_create`. -/
structure CreateAttempts where
  insertRepo : Attempt
  findRepo : Attempt
  insertRun : Attempt

/-- `storage_sqlite_run_create`. -/
def storageSqliteRunCreate (a : CreateAttempts) (db : Db) (repoUrl rev : CStr) : Int32 × Db :=
  let (repoId, db) := storageSqliteInsertRepo a.insertRepo a.findRepo db repoUrl
  if repoId < 0 then (repoId, db) else storageSqliteInsertRun a.insertRun db repoId rev

/-- `storage_sqlite_run_finished`. -/
def storageSqliteRunFinished (a : Attempt) (db : Db) (runId : Int32) (output : ProcessOutput) :
    Int32 × Db :=
  match a.fault with
  | some e => (e, db)
  | none => (0, runUpdate db .finished output.ec.toInt output.data runId.toInt)

/-- `storage_sqlite_row_to_run`. -/
def storageSqliteRowToRun (row : ViewRow) : Run :=
  runNew (columnInt row.id) (CStr.ofBytes row.repoUrl) (CStr.ofBytes row.repoRev)
    (columnIntText row.status) (columnInt row.exitCode)

/-- `storage_sqlite_rows_to_runs`, from the rows the statement still has to return. -/
def storageSqliteRowsToRuns (queue : Queue) : List ViewRow → Queue
  | [] => queue
  | row :: rows => storageSqliteRowsToRuns (runQueueAddLast queue (storageSqliteRowToRun row)) rows

/-- `storage_sqlite_get_runs`; a failure at any row destroys the queue. -/
def storageSqliteGetRuns (a : Attempt) (db : Db) : Except Int32 Queue :=
  match a.fault with
  | some e => .error e
  | none => .ok (storageSqliteRowsToRuns [] (selectRuns db))

/-- `storage_sqlite_get_run_queue`. -/
def storageSqliteGetRunQueue (a : Attempt) (db : Db) : Except Int32 Queue :=
  match a.fault with
  | some e => .error e
  | none => .ok (storageSqliteRowsToRuns [] (selectRunQueue db .created))

theorem storageSqliteRowsToRuns_eq (rows : List ViewRow) :
    ∀ queue : Queue, storageSqliteRowsToRuns queue rows =
      queue ++ rows.map storageSqliteRowToRun := by
  induction rows with
  | nil => intro queue; simp [storageSqliteRowsToRuns]
  | cons row rows ih =>
    intro queue
    rw [storageSqliteRowsToRuns, ih, runQueueAddLast, List.append_assoc]
    rfl

/-! ## What the functions do to the tables -/

theorem newRowid_pos {candidate : Option Int} {ids : List Int} {id : Int}
    (hids : ∀ i ∈ ids, 1 ≤ i ∧ i < 9223372036854775807)
    (h : newRowid candidate ids = some id) : 1 ≤ id := by
  unfold newRowid at h
  split at h
  · cases h
    decide
  · rename_i last hlast
    have hrange := hids last (List.max?_mem hlast)
    rw [if_pos hrange.2] at h
    cases h
    omega

theorem newRowid_max {candidate : Option Int} {ids : List Int} {last : Int} (hmem : last ∈ ids)
    (hmax : ∀ i ∈ ids, i ≤ last) (hlast : last < 9223372036854775807) :
    newRowid candidate ids = some (last + 1) := by
  have h : ids.max? = some last := List.max?_eq_some_iff.2 ⟨hmem, hmax⟩
  simp only [newRowid, h, if_pos hlast]

/-- **What inserting a repository can do**: its URL has a row already, or no key is left, or there
is a new row. -/
theorem repoInsert_cases (candidate : Option Int) (db : Db) (url : CStr) :
    (url.bytes ∈ db.repos.map RepoRow.url ∧ repoInsert candidate db url = some db) ∨
      (url.bytes ∉ db.repos.map RepoRow.url ∧
        newRowid candidate (db.repos.map RepoRow.id) = none ∧
        repoInsert candidate db url = none) ∨
      (url.bytes ∉ db.repos.map RepoRow.url ∧
        ∃ id db', newRowid candidate (db.repos.map RepoRow.id) = some id ∧
          repoInsert candidate db url = some db' ∧
          db'.repos = db.repos ++ [⟨id, url.bytes⟩] ∧ db'.runs = db.runs) := by
  unfold repoInsert
  split
  · rename_i hurl
    exact .inl ⟨hurl, rfl⟩
  · rename_i hurl
    split
    · rename_i hid
      exact .inr (.inl ⟨hurl, hid, rfl⟩)
    · rename_i id hid
      exact .inr (.inr ⟨hurl, id, _, hid, rfl, rfl, rfl⟩)

/-- **What inserting a run can do**: its repository has no row, or no key is left, or there is a
new row. -/
theorem runInsert_cases (candidate : Option Int) (db : Db) (status : RunStatus) (repoId : Int)
    (rev : CStr) :
    (repoId ∉ db.repos.map RepoRow.id ∧
        runInsert candidate db status repoId rev = .error sqliteConstraint) ∨
      (repoId ∈ db.repos.map RepoRow.id ∧ newRowid candidate (db.runs.map RunRow.id) = none ∧
        runInsert candidate db status repoId rev = .error sqliteFull) ∨
      (repoId ∈ db.repos.map RepoRow.id ∧
        ∃ id db', newRowid candidate (db.runs.map RunRow.id) = some id ∧
          runInsert candidate db status repoId rev = .ok (id, db') ∧ db'.repos = db.repos ∧
          db'.runs = db.runs ++ [⟨id, status.code.toInt, -1, [], repoId, rev.bytes⟩]) := by
  unfold runInsert
  split
  · rename_i hrepo
    split
    · rename_i hid
      exact .inr (.inl ⟨hrepo, hid, rfl⟩)
    · rename_i id hid
      exact .inr (.inr ⟨hrepo, id, _, hid, rfl, rfl, rfl⟩)
  · rename_i hrepo
    exact .inl ⟨hrepo, rfl⟩

theorem storageSqliteInsertRepoStmt_new {db : Db} {url : CStr} {id : Int}
    (hurl : url.bytes ∉ db.repos.map RepoRow.url)
    (hid : newRowid none (db.repos.map RepoRow.id) = some id) :
    ∃ db', storageSqliteInsertRepoStmt noFault db url = (0, db') ∧
      db'.repos = db.repos ++ [⟨id, url.bytes⟩] ∧ db'.runs = db.runs := by
  simp only [storageSqliteInsertRepoStmt, noFault]
  rcases repoInsert_cases none db url with ⟨hold, -⟩ | ⟨-, hnone, -⟩ | ⟨-, id', db', hid', h, h'⟩
  · exact absurd hold hurl
  · rw [hid] at hnone
    cases hnone
  · rw [hid, Option.some.injEq] at hid'
    exact ⟨db', by rw [h], by rw [hid']; exact h'⟩

theorem storageSqliteInsertRun_new {db : Db} {repoId : Int32} {id : Int} (rev : CStr)
    (hrepo : repoId.toInt ∈ db.repos.map RepoRow.id)
    (hid : newRowid none (db.runs.map RunRow.id) = some id) :
    ∃ db', storageSqliteInsertRun noFault db repoId rev = (columnInt id, db') ∧
      db'.repos = db.repos ∧ db'.runs = db.runs ++
        [⟨id, RunStatus.created.code.toInt, -1, [], repoId.toInt, rev.bytes⟩] := by
  simp only [storageSqliteInsertRun, noFault]
  rcases runInsert_cases none db .created repoId.toInt rev with
    ⟨hnot, -⟩ | ⟨-, hnone, -⟩ | ⟨-, id', db', hid', h, h'⟩
  · exact absurd hrepo hnot
  · rw [hid] at hnone
    cases hnone
  · rw [hid, Option.some.injEq] at hid'
    exact ⟨db', by simp only [h, hid', Bool.false_eq_true, if_false], by rw [hid']; exact h'⟩

/-- **`storage_sqlite_insert_repo`, its statement**: nothing has changed, or there is a new row
for the URL. -/
theorem storageSqliteInsertRepoStmt_spec (a : Attempt) (db : Db) (url : CStr) :
    let after := (storageSqliteInsertRepoStmt a db url).2
    after = db ∨ after.runs = db.runs ∧ ∃ id, after.repos = db.repos ++ [⟨id, url.bytes⟩] ∧
      newRowid a.candidate (db.repos.map RepoRow.id) = some id := by
  simp only [storageSqliteInsertRepoStmt]
  cases a.fault with
  | some e => exact .inl rfl
  | none =>
    rcases repoInsert_cases a.candidate db url with
      ⟨-, h⟩ | ⟨-, -, h⟩ | ⟨-, id, db', hid, h, hrepos, hruns⟩
    · rw [h]
      exact .inl rfl
    · rw [h]
      exact .inl rfl
    · rw [h]
      exact .inr ⟨hruns, id, hrepos, hid⟩

/-- **`storage_sqlite_find_repo`**: 0, or the key of the row of the URL, cut to an `int`. -/
theorem storageSqliteFindRepo_spec {a : Attempt} {db : Db} {url : CStr}
    (h : ¬ storageSqliteFindRepo a db url < 0) :
    storageSqliteFindRepo a db url = 0 ∨
      ∃ repo ∈ db.repos, repo.url = url.bytes ∧
        storageSqliteFindRepo a db url = columnInt repo.id := by
  simp only [storageSqliteFindRepo, repoFind] at h ⊢
  cases hfault : a.fault with
  | some e =>
    rw [hfault] at h
    exact absurd e.2 h
  | none =>
    cases hfind : db.repos.find? fun repo => repo.url = url.bytes with
    | none => exact .inl rfl
    | some repo =>
      exact .inr ⟨repo, List.mem_of_find?_eq_some hfind,
        by simpa using List.find?_some hfind, rfl⟩

/-- **`storage_sqlite_insert_run`**: it fails, or the row is rolled back, and nothing has changed;
or there is a new row, whose key, cut to an `int`, is returned. -/
theorem storageSqliteInsertRun_spec (a : Attempt) (db : Db) (repoId : Int32) (rev : CStr) :
    let r := storageSqliteInsertRun a db repoId rev
    (r.1 < 0 ∨ a.fault = none ∧ a.rollback = true) ∧ r.2 = db ∨
      a.rollback = false ∧ r.2.repos = db.repos ∧ repoId.toInt ∈ db.repos.map RepoRow.id ∧
      ∃ id, r.1 = columnInt id ∧ newRowid a.candidate (db.runs.map RunRow.id) = some id ∧
        r.2.runs = db.runs ++
          [⟨id, RunStatus.created.code.toInt, -1, [], repoId.toInt, rev.bytes⟩] := by
  simp only [storageSqliteInsertRun]
  cases a.fault with
  | some e => exact .inl ⟨.inl e.2, rfl⟩
  | none =>
    rcases runInsert_cases a.candidate db .created repoId.toInt rev with
      ⟨-, h⟩ | ⟨-, -, h⟩ | ⟨hrepo, id, db', hid, h, hrepos, hruns⟩
    · rw [h]
      exact .inl ⟨.inl (show sqliteConstraint < 0 by decide), rfl⟩
    · rw [h]
      exact .inl ⟨.inl (show sqliteFull < 0 by decide), rfl⟩
    · rw [h]
      cases a.rollback with
      | true => exact .inl ⟨.inr ⟨rfl, rfl⟩, rfl⟩
      | false => exact .inr ⟨rfl, hrepos, hrepo, id, rfl, hid, hruns⟩

/-- **`storage_sqlite_run_finished`**: the repositories stay, and so do the keys of the runs. -/
theorem storageSqliteRunFinished_spec (a : Attempt) (db : Db) (runId : Int32)
    (output : ProcessOutput) :
    let after := (storageSqliteRunFinished a db runId output).2
    after.repos = db.repos ∧ ∀ run' ∈ after.runs, ∃ run ∈ db.runs, run'.id = run.id := by
  simp only [storageSqliteRunFinished]
  cases a.fault with
  | some e => exact ⟨rfl, fun run hrun => ⟨run, hrun, rfl⟩⟩
  | none =>
    refine ⟨rfl, fun run' hrun' => ?_⟩
    obtain ⟨run, hrun, rfl⟩ := List.mem_map.1 hrun'
    exact ⟨run, hrun, by simp⟩

/-- No row is lost, and no run gets another repository or another revision. -/
structure Grows (db db' : Db) : Prop where
  repos : ∀ repo ∈ db.repos, repo ∈ db'.repos
  runs : ∀ run ∈ db.runs, ∃ run' ∈ db'.runs,
    run'.id = run.id ∧ run'.repoId = run.repoId ∧ run'.repoRev = run.repoRev

theorem Grows.refl (db : Db) : Grows db db := ⟨fun _ h => h, fun run h => ⟨run, h, rfl, rfl, rfl⟩⟩

theorem Grows.trans {db db₁ db₂ : Db} (h : Grows db db₁) (h' : Grows db₁ db₂) : Grows db db₂ := by
  constructor
  · intro repo hrepo
    exact h'.repos repo (h.repos repo hrepo)
  · intro run hrun
    obtain ⟨run₁, hrun₁, hid₁, hrepo₁, hrev₁⟩ := h.runs run hrun
    obtain ⟨run₂, hrun₂, hid₂, hrepo₂, hrev₂⟩ := h'.runs run₁ hrun₁
    exact ⟨run₂, hrun₂, hid₂.trans hid₁, hrepo₂.trans hrepo₁, hrev₂.trans hrev₁⟩

theorem storageSqliteInsertRepoStmt_grows (a : Attempt) (db : Db) (url : CStr) :
    Grows db (storageSqliteInsertRepoStmt a db url).2 := by
  rcases storageSqliteInsertRepoStmt_spec a db url with hsame | ⟨hruns, id, hrepos, -⟩
  · rw [hsame]
    exact .refl db
  · exact ⟨fun repo h => by simp [hrepos, h], fun run h => ⟨run, by rwa [hruns], rfl, rfl, rfl⟩⟩

theorem storageSqliteInsertRun_grows (a : Attempt) (db : Db) (repoId : Int32) (rev : CStr) :
    Grows db (storageSqliteInsertRun a db repoId rev).2 := by
  rcases storageSqliteInsertRun_spec a db repoId rev with
    ⟨-, hsame⟩ | ⟨-, hrepos, -, id, -, -, hruns⟩
  · rw [hsame]
    exact .refl db
  · exact ⟨fun repo h => by rwa [hrepos],
      fun run h => ⟨run, by simp [hruns, h], rfl, rfl, rfl⟩⟩

theorem storageSqliteRunFinished_grows (a : Attempt) (db : Db) (runId : Int32)
    (output : ProcessOutput) : Grows db (storageSqliteRunFinished a db runId output).2 := by
  simp only [storageSqliteRunFinished]
  cases a.fault with
  | some e => exact .refl db
  | none =>
    exact ⟨fun repo h => h, fun run h => ⟨_, List.mem_map_of_mem h, by simp, by simp, by simp⟩⟩

end Cimple.Storage
