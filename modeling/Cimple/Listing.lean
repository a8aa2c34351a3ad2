import Cimple.Lib.Keyed
import Cimple.History
import Cimple.Enqueue

/-!
# What get-runs lists (`storage_sqlite_get_runs`, `server_handle_cmd_get_runs`)

The rows come out of two inner joins, are decoded column by column, linked into a queue and
written as an array.

* `IntKeys` — the keys of both tables are `int`s.
* `Records`, `Agrees` — the row of a run and its entry in the ledger, and all rows and all entries.
* `StatusLog`, `lastWritten` — what the statements write to the status column, in order.

Principal results: `replay_agrees`, `get_runs_whole_history`, `status_written` and
`get_runs_status_iff`.
-/

set_option autoImplicit false

namespace Cimple.Listing

open Octets JsonValue Cimple.Json Cimple.JsonRpc Cimple.Command Cimple.RunQueue Cimple.Protocol
  Cimple.Storage Cimple.Servers Cimple.Enqueueing Cimple.History

/-! ## Rows and entries -/

/-- The keys are `int`s. -/
def IntKeys (db : Db) : Prop :=
  (∀ run ∈ db.runs, InInt32 run.id) ∧ ∀ repo ∈ db.repos, InInt32 repo.id

theorem IntKeys.mono {db db' : Db} (h : IntKeys db') (hgrows : Grows db db') : IntKeys db := by
  constructor
  · intro run hrun
    obtain ⟨run', hrun', hid, -⟩ := hgrows.runs run hrun
    rw [← hid]
    exact h.1 run' hrun'
  · intro repo hrepo
    exact h.2 repo (hgrows.repos repo hrepo)

/-- The exit code of the last completion of a run, -1 if it has none. -/
def exitCodeOf (e : Entry) : Int32 :=
  match e.result with
  | none => -1
  | some output => output.ec

/-- The row of a created run. -/
structure Records (db : Db) (row : RunRow) (e : Entry) : Prop where
  id : row.id = e.id.toInt
  exitCode : row.exitCode = (exitCodeOf e).toInt
  rev : row.repoRev = e.rev.bytes
  repo : ∃ repo ∈ db.repos, repo.id = row.repoId ∧ repo.url = e.url.bytes

/-- **The table of runs agrees with the ledger**: a row for each entry, in the order of creation,
which is that of the keys. -/
structure Agrees (b : Books) : Prop where
  rows : List.Forall₂ (Records b.db) b.db.runs b.ledger
  increasing : b.db.runs.Pairwise fun row row' => row.id < row'.id
  positive : ∀ row ∈ b.db.runs, 0 < row.id

theorem Records.mono {db db' : Db} {row : RunRow} {e : Entry} (h : Records db row e)
    (hrepos : ∀ repo ∈ db.repos, repo ∈ db'.repos) : Records db' row e := by
  obtain ⟨repo, hrepo, href⟩ := h.repo
  exact ⟨h.id, h.exitCode, h.rev, repo, hrepos repo hrepo, href⟩

/-! ## Histories -/

theorem storageSqliteRunCreate_grows (a : CreateAttempts) (db : Db) (url rev : CStr) :
    Grows db (storageSqliteRunCreate a db url rev).2 := by
  have hinsert : Grows db (storageSqliteInsertRepo a.insertRepo a.findRepo db url).2 := by
    simp only [storageSqliteInsertRepo]
    split <;> exact storageSqliteInsertRepoStmt_grows a.insertRepo db url
  simp only [storageSqliteRunCreate]
  split
  · exact hinsert
  · exact hinsert.trans (storageSqliteInsertRun_grows _ _ _ _)

theorem call_grows (b : Books) (c : Call) : Grows b.db (b.call c).db := by
  cases c with
  | create attempts url rev => exact storageSqliteRunCreate_grows attempts b.db url rev
  | finished attempt runId output =>
    exact storageSqliteRunFinished_grows attempt b.db runId output

theorem history_grows (calls : List Call) (b : Books) :
    Grows b.db (calls.foldl Books.call b).db := by
  induction calls generalizing b with
  | nil => exact .refl b.db
  | cons c calls ih => exact (call_grows b c).trans (ih (b.call c))

theorem insertedKeys_newRowid {a : CreateAttempts} {db : Db} {url : CStr} {key id : Int}
    (h : insertedKeys a db url = some (key, id)) :
    newRowid a.insertRun.candidate (db.runs.map RunRow.id) = some id := by
  unfold insertedKeys at h
  split at h
  · cases h
  · obtain ⟨key', -, h⟩ := Option.bind_eq_some_iff.1 h
    split at h
    · cases h
    · obtain ⟨id', hid, h⟩ := Option.bind_eq_some_iff.1 h
      cases h
      exact hid

/-- **The key of a new run is above all others**, as far as these are `int`s. -/
theorem newRowid_above {candidate : Option Int} {ids : List Int} {id : Int}
    (hids : ∀ i ∈ ids, 0 < i ∧ InInt32 i) (h : newRowid candidate ids = some id) :
    0 < id ∧ ∀ i ∈ ids, i < id := by
  have hrange : ∀ i ∈ ids, 1 ≤ i ∧ i < 9223372036854775807 := by
    intro i hi
    have := hids i hi
    unfold InInt32 at this
    omega
  refine ⟨newRowid_pos hrange h, ?_⟩
  cases hmax : ids.max? with
  | none =>
    rw [List.max?_eq_none_iff.1 hmax]
    intro i hi
    cases hi
  | some last =>
    obtain ⟨hmem, hlast⟩ := List.max?_eq_some_iff.1 hmax
    rw [newRowid_max hmem hlast (hrange last hmem).2] at h
    cases h
    intro i hi
    have := hlast i hi
    omega

/-- **A row that is inserted and stays** goes with an entry of its key. -/
theorem inserted_agrees {b : Books} (h : Agrees b) {db' : Db} (hgrows : Grows b.db db')
    (hids : IntKeys db') {candidate : Option Int} {key id : Int} {url rev : CStr}
    (hid : newRowid candidate (b.db.runs.map RunRow.id) = some id)
    (hruns : db'.runs = b.db.runs ++ [insertedRow id (columnInt key) rev])
    (hmem : ⟨key, url.bytes⟩ ∈ db'.repos) :
    ¬ columnInt id < 0 ∧ Agrees ⟨db', b.ledger ++ [⟨columnInt id, url, rev, none⟩]⟩ := by
  have hrows : List.Forall₂ (Records db') b.db.runs b.ledger :=
    h.rows.imp fun _ _ hrecords => hrecords.mono hgrows.repos
  have hold := (hids.mono hgrows).1
  obtain ⟨hpos, habove⟩ : 0 < id ∧ ∀ i ∈ b.db.runs.map RunRow.id, i < id := by
    apply newRowid_above _ hid
    intro i hi
    obtain ⟨row, hrow, rfl⟩ := List.mem_map.1 hi
    exact ⟨h.positive row hrow, hold row hrow⟩
  have hint : InInt32 id := hids.1 (insertedRow id (columnInt key) rev) (by simp [hruns])
  have hkey : (columnInt key).toInt = key := (toInt_ofInt_iff key).2 (hids.2 _ hmem)
  refine ⟨?_, ?_, ?_, ?_⟩
  · rw [columnInt_neg_iff hint]
    omega
  · rw [hruns]
    refine List.rel_append hrows (.cons ?_ .nil)
    exact ⟨((toInt_ofInt_iff id).2 hint).symm, rfl, rfl, _, hmem, hkey.symm, rfl⟩
  · rw [hruns, List.pairwise_append]
    refine ⟨h.increasing, List.pairwise_singleton _ _, ?_⟩
    intro row hrow row' hrow'
    rw [List.mem_singleton.1 hrow']
    exact habove row.id (List.mem_map_of_mem hrow)
  · rw [hruns]
    intro row hrow
    rcases List.mem_append.1 hrow with hrow | hrow
    · exact h.positive row hrow
    · rw [List.mem_singleton.1 hrow]
      exact hpos

/-- **A creation**: the entry in the ledger and the row of the run, or neither. -/
theorem create_agrees {b : Books} (h : Agrees b) (attempts : CreateAttempts) (url rev : CStr)
    (hids : IntKeys (b.call (.create attempts url rev)).db) :
    Agrees (b.call (.create attempts url rev)) := by
  obtain ⟨ret, db', hcreate, hcases⟩ := storageSqliteRunCreate_keys attempts b.db url rev
  have hgrows : Grows b.db db' := by
    have := storageSqliteRunCreate_grows attempts b.db url rev
    rwa [hcreate] at this
  simp only [Books.call, hcreate] at hids ⊢
  have hsame (hruns : db'.runs = b.db.runs) : Agrees ⟨db', b.ledger⟩ := by
    refine ⟨?_, by rw [hruns]; exact h.increasing, by rw [hruns]; exact h.positive⟩
    rw [hruns]
    exact h.rows.imp fun _ _ hrecords => hrecords.mono hgrows.repos
  rcases hcases with ⟨-, hret, hruns⟩ | ⟨key, id, hkeys, -, rfl, hruns, hmem⟩
  · rw [if_pos (.inl hret)]
    exact hsame hruns
  · cases hback : attempts.insertRun.rollback with
    | true =>
      simp only [keptRows, hback, if_true, List.append_nil] at hruns
      simp only [or_true, if_true]
      exact hsame hruns
    | false =>
      simp only [keptRows, hback, Bool.false_eq_true, if_false] at hruns
      obtain ⟨hret, hagrees⟩ :=
        inserted_agrees h hgrows hids (insertedKeys_newRowid hkeys) hruns hmem
      simp only [hret, reduceCtorEq, or_self, if_false]
      exact hagrees

theorem Records.update {db : Db} {row : RunRow} {e : Entry} (h : Records db row e)
    (runId : Int32) (output : ProcessOutput) :
    Records db (row.update .finished output.ec.toInt output.data runId.toInt)
      (e.finish runId output) := by
  have hsame : row.id = runId.toInt ↔ e.id = runId := by
    rw [h.id]
    exact Int32.toInt_inj
  by_cases hid : e.id = runId
  · simp only [RunRow.update, Entry.finish, if_pos (hsame.2 hid), if_pos hid]
    exact ⟨h.id, rfl, h.rev, h.repo⟩
  · simp only [RunRow.update, Entry.finish, if_neg (mt hsame.1 hid), if_neg hid]
    exact h

/-- **A completion**: the row of the run and its entry get the same result. -/
theorem finished_agrees {b : Books} (h : Agrees b) (attempt : Attempt) (runId : Int32)
    (output : ProcessOutput) : Agrees (b.call (.finished attempt runId output)) := by
  cases hfault : attempt.fault with
  | some e =>
    simp only [Books.call, storageSqliteRunFinished, hfault, if_pos e.2]
    exact ⟨h.rows, h.increasing, h.positive⟩
  | none =>
    have hzero : ¬ (0 : Int32) < 0 := by decide
    simp only [Books.call, storageSqliteRunFinished, hfault, if_neg hzero]
    refine ⟨?_, ?_, ?_⟩
    · simp only [runUpdate, List.forall₂_map_left_iff, List.forall₂_map_right_iff]
      exact h.rows.imp fun _ _ hrecords =>
        (hrecords.update runId output).mono fun _ hrepo => hrepo
    · simp only [runUpdate, List.pairwise_map, RunRow.update_id]
      exact h.increasing
    · intro row' hrow'
      obtain ⟨row, hrow, rfl⟩ := List.mem_map.1 hrow'
      rw [RunRow.update_id]
      exact h.positive row hrow

/-- **A call keeps the table and the ledger in agreement**, as far as the keys are `int`s. -/
theorem call_agrees {b : Books} (h : Agrees b) (c : Call) (hids : IntKeys (b.call c).db) :
    Agrees (b.call c) := by
  cases c with
  | create attempts url rev => exact create_agrees h attempts url rev hids
  | finished attempt runId output => exact finished_agrees h attempt runId output

theorem history_agrees (calls : List Call) {b : Books} (h : Agrees b)
    (hids : IntKeys (calls.foldl Books.call b).db) : Agrees (calls.foldl Books.call b) := by
  induction calls generalizing b with
  | nil => exact h
  | cons c calls ih =>
    have hcall : IntKeys (b.call c).db := hids.mono (history_grows calls (b.call c))
    exact ih (call_agrees h c hcall) hids

/-- **After any history the table of runs agrees with the ledger**. -/
theorem replay_agrees {calls : List Call} (hids : IntKeys (replay calls).db) :
    Agrees (replay calls) :=
  history_agrees calls ⟨.nil, .nil, fun _ hrow => by cases hrow⟩ hids

/-! ## The view -/

/-- The row of the view for the row of a run. -/
structure Shows (db : Db) (run : RunRow) (row : ViewRow) : Prop where
  id : row.id = run.id
  status : ∃ status ∈ db.runStatus, status.id = run.status ∧ row.status = status.label
  exitCode : row.exitCode = run.exitCode
  repo : ∃ repo ∈ db.repos, repo.id = run.repoId ∧ row.repoUrl = repo.url
  repoRev : row.repoRev = run.repoRev

/-- **The joins neither drop nor duplicate a run**: both references are valid, and both keys
unique. -/
theorem cimpleRunsView_shows (db : Db) : List.Forall₂ (Shows db) db.runs (cimpleRunsView db) := by
  apply Keyed.flatMap_forall
  intro run hrun
  have hstatusIds : (db.runStatus.map RunStatusRow.id).Nodup := by
    rw [db.statusRows]
    decide
  obtain ⟨status, hstatus, hstatusId, hstatusOne⟩ :=
    Keyed.filter_of_mem hstatusIds (db.statusRefs run hrun)
  obtain ⟨repo, hrepo, hrepoId, hrepoOne⟩ := Keyed.filter_of_mem db.repoIds (db.repoRefs run hrun)
  refine ⟨⟨run.id, status.label, run.exitCode, run.output, repo.url, run.repoRev⟩, ?_, ?_⟩
  · rw [hstatusOne, List.flatMap_singleton, hrepoOne, List.map_singleton]
  · exact ⟨rfl, ⟨status, hstatus, hstatusId, rfl⟩, rfl, ⟨repo, hrepo, hrepoId, rfl⟩, rfl⟩

theorem cimpleRunsView_ids (db : Db) :
    (cimpleRunsView db).map ViewRow.id = db.runs.map RunRow.id := by
  rw [← List.forall₂_eq_eq_eq, List.forall₂_map_left_iff, List.forall₂_map_right_iff]
  exact ((cimpleRunsView_shows db).imp fun _ _ hshows => hshows.id).flip

/-- The element of the array for a created run. -/
def entryJson (e : Entry) : Json :=
  .object [(RunQueue.runKeyId, .int e.id.toInt), (runKeyExitCode, .int (exitCodeOf e).toInt),
    (runKeyRepoUrl, .string e.url.bytes), (runKeyRepoRev, .string e.rev.bytes)]

/-- **A run comes out as it went in**: through its row, the view, the columns and the JSON. -/
theorem runJson_rowToRun {db : Db} {run : RunRow} {row : ViewRow} {e : Entry}
    (hrecords : Records db run e) (hshows : Shows db run row) :
    runJson (storageSqliteRowToRun row) = entryJson e := by
  have hid : columnInt row.id = e.id := by
    rw [hshows.id, hrecords.id]
    exact Int32.ofInt_toInt e.id
  have hexit : columnInt row.exitCode = exitCodeOf e := by
    rw [hshows.exitCode, hrecords.exitCode]
    exact Int32.ofInt_toInt _
  have hurl : row.repoUrl = e.url.bytes := by
    obtain ⟨repo, hrepo, hrepoId, hurl⟩ := hshows.repo
    obtain ⟨repo', hrepo', hrepoId', hurl'⟩ := hrecords.repo
    obtain rfl : repo = repo' :=
      List.inj_on_of_nodup_map db.repoIds hrepo hrepo' (hrepoId.trans hrepoId'.symm)
    rw [hurl, hurl']
  have hrev : row.repoRev = e.rev.bytes := by rw [hshows.repoRev, hrecords.rev]
  simp only [runJson, storageSqliteRowToRun, runNew, hid, hexit, hurl, hrev, CStr.ofBytes_bytes]
  rfl

theorem getRuns_agrees {b : Books} (h : Agrees b) :
    (storageSqliteRowsToRuns [] (selectRuns b.db)).map runJson =
      b.ledger.reverse.map entryJson := by
  have horder : selectRuns b.db = (cimpleRunsView b.db).reverse := by
    apply Keyed.orderDesc_eq_reverse
    rw [← List.pairwise_map (f := ViewRow.id), cimpleRunsView_ids, List.pairwise_map]
    exact h.increasing
  have hview : List.Forall₂ (fun row e => runJson (storageSqliteRowToRun row) = entryJson e)
      (cimpleRunsView b.db) b.ledger := by
    refine Keyed.forall_of_forall ?_ (cimpleRunsView_shows b.db) h.rows
    intro run row e hshows hrecords
    exact runJson_rowToRun hrecords hshows
  rw [storageSqliteRowsToRuns_eq, List.nil_append, List.map_map, horder, List.map_reverse,
    List.map_reverse, ← List.forall₂_eq_eq_eq, List.forall₂_reverse_iff,
    List.forall₂_map_left_iff, List.forall₂_map_right_iff]
  exact hview

theorem Agrees.ids_increasing {b : Books} (h : Agrees b) :
    b.ledger.Pairwise fun e e' => e.id < e'.id := by
  have hids : b.db.runs.map RunRow.id = b.ledger.map fun e => e.id.toInt := by
    rw [← List.forall₂_eq_eq_eq, List.forall₂_map_left_iff, List.forall₂_map_right_iff]
    exact h.rows.imp fun _ _ hrecords => hrecords.id
  have hincreasing := List.pairwise_map.2 h.increasing
  rw [hids, List.pairwise_map] at hincreasing
  exact hincreasing.imp Int32.lt_iff_toInt_lt.2

/-! ## The response -/

theorem serverHandleCmdGetRuns_response (env : HandlerEnv) (request : JsonrpcRequest) (conn : Nat)
    (server : Server) :
    (serverHandleCmdGetRuns env request conn server).response =
      if env.storage.fault = none ∧ env.responseOk = true then
        (jsonrpcResponseCreate request
          (.array ((storageSqliteRowsToRuns [] (selectRuns server.db)).map runJson))).toOption
      else none := by
  simp only [serverHandleCmdGetRuns, requestParseGetRuns, storageSqliteGetRuns]
  cases env.storage.fault with
  | some e => rfl
  | none =>
    cases env.responseOk with
    | false => rfl
    | true =>
      simp only [Bool.not_true, Bool.false_eq_true, if_false, and_self, if_true,
        responseCreateGetRuns, runQueueToJson_eq]
      have hbind : ∀ runs : Json, (Except.ok runs >>= jsonrpcResponseCreate request) =
          jsonrpcResponseCreate request runs := fun _ => rfl
      rw [hbind]
      cases jsonrpcResponseCreate request _ <;> rfl

/-- **get-runs tells the whole history**: a response has one element for each run ever created, in
strictly decreasing order of their identifiers, and there is a response unless something fails or
the request is a notification. -/
theorem get_runs_whole_history (calls : List Call) (hids : IntKeys (replay calls).db)
    (env : HandlerEnv) (request : JsonrpcRequest) (conn : Nat) (server : Server)
    (hserver : server.db = (replay calls).db) :
    let out := serverHandleCmdGetRuns env request conn server
    let ledger := (replay calls).ledger
    (∀ response, out.response = some response → response.impl.get? jsonrpcKeyResult =
        some (.array (ledger.reverse.map entryJson))) ∧
      ledger.reverse.Pairwise (fun e e' => e'.id < e.id) ∧
      (env.storage.fault = none → env.responseOk = true →
        jsonrpcRequestIsNotification request = false → out.response.isSome = true) := by
  have hagrees := replay_agrees hids
  simp only [serverHandleCmdGetRuns_response, hserver, getRuns_agrees hagrees]
  refine ⟨?_, ?_, ?_⟩
  · intro response h
    split at h
    · cases hid : request.impl.get? jsonrpcKeyId with
      | none =>
        have hnotification : jsonrpcRequestIsNotification request = true := by
          simp [jsonrpcRequestIsNotification, libjsonHas, hid]
        obtain ⟨e, he⟩ := jsonrpcResponseCreate_notification hnotification
          (.array ((replay calls).ledger.reverse.map entryJson))
        rw [he] at h
        cases h
      | some id =>
        rw [jsonrpcResponseCreate_eq hid] at h
        cases h
        rfl
    · cases h
  · rw [List.pairwise_reverse]
    exact hagrees.ids_increasing
  · intro hfault hok hnotification
    obtain ⟨response, hresponse⟩ := jsonrpcResponseCreate_request hnotification
      (.array ((replay calls).ledger.reverse.map entryJson))
    rw [if_pos ⟨hfault, hok⟩, hresponse]
    rfl

/-- Two runs of one repository, the first of them finished twice. -/
def twoRuns : List Call :=
  [queued, queued, .finished noFault 1 ⟨2, []⟩, .finished noFault 1 ⟨3, []⟩]

/-- A request of get-runs. -/
def getRunsRequest : JsonrpcRequest := ⟨.object (requestMembers (some 0) cmdGetRuns)⟩

/-- The list after two runs. -/
theorem get_runs_two_runs :
    let out := serverHandleCmdGetRuns calm getRunsRequest 4
      { emptyServer with db := (replay twoRuns).db }
    out.response.isSome = true ∧
      ∀ response, out.response = some response →
        response.impl.get? jsonrpcKeyResult = some (.array
          [entryJson ⟨2, .ofAscii "repo", .ofAscii "HEAD", none⟩,
            entryJson ⟨1, .ofAscii "repo", .ofAscii "HEAD", some ⟨3, []⟩⟩]) := by
  have hids : IntKeys (replay twoRuns).db := by
    unfold IntKeys
    decide
  have hledger : (replay twoRuns).ledger.reverse =
      [⟨2, .ofAscii "repo", .ofAscii "HEAD", none⟩,
        ⟨1, .ofAscii "repo", .ofAscii "HEAD", some ⟨3, []⟩⟩] := by decide
  obtain ⟨hresult, -, hsome⟩ := get_runs_whole_history twoRuns hids calm getRunsRequest 4
    { emptyServer with db := (replay twoRuns).db } rfl
  rw [hledger] at hresult
  exact ⟨hsome rfl rfl rfl, hresult⟩

/-! ## The status -/

/-- The database, and what has been written to the status column of which run, in order. -/
structure StatusLog where
  db : Db
  writes : List (Int × RunStatus)

/-- A call, and the write of its statement on the runs, unless that is rolled back. -/
def StatusLog.call (l : StatusLog) : Call → StatusLog
  | .create attempts url rev =>
    ⟨(storageSqliteRunCreate attempts l.db url rev).2,
      if attempts.insertRun.rollback then l.writes
      else l.writes ++ ((insertedKeys attempts l.db url).map fun keys =>
        (keys.2, RunStatus.created)).toList⟩
  | .finished attempt runId output =>
    ⟨(storageSqliteRunFinished attempt l.db runId output).2,
      if attempt.fault.isNone && l.db.runs.any fun run => decide (run.id = runId.toInt) then
        l.writes ++ [(runId.toInt, .finished)]
      else l.writes⟩

/-- The writes of a history. -/
def statusLog (calls : List Call) : StatusLog := calls.foldl StatusLog.call ⟨v01, []⟩

/-- The value most recently written for a run. -/
def lastWritten (writes : List (Int × RunStatus)) (id : Int) : Option RunStatus :=
  (writes.reverse.find? fun write => decide (write.1 = id)).map Prod.snd

theorem lastWritten_append (writes : List (Int × RunStatus)) (id : Int) (status : RunStatus)
    (id' : Int) : lastWritten (writes ++ [(id, status)]) id' =
      if id = id' then some status else lastWritten writes id' := by
  unfold lastWritten
  rw [List.reverse_append, List.reverse_singleton, List.singleton_append, List.find?_cons]
  by_cases h : id = id'
  · simp [h]
  · simp [h]

theorem statusLog_db (calls : List Call) : (statusLog calls).db = (replay calls).db := by
  have hstep : ∀ (l : StatusLog) (b : Books) (c : Call), l.db = b.db →
      (l.call c).db = (b.call c).db := by
    intro l b c hdb
    cases c <;> simp only [StatusLog.call, Books.call, hdb]
  have hrun : ∀ (calls : List Call) (l : StatusLog) (b : Books), l.db = b.db →
      (calls.foldl StatusLog.call l).db = (calls.foldl Books.call b).db := by
    intro calls
    induction calls with
    | nil => exact fun l b hdb => hdb
    | cons c calls ih => exact fun l b hdb => ih _ _ (hstep l b c hdb)
  exact hrun calls ⟨v01, []⟩ ⟨v01, []⟩ rfl

/-- The status column holds what was written last. -/
def Written (l : StatusLog) : Prop :=
  ∀ run ∈ l.db.runs, ∃ status, lastWritten l.writes run.id = some status ∧
    run.status = status.code.toInt

theorem Written.insert {l : StatusLog} (h : Written l) {db' : Db} {id : Int} {repoId : Int32}
    {rev : CStr} (hnew : id ∉ l.db.runs.map RunRow.id)
    (hruns : db'.runs = l.db.runs ++ [insertedRow id repoId rev]) :
    Written ⟨db', l.writes ++ [(id, .created)]⟩ := by
  intro run hrun
  simp only [hruns, lastWritten_append] at hrun ⊢
  rcases List.mem_append.1 hrun with hrun | hrun
  · have hne : id ≠ run.id := by
      intro heq
      exact hnew (heq ▸ List.mem_map_of_mem hrun)
    rw [if_neg hne]
    exact h run hrun
  · obtain rfl := List.mem_singleton.1 hrun
    exact ⟨.created, if_pos rfl, rfl⟩

/-- **A call keeps the column and the log together**. -/
theorem call_written {l : StatusLog} (h : Written l) (c : Call) : Written (l.call c) := by
  cases c with
  | create attempts url rev =>
    obtain ⟨ret, db', hcreate, hcases⟩ := storageSqliteRunCreate_keys attempts l.db url rev
    rcases hcases with ⟨hkeys, -, hruns⟩ | ⟨key, id, hkeys, -, -, hruns, -⟩
    · simp only [Written, StatusLog.call, hcreate, hkeys, hruns, Option.map_none,
        Option.toList_none, List.append_nil, ite_self]
      exact h
    · have hnew := (newRowid_spec (by simpa using l.db.runIdsRange) (insertedKeys_newRowid hkeys)).1
      cases hback : attempts.insertRun.rollback with
      | true =>
        simp only [keptRows, hback, if_true, List.append_nil] at hruns
        simp only [Written, StatusLog.call, hcreate, hback, if_true, hruns]
        exact h
      | false =>
        simp only [keptRows, hback, Bool.false_eq_true, if_false] at hruns
        simp only [StatusLog.call, hcreate, hback, hkeys, Option.map_some, Option.toList_some,
          Bool.false_eq_true, if_false]
        exact h.insert hnew hruns
  | finished attempt runId output =>
    cases hfault : attempt.fault with
    | some e =>
      simp only [Written, StatusLog.call, storageSqliteRunFinished, hfault, Option.isNone_some,
        Bool.false_and, Bool.false_eq_true, if_false]
      exact h
    | none =>
      intro run' hrun'
      simp only [StatusLog.call, storageSqliteRunFinished, hfault, Option.isNone_none,
        Bool.true_and] at hrun' ⊢
      obtain ⟨run, hrun, rfl⟩ := List.mem_map.1 hrun'
      rw [RunRow.update_id]
      by_cases hid : run.id = runId.toInt
      · have hany : (l.db.runs.any fun run => decide (run.id = runId.toInt)) = true :=
          List.any_eq_true.2 ⟨run, hrun, decide_eq_true hid⟩
        refine ⟨.finished, ?_, ?_⟩
        · rw [if_pos hany, lastWritten_append, if_pos hid.symm]
        · rw [RunRow.update, if_pos hid]
      · obtain ⟨status, hlast, hstatus⟩ := h run hrun
        refine ⟨status, ?_, ?_⟩
        · split
          · rw [lastWritten_append, if_neg (Ne.symm hid)]
            exact hlast
          · exact hlast
        · rw [RunRow.update, if_neg hid]
          exact hstatus

/-- **After any history the status column holds, for every run, what was written last.** -/
theorem status_written (calls : List Call) : Written (statusLog calls) := by
  refine List.foldlRecOn calls StatusLog.call ?_ ?_
  · intro run hrun
    cases hrun
  · exact fun l h c _ => call_written h c

/-- **The status survives**: of each row that is listed, the run has the value written last. -/
def StatusSurvives (writes : List (Int × RunStatus)) (db : Db) (a : Attempt) : Prop :=
  ∀ queue, storageSqliteGetRuns a db = .ok queue →
    List.Forall₂ (fun row run => (lastWritten writes row.id).map RunStatus.code = some run.status)
      (selectRuns db) queue

theorem columnIntText_label {label : Bytes} (h : label ∈ v01RunStatus.map RunStatusRow.label) :
    columnIntText label = 0 := by
  have hall : ∀ label ∈ v01RunStatus.map RunStatusRow.label, columnIntText label = 0 := by decide
  exact hall label h

/-- **The status of a run survives storage only where there is no run to list**: the fetch fails,
or the table is empty. -/
theorem get_runs_status_iff (calls : List Call) (a : Attempt) :
    StatusSurvives (statusLog calls).writes (replay calls).db a ↔
      a.fault.isSome = true ∨ (replay calls).db.runs = [] := by
  have hlength : (selectRuns (replay calls).db).length = (replay calls).db.runs.length := by
    rw [selectRuns, List.length_insertionSort, (cimpleRunsView_shows _).length_eq]
  unfold StatusSurvives storageSqliteGetRuns
  cases a.fault with
  | some e => simp
  | none =>
    simp only [Option.isSome_none, Bool.false_eq_true, false_or, Except.ok.injEq, forall_eq',
      storageSqliteRowsToRuns_eq, List.nil_append, List.forall₂_map_right_iff]
    constructor
    · intro h
      rw [List.forall₂_same] at h
      rw [← List.length_eq_zero_iff, ← hlength, List.length_eq_zero_iff,
        List.eq_nil_iff_forall_not_mem]
      intro row hrow
      have hstatus := h row hrow
      have hlabel := cimpleRunsView_status ((List.mem_insertionSort _).1 hrow)
      simp only [storageSqliteRowToRun, runNew, columnIntText_label hlabel] at hstatus
      obtain ⟨status, -, hcode⟩ := Option.map_eq_some_iff.1 hstatus
      cases status <;> exact absurd hcode (by decide)
    · intro h
      rw [h] at hlength
      rw [List.length_eq_zero_iff.1 hlength]
      exact .nil

/-- A run that was created, and a run that was finished, are listed with a status that is
neither. -/
theorem get_runs_status_lost :
    lastWritten (statusLog twoRuns).writes 1 = some .finished ∧
      lastWritten (statusLog twoRuns).writes 2 = some .created ∧
      (storageSqliteGetRuns noFault (replay twoRuns).db).map (List.map Run.status) = .ok [0, 0] ∧
      ¬ StatusSurvives (statusLog twoRuns).writes (replay twoRuns).db noFault := by
  refine ⟨by decide, by decide, by decide, ?_⟩
  intro h
  have hstatuses :
      (selectRuns (replay twoRuns).db).map
          (fun row => (lastWritten (statusLog twoRuns).writes row.id).map RunStatus.code) =
        (storageSqliteRowsToRuns [] (selectRuns (replay twoRuns).db)).map
          fun run => some run.status := by
    rw [← List.forall₂_eq_eq_eq, List.forall₂_map_left_iff, List.forall₂_map_right_iff]
    exact h _ rfl
  exact absurd hstatuses (by decide)

end Cimple.Listing
