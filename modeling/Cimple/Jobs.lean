import Cimple.System

/-!
# Jobs

* `Job` — what identifies the work of a run: the identifier, the repository and the revision.  A
  run to be enqueued, a run in the queue, a `start-run` message, a worker's run and a call of
  `ci_run_git_repo` each hold one.
* `Backed` — there is a row in the database for a job.
* `JobsInv` — the jobs created have distinct identifiers and are backed.

Keys of repositories and runs are 64 bits wide, and the program reads them as `int`s.  A run's
key that is no `int` makes `storage_run_create` fail, or is the key of another run; a
repository's key that is no `int` makes it fail up to 2^32, and above it is the key of another
repository.  `Bounded` leaves these cases out.  A run whose row is rolled back is enqueued with a
key that is given to another run; `Regular` leaves that out, too.

Principal result: `statement_jobsInv`, by which every statement of `storage_run_create` keeps
`JobsInv`, whatever other threads have done in between.
-/

set_option autoImplicit false

namespace Cimple.Jobs

open Octets JsonValue Tokens Cimple.Json Cimple.JsonRpc Cimple.Command Cimple.RunQueue
  Cimple.Protocol Cimple.Storage Cimple.Servers Cimple.Dispatching Cimple.Workers Cimple.Systems

/-! ## Jobs -/

/-- What identifies the work of a run. -/
structure Job where
  id : Int32
  url : CStr
  rev : CStr
  deriving DecidableEq

def runJob (run : Run) : Job := ⟨run.id, run.repoUrl, run.repoRev⟩

def callJob (call : CiCall) : Job := ⟨call.id, call.url, call.rev⟩

/-- The job of a `start-run` message in flight. -/
def messageJob (m : Nat × Json) : Option Job :=
  (requestParseStartRun ⟨m.2⟩).toOption.map runJob

/-- The job of a worker that is about to execute a run. -/
def procJob (p : Proc) : Option Job :=
  if p.phase = .ready then p.state.worker.run.map runJob else none

/-- The job of a thread that is about to enqueue a run. -/
def creatorJob : Creator → Option Job
  | .enqueue run => some (runJob run)
  | _ => none

/-- The jobs enqueued, and those about to be. -/
def createdJobs (s : System) : List Job :=
  s.dispatch.enqueued.map runJob ++ held creatorJob s.creators

/-- A row of the database is for a job. -/
def Backed (db : Db) (job : Job) : Prop :=
  ∃ run ∈ db.runs, run.id = job.id.toInt ∧ run.repoRev = job.rev.bytes ∧
    ∃ repo ∈ db.repos, repo.id = run.repoId ∧ repo.url = job.url.bytes

theorem Backed.grows {db db' : Db} {job : Job} (h : Backed db job) (hgrows : Grows db db') :
    Backed db' job := by
  obtain ⟨run, hrun, hid, hrev, repo, hrepo, hrepoId, hurl⟩ := h
  obtain ⟨run', hrun', hid', hrepoId', hrev'⟩ := hgrows.runs run hrun
  exact ⟨run', hrun', by rw [hid', hid], by rw [hrev', hrev], repo, hgrows.repos repo hrepo,
    by rw [hrepoId', hrepoId], hurl⟩

/-! ## Keys that fit -/

/-- The keys a server can have come to if it has created fewer than 2^31 runs and at most 2^32
repositories. -/
structure Bounded (db : Db) : Prop where
  runs : ∀ run ∈ db.runs, run.id < 2147483648
  repos : ∀ repo ∈ db.repos, repo.id ≤ 4294967296

theorem Bounded.of_grows {db db' : Db} (h : Bounded db') (hgrows : Grows db db') : Bounded db where
  runs run hrun := by
    obtain ⟨run', hrun', hid, -⟩ := hgrows.runs run hrun
    rw [← hid]
    exact h.runs run' hrun'
  repos repo hrepo := h.repos repo (hgrows.repos repo hrepo)

/-- The keys fit, and no row has been rolled back. -/
def Regular (s : System) : Prop := Bounded s.db ∧ s.rolledBack = false

theorem Regular.of_grows {s s' : System} (h : Regular s') (hgrows : Grows s.db s'.db)
    (hkept : s'.rolledBack = false → s.rolledBack = false) : Regular s :=
  ⟨h.1.of_grows hgrows, hkept h.2⟩

/-- A thread that has found the repository of its run has its key, or 0. -/
def CreatorOk (db : Db) : Creator → Prop
  | .insertRun run repoId =>
    repoId = 0 ∨ ∃ repo ∈ db.repos, repo.id = repoId.toInt ∧ repo.url = run.repoUrl.bytes
  | _ => True

/-- The jobs created, as long as the keys fit. -/
structure JobsInv (db : Db) (creators : List Creator) (jobs : List Job) : Prop where
  repoIds : ∀ repo ∈ db.repos, 1 ≤ repo.id
  runIds : ∀ run ∈ db.runs, 1 ≤ run.id
  creators : ∀ c ∈ creators, CreatorOk db c
  backed : ∀ job ∈ jobs, Backed db job
  distinct : (jobs.map Job.id).Nodup

/-! ## The jobs created -/

theorem CreatorOk.grows {db db' : Db} {c : Creator} (h : CreatorOk db c) (hgrows : Grows db db') :
    CreatorOk db' c := by
  cases c with
  | insertRun run repoId =>
    rcases h with h | ⟨repo, hrepo, h⟩
    · exact .inl h
    · exact .inr ⟨repo, hgrows.repos repo hrepo, h⟩
  | _ => trivial

theorem JobsInv.grows {db db' : Db} {creators : List Creator} {jobs : List Job}
    (h : JobsInv db creators jobs) (hgrows : Grows db db')
    (hrepoIds : ∀ repo ∈ db'.repos, 1 ≤ repo.id) (hrunIds : ∀ run ∈ db'.runs, 1 ≤ run.id) :
    JobsInv db' creators jobs :=
  ⟨hrepoIds, hrunIds, fun c hc => (h.creators c hc).grows hgrows,
    fun job hjob => (h.backed job hjob).grows hgrows, h.distinct⟩

theorem JobsInv.subperm {db : Db} {creators creators' : List Creator} {jobs jobs' : List Job}
    (h : JobsInv db creators jobs) (hjobs : jobs'.Subperm jobs)
    (hcreators : ∀ c ∈ creators', c ∈ creators ∨ CreatorOk db c) : JobsInv db creators' jobs' := by
  refine ⟨h.repoIds, h.runIds, fun c hc => (hcreators c hc).elim (h.creators c) id,
    fun job hjob => h.backed job (hjobs.subset hjob), ?_⟩
  obtain ⟨l, hperm, hsub⟩ := hjobs
  exact ((hperm.map Job.id).nodup_iff).1 (h.distinct.sublist (hsub.map _))

theorem columnInt_toInt {n : Int} (h₁ : 1 ≤ n) (h₂ : n < 2147483648) : (columnInt n).toInt = n :=
  (toInt_ofInt_iff n).2 ⟨by omega, h₂⟩

theorem columnInt_repo {n : Int} (h₁ : 1 ≤ n) (h₂ : n ≤ 4294967296) (h : ¬ columnInt n < 0) :
    columnInt n = 0 ∨ (columnInt n).toInt = n := by
  by_cases hint : n < 2147483648
  · exact .inr (columnInt_toInt h₁ hint)
  · by_cases hlast : n = 4294967296
    · exact .inl (by rw [hlast]; decide)
    · exfalso
      have hbmod : n.bmod 4294967296 = n - 4294967296 := by
        rw [Int.bmod_eq_iff] <;> omega
      have hcut : (columnInt n).toInt = n - 4294967296 := Int32.toInt_ofInt.trans hbmod
      refine h (Int32.lt_iff_toInt_lt.2 ?_)
      rw [hcut]
      show n - 4294967296 < 0
      omega

theorem JobsInv.replace {db : Db} {c : Creator} {before after : List Creator} {enqueued : List Job}
    (h : JobsInv db (before ++ [c] ++ after) (enqueued ++ held creatorJob (before ++ [c] ++ after)))
    {next : Option Creator}
    (hnext : ∀ c', next = some c' → CreatorOk db c' ∧ creatorJob c' = none) :
    JobsInv db (before ++ next.toList ++ after)
      (enqueued ++ held creatorJob (before ++ next.toList ++ after)) := by
  refine h.subperm ?_ ?_
  · have hheld : held creatorJob next.toList = [] := by
      cases next with
      | none => rfl
      | some c' => simp [(hnext c' rfl).2]
    simp only [held_append, hheld, List.append_nil]
    refine List.Sublist.subperm (List.Sublist.append_left (List.Sublist.append_right ?_ _) _)
    exact List.sublist_append_left _ _
  · intro c' hc'
    simp only [List.mem_append, Option.mem_toList] at hc' ⊢
    rcases hc' with (hc' | hc') | hc'
    · exact .inl (.inl (.inl hc'))
    · exact .inr (hnext c' hc').1
    · exact .inl (.inr hc')

/-- The row `storage_sqlite_insert_run` inserts. -/
def createdRow (id : Int) (repoId : Int32) (rev : CStr) : RunRow :=
  ⟨id, RunStatus.created.code.toInt, -1, [], repoId.toInt, rev.bytes⟩

theorem createdRow_key {a : Attempt} {db db' : Db} {id : Int} {repoId : Int32} {rev : CStr}
    (hrunIds : ∀ run ∈ db.runs, 1 ≤ run.id) (hbounded : Bounded db')
    (hid : newRowid a.candidate (db.runs.map RunRow.id) = some id)
    (hruns : db'.runs = db.runs ++ [createdRow id repoId rev]) :
    1 ≤ id ∧ (columnInt id).toInt = id ∧ id ∉ db.runs.map RunRow.id := by
  have hlt : ∀ row ∈ db'.runs, row.id < 2147483648 := hbounded.runs
  simp only [hruns, List.mem_append, List.mem_singleton, or_imp, forall_and, forall_eq] at hlt
  have hpos : 1 ≤ id := by
    refine newRowid_pos (fun i hi => ?_) hid
    obtain ⟨row, hrow, rfl⟩ := List.mem_map.1 hi
    have := hlt.1 row hrow
    exact ⟨hrunIds row hrow, by omega⟩
  refine ⟨hpos, columnInt_toInt hpos hlt.2, (newRowid_spec (fun i hi => ?_) hid).1⟩
  obtain ⟨row, hrow, rfl⟩ := List.mem_map.1 hi
  exact db.runIdsRange row hrow

/-- A row is inserted, and its job with it. -/
theorem JobsInv.insert {a : Attempt} {db db' : Db} {run : Run} {repoId : Int32}
    {before after : List Creator} {enqueued : List Job} {id : Int}
    (h : JobsInv db (before ++ [.insertRun run repoId] ++ after)
      (enqueued ++ held creatorJob (before ++ [.insertRun run repoId] ++ after)))
    (hgrows : Grows db db') (hbounded : Bounded db') (hrepos : db'.repos = db.repos)
    (hrepo : repoId.toInt ∈ db.repos.map RepoRow.id)
    (hid : newRowid a.candidate (db.runs.map RunRow.id) = some id)
    (hruns : db'.runs = db.runs ++ [createdRow id repoId run.repoRev]) :
    JobsInv db' (before ++ [.enqueue (runSetId run (columnInt id))] ++ after)
      (enqueued ++ held creatorJob
        (before ++ [.enqueue (runSetId run (columnInt id))] ++ after)) := by
  obtain ⟨hpos, htoInt, hnew⟩ := createdRow_key h.runIds hbounded hid hruns
  have hgrown := h.grows hgrows (by rw [hrepos]; exact h.repoIds) (by
    intro row hrow
    rw [hruns, List.mem_append, List.mem_singleton] at hrow
    rcases hrow with hrow | rfl
    · exact h.runIds row hrow
    · exact hpos)
  -- the repository is the run's, since 0 is no key
  obtain ⟨repo, hmem, hrepoId, hurl⟩ : ∃ repo ∈ db.repos, repo.id = repoId.toInt ∧
      repo.url = run.repoUrl.bytes := by
    refine (h.creators (.insertRun run repoId) (by simp)).resolve_left fun hzero => ?_
    obtain ⟨repo, hmem, hrepoId⟩ := List.mem_map.1 hrepo
    have := h.repoIds repo hmem
    rw [hrepoId, hzero] at this
    exact absurd this (by decide)
  have hjob : Backed db' (runJob (runSetId run (columnInt id))) :=
    ⟨createdRow id repoId run.repoRev, by simp [hruns], htoInt.symm, rfl, repo, by rwa [hrepos],
      hrepoId, hurl⟩
  have hheld : held creatorJob (before ++ [.insertRun run repoId] ++ after) =
      held creatorJob (before ++ after) := by
    simp only [held_append, held_singleton, creatorJob, Option.toList_none, List.append_nil]
  have hfresh : columnInt id ∉ (enqueued ++ held creatorJob (before ++ after)).map Job.id := by
    intro hmem
    obtain ⟨job, hjob, hjobId⟩ := List.mem_map.1 hmem
    obtain ⟨row, hrow, hrowId, -⟩ := h.backed job (by rwa [hheld])
    refine hnew (List.mem_map.2 ⟨row, hrow, ?_⟩)
    rw [hrowId, hjobId, htoInt]
  have hperm : (enqueued ++ held creatorJob
      (before ++ [.enqueue (runSetId run (columnInt id))] ++ after)).Perm
      (runJob (runSetId run (columnInt id)) ::
        (enqueued ++ held creatorJob (before ++ after))) := by
    refine List.perm_iff_count.2 fun t => ?_
    simp only [held_append, held_singleton, creatorJob, Option.toList_some, List.count_append,
      List.count_cons, List.count_nil]
    omega
  rw [hheld] at hgrown
  refine ⟨hgrown.repoIds, hgrown.runIds, ?_, ?_, ?_⟩
  · intro c hc
    simp only [List.mem_append, List.mem_singleton] at hc
    rcases hc with (hc | rfl) | hc
    · exact hgrown.creators c (by simp [hc])
    · trivial
    · exact hgrown.creators c (by simp [hc])
  · intro job hmem
    rcases List.mem_cons.1 (hperm.subset hmem) with rfl | hmem
    · exact hjob
    · exact hgrown.backed job hmem
  · rw [(hperm.map Job.id).nodup_iff, List.map_cons, List.nodup_cons]
    exact ⟨hfresh, hgrown.distinct⟩

theorem insertRun_kept {a : Attempt} {db : Db} {run : Run} {repoId : Int32}
    (h : (Creator.insertRun run repoId).rollsBack a db = false)
    (hret : ¬ (storageSqliteInsertRun a db repoId run.repoRev).1 < 0) (hfault : a.fault = none) :
    a.rollback = false := by
  simp only [storageSqliteInsertRun, hfault] at hret
  rcases runInsert_cases a.candidate db .created repoId.toInt run.repoRev with
    ⟨-, hinsert⟩ | ⟨-, -, hinsert⟩ | ⟨-, id, db', -, hinsert, -⟩
  · rw [hinsert] at hret
    exact absurd (show sqliteConstraint < 0 by decide) hret
  · rw [hinsert] at hret
    exact absurd (show sqliteFull < 0 by decide) hret
  · simpa [Creator.rollsBack, hfault, hinsert, Except.isOk, Except.toBool] using h

/-- **A statement keeps the jobs created**, if it is not rolled back. -/
theorem statement_jobsInv {a : Attempt} {db : Db} {c : Creator} {before after : List Creator}
    {enqueued : List Job} (hc : ∀ run, c ≠ .enqueue run)
    (h : JobsInv db (before ++ [c] ++ after) (enqueued ++ held creatorJob (before ++ [c] ++ after)))
    (hbounded : Bounded (c.statement a db).2) (hkept : c.rollsBack a db = false) :
    JobsInv (c.statement a db).2 (before ++ (c.statement a db).1.toList ++ after)
      (enqueued ++ held creatorJob (before ++ (c.statement a db).1.toList ++ after)) := by
  cases c with
  | insertRepo run =>
    simp only [Creator.statement] at hbounded ⊢
    have hgrows := storageSqliteInsertRepoStmt_grows a db run.repoUrl
    have hold := hbounded.of_grows hgrows
    have hrepoIds : ∀ repo ∈ (storageSqliteInsertRepoStmt a db run.repoUrl).2.repos,
        1 ≤ repo.id := by
      rcases storageSqliteInsertRepoStmt_spec a db run.repoUrl with hsame | ⟨-, id, hrepos, hid⟩
      · rw [hsame]
        exact h.repoIds
      · rw [hrepos]
        intro repo hrepo
        rcases List.mem_append.1 hrepo with hrepo | hrepo
        · exact h.repoIds repo hrepo
        · rw [List.mem_singleton.1 hrepo]
          refine newRowid_pos (fun i hi => ?_) hid
          obtain ⟨repo', hrepo', rfl⟩ := List.mem_map.1 hi
          have := hold.repos repo' hrepo'
          exact ⟨h.repoIds repo' hrepo', by omega⟩
    have hrunIds : ∀ row ∈ (storageSqliteInsertRepoStmt a db run.repoUrl).2.runs, 1 ≤ row.id := by
      rcases storageSqliteInsertRepoStmt_spec a db run.repoUrl with hsame | ⟨hruns, -⟩
      · rw [hsame]
        exact h.runIds
      · rw [hruns]
        exact h.runIds
    refine (h.grows hgrows hrepoIds hrunIds).replace fun c' hc' => ?_
    split at hc' <;> cases hc'
    exact ⟨trivial, rfl⟩
  | findRepo run =>
    simp only [Creator.statement] at hbounded ⊢
    refine h.replace fun c' hc' => ?_
    split at hc'
    · cases hc'
    · rename_i hret
      cases hc'
      refine ⟨?_, rfl⟩
      rcases storageSqliteFindRepo_spec hret with hzero | ⟨repo, hrepo, hurl, hid⟩
      · exact .inl hzero
      · rw [hid] at hret
        rcases columnInt_repo (h.repoIds repo hrepo) (hbounded.repos repo hrepo) hret with
          hzero | htoInt
        · exact .inl (hid.trans hzero)
        · exact .inr ⟨repo, hrepo, by rw [hid, htoInt], hurl⟩
  | insertRun run repoId =>
    simp only [Creator.statement] at hbounded ⊢
    have hgrows := storageSqliteInsertRun_grows a db repoId run.repoRev
    rcases storageSqliteInsertRun_spec a db repoId run.repoRev with
      ⟨hwhy, hsame⟩ | ⟨-, hrepos, hrepo, id, hret, hid, hruns⟩
    · have hret : (storageSqliteInsertRun a db repoId run.repoRev).1 < 0 := by
        by_contra hret
        obtain ⟨hfault, hback⟩ := hwhy.resolve_left hret
        exact Bool.false_ne_true ((insertRun_kept hkept hret hfault).symm.trans hback)
      rw [if_pos hret, hsame]
      exact h.replace fun c' hc' => by cases hc'
    · rw [hret]
      split
      · refine (h.grows hgrows ?_ ?_).replace fun c' hc' => by cases hc'
        · rw [hrepos]
          exact h.repoIds
        · have hold := h.insert hgrows hbounded hrepos hrepo hid hruns
          exact hold.runIds
      · exact h.insert hgrows hbounded hrepos hrepo hid hruns
  | enqueue run => exact absurd rfl (hc run)

end Cimple.Jobs
