import Mathlib.Data.List.Dedup
import Cimple.Enqueue

/-!
# Creating runs concurrently (`storage_sqlite_run_create`)

A call executes three statements, each under the mutex of its own, and no transaction holds them
together.  Between two statements of one call any number of statements of others may be executed.

* `Phase`, `callStep` — a call, statement by statement; alone it is `storageSqliteRunCreate`
  (`run_alone`).
* `Creating`, `step`, `run` — any number of calls and the database; a schedule says which call
  moves.
* `Leaves` — the keys of a table are not negative, and so many more of them are `int`s.
* `Creates` — what the calls that have returned have done.

Principal results: `step_inv`, `run_inv` and `run_create_concurrent`.
-/

set_option autoImplicit false

namespace Cimple.Creation

open Octets Cimple.Json Cimple.RunQueue Cimple.Storage Cimple.Servers Cimple.Enqueueing

/-! ## Calls -/

/-- How far a call of `storage_sqlite_run_create` is: the statement it executes next, or the value
it has returned. -/
inductive Phase where
  | insertRepo
  | findRepo
  | insertRun (repoId : Int32)
  | returned (ret : Int32)
  deriving DecidableEq

/-- A call with its arguments. -/
structure Call where
  url : CStr
  rev : CStr
  phase : Phase

/-- The next statement of a call, and what the function makes of its value. -/
def callStep (a : Attempt) (call : Call) (db : Db) : Phase × Db :=
  match call.phase with
  | .insertRepo =>
    let (ret, db) := storageSqliteInsertRepoStmt a db call.url
    if ret < 0 then (.returned ret, db) else (.findRepo, db)
  | .findRepo =>
    let ret := storageSqliteFindRepo a db call.url
    if ret < 0 then (.returned ret, db) else (.insertRun ret, db)
  | .insertRun repoId =>
    let (ret, db) := storageSqliteInsertRun a db repoId call.rev
    (.returned ret, db)
  | .returned ret => (.returned ret, db)

/-- The calls and the database they share. -/
structure Creating where
  db : Db
  calls : List Call

/-- One statement of one call. -/
def step (s : Creating) (i : Nat) (a : Attempt) : Creating :=
  match s.calls[i]? with
  | none => s
  | some call =>
    let (phase, db) := callStep a call s.db
    ⟨db, s.calls.set i { call with phase }⟩

/-- The statements in the order in which they are executed. -/
def run (s : Creating) : List (Nat × Attempt) → Creating
  | [] => s
  | (i, a) :: schedule => run (step s i a) schedule

/-- The calls before they have done anything. -/
def start (db : Db) (args : List (CStr × CStr)) : Creating :=
  ⟨db, args.map fun arg => ⟨arg.1, arg.2, .insertRepo⟩⟩

/-- **A call that nobody interrupts is `storage_sqlite_run_create`.** -/
theorem run_alone (a : CreateAttempts) (db : Db) (url rev : CStr) :
    run (start db [(url, rev)]) [(0, a.insertRepo), (0, a.findRepo), (0, a.insertRun)] =
      ⟨(storageSqliteRunCreate a db url rev).2,
        [⟨url, rev, .returned (storageSqliteRunCreate a db url rev).1⟩]⟩ := by
  rcases hinsert : storageSqliteInsertRepoStmt a.insertRepo db url with ⟨ret, db₁⟩
  by_cases hret : ret < 0
  · simp [run, start, step, callStep, storageSqliteRunCreate, storageSqliteInsertRepo, hinsert,
      hret]
  · by_cases hfind : storageSqliteFindRepo a.findRepo db₁ url < 0
    · simp [run, start, step, callStep, storageSqliteRunCreate, storageSqliteInsertRepo, hinsert,
        hret, hfind]
    · simp [run, start, step, callStep, storageSqliteRunCreate, storageSqliteInsertRepo, hinsert,
        hret, hfind]

/-! ## Keys -/

/-- The keys are not negative, and with so many more of them all are below 2^31. -/
def Leaves (n : Nat) (ids : List Int) : Prop :=
  n < 2147483648 ∧ ∀ id ∈ ids, 0 ≤ id ∧ id + n < 2147483648

theorem Leaves.mono {m n : Nat} {ids : List Int} (h : Leaves n ids) (hle : m ≤ n) :
    Leaves m ids := by
  refine ⟨by have := h.1; omega, fun id hid => ?_⟩
  have := h.2 id hid
  omega

theorem Leaves.inInt32 {n : Nat} {ids : List Int} (h : Leaves n ids) {id : Int} (hid : id ∈ ids) :
    InInt32 id ∧ 0 ≤ id := by
  have := h.2 id hid
  unfold InInt32
  omega

/-- **The next key**: it is a new one, and there is room for one less. -/
theorem leaves_newRowid {n : Nat} {ids : List Int} (h : Leaves (n + 1) ids)
    (candidate : Option Int) :
    ∃ id, newRowid candidate ids = some id ∧ id ∉ ids ∧ Leaves n (ids ++ [id]) := by
  have hold : ∀ i ∈ ids, 0 ≤ i ∧ i + n < 2147483648 := (h.mono n.le_succ).2
  have hrange : ∀ i ∈ ids, InInt64 i := fun i hi => by
    have := hold i hi
    unfold InInt64
    omega
  have hall : ∀ id, newRowid candidate ids = some id → 0 ≤ id ∧ id + n < 2147483648 →
      ∃ id, newRowid candidate ids = some id ∧ id ∉ ids ∧ Leaves n (ids ++ [id]) := by
    intro id hid hroom
    refine ⟨id, hid, (newRowid_spec hrange hid).1, (h.mono n.le_succ).1, fun i hi => ?_⟩
    rcases List.mem_append.1 hi with hi | hi
    · exact hold i hi
    · rw [List.mem_singleton.1 hi]
      exact hroom
  cases hmax : ids.max? with
  | none =>
    have hn := h.1
    exact hall 1 (by simp [newRowid, hmax]) (by omega)
  | some last =>
    have hlast := h.2 last (List.max?_mem hmax)
    refine hall (last + 1) ?_ (by omega)
    simp only [newRowid, hmax]
    rw [if_pos (by omega)]

/-- The URLs among those of the calls that have no row. -/
def newUrls (urls : List CStr) (db : Db) : List CStr :=
  urls.dedup.filter fun url => (repoFind db url).isNone

theorem mem_newUrls {urls : List CStr} {db : Db} {url : CStr} :
    url ∈ newUrls urls db ↔ url ∈ urls ∧ url.bytes ∉ db.repos.map RepoRow.url := by
  rw [newUrls, List.mem_filter, List.mem_dedup, Option.isNone_iff_eq_none, repoFind_eq_none]

theorem newUrls_lt {urls : List CStr} {url : CStr} {db db' : Db} {id : Int} (hurl : url ∈ urls)
    (hnew : url.bytes ∉ db.repos.map RepoRow.url)
    (hrepos : db'.repos = db.repos ++ [⟨id, url.bytes⟩]) :
    (newUrls urls db').length < (newUrls urls db).length := by
  have hurls : db'.repos.map RepoRow.url = db.repos.map RepoRow.url ++ [url.bytes] := by
    rw [hrepos, List.map_append, List.map_singleton]
  have hfilter : newUrls urls db' = (newUrls urls db).filter fun u => u.bytes ≠ url.bytes := by
    rw [newUrls, newUrls, List.filter_filter]
    refine List.filter_congr fun u _ => Bool.eq_iff_iff.2 ?_
    rw [Bool.and_eq_true, decide_eq_true_iff, Option.isNone_iff_eq_none,
      Option.isNone_iff_eq_none, repoFind_eq_none, repoFind_eq_none, hurls, List.mem_append,
      List.mem_singleton, not_or, and_comm]
  rw [hfilter, List.length_filter_lt_length_iff_exists]
  exact ⟨url, mem_newUrls.2 ⟨hurl, hnew⟩, by simp⟩

/-! ## Statements that do not fail -/

variable {a : Attempt} {call : Call} {db db₀ : Db}

/-- The repository is inserted, unless it is there. -/
theorem callStep_insertRepo (hfault : a.fault = none) (hphase : call.phase = .insertRepo)
    {urls : List CStr} (hurl : call.url ∈ urls)
    (hroom : Leaves (newUrls urls db).length (db.repos.map RepoRow.id)) :
    ∃ db', callStep a call db = (.findRepo, db') ∧ db'.runs = db.runs ∧ db.repos <+: db'.repos ∧
      call.url.bytes ∈ db'.repos.map RepoRow.url ∧
      Leaves (newUrls urls db').length (db'.repos.map RepoRow.id) := by
  have hzero : ¬ (0 : Int32) < 0 := by decide
  -- what the statement does decides what the call does
  have hstep : ∀ db', repoInsert a.candidate db call.url = some db' →
      callStep a call db = (.findRepo, db') := by
    intro db' h
    simp only [callStep, hphase, storageSqliteInsertRepoStmt, hfault, h, if_neg hzero]
  rcases repoInsert_cases a.candidate db call.url with
    ⟨hold, h⟩ | ⟨hnew, hnone, -⟩ | ⟨hnew, id, db', hid, h, hrepos, hruns⟩
  · exact ⟨db, hstep db h, rfl, List.prefix_rfl, hold, hroom⟩
  · have hmem : call.url ∈ newUrls urls db := mem_newUrls.2 ⟨hurl, hnew⟩
    have hpos := List.length_pos_of_mem hmem
    obtain ⟨id, hid, -⟩ := leaves_newRowid (n := (newUrls urls db).length - 1)
      (hroom.mono (by omega)) a.candidate
    rw [hnone] at hid
    cases hid
  · have hlt := newUrls_lt hurl hnew hrepos
    obtain ⟨id', hid', -, hroom'⟩ := leaves_newRowid (n := (newUrls urls db').length)
      (hroom.mono hlt) a.candidate
    rw [hid, Option.some.injEq] at hid'
    refine ⟨db', hstep db' h, hruns, by simp [hrepos], by simp [hrepos], ?_⟩
    rw [hrepos, List.map_append, List.map_singleton, hid']
    exact hroom'

theorem callStep_findRepo (hfault : a.fault = none) (hphase : call.phase = .findRepo)
    (hurl : call.url.bytes ∈ db.repos.map RepoRow.url) {n : Nat}
    (hroom : Leaves n (db.repos.map RepoRow.id)) :
    ∃ repo ∈ db.repos, repo.url = call.url.bytes ∧ (columnInt repo.id).toInt = repo.id ∧
      callStep a call db = (.insertRun (columnInt repo.id), db) := by
  obtain ⟨repo, hrepo, heq⟩ := List.mem_map.1 hurl
  obtain ⟨hint, hpos⟩ := hroom.inInt32 (List.mem_map_of_mem hrepo)
  have hneg : ¬ columnInt repo.id < 0 := by
    rw [columnInt_neg_iff hint]
    omega
  refine ⟨repo, hrepo, heq, (toInt_ofInt_iff _).2 hint, ?_⟩
  simp only [callStep, hphase, storageSqliteFindRepo, hfault, repoFind_of_mem hrepo heq,
    if_neg hneg]

/-- The run is inserted under a new key, which is an `int`, and its row stays. -/
theorem callStep_insertRun (hfault : a.fault = none) (hback : a.rollback = false) {repoId : Int32}
    (hphase : call.phase = .insertRun repoId) (hrepo : repoId.toInt ∈ db.repos.map RepoRow.id)
    {n : Nat} (hroom : Leaves (n + 1) (db.runs.map RunRow.id)) :
    ∃ id db', callStep a call db = (.returned (columnInt id), db') ∧ db'.repos = db.repos ∧
      db'.runs = db.runs ++ [insertedRow id repoId call.rev] ∧ id ∉ db.runs.map RunRow.id ∧
      Leaves n (db'.runs.map RunRow.id) ∧ (columnInt id).toInt = id ∧ ¬ columnInt id < 0 := by
  obtain ⟨id', hid', hfresh, hroom'⟩ := leaves_newRowid hroom a.candidate
  rcases runInsert_cases a.candidate db .created repoId.toInt call.rev with
    ⟨hnot, -⟩ | ⟨-, hnone, -⟩ | ⟨-, id, db', hid, h, hrepos, hruns⟩
  · exact absurd hrepo hnot
  · rw [hnone] at hid'
    cases hid'
  · rw [hid, Option.some.injEq] at hid'
    rw [← hid'] at hfresh hroom'
    obtain ⟨hint, hpos⟩ := hroom'.inInt32 (List.mem_append_right _ (List.mem_singleton_self id))
    refine ⟨id, db', ?_, hrepos, hruns, hfresh, ?_, (toInt_ofInt_iff _).2 hint, ?_⟩
    · simp only [callStep, hphase, storageSqliteInsertRun, hfault, h, hback, Bool.false_eq_true,
        if_false]
    · rw [hruns, List.map_append, List.map_singleton]
      exact hroom'
    · rw [columnInt_neg_iff hint]
      omega

/-! ## Runs -/

/-- What a call that has returned `ret` has made: a row that was not there before, for its own
URL and revision. -/
structure Made (db₀ db : Db) (call : Call) (ret : Int32) : Prop where
  nonneg : ¬ ret < 0
  fresh : ret.toInt ∉ db₀.runs.map RunRow.id
  row : ∃ row ∈ db.runs, row.id = ret.toInt ∧ row.status = RunStatus.created.code.toInt ∧
    row.exitCode = -1 ∧ row.repoRev = call.rev.bytes ∧
    ∃ repo ∈ db.repos, repo.id = row.repoId ∧ repo.url = call.url.bytes

/-- What a call relies on, and what it has made. -/
def PhaseInv (db₀ db : Db) (call : Call) : Prop :=
  match call.phase with
  | .insertRepo => True
  | .findRepo => call.url.bytes ∈ db.repos.map RepoRow.url
  | .insertRun repoId => ∃ repo ∈ db.repos, repo.id = repoId.toInt ∧ repo.url = call.url.bytes
  | .returned ret => Made db₀ db call ret ∧ ret.toInt ∈ db.runs.map RunRow.id

theorem PhaseInv.mono {db' : Db} (h : PhaseInv db₀ db call) (hrepos : db.repos <+: db'.repos)
    (hruns : db.runs <+: db'.runs) : PhaseInv db₀ db' call := by
  unfold PhaseInv at h ⊢
  split
  · trivial
  · rename_i hphase
    rw [hphase] at h
    exact (hrepos.map _).subset h
  · rename_i repoId hphase
    rw [hphase] at h
    obtain ⟨repo, hrepo, h⟩ := h
    exact ⟨repo, hrepos.subset hrepo, h⟩
  · rename_i ret hphase
    rw [hphase] at h
    obtain ⟨⟨hnonneg, hfresh, row, hrow, hid, hstatus, hexit, hrev, repo, hrepo, h⟩, hmem⟩ := h
    exact ⟨⟨hnonneg, hfresh, row, hruns.subset hrow, hid, hstatus, hexit, hrev, repo,
      hrepos.subset hrepo, h⟩, (hruns.map _).subset hmem⟩

/-- A call has not returned. -/
def Call.pending (call : Call) : Bool :=
  match call.phase with
  | .returned _ => false
  | _ => true

/-- No two calls have returned the same key. -/
def Distinct (calls : List Call) : Prop :=
  ∀ (i j : Nat) (ci cj : Call) (ret : Int32), calls[i]? = some ci → calls[j]? = some cj →
    ci.phase = .returned ret → cj.phase = .returned ret → i = j

/-- **The invariant** of the calls and the database. -/
structure Inv (db₀ : Db) (args : List (CStr × CStr)) (s : Creating) : Prop where
  calls : s.calls.map (fun call => (call.url, call.rev)) = args
  repos : db₀.repos <+: s.db.repos
  runs : db₀.runs <+: s.db.runs
  repoRoom : Leaves (newUrls (args.map Prod.fst) s.db).length (s.db.repos.map RepoRow.id)
  runRoom : Leaves (s.calls.countP Call.pending) (s.db.runs.map RunRow.id)
  phases : ∀ call ∈ s.calls, PhaseInv db₀ s.db call
  distinct : Distinct s.calls

variable {args : List (CStr × CStr)} {s : Creating}

/-- **A call moves**, and the others keep what they have. -/
theorem Inv.set (hinv : Inv db₀ args s) {i : Nat} (hi : s.calls[i]? = some call) {phase : Phase}
    {db : Db} (hrepos : s.db.repos <+: db.repos) (hruns : s.db.runs <+: db.runs)
    (hrepoRoom : Leaves (newUrls (args.map Prod.fst) db).length (db.repos.map RepoRow.id))
    (hrunRoom : Leaves ((s.calls.set i { call with phase }).countP Call.pending)
      (db.runs.map RunRow.id))
    (hphase : PhaseInv db₀ db { call with phase })
    (hfresh : ∀ ret, phase = .returned ret → call.phase = .returned ret ∨
      ∀ other ∈ s.calls, other.phase ≠ .returned ret) :
    Inv db₀ args ⟨db, s.calls.set i { call with phase }⟩ := by
  have hlt : i < s.calls.length := by
    obtain ⟨h, -⟩ := List.getElem?_eq_some_iff.1 hi
    exact h
  refine ⟨?_, hinv.repos.trans hrepos, hinv.runs.trans hruns, hrepoRoom, hrunRoom, ?_, ?_⟩
  · rw [List.map_set, ← hinv.calls]
    refine List.ext_getElem? fun j => ?_
    rw [List.getElem?_set]
    split
    · rename_i heq
      subst heq
      rw [if_pos (by simpa using hlt), List.getElem?_map, hi, Option.map_some]
    · rfl
  · intro other hother
    rcases List.mem_or_eq_of_mem_set hother with hold | rfl
    · exact (hinv.phases other hold).mono hrepos hruns
    · exact hphase
  · -- the value of the call that moves is one no other call has returned
    have hone : ∀ (j : Nat) (cj : Call) (ret : Int32), phase = .returned ret →
        s.calls[j]? = some cj → cj.phase = .returned ret → i = j := by
      intro j cj ret hret hj hcj
      rcases hfresh ret hret with hsame | hnone
      · exact hinv.distinct i j call cj ret hi hj hsame hcj
      · exact absurd hcj (hnone cj (List.mem_of_getElem? hj))
    intro j k cj ck ret hj hk hcj hck
    rw [List.getElem?_set] at hj hk
    by_cases hij : i = j
    · by_cases hik : i = k
      · rw [← hij, ← hik]
      · rw [if_neg hik] at hk
        rw [if_pos hij, if_pos hlt, Option.some.injEq] at hj
        subst hj
        exact absurd (hone k ck ret hcj hk hck) hik
    · rw [if_neg hij] at hj
      by_cases hik : i = k
      · rw [if_pos hik, if_pos hlt, Option.some.injEq] at hk
        subst hk
        exact absurd (hone j cj ret hck hj hcj) hij
      · rw [if_neg hik] at hk
        exact hinv.distinct j k cj ck ret hj hk hcj hck

theorem pending_set {calls : List Call} {i : Nat} (hi : calls[i]? = some call) (phase : Phase) :
    (calls.set i { call with phase }).countP Call.pending + (if call.pending then 1 else 0) =
      calls.countP Call.pending +
        (if ({ call with phase } : Call).pending then 1 else 0) := by
  obtain ⟨hlt, heq⟩ := List.getElem?_eq_some_iff.1 hi
  have hone : call.pending = true → 0 < calls.countP Call.pending := fun h =>
    List.countP_pos_iff.2 ⟨call, List.mem_of_getElem? hi, h⟩
  rw [List.countP_set hlt, heq]
  split
  · have := hone ‹_›
    omega
  · omega

/-- **A statement that does not fail keeps the invariant**, whichever call it is of. -/
theorem step_inv (hinv : Inv db₀ args s) (i : Nat) (hfault : a.fault = none)
    (hback : a.rollback = false) : Inv db₀ args (step s i a) := by
  unfold step
  split
  · exact hinv
  · rename_i call hi
    have hcall := List.mem_of_getElem? hi
    have hurl : call.url ∈ args.map Prod.fst := by
      rw [← hinv.calls, List.map_map]
      exact List.mem_map_of_mem (f := fun call : Call => call.url) hcall
    have hphase := hinv.phases call hcall
    unfold PhaseInv at hphase
    cases hat : call.phase with
    | insertRepo =>
      obtain ⟨db', hstep, hruns, hrepos, hrow, hroom⟩ :=
        callStep_insertRepo hfault hat hurl hinv.repoRoom
      have hpending := pending_set hi .findRepo
      simp only [Call.pending, hat, if_true] at hpending
      simp only [hstep]
      refine hinv.set hi hrepos (hruns ▸ List.prefix_rfl) hroom ?_ hrow (by simp)
      rw [hruns]
      exact hinv.runRoom.mono (by omega)
    | findRepo =>
      rw [hat] at hphase
      obtain ⟨repo, hrepo, heq, hint, hstep⟩ :=
        callStep_findRepo hfault hat hphase hinv.repoRoom
      have hpending := pending_set hi (.insertRun (columnInt repo.id))
      simp only [Call.pending, hat, if_true] at hpending
      simp only [hstep]
      exact hinv.set hi List.prefix_rfl List.prefix_rfl hinv.repoRoom
        (hinv.runRoom.mono (by omega)) ⟨repo, hrepo, hint.symm, heq⟩ (by simp)
    | insertRun repoId =>
      rw [hat] at hphase
      obtain ⟨repo, hrepo, hid, heq⟩ := hphase
      have hmem : repoId.toInt ∈ s.db.repos.map RepoRow.id := hid ▸ List.mem_map_of_mem hrepo
      have hcount : s.calls.countP Call.pending =
          (s.calls.countP Call.pending - 1) + 1 := by
        have := List.countP_pos_iff (p := Call.pending).2
          ⟨call, hcall, by simp only [Call.pending, hat]⟩
        omega
      obtain ⟨id, db', hstep, hrepos, hruns, hnew, hroom, hint, hneg⟩ :=
        callStep_insertRun hfault hback hat hmem (hcount ▸ hinv.runRoom)
      have hpending := pending_set hi (.returned (columnInt id))
      simp only [Call.pending, hat, if_true, Bool.false_eq_true, if_false] at hpending
      have hprefix : s.db.runs <+: db'.runs := by simp [hruns]
      have hidmem : id ∈ db'.runs.map RunRow.id := by simp [hruns, insertedRow]
      simp only [hstep]
      refine hinv.set hi (hrepos ▸ List.prefix_rfl) hprefix
        (by simpa [newUrls, repoFind, hrepos] using hinv.repoRoom) (hroom.mono (by omega)) ?_ ?_
      · refine ⟨⟨hneg, ?_, insertedRow id repoId call.rev, by simp [hruns], hint.symm, rfl, rfl,
          rfl, repo, by rwa [hrepos], hid, heq⟩, by rwa [hint]⟩
        rw [hint]
        exact fun hold => hnew ((hinv.runs.map _).subset hold)
      · -- a key that was returned before is the key of a row
        rintro ret hret
        refine .inr fun other hother hat' => hnew ?_
        have hmade := hinv.phases other hother
        unfold PhaseInv at hmade
        rw [hat'] at hmade
        rw [← hint, Phase.returned.inj hret]
        exact hmade.2
    | returned ret =>
      have hsame : callStep a call s.db = (call.phase, s.db) := by simp only [callStep, hat]
      have hpending := pending_set hi call.phase
      simp only [Call.pending, hat, Bool.false_eq_true, if_false] at hpending
      simp only [hsame, hat]
      exact hinv.set hi List.prefix_rfl List.prefix_rfl hinv.repoRoom
        (hinv.runRoom.mono (by omega)) (hat ▸ hinv.phases call hcall)
        fun _ hret => .inl (hat.trans hret)

/-- **A schedule in which no statement fails keeps the invariant.** -/
theorem run_inv (schedule : List (Nat × Attempt))
    (hfaults : ∀ p ∈ schedule, p.2.fault = none ∧ p.2.rollback = false) :
    ∀ {s : Creating}, Inv db₀ args s → Inv db₀ args (run s schedule) := by
  induction schedule with
  | nil => exact fun hinv => hinv
  | cons p schedule ih =>
    intro s hinv
    exact ih (fun q hq => hfaults q (List.mem_cons_of_mem _ hq))
      (step_inv hinv p.1 (hfaults p List.mem_cons_self).1 (hfaults p List.mem_cons_self).2)

/-! ## Calls return -/

/-- The statements a call has left to execute, at most. -/
def Phase.rest : Phase → Nat
  | .insertRepo => 3
  | .findRepo => 2
  | .insertRun _ => 1
  | .returned _ => 0

theorem callStep_rest (a : Attempt) (call : Call) (db : Db) :
    (callStep a call db).1.rest ≤ call.phase.rest - 1 := by
  cases hphase : call.phase with
  | insertRepo =>
    by_cases hret : (storageSqliteInsertRepoStmt a db call.url).1 < 0
    · simp [callStep, hphase, hret, Phase.rest]
    · simp [callStep, hphase, hret, Phase.rest]
  | findRepo =>
    by_cases hret : storageSqliteFindRepo a db call.url < 0
    · simp [callStep, hphase, hret, Phase.rest]
    · simp [callStep, hphase, hret, Phase.rest]
  | insertRun repoId => simp [callStep, hphase, Phase.rest]
  | returned ret => simp [callStep, hphase, Phase.rest]

/-- The statements that the call at an index has left. -/
def restAt (s : Creating) (i : Nat) : Nat := (s.calls[i]?).elim 0 fun call => call.phase.rest

theorem step_rest (s : Creating) (i j : Nat) (a : Attempt) :
    restAt (step s i a) j ≤ restAt s j - (if i = j then 1 else 0) := by
  unfold step
  split
  · rename_i hnone
    split
    · rename_i heq
      subst heq
      simp [restAt, hnone]
    · omega
  · rename_i call hi
    have hlt : i < s.calls.length := (List.getElem?_eq_some_iff.1 hi).1
    simp only [restAt, List.getElem?_set]
    by_cases hij : i = j
    · subst hij
      simp only [hlt, if_true, hi, Option.elim_some]
      exact callStep_rest a call s.db
    · simp [hij]

theorem run_rest (j : Nat) (schedule : List (Nat × Attempt)) :
    ∀ s : Creating, restAt (run s schedule) j ≤ restAt s j - (schedule.map Prod.fst).count j := by
  induction schedule with
  | nil => exact fun s => Nat.le_refl _
  | cons p schedule ih =>
    intro s
    have hrun := ih (step s p.1 p.2)
    have hstep := step_rest s p.1 j p.2
    rw [run, List.map_cons, List.count_cons]
    by_cases hp : p.1 = j
    · simp only [hp, if_true, beq_self_eq_true] at hstep hrun ⊢
      omega
    · simp only [hp, if_false, beq_iff_eq] at hstep ⊢
      omega

/-! ## The contract -/

/-- **The contract** of calls started on a database, after a schedule: a call that has executed
its three statements has returned; what it has returned is the key of its own new row; and no row
that was there before has changed. -/
structure Creates (db₀ : Db) (args : List (CStr × CStr)) (schedule : List (Nat × Attempt))
    (s : Creating) : Prop where
  calls : s.calls.map (fun call => (call.url, call.rev)) = args
  returns : ∀ (i : Nat) (call : Call), 3 ≤ (schedule.map Prod.fst).count i →
    s.calls[i]? = some call → ∃ ret, call.phase = .returned ret
  made : ∀ call ∈ s.calls, ∀ ret, call.phase = .returned ret → Made db₀ s.db call ret
  distinct : Distinct s.calls
  urls : (s.db.repos.map RepoRow.url).Nodup
  repos : db₀.repos <+: s.db.repos
  runs : db₀.runs <+: s.db.runs

theorem start_inv {db₀ : Db} {args : List (CStr × CStr)}
    (hrepos : Leaves (newUrls (args.map Prod.fst) db₀).length (db₀.repos.map RepoRow.id))
    (hruns : Leaves args.length (db₀.runs.map RunRow.id)) : Inv db₀ args (start db₀ args) := by
  have hphase : ∀ call ∈ (start db₀ args).calls, call.phase = .insertRepo := by
    intro call hcall
    obtain ⟨arg, -, rfl⟩ := List.mem_map.1 hcall
    rfl
  have hcalls : (start db₀ args).calls.map (fun call => (call.url, call.rev)) = args := by
    rw [start, List.map_map]
    exact List.map_id args
  refine ⟨hcalls, List.prefix_rfl, List.prefix_rfl, hrepos, hruns.mono ?_, ?_, ?_⟩
  · have hle := List.countP_le_length (p := Call.pending) (l := (start db₀ args).calls)
    simpa [start] using hle
  · intro call hcall
    simp only [PhaseInv, hphase call hcall]
  · intro i j ci cj ret hi _ hci _
    rw [hphase ci (List.mem_of_getElem? hi)] at hci
    cases hci

/-- **Calls of `storage_run_create` do not disturb each other**, however their statements follow
one another, if the keys are not negative and there are enough of them below 2^31. -/
theorem run_create_concurrent (db₀ : Db) (args : List (CStr × CStr))
    (schedule : List (Nat × Attempt))
    (hrepos : Leaves (newUrls (args.map Prod.fst) db₀).length (db₀.repos.map RepoRow.id))
    (hruns : Leaves args.length (db₀.runs.map RunRow.id))
    (hfaults : ∀ p ∈ schedule, p.2.fault = none ∧ p.2.rollback = false) :
    Creates db₀ args schedule (run (start db₀ args) schedule) := by
  have hinv := run_inv schedule hfaults (start_inv hrepos hruns)
  refine ⟨hinv.calls, ?_, ?_, hinv.distinct, Db.repoUrls _, hinv.repos, hinv.runs⟩
  · intro i call hcount hi
    have hstart : restAt (start db₀ args) i ≤ 3 := by
      unfold restAt start
      cases h : (args.map fun arg => (⟨arg.1, arg.2, .insertRepo⟩ : Call))[i]? with
      | none => simp
      | some c =>
        obtain ⟨arg, -, rfl⟩ := List.mem_map.1 (List.mem_of_getElem? h)
        simp [Phase.rest]
    have hrest := run_rest i schedule (start db₀ args)
    have hzero : call.phase.rest = 0 := by
      simp only [restAt, hi, Option.elim_some] at hrest hstart
      omega
    cases hphase : call.phase with
    | returned ret => exact ⟨ret, rfl⟩
    | insertRepo => simp [hphase, Phase.rest] at hzero
    | findRepo => simp [hphase, Phase.rest] at hzero
    | insertRun repoId => simp [hphase, Phase.rest] at hzero
  · intro call hcall ret hret
    have hphase := hinv.phases call hcall
    unfold PhaseInv at hphase
    rw [hret] at hphase
    exact hphase.1

/-- A database with a repository whose key is negative. -/
def negativeDb : Db where
  repos := [⟨-1, (CStr.ofAscii "repo").bytes⟩]
  runStatus := v01RunStatus
  runs := []
  statusRows := v01.statusRows
  repoIds := List.nodup_singleton _
  repoUrls := List.nodup_singleton _
  runIds := List.nodup_nil
  repoIdsRange := List.forall_mem_singleton.2 (by decide)
  runIdsRange := v01.runIdsRange
  statusRefs := v01.statusRefs
  repoRefs := List.forall_mem_nil _

/-- `repo HEAD`. -/
def oneCall : List (CStr × CStr) := [(.ofAscii "repo", .ofAscii "HEAD")]

/-- One call, which executes its three statements. -/
def alone : List (Nat × Attempt) := [(0, noFault), (0, noFault), (0, noFault)]

/-- All keys are below 2^31 and no statement fails, and yet a call returns a negative value: the
key it gives out is 2^31, or its repository has a negative key. -/
theorem run_create_crowded :
    ((∀ repo ∈ crowdedDb.repos, repo.id < 2147483648) ∧
      (∀ run ∈ crowdedDb.runs, run.id < 2147483648) ∧
      ¬ Creates crowdedDb oneCall alone (run (start crowdedDb oneCall) alone)) ∧
    (∀ repo ∈ negativeDb.repos, repo.id < 2147483648) ∧
      (∀ run ∈ negativeDb.runs, run.id < 2147483648) ∧
      ¬ Creates negativeDb oneCall alone (run (start negativeDb oneCall) alone) := by
  refine ⟨⟨by decide, by decide, fun h => ?_⟩, by decide, by decide, fun h => ?_⟩
  · exact (h.made ⟨.ofAscii "repo", .ofAscii "HEAD", .returned (-2147483648)⟩
      (List.mem_singleton_self _) _ rfl).nonneg (by decide)
  · exact (h.made ⟨.ofAscii "repo", .ofAscii "HEAD", .returned (-1)⟩
      (List.mem_singleton_self _) _ rfl).nonneg (by decide)

/-- Two calls for one URL that take turns, on an empty database. -/
theorem run_create_turns :
    Creates v01 (oneCall ++ oneCall)
      [(0, noFault), (1, noFault), (1, noFault), (0, noFault), (1, noFault), (0, noFault)]
      (run (start v01 (oneCall ++ oneCall))
        [(0, noFault), (1, noFault), (1, noFault), (0, noFault), (1, noFault), (0, noFault)]) :=
  run_create_concurrent v01 _ _ ⟨by decide, by decide⟩ ⟨by decide, by decide⟩ (by
    simp only [List.mem_cons, List.not_mem_nil, or_false]
    rintro p (rfl | rfl | rfl | rfl | rfl | rfl) <;> exact ⟨rfl, rfl⟩)

end Cimple.Creation
