import Cimple.Lib.Tokens
import Cimple.Lib.Runs
import Cimple.Storage

/-!
# Prepared statements and their mutexes (`storage_sqlite.c`)

The threads of the server share one connection to the database and one prepared statement of each
kind.  A function of the storage locks its statement, binds its parameters one by one, makes one
step, reads a column, resets the statement and unlocks it; other threads move in between.

* `Call` — the functions that make one step; `Task` — the functions called from outside, which call
  one or three of them.
* `sqliteStep` — a step of a statement with the parameters that are bound to it, whoever has bound
  them; one without its parameters, or with parameters of other types, is not modelled.
* `Storage`, `Storage.step` — the threads, the statements and the database, as the connection sees
  it and as it is committed; a thread moves by one call of SQLite or of the mutex at a time.
* `Calls`, `Calls.step` — the same where a call is made at once, and an insertion of a run is
  committed or rolled back at a later moment (`make_settle`: alone, as `Storage.lean` has it).
* `Storage.calls` — what a state amounts to there: a call counts from its step on.

A statement commits in its last step, but not while another of the connection is at a row it has
inserted.  `INSERT ... RETURNING` is left at its row until it is reset, and then commits what all
threads have written since; if that fails all of it is rolled back, and `sqlite_reset` only logs
the failure.

The statements that read many rows are stepped many times, and are not in here; a mutex that is
locked can be unlocked.

Principal results: `statements_atomic` and `no_deadlock`.
-/

set_option autoImplicit false

namespace Cimple.Statements

open Octets Cimple.RunQueue Cimple.Protocol Cimple.Storage

/-! ## Calls -/

/-- The prepared statements that are stepped once. -/
inductive Stmt where
  | repoFind
  | repoInsert
  | runInsert
  | runFinished
  deriving DecidableEq

/-- A value that is bound to a parameter. -/
inductive Value where
  | int (n : Int32)
  | text (s : CStr)
  | blob (data : Bytes)

/-- The functions that make a step, with their arguments. -/
inductive Call where
  | insertRepo (url : CStr)
  | findRepo (url : CStr)
  | insertRun (repoId : Int32) (rev : CStr)
  | runFinished (runId : Int32) (output : ProcessOutput)

def Call.stmt : Call → Stmt
  | .insertRepo _ => .repoInsert
  | .findRepo _ => .repoFind
  | .insertRun _ _ => .runInsert
  | .runFinished _ _ => .runFinished

/-- The parameters a function binds, in order. -/
def Call.binds : Call → List (Nat × Value)
  | .insertRepo url => [(1, .text url)]
  | .findRepo url => [(1, .text url)]
  | .insertRun repoId rev =>
    [(1, .int RunStatus.created.code), (2, .int repoId), (3, .text rev)]
  | .runFinished runId output =>
    [(1, .int RunStatus.finished.code), (2, .int output.ec), (3, .blob output.data),
      (4, .int runId)]

/-- A call that is made at once. -/
def Call.run (a : Attempt) (db : Db) : Call → Int32 × Db
  | .insertRepo url => storageSqliteInsertRepoStmt a db url
  | .findRepo url => (storageSqliteFindRepo a db url, db)
  | .insertRun repoId rev => storageSqliteInsertRun a db repoId rev
  | .runFinished runId output => storageSqliteRunFinished a db runId output

/-- `storage_sqlite_run_create` and `storage_sqlite_run_finished`. -/
inductive Task where
  | runCreate (repoUrl rev : CStr)
  | runFinished (runId : Int32) (output : ProcessOutput)

/-- Between its calls a thread is about to make one, or has returned. -/
inductive Next where
  | call (c : Call)
  | returned (ret : Int32)

def Task.first : Task → Next
  | .runCreate repoUrl _ => .call (.insertRepo repoUrl)
  | .runFinished runId output => .call (.runFinished runId output)

/-- What a thread does after a call. -/
def Task.after (task : Task) (c : Call) (ret : Int32) : Next :=
  if ret < 0 then .returned ret
  else
    match task, c with
    | .runCreate _ _, .insertRepo url => .call (.findRepo url)
    | .runCreate _ rev, .findRepo _ => .call (.insertRun ret rev)
    | _, _ => .returned ret

/-! ## Statements -/

/-- `struct prepared_stmt`: who has locked its mutex, the parameters that are bound, in order, and
the first column of the row it is at. -/
structure PreparedStmt where
  holder : Option Nat
  bindings : List (Nat × Value)
  row : Option Int

/-- A statement nobody uses. -/
def PreparedStmt.clean : PreparedStmt := ⟨none, [], none⟩

/-- `sqlite_step`, with the value of the parameter `n`: 1 with a row, 0 without, or a negative
value. -/
def sqliteStep (a : Attempt) (stmt : Stmt) (bindings : List (Nat × Value)) (db : Db) :
    Option (Int32 × Option Int × Db) :=
  match a.fault with
  | some e => some (e, none, db)
  | none =>
    match stmt, bindings.lookup 1, bindings.lookup 2, bindings.lookup 3, bindings.lookup 4 with
    | .repoFind, some (.text url), _, _, _ =>
      some (match repoFind db url with
        | none => (0, none, db)
        | some id => (1, some id, db))
    | .repoInsert, some (.text url), _, _, _ =>
      some (match repoInsert a.candidate db url with
        | none => (sqliteFull, none, db)
        | some db => (0, none, db))
    | .runInsert, some (.int status), some (.int repoId), some (.text rev), _ =>
      if status = RunStatus.created.code then
        some (match runInsert a.candidate db .created repoId.toInt rev with
          | .error e => (e, none, db)
          | .ok (id, db) => (1, some id, db))
      else none
    | .runFinished, some (.int status), some (.int ec), some (.blob data), some (.int runId) =>
      if status = RunStatus.finished.code then
        some (0, none, runUpdate db .finished ec.toInt data runId.toInt)
      else none
    | _, _, _, _, _ => none

/-- What a function makes of the value of `sqlite_step`; reading a column where there is no row is
undefined. -/
def Call.column (c : Call) (ret : Int32) (row : Option Int) : Option Int32 :=
  if ret < 0 then some ret
  else
    match c with
    | .insertRepo _ | .runFinished _ _ => some ret
    | .findRepo _ => if ret = 0 then some ret else row.map columnInt
    | .insertRun _ _ => if ret = 0 then some (-1) else row.map columnInt

/-! ## Threads -/

/-- Where a thread is: between calls, or in one, with the mutex of its statement locked. -/
inductive Pc where
  | outside (next : Next)
  /-- Before the rest of its `sqlite_bind_*`, and then `sqlite_step`. -/
  | binding (c : Call) (rest : List (Nat × Value))
  /-- Before it reads a column. -/
  | stepped (c : Call) (ret : Int32)
  /-- Before `sqlite_reset`. -/
  | resetting (c : Call) (ret : Int32)
  /-- Before `prepared_stmt_unlock`. -/
  | unlocking (c : Call) (ret : Int32)

structure Thread where
  task : Task
  pc : Pc

/-- `db` is what the connection sees, `kept` what is committed. -/
structure Storage where
  db : Db
  kept : Db
  stmts : Stmt → PreparedStmt
  threads : List Thread

/-- A new thread calls a function, or a thread moves. -/
inductive Action where
  | start (task : Task)
  | move (i : Nat) (attempt : Attempt)

/-- A thread has moved on. -/
def Storage.setPc (s : Storage) (i : Nat) (task : Task) (pc : Pc) : Storage :=
  { s with threads := s.threads.set i ⟨task, pc⟩ }

/-- A thread has moved on, and its statement has changed. -/
def Storage.setStmt (s : Storage) (i : Nat) (task : Task) (pc : Pc) (stmt : Stmt)
    (p : PreparedStmt) : Storage :=
  { s with
    threads := s.threads.set i ⟨task, pc⟩
    stmts := Function.update s.stmts stmt p }

/-- An insertion of a run is at its row. -/
def Storage.inserting (s : Storage) : Bool := (s.stmts .runInsert).row.isSome

/-- A step has been made.  One that fails may roll back whatever is not committed; one that does not
commits, unless an insertion of a run is at its row. -/
def Storage.write (s : Storage) (a : Attempt) (ret : Int32) (db : Db) : Storage :=
  { s with
    db := if ret < 0 then (if a.rollback then s.kept else s.db) else db
    kept := if ret < 0 then s.kept else if s.inserting then s.kept else db }

/-- `sqlite_reset` of an insertion that is at its row: what is not committed is, or is rolled back.
-/
def Storage.settle (s : Storage) (a : Attempt) : Storage :=
  { s with
    db := if a.rollback then s.kept else s.db
    kept := if a.rollback then s.kept else s.db }

/-- A thread moves; one that waits for a mutex stays where it is. -/
def Storage.move (s : Storage) (i : Nat) (a : Attempt) : Option Storage :=
  match s.threads[i]? with
  | none => some s
  | some ⟨task, pc⟩ =>
    match pc with
    | .outside (.returned _) => some s
    | .outside (.call c) =>
      match a.fault with
      | some e => some (s.setPc i task (.outside (task.after c e)))
      | none =>
        if (s.stmts c.stmt).holder.isSome then some s
        else some (s.setStmt i task (.binding c c.binds) c.stmt
          { s.stmts c.stmt with holder := some i })
    | .binding c (bind :: rest) =>
      match a.fault with
      | some e => some (s.setPc i task (.resetting c e))
      | none => some (s.setStmt i task (.binding c rest) c.stmt
          { s.stmts c.stmt with bindings := (s.stmts c.stmt).bindings ++ [bind] })
    | .binding c [] => do
      let (ret, row, db) ← sqliteStep a c.stmt (s.stmts c.stmt).bindings s.db
      some ((s.setStmt i task (.stepped c ret) c.stmt { s.stmts c.stmt with row }).write a ret db)
    | .stepped c ret => do
      let ret ← c.column ret (s.stmts c.stmt).row
      some (s.setPc i task (.resetting c ret))
    | .resetting c ret =>
      let s' := if c.stmt = .runInsert ∧ s.inserting = true then s.settle a else s
      some (s'.setStmt i task (.unlocking c ret) c.stmt
        { s.stmts c.stmt with bindings := [], row := none })
    | .unlocking c ret =>
      some (s.setStmt i task (.outside (task.after c ret)) c.stmt
        { s.stmts c.stmt with holder := none })

/-- A step; `none` is undefined behaviour, or what is not modelled. -/
def Storage.step (s : Storage) : Action → Option Storage
  | .start task => some { s with threads := s.threads ++ [⟨task, .outside task.first⟩] }
  | .move i a => s.move i a

def Storage.run (s : Storage) (actions : List Action) : Option Storage :=
  actions.foldlM Storage.step s

/-- After `storage_sqlite_create`. -/
def Storage.initial (db : Db) : Storage := ⟨db, db, fun _ => .clean, []⟩

/-! ## Calls made at once -/

/-- The threads between their calls; `writer` is the one whose insertion of a run is at its row. -/
structure Calls where
  db : Db
  kept : Db
  writer : Option Nat
  threads : List (Task × Next)

/-- A thread makes its next call, or the insertion of a run is settled. -/
inductive Event where
  | start (task : Task)
  | make (i : Nat) (attempt : Attempt)
  | settle (i : Nat) (rollback : Bool)

/-- Whether the step of a call fails. -/
def Call.fails (a : Attempt) (db : Db) : Call → Bool
  | .insertRepo url => a.fault.isSome || (repoInsert a.candidate db url).isNone
  | .findRepo _ | .runFinished _ _ => a.fault.isSome
  | .insertRun repoId rev =>
    a.fault.isSome || (runInsert a.candidate db .created repoId.toInt rev).toOption.isNone

/-- A call whose row stays. -/
def Call.made (a : Attempt) (db : Db) (c : Call) : Int32 × Db :=
  c.run { a with rollback := false } db

/-- A thread makes its next call at once; a run it inserts is not committed yet, and neither is
anything else until then. -/
def Calls.make (s : Calls) (i : Nat) (a : Attempt) : Calls :=
  match s.threads[i]? with
  | some (task, .call c) =>
    let (ret, db) := c.made a s.db
    let threads := s.threads.set i (task, task.after c ret)
    if c.fails a s.db then { s with db := if a.rollback then s.kept else s.db, threads }
    else if c.stmt = .runInsert then { s with db, writer := some i, threads }
    else { s with db, kept := if s.writer.isSome then s.kept else db, threads }
  | _ => s

/-- What has been written since a run was inserted is committed, or rolled back. -/
def Calls.settle (s : Calls) (i : Nat) (rollback : Bool) : Calls :=
  if s.writer = some i then
    { s with
      db := if rollback then s.kept else s.db
      kept := if rollback then s.kept else s.db
      writer := none }
  else s

def Calls.step (s : Calls) : Event → Calls
  | .start task => { s with threads := s.threads ++ [(task, task.first)] }
  | .make i a => s.make i a
  | .settle i rollback => s.settle i rollback

/-- What a thread is about to do, if its call counts from its step on; a column that cannot be read
counts as no step. -/
def Thread.next (stmts : Stmt → PreparedStmt) (t : Thread) : Next :=
  match t.pc with
  | .outside next => next
  | .binding c _ => .call c
  | .stepped c ret =>
    match c.column ret (stmts c.stmt).row with
    | none => .call c
    | some ret => t.task.after c ret
  | .resetting c ret => t.task.after c ret
  | .unlocking c ret => t.task.after c ret

/-- Whose insertion of a run is at its row. -/
def Storage.writer (s : Storage) : Option Nat :=
  if s.inserting then (s.stmts .runInsert).holder else none

/-- What a state amounts to. -/
def Storage.calls (s : Storage) : Calls :=
  ⟨s.db, s.kept, s.writer, s.threads.map fun t => (t.task, t.next s.stmts)⟩

/-! ## A step of a statement -/

/-- The call a thread is in. -/
def Pc.inside : Pc → Option Call
  | .outside _ => none
  | .binding c _ | .stepped c _ | .resetting c _ | .unlocking c _ => some c

/-- What a thread that is in a call finds in its statement. -/
def Pc.Finds (p : PreparedStmt) : Pc → Prop
  | .outside _ => True
  | .binding c rest => p.bindings ++ rest = c.binds ∧ p.row = none
  | .stepped c ret => (c.column ret p.row).isSome = true
  | .resetting _ _ => True
  | .unlocking _ _ => p.bindings = [] ∧ p.row = none

/-- A statement is locked by the thread that is in a call of it, and clean if there is none. -/
structure Sound (s : Storage) : Prop where
  held : ∀ i t c, s.threads[i]? = some t → t.pc.inside = some c →
    (s.stmts c.stmt).holder = some i ∧ t.pc.Finds (s.stmts c.stmt)
  holder : ∀ stmt i, (s.stmts stmt).holder = some i →
    ∃ t c, s.threads[i]? = some t ∧ t.pc.inside = some c ∧ c.stmt = stmt
  free : ∀ stmt, (s.stmts stmt).holder = none → s.stmts stmt = .clean

/-- A thread's own statement, or one that nobody has locked. -/
def Mine (s : Storage) (pc : Pc) (stmt : Stmt) : Prop :=
  (∃ c, pc.inside = some c ∧ c.stmt = stmt) ∨ pc.inside = none ∧ (s.stmts stmt).holder = none

theorem Sound.others {s : Storage} (h : Sound s) {i j : Nat} {t u : Thread} {stmt : Stmt}
    (hi : s.threads[i]? = some t) (hj : s.threads[j]? = some u) (hne : j ≠ i)
    (hmine : Mine s t.pc stmt) {c : Call} (hc : u.pc.inside = some c) : c.stmt ≠ stmt := by
  rintro rfl
  have hheld := (h.held j u c hj hc).1
  rcases hmine with ⟨c', hc', heq⟩ | ⟨-, hfree⟩
  · have hheld' := (h.held i t c' hi hc').1
    rw [heq, hheld] at hheld'
    exact hne (Option.some.inj hheld')
  · rw [hfree] at hheld
    cases hheld

theorem set_getElem?_cases {α : Type} {l : List α} {i j : Nat} {a b : α}
    (h : (l.set i a)[j]? = some b) : j = i ∧ b = a ∨ j ≠ i ∧ l[j]? = some b := by
  by_cases hji : j = i
  · subst hji
    obtain ⟨hlt, h⟩ := List.getElem?_eq_some_iff.1 h
    rw [List.getElem_set_self] at h
    exact .inl ⟨rfl, h.symm⟩
  · rw [List.getElem?_set_ne (Ne.symm hji)] at h
    exact .inr ⟨hji, h⟩

/-- **A thread changes its own statement**: it keeps it, or leaves it clean. -/
theorem Sound.setStmt {s : Storage} (h : Sound s) {i : Nat} {t : Thread}
    (hi : s.threads[i]? = some t) {pc : Pc} {stmt : Stmt} {p : PreparedStmt}
    (hmine : Mine s t.pc stmt)
    (hnext : (∃ c, pc.inside = some c ∧ c.stmt = stmt ∧ p.holder = some i ∧ pc.Finds p) ∨
      pc.inside = none ∧ p = .clean) : Sound (s.setStmt i t.task pc stmt p) := by
  have hlt := (List.getElem?_eq_some_iff.1 hi).1
  refine ⟨fun j u c hj hc => ?_, fun stmt' j hj => ?_, fun stmt' hfree => ?_⟩
  · rcases set_getElem?_cases hj with ⟨rfl, rfl⟩ | ⟨hne, hj⟩
    · rcases hnext with ⟨c', hc', rfl, hholder, hfinds⟩ | ⟨hnone, -⟩
      · obtain rfl : c' = c := Option.some.inj (hc'.symm.trans hc)
        simp only [Storage.setStmt, Function.update_self]
        exact ⟨hholder, hfinds⟩
      · rw [hnone] at hc
        cases hc
    · simp only [Storage.setStmt, Function.update_of_ne (h.others hi hj hne hmine hc)]
      exact h.held j u c hj hc
  · by_cases hstmt : stmt' = stmt
    · subst hstmt
      simp only [Storage.setStmt, Function.update_self] at hj
      rcases hnext with ⟨c, hc, heq, hholder, -⟩ | ⟨-, rfl⟩
      · obtain rfl : i = j := Option.some.inj (hholder.symm.trans hj)
        exact ⟨⟨t.task, pc⟩, c, List.getElem?_set_self hlt, hc, heq⟩
      · cases hj
    · simp only [Storage.setStmt, Function.update_of_ne hstmt] at hj
      obtain ⟨u, c, hu, hc, heq⟩ := h.holder stmt' j hj
      have hne : j ≠ i := by
        rintro rfl
        obtain rfl : t = u := Option.some.inj (hi.symm.trans hu)
        rcases hmine with ⟨c', hc', heq'⟩ | ⟨hnone, -⟩
        · obtain rfl : c' = c := Option.some.inj (hc'.symm.trans hc)
          exact hstmt (heq.symm.trans heq')
        · rw [hnone] at hc
          cases hc
      exact ⟨u, c, by rw [Storage.setStmt, List.getElem?_set_ne (Ne.symm hne)]; exact hu, hc, heq⟩
  · by_cases hstmt : stmt' = stmt
    · subst hstmt
      simp only [Storage.setStmt, Function.update_self] at hfree ⊢
      rcases hnext with ⟨-, -, -, hholder, -⟩ | ⟨-, rfl⟩
      · rw [hholder] at hfree
        cases hfree
      · rfl
    · simp only [Storage.setStmt, Function.update_of_ne hstmt] at hfree ⊢
      exact h.free stmt' hfree

theorem Sound.setPc {s : Storage} (h : Sound s) {i : Nat} {t : Thread}
    (hi : s.threads[i]? = some t) {pc : Pc} (hinside : pc.inside = t.pc.inside)
    (hfinds : ∀ c, pc.inside = some c → pc.Finds (s.stmts c.stmt)) :
    Sound (s.setPc i t.task pc) := by
  have hlt := (List.getElem?_eq_some_iff.1 hi).1
  refine ⟨fun j u c hj hc => ?_, fun stmt j hj => ?_, h.free⟩
  · rcases set_getElem?_cases hj with ⟨rfl, rfl⟩ | ⟨-, hj⟩
    · exact ⟨(h.held _ t c hi (hinside ▸ hc)).1, hfinds c hc⟩
    · exact h.held j u c hj hc
  · obtain ⟨u, c, hu, hc, heq⟩ := h.holder stmt j hj
    by_cases hji : j = i
    · subst hji
      obtain rfl : t = u := Option.some.inj (hi.symm.trans hu)
      exact ⟨⟨t.task, pc⟩, c, List.getElem?_set_self hlt, hinside.trans hc, heq⟩
    · exact ⟨u, c, by rw [Storage.setPc, List.getElem?_set_ne (Ne.symm hji)]; exact hu, hc, heq⟩

/-- No call has been made. -/
def Calls.initial (db : Db) : Calls := ⟨db, db, none, []⟩

/-- While no insertion of a run is open, all is committed. -/
def Calls.Settled (s : Calls) : Prop := s.writer = none → s.kept = s.db

theorem fails_run {a : Attempt} {c : Call} {db : Db} (h : c.fails a db = true) :
    (c.run a db).2 = db ∧ (c.made a db).1 = (c.run a db).1 := by
  cases hfault : a.fault with
  | some e =>
    cases c <;> simp [Call.made, Call.run, hfault, storageSqliteInsertRepoStmt,
      storageSqliteFindRepo, storageSqliteInsertRun, storageSqliteRunFinished]
  | none =>
    cases c with
    | insertRepo url =>
      simp only [Call.fails, hfault, Option.isSome_none, Bool.false_or, Option.isNone_iff_eq_none]
        at h
      simp [Call.made, Call.run, storageSqliteInsertRepoStmt, hfault, h]
    | findRepo url => simp [Call.fails, hfault] at h
    | insertRun repoId rev =>
      cases hinsert : runInsert a.candidate db .created repoId.toInt rev with
      | error e => simp [Call.made, Call.run, storageSqliteInsertRun, hfault, hinsert]
      | ok r => simp [Call.fails, hfault, hinsert, Except.toOption] at h
    | runFinished runId output => simp [Call.fails, hfault] at h

theorem made_of_ne {a : Attempt} {c : Call} {db : Db} (h : c.stmt ≠ .runInsert) :
    c.made a db = c.run a db := by
  cases c with
  | insertRun repoId rev => exact absurd rfl h
  | insertRepo | findRepo | runFinished => rfl

theorem inserted_run {a : Attempt} {c : Call} {db : Db} (hstmt : c.stmt = .runInsert)
    (h : c.fails a db = false) :
    c.run a db = ((c.made a db).1, if a.rollback then db else (c.made a db).2) := by
  cases c with
  | insertRun repoId rev =>
    cases hfault : a.fault with
    | some e => simp [Call.fails, hfault] at h
    | none =>
      cases hinsert : runInsert a.candidate db .created repoId.toInt rev with
      | error e => simp [Call.fails, hfault, hinsert, Except.toOption] at h
      | ok r => simp [Call.made, Call.run, storageSqliteInsertRun, hfault, hinsert]
  | insertRepo | findRepo | runFinished => cases hstmt

/-- **A call that is settled before anybody else makes one is the call of `storage_sqlite.c`**, with
what it has left of the database committed. -/
theorem make_settle {s : Calls} (hsettled : s.Settled) (hwriter : s.writer = none) {i : Nat}
    {task : Task} {c : Call} (hi : s.threads[i]? = some (task, .call c)) (a : Attempt) :
    (s.make i a).settle i a.rollback =
      ⟨(c.run a s.db).2, (c.run a s.db).2, none,
        s.threads.set i (task, task.after c (c.run a s.db).1)⟩ := by
  have hkept := hsettled hwriter
  simp only [Calls.make, hi]
  cases hfails : c.fails a s.db with
  | true =>
    obtain ⟨hdb, hret⟩ := fails_run hfails
    simp [Calls.settle, hwriter, hdb, hret, hkept]
  | false =>
    by_cases hstmt : c.stmt = .runInsert
    · rw [inserted_run hstmt hfails]
      simp [hstmt, Calls.settle, hkept]
    · simp [hstmt, Calls.settle, hwriter, made_of_ne hstmt]

end Cimple.Statements
