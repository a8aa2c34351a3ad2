import Cimple.Storage

/-!
# Histories of the storage, and a restart

* `Call`, `replay` — a history of `storage_run_create` and `storage_run_finished` calls on a
  new database.
* `Entry`, `pending` — the ledger of the history: every run that was created and not rolled back,
  with the identifier it was given and its last result; the runs without a result are pending.
* `restart` — `storage_get_run_queue`, as `server_create` calls it.

The view's `status` is the label of a status, a text, and `storage_get_run_queue` compares it
with the number of the enumerator, so no row ever qualifies.

Principal results: `restart_eq_nil` and `restart_complete_iff`.
-/

set_option autoImplicit false

namespace Cimple.History

open Octets Cimple.RunQueue Cimple.Protocol Cimple.Storage

/-! ## Histories -/

/-- One call on the storage. -/
inductive Call where
  | create (attempts : CreateAttempts) (url rev : CStr)
  | finished (attempt : Attempt) (runId : Int32) (output : ProcessOutput)

/-- A created run: what it was created with, the identifier the call has returned, and the
last result stored for that identifier. -/
structure Entry where
  id : Int32
  url : CStr
  rev : CStr
  result : Option ProcessOutput
  deriving DecidableEq

/-- The entry with a result for `runId`. -/
def Entry.finish (runId : Int32) (output : ProcessOutput) (e : Entry) : Entry :=
  if e.id = runId then { e with result := some output } else e

/-- The database and the ledger. -/
structure Books where
  db : Db
  ledger : List Entry

/-- A call, and what is written down if it has not failed; a creation that is rolled back has made
no run, whatever its caller is told. -/
def Books.call (b : Books) : Call → Books
  | .create attempts url rev =>
    let (ret, db) := storageSqliteRunCreate attempts b.db url rev
    ⟨db, if ret < 0 ∨ attempts.insertRun.rollback = true then b.ledger
      else b.ledger ++ [⟨ret, url, rev, none⟩]⟩
  | .finished attempt runId output =>
    let (ret, db) := storageSqliteRunFinished attempt b.db runId output
    ⟨db, if ret < 0 then b.ledger else b.ledger.map (Entry.finish runId output)⟩

/-- A history on the database the schema leaves. -/
def replay (calls : List Call) : Books := calls.foldl Books.call ⟨v01, []⟩

/-! ## The restart -/

/-- What identifies a run in a queue. -/
def ident (run : Run) : Int32 × CStr × CStr := (run.id, run.repoUrl, run.repoRev)

/-- The runs that were created and not yet finished, in increasing order of identifiers. -/
def pending (ledger : List Entry) : List (Int32 × CStr × CStr) :=
  ((ledger.filter fun e => e.result.isNone).map fun e => (e.id, e.url, e.rev)).insertionSort
    fun a b => a.1 ≤ b.1

/-- The queue a restarted server begins with. -/
def restart (db : Db) : Except Int32 Queue := storageSqliteGetRunQueue noFault db

theorem cimpleRunsView_status {db : Db} {row : ViewRow} (h : row ∈ cimpleRunsView db) :
    row.status ∈ v01RunStatus.map RunStatusRow.label := by
  obtain ⟨run, -, h⟩ := List.mem_flatMap.1 h
  obtain ⟨status, hstatus, h⟩ := List.mem_flatMap.1 h
  obtain ⟨repo, -, rfl⟩ := List.mem_map.1 h
  rw [← db.statusRows]
  exact List.mem_map.2 ⟨status, (List.mem_filter.1 hstatus).1, rfl⟩

theorem textEqInt_label {label : Bytes} (h : label ∈ v01RunStatus.map RunStatusRow.label)
    (status : RunStatus) : textEqInt label status.code.toInt = false := by
  have hall : ∀ label ∈ v01RunStatus.map RunStatusRow.label,
      textEqInt label RunStatus.created.code.toInt = false ∧
        textEqInt label RunStatus.finished.code.toInt = false := by decide
  cases status with
  | created => exact (hall label h).1
  | finished => exact (hall label h).2

/-- **A restarted server begins with an empty queue**, whatever is in the database. -/
theorem restart_eq_nil (db : Db) : restart db = .ok [] := by
  have hrows : selectRunQueue db .created = [] := by
    have hfilter : ((cimpleRunsView db).filter fun row =>
        textEqInt row.status RunStatus.created.code.toInt) = [] := by
      rw [List.filter_eq_nil_iff]
      intro row hrow
      rw [textEqInt_label (cimpleRunsView_status hrow)]
      exact Bool.false_ne_true
    unfold selectRunQueue
    rw [hfilter]
    rfl
  simp only [restart, storageSqliteGetRunQueue, noFault, hrows]
  rfl

/-- **After a restart the queue holds exactly the pending runs if and only if every run that
was created has been finished.** -/
theorem restart_complete_iff (calls : List Call) :
    (restart (replay calls).db).map (List.map ident) = .ok (pending (replay calls).ledger) ↔
      ∀ e ∈ (replay calls).ledger, e.result.isSome = true := by
  have hempty : pending (replay calls).ledger = [] ↔
      ∀ e ∈ (replay calls).ledger, e.result.isSome = true := by
    unfold pending
    rw [← List.length_eq_zero_iff, List.length_insertionSort, List.length_map,
      List.length_eq_zero_iff, List.filter_eq_nil_iff]
    simp [Option.isSome_iff_ne_none]
  rw [restart_eq_nil, ← hempty]
  simp only [Except.map, List.map_nil, Except.ok.injEq]
  exact eq_comm

/-- The repository and the revision of `queue-run repo HEAD`. -/
def queued : Call := .create ⟨noFault, noFault, noFault⟩ (.ofAscii "repo") (.ofAscii "HEAD")

/-- A run that was created and is forgotten. -/
theorem restart_forgets :
    pending (replay [queued]).ledger = [(1, .ofAscii "repo", .ofAscii "HEAD")] ∧
      restart (replay [queued]).db = .ok [] ∧
      ¬ (restart (replay [queued]).db).map (List.map ident) =
        .ok (pending (replay [queued]).ledger) := by
  have hpending : pending (replay [queued]).ledger =
      [(1, .ofAscii "repo", .ofAscii "HEAD")] := by decide
  refine ⟨hpending, restart_eq_nil _, ?_⟩
  rw [hpending, restart_eq_nil]
  simp [Except.map]

end Cimple.History
