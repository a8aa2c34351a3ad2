import Cimple.Json

/-!
# Runs and the queue of runs (`run_queue.h`, `run_queue.c`)

* `Run` — `struct run`; `runNew`, `runQueued`, `runCreated` make one.
* The queue is a singly-linked tail queue of `sys/queue.h`, modelled as the list of its
  entries: insertion at the head and at the tail, removal from the head, a walk from the head.
* `runToJson`, `runQueueToJson` — the representation sent to clients.
-/

set_option autoImplicit false

namespace Cimple.RunQueue

open Octets JsonValue Cimple.Json

/-- `enum run_status`. -/
inductive RunStatus where
  | created
  | finished
  deriving DecidableEq, Repr

/-- The values of the enumerators. -/
def RunStatus.code : RunStatus → Int32
  | .created => 1
  | .finished => 2

/-- `struct run`; the status is an `int`, whatever it was read from. -/
structure Run where
  id : Int32
  repoUrl : CStr
  repoRev : CStr
  status : Int32
  exitCode : Int32
  deriving DecidableEq, Repr

/-- `run_new`. -/
def runNew (id : Int32) (repoUrl repoRev : CStr) (status exitCode : Int32) : Run :=
  ⟨id, repoUrl, repoRev, status, exitCode⟩

/-- `run_queued`: a run that has no identifier yet. -/
def runQueued (repoUrl repoRev : CStr) : Run :=
  runNew (-1) repoUrl repoRev RunStatus.created.code (-1)

/-- `run_created`. -/
def runCreated (id : Int32) (repoUrl repoRev : CStr) : Run :=
  runNew id repoUrl repoRev RunStatus.created.code (-1)

/-- `run_set_id`. -/
def runSetId (run : Run) (id : Int32) : Run := { run with id }

/-! ## The queue -/

/-- `struct run_queue`. -/
abbrev Queue := List Run

/-- `run_queue_is_empty`. -/
def runQueueIsEmpty (queue : Queue) : Bool := queue.isEmpty

/-- `run_queue_add_first`. -/
def runQueueAddFirst (queue : Queue) (run : Run) : Queue := run :: queue

/-- `run_queue_add_last`. -/
def runQueueAddLast (queue : Queue) (run : Run) : Queue := queue ++ [run]

/-- `run_queue_remove_first`; the source removes from a queue it knows to be non-empty. -/
def runQueueRemoveFirst : Queue → Option (Run × Queue)
  | [] => none
  | run :: queue => some (run, queue)

/-! ## JSON -/

def runKeyId : CStr := .ofAscii "id"
def runKeyExitCode : CStr := .ofAscii "exit_code"
def runKeyRepoUrl : CStr := .ofAscii "repo_url"
def runKeyRepoRev : CStr := .ofAscii "repo_rev"

/-- `run_to_json`. -/
def runToJson (run : Run) : Except JsonErr Json := do
  let json ← libjsonSetInt libjsonNewObject runKeyId run.id.toInt
  let json ← libjsonSetInt json runKeyExitCode run.exitCode.toInt
  let json ← libjsonSetString json runKeyRepoUrl run.repoUrl
  libjsonSetString json runKeyRepoRev run.repoRev

/-- The walk of `run_queue_to_json` along the queue. -/
def runQueueAppend (json : Json) : Queue → Except JsonErr Json
  | [] => .ok json
  | run :: queue => do
    let entry ← runToJson run
    let json ← libjsonAppend json entry
    runQueueAppend json queue

/-- `run_queue_to_json`. -/
def runQueueToJson (queue : Queue) : Except JsonErr Json := runQueueAppend libjsonNewArray queue

/-- The representation of a run. -/
def runJson (run : Run) : Json :=
  .object [(runKeyId, .int run.id.toInt), (runKeyExitCode, .int run.exitCode.toInt),
    (runKeyRepoUrl, .string run.repoUrl.bytes), (runKeyRepoRev, .string run.repoRev.bytes)]

theorem runQueueAppend_eq (queue : Queue) :
    ∀ elems : List Json, runQueueAppend (.array elems) queue =
      .ok (.array (elems ++ queue.map runJson)) := by
  induction queue with
  | nil => intro elems; simp [runQueueAppend]
  | cons run queue ih =>
    intro elems
    have hstep : runQueueAppend (.array elems) (run :: queue) =
        runQueueAppend (.array (elems ++ [runJson run])) queue := rfl
    rw [hstep, ih, List.append_assoc]
    rfl

/-- **A queue is represented by the array of its runs**, from head to tail. -/
theorem runQueueToJson_eq (queue : Queue) :
    runQueueToJson queue = .ok (.array (queue.map runJson)) :=
  runQueueAppend_eq queue []

end Cimple.RunQueue
