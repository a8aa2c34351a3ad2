import Cimple.Lib.Ledger
import Cimple.Process
import Cimple.Turns

/-!
# What a run acquires and releases (`worker_do_run`)

Here `struct process_output` has a pointer to its buffer, and each function the ledger of what it
acquires, uses and releases: the run, the output and the buffer of `file_read`.

* `bufferEvents` — the buffer in the turns of `file_read`.
* `processExecuteAndCapture`, `ciRun`, `ciRunGitRepo`, `processOutputDestroy`,
  `requestCreateFinishedRun`, `workerDoRun` — the functions, with their labels.
* `ReleasedOnce` — every resource is released exactly once, after its last use.

Principal results: `capture_refines`, `ciRunGitRepo_refines` and `workerDoRun_refines` (values are
those of the models without pointers), `capture_buffer` (what becomes of the buffer) and
`released_once_iff`.
-/

set_option autoImplicit false

namespace Cimple.Release

open Octets Ledger Cimple.Protocol Cimple.Process

/-! ## The source -/

/-- What an execution of `worker_do_run` is to release. -/
inductive Res where
  | run
  | output
  | data
  deriving DecidableEq

/-- `struct process_output`: `data` is the buffer it points to, if it points to one. -/
structure Output where
  ec : Int32
  data : Option Bytes

/-- What a function returns, the output it leaves, and what it acquires, uses and releases. -/
structure Ran where
  ret : Int32
  output : Output
  events : List (Event Res)

/-- The buffer in the turns of `file_read`: the first `realloc` makes it, every other `realloc` and
every `read` uses it, and a turn that fails frees it. -/
def bufferEvents : (allocated : Bool) → List ReadCall → List (Event Res)
  | _, [] => []
  | allocated, call :: calls =>
    if !call.reallocOk then (if allocated then [.release .data] else [])
    else
      (if allocated then .use .data else .acquire .data) :: .use .data ::
        (if call.answer = .fail then [.release .data] else bufferEvents true calls)

/-- `process_execute_and_capture`. -/
def processExecuteAndCapture (env : ProcessEnv) (result : Output) : Ran :=
  if !env.pipeOk then ⟨-1, result, []⟩
  else
    let ret : Int32 := 0
    if !env.forkOk then ⟨ret, result, []⟩
    else
      let events := bufferEvents false (fileRead env.calls env.delivered).calls
      match (fileRead env.calls env.delivered).contents with
      | none => ⟨-1, result, events⟩
      | some data =>
        let result := { result with data := some data }
        match waitForChild (env.status.map Subtype.val) with
        | none => ⟨-1, result, events ++ [.use .output, .use .output, .release .data]⟩
        | some ec => ⟨0, { result with ec }, events ++ [.use .output, .use .output]⟩

/-- `ci_run`: the first of the scripts that exists is executed. -/
def ciRun : List (Bool × ProcessEnv) → Output → Ran
  | [], result => ⟨-1, result, []⟩
  | (fileExists, env) :: scripts, result =>
    if !fileExists then ciRun scripts result else processExecuteAndCapture env result

/-- What the outside world does to one execution of `worker_do_run`: whether the output can be
allocated, the repository prepared and entered; the CI scripts; whether the report can be made up
to its exit code, and with its data; the connection, and whether the report can be sent. -/
structure DoRunEnv where
  outputOk : Bool
  prepareOk : Bool
  chdirOk : Bool
  scripts : List (Bool × ProcessEnv)
  paramsOk : Bool
  encodeOk : Bool
  connect : Option Nat
  sendOk : Bool

/-- `ci_run_git_repo`, with the URL and the revision of the run. -/
def ciRunGitRepo (env : DoRunEnv) (output : Output) : Ran :=
  if !env.prepareOk then ⟨-1, output, [.use .run]⟩
  else if !env.chdirOk then ⟨-1, output, [.use .run]⟩
  else
    let ran := ciRun env.scripts output
    ⟨ran.ret, ran.output, .use .run :: ran.events⟩

/-- `process_output_destroy`. -/
def processOutputDestroy (output : Output) : List (Event Res) :=
  .use .output :: (if output.data.isSome then [.release .data] else []) ++ [.release .output]

/-- `request_create_finished_run`, with the identifier of the run. -/
def requestCreateFinishedRun (env : DoRunEnv) (output : Output) : Int32 × List (Event Res) :=
  if !env.paramsOk then (-1, [.use .run, .use .output])
  else (if env.encodeOk then 0 else -1,
    [.use .run, .use .output] ++ if output.data.isSome then [.use .data] else [])

/-- The label `free_output`, and what comes after it. -/
def freeOutputLabel (output : Output) : List (Event Res) :=
  processOutputDestroy output ++ [.release .run]

/-- `worker_do_run`; the run has been acquired by `worker_handle_cmd_start_run`. -/
def workerDoRun (env : DoRunEnv) : Int32 × List (Event Res) :=
  let taken : List (Event Res) := [.acquire .run]
  if !env.outputOk then (-1, taken)
  else
    let ran := ciRunGitRepo env ⟨0, none⟩
    let events := taken ++ [.acquire .output] ++ ran.events
    if ran.ret < 0 then (ran.ret, events ++ freeOutputLabel ran.output)
    else
      let (ret, requested) := requestCreateFinishedRun env ran.output
      let events := events ++ .use .output :: requested
      if ret < 0 then (ret, events ++ freeOutputLabel ran.output)
      else
        match env.connect with
        | none => (-1, events ++ freeOutputLabel ran.output)
        | some _ => (if env.sendOk then 0 else -1, events ++ freeOutputLabel ran.output)

/-! ## The contract -/

/-- **Released once**: the run, the output and the buffer are each released exactly once, if they
have been acquired, and not used afterwards. -/
def ReleasedOnce (events : List (Event Res)) : Prop := ∀ r, Settled r events

/-- The output of a child has been read, and the child cannot be waited for. -/
def waitFails (env : ProcessEnv) : Bool :=
  env.pipeOk && env.forkOk && !env.readFails && env.status.isNone

/-- The script that is executed. -/
def DoRunEnv.executed (env : DoRunEnv) : Option ProcessEnv :=
  if env.prepareOk && env.chdirOk then (env.scripts.find? Prod.fst).map Prod.snd else none

/-! ## Values -/

/-- The output without its pointer. -/
def Output.value (output : Output) : ProcessOutput := ⟨output.ec, output.data.getD []⟩

/-- **Capturing gives the values it gives without pointers.** -/
theorem capture_refines (env : ProcessEnv) (result : Output) :
    (processExecuteAndCapture env result).ret =
        (Process.processExecuteAndCapture env result.value).ret ∧
      (processExecuteAndCapture env result).output.value =
        (Process.processExecuteAndCapture env result.value).result := by
  unfold processExecuteAndCapture Process.processExecuteAndCapture
  cases env.pipeOk with
  | false => exact ⟨rfl, rfl⟩
  | true =>
    cases env.forkOk with
    | false => exact ⟨rfl, rfl⟩
    | true =>
      cases (fileRead env.calls env.delivered).contents with
      | none => exact ⟨rfl, rfl⟩
      | some data => cases waitForChild (env.status.map Subtype.val) <;> exact ⟨rfl, rfl⟩

/-- What executing a script yields, as the worker's loop sees it. -/
def outcome (env : ProcessEnv) : Option ProcessOutput :=
  let captured := Process.processExecuteAndCapture env ⟨0, []⟩
  if captured.ret < 0 then none else some captured.result

/-- The steps of a CI run, as the worker's loop sees them. -/
def DoRunEnv.steps (env : DoRunEnv) : Workers.CiSteps where
  clone := env.prepareOk
  checkout := env.prepareOk
  chdir := env.chdirOk
  scripts := env.scripts.map fun script => (script.1, outcome script.2)

/-- What a function with pointers returns, and what it yields without them. -/
def Yields (ran : Ran) (output : Option ProcessOutput) : Prop :=
  (ran.ret = -1 ∧ output = none) ∨ (ran.ret = 0 ∧ output = some ran.output.value)

theorem capture_yields (env : ProcessEnv) :
    Yields (processExecuteAndCapture env ⟨0, none⟩) (outcome env) := by
  obtain ⟨hret, hvalue⟩ := capture_refines env ⟨0, none⟩
  have hcases : (processExecuteAndCapture env ⟨0, none⟩).ret = -1 ∨
      (processExecuteAndCapture env ⟨0, none⟩).ret = 0 := by
    unfold processExecuteAndCapture
    cases env.pipeOk with
    | false => exact .inl rfl
    | true =>
      cases env.forkOk with
      | false => exact .inr rfl
      | true =>
        cases (fileRead env.calls env.delivered).contents with
        | none => exact .inl rfl
        | some data => cases waitForChild (env.status.map Subtype.val) <;> simp
  unfold outcome
  rcases hcases with h | h
  · refine .inl ⟨h, if_pos ?_⟩
    show (Process.processExecuteAndCapture env (Output.value ⟨0, none⟩)).ret < 0
    rw [← hret, h]
    decide
  · refine .inr ⟨h, ?_⟩
    rw [hvalue]
    refine if_neg ?_
    show ¬ (Process.processExecuteAndCapture env (Output.value ⟨0, none⟩)).ret < 0
    rw [← hret, h]
    decide

theorem ciRun_yields (scripts : List (Bool × ProcessEnv)) :
    Yields (ciRun scripts ⟨0, none⟩)
      (Workers.ciRun (scripts.map fun script => (script.1, outcome script.2))) := by
  induction scripts with
  | nil => exact .inl ⟨rfl, rfl⟩
  | cons script scripts ih =>
    obtain ⟨fileExists, env⟩ := script
    cases fileExists with
    | false => exact ih
    | true => exact capture_yields env

/-- **A CI run gives the values it gives without pointers.** -/
theorem ciRunGitRepo_refines (env : DoRunEnv) :
    Yields (ciRunGitRepo env ⟨0, none⟩) (Workers.ciRunGitRepo env.steps) := by
  unfold ciRunGitRepo Workers.ciRunGitRepo DoRunEnv.steps
  cases env.prepareOk with
  | false => exact .inl ⟨rfl, rfl⟩
  | true =>
    cases env.chdirOk with
    | false => exact .inl ⟨rfl, rfl⟩
    | true => exact ciRun_yields env.scripts

/-- What the two descriptions of the outside world have in common. -/
structure Plays (env : DoRunEnv) (turn : Turns.Turn) : Prop where
  outputOk : turn.outputOk = env.outputOk
  ci : turn.ci = env.steps
  finishedOk : turn.finishedOk = (env.paramsOk && env.encodeOk)
  reconnect : turn.reconnect = env.connect
  reportOk : turn.reportOk = env.sendOk

theorem requestCreateFinishedRun_ret (env : DoRunEnv) (output : Output) :
    (requestCreateFinishedRun env output).1 =
      if (env.paramsOk && env.encodeOk) = true then 0 else -1 := by
  unfold requestCreateFinishedRun
  cases env.paramsOk <;> rfl

/-- **`worker_do_run` returns what it returns without pointers.** -/
theorem workerDoRun_refines {env : DoRunEnv} {turn : Turns.Turn} (h : Plays env turn)
    {worker : Workers.Worker} {run : RunQueue.Run} (hrun : worker.run = some run) :
    ∃ worker', Turns.workerDoRun turn worker = some ((workerDoRun env).1, worker') := by
  unfold Turns.workerDoRun workerDoRun
  rw [h.outputOk]
  cases env.outputOk with
  | false => exact ⟨_, rfl⟩
  | true =>
    simp only [hrun, h.ci, Option.bind_eq_bind, Option.bind_some, Bool.not_true,
      Bool.false_eq_true, if_false]
    rcases ciRunGitRepo_refines env with ⟨hret, hnone⟩ | ⟨hret, hsome⟩
    · rw [hnone, hret, if_pos (by decide)]
      exact ⟨_, rfl⟩
    · rw [hsome, hret, if_neg (by decide), h.finishedOk]
      by_cases hfinished : (env.paramsOk && env.encodeOk) = true
      · have hrequest :
            (requestCreateFinishedRun env (ciRunGitRepo env ⟨0, none⟩).output).1 = 0 := by
          rw [requestCreateFinishedRun_ret, if_pos hfinished]
        simp only [hfinished, hrequest, requestCreateFinishedRun_eq, h.reconnect, h.reportOk,
          Bool.not_true, Bool.false_eq_true, if_false]
        rw [if_neg (by decide)]
        cases env.connect with
        | none => exact ⟨_, rfl⟩
        | some fd => cases env.sendOk <;> exact ⟨_, rfl⟩
      · have hrequest :
            (requestCreateFinishedRun env (ciRunGitRepo env ⟨0, none⟩).output).1 = -1 := by
          rw [requestCreateFinishedRun_ret, if_neg hfinished]
        simp only [hfinished, hrequest, Bool.not_false, if_true]
        rw [if_pos (by decide)]
        exact ⟨_, rfl⟩

/-! ## The buffer -/

/-- The buffer between two turns. -/
def BetweenTurns (allocated : Bool) (events : List (Event Res)) : Prop :=
  if allocated then Held .data events else history .data events = []

theorem BetweenTurns.turn {allocated : Bool} {events : List (Event Res)}
    (h : BetweenTurns allocated events) :
    Held .data (events ++ [if allocated then .use .data else .acquire .data, .use .data]) := by
  cases allocated with
  | false =>
    have hheld : Held .data (events ++ [.acquire .data] ++ [.use .data]) :=
      (held_acquire h rfl).use (by simp [history_cons, Event.resource])
    simpa using hheld
  | true => exact Held.use h (by simp [history_cons, Event.resource])

/-- **The buffer of `file_read`**: freed if a turn fails, and else held. -/
theorem bufferEvents_spec (calls : List ReadCall) :
    ∀ {allocated : Bool} {events : List (Event Res)}, BetweenTurns allocated events →
      (calls.any ReadCall.fails = true →
          Settled .data (events ++ bufferEvents allocated calls)) ∧
        (calls.any ReadCall.fails = false → allocated = true ∨ calls ≠ [] →
          Held .data (events ++ bufferEvents allocated calls)) := by
  induction calls with
  | nil =>
    intro allocated events h
    refine ⟨fun hfails => absurd hfails (by simp), ?_⟩
    rintro - (rfl | hne)
    · simpa [bufferEvents] using (show Held .data events from h)
    · exact absurd rfl hne
  | cons call calls ih =>
    intro allocated events h
    cases hrealloc : call.reallocOk with
    | false =>
      have hfails : call.fails = true := by simp [ReadCall.fails, hrealloc]
      simp only [bufferEvents, hrealloc, List.any_cons, hfails, Bool.true_or, Bool.not_false,
        if_true]
      refine ⟨fun _ => ?_, fun hnot => by cases hnot⟩
      cases allocated with
      | false => exact .inl (by simpa using (show history .data events = [] from h))
      | true => exact Held.release h rfl
    | true =>
      by_cases hanswer : call.answer = .fail
      · have hfails : call.fails = true := by simp [ReadCall.fails, hanswer]
        simp only [bufferEvents, hrealloc, hanswer, List.any_cons, hfails, Bool.true_or,
          Bool.not_true, Bool.false_eq_true, if_false, if_true]
        refine ⟨fun _ => ?_, fun hnot => by cases hnot⟩
        have hsettled : Settled .data (events ++
            [if allocated then .use .data else .acquire .data, .use .data] ++
              [.release .data]) := h.turn.release rfl
        simpa using hsettled
      · have hfine : call.fails = false := by simp [ReadCall.fails, hrealloc, hanswer]
        simp only [bufferEvents, hrealloc, hanswer, List.any_cons, hfine, Bool.false_or,
          Bool.not_true, Bool.false_eq_true, if_false]
        have hrest := ih (show BetweenTurns true _ from h.turn)
        simpa using hrest

theorem fileRead_calls (calls : List ReadCall) (stream : Bytes) :
    (fileRead calls stream).calls ≠ [] := by
  unfold fileRead
  rw [fileReadLoop]
  simp only
  split
  · simp
  · split
    · simp
    · split <;> simp

/-- What becomes of the buffer: there is none any more and no pointer to it; or there is one, and
the pointer; or it is `dangling`, and the value is negative. -/
def LeavesBuffer (dangling : Bool) (ran : Ran) (events : List (Event Res)) : Prop :=
  (dangling = false ∧ ran.output.data = none ∧ Settled .data (events ++ ran.events)) ∨
    (dangling = false ∧ ran.output.data.isSome = true ∧ Held .data (events ++ ran.events)) ∨
    (dangling = true ∧ ran.ret < 0 ∧ ran.output.data.isSome = true ∧
      Settled .data (events ++ ran.events))

/-- **The buffer after a capture** dangles exactly if the child cannot be waited for. -/
theorem capture_buffer (env : ProcessEnv) {events : List (Event Res)}
    (hfresh : history .data events = []) :
    LeavesBuffer (waitFails env) (processExecuteAndCapture env ⟨0, none⟩) events := by
  have hbuffer := bufferEvents_spec (fileRead env.calls env.delivered).calls
    (show BetweenTurns false events from hfresh)
  have hread := fileRead_spec env.calls env.delivered
  have hnone : Settled .data (events ++ []) := .inl (by simpa using hfresh)
  unfold processExecuteAndCapture waitFails ProcessEnv.readFails
  cases env.pipeOk with
  | false => exact .inl ⟨rfl, rfl, hnone⟩
  | true =>
    cases env.forkOk with
    | false => exact .inl ⟨rfl, rfl, hnone⟩
    | true =>
      cases hfails : (fileRead env.calls env.delivered).fails with
      | true =>
        rw [hfails, if_pos rfl] at hread
        simp only [hread]
        exact .inl ⟨rfl, rfl, hbuffer.1 hfails⟩
      | false =>
        rw [hfails, if_neg Bool.false_ne_true] at hread
        have hheld := hbuffer.2 hfails (.inr (fileRead_calls env.calls env.delivered))
        simp only [hread]
        cases hstatus : env.status with
        | none =>
          refine .inr (.inr ⟨rfl, show (-1 : Int32) < 0 by decide, rfl, ?_⟩)
          show Settled .data (events ++ (_ ++ _))
          rw [← List.append_assoc]
          exact hheld.release rfl
        | some status =>
          obtain ⟨ec, hec, -⟩ := waitForChild_spec status.2
          simp only [Option.map_some, hec]
          refine .inr (.inl ⟨rfl, rfl, ?_⟩)
          show Held .data (events ++ (_ ++ _))
          rw [← List.append_assoc]
          exact hheld.frame rfl

theorem ciRun_buffer (scripts : List (Bool × ProcessEnv)) {events : List (Event Res)}
    (hfresh : history .data events = []) :
    LeavesBuffer (((scripts.find? Prod.fst).map Prod.snd).any waitFails)
      (ciRun scripts ⟨0, none⟩) events := by
  induction scripts with
  | nil => exact .inl ⟨rfl, rfl, .inl (by simpa [ciRun] using hfresh)⟩
  | cons script scripts ih =>
    obtain ⟨fileExists, env⟩ := script
    cases fileExists with
    | false => exact ih
    | true => exact capture_buffer env hfresh

/-- **The buffer after a CI run** dangles exactly if the child of the script that is executed
cannot be waited for. -/
theorem ciRunGitRepo_buffer (env : DoRunEnv) {events : List (Event Res)}
    (hfresh : history .data events = []) :
    LeavesBuffer (env.executed.any waitFails) (ciRunGitRepo env ⟨0, none⟩) events := by
  have hurl : history .data (events ++ [.use .run]) = [] := by
    simp [hfresh, history_cons, Event.resource]
  unfold ciRunGitRepo DoRunEnv.executed
  cases env.prepareOk with
  | false => exact .inl ⟨rfl, rfl, .inl hurl⟩
  | true =>
    cases env.chdirOk with
    | false => exact .inl ⟨rfl, rfl, .inl hurl⟩
    | true =>
      have hrun := ciRun_buffer env.scripts hurl
      unfold LeavesBuffer at hrun ⊢
      simpa using hrun

/-! ## The run and the output -/

/-- An event about the buffer, or a use. -/
def BufferOrUse (e : Event Res) : Prop := e.resource = .data ∨ e = .use e.resource

theorem bufferEvents_resource (calls : List ReadCall) :
    ∀ (allocated : Bool), ∀ e ∈ bufferEvents allocated calls, e.resource = .data := by
  induction calls with
  | nil =>
    intro allocated e he
    cases he
  | cons call calls ih =>
    intro allocated e he
    simp only [bufferEvents] at he
    split at he
    · cases allocated with
      | false => cases he
      | true =>
        rw [List.mem_singleton.1 he]
        rfl
    · rcases List.mem_cons.1 he with rfl | he
      · cases allocated <;> rfl
      · rcases List.mem_cons.1 he with rfl | he
        · rfl
        · split at he
          · rw [List.mem_singleton.1 he]
            rfl
          · exact ih true e he

theorem capture_uses (env : ProcessEnv) (result : Output) :
    ∀ e ∈ (processExecuteAndCapture env result).events, BufferOrUse e := by
  have hbuffer : ∀ e ∈ bufferEvents false (fileRead env.calls env.delivered).calls,
      BufferOrUse e := fun e he => .inl (bufferEvents_resource _ false e he)
  unfold processExecuteAndCapture
  cases env.pipeOk with
  | false => simp
  | true =>
    cases env.forkOk with
    | false => simp
    | true =>
      cases (fileRead env.calls env.delivered).contents with
      | none => exact hbuffer
      | some data =>
        cases waitForChild (env.status.map Subtype.val) <;>
          exact List.forall_mem_append.2 ⟨hbuffer, by simp [BufferOrUse, Event.resource]⟩

theorem ciRun_uses (scripts : List (Bool × ProcessEnv)) (output : Output) :
    ∀ e ∈ (ciRun scripts output).events, BufferOrUse e := by
  induction scripts with
  | nil =>
    intro e he
    cases he
  | cons script scripts ih =>
    obtain ⟨fileExists, env⟩ := script
    cases fileExists with
    | false => exact ih
    | true => exact capture_uses env output

/-- **A CI run** does nothing to the run and the output but use them. -/
theorem ciRunGitRepo_uses (env : DoRunEnv) (output : Output) :
    ∀ e ∈ (ciRunGitRepo env output).events, BufferOrUse e := by
  have hurl : BufferOrUse (.use .run) := .inr rfl
  unfold ciRunGitRepo
  cases env.prepareOk with
  | false => simpa using hurl
  | true =>
    cases env.chdirOk with
    | false => simpa using hurl
    | true => exact List.forall_mem_cons.2 ⟨hurl, ciRun_uses env.scripts output⟩

theorem held_of_uses {r : Res} {events more : List (Event Res)} (h : Held r events)
    (hr : r ≠ .data) (hmore : ∀ e ∈ more, BufferOrUse e) : Held r (events ++ more) := by
  refine h.use ?_
  intro e he
  obtain ⟨hmem, hres⟩ := List.mem_filter.1 he
  have hres : e.resource = r := by simpa using hres
  rcases hmore e hmem with hdata | huse
  · rw [hdata] at hres
    exact absurd hres.symm hr
  · rwa [hres] at huse

/-! ## An execution -/

/-- **The shape of an execution** with an output: the CI run, uses for the report, and the label
`free_output`. -/
theorem workerDoRun_events {env : DoRunEnv} (houtput : env.outputOk = true) :
    ∃ report : List (Event Res),
      (workerDoRun env).2 = [.acquire .run] ++ [.acquire .output] ++
        (ciRunGitRepo env ⟨0, none⟩).events ++ report ++
          freeOutputLabel (ciRunGitRepo env ⟨0, none⟩).output ∧
      (∀ e ∈ report, e = .use e.resource) ∧
      ((ciRunGitRepo env ⟨0, none⟩).output.data = none → history .data report = []) ∧
      ((ciRunGitRepo env ⟨0, none⟩).ret < 0 → report = []) := by
  have hrequested : (∀ e ∈ (requestCreateFinishedRun env (ciRunGitRepo env ⟨0, none⟩).output).2,
        e = .use e.resource) ∧
      ((ciRunGitRepo env ⟨0, none⟩).output.data = none →
        history .data (requestCreateFinishedRun env (ciRunGitRepo env ⟨0, none⟩).output).2 = []) := by
    unfold requestCreateFinishedRun
    cases env.paramsOk with
    | false => exact ⟨by simp [Event.resource], fun _ => rfl⟩
    | true =>
      cases (ciRunGitRepo env ⟨0, none⟩).output.data with
      | none => exact ⟨by simp [Event.resource], fun _ => rfl⟩
      | some data => exact ⟨by simp [Event.resource], fun h => by cases h⟩
  unfold workerDoRun
  simp only [houtput, Bool.not_true, Bool.false_eq_true, if_false]
  by_cases hret : (ciRunGitRepo env ⟨0, none⟩).ret < 0
  · rw [if_pos hret]
    exact ⟨[], by simp, by simp, fun _ => rfl, fun _ => rfl⟩
  · rw [if_neg hret]
    refine ⟨.use .output :: (requestCreateFinishedRun env (ciRunGitRepo env ⟨0, none⟩).output).2,
      ?_, ?_, ?_, fun h => absurd h hret⟩
    · split
      · rfl
      · cases env.connect <;> rfl
    · exact List.forall_mem_cons.2 ⟨rfl, hrequested.1⟩
    · intro hdata
      rw [history_cons, if_neg (by simp [Event.resource]), hrequested.2 hdata]

theorem freeOutputLabel_data (output : Output) :
    history .data (freeOutputLabel output) =
      if output.data.isSome = true then [.release .data] else [] := by
  unfold freeOutputLabel processOutputDestroy
  cases output.data <;> rfl

/-- **The run and the output are released once** if there is an output. -/
theorem released_run_output {env : DoRunEnv} (houtput : env.outputOk = true) {r : Res}
    (hr : r ≠ .data) : Settled r (workerDoRun env).2 := by
  obtain ⟨report, hevents, huses, -⟩ := workerDoRun_events houtput
  rw [hevents]
  have htaken : Held r ([.acquire .run] ++ [.acquire .output]) := by
    cases r with
    | data => exact absurd rfl hr
    | _ => exact ⟨0, rfl⟩
  have hreported := held_of_uses (held_of_uses htaken hr (ciRunGitRepo_uses env ⟨0, none⟩)) hr
    fun e he => .inr (huses e he)
  have hread := held_of_uses hreported hr (show ∀ e ∈ [Event.use Res.output], BufferOrUse e by
    simp [BufferOrUse, Event.resource])
  generalize (ciRunGitRepo env ⟨0, none⟩).output = output at hread ⊢
  have hlabel : freeOutputLabel output = [.use .output] ++
      ((if output.data.isSome then [.release .data] else []) ++ [.release .output] ++
        [.release .run]) := by
    simp [freeOutputLabel, processOutputDestroy]
  rw [hlabel, ← List.append_assoc]
  refine hread.release ?_
  cases r with
  | data => exact absurd rfl hr
  | run => cases output.data <;> rfl
  | output => cases output.data <;> rfl

/-- **The buffer is released once** exactly if it has not been left dangling. -/
theorem released_data_iff {env : DoRunEnv} (houtput : env.outputOk = true) :
    Settled .data (workerDoRun env).2 ↔ env.executed.any waitFails = false := by
  obtain ⟨report, hevents, huses, hnull, hfailed⟩ := workerDoRun_events houtput
  rw [hevents]
  have hlabel := freeOutputLabel_data (ciRunGitRepo env ⟨0, none⟩).output
  rcases ciRunGitRepo_buffer env (show history Res.data ([.acquire .run] ++ [.acquire .output]) = []
    from rfl) with ⟨hfine, hdata, hsettled⟩ | ⟨hfine, hdata, hheld⟩ | ⟨hdangling, hret, hdata,
    hsettled⟩
  · rw [hdata] at hlabel
    exact iff_of_true ((hsettled.frame (hnull hdata)).frame hlabel) hfine
  · rw [if_pos hdata] at hlabel
    refine iff_of_true (Held.release (hheld.use ?_) hlabel) hfine
    intro e he
    obtain ⟨hmem, hres⟩ := List.mem_filter.1 he
    have hres : e.resource = .data := by simpa using hres
    have huse := huses e hmem
    rwa [hres] at huse
  · -- the label frees what has been freed
    rw [if_pos hdata] at hlabel
    rw [hfailed hret, List.append_nil]
    refine iff_of_false (hsettled.not_released hlabel) ?_
    rw [hdangling]
    decide

/-- **Released exactly once**: unless there is no memory for the output (the run is not destroyed),
or the script that is executed cannot be waited for after its output has been read (the buffer is
freed by `process_execute_and_capture` and again by `process_output_destroy`). -/
theorem released_once_iff (env : DoRunEnv) :
    ReleasedOnce (workerDoRun env).2 ↔ env.outputOk = true ∧
      ∀ script, env.executed = some script → waitFails script = false := by
  cases houtput : env.outputOk with
  | false =>
    refine iff_of_false ?_ (by simp)
    intro h
    have hheld : Held .run (workerDoRun env).2 := by
      simp only [workerDoRun, houtput, Bool.not_false, if_true]
      exact ⟨0, rfl⟩
    exact hheld.not_settled (h .run)
  | true =>
    have hexecuted : (env.executed.any waitFails = false) ↔
        ∀ script, env.executed = some script → waitFails script = false := by
      cases env.executed <;> simp
    rw [← hexecuted, ← released_data_iff houtput]
    constructor
    · intro h
      exact ⟨rfl, h .data⟩
    · rintro ⟨-, hdata⟩ r
      by_cases hr : r = .data
      · rw [hr]
        exact hdata
      · exact released_run_output houtput hr

/-- A script whose output is one byte, and a `waitpid` that fails. -/
def unreaped : DoRunEnv where
  outputOk := true
  prepareOk := true
  chdirOk := true
  scripts := [(true, ⟨true, true, [97], [], none⟩)]
  paramsOk := true
  encodeOk := true
  connect := none
  sendOk := true

theorem unreaped_read : fileRead [] [97] = ⟨some [97], [readAll [97], readAll []]⟩ := by
  have hlast : fileReadLoop 256 [97] [] [] = ⟨some [97], [readAll []]⟩ :=
    fileReadLoop_last rfl rfl rfl rfl
  have hmore : fileReadLoop 256 [] [] [97] = ⟨(fileReadLoop 256 [97] [] []).contents,
      readAll [97] :: (fileReadLoop 256 [97] [] []).calls⟩ :=
    fileReadLoop_more rfl rfl rfl (show _ = [97] from rfl) (List.cons_ne_nil 97 [])
  rw [fileRead, hmore, hlast]

/-- The buffer is freed twice; and without memory for the output the run is not freed. -/
theorem unreaped_freed_twice :
    (workerDoRun unreaped).2.count (.acquire .data) = 1 ∧
      (workerDoRun unreaped).2.count (.release .data) = 2 ∧
      ¬ ReleasedOnce (workerDoRun unreaped).2 ∧
      ¬ ReleasedOnce (workerDoRun { unreaped with outputOk := false }).2 := by
  have hcapture : (ciRunGitRepo unreaped ⟨0, none⟩) = ⟨-1, ⟨0, some [97]⟩,
      [.use .run, .acquire .data, .use .data, .use .data, .use .data, .use .output, .use .output,
        .release .data]⟩ := by
    simp only [ciRunGitRepo, ciRun, unreaped, processExecuteAndCapture, unreaped_read]
    rfl
  have hevents : (workerDoRun unreaped).2 = [.acquire .run, .acquire .output, .use .run,
      .acquire .data, .use .data, .use .data, .use .data, .use .output, .use .output,
      .release .data, .use .output, .release .data, .release .output, .release .run] := by
    simp only [workerDoRun, hcapture]
    rfl
  rw [hevents]
  refine ⟨rfl, rfl, ?_, ?_⟩
  · intro h
    exact absurd (h .data).count (by decide)
  · intro h
    have hcount := (h .run).count
    exact absurd hcount (by decide)

end Cimple.Release
