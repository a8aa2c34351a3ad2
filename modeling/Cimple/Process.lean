import Cimple.Protocol

/-!
# Child processes and their output (`file.c`, `process.c`)

* `fileRead` — the loop of `file_read`: a buffer that doubles when it is full, read into until
  the file ends.
* `waitForChild` — the status of a child as an exit code.
* `processExecuteAndCapture` — a pipe, a child, its output and its exit code.
* `CaptureContract` — what the header promises of a non-negative return value.

The branch of the child after `fork` never comes back: what it writes into the pipe, and how it
ends, is part of `ProcessEnv`.  Closing the ends of the pipe changes neither the return value nor
the output.

Principal results: `fileRead_spec` and `capture_contract_iff`.
-/

set_option autoImplicit false

namespace Cimple.Process

open Octets ByteStream Cimple.Protocol

/-! ## Reading a file to its end -/

/-- What happens in one turn of the loop of `file_read`: whether `realloc` succeeds, and the
answer to `read`. -/
structure ReadCall where
  reallocOk : Bool
  answer : ReadAns
  deriving DecidableEq, Repr

/-- A turn in which something fails. -/
def ReadCall.fails (call : ReadCall) : Bool := !call.reallocOk || call.answer = .fail

/-- A turn in which nothing fails; `read` gives all there is room for. -/
def readAll (stream : Bytes) : ReadCall := ⟨true, .gave stream.length⟩

/-- The outcome of `file_read`: the contents, if it returns 0, and the turns it has made. -/
structure FileRead where
  contents : Option Bytes
  calls : List ReadCall
  deriving DecidableEq, Repr

/-- One of the turns has failed. -/
def FileRead.fails (r : FileRead) : Bool := r.calls.any ReadCall.fails

/-- The loop of `file_read`, with `contents` in a buffer of `allocSize` bytes; past the end of
`calls` nothing fails. -/
def fileReadLoop (allocSize : Nat) (contents : Bytes) (calls : List ReadCall) (stream : Bytes) :
    FileRead :=
  let call := calls.headD (readAll stream)
  if !call.reallocOk then ⟨none, [call]⟩
  else
    match call.answer with
    | .fail => ⟨none, [call]⟩
    | .gave extra =>
      let got := stream.take (min (extra + 1) (allocSize - contents.length))
      if hgot : got = [] then ⟨some contents, [call]⟩
      else
        let contents := contents ++ got
        let allocSize := if contents.length = allocSize then allocSize * 2 else allocSize
        let rest := fileReadLoop allocSize contents calls.tail (stream.drop got.length)
        ⟨rest.contents, call :: rest.calls⟩
termination_by stream.length
decreasing_by
  have hpos : 0 < got.length := List.length_pos_iff.2 hgot
  have hle : got.length ≤ stream.length := List.length_take_le' _ _
  show (stream.drop got.length).length < stream.length
  rw [List.length_drop]
  omega

/-- `file_read`. -/
def fileRead (calls : List ReadCall) (stream : Bytes) : FileRead :=
  fileReadLoop 256 [] calls stream

section Turn

variable {allocSize extra : Nat} {contents got : Bytes} {calls : List ReadCall} {stream : Bytes}
  {call : ReadCall}

theorem fileReadLoop_failed (hcall : calls.headD (readAll stream) = call)
    (hfails : call.fails = true) :
    fileReadLoop allocSize contents calls stream = ⟨none, [call]⟩ := by
  rw [fileReadLoop]
  simp only [hcall]
  cases hrealloc : call.reallocOk with
  | false => rfl
  | true =>
    have hanswer : call.answer = .fail := by simpa [ReadCall.fails, hrealloc] using hfails
    simp only [hanswer, Bool.not_true, Bool.false_eq_true, if_false]

theorem fileReadLoop_last (hcall : calls.headD (readAll stream) = call)
    (hrealloc : call.reallocOk = true) (hanswer : call.answer = .gave extra)
    (hgot : stream.take (min (extra + 1) (allocSize - contents.length)) = []) :
    fileReadLoop allocSize contents calls stream = ⟨some contents, [call]⟩ := by
  rw [fileReadLoop]
  simp only [hcall, hrealloc, hanswer, hgot, Bool.not_true, Bool.false_eq_true, if_false, dif_pos]

theorem fileReadLoop_more (hcall : calls.headD (readAll stream) = call)
    (hrealloc : call.reallocOk = true) (hanswer : call.answer = .gave extra)
    (heq : stream.take (min (extra + 1) (allocSize - contents.length)) = got) (hgot : got ≠ []) :
    fileReadLoop allocSize contents calls stream =
      ⟨(fileReadLoop (if (contents ++ got).length = allocSize then allocSize * 2
          else allocSize) (contents ++ got) calls.tail (stream.drop got.length)).contents,
        call :: (fileReadLoop (if (contents ++ got).length = allocSize then allocSize * 2
          else allocSize) (contents ++ got) calls.tail (stream.drop got.length)).calls⟩ := by
  rw [fileReadLoop]
  simp only [hcall, hrealloc, hanswer, heq, hgot, Bool.not_true, Bool.false_eq_true, if_false,
    dif_neg, not_false_eq_true]

end Turn

/-- **What the loop returns**: if none of its turns has failed, everything up to the end of the
file; and nothing otherwise.  There is room in the buffer in every turn. -/
theorem fileReadLoop_spec (allocSize : Nat) (contents : Bytes) (calls : List ReadCall)
    (stream : Bytes) (hroom : contents.length < allocSize) :
    (fileReadLoop allocSize contents calls stream).contents =
      if (fileReadLoop allocSize contents calls stream).fails then none
      else some (contents ++ stream) := by
  unfold FileRead.fails
  fun_induction fileReadLoop allocSize contents calls stream with
  | case1 allocSize contents calls stream call hrealloc =>
    have hfails : call.fails = true := by simp [ReadCall.fails, hrealloc]
    simp [hfails]
  | case2 allocSize contents calls stream call hrealloc hanswer =>
    have hfails : call.fails = true := by simp [ReadCall.fails, hanswer]
    simp [hfails]
  | case3 allocSize contents calls stream call hrealloc extra hanswer got hgot =>
    have hfine : call.fails = false := by simpa [ReadCall.fails, hanswer] using hrealloc
    -- nothing was given although there was room, so the file has ended
    have hend : stream = [] := by
      rcases List.take_eq_nil_iff.1 hgot with hzero | hend
      · omega
      · exact hend
    simp [hfine, hend]
  | case4 allocSize contents calls stream call hrealloc extra hanswer got hgot contents' allocSize'
      rest ih =>
    have hfine : call.fails = false := by simpa [ReadCall.fails, hanswer] using hrealloc
    have hroom' : contents'.length < allocSize' := by
      have hlen : got.length ≤ allocSize - contents.length :=
        (List.length_take_le _ _).trans (Nat.min_le_right _ _)
      have hlen' : contents'.length = contents.length + got.length := List.length_append
      show contents'.length < if contents'.length = allocSize then allocSize * 2 else allocSize
      split <;> omega
    have hsplit : contents' ++ stream.drop got.length = contents ++ stream := by
      have htake : got = stream.take got.length :=
        List.prefix_iff_eq_take.1 (List.take_prefix _ stream)
      show contents ++ got ++ stream.drop got.length = contents ++ stream
      rw [List.append_assoc]
      nth_rewrite 1 [htake]
      rw [List.take_append_drop]
    rw [hsplit] at ih
    simp only [List.any_cons, hfine, Bool.false_or]
    exact ih hroom'

/-- **`file_read` gives the whole file or nothing.** -/
theorem fileRead_spec (calls : List ReadCall) (stream : Bytes) :
    (fileRead calls stream).contents =
      if (fileRead calls stream).fails then none else some stream :=
  fileReadLoop_spec 256 [] calls stream (by decide)

/-! ## Waiting for a child -/

/-- What the status of a child says. -/
inductive WaitStatus where
  /-- `WIFEXITED`, with `WEXITSTATUS`: the lowest eight bits of the exit code. -/
  | exited (code : UInt8)
  /-- `WIFSIGNALED`, with `WTERMSIG`. -/
  | signaled (sig : UInt8)
  /-- Neither: the child has been stopped or continued. -/
  | other
  deriving DecidableEq, Repr

/-- `wait_for_child`: the exit code it stores, if it returns 0. -/
def waitForChild (status : Option WaitStatus) : Option Int32 :=
  match status with
  | none => none
  | some (.exited code) => some (Int32.ofInt code.toNat)
  | some (.signaled sig) => some (-Int32.ofInt sig.toNat)
  | some .other => some 1

/-! ## Capturing the output of a child -/

/-- What the outside world does to one call of `process_execute_and_capture`: whether `pipe2` and
`fork` succeed, the bytes the pipe delivers up to its end, the turns of the loop that reads them,
and the status `waitpid` reports, if it succeeds.  Without `WUNTRACED` and `WCONTINUED` a child
that is stopped or continued is not reported. -/
structure ProcessEnv where
  pipeOk : Bool
  forkOk : Bool
  delivered : Bytes
  calls : List ReadCall
  status : Option { status : WaitStatus // status ≠ .other }

/-- What a call leaves behind: its return value, whether a child was created, whether it was
reaped, and `*result`. -/
structure Captured where
  ret : Int32
  forked : Bool
  reaped : Bool
  result : ProcessOutput

/-- `process_execute_and_capture`; `ret` is the value each `goto close_pipe` returns with. -/
def processExecuteAndCapture (env : ProcessEnv) (result : ProcessOutput) : Captured :=
  if !env.pipeOk then ⟨-1, false, false, result⟩
  else
    let ret : Int32 := 0
    if !env.forkOk then ⟨ret, false, false, result⟩
    else
      match (fileRead env.calls env.delivered).contents with
      | none => ⟨-1, true, false, result⟩
      | some data =>
        match waitForChild (env.status.map Subtype.val) with
        | none => ⟨-1, true, false, { result with data }⟩
        | some ec => ⟨0, true, true, { ec, data }⟩

/-- The exit code of a child: its status, between 0 and 255, or the negated number of the signal
that has killed it. -/
def IsExitCode (ec : Int32) : WaitStatus → Prop
  | .exited code => ec.toInt = code.toNat ∧ 0 ≤ ec.toInt ∧ ec.toInt ≤ 255
  | .signaled sig => ec.toInt = -sig.toNat
  | .other => False

/-- A turn of the loop that reads the pipe has failed. -/
def ProcessEnv.readFails (env : ProcessEnv) : Bool := (fileRead env.calls env.delivered).fails

/-- **The contract**: a non-negative value means that there was a child, that it was reaped, and
that its output and its exit code were captured; any failure gives a negative value. -/
structure CaptureContract (env : ProcessEnv) (captured : Captured) : Prop where
  real : 0 ≤ captured.ret → captured.forked = true ∧ captured.reaped = true ∧
    captured.result.data = env.delivered ∧
    ∃ status, env.status.map Subtype.val = some status ∧ IsExitCode captured.result.ec status
  failed : env.pipeOk = false ∨ env.forkOk = false ∨ env.readFails = true ∨ env.status = none →
    captured.ret < 0

theorem waitForChild_spec {status : WaitStatus} (h : status ≠ .other) :
    ∃ ec, waitForChild (some status) = some ec ∧ IsExitCode ec status := by
  have hbyte : ∀ b : UInt8, (Int32.ofInt b.toNat).toInt = b.toNat := fun b => by
    have := b.toNat_lt
    exact Int32.toInt_ofInt_of_le (by simp) (by omega)
  cases status with
  | exited code =>
    have := code.toNat_lt
    refine ⟨_, rfl, hbyte code, ?_, ?_⟩ <;> rw [hbyte code] <;> omega
  | signaled sig =>
    refine ⟨_, rfl, ?_⟩
    have := sig.toNat_lt
    have hneg : (-Int32.ofInt sig.toNat).toInt = (-(sig.toNat : Int)).bmod 4294967296 := by
      rw [Int32.toInt_neg, hbyte sig]
    rw [IsExitCode, hneg, Int.bmod_eq_iff] <;> omega
  | other => exact absurd rfl h

theorem CaptureContract.of_failed {env : ProcessEnv} {captured : Captured}
    (h : captured.ret < 0) : CaptureContract env captured where
  real hret := absurd h (Int32.not_lt.2 hret)
  failed _ := h

/-- Once there is a child the contract is kept. -/
theorem capture_of_child (env : ProcessEnv) (result : ProcessOutput) (hpipe : env.pipeOk = true)
    (hfork : env.forkOk = true) : CaptureContract env (processExecuteAndCapture env result) := by
  have hread := fileRead_spec env.calls env.delivered
  simp only [processExecuteAndCapture, hpipe, hfork, Bool.not_true, Bool.false_eq_true, if_false]
  cases hfails : (fileRead env.calls env.delivered).fails with
  | true =>
    rw [hread, hfails]
    exact .of_failed (show (-1 : Int32) < 0 by decide)
  | false =>
    rw [hread, hfails]
    cases hstatus : env.status with
    | none => exact .of_failed (show (-1 : Int32) < 0 by decide)
    | some status =>
      obtain ⟨ec, hec, hcode⟩ := waitForChild_spec status.2
      simp only [Option.map_some, hec]
      refine ⟨fun _ => ⟨rfl, rfl, rfl, status.1, by simp [hstatus], hcode⟩, ?_⟩
      -- none of the steps has failed
      rintro (hnone | hnone | hnone | hnone)
      · rw [hpipe] at hnone
        cases hnone
      · rw [hfork] at hnone
        cases hnone
      · rw [ProcessEnv.readFails, hfails] at hnone
        cases hnone
      · rw [hstatus] at hnone
        cases hnone

/-- **A captured result is real** exactly if there is no pipe, or there is a child: when `fork`
fails, the value of `pipe2` is returned. -/
theorem capture_contract_iff (env : ProcessEnv) (result : ProcessOutput) :
    CaptureContract env (processExecuteAndCapture env result) ↔
      env.pipeOk = false ∨ env.forkOk = true := by
  constructor
  · intro hcontract
    by_contra hnot
    simp only [not_or, Bool.not_eq_false, Bool.not_eq_true] at hnot
    have hret := hcontract.failed (.inr (.inl hnot.2))
    simp only [processExecuteAndCapture, hnot.1, hnot.2, Bool.not_true, Bool.not_false,
      Bool.false_eq_true, if_false, if_true] at hret
    exact absurd hret (show ¬ (0 : Int32) < 0 by decide)
  · rintro (hpipe | hfork)
    · refine .of_failed ?_
      simp only [processExecuteAndCapture, hpipe, Bool.not_false, if_true]
      decide
    · cases hpipe : env.pipeOk with
      | true => exact capture_of_child env result hpipe hfork
      | false =>
        refine .of_failed ?_
        simp only [processExecuteAndCapture, hpipe, Bool.not_false, if_true]
        decide

/-- The process table is full: no child, and the value 0 with the exit code and the output the
result was created with. -/
theorem capture_without_child :
    (processExecuteAndCapture ⟨true, false, [], [], none⟩ ⟨0, []⟩).ret = 0 ∧
      (processExecuteAndCapture ⟨true, false, [], [], none⟩ ⟨0, []⟩).result = ⟨0, []⟩ ∧
      ¬ CaptureContract ⟨true, false, [], [], none⟩
        (processExecuteAndCapture ⟨true, false, [], [], none⟩ ⟨0, []⟩) := by
  refine ⟨rfl, rfl, fun hcontract => ?_⟩
  exact absurd (hcontract.failed (.inr (.inl rfl))) (by decide)

end Cimple.Process
