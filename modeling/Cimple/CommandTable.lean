import Cimple.Lib.Ledger
import Cimple.Lib.Runs
import Cimple.Server
import Cimple.Worker

/-!
# The table of a dispatcher in memory (`command.c`)

`Command.lean` has a table of commands as a list; here its entries are in memory, the name of each
a pointer, and what is acquired, compared and released is written down in a ledger.

* `copyCmds` — the table is copied entry by entry, and a failure goes to the label `free`.
* `cmdDispatcherCreate`, `cmdDispatcherHandleInternal`, `cmdDispatcherDestroy` — the life of a
  dispatcher.
* `BuildsCleanly` — what is asked of `copy_cmds` and `cmd_dispatcher_destroy`.

Principal results: `copyCmds_whole` and `copyCmds_failed` (what copying leaves), `handle_refines`
(a dispatcher in memory serves what its list of commands does), `lifetime_settled` and
`builds_cleanly_iff`.
-/

set_option autoImplicit false

namespace Cimple.CommandTable

open Octets Ledger Cimple.JsonRpc Cimple.Command

/-! ## The source -/

/-- Blocks of memory: a dispatcher, its table, the name at each position; and those of others. -/
inductive Block where
  | dispatcher
  | cmds
  | name (i : Nat)
  | other (addr : Nat)
  deriving DecidableEq

/-- A string in memory. -/
structure Name where
  block : Block
  text : CStr

variable {σ : Type}

/-- `struct cmd_desc` in the table; the name is `none` if the pointer is `NULL`. -/
structure CmdSlot (σ : Type) where
  name : Option Name
  handler : CmdHandler σ

/-- `strdup` of the name at position `i`; `ok` is whether there is memory. -/
def strdup (ok : Bool) (i : Nat) (s : CStr) : Option Name × List (Event Block) :=
  if ok then (some ⟨.name i, s⟩, [.acquire (.name i)]) else (none, [])

/-- `copy_cmd`. -/
def copyCmd (ok : Bool) (i : Nat) (dest : CmdSlot σ) (src : CmdDesc σ) :
    Int32 × CmdSlot σ × List (Event Block) :=
  let (name, events) := strdup ok i src.name
  let dest := { dest with name }
  if name.isNone then (-1, dest, events) else (0, { dest with handler := src.handler }, events)

/-- `free_cmd`. -/
def freeCmd (desc : CmdSlot σ) : List (Event Block) :=
  match desc.name with
  | none => []
  | some name => [.release name.block]

/-- What `copy_cmds` returns, the table it leaves, and what it acquires and releases. -/
structure Copied (σ : Type) where
  ret : Int32
  dest : List (CmdSlot σ)
  events : List (Event Block)

/-- The label `free` of `copy_cmds`: every turn of its loop frees the same entry,
`dest[numof_copied]`. -/
def freeLabel (entry : CmdSlot σ) (numofCopied : Nat) : List (Event Block) :=
  (List.range numofCopied).flatMap fun _ => freeCmd entry

/-- The loop of `copy_cmds`; `dups i` is whether the name at position `i` can be duplicated.  It is
undefined to write past the end of the table. -/
def copyCmdsLoop (dups : Nat → Bool) :
    List (CmdDesc σ) → (numofCopied : Nat) → List (CmdSlot σ) → Option (Copied σ)
  | [], _, dest => some ⟨0, dest, []⟩
  | cmd :: src, numofCopied, dest => do
    let entry ← dest[numofCopied]?
    let (ret, entry, events) := copyCmd (dups numofCopied) numofCopied entry cmd
    let dest := dest.set numofCopied entry
    if ret < 0 then some ⟨-1, dest, events ++ freeLabel entry numofCopied⟩
    else do
      let rest ← copyCmdsLoop dups src (numofCopied + 1) dest
      some ⟨rest.ret, rest.dest, events ++ rest.events⟩

/-- `copy_cmds`. -/
def copyCmds (dups : Nat → Bool) (dest : List (CmdSlot σ)) (src : List (CmdDesc σ)) :
    Option (Copied σ) :=
  copyCmdsLoop dups src 0 dest

theorem copyCmdsLoop_length {dups : Nat → Bool} {src : List (CmdDesc σ)} :
    ∀ {k : Nat} {dest : List (CmdSlot σ)} {copied : Copied σ},
      copyCmdsLoop dups src k dest = some copied → copied.dest.length = dest.length := by
  induction src with
  | nil =>
    intro k dest copied h
    cases h
    rfl
  | cons cmd src ih =>
    intro k dest copied h
    obtain ⟨entry, -, h⟩ := Option.bind_eq_some_iff.1 h
    simp only at h
    split at h
    · cases h
      exact List.length_set
    · obtain ⟨rest, hrest, hcopied⟩ := Option.bind_eq_some_iff.1 h
      cases hcopied
      rw [ih hrest, List.length_set]

/-- `struct cmd_dispatcher`; `ctx` is the state that the handlers are given. -/
structure CmdDispatcher (σ : Type) where
  cmds : List (CmdSlot σ)
  numofCmds : Nat
  sized : cmds.length = numofCmds

/-- `free_cmds`. -/
def freeCmds (cmds : List (CmdSlot σ)) (numofCmds : Nat) : List (Event Block) :=
  (cmds.take numofCmds).flatMap freeCmd

/-- What the allocator does to one `cmd_dispatcher_create`: whether there is memory for the
dispatcher, for its table and for each name; and what is in the memory of the table. -/
structure CreateEnv (σ : Type) where
  dispatcherOk : Bool
  cmdsOk : Bool
  dups : Nat → Bool
  junk : Nat → CmdSlot σ

/-- What `cmd_dispatcher_create` returns, the dispatcher it makes, and what it acquires and
releases. -/
structure Created (σ : Type) where
  ret : Int32
  dispatcher : Option (CmdDispatcher σ)
  events : List (Event Block)

/-- The memory of a table that has just been allocated. -/
def freshTable (junk : Nat → CmdSlot σ) (numofCmds : Nat) : List (CmdSlot σ) :=
  (List.range numofCmds).map junk

theorem freshTable_length (junk : Nat → CmdSlot σ) (numofCmds : Nat) :
    (freshTable junk numofCmds).length = numofCmds := by
  simp [freshTable]

/-- `cmd_dispatcher_create`. -/
def cmdDispatcherCreate (env : CreateEnv σ) (cmds : List (CmdDesc σ)) : Option (Created σ) :=
  if !env.dispatcherOk then some ⟨-1, none, []⟩
  else if !env.cmdsOk then some ⟨-1, none, [.acquire .dispatcher, .release .dispatcher]⟩
  else
    match h : copyCmds env.dups (freshTable env.junk cmds.length) cmds with
    | none => none
    | some copied =>
      let events := [.acquire .dispatcher, .acquire .cmds] ++ copied.events
      if copied.ret < 0 then
        some ⟨-1, none, events ++ [.release .cmds, .release .dispatcher]⟩
      else
        have hsized : copied.dest.length = cmds.length := by
          rw [copyCmdsLoop_length h, freshTable_length]
        some ⟨0, some ⟨copied.dest, cmds.length, hsized⟩, events⟩

/-- `cmd_dispatcher_destroy`. -/
def cmdDispatcherDestroy (dispatcher : CmdDispatcher σ) : List (Event Block) :=
  freeCmds dispatcher.cmds dispatcher.numofCmds ++ [.release .cmds, .release .dispatcher]

/-- The loop over the table: the handler that is found, and the names that are compared.  It is
undefined to compare with `NULL`. -/
def cmdLookup : List (CmdSlot σ) → CStr → Option (Option (CmdHandler σ) × List (Event Block))
  | [], _ => some (none, [])
  | cmd :: cmds, actualCmd => do
    let name ← cmd.name
    if name.text = actualCmd then some (some cmd.handler, [.use name.block])
    else do
      let (handler, events) ← cmdLookup cmds actualCmd
      some (handler, .use name.block :: events)

/-- `cmd_dispatcher_handle_internal`. -/
def cmdDispatcherHandleInternal (dispatcher : CmdDispatcher σ) (request : JsonrpcRequest)
    (fd : Nat) (state : σ) : Option (Handled σ × List (Event Block)) :=
  match jsonrpcRequestGetMethod request with
  | none => some (⟨-1, none, state⟩, [])
  | some actualCmd => do
    let (handler, events) ← cmdLookup (dispatcher.cmds.take dispatcher.numofCmds) actualCmd
    match handler with
    | some handler => some (handler request fd state, events)
    | none => some (⟨-1, none, state⟩, events)

/-! ## Copying -/

/-- The entry made of a command. -/
def copiedSlot (i : Nat) (cmd : CmdDesc σ) : CmdSlot σ := ⟨some ⟨.name i, cmd.name⟩, cmd.handler⟩

/-- The entries made of commands, from position `k` on. -/
def copiedSlots (k : Nat) (cmds : List (CmdDesc σ)) : List (CmdSlot σ) :=
  (cmds.zipIdx k).map fun cmd => copiedSlot cmd.2 cmd.1

/-- The acquisition of `n` names, from position `k` on. -/
def acquired (k n : Nat) : List (Event Block) :=
  (List.range' k n).map fun i => .acquire (.name i)

variable {dups : Nat → Bool}

theorem copyCmdsLoop_copied {before slots : List (CmdSlot σ)} (slot : CmdSlot σ)
    (cmd : CmdDesc σ) (src : List (CmdDesc σ)) (hdup : dups before.length = true) :
    copyCmdsLoop dups (cmd :: src) before.length (before ++ slot :: slots) =
      (copyCmdsLoop dups src (before.length + 1)
        (before ++ copiedSlot before.length cmd :: slots)).map fun rest =>
          ⟨rest.ret, rest.dest, .acquire (.name before.length) :: rest.events⟩ := by
  have hentry : (before ++ slot :: slots)[before.length]? = some slot := by simp
  have hcopy : copyCmd true before.length slot cmd =
      (0, copiedSlot before.length cmd, [.acquire (.name before.length)]) := rfl
  have hset : (before ++ slot :: slots).set before.length (copiedSlot before.length cmd) =
      before ++ copiedSlot before.length cmd :: slots := by simp
  simp only [copyCmdsLoop, hentry, hdup, hcopy, hset, Option.bind_eq_bind, Option.bind_some]
  rw [if_neg (by decide)]
  cases copyCmdsLoop dups src (before.length + 1)
    (before ++ copiedSlot before.length cmd :: slots) <;> rfl

theorem copyCmdsLoop_failed {before slots : List (CmdSlot σ)} (slot : CmdSlot σ)
    (cmd : CmdDesc σ) (src : List (CmdDesc σ)) (hdup : dups before.length = false) :
    copyCmdsLoop dups (cmd :: src) before.length (before ++ slot :: slots) =
      some ⟨-1, before ++ { slot with name := none } :: slots, []⟩ := by
  have hentry : (before ++ slot :: slots)[before.length]? = some slot := by simp
  have hcopy : copyCmd false before.length slot cmd = (-1, { slot with name := none }, []) := rfl
  have hset : (before ++ slot :: slots).set before.length { slot with name := none } =
      before ++ { slot with name := none } :: slots := by simp
  have hfree : freeLabel { slot with name := none } before.length = [] :=
    List.flatMap_eq_nil_iff.2 fun _ _ => rfl
  simp only [copyCmdsLoop, hentry, hdup, hcopy, hset, hfree, Option.bind_eq_bind,
    Option.bind_some]
  rw [if_pos (by decide)]
  rfl

/-- **Turns in which the names are duplicated** fill the table and acquire the names. -/
theorem copyCmdsLoop_append (good src : List (CmdDesc σ)) (slots' : List (CmdSlot σ)) :
    ∀ before slots : List (CmdSlot σ), slots.length = good.length →
      (∀ i < good.length, dups (before.length + i) = true) →
      copyCmdsLoop dups (good ++ src) before.length (before ++ (slots ++ slots')) =
        (copyCmdsLoop dups src (before.length + good.length)
          (before ++ (copiedSlots before.length good ++ slots'))).map fun rest =>
            ⟨rest.ret, rest.dest, acquired before.length good.length ++ rest.events⟩ := by
  induction good with
  | nil =>
    intro before slots hlen _
    obtain rfl : slots = [] := List.length_eq_zero_iff.1 hlen
    show copyCmdsLoop dups src before.length (before ++ slots') =
      (copyCmdsLoop dups src before.length (before ++ slots')).map _
    cases copyCmdsLoop dups src before.length (before ++ slots') <;> rfl
  | cons cmd good ih =>
    intro before slots hlen hdups
    obtain ⟨slot, slots, rfl⟩ : ∃ slot rest, slots = slot :: rest :=
      List.exists_cons_of_length_eq_add_one hlen
    have hsucc : (before ++ [copiedSlot before.length cmd]).length = before.length + 1 := by simp
    have hrest := ih (before ++ [copiedSlot before.length cmd]) slots (by simpa using hlen) (by
      intro i hi
      rw [hsucc, Nat.add_assoc, Nat.add_comm 1 i]
      exact hdups (i + 1) (Nat.succ_lt_succ hi))
    have hslots : copiedSlots before.length (cmd :: good) =
        copiedSlot before.length cmd :: copiedSlots (before.length + 1) good := rfl
    have hacquired : acquired before.length (cmd :: good).length =
        .acquire (.name before.length) :: acquired (before.length + 1) good.length := rfl
    rw [List.append_assoc, List.append_assoc, hsucc] at hrest
    rw [List.cons_append, List.cons_append, copyCmdsLoop_copied slot cmd _
      (hdups 0 (Nat.succ_pos _)), ← List.singleton_append, hrest, hslots, hacquired,
      List.length_cons, Nat.add_comm good.length 1, ← Nat.add_assoc, Option.map_map]
    rfl

/-- The names of a table are duplicated up to position `k`, and the one there is not. -/
def FailsAt (dups : Nat → Bool) (cmds : List (CmdDesc σ)) (k : Nat) : Prop :=
  k < cmds.length ∧ dups k = false ∧ ∀ i < k, dups i = true

/-- **What copying leaves if nothing fails**: the table, and its names acquired. -/
theorem copyCmds_whole {dest : List (CmdSlot σ)} {cmds : List (CmdDesc σ)}
    (hdest : dest.length = cmds.length) (hdups : ∀ i < cmds.length, dups i = true) :
    copyCmds dups dest cmds = some ⟨0, copiedSlots 0 cmds, acquired 0 cmds.length⟩ := by
  have hloop := copyCmdsLoop_append cmds [] [] [] dest hdest
    (show ∀ i < cmds.length, dups (0 + i) = true by simpa using hdups)
  simpa [copyCmds, copyCmdsLoop] using hloop

/-- **What copying leaves if a name is not duplicated**: those before it are acquired, and none
of them is released. -/
theorem copyCmds_failed {dest : List (CmdSlot σ)} {cmds : List (CmdDesc σ)}
    (hdest : dest.length = cmds.length) {k : Nat} (hk : FailsAt dups cmds k) :
    ∃ dest', copyCmds dups dest cmds = some ⟨-1, dest', acquired 0 k⟩ := by
  obtain ⟨hlt, hfails, hdups⟩ := hk
  obtain ⟨good, cmd, src, rfl, rfl⟩ : ∃ good cmd src, cmds = good ++ cmd :: src ∧ good.length = k :=
    ⟨cmds.take k, cmds[k], cmds.drop (k + 1), by simp, by simp [hlt.le]⟩
  obtain ⟨slots, slot, rest, rfl, hslots⟩ :
      ∃ slots slot rest, dest = slots ++ slot :: rest ∧ slots.length = good.length :=
    ⟨dest.take good.length, dest[good.length], dest.drop (good.length + 1), by simp,
      by simp [hdest]⟩
  have hlen : (copiedSlots 0 good).length = good.length := by simp [copiedSlots]
  have hloop := copyCmdsLoop_append good (cmd :: src) (slot :: rest) [] slots hslots
    (show ∀ i < good.length, dups (0 + i) = true by simpa using hdups)
  have hlast : copyCmdsLoop dups (cmd :: src) (copiedSlots 0 good).length
      (copiedSlots 0 good ++ slot :: rest) =
        some ⟨-1, copiedSlots 0 good ++ { slot with name := none } :: rest, []⟩ :=
    copyCmdsLoop_failed slot cmd src (by rwa [hlen])
  rw [hlen] at hlast
  simp only [List.nil_append, List.length_nil, Nat.zero_add, hlast] at hloop
  rw [copyCmds, hloop, Option.map_some, List.append_nil]
  exact ⟨_, rfl⟩

/-! ## What a dispatcher does with its table -/

/-- A dispatcher whose table has been copied from `cmds`. -/
structure CopyOf (cmds : List (CmdDesc σ)) (dispatcher : CmdDispatcher σ) : Prop where
  cmds_eq : dispatcher.cmds = copiedSlots 0 cmds
  numofCmds_eq : dispatcher.numofCmds = cmds.length

/-- Nothing but comparing names of the table. -/
def Compares (numofCmds : Nat) (events : List (Event Block)) : Prop :=
  ∀ e ∈ events, ∃ i < numofCmds, e = .use (.name i)

theorem CopyOf.take_cmds {cmds : List (CmdDesc σ)} {dispatcher : CmdDispatcher σ}
    (h : CopyOf cmds dispatcher) :
    dispatcher.cmds.take dispatcher.numofCmds = copiedSlots 0 cmds := by
  rw [List.take_of_length_le dispatcher.sized.le, h.cmds_eq]

/-- The loop over a copied table finds what there is in the list of commands. -/
theorem cmdLookup_copied (cmds : List (CmdDesc σ)) (actualCmd : CStr) :
    ∀ k, ∃ events, cmdLookup (copiedSlots k cmds) actualCmd =
        some ((Command.cmdLookup cmds actualCmd).map CmdDesc.handler, events) ∧
      Compares (k + cmds.length) events := by
  induction cmds with
  | nil => exact fun k => ⟨[], rfl, fun e he => by cases he⟩
  | cons cmd cmds ih =>
    intro k
    obtain ⟨events, hlookup, hcompares⟩ := ih (k + 1)
    have hslots : copiedSlots k (cmd :: cmds) = copiedSlot k cmd :: copiedSlots (k + 1) cmds := rfl
    have hfirst : Compares (k + (cmd :: cmds).length) [.use (.name k)] := by
      intro e he
      exact ⟨k, by simp, List.mem_singleton.1 he⟩
    by_cases hname : cmd.name = actualCmd
    · refine ⟨_, ?_, hfirst⟩
      have hfound : Command.cmdLookup (cmd :: cmds) actualCmd = some cmd := by
        simp [Command.cmdLookup, hname]
      rw [hslots, hfound, Option.map_some]
      simp only [cmdLookup, copiedSlot, Option.bind_eq_bind, Option.bind_some, if_pos hname]
    · refine ⟨.use (.name k) :: events, ?_, ?_⟩
      · have hnext : Command.cmdLookup (cmd :: cmds) actualCmd =
            Command.cmdLookup cmds actualCmd := by
          simp [Command.cmdLookup, hname]
        rw [hslots, hnext]
        simp only [cmdLookup, copiedSlot, Option.bind_eq_bind, Option.bind_some, if_neg hname,
          hlookup]
      · refine List.forall_mem_cons.2 ⟨hfirst _ (List.mem_singleton_self _), fun e he => ?_⟩
        obtain ⟨i, hi, rfl⟩ := hcompares e he
        exact ⟨i, by rw [List.length_cons]; omega, rfl⟩

/-- **A dispatcher in memory serves a request as its list of commands does**, and only compares
names. -/
theorem handle_refines {cmds : List (CmdDesc σ)} {dispatcher : CmdDispatcher σ}
    (h : CopyOf cmds dispatcher) (request : JsonrpcRequest) (fd : Nat) (state : σ) :
    ∃ events, cmdDispatcherHandleInternal dispatcher request fd state =
        some (Command.cmdDispatcherHandleInternal cmds request fd state, events) ∧
      Compares cmds.length events := by
  unfold cmdDispatcherHandleInternal Command.cmdDispatcherHandleInternal cmdOf
  cases jsonrpcRequestGetMethod request with
  | none => exact ⟨[], rfl, fun e he => by cases he⟩
  | some actualCmd =>
    obtain ⟨events, hlookup, hcompares⟩ := cmdLookup_copied cmds actualCmd 0
    rw [Nat.zero_add] at hcompares
    refine ⟨events, ?_, hcompares⟩
    rw [h.take_cmds]
    simp only [hlookup, Option.bind_eq_bind, Option.bind_some]
    cases Command.cmdLookup cmds actualCmd <;> rfl

/-- Requests served one after the other: the state they leave, and the names compared. -/
def serve (dispatcher : CmdDispatcher σ) (state : σ) (requests : List (JsonrpcRequest × Nat)) :
    Option (σ × List (Event Block)) :=
  requests.foldlM (fun served request => do
    let (handled, events) ← cmdDispatcherHandleInternal dispatcher request.1 request.2 served.1
    some (handled.state, served.2 ++ events)) (state, [])

/-- **Serving is defined**, and only compares names. -/
theorem serve_compares {cmds : List (CmdDesc σ)} {dispatcher : CmdDispatcher σ}
    (h : CopyOf cmds dispatcher) (state : σ) (requests : List (JsonrpcRequest × Nat)) :
    ∃ served, serve dispatcher state requests = some served ∧ Compares cmds.length served.2 := by
  refine Runs.foldlM_some
    (I := fun served : σ × List (Event Block) => Compares cmds.length served.2) ?_ ?_
  · intro served hserved request _
    obtain ⟨events, hhandle, hcompares⟩ := handle_refines h request.1 request.2 served.1
    refine ⟨_, by rw [hhandle]; rfl, ?_⟩
    exact List.forall_mem_append.2 ⟨hserved, hcompares⟩
  · intro e he
    cases he

/-! ## The life of a dispatcher -/

/-- One event for each name is all there is of a name, and of what is no name of the table. -/
theorem history_names {f : Block → Event Block} (hf : ∀ b, (f b).resource = b) (n : Nat) :
    (∀ i < n, history (.name i) ((List.range' 0 n).map fun i => f (.name i)) = [f (.name i)]) ∧
      ∀ b, (∀ i < n, b ≠ .name i) →
        history b ((List.range' 0 n).map fun i => f (.name i)) = [] := by
  have hresources : ((List.range' 0 n).map fun i => f (.name i)).map Event.resource =
      (List.range' 0 n).map Block.name := by
    rw [List.map_map]
    exact List.map_congr_left fun i _ => hf (.name i)
  constructor
  · intro i hi
    have hnodup : (((List.range' 0 n).map fun i => f (.name i)).map Event.resource).Nodup := by
      rw [hresources]
      exact List.Nodup.map (fun i j hij => Block.name.inj hij) List.nodup_range'
    have hmem : f (.name i) ∈ (List.range' 0 n).map fun i => f (.name i) :=
      List.mem_map.2 ⟨i, by simpa using hi, rfl⟩
    have hone := history_of_nodup hnodup hmem
    rwa [hf] at hone
  · intro b hb
    apply history_of_not_mem
    rw [hresources]
    intro hmem
    obtain ⟨i, hi, rfl⟩ := List.mem_map.1 hmem
    exact hb i (by simpa using hi) rfl

theorem settled_blocks {b : Block} {events : List (Event Block)}
    (hall : history b events =
      history b [.acquire .dispatcher, .acquire .cmds, .release .cmds, .release .dispatcher]) :
    Settled b events := by
  cases b with
  | dispatcher => exact settled_of_history (hall.trans rfl)
  | cmds => exact settled_of_history (hall.trans rfl)
  | name i => exact .inl (hall.trans rfl)
  | other addr => exact .inl (hall.trans rfl)

/-- **A table is copied whole**: a dispatcher is made. -/
theorem cmdDispatcherCreate_whole {junk : Nat → CmdSlot σ} {cmds : List (CmdDesc σ)}
    (hdups : ∀ i < cmds.length, dups i = true) :
    ∃ dispatcher, CopyOf cmds dispatcher ∧
      cmdDispatcherCreate ⟨true, true, dups, junk⟩ cmds =
        some ⟨0, some dispatcher, [.acquire .dispatcher, .acquire .cmds] ++
          acquired 0 cmds.length⟩ := by
  have hwhole := copyCmds_whole (freshTable_length junk cmds.length) hdups
  have hsized : (copiedSlots 0 cmds).length = cmds.length := by simp [copiedSlots]
  refine ⟨⟨copiedSlots 0 cmds, cmds.length, hsized⟩, ⟨rfl, rfl⟩, ?_⟩
  unfold cmdDispatcherCreate
  simp only [Bool.not_true, Bool.false_eq_true, if_false]
  split
  · rename_i hnone
    rw [hwhole] at hnone
    cases hnone
  · rename_i copied hcopied
    rw [hwhole] at hcopied
    cases hcopied
    rw [if_neg (show ¬ (0 : Int32) < 0 by decide)]

/-- **A table is not copied whole**: no dispatcher is made, and what there was of it is released,
but not the names. -/
theorem cmdDispatcherCreate_failed {junk : Nat → CmdSlot σ} {cmds : List (CmdDesc σ)} {k : Nat}
    (hk : FailsAt dups cmds k) :
    cmdDispatcherCreate ⟨true, true, dups, junk⟩ cmds =
      some ⟨-1, none, [.acquire .dispatcher, .acquire .cmds] ++ acquired 0 k ++
        [.release .cmds, .release .dispatcher]⟩ := by
  obtain ⟨dest, hfailed⟩ := copyCmds_failed (freshTable_length junk cmds.length) hk
  unfold cmdDispatcherCreate
  simp only [Bool.not_true, Bool.false_eq_true, if_false]
  split
  · rename_i hnone
    rw [hfailed] at hnone
    cases hnone
  · rename_i copied hcopied
    rw [hfailed] at hcopied
    cases hcopied
    rw [if_pos (show (-1 : Int32) < 0 by decide)]

/-- **What a dispatcher that is not made leaves**: the names that have been duplicated stay behind,
and everything else has been released. -/
theorem cmdDispatcherCreate_leaks {junk : Nat → CmdSlot σ} {cmds : List (CmdDesc σ)} {k : Nat}
    (hk : FailsAt dups cmds k) :
    ∃ created, cmdDispatcherCreate ⟨true, true, dups, junk⟩ cmds = some created ∧
      (∀ i < k, Held (.name i) created.events) ∧
      ∀ b, (∀ i < k, b ≠ .name i) → Settled b created.events := by
  have hacquired := history_names (f := .acquire) (fun _ => rfl) k
  refine ⟨_, cmdDispatcherCreate_failed hk, fun i hi => ?_, fun b hb => ?_⟩
  · have hheld : Held (.name i) ([.acquire .dispatcher, .acquire .cmds] ++ acquired 0 k) :=
      held_acquire rfl (hacquired.1 i hi)
    exact hheld.frame rfl
  · have hall : history b ([.acquire .dispatcher, .acquire .cmds] ++ acquired 0 k ++
        [.release .cmds, .release .dispatcher]) = history b
          [.acquire .dispatcher, .acquire .cmds, .release .cmds, .release .dispatcher] := by
      simp only [history_append, acquired, hacquired.2 b hb, List.append_nil]
      rw [← history_append]
      rfl
    exact settled_blocks hall

/-- The release of `n` names, from position `k` on. -/
def released (k n : Nat) : List (Event Block) :=
  (List.range' k n).map fun i => .release (.name i)

theorem freeCmds_copied (cmds : List (CmdDesc σ)) :
    ∀ k, (copiedSlots k cmds).flatMap freeCmd = released k cmds.length := by
  induction cmds with
  | nil => exact fun _ => rfl
  | cons cmd cmds ih =>
    intro k
    have hslots : copiedSlots k (cmd :: cmds) = copiedSlot k cmd :: copiedSlots (k + 1) cmds := rfl
    rw [hslots, List.flatMap_cons, ih (k + 1)]
    rfl

/-- **Destroying a dispatcher** releases every name of its table. -/
theorem cmdDispatcherDestroy_eq {cmds : List (CmdDesc σ)} {dispatcher : CmdDispatcher σ}
    (h : CopyOf cmds dispatcher) :
    cmdDispatcherDestroy dispatcher =
      released 0 cmds.length ++ [.release .cmds, .release .dispatcher] := by
  rw [cmdDispatcherDestroy, freeCmds, h.take_cmds, freeCmds_copied]

/-- **The whole life of a dispatcher**: every block is released once, after its last use. -/
theorem lifetime_settled {n : Nat} {compared : List (Event Block)} (hcompared : Compares n compared)
    (b : Block) :
    Settled b ([.acquire .dispatcher, .acquire .cmds] ++ acquired 0 n ++ compared ++
      (released 0 n ++ [.release .cmds, .release .dispatcher])) := by
  have hacquired := history_names (f := .acquire) (fun _ => rfl) n
  have hreleased := history_names (f := .release) (fun _ => rfl) n
  by_cases hb : ∃ i < n, b = .name i
  · obtain ⟨i, hi, rfl⟩ := hb
    have hheld : Held (.name i) ([.acquire .dispatcher, .acquire .cmds] ++ acquired 0 n) :=
      held_acquire rfl (hacquired.1 i hi)
    have hserved : Held (.name i)
        ([.acquire .dispatcher, .acquire .cmds] ++ acquired 0 n ++ compared) := by
      refine hheld.use fun e he => ?_
      obtain ⟨hmem, hres⟩ := List.mem_filter.1 he
      obtain ⟨j, -, rfl⟩ := hcompared e hmem
      exact congrArg Event.use (of_decide_eq_true hres)
    refine hserved.release ?_
    rw [history_append, released, hreleased.1 i hi]
    rfl
  · have hnone : ∀ i < n, b ≠ .name i := fun i hi heq => hb ⟨i, hi, heq⟩
    have hunused : history b compared = [] := by
      apply history_of_not_mem
      intro hmem
      obtain ⟨e, he, rfl⟩ := List.mem_map.1 hmem
      obtain ⟨i, hi, rfl⟩ := hcompared e he
      exact hnone i hi rfl
    have hall : history b ([.acquire .dispatcher, .acquire .cmds] ++ acquired 0 n ++ compared ++
        (released 0 n ++ [.release .cmds, .release .dispatcher])) = history b
          [.acquire .dispatcher, .acquire .cmds, .release .cmds, .release .dispatcher] := by
      simp only [history_append, acquired, hacquired.2 b hnone, hunused, released,
        hreleased.2 b hnone, List.append_nil, List.nil_append]
      rw [← history_append]
      rfl
    exact settled_blocks hall

/-- Exactly the names at the positions below `n` have been released, each of them once. -/
structure ReleasesNames (n : Nat) (events : List (Event Block)) : Prop where
  once : ∀ i < n, events.count (.release (.name i)) = 1
  others : ∀ b, (∀ i < n, b ≠ .name i) → events.count (.release b) = 0

/-- **A table is built cleanly**: if a name cannot be duplicated the value is negative, and exactly
the names before it have been released; and if nothing fails, whatever requests are served, the
dispatcher can be destroyed and every name of the table is released by that, and by nothing else,
after it has been compared for the last time. -/
structure BuildsCleanly (junk : Nat → CmdSlot σ) (dups : Nat → Bool) (cmds : List (CmdDesc σ)) :
    Prop where
  failed : ∀ k, FailsAt dups cmds k →
    ∃ copied, copyCmds dups (freshTable junk cmds.length) cmds = some copied ∧ copied.ret < 0 ∧
      ReleasesNames k copied.events
  succeeded : ∀ created dispatcher,
    cmdDispatcherCreate ⟨true, true, dups, junk⟩ cmds = some created →
    created.dispatcher = some dispatcher → ∀ (state : σ) (requests : List (JsonrpcRequest × Nat)),
      ∃ served, serve dispatcher state requests = some served ∧
        (∀ i < cmds.length, created.events.count (.acquire (.name i)) = 1 ∧
          (cmdDispatcherDestroy dispatcher).count (.release (.name i)) = 1) ∧
        ∀ b, Settled b (created.events ++ served.2 ++ cmdDispatcherDestroy dispatcher)

theorem exists_failsAt {cmds : List (CmdDesc σ)} (h : ¬ ∀ i < cmds.length, dups i = true) :
    ∃ k, FailsAt dups cmds k := by
  have hex : ∃ k, k < cmds.length ∧ dups k = false := by
    simpa using h
  refine ⟨Nat.find hex, (Nat.find_spec hex).1, (Nat.find_spec hex).2, fun i hi => ?_⟩
  have hnot := Nat.find_min hex hi
  have hlt : i < cmds.length := hi.trans (Nat.find_spec hex).1
  simpa [hlt] using hnot

theorem FailsAt.eq_zero {cmds : List (CmdDesc σ)} {k : Nat} (hk : FailsAt dups cmds k)
    (hclean : (∀ i < cmds.length, dups i = true) ∨ dups 0 = false) : k = 0 := by
  obtain ⟨hlt, hfails, hbefore⟩ := hk
  rcases hclean with hall | hfirst
  · rw [hall k hlt] at hfails
    cases hfails
  · by_contra hpos
    rw [hbefore 0 (Nat.pos_of_ne_zero hpos)] at hfirst
    cases hfirst

theorem created_count_acquire {n i : Nat} (hi : i < n) :
    ([.acquire .dispatcher, .acquire .cmds] ++ acquired 0 n : List (Event Block)).count
      (.acquire (.name i)) = 1 := by
  have hacquired := (history_names (f := .acquire) (fun _ => rfl) n).1 i hi
  rw [count_eq_history (r := .name i) rfl, history_append, acquired, hacquired]
  simp [history_cons, Event.resource]

theorem destroy_count_release {cmds : List (CmdDesc σ)} {dispatcher : CmdDispatcher σ}
    (h : CopyOf cmds dispatcher) {i : Nat} (hi : i < cmds.length) :
    (cmdDispatcherDestroy dispatcher).count (.release (.name i)) = 1 := by
  have hreleased := (history_names (f := .release) (fun _ => rfl) cmds.length).1 i hi
  rw [cmdDispatcherDestroy_eq h, count_eq_history (r := .name i) rfl, history_append, released,
    hreleased]
  simp [history_cons, Event.resource]

theorem acquired_count_release (k n : Nat) (b : Block) :
    (acquired k n).count (.release b) = 0 := by
  refine List.count_eq_zero.2 fun hmem => ?_
  obtain ⟨i, -, heq⟩ := List.mem_map.1 hmem
  cases heq

/-- If nothing fails or the first name does, the table is built cleanly. -/
theorem builds_cleanly {junk : Nat → CmdSlot σ} {cmds : List (CmdDesc σ)}
    (hclean : (∀ i < cmds.length, dups i = true) ∨ dups 0 = false) :
    BuildsCleanly junk dups cmds := by
  refine ⟨fun k hk => ?_, fun created dispatcher hcreated hdispatcher state requests => ?_⟩
  · obtain ⟨dest, hfailed⟩ := copyCmds_failed (freshTable_length junk cmds.length) hk
    obtain rfl : k = 0 := hk.eq_zero hclean
    refine ⟨_, hfailed, show (-1 : Int32) < 0 by decide, ?_⟩
    exact ⟨fun i hi => absurd hi (Nat.not_lt_zero i), fun b _ => acquired_count_release 0 0 b⟩
  · have hall : ∀ i < cmds.length, dups i = true := by
      by_contra hnot
      obtain ⟨k, hk⟩ := exists_failsAt hnot
      rw [cmdDispatcherCreate_failed hk] at hcreated
      cases hcreated
      cases hdispatcher
    obtain ⟨made, hcopy, hmade⟩ := cmdDispatcherCreate_whole hall
    rw [hmade] at hcreated
    cases hcreated
    cases hdispatcher
    obtain ⟨served, hserved, hcompares⟩ := serve_compares hcopy state requests
    refine ⟨served, hserved, fun i hi => ?_, fun b => ?_⟩
    · exact ⟨created_count_acquire hi, destroy_count_release hcopy hi⟩
    · rw [cmdDispatcherDestroy_eq hcopy]
      exact lifetime_settled hcompares b

theorem worker_table_clean (junk : Nat → CmdSlot Workers.Worker) (dups : Nat → Bool) :
    BuildsCleanly junk dups Workers.workerCommands := by
  apply builds_cleanly
  cases hfirst : dups 0 with
  | false => exact .inr rfl
  | true =>
    refine .inl fun i hi => ?_
    obtain rfl : i = 0 := Nat.lt_one_iff.1 hi
    exact hfirst

theorem not_builds_cleanly {junk : Nat → CmdSlot σ} {cmds : List (CmdDesc σ)} {k : Nat}
    (hk : FailsAt dups cmds (k + 1)) : ¬ BuildsCleanly junk dups cmds := by
  intro h
  obtain ⟨copied, hcopied, -, hreleases⟩ := h.failed (k + 1) hk
  obtain ⟨dest, hfailed⟩ := copyCmds_failed (freshTable_length junk cmds.length) hk
  rw [hfailed] at hcopied
  cases hcopied
  have honce := hreleases.once 0 (Nat.succ_pos k)
  rw [acquired_count_release] at honce
  cases honce

/-- **A table is built cleanly exactly if nothing fails, or the first name does**: the names before
one that is not duplicated are never released. -/
theorem builds_cleanly_iff (junk : Nat → CmdSlot σ) (dups : Nat → Bool)
    (cmds : List (CmdDesc σ)) :
    BuildsCleanly junk dups cmds ↔ (∀ i < cmds.length, dups i = true) ∨ dups 0 = false := by
  constructor
  · intro h
    by_cases hall : ∀ i < cmds.length, dups i = true
    · exact .inl hall
    · obtain ⟨k, hk⟩ := exists_failsAt hall
      cases k with
      | zero => exact .inr hk.2.1
      | succ k => exact absurd h (not_builds_cleanly hk)
  · exact builds_cleanly

/-- The table of the server, and no memory for the second of its four names: the first one has been
acquired, and is never released. -/
theorem server_table_leaks :
    (∃ dest, copyCmds (fun i => decide (i = 0))
        (freshTable (fun _ => ⟨none, Servers.serverHandleCmdGetRuns Servers.calm⟩) 4)
        (Servers.serverCommands Servers.calm) = some ⟨-1, dest, [.acquire (.name 0)]⟩) ∧
      ¬ BuildsCleanly (fun _ => ⟨none, Servers.serverHandleCmdGetRuns Servers.calm⟩)
        (fun i => decide (i = 0)) (Servers.serverCommands Servers.calm) := by
  have hk : FailsAt (fun i => decide (i = 0)) (Servers.serverCommands Servers.calm) 1 :=
    ⟨by decide, rfl, fun i hi => decide_eq_true (Nat.lt_one_iff.1 hi)⟩
  exact ⟨copyCmds_failed (freshTable_length _ 4) hk, not_builds_cleanly hk⟩

end Cimple.CommandTable
