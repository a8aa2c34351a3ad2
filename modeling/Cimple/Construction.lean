import Cimple.CommandTable
import Cimple.Lib.Unwinding
import Cimple.Sockets
import Cimple.Startup

/-!
# What the server and the worker are made of

`server_create` and `worker_create` go through a ladder of labels, and both make a dispatcher.

* `faultOf`, `faultUnless` — how the calls of a constructor fail.
* `single`, `copyStep` — the step for a part that is one resource, and that for a dispatcher.

Principal results: `cmdDispatcherCreate_cases` and `copyStep_spec`.
-/

set_option autoImplicit false

namespace Cimple.Construction

open Ledger Unwinding
open Cimple.CommandTable (Block cmdDispatcherCreate cmdDispatcherDestroy)
open Cimple.Startup (Fault)
open Cimple.Sockets (failure)

/-- How a call that returns `ret` fails, if it does. -/
def faultOf (ret : Int32) : Fault := if h : ret < 0 then some ⟨ret, h⟩ else none

/-- How a call that returns `-1` or succeeds fails, if it does. -/
def faultUnless (ok : Bool) : Fault := if ok then none else some failure

/-- A part that is one resource. -/
def single {ι ρ : Type} (part : ι) (fault : Fault) (r : ρ) : Step { e : Int32 // e < 0 } ι ρ :=
  ⟨part, fault, if fault.isNone then [.acquire r] else [], [.release r]⟩

@[simp] theorem faultOf_of_neg {ret : Int32} (h : ret < 0) : faultOf ret = some ⟨ret, h⟩ :=
  dif_pos h

@[simp] theorem faultOf_of_nonneg {ret : Int32} (h : ¬ ret < 0) : faultOf ret = none := dif_neg h

theorem faultOf_eq_none {ret : Int32} : faultOf ret = none ↔ ¬ ret < 0 := by
  by_cases h : ret < 0 <;> simp [h]

theorem faultUnless_eq_none {ok : Bool} : faultUnless ok = none ↔ ok = true := by
  cases ok <;> simp [faultUnless]

theorem minus_one_neg : (-1 : Int32) < 0 := by decide

theorem zero_not_neg : ¬ (0 : Int32) < 0 := by decide

section Steps

variable {ι ρ β : Type} {done todo : List (Step { e : Int32 // e < 0 } ι ρ)}
  {events label made : List (Event ρ)} {makes : β → Prop} {created : Created Int32 ρ β}
  {s : Step { e : Int32 // e < 0 } ι ρ} {ret : Int32}

theorem stop_nothing (hret : ret < 0) (hs : s.fault = some ⟨ret, hret⟩) (hmade : s.made = [])
    (hlabel : done.flatMap Step.unmade = label) :
    Climbs Fault.ret done (s :: todo) events makes ⟨ret, events ++ label, none⟩ := by
  have hstop : Climbs Fault.ret done (s :: todo) events makes
      ⟨ret, events ++ s.made ++ label, none⟩ := Climbs.stop hs hlabel
  rwa [hmade, List.append_nil] at hstop

theorem stop_ret (hret : ret < 0) (hfault : s.fault = faultOf ret) (hmade : s.made = made)
    (hlabel : done.flatMap Step.unmade = label) :
    Climbs Fault.ret done (s :: todo) events makes ⟨ret, events ++ made ++ label, none⟩ := by
  rw [faultOf_of_neg hret] at hfault
  exact hmade ▸ Climbs.stop hfault hlabel

theorem next_ret (hret : ¬ ret < 0) (hfault : s.fault = faultOf ret) (hmade : s.made = made)
    (h : Climbs Fault.ret (s :: done) todo (events ++ made) makes created) :
    Climbs Fault.ret done (s :: todo) events makes created := by
  rw [faultOf_of_nonneg hret] at hfault
  exact Climbs.next hfault (hmade ▸ h)

end Steps

/-! ## A part that is one resource -/

section Single

variable {ι ρ : Type} [DecidableEq ρ] {partOf : ρ → ι} {part : ι} {r : ρ}

theorem single_sound (hr : partOf r = part) (fault : Fault) :
    (single part fault r).Sound partOf where
  made e he := by
    unfold single at he
    split at he
    · rw [List.mem_singleton.1 he]
      exact hr
    · cases he
  unmade e he := by
    rw [List.mem_singleton.1 he]
    exact hr
  undone h r' := by
    obtain rfl : fault = none := h
    by_cases hr' : r = r'
    · subst hr'
      apply settled_of_history
      simp [single, history_cons, Event.resource]
    · refine .inl ?_
      simp [single, history_cons, Event.resource, hr']

/-- A step that fails leaves nothing. -/
def LeavesNothing (s : Step { e : Int32 // e < 0 } ι ρ) : Prop :=
  s.fault ≠ none → ∀ r, Settled r s.made

theorem single_leaves (part : ι) (fault : Fault) (r : ρ) :
    LeavesNothing (single part fault r) := by
  intro h r'
  cases fault with
  | none => exact absurd rfl h
  | some e => exact .inl rfl

end Single

/-! ## The dispatcher -/

section Dispatcher

variable {σ : Type}

/-- A table can be copied. -/
def Copies (env : CommandTable.CreateEnv σ) (cmds : List (Command.CmdDesc σ)) : Prop :=
  env.dispatcherOk = true ∧ env.cmdsOk = true ∧ ∀ i < cmds.length, env.dups i = true

/-- A table cannot be copied, after a name has been: that name is lost. -/
def LosesNames (env : CommandTable.CreateEnv σ) (cmds : List (Command.CmdDesc σ)) : Prop :=
  env.dispatcherOk = true ∧ env.cmdsOk = true ∧ env.dups 0 = true ∧
    ∃ i < cmds.length, env.dups i = false

/-- The ledger of a table of `n` commands that is copied. -/
def copied (n : Nat) : List (Event Block) :=
  [.acquire .dispatcher, .acquire .cmds] ++ CommandTable.acquired 0 n

/-- **Every `cmd_dispatcher_create`** copies the table, or fails and leaves nothing but names. -/
theorem cmdDispatcherCreate_cases (env : CommandTable.CreateEnv σ)
    (cmds : List (Command.CmdDesc σ)) :
    (Copies env cmds ∧ ∃ dispatcher, CommandTable.CopyOf cmds dispatcher ∧
        cmdDispatcherCreate env cmds = some ⟨0, some dispatcher, copied cmds.length⟩) ∨
      (¬ Copies env cmds ∧ ∃ events, cmdDispatcherCreate env cmds = some ⟨-1, none, events⟩ ∧
        ((∀ b, Settled b events) ↔ ¬ LosesNames env cmds)) := by
  rcases env with ⟨dispatcherOk, cmdsOk, dups, junk⟩
  cases dispatcherOk with
  | false =>
    refine .inr ⟨fun h => Bool.false_ne_true h.1, [], rfl, ?_⟩
    exact iff_of_true (fun b => .inl rfl) fun h => Bool.false_ne_true h.1
  | true =>
    cases cmdsOk with
    | false =>
      refine .inr ⟨fun h => Bool.false_ne_true h.2.1, _, rfl, ?_⟩
      refine iff_of_true (fun b => ?_) fun h => Bool.false_ne_true h.2.1
      by_cases hb : b = .dispatcher
      · subst hb
        exact settled_of_history rfl
      · refine .inl ?_
        simp [history_cons, Event.resource, Ne.symm hb]
    | true =>
      by_cases hall : ∀ i < cmds.length, dups i = true
      · exact .inl ⟨⟨rfl, rfl, hall⟩, CommandTable.cmdDispatcherCreate_whole hall⟩
      · refine .inr ⟨fun h => hall h.2.2, ?_⟩
        obtain ⟨k, hk⟩ := CommandTable.exists_failsAt hall
        obtain ⟨created, hcreated, hnames, hothers⟩ :=
          @CommandTable.cmdDispatcherCreate_leaks _ dups junk cmds k hk
        have hfailed := @CommandTable.cmdDispatcherCreate_failed _ dups junk cmds k hk
        cases hfailed.symm.trans hcreated
        refine ⟨_, hfailed, ?_⟩
        cases k with
        | zero =>
          refine iff_of_true (fun b => hothers b fun i hi => absurd hi (Nat.not_lt_zero i)) ?_
          rintro ⟨-, -, hfirst, -⟩
          exact Bool.false_ne_true (hk.2.1.symm.trans hfirst)
        | succ k =>
          refine iff_of_false (fun h => ?_) ?_
          · exact (hnames 0 (Nat.succ_pos k)).not_settled (h (.name 0))
          · exact not_not.2 ⟨rfl, rfl, hk.2.2 0 (Nat.succ_pos k), k + 1, hk.1, hk.2.1⟩

theorem LosesNames.not_copies {σ : Type} {env : CommandTable.CreateEnv σ}
    {cmds : List (Command.CmdDesc σ)} (h : LosesNames env cmds) : ¬ Copies env cmds := by
  obtain ⟨-, -, -, i, hi, hfails⟩ := h
  intro hcopies
  exact Bool.false_ne_true (hfails.symm.trans (hcopies.2.2 i hi))

end Dispatcher

section CopyStep

variable {σ ι ρ : Type}

/-- A dispatcher, whose blocks are `f` of those of its ledger. -/
def copyStep (part : ι) (f : Block → ρ) (env : CommandTable.CreateEnv σ)
    (cmds : List (Command.CmdDesc σ)) : Step { e : Int32 // e < 0 } ι ρ :=
  match cmdDispatcherCreate env cmds with
  | none => ⟨part, none, [], []⟩
  | some created =>
    ⟨part, faultOf created.ret, created.events.map (Event.map f),
      (created.dispatcher.toList.flatMap cmdDispatcherDestroy).map (Event.map f)⟩

variable {part : ι} {f : Block → ρ}

theorem copyStep_copied {env : CommandTable.CreateEnv σ} {cmds : List (Command.CmdDesc σ)}
    {dispatcher : CommandTable.CmdDispatcher σ} {events : List (Event Block)}
    (hcreated : cmdDispatcherCreate env cmds = some ⟨0, some dispatcher, events⟩) :
    copyStep part f env cmds = ⟨part, none, events.map (Event.map f),
      (cmdDispatcherDestroy dispatcher).map (Event.map f)⟩ := by
  simp only [copyStep, hcreated, Option.toList_some, List.flatMap_cons, List.flatMap_nil,
    List.append_nil, faultOf_of_nonneg zero_not_neg]

theorem copyStep_failed {env : CommandTable.CreateEnv σ} {cmds : List (Command.CmdDesc σ)}
    {events : List (Event Block)}
    (hcreated : cmdDispatcherCreate env cmds = some ⟨-1, none, events⟩) :
    copyStep part f env cmds =
      ⟨part, some ⟨-1, minus_one_neg⟩, events.map (Event.map f), []⟩ := by
  simp only [copyStep, hcreated, faultOf_of_neg minus_one_neg]
  rfl

variable [DecidableEq ρ] {partOf : ρ → ι}

theorem settled_map_all {β : Type} [DecidableEq β] {f : β → ρ} (hf : Function.Injective f)
    {events : List (Event β)} :
    (∀ r, Settled r (events.map (Event.map f))) ↔ ∀ b, Settled b events := by
  constructor
  · exact fun h b => (settled_map hf b events).1 (h (f b))
  · intro h r
    by_cases hr : ∃ b, f b = r
    · obtain ⟨b, rfl⟩ := hr
      exact (settled_map hf b events).2 (h b)
    · exact .inl (history_map_other (fun b hb => hr ⟨b, hb⟩) events)

omit [DecidableEq ρ] in
theorem part_of_map {β : Type} {f : β → ρ} (hpart : ∀ b, partOf (f b) = part)
    {events : List (Event β)} : ∀ e ∈ events.map (Event.map f), partOf e.resource = part := by
  intro e he
  obtain ⟨e, -, rfl⟩ := List.mem_map.1 he
  rw [Event.map_resource]
  exact hpart _

/-- **A dispatcher**: it fails exactly if the table cannot be copied, and leaves something exactly
if a name is lost. -/
theorem copyStep_spec (hf : Function.Injective f) (hpart : ∀ b, partOf (f b) = part)
    (env : CommandTable.CreateEnv σ) (cmds : List (Command.CmdDesc σ)) :
    (copyStep part f env cmds).Sound partOf ∧ (copyStep part f env cmds).part = part ∧
      ((copyStep part f env cmds).fault = none ↔ Copies env cmds) ∧
      ((copyStep part f env cmds).fault ≠ none →
        ((∀ r, Settled r (copyStep part f env cmds).made) ↔ ¬ LosesNames env cmds)) := by
  rcases cmdDispatcherCreate_cases env cmds with
    ⟨hcopies, dispatcher, hcopy, hcreated⟩ | ⟨hnot, events, hcreated, hclean⟩
  · rw [copyStep_copied hcreated]
    refine ⟨⟨part_of_map hpart, part_of_map hpart, fun _ => ?_⟩, rfl, iff_of_true rfl hcopies,
      fun h => absurd rfl h⟩
    show ∀ r, Settled r (_ ++ _)
    rw [← List.map_append, settled_map_all hf, CommandTable.cmdDispatcherDestroy_eq hcopy]
    intro b
    have hnone : CommandTable.Compares cmds.length [] := fun e he => by cases he
    have hlife := CommandTable.lifetime_settled hnone b
    rwa [List.append_nil] at hlife
  · rw [copyStep_failed hcreated]
    refine ⟨⟨part_of_map hpart, fun e he => (by cases he), fun h => (by cases h)⟩, rfl,
      iff_of_false (fun h => by cases h) hnot, fun _ => ?_⟩
    rw [settled_map_all hf, hclean]

end CopyStep

end Cimple.Construction
