import Cimple.Worker

/-!
# What CI runs leave on the disk (`ci.c`, `git.c`, `file.c`)

* `World` — the current directory, and the directories made by `libgit_clone_to_tmp` that exist.
* `CiCall` — the outcome of every step of one call of `ci_run_git_repo`.
* `libgitCloneToTmp`, `ciPrepareGitRepo`, `chdirWrapper`, `ciRunGitRepo` — the functions, with
  their labels; `ciRuns` — one call after another.
* `LeavesNoTrace` — after every call the current directory is what it was, and no directory is
  left.

Principal results: `ciRunGitRepo_world` (what one call leaves), `ciRuns_world` (what any number
of them leaves) and `leaves_no_trace_iff`; `ciRunGitRepo_output` connects a call with the steps
the worker's loop is made of.
-/

set_option autoImplicit false

namespace Cimple.CiRuns

open Cimple.Protocol

variable {P : Type} [DecidableEq P]

/-! ## The source -/

/-- The current directory, and the directories made by `libgit_clone_to_tmp` that exist. -/
structure World (P : Type) where
  cwd : P
  temps : List P
  deriving DecidableEq

/-- A `git_repository` with its `git_repository_workdir`. -/
structure Repository (P : Type) where
  workdir : P

/-- What the outside world does to one call of `ci_run_git_repo`: the new directory `mkdtemp`
makes, if it succeeds; whether each other step succeeds; and for each of the CI scripts whether
it exists and what executing it yields. -/
structure CiCall (P : Type) where
  mkdtemp : Option P
  cloneOptions : Bool
  clone : Bool
  revparse : Bool
  checkoutOptions : Bool
  checkoutTree : Bool
  setHead : Bool
  getcwd : Bool
  chdir : Bool
  scripts : List (Bool × Option ProcessOutput)
  chdirBack : Bool
  rmRf : Bool

/-- `libgit_clone`; `git_clone` does not remove the directory it is given. -/
def libgitClone (call : CiCall P) (dir : P) : Option (Repository P) :=
  if !call.cloneOptions then none
  else if !call.clone then none
  else some ⟨dir⟩

/-- `libgit_clone_to_tmp`. -/
def libgitCloneToTmp (call : CiCall P) (w : World P) : Option (Repository P) × World P :=
  match call.mkdtemp with
  | none => (none, w)
  | some dir => (libgitClone call dir, { w with temps := dir :: w.temps })

/-- `libgit_checkout`. -/
def libgitCheckout (call : CiCall P) : Bool :=
  if !call.revparse then false
  else if !call.checkoutOptions then false
  else if !call.checkoutTree then false
  else call.setHead

/-- `rm_rf`. -/
def rmRf (ok : Bool) (dir : P) (w : World P) : World P :=
  if ok then { w with temps := w.temps.erase dir } else w

/-- `ci_cleanup_git_repo`. -/
def ciCleanupGitRepo (call : CiCall P) (repo : Repository P) (w : World P) : World P :=
  rmRf call.rmRf repo.workdir w

/-- `ci_prepare_git_repo`. -/
def ciPrepareGitRepo (call : CiCall P) (w : World P) : Option (Repository P) × World P :=
  match libgitCloneToTmp call w with
  | (none, w) => (none, w)
  | (some repo, w) =>
    if libgitCheckout call then (some repo, w) else (none, ciCleanupGitRepo call repo w)

/-- `chdir_wrapper`, with the directory it was called in; a caller that does not ask for that one
has no `get_current_dir_name` to fail. -/
def chdirWrapper (getcwd chdir : Bool) (dir : P) (w : World P) : Option P × World P :=
  if !getcwd then (none, w)
  else if !chdir then (none, w)
  else (some w.cwd, { w with cwd := dir })

/-- `ci_run_git_repo`; without an output the value is negative. -/
def ciRunGitRepo (call : CiCall P) (w : World P) : Option ProcessOutput × World P :=
  match ciPrepareGitRepo call w with
  | (none, w) => (none, w)
  | (some repo, w) =>
    match chdirWrapper call.getcwd call.chdir repo.workdir w with
    | (none, w) => (none, ciCleanupGitRepo call repo w)
    | (some oldpwd, w) =>
      let output := Workers.ciRun call.scripts
      let w := (chdirWrapper true call.chdirBack oldpwd w).2
      (output, ciCleanupGitRepo call repo w)

/-- One call after another. -/
def ciRuns (calls : List (CiCall P)) (w : World P) : World P :=
  calls.foldl (fun w call => (ciRunGitRepo call w).2) w

/-! ## The contract -/

/-- What is assumed of a call: removing the clone and going back succeed. -/
def CiCall.Assumed (call : CiCall P) : Prop := call.rmRf = true ∧ call.chdirBack = true

/-- The directory a call makes and cannot clone into. -/
def CiCall.leaked (call : CiCall P) : Option P :=
  if call.cloneOptions && call.clone then none else call.mkdtemp

/-- **No trace**: after every call the current directory is the one before the call, and no
directory made by a call so far exists. -/
def LeavesNoTrace (cwd : P) (calls : List (CiCall P)) : Prop :=
  ∀ before call after, calls = before ++ call :: after →
    let w := ciRuns before ⟨cwd, []⟩
    (ciRunGitRepo call w).2.cwd = w.cwd ∧ (ciRunGitRepo call w).2.temps = []

/-! ## One call -/

theorem ciCleanupGitRepo_new {call : CiCall P} (h : call.rmRf = true) (dir cwd : P)
    (temps : List P) : ciCleanupGitRepo call ⟨dir⟩ ⟨cwd, dir :: temps⟩ = ⟨cwd, temps⟩ := by
  simp [ciCleanupGitRepo, rmRf, h]

/-- **Preparing a repository**: a clone that cannot be made leaves its directory, one that cannot
be checked out does not. -/
theorem ciPrepareGitRepo_cases {call : CiCall P} (h : call.rmRf = true) (w : World P) :
    (ciPrepareGitRepo call w =
        (none, { w with temps := call.leaked.toList ++ w.temps }) ∧
      (call.mkdtemp.isSome && call.cloneOptions && call.clone && libgitCheckout call) = false) ∨
      ∃ dir, call.mkdtemp = some dir ∧ call.leaked = none ∧
        (call.cloneOptions && call.clone && libgitCheckout call) = true ∧
        ciPrepareGitRepo call w = (some ⟨dir⟩, { w with temps := dir :: w.temps }) := by
  unfold ciPrepareGitRepo libgitCloneToTmp libgitClone CiCall.leaked
  cases hmkdtemp : call.mkdtemp with
  | none => simp
  | some dir =>
    cases call.cloneOptions with
    | false => simp
    | true =>
      cases call.clone with
      | false => simp
      | true =>
        cases libgitCheckout call with
        | false => exact .inl ⟨by simp [ciCleanupGitRepo_new h], by simp⟩
        | true => exact .inr ⟨dir, rfl, by simp, rfl, rfl⟩

/-- **What one call leaves**: the current directory as it was, and the directory of a clone that
could not be made. -/
theorem ciRunGitRepo_world {call : CiCall P} (h : call.Assumed) (w : World P) :
    (ciRunGitRepo call w).2 = { w with temps := call.leaked.toList ++ w.temps } := by
  obtain ⟨hrm, hback⟩ := h
  unfold ciRunGitRepo
  rcases ciPrepareGitRepo_cases hrm w with ⟨hprepare, -⟩ | ⟨dir, -, hleaked, -, hprepare⟩
  · rw [hprepare]
  · rw [hprepare, hleaked]
    simp only [chdirWrapper]
    cases call.getcwd with
    | false => exact ciCleanupGitRepo_new hrm dir w.cwd w.temps
    | true =>
      cases call.chdir with
      | false => exact ciCleanupGitRepo_new hrm dir w.cwd w.temps
      | true =>
        -- the script has run in the clone, and the worker has gone back
        simp only [hback, Bool.not_true, Bool.false_eq_true, if_false]
        exact ciCleanupGitRepo_new hrm dir w.cwd w.temps

/-- The steps of a call, as the worker's loop sees them. -/
def CiCall.steps (call : CiCall P) : Workers.CiSteps where
  clone := call.mkdtemp.isSome && call.cloneOptions && call.clone
  checkout := libgitCheckout call
  chdir := call.getcwd && call.chdir
  scripts := call.scripts

/-- **The value of a call** is the one the worker's loop goes on with. -/
theorem ciRunGitRepo_output {call : CiCall P} (h : call.rmRf = true) (w : World P) :
    (ciRunGitRepo call w).1 = Workers.ciRunGitRepo call.steps := by
  unfold ciRunGitRepo Workers.ciRunGitRepo CiCall.steps
  rcases ciPrepareGitRepo_cases h w with ⟨hprepare, hfails⟩ | ⟨dir, hdir, -, hworks, hprepare⟩
  · simp only [hprepare, hfails, Bool.false_eq_true, if_false]
  · simp only [hprepare, hdir, Option.isSome_some, Bool.true_and, hworks, if_true, chdirWrapper]
    cases call.getcwd with
    | false => rfl
    | true => cases call.chdir <;> rfl

/-! ## Any number of calls -/

/-- **What calls leave**: the current directory as it was, and the directory of every clone that
could not be made. -/
theorem ciRuns_world (calls : List (CiCall P)) :
    ∀ (w : World P), (∀ call ∈ calls, call.Assumed) →
      ciRuns calls w = { w with temps := (calls.filterMap CiCall.leaked).reverse ++ w.temps } := by
  induction calls with
  | nil =>
    intro w _
    rfl
  | cons call calls ih =>
    intro w h
    obtain ⟨hcall, hcalls⟩ := List.forall_mem_cons.1 h
    have hrest : ciRuns (call :: calls) w = ciRuns calls (ciRunGitRepo call w).2 := rfl
    rw [hrest, ciRunGitRepo_world hcall, ih _ hcalls]
    cases hleaked : call.leaked with
    | none => simp [hleaked]
    | some dir => simp [hleaked]

/-- **CI runs leave no trace exactly if every directory that is made is cloned into**: nobody
removes the directory of a clone that fails. -/
theorem leaves_no_trace_iff (cwd : P) (calls : List (CiCall P))
    (h : ∀ call ∈ calls, call.Assumed) :
    LeavesNoTrace cwd calls ↔ ∀ call ∈ calls, call.leaked = none := by
  constructor
  · intro htrace call hcall
    obtain ⟨before, after, rfl⟩ := List.append_of_mem hcall
    have htemps := (htrace before call after rfl).2
    rw [ciRunGitRepo_world (h call hcall)] at htemps
    simpa using (List.append_eq_nil_iff.1 htemps).1
  · rintro hleaked before call after rfl
    have hnone : ∀ call' ∈ before, call'.leaked = none := fun call' hmem =>
      hleaked call' (List.mem_append_left _ hmem)
    have hbefore : ciRuns before ⟨cwd, []⟩ = ⟨cwd, []⟩ := by
      rw [ciRuns_world before _ fun call' hmem => h call' (List.mem_append_left _ hmem),
        List.filterMap_eq_nil_iff.2 hnone]
      rfl
    have hcall : call ∈ before ++ call :: after := by simp
    have hworld := ciRunGitRepo_world (h call hcall) ⟨cwd, []⟩
    rw [hleaked call hcall] at hworld
    simp only [hbefore]
    rw [hworld]
    exact ⟨rfl, rfl⟩

/-- A call that does everything and whose script is `scripts`. -/
def wholeCall (scripts : List (Bool × Option ProcessOutput)) : CiCall String where
  mkdtemp := some "/tmp/git.Xr2b0C"
  cloneOptions := true
  clone := true
  revparse := true
  checkoutOptions := true
  checkoutTree := true
  setHead := true
  getcwd := true
  chdir := true
  scripts := scripts
  chdirBack := true
  rmRf := true

/-- A repository without a script, and then a revision that does not exist. -/
theorem leaves_no_trace_twice :
    LeavesNoTrace "/" [wholeCall [], { wholeCall [] with revparse := false }] :=
  (leaves_no_trace_iff "/" _ (by simp [CiCall.Assumed, wholeCall])).2
    (by simp [CiCall.leaked, wholeCall])

/-- A repository that cannot be cloned. -/
def unreachable : CiCall String := { wholeCall [] with clone := false }

/-- Its directory is still there after the call, and nothing has gone wrong with removing. -/
theorem unreachable_leaves_trace :
    unreachable.Assumed ∧ (ciRunGitRepo unreachable ⟨"/", []⟩).2.temps = ["/tmp/git.Xr2b0C"] ∧
      ¬ LeavesNoTrace "/" [unreachable] := by
  refine ⟨⟨rfl, rfl⟩, rfl, ?_⟩
  intro htrace
  have htemps := (htrace [] unreachable [] rfl).2
  cases htemps

end Cimple.CiRuns
