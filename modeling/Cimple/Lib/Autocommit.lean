import Mathlib.Data.List.Basic

/-!
# A connection to a transactional store

Outside `begin` and `commit` every statement commits by itself; between them it works on a copy
that closing the connection throws away.  A statement that fails changes nothing.

* `Stmt`, `Conn` — statements, and a connection: the durable content and the uncommitted one.
* `exec` — statements one after another, up to the first that fails; `stop` is the number of
  statements that can still be executed before the outside world intervenes.
* `applyAll` — content statements in full.

`exec_append` runs a block that completes, `exec_blocked` is the block that does not, and
`exec_cases` says that there is nothing else.
-/

set_option autoImplicit false

namespace Autocommit

variable {S : Type}

/-- A statement. -/
inductive Stmt (S : Type) where
  | begin
  | commit
  | apply (f : S → Option S)

/-- A connection: the committed content, and the working copy of an open transaction. -/
structure Conn (S : Type) where
  committed : S
  working : Option S

/-- A new connection. -/
def connect (s : S) : Conn S := ⟨s, none⟩

/-- The content when the connection is closed: an open transaction is rolled back. -/
def Conn.close (c : Conn S) : S := c.committed

/-- One statement; `none` if it fails. -/
def Stmt.run : Stmt S → Conn S → Option (Conn S)
  | .begin, ⟨s, none⟩ => some ⟨s, some s⟩
  | .begin, ⟨_, some _⟩ => none
  | .commit, ⟨_, some w⟩ => some ⟨w, none⟩
  | .commit, ⟨_, none⟩ => none
  | .apply f, ⟨s, none⟩ => (f s).map fun s' => ⟨s', none⟩
  | .apply f, ⟨s, some w⟩ => (f w).map fun w' => ⟨s, some w'⟩

/-- What an execution leaves. -/
structure Outcome (S : Type) where
  ok : Bool
  conn : Conn S
  stop : Option Nat

/-- Statements in order, up to the first failure. -/
def exec (stop : Option Nat) (conn : Conn S) : List (Stmt S) → Outcome S
  | [] => ⟨true, conn, stop⟩
  | stmt :: stmts =>
    if stop = some 0 then ⟨false, conn, stop⟩
    else
      match stmt.run conn with
      | none => ⟨false, conn, stop⟩
      | some conn => exec (stop.map (· - 1)) conn stmts

/-- Content statements, all of them. -/
def applyAll (fs : List (S → Option S)) (s : S) : Option S := fs.foldlM (fun s f => f s) s

theorem applyAll_append (fs gs : List (S → Option S)) (s : S) :
    applyAll (fs ++ gs) s = (applyAll fs s).bind (applyAll gs) := by
  simp only [applyAll, List.foldlM_append]
  rfl

/-! ## Statements that commit by themselves -/

/-- The statements that can still be executed after `n` more. -/
def after (n : Nat) (stop : Option Nat) : Option Nat := stop.map (· - n)

/-- `n` more statements can be executed. -/
def Allows (stop : Option Nat) (n : Nat) : Prop := ∀ m, stop = some m → n ≤ m

theorem after_after (n m : Nat) (stop : Option Nat) :
    after m (after n stop) = after (n + m) stop := by
  cases stop <;> simp [after, Nat.sub_sub]

theorem Allows.after {stop : Option Nat} {n m : Nat} (h : Allows stop (n + m)) :
    Allows (after n stop) m := by
  intro k hk
  obtain ⟨j, hj, rfl⟩ := Option.map_eq_some_iff.1 hk
  have := h j hj
  omega

theorem Allows.left {stop : Option Nat} {n m : Nat} (h : Allows stop (n + m)) :
    Allows stop n := fun k hk => by
  have := h k hk
  omega

/-- A block that completes, and what follows it. -/
theorem exec_append (done : List (S → Option S)) (rest : List (Stmt S)) :
    ∀ {stop : Option Nat} {s s' : S}, Allows stop done.length → applyAll done s = some s' →
      exec stop (connect s) (done.map .apply ++ rest) =
        exec (after done.length stop) (connect s') rest := by
  induction done with
  | nil =>
    intro stop s s' _ h
    cases h
    cases stop <;> simp [after]
  | cons f done ih =>
    intro stop s s' hstop h
    obtain ⟨s₁, hf, hrest⟩ : ∃ s₁, f s = some s₁ ∧ applyAll done s₁ = some s' := by
      simpa [applyAll, List.foldlM_cons, Option.bind_eq_some_iff] using h
    have hne : stop ≠ some 0 := fun h0 => by simpa using hstop 0 h0
    have hrun : (Stmt.apply f).run (connect s) = some (connect s₁) := by
      simp [Stmt.run, connect, hf]
    have hallows : Allows (stop.map (· - 1)) done.length := by
      rw [List.length_cons, Nat.add_comm] at hstop
      exact hstop.after
    simp only [List.map_cons, List.cons_append, exec, if_neg hne, hrun]
    rw [ih hallows hrest]
    congr 1
    rw [List.length_cons, Nat.add_comm]
    exact after_after 1 done.length stop

/-- Execution cannot go on with these statements. -/
def Blocked (stop : Option Nat) (s : S) (fs : List (S → Option S)) : Prop :=
  ∃ f rest, fs = f :: rest ∧ (stop = some 0 ∨ f s = none)

/-- A block that does not go on at all. -/
theorem exec_blocked {stop : Option Nat} {s : S} {fs : List (S → Option S)}
    (h : Blocked stop s fs) :
    exec stop (connect s) (fs.map .apply) = ⟨false, connect s, stop⟩ := by
  obtain ⟨f, rest, rfl, hstop⟩ := h
  simp only [List.map_cons, exec]
  split
  · rfl
  · rename_i hne
    have hf : f s = none := hstop.resolve_left hne
    simp [Stmt.run, connect, hf]

/-- **A block is completed or stops after a completed part of it.** -/
theorem exec_cases (fs : List (S → Option S)) :
    ∀ (stop : Option Nat) (s : S), ∃ done left s', fs = done ++ left ∧
      Allows stop done.length ∧ applyAll done s = some s' ∧
      (left = [] ∨ Blocked (after done.length stop) s' left) := by
  induction fs with
  | nil => exact fun stop s => ⟨[], [], s, rfl, fun _ _ => Nat.zero_le _, rfl, .inl rfl⟩
  | cons f fs ih =>
    intro stop s
    by_cases hstop : stop = some 0
    · subst hstop
      exact ⟨[], f :: fs, s, rfl, fun _ _ => Nat.zero_le _, rfl, .inr ⟨f, fs, rfl, .inl rfl⟩⟩
    · cases hf : f s with
      | none =>
        exact ⟨[], f :: fs, s, rfl, fun _ _ => Nat.zero_le _, rfl, .inr ⟨f, fs, rfl, .inr hf⟩⟩
      | some s₁ =>
        obtain ⟨done, left, s', rfl, hallows, happly, hleft⟩ := ih (after 1 stop) s₁
        have hlen : (f :: done).length = 1 + done.length := by simp [Nat.add_comm]
        refine ⟨f :: done, left, s', rfl, ?_, ?_, ?_⟩
        · intro n hn
          have hn0 : n ≠ 0 := fun h => hstop (h ▸ hn)
          have := hallows (n - 1) (by simp [after, hn])
          omega
        · simpa [applyAll, List.foldlM_cons, hf] using happly
        · rwa [hlen, ← after_after]

end Autocommit
