import Mathlib.Algebra.Ring.Nat
import Cimple.Lib.Autocommit

/-!
# Schema upgrades (`sqlite_exec_as_transaction`, `storage_sqlite_upgrade`)

A schema script is a list of statements on the content of the database; the version pragma is
one more statement.  `sqlite_exec_as_transaction` wraps its text in `BEGIN; ... COMMIT;` and then
executes the text it was given, so every statement of a script commits by itself.

* `storageSqliteUpgrade` — the upgrade loop; `stop` is the number of statements after which
  the process stops or a statement fails for a reason outside the script.
* `AllOrNothing` — the contract: a whole number of scripts is applied, and another upgrade ends
  where an uninterrupted one does.
* `StopsAt` — where an upgrade stops: whole scripts, and part of the next one.

Principal results: `upgrade_all_or_nothing_iff` and `upgrade_half_applied`.
-/

set_option autoImplicit false

namespace Cimple.Upgrade

open Autocommit

variable {C : Type}

/-- The file: its tables, and `user_version`. -/
structure Database (C : Type) where
  content : C
  userVersion : Nat

/-- A schema script. -/
abbrev Script (C : Type) := List (C → Option C)

/-! ## The source -/

/-- A statement of a script. -/
def onContent (f : C → Option C) (d : Database C) : Option (Database C) :=
  (f d.content).map fun content => { d with content }

/-- `PRAGMA user_version = version`. -/
def setUserVersion (version : Nat) (d : Database C) : Option (Database C) :=
  some { d with userVersion := version }

/-- `sqlite_exec`. -/
def sqliteExec (stop : Option Nat) (conn : Conn (Database C)) (stmt : List (Stmt (Database C))) :
    Outcome (Database C) :=
  exec stop conn stmt

/-- `sqlite_exec_as_transaction`: `full_stmt` is made, `stmt` is executed. -/
def sqliteExecAsTransaction (stop : Option Nat) (conn : Conn (Database C))
    (stmt : List (Stmt (Database C))) : Outcome (Database C) :=
  let _fullStmt := .begin :: stmt ++ [.commit]
  sqliteExec stop conn stmt

/-- The statements of `full_script`. -/
def fullScript (script : Script C) (version : Nat) : List (Database C → Option (Database C)) :=
  script.map onContent ++ [setUserVersion (version + 1)]

/-- `storage_sqlite_upgrade_to`; it is called for versions that have a script. -/
def storageSqliteUpgradeTo (schemas : List (Script C)) (stop : Option Nat)
    (conn : Conn (Database C)) (version : Nat) : Outcome (Database C) :=
  match schemas[version]? with
  | none => ⟨false, conn, stop⟩
  | some script => sqliteExecAsTransaction stop conn ((fullScript script version).map .apply)

/-- The loop of `storage_sqlite_upgrade_from_to`, `count` versions from `version` on. -/
def storageSqliteUpgradeFromTo (schemas : List (Script C)) :
    (count version : Nat) → Option Nat → Conn (Database C) → Outcome (Database C)
  | 0, _, stop, conn => ⟨true, conn, stop⟩
  | count + 1, version, stop, conn =>
    let r := storageSqliteUpgradeTo schemas stop conn version
    if r.ok then storageSqliteUpgradeFromTo schemas count (version + 1) r.stop r.conn else r

/-- `storage_sqlite_upgrade`: reading the version is one more statement. -/
def storageSqliteUpgrade (schemas : List (Script C)) (stop : Option Nat)
    (conn : Conn (Database C)) : Outcome (Database C) :=
  let r := sqliteExec stop conn [.apply some]
  if r.ok then
    let current := r.conn.committed.userVersion
    let newest := schemas.length
    if newest < current then ⟨false, r.conn, r.stop⟩
    else if current = newest then r
    else storageSqliteUpgradeFromTo schemas (newest - current) current r.stop r.conn
  else r

/-- The database after an upgrade on a new connection that is closed afterwards. -/
def upgraded (schemas : List (Script C)) (stop : Option Nat) (start : Database C) : Database C :=
  (storageSqliteUpgrade schemas stop (connect start)).conn.close

/-! ## The contract -/

/-- **All or nothing**: the database is at a version at which exactly the scripts before it
have been applied, and an upgrade without a failure then ends where one on the original
database does. -/
structure AllOrNothing (schemas : List (Script C)) (stop : Option Nat) (start : Database C) :
    Prop where
  whole : ∃ k, start.userVersion ≤ k ∧ k ≤ schemas.length ∧
    (upgraded schemas stop start).userVersion = k ∧
    applyAll ((schemas.drop start.userVersion).take (k - start.userVersion)).flatten
      start.content = some (upgraded schemas stop start).content
  again : upgraded schemas none (upgraded schemas stop start) = upgraded schemas none start

/-- The number of statements executed for whole scripts. -/
def cost (scripts : List (Script C)) : Nat := (scripts.map fun script => script.length + 1).sum

/-- **Where an upgrade stops**: after the scripts `done`, which lead to the content `c`, and the
first statements `before` of the next script, which lead from there to `c'`: the outside world
intervenes, or the next statement of that script fails. -/
structure StopsAt (schemas : List (Script C)) (stop : Option Nat) (start : Database C)
    (done : List (Script C)) (before rest : Script C) (c c' : C) : Prop where
  scripts : ∃ later, schemas.drop start.userVersion = done ++ (before ++ rest) :: later
  whole : applyAll done.flatten start.content = some c
  part : applyAll before c = some c'
  allows : Allows stop (1 + cost done + before.length)
  stops : stop = some (1 + cost done + before.length) ∨ ∃ f fs, rest = f :: fs ∧ f c' = none

/-! ## One script -/

theorem applyAll_onContent (script : Script C) (version : Nat) :
    ∀ {c c' : C}, applyAll script c = some c' →
      applyAll (script.map onContent) ⟨c, version⟩ = some ⟨c', version⟩ := by
  induction script with
  | nil => intro c c' h; cases h; rfl
  | cons f script ih =>
    intro c c' h
    obtain ⟨c₁, hf, hrest⟩ : ∃ c₁, f c = some c₁ ∧ applyAll script c₁ = some c' := by
      simpa [applyAll, List.foldlM_cons, Option.bind_eq_some_iff] using h
    have := ih hrest
    simp only [applyAll] at this ⊢
    simp [List.foldlM_cons, onContent, hf, this]

theorem storageSqliteUpgradeTo_whole {schemas : List (Script C)} {version : Nat}
    {script : Script C} (hscript : schemas[version]? = some script) {stop : Option Nat}
    (hstop : Allows stop (script.length + 1)) {c c' : C} (happly : applyAll script c = some c') :
    storageSqliteUpgradeTo schemas stop (connect ⟨c, version⟩) version =
      ⟨true, connect ⟨c', version + 1⟩, after (script.length + 1) stop⟩ := by
  have hfull : applyAll (fullScript script version) ⟨c, version⟩ = some ⟨c', version + 1⟩ := by
    rw [fullScript, applyAll_append, applyAll_onContent script version happly]
    rfl
  have hlen : (fullScript script version).length = script.length + 1 := by simp [fullScript]
  have hexec := exec_append (fullScript script version) [] (by rwa [hlen]) hfull
  rw [List.append_nil, hlen] at hexec
  simp only [storageSqliteUpgradeTo, hscript, sqliteExecAsTransaction, sqliteExec, hexec]
  rfl

theorem storageSqliteUpgradeTo_part {schemas : List (Script C)} {version : Nat}
    {before rest : Script C} (hscript : schemas[version]? = some (before ++ rest))
    {stop : Option Nat} (hallows : Allows stop before.length) {c c' : C}
    (happly : applyAll before c = some c')
    (hstop : stop = some before.length ∨ ∃ f fs, rest = f :: fs ∧ f c' = none) :
    storageSqliteUpgradeTo schemas stop (connect ⟨c, version⟩) version =
      ⟨false, connect ⟨c', version⟩, after before.length stop⟩ := by
  have hblocked : Blocked (after before.length stop) (⟨c', version⟩ : Database C)
      (rest.map onContent ++ [setUserVersion (version + 1)]) := by
    rcases hstop with rfl | ⟨f, fs, rfl, hf⟩
    · cases rest with
      | nil => exact ⟨_, [], rfl, .inl (by simp [after])⟩
      | cons f fs => exact ⟨_, _, rfl, .inl (by simp [after])⟩
    · exact ⟨_, _, rfl, .inr (by simp [onContent, hf])⟩
  have hexec := exec_append (before.map onContent)
    ((rest.map onContent ++ [setUserVersion (version + 1)]).map .apply)
    (by rwa [List.length_map]) (applyAll_onContent before version happly)
  rw [exec_blocked (by rwa [List.length_map]), ← List.map_append, ← List.append_assoc,
    ← List.map_append, List.length_map] at hexec
  simp only [storageSqliteUpgradeTo, hscript, sqliteExecAsTransaction, sqliteExec, fullScript]
  exact hexec

/-! ## The loop -/

/-- Scripts that complete. -/
theorem storageSqliteUpgradeFromTo_done (schemas : List (Script C)) (done : List (Script C)) :
    ∀ {version count : Nat} {later : List (Script C)} {stop : Option Nat} {c c' : C},
      schemas.drop version = done ++ later → Allows stop (cost done) →
      applyAll done.flatten c = some c' →
      storageSqliteUpgradeFromTo schemas (done.length + count) version stop
          (connect ⟨c, version⟩) =
        storageSqliteUpgradeFromTo schemas count (version + done.length) (after (cost done) stop)
          (connect ⟨c', version + done.length⟩) := by
  induction done with
  | nil =>
    intro version count later stop c c' _ _ happly
    cases happly
    cases stop <;> simp [cost, after]
  | cons script done ih =>
    intro version count later stop c c' hdrop hallows happly
    have hscript : schemas[version]? = some script := by
      rw [← List.head?_drop, hdrop]
      rfl
    have hdrop' : schemas.drop (version + 1) = done ++ later := by
      rw [← List.tail_drop, hdrop]
      rfl
    have hcost : cost (script :: done) = (script.length + 1) + cost done := by simp [cost]
    rw [hcost] at hallows
    rw [List.flatten_cons, applyAll_append, Option.bind_eq_some_iff] at happly
    obtain ⟨c₁, hfirst, hrest⟩ := happly
    have hone := storageSqliteUpgradeTo_whole hscript hallows.left hfirst
    have hlen : (script :: done).length + count = (done.length + count) + 1 := by
      simp only [List.length_cons]
      omega
    have hversion : version + (script :: done).length = version + 1 + done.length := by
      simp only [List.length_cons]
      omega
    rw [hlen, hversion, hcost, ← after_after, ← ih hdrop' hallows.after hrest]
    simp only [storageSqliteUpgradeFromTo, hone, if_true]

/-- **The loop completes, or stops after whole scripts and a part of the next one.** -/
theorem scripts_cases (scripts : List (Script C)) :
    ∀ (stop : Option Nat) (c : C),
      (Allows stop (cost scripts) ∧ ∃ c', applyAll scripts.flatten c = some c') ∨
      ∃ done before rest later c₁ c', scripts = done ++ (before ++ rest) :: later ∧
        applyAll done.flatten c = some c₁ ∧ applyAll before c₁ = some c' ∧
        Allows stop (cost done + before.length) ∧
        (stop = some (cost done + before.length) ∨ ∃ f fs, rest = f :: fs ∧ f c' = none) := by
  induction scripts with
  | nil => exact fun stop c => .inl ⟨fun _ _ => Nat.zero_le _, c, rfl⟩
  | cons script scripts ih =>
    intro stop c
    obtain ⟨before, rest, c', rfl, hallows, happly, hleft⟩ := exec_cases script stop c
    have hpart : ∀ hstop : stop = some before.length ∨ ∃ f fs, rest = f :: fs ∧ f c' = none,
        ∃ done before' rest' later c₁ c'', (before ++ rest) :: scripts =
          done ++ (before' ++ rest') :: later ∧
          applyAll done.flatten c = some c₁ ∧ applyAll before' c₁ = some c'' ∧
          Allows stop (cost done + before'.length) ∧
          (stop = some (cost done + before'.length) ∨ ∃ f fs, rest' = f :: fs ∧ f c'' = none) :=
      fun hstop => ⟨[], before, rest, scripts, c, c', rfl, rfl, happly,
        by simpa [cost] using hallows, by simpa [cost] using hstop⟩
    rcases hleft with rfl | ⟨f, fs, rfl, hblocked⟩
    · by_cases hpragma : stop = some before.length
      · exact .inr (hpart (.inl hpragma))
      · -- the script and its version pragma complete
        have hone : Allows stop (before.length + 1) := by
          intro n hn
          have h₁ := hallows n hn
          have h₂ : n ≠ before.length := fun h => hpragma (h ▸ hn)
          omega
        rcases ih (after (before.length + 1) stop) c' with ⟨hall, c'', hrest⟩ |
          ⟨done, before', rest', later, c₁, c'', rfl, h₁, h₂, h₃, h₄⟩
        · refine .inl ⟨?_, c'', ?_⟩
          · intro n hn
            have h₁ := hone n hn
            have h₂ := hall (n - (before.length + 1)) (by simp [after, hn])
            simp only [cost, List.map_cons, List.sum_cons, List.length_append, List.length_nil]
              at h₂ ⊢
            omega
          · rw [List.flatten_cons, List.append_nil, applyAll_append, happly]
            exact hrest
        · refine .inr ⟨(before ++ []) :: done, before', rest', later, c₁, c'', rfl, ?_, h₂, ?_, ?_⟩
          · rw [List.flatten_cons, List.append_nil, applyAll_append, happly]
            exact h₁
          · intro n hn
            have h₅ := hone n hn
            have h₆ := h₃ (n - (before.length + 1)) (by simp [after, hn])
            simp only [cost, List.map_cons, List.sum_cons, List.append_nil] at h₆ ⊢
            omega
          · refine h₄.imp_left fun h => ?_
            obtain ⟨n, hn, hsub⟩ := Option.map_eq_some_iff.1 h
            have h₅ := hone n hn
            rw [hn]
            simp only [cost, List.map_cons, List.sum_cons, List.append_nil] at hsub ⊢
            congr 1
            omega
    · refine .inr (hpart ?_)
      rcases hblocked with h | h
      · obtain ⟨n, hn, hsub⟩ := Option.map_eq_some_iff.1 h
        have := hallows n hn
        exact .inl (by rw [hn]; congr 1; omega)
      · exact .inr ⟨f, fs, rfl, h⟩

/-! ## The upgrade -/

theorem upgraded_loop {schemas : List (Script C)} {stop : Option Nat} {start : Database C}
    (hversion : start.userVersion ≤ schemas.length) (hstop : Allows stop 1) :
    upgraded schemas stop start =
      (storageSqliteUpgradeFromTo schemas (schemas.length - start.userVersion) start.userVersion
        (after 1 stop) (connect start)).conn.close := by
  have hread : sqliteExec stop (connect start) [.apply some] =
      ⟨true, connect start, after 1 stop⟩ := exec_append [some] [] hstop rfl
  unfold upgraded storageSqliteUpgrade
  simp only [hread, if_true]
  split
  · rename_i hlt
    exact absurd hlt (Nat.not_lt.2 hversion)
  · split
    · rename_i heq
      have hzero : schemas.length - start.userVersion = 0 :=
        Nat.sub_eq_zero_of_le (Nat.le_of_eq heq.symm)
      rw [hzero]
      rfl
    · rfl

theorem allows_after_one {stop : Option Nat} (hne : Allows stop 1) {n : Nat} :
    Allows (after 1 stop) n ↔ Allows stop (1 + n) := by
  refine ⟨fun h m hm => ?_, Allows.after⟩
  have h₁ := hne m hm
  have h₂ := h (m - 1) (by simp [after, hm])
  omega

theorem after_one_eq {stop : Option Nat} (hne : Allows stop 1) {n : Nat} :
    after 1 stop = some n ↔ stop = some (1 + n) := by
  cases stop with
  | none => simp [after]
  | some m =>
    have := hne m rfl
    simp only [after, Option.map_some, Option.some.injEq]
    omega

theorem upgraded_done {schemas : List (Script C)} {stop : Option Nat} {start : Database C}
    {done later : List (Script C)} {c : C}
    (hdrop : schemas.drop start.userVersion = done ++ later)
    (hlt : start.userVersion ≤ schemas.length) (hallows : Allows stop (1 + cost done))
    (hdone : applyAll done.flatten start.content = some c) :
    upgraded schemas stop start =
      (storageSqliteUpgradeFromTo schemas later.length (start.userVersion + done.length)
        (after (1 + cost done) stop)
        (connect ⟨c, start.userVersion + done.length⟩)).conn.close := by
  have hcount : schemas.length - start.userVersion = done.length + later.length := by
    rw [← List.length_drop, hdrop, List.length_append]
  rw [upgraded_loop hlt hallows.left, hcount, ← after_after]
  rw [← storageSqliteUpgradeFromTo_done schemas done hdrop hallows.after hdone]

/-- **The database an upgrade that stops leaves behind.** -/
theorem upgraded_stops {schemas : List (Script C)} {stop : Option Nat} {start : Database C}
    (hversion : start.userVersion ≤ schemas.length) {done : List (Script C)}
    {before rest : Script C} {c c' : C} (h : StopsAt schemas stop start done before rest c c') :
    upgraded schemas stop start = ⟨c', start.userVersion + done.length⟩ := by
  obtain ⟨later, hdrop⟩ := h.scripts
  have hscript : schemas[start.userVersion + done.length]? = some (before ++ rest) := by
    rw [← List.getElem?_drop, hdrop]
    simp
  have hpart : after (1 + cost done) stop = some before.length ∨
      ∃ f fs, rest = f :: fs ∧ f c' = none := by
    refine h.stops.imp_left fun hstop => ?_
    simp [hstop, after]
  rw [upgraded_done hdrop hversion h.allows.left h.whole]
  simp only [List.length_cons, storageSqliteUpgradeFromTo,
    storageSqliteUpgradeTo_part hscript h.allows.after h.part hpart]
  rfl

/-- **Schema upgrades are all or nothing exactly when they stop where nothing is half-done**:
for every list of scripts, every starting version and every point of failure, the contract holds
if and only if the completed statements of the script the upgrade stops in have together left
the content as it was. -/
theorem upgrade_all_or_nothing_iff (schemas : List (Script C)) (stop : Option Nat)
    (start : Database C) (hversion : start.userVersion ≤ schemas.length) :
    AllOrNothing schemas stop start ↔
      ∀ done before rest c c', StopsAt schemas stop start done before rest c c' → c' = c := by
  constructor
  · intro h done before rest c c' hstops
    obtain ⟨k, hle, -, hk, hcontent⟩ := h.whole
    obtain ⟨later, hdrop⟩ := hstops.scripts
    rw [upgraded_stops hversion hstops] at hk hcontent
    obtain rfl : start.userVersion + done.length = k := hk
    rw [hdrop, Nat.add_sub_cancel_left, List.take_left' rfl, hstops.whole] at hcontent
    exact (Option.some.inj hcontent).symm
  · intro h
    -- a database at a version whose scripts have been applied meets the contract
    have hwhole : ∀ (done later : List (Script C)) (c : C),
        schemas.drop start.userVersion = done ++ later →
        applyAll done.flatten start.content = some c →
        upgraded schemas stop start = ⟨c, start.userVersion + done.length⟩ →
        AllOrNothing schemas stop start := by
      intro done later c hdrop hdone hupgraded
      have hlen : done.length + later.length = schemas.length - start.userVersion := by
        rw [← List.length_append, ← hdrop, List.length_drop]
      refine ⟨⟨start.userVersion + done.length, Nat.le_add_right _ _, by omega, ?_, ?_⟩, ?_⟩
      · rw [hupgraded]
      · rw [hupgraded, hdrop, Nat.add_sub_cancel_left, List.take_left' rfl, hdone]
      · have hlater : schemas.length - (start.userVersion + done.length) = later.length := by omega
        have hfree : ∀ n, Allows none n := fun _ _ hn => by cases hn
        rw [hupgraded, upgraded_done hdrop hversion (hfree _) hdone,
          upgraded_loop (by simp only; omega) (hfree _)]
        simp only [hlater]
        rfl
    by_cases hread : stop = some 0
    · subst hread
      exact hwhole [] (schemas.drop start.userVersion) start.content rfl rfl rfl
    · have hone : Allows stop 1 := fun n hn => Nat.one_le_iff_ne_zero.2 fun h0 => hread (h0 ▸ hn)
      rcases scripts_cases (schemas.drop start.userVersion) (after 1 stop) start.content with
        ⟨hall, c, happly⟩ | ⟨done, before, rest, later, c, c', hdrop, hdone, hpart, hallows, hstop⟩
      · refine hwhole _ [] c (List.append_nil _).symm happly ?_
        rw [upgraded_done (List.append_nil _).symm hversion ((allows_after_one hone).1 hall) happly]
        rfl
      · have hstops : StopsAt schemas stop start done before rest c c' := by
          refine ⟨⟨later, hdrop⟩, hdone, hpart, ?_, hstop.imp_left fun hs => ?_⟩
          · rw [Nat.add_assoc]
            exact (allows_after_one hone).1 hallows
          · rw [Nat.add_assoc]
            exact (after_one_eq hone).1 hs
        obtain rfl := h _ _ _ _ _ hstops
        exact hwhole done _ c' hdrop hdone (upgraded_stops hversion hstops)

/-- A script that makes two tables. -/
def twoTables : Script (List Nat) := [fun tables => some (tables ++ [1]),
  fun tables => some (tables ++ [2])]

/-- A process that stops between the two leaves one table at version 0. -/
theorem upgrade_half_applied :
    upgraded [twoTables] (some 2) ⟨[], 0⟩ = ⟨[1], 0⟩ ∧
      upgraded [twoTables] none (upgraded [twoTables] (some 2) ⟨[], 0⟩) = ⟨[1, 1, 2], 1⟩ ∧
      ¬ AllOrNothing [twoTables] (some 2) ⟨[], 0⟩ := by
  refine ⟨rfl, rfl, fun h => ?_⟩
  have hagain := congrArg Database.content h.again
  exact absurd hagain (by decide)

/-- The contract at a process that stops before the second script, and not between its
statements. -/
theorem upgrade_stopped_between :
    AllOrNothing [twoTables, twoTables] (some 4) ⟨[], 0⟩ := by
  refine (upgrade_all_or_nothing_iff _ _ _ (by decide)).2 ?_
  intro done before rest c c' h
  have hlen : 1 + cost done + before.length ≤ 4 := h.allows 4 rfl
  obtain ⟨later, hdrop⟩ := h.scripts
  have hpart := h.part
  -- nothing fails by itself, so all four statements have been executed
  cases before with
  | nil => exact (Option.some.inj hpart).symm
  | cons f before =>
    exfalso
    match done, hdrop with
    | [], hdrop =>
      have hfirst : f :: before ++ rest = twoTables := (List.cons.inj hdrop).1.symm
      have hcount := congrArg List.length hfirst
      rcases h.stops with hs | ⟨g, gs, rfl, hg⟩
      · simp only [Option.some.injEq, cost, List.map_nil, List.sum_nil, List.length_cons] at hs
        simp only [List.length_append, List.length_cons, twoTables, List.length_nil] at hcount
        omega
      · have hmem : g ∈ twoTables := hfirst ▸ (by simp)
        simp only [twoTables, List.mem_cons, List.not_mem_nil, or_false] at hmem
        rcases hmem with rfl | rfl <;> cases hg
    | script :: done, hdrop =>
      have hscript : script = twoTables := (List.cons.inj hdrop).1.symm
      subst hscript
      simp only [cost, List.map_cons, List.sum_cons, List.length_cons, twoTables,
        List.length_nil] at hlen
      omega

end Cimple.Upgrade
