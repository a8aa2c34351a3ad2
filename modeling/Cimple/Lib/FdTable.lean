import Mathlib.Data.List.Nodup

/-!
# A table of file descriptors

A descriptor is a number that names an open file.  Numbers are reused after a close, files are
not: the table keeps which file each open number names and which files have been closed, so
that closing a number twice shows, either as a stray close or as the close of another's file.

* `openFd` — the system picks a number that is not in use.
* `close` — the file behind a number is closed.
* `openFd_spec`, `close_spec` — what each does to the open and the closed files.
* `Owned` — descriptors a program is responsible for: open, and of different files.  A new
  descriptor joins them (`Owned.openFd`) and a closed one leaves them (`Owned.close`).
-/

set_option autoImplicit false

namespace Descriptors

/-- The open numbers with their files, the files closed so far and the closes of a number that
was not open; `next` bounds the files opened so far. -/
structure FdTable where
  opened : List (Nat × Nat)
  closed : List Nat
  stray : List Nat
  next : Nat
  numbers : (opened.map Prod.fst).Nodup
  files : (opened.map Prod.snd ++ closed).Nodup
  bounded : ∀ file ∈ opened.map Prod.snd ++ closed, file < next

theorem bounded_nil : ∀ file ∈ ([] : List (Nat × Nat)).map Prod.snd ++ [], file < 0 := by
  simp

/-- The files that are open. -/
def FdTable.openFiles (t : FdTable) : List Nat := t.opened.map Prod.snd

/-- A number that is not in use is given to a new file. -/
def openFd (t : FdTable) (fd : Nat) : Option FdTable :=
  if h : fd ∈ t.opened.map Prod.fst then none
  else some {
    opened := (fd, t.next) :: t.opened
    closed := t.closed
    stray := t.stray
    next := t.next + 1
    numbers := by simpa using ⟨by simpa using h, t.numbers⟩
    files := by
      rw [List.map_cons, List.cons_append, List.nodup_cons]
      exact ⟨fun hmem => Nat.lt_irrefl _ (t.bounded _ hmem), t.files⟩
    bounded := by
      intro file hmem
      rw [List.map_cons, List.cons_append, List.mem_cons] at hmem
      rcases hmem with rfl | hmem
      · exact Nat.lt_succ_self _
      · exact Nat.lt_succ_of_lt (t.bounded file hmem) }

/-- The entry of a number and the other entries. -/
def split (fd : Nat) : List (Nat × Nat) → Option (Nat × List (Nat × Nat))
  | [] => none
  | (n, file) :: rest =>
    if n = fd then some (file, rest)
    else (split fd rest).map fun r => (r.1, (n, file) :: r.2)

theorem split_perm {fd file : Nat} {opened rest : List (Nat × Nat)}
    (h : split fd opened = some (file, rest)) : opened.Perm ((fd, file) :: rest) := by
  induction opened generalizing rest with
  | nil => cases h
  | cons e opened ih =>
    obtain ⟨n, f⟩ := e
    simp only [split] at h
    split at h
    · rename_i hn
      subst hn
      cases h
      exact List.Perm.refl _
    · obtain ⟨⟨file', rest'⟩, hsplit, heq⟩ := Option.map_eq_some_iff.1 h
      cases heq
      exact ((ih hsplit).cons _).trans (List.Perm.swap _ _ _)

theorem split_of_mem {fd file : Nat} {opened : List (Nat × Nat)}
    (hnodup : (opened.map Prod.fst).Nodup) (h : (fd, file) ∈ opened) :
    ∃ rest, split fd opened = some (file, rest) := by
  induction opened with
  | nil => cases h
  | cons e opened ih =>
    obtain ⟨n, f⟩ := e
    rw [List.map_cons, List.nodup_cons] at hnodup
    rcases List.mem_cons.1 h with heq | hmem
    · cases heq
      exact ⟨opened, by simp [split]⟩
    · have hne : n ≠ fd := by
        rintro rfl
        exact hnodup.1 (List.mem_map.2 ⟨_, hmem, rfl⟩)
      obtain ⟨rest, hrest⟩ := ih hnodup.2 hmem
      exact ⟨(n, f) :: rest, by simp [split, hne, hrest]⟩

/-- A number is closed, and with it the file it names; a number that is not open is only
recorded. -/
def close (t : FdTable) (fd : Nat) : FdTable :=
  match h : split fd t.opened with
  | none => { t with stray := fd :: t.stray }
  | some (file, rest) => {
      opened := rest
      closed := file :: t.closed
      stray := t.stray
      next := t.next
      numbers := by
        have hperm := (split_perm h).map Prod.fst
        exact (List.nodup_cons.1 (hperm.nodup_iff.1 t.numbers)).2
      files := by
        have hperm := ((split_perm h).map Prod.snd).append_right t.closed
        exact (hperm.trans List.perm_middle.symm).nodup_iff.1 t.files
      bounded := by
        have hperm := ((split_perm h).map Prod.snd).append_right t.closed
        intro f hf
        exact t.bounded f ((hperm.trans List.perm_middle.symm).mem_iff.2 hf) }

/-- The file a number names. -/
def fileOf (t : FdTable) (fd : Nat) : Option Nat := (split fd t.opened).map Prod.fst

/-! ## What the operations do -/

theorem fileOf_of_mem {t : FdTable} {fd file : Nat} (h : (fd, file) ∈ t.opened) :
    fileOf t fd = some file := by
  obtain ⟨rest, hsplit⟩ := split_of_mem t.numbers h
  rw [fileOf, hsplit]
  rfl

theorem openFd_next {t t' : FdTable} {fd : Nat} (h : openFd t fd = some t') :
    t'.next = t.next + 1 := by
  unfold openFd at h
  split at h
  · cases h
  · cases h
    rfl

@[simp] theorem close_next (t : FdTable) (fd : Nat) : (close t fd).next = t.next := by
  unfold close
  split <;> rfl

/-- A new file is open under its number, and nothing else has changed. -/
theorem openFd_spec {t t' : FdTable} {fd : Nat} (h : openFd t fd = some t') :
    t'.opened = (fd, t.next) :: t.opened ∧ t'.closed = t.closed ∧ t'.stray = t.stray ∧
      t.next ∉ t.openFiles ∧ t.next ∉ t.closed := by
  unfold openFd at h
  split at h
  · cases h
  · cases h
    refine ⟨rfl, rfl, rfl, fun hmem => ?_, fun hmem => ?_⟩
    · exact Nat.lt_irrefl _ (t.bounded _ (List.mem_append_left _ hmem))
    · exact Nat.lt_irrefl _ (t.bounded _ (List.mem_append_right _ hmem))

/-- Closing an open number closes its file and leaves every other file open. -/
theorem close_spec {t : FdTable} {fd file : Nat} (h : (fd, file) ∈ t.opened) :
    (close t fd).closed = file :: t.closed ∧ (close t fd).stray = t.stray ∧
      ∀ e ∈ t.opened, e.2 ≠ file → e ∈ (close t fd).opened := by
  obtain ⟨rest, hsplit⟩ := split_of_mem t.numbers h
  have hperm := split_perm hsplit
  unfold close
  split
  · rename_i hnone
    rw [hsplit] at hnone
    cases hnone
  · rename_i file' rest' hsome
    rw [hsplit] at hsome
    cases hsome
    refine ⟨rfl, rfl, fun e he hne => ?_⟩
    rcases List.mem_cons.1 (hperm.mem_iff.1 he) with rfl | he
    · exact absurd rfl hne
    · exact he

theorem count_closed (t : FdTable) {file : Nat} (h : file ∈ t.closed) :
    t.closed.count file = 1 :=
  List.count_eq_one_of_mem (List.nodup_append.1 t.files).2.1 h

/-! ## Ownership -/

/-- Descriptors with their files, all open and no file twice. -/
structure Owned (t : FdTable) (ds : List (Nat × Nat)) : Prop where
  opened : ∀ d ∈ ds, d ∈ t.opened
  distinct : (ds.map Prod.snd).Nodup

theorem owned_opened (t : FdTable) : Owned t t.opened :=
  ⟨fun _ hd => hd, (List.nodup_append.1 t.files).1⟩

theorem Owned.perm {t : FdTable} {ds ds' : List (Nat × Nat)} (h : Owned t ds)
    (hperm : ds.Perm ds') : Owned t ds' where
  opened d hd := h.opened d (hperm.mem_iff.2 hd)
  distinct := (hperm.map Prod.snd).nodup_iff.1 h.distinct

theorem Owned.openFd {t t' : FdTable} {fd : Nat} {ds : List (Nat × Nat)} (h : Owned t ds)
    (hopen : openFd t fd = some t') : Owned t' ((fd, t.next) :: ds) := by
  obtain ⟨hopened, -, -, hnew, -⟩ := openFd_spec hopen
  refine ⟨fun d hd => ?_, ?_⟩
  · rw [hopened]
    rcases List.mem_cons.1 hd with rfl | hd
    · exact List.mem_cons_self
    · exact List.mem_cons_of_mem _ (h.opened d hd)
  · rw [List.map_cons, List.nodup_cons]
    refine ⟨fun hmem => hnew ?_, h.distinct⟩
    obtain ⟨d, hd, hfile⟩ := List.mem_map.1 hmem
    exact List.mem_map.2 ⟨d, h.opened d hd, hfile⟩

theorem Owned.close {t : FdTable} {fd file : Nat} {ds : List (Nat × Nat)}
    (h : Owned t ((fd, file) :: ds)) : Owned (close t fd) ds := by
  obtain ⟨-, -, hothers⟩ := close_spec (h.opened _ List.mem_cons_self)
  have hd := h.distinct
  rw [List.map_cons, List.nodup_cons] at hd
  refine ⟨fun d hmem => hothers d (h.opened d (List.mem_cons_of_mem _ hmem)) ?_, hd.2⟩
  rintro rfl
  exact hd.1 (List.mem_map.2 ⟨d, hmem, rfl⟩)

end Descriptors
