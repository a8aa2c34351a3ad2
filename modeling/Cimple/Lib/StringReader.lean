import Cimple.Lib.Octets

/-!
# Reading a string of unknown length

A function that is given a pointer and no length reads byte after byte, until it finds a NUL or
stops by itself, say because the bytes read so far are all it needs or make no sense.  What
stands behind the memory it was meant to read is not under its control.

* `Reader` — when it stops by itself, from the bytes read so far.
* `Reader.read` — the bytes it reads from a memory.
* `Reader.Terminates` — a NUL, or a place where it stops by itself, is in a piece of memory.

Principal results: `read_append` (a piece of memory in which it terminates is read the same
whatever stands behind it) and `read_length_iff` (those are the pieces it never reads past).
-/

set_option autoImplicit false

namespace StringReader

open Octets

/-- Whether reading stops once these bytes have been read, none of them a NUL. -/
structure Reader where
  stops : Bytes → Bool

/-- The bytes read from a memory, after those already read. -/
def Reader.readFrom (r : Reader) : Bytes → Bytes → Bytes
  | _, [] => []
  | already, b :: memory =>
    if b = 0 ∨ r.stops (already ++ [b]) = true then [b]
    else b :: r.readFrom (already ++ [b]) memory

/-- The bytes read from a memory. -/
def Reader.read (r : Reader) (memory : Bytes) : Bytes := r.readFrom [] memory

/-- Reading ends inside a piece of memory, after the bytes already read. -/
def Reader.TerminatesFrom (r : Reader) (already piece : Bytes) : Prop :=
  ∃ before b after, piece = before ++ b :: after ∧
    (b = 0 ∨ r.stops (already ++ before ++ [b]) = true)

/-- Reading ends inside a piece of memory. -/
def Reader.Terminates (r : Reader) (piece : Bytes) : Prop :=
  ∃ before b after, piece = before ++ b :: after ∧ (b = 0 ∨ r.stops (before ++ [b]) = true)

theorem terminatesFrom_cons {r : Reader} {already piece : Bytes} {b : UInt8} :
    r.TerminatesFrom already (b :: piece) ↔
      (b = 0 ∨ r.stops (already ++ [b]) = true) ∨ r.TerminatesFrom (already ++ [b]) piece := by
  constructor
  · rintro ⟨before, b', after, heq, hends⟩
    cases before with
    | nil =>
      cases heq
      exact .inl (by simpa using hends)
    | cons c before =>
      cases heq
      exact .inr ⟨before, b', after, rfl, by simpa using hends⟩
  · rintro (hends | ⟨before, b', after, rfl, hends⟩)
    · exact ⟨[], b, piece, rfl, by simpa using hends⟩
    · exact ⟨b :: before, b', after, rfl, by simpa using hends⟩

theorem readFrom_length_le (r : Reader) (memory : Bytes) :
    ∀ already : Bytes, (r.readFrom already memory).length ≤ memory.length := by
  induction memory with
  | nil => intro already; simp [Reader.readFrom]
  | cons b memory ih =>
    intro already
    unfold Reader.readFrom
    split
    · simp
    · simpa using ih (already ++ [b])

theorem readFrom_append {r : Reader} (beyond piece : Bytes) :
    ∀ {already : Bytes}, r.TerminatesFrom already piece →
      r.readFrom already (piece ++ beyond) = r.readFrom already piece := by
  induction piece with
  | nil =>
    rintro already ⟨before, b, after, heq, -⟩
    cases before <;> cases heq
  | cons b piece ih =>
    intro already h
    rw [List.cons_append]
    unfold Reader.readFrom
    split
    · rfl
    · rename_i hgoes
      rw [ih ((terminatesFrom_cons.1 h).resolve_left hgoes)]

theorem readFrom_past {r : Reader} (c : UInt8) (piece : Bytes) :
    ∀ {already : Bytes}, ¬ r.TerminatesFrom already piece →
      piece.length < (r.readFrom already (piece ++ [c])).length := by
  induction piece with
  | nil =>
    intro already _
    unfold Reader.readFrom
    rw [List.nil_append]
    dsimp only
    split <;> simp
  | cons b piece ih =>
    intro already h
    rw [terminatesFrom_cons, not_or] at h
    rw [List.cons_append]
    unfold Reader.readFrom
    rw [if_neg h.1]
    simpa using ih h.2

/-- **A piece of memory in which reading ends** is read the same whatever stands behind it. -/
theorem read_append {r : Reader} {piece : Bytes} (h : r.Terminates piece) (beyond : Bytes) :
    r.read (piece ++ beyond) = r.read piece :=
  readFrom_append beyond piece h

/-- **Nothing behind a piece of memory is read**, whatever it is, exactly if reading ends inside
the piece. -/
theorem read_length_iff (r : Reader) (piece : Bytes) :
    (∀ beyond, (r.read (piece ++ beyond)).length ≤ piece.length) ↔ r.Terminates piece := by
  constructor
  · intro h
    by_contra hnot
    have hpast : ¬ r.TerminatesFrom [] piece := hnot
    exact absurd (readFrom_past 0 piece hpast) (Nat.not_lt.2 (h [0]))
  · intro h beyond
    rw [read_append h]
    exact readFrom_length_le r piece []

theorem terminates_of_nul {r : Reader} {piece : Bytes} (h : 0 ∈ piece) : r.Terminates piece := by
  obtain ⟨before, after, rfl⟩ := List.append_of_mem h
  exact ⟨before, 0, after, rfl, .inl rfl⟩

theorem read_memory {r : Reader} (h : ∀ bytes, r.stops bytes = false) (text : CStr) :
    r.read text.memory = text.memory := by
  have hfrom : ∀ bytes already : Bytes, (0 : UInt8) ∉ bytes →
      r.readFrom already (bytes ++ [0]) = bytes ++ [0] := by
    intro bytes
    induction bytes with
    | nil => exact fun _ _ => by simp [Reader.readFrom]
    | cons b bytes ih =>
      intro already hfree
      rw [List.mem_cons, not_or] at hfree
      have hgoes : ¬ (b = 0 ∨ r.stops (already ++ [b]) = true) := by
        simp [h, Ne.symm hfree.1]
      rw [List.cons_append, Reader.readFrom, if_neg hgoes, ih _ hfree.2]
  exact hfrom text.bytes [] text.nulFree

end StringReader
