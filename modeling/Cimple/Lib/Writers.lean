import Mathlib.Data.List.Nodup
import Mathlib.Logic.Function.Basic

/-!
# Streams of messages, and who writes to them

A message is written to a stream piece by piece.  As long as a stream has one writer at most,
and a message is begun by a writer that has nothing left to write, the stream is made of whole
messages, less what is left of the last one.

* `Wire` — what has been written to a stream, the messages begun, and whether a writer gave up.
* `Wire.Lacks` — what is left to be written of the last message.
* `OneWriter` — the streams opened so far and their writers, each with what it has left to
  write; the operations keep it (`connect`, `begin`, `put`, `leave`, `giveUp`).

Principal result: `OneWriter.whole`.
-/

set_option autoImplicit false

namespace Writers

variable {μ α : Type}

/-! ## Streams -/

/-- The bytes written to a stream, the messages begun on it, in order, and whether a writer gave
up on one. -/
structure Wire (μ α : Type) where
  bytes : List α
  begun : List μ
  cut : Bool

/-- A stream nobody has written to. -/
def Wire.empty : Wire μ α := ⟨[], [], false⟩

def Wire.begin (w : Wire μ α) (m : μ) : Wire μ α := { w with begun := w.begun ++ [m] }

def Wire.put (w : Wire μ α) (bytes : List α) : Wire μ α := { w with bytes := w.bytes ++ bytes }

def Wire.giveUp (w : Wire μ α) : Wire μ α := { w with cut := true }

variable (enc : μ → List α)

/-- All messages but the last one have been written; of that one, `left` has not. -/
def Wire.Lacks (w : Wire μ α) (left : List α) : Prop :=
  ∃ part, w.bytes = w.begun.dropLast.flatMap enc ++ part ∧
    part ++ left = w.begun.getLast?.elim [] enc

/-- Nobody writes any more: nothing is left, or the writer gave up. -/
def Wire.Ended (w : Wire μ α) : Prop :=
  w.Lacks enc [] ∨ w.cut = true ∧ ∃ left, w.Lacks enc left

variable {enc} {w : Wire μ α}

theorem lacks_empty : (Wire.empty : Wire μ α).Lacks enc [] := ⟨[], rfl, rfl⟩

theorem lacks_nil : w.Lacks enc [] ↔ w.bytes = w.begun.flatMap enc := by
  unfold Wire.Lacks
  rcases List.eq_nil_or_concat w.begun with hbegun | ⟨before, m, hbegun⟩ <;> simp [hbegun]

theorem Wire.Lacks.begin (h : w.Lacks enc []) (m : μ) : (w.begin m).Lacks enc (enc m) :=
  ⟨[], by simpa [Wire.begin] using lacks_nil.1 h, by simp [Wire.begin]⟩

theorem Wire.Lacks.put {taken left : List α} (h : w.Lacks enc (taken ++ left)) :
    (w.put taken).Lacks enc left := by
  obtain ⟨part, hbytes, hpart⟩ := h
  refine ⟨part ++ taken, ?_, ?_⟩
  · simp [Wire.put, hbytes]
  · rw [List.append_assoc]
    exact hpart

/-- **What a stream looks like**: the messages begun, or a prefix of the last one in its
place. -/
theorem Wire.Lacks.whole {left : List α} (h : w.Lacks enc left) :
    ∃ ms part, w.bytes = ms.flatMap enc ++ part ∧
      (part = [] ∧ w.begun = ms ∨ left ≠ [] ∧ ∃ m, w.begun = ms ++ [m] ∧ part <+: enc m) := by
  by_cases hleft : left = []
  · subst hleft
    exact ⟨w.begun, [], by simpa using lacks_nil.1 h, .inl ⟨rfl, rfl⟩⟩
  · obtain ⟨part, hbytes, hpart⟩ := h
    rcases List.eq_nil_or_concat w.begun with hbegun | ⟨before, m, hbegun⟩
    · simp [hbegun, hleft] at hpart
    · rw [List.concat_eq_append] at hbegun
      rw [hbegun, List.dropLast_concat] at hbytes
      rw [hbegun, List.getLast?_concat] at hpart
      exact ⟨before, part, hbytes, .inr ⟨hleft, m, hbegun, left, hpart⟩⟩

/-! ## Writers -/

variable (enc) in
/-- **One writer for each stream**: the streams are numbered below `next`; each writer is given
with its stream and with what it has left to write. -/
structure OneWriter (wires : Nat → Wire μ α) (next : Nat) (writers : List (Nat × List α)) :
    Prop where
  one : (writers.map Prod.fst).Nodup
  known : ∀ writer ∈ writers, writer.1 < next
  unknown : ∀ c, next ≤ c → wires c = .empty
  lacks : ∀ c left, (c, left) ∈ writers → (wires c).Lacks enc left
  ended : ∀ c, c ∉ writers.map Prod.fst → (wires c).Ended enc

variable {wires : Nat → Wire μ α} {next c : Nat} {left : List α}
  {writers writers' : List (Nat × List α)}

theorem oneWriter_nil : OneWriter enc (fun _ => Wire.empty) next [] :=
  ⟨List.nodup_nil, by simp, fun _ _ => rfl, by simp, fun _ _ => .inl lacks_empty⟩

theorem OneWriter.perm (h : OneWriter enc wires next writers) (hperm : writers.Perm writers') :
    OneWriter enc wires next writers' := by
  have hkeys := hperm.map Prod.fst
  exact ⟨hkeys.nodup_iff.1 h.one, fun writer hw => h.known writer (hperm.mem_iff.2 hw), h.unknown,
    fun c left hc => h.lacks c left (hperm.mem_iff.2 hc),
    fun c hc => h.ended c fun hmem => hc (hkeys.mem_iff.1 hmem)⟩

theorem OneWriter.connect (h : OneWriter enc wires next writers) :
    OneWriter enc wires (next + 1) ((next, []) :: writers) := by
  have hnew : next ∉ writers.map Prod.fst := by
    rintro hmem
    obtain ⟨writer, hwriter, heq⟩ := List.mem_map.1 hmem
    exact absurd (h.known writer hwriter) (by omega)
  refine ⟨List.nodup_cons.2 ⟨hnew, h.one⟩, ?_, fun c hc => h.unknown c (by omega), ?_, ?_⟩
  · rintro writer (_ | ⟨_, hwriter⟩)
    · exact Nat.lt_succ_self _
    · exact Nat.lt_succ_of_lt (h.known writer hwriter)
  · rintro c left (_ | ⟨_, hc⟩)
    · rw [h.unknown next (Nat.le_refl _)]
      exact lacks_empty
    · exact h.lacks c left hc
  · exact fun c hc => h.ended c fun hmem => hc (List.mem_cons_of_mem _ hmem)

/-- What a writer does to its stream concerns no other stream. -/
theorem OneWriter.update (h : OneWriter enc wires next ((c, left) :: writers)) {left' : List α}
    {w : Wire μ α} (hw : w.Lacks enc left') :
    OneWriter enc (Function.update wires c w) next ((c, left') :: writers) := by
  have hnodup := List.nodup_cons.1 h.one
  have hc : c < next := h.known (c, left) List.mem_cons_self
  refine ⟨h.one, ?_, fun c' hc' => ?_, ?_, fun c' hc' => ?_⟩
  · rintro writer (_ | ⟨_, hwriter⟩)
    · exact hc
    · exact h.known writer (List.mem_cons_of_mem _ hwriter)
  · rw [Function.update_of_ne (by omega)]
    exact h.unknown c' hc'
  · rintro c' left'' (_ | ⟨_, hwriter⟩)
    · rw [Function.update_self]
      exact hw
    · have hmem : c' ∈ writers.map Prod.fst := List.mem_map.2 ⟨(c', left''), hwriter, rfl⟩
      have hne : c' ≠ c := by
        rintro rfl
        exact hnodup.1 hmem
      rw [Function.update_of_ne hne]
      exact h.lacks c' left'' (List.mem_cons_of_mem _ hwriter)
  · have hne : c' ≠ c := by
      rintro rfl
      exact hc' List.mem_cons_self
    rw [Function.update_of_ne hne]
    exact h.ended c' hc'

theorem OneWriter.begin (h : OneWriter enc wires next ((c, []) :: writers)) (m : μ) :
    OneWriter enc (Function.update wires c ((wires c).begin m)) next ((c, enc m) :: writers) :=
  h.update ((h.lacks c [] List.mem_cons_self).begin m)

theorem OneWriter.put {taken : List α}
    (h : OneWriter enc wires next ((c, taken ++ left) :: writers)) :
    OneWriter enc (Function.update wires c ((wires c).put taken)) next ((c, left) :: writers) :=
  h.update (h.lacks c _ List.mem_cons_self).put

theorem OneWriter.leave (h : OneWriter enc wires next ((c, left) :: writers))
    (hended : (wires c).Ended enc) : OneWriter enc wires next writers := by
  refine ⟨(List.nodup_cons.1 h.one).2, fun writer hw => h.known writer (List.mem_cons_of_mem _ hw),
    h.unknown, fun c left hc => h.lacks c left (List.mem_cons_of_mem _ hc), fun c' hc' => ?_⟩
  by_cases heq : c' = c
  · rw [heq]
    exact hended
  · refine h.ended c' fun hmem => ?_
    rcases List.mem_cons.1 hmem with hmem | hmem
    · exact heq hmem
    · exact hc' hmem

theorem OneWriter.finish (h : OneWriter enc wires next ((c, []) :: writers)) :
    OneWriter enc wires next writers :=
  h.leave (.inl (h.lacks c [] List.mem_cons_self))

theorem OneWriter.giveUp (h : OneWriter enc wires next ((c, left) :: writers)) :
    OneWriter enc (Function.update wires c (wires c).giveUp) next writers := by
  have hlacks : (wires c).giveUp.Lacks enc left := h.lacks c left List.mem_cons_self
  refine (h.update hlacks).leave (.inr ?_)
  rw [Function.update_self]
  exact ⟨rfl, left, hlacks⟩

/-- **Streams with one writer are made of whole messages**: every stream consists of the
messages begun on it, except that of the last one there may be only a prefix, if its writer has
not finished or gave up. -/
theorem OneWriter.whole (h : OneWriter enc wires next writers) (c : Nat) :
    ∃ ms part, (wires c).bytes = ms.flatMap enc ++ part ∧
      (part = [] ∧ (wires c).begun = ms ∨
        ((wires c).cut = true ∨ ∃ left, left ≠ [] ∧ (c, left) ∈ writers) ∧
          ∃ m, (wires c).begun = ms ++ [m] ∧ part <+: enc m) := by
  by_cases hc : c ∈ writers.map Prod.fst
  · obtain ⟨⟨c', left⟩, hwriter, rfl⟩ := List.mem_map.1 hc
    obtain ⟨ms, part, hbytes, hwhole | ⟨hleft, hlast⟩⟩ := (h.lacks c' left hwriter).whole
    · exact ⟨ms, part, hbytes, .inl hwhole⟩
    · exact ⟨ms, part, hbytes, .inr ⟨.inr ⟨left, hleft, hwriter⟩, hlast⟩⟩
  · rcases h.ended c hc with hlacks | ⟨hcut, left, hlacks⟩
    · obtain ⟨ms, part, hbytes, hwhole | ⟨hleft, -⟩⟩ := hlacks.whole
      · exact ⟨ms, part, hbytes, .inl hwhole⟩
      · exact absurd rfl hleft
    · obtain ⟨ms, part, hbytes, hwhole | ⟨-, hlast⟩⟩ := hlacks.whole
      · exact ⟨ms, part, hbytes, .inl hwhole⟩
      · exact ⟨ms, part, hbytes, .inr ⟨.inl hcut, hlast⟩⟩

end Writers
