import Cimple.Lib.Octets

/-!
# Loops of partial writes and partial reads

A system call that transfers bytes may transfer fewer than it was asked for, so programs call it
in a loop.  This file has the two loops, over a list of the kernel's answers:

* `writeAll` — offer what is left until everything is taken or a call fails;
* `readExact` — read until `size` bytes have arrived, the stream ends or a call fails.

A successful call transfers at least one byte and at most what is asked for: `took n` and
`gave n` transfer `n` bytes past the first, cut down to what there is.  A loop makes finitely
many calls; past the end of the list of answers the kernel transfers all it can in one call.

Principal results: `writeAll_spec` (what was taken is a prefix of the data, and all of it
exactly on success), `readExact_spec` (a successful read takes exactly `size` bytes off the
front of the stream, without a failing call) and `readExact_of_le` (without failing calls it
does succeed when the stream is long enough).
-/

set_option autoImplicit false

namespace ByteStream

open Octets

/-! ## Writing -/

/-- The kernel's answer to one write: failure, or the number of bytes taken past the first. -/
inductive WriteAns where
  | fail
  | took (extra : Nat)
  deriving DecidableEq, Repr

/-- The outcome of a loop of writes. -/
structure Written where
  ok : Bool
  bytes : Bytes
  answers : List WriteAns
  deriving DecidableEq, Repr

/-- Offer the rest of the data until all of it is taken or a call fails. -/
def writeAll : List WriteAns → Bytes → Written
  | answers, [] => ⟨true, [], answers⟩
  | [], b :: data => ⟨true, b :: data, []⟩
  | .fail :: answers, _ :: _ => ⟨false, [], answers⟩
  | .took n :: answers, b :: data =>
    let w := writeAll answers (data.drop n)
    ⟨w.ok, b :: data.take n ++ w.bytes, w.answers⟩

@[simp] theorem writeAll_nil (answers : List WriteAns) :
    writeAll answers [] = ⟨true, [], answers⟩ := by
  cases answers <;> simp [writeAll]

/-- **What was taken is a prefix of the data, and it is all of the data exactly on success.** -/
theorem writeAll_spec (answers : List WriteAns) (data : Bytes) :
    ∃ left, data = (writeAll answers data).bytes ++ left ∧
      ((writeAll answers data).ok = true ↔ left = []) := by
  fun_induction writeAll answers data with
  | case1 | case2 => exact ⟨[], by simp, by simp⟩
  | case3 => rename_i b data; exact ⟨b :: data, rfl, by simp⟩
  | case4 n answers b data w ih =>
    obtain ⟨left, hdata, hok⟩ := ih
    refine ⟨left, ?_, hok⟩
    show b :: data = b :: data.take n ++ w.bytes ++ left
    rw [List.cons_append, List.cons_append, List.append_assoc, ← hdata, List.take_append_drop]

theorem writeAll_bytes_eq_iff (answers : List WriteAns) (data : Bytes) :
    (writeAll answers data).bytes = data ↔ (writeAll answers data).ok = true := by
  obtain ⟨left, hdata, hok⟩ := writeAll_spec answers data
  rw [hok]
  constructor
  · intro h
    rw [h] at hdata
    simpa using hdata
  · rintro rfl
    simpa using hdata.symm

theorem writeAll_bytes_eq_nil_iff {answers : List WriteAns} {data : Bytes} (h : data ≠ []) :
    (writeAll answers data).bytes = [] ↔ answers.head? = some .fail := by
  fun_cases writeAll answers data with
  | case1 => exact absurd rfl h
  | case2 | case3 | case4 => simp

theorem writeAll_ok {answers : List WriteAns} (h : .fail ∉ answers) (data : Bytes) :
    (writeAll answers data).ok = true := by
  fun_induction writeAll answers data with
  | case1 | case2 => rfl
  | case3 => simp at h
  | case4 n answers b data w ih => exact ih fun hf => h (List.mem_cons_of_mem _ hf)

theorem writeAll_answers (answers : List WriteAns) (data : Bytes) :
    (writeAll answers data).answers <:+ answers := by
  fun_induction writeAll answers data with
  | case1 | case2 => exact List.suffix_refl _
  | case3 => exact List.suffix_cons _ _
  | case4 n answers b data w ih => exact ih.trans (List.suffix_cons _ _)

/-! ## Reading -/

/-- The kernel's answer to one read: failure, or the number of bytes given past the first. -/
inductive ReadAns where
  | fail
  | gave (extra : Nat)
  deriving DecidableEq, Repr

/-- The outcome of a loop of reads: the data, if all of it arrived, and what is left of the
stream and of the answers. -/
structure Reading where
  data : Option Bytes
  stream : Bytes
  answers : List ReadAns
  deriving DecidableEq, Repr

/-- Read `size` bytes; an exhausted stream is at its end, where a read gives no bytes. -/
def readExact : List ReadAns → Nat → Bytes → Reading
  | answers, 0, stream => ⟨some [], stream, answers⟩
  | answers, _ + 1, [] => ⟨none, [], answers⟩
  | [], size + 1, b :: stream =>
    if size ≤ stream.length then ⟨some (b :: stream.take size), stream.drop size, []⟩
    else ⟨none, [], []⟩
  | .fail :: answers, _ + 1, b :: stream => ⟨none, b :: stream, answers⟩
  | .gave n :: answers, size + 1, b :: stream =>
    let got := stream.take (min n size)
    let r := readExact answers (size - got.length) (stream.drop (min n size))
    ⟨r.data.map (b :: got ++ ·), r.stream, r.answers⟩

/-- **A successful read takes exactly `size` bytes off the front of the stream**, and no call
it made has failed. -/
theorem readExact_spec (answers : List ReadAns) (size : Nat) (stream : Bytes) :
    ∃ used, answers = used ++ (readExact answers size stream).answers ∧
      ∀ d, (readExact answers size stream).data = some d →
        stream = d ++ (readExact answers size stream).stream ∧ d.length = size ∧
          .fail ∉ used := by
  fun_induction readExact answers size stream with
  | case1 answers stream => exact ⟨[], rfl, by simp⟩
  | case2 answers => exact ⟨[], rfl, by simp⟩
  | case3 size b stream hle =>
    refine ⟨[], rfl, ?_⟩
    rintro d ⟨⟩
    simp [hle]
  | case4 => exact ⟨[], rfl, by simp⟩
  | case5 answers => exact ⟨[.fail], rfl, by simp⟩
  | case6 n answers size b stream got r ih =>
    obtain ⟨used, hans, hdata⟩ := ih
    refine ⟨.gave n :: used, by rw [List.cons_append, ← hans], ?_⟩
    intro d hd
    obtain ⟨d', hd', rfl⟩ := Option.map_eq_some_iff.1 hd
    obtain ⟨hs, hlen, hf⟩ := hdata d' hd'
    have hgot : got.length ≤ size :=
      (List.length_take_le _ stream).trans (Nat.min_le_right n size)
    refine ⟨?_, ?_, by simp [hf]⟩
    · rw [List.cons_append, List.cons_append, List.append_assoc, ← hs, List.take_append_drop]
    · simp only [List.cons_append, List.length_cons, List.length_append, hlen]
      omega

theorem readExact_some {answers : List ReadAns} {size : Nat} {stream d : Bytes}
    (h : (readExact answers size stream).data = some d) :
    stream = d ++ (readExact answers size stream).stream ∧ d.length = size := by
  obtain ⟨_, _, hd⟩ := readExact_spec answers size stream
  exact ⟨(hd d h).1, (hd d h).2.1⟩

theorem readExact_answers (answers : List ReadAns) (size : Nat) (stream : Bytes) :
    (readExact answers size stream).answers <:+ answers := by
  obtain ⟨used, hans, _⟩ := readExact_spec answers size stream
  exact ⟨used, hans.symm⟩

/-- Without a failing call the loop succeeds on a stream that is long enough. -/
theorem readExact_of_le {answers : List ReadAns} (hf : .fail ∉ answers) {size : Nat}
    {stream : Bytes} (hle : size ≤ stream.length) :
    (readExact answers size stream).data = some (stream.take size) := by
  have hsome : ∃ d, (readExact answers size stream).data = some d := by
    fun_induction readExact answers size stream with
    | case1 => exact ⟨[], rfl⟩
    | case2 => simp at hle
    | case3 => exact ⟨_, rfl⟩
    | case4 size b stream hn => simp at hle; omega
    | case5 => simp at hf
    | case6 n answers size b stream got r ih =>
      obtain ⟨d, hd⟩ := ih (fun h => hf (List.mem_cons_of_mem _ h))
        (by simp [got] at hle ⊢; omega)
      exact ⟨b :: got ++ d, by rw [hd]; rfl⟩
  obtain ⟨d, hd⟩ := hsome
  obtain ⟨hs, hlen⟩ := readExact_some hd
  rw [hd, hs, ← hlen, List.take_left]

theorem readExact_append {answers : List ReadAns} (hf : .fail ∉ answers) (d rest : Bytes) :
    ∃ answers', answers' <:+ answers ∧
      readExact answers d.length (d ++ rest) = ⟨some d, rest, answers'⟩ := by
  have hle : d.length ≤ (d ++ rest).length := by simp
  have hdata := readExact_of_le hf hle
  rw [List.take_left] at hdata
  refine ⟨_, readExact_answers answers d.length (d ++ rest), ?_⟩
  have hstream := (readExact_some hdata).1
  rw [List.append_right_inj] at hstream
  cases hr : readExact answers d.length (d ++ rest) with
  | mk data stream answers' => rw [hr] at hdata hstream; simp_all

end ByteStream
