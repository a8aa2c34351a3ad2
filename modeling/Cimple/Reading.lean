import Cimple.Lib.Buffer
import Cimple.Process

/-!
# The buffer of `file_read` (`file.c`)

`Process.fileRead` says what `file_read` gives; here it is with its buffer, its two sizes and the
arguments of every `read`.

* `fileRead` — the function: `size` bytes of the buffer are in use, and `allocSize` bytes are
  allocated.
* `ReadTurn` — a turn of the loop, with the arguments of `realloc` and `read`.
* `Fits` — the invariant: what is in use is what has been read, and there is room.
* `Agrees` — what is returned and stored, against the contents.
* `Follows` — the turns, against the calls and the stream.

Principal results: `fileReadLoop_refines` (the loop refines the one without a buffer) and
`file_read_whole`.
-/

set_option autoImplicit false

namespace Cimple.Reading

open Octets Buffer Cimple.Process

/-! ## The source -/

/-- `SIZE_MAX`. -/
def sizeMax : Nat := 18446744073709551615

/-- Subtraction of `size_t`. -/
def sizeSub (a b : Nat) : Nat :=
  if b ≤ a then a - b else sizeMax + 1 - (b - a)

/-- Addition of `size_t`. -/
def sizeAdd (a b : Nat) : Nat :=
  if a + b ≤ sizeMax then a + b else a + b - (sizeMax + 1)

/-- Twice the size is still a `size_t`. -/
def canDouble (allocSize : Nat) : Bool := decide (allocSize * 2 ≤ sizeMax)

/-- A turn of the loop: `realloc` is asked for `allocSize` bytes, and `read` for `requested` bytes
at the offset `size`. -/
structure ReadTurn where
  call : ReadCall
  size : Nat
  requested : Nat
  allocSize : Nat

/-- The outcome of `file_read`: the value, with `*_contents` and `*_size` if they are assigned, and
the turns it has made.  There is no value if `alloc_size` cannot be doubled. -/
structure Outcome where
  returned : Option (Int32 × Option (Bytes × Nat))
  turns : List ReadTurn

/-- The loop of `file_read`; past the end of `calls` nothing fails. -/
def fileReadLoop (junk : Nat → UInt8) (contents : Bytes) (size allocSize : Nat)
    (calls : List ReadCall) (stream : Bytes) : Outcome :=
  let call := calls.headD (readAll stream)
  let turn : ReadTurn := ⟨call, size, sizeSub allocSize size, allocSize⟩
  if !call.reallocOk then ⟨some (-1, none), [turn]⟩
  else
    let contents := resize junk allocSize contents
    match call.answer with
    | .fail => ⟨some (-1, none), [turn]⟩
    | .gave extra =>
      let got := stream.take (min (extra + 1) (sizeSub allocSize size))
      if hgot : got = [] then ⟨some (0, some (contents, size)), [turn]⟩
      else
        let contents := store size got contents
        let size := sizeAdd size got.length
        if size = allocSize ∧ canDouble allocSize = false then ⟨none, [turn]⟩
        else
          let allocSize := if size = allocSize then allocSize * 2 else allocSize
          let rest := fileReadLoop junk contents size allocSize calls.tail
            (stream.drop got.length)
          ⟨rest.returned, turn :: rest.turns⟩
termination_by stream.length
decreasing_by
  have hpos : 0 < got.length := List.length_pos_iff.2 hgot
  have hle : got.length ≤ stream.length := List.length_take_le' _ _
  show (stream.drop got.length).length < stream.length
  rw [List.length_drop]
  omega

/-- `file_read`. -/
def fileRead (junk : Nat → UInt8) (calls : List ReadCall) (stream : Bytes) : Outcome :=
  fileReadLoop junk [] 0 256 calls stream

/-! ## The invariant -/

/-- **The invariant of the loop**: the first `size` bytes of the buffer are those read so far, and
there is room for more. -/
structure Fits (buf : Bytes) (size allocSize : Nat) (contents : Bytes) : Prop where
  inUse : buf.take size = contents
  size_eq : size = contents.length
  room : size < allocSize
  representable : allocSize ≤ sizeMax

/-- A read that asks for something, and for no more than there is room for. -/
def ReadTurn.InBounds (turn : ReadTurn) : Prop :=
  0 < turn.requested ∧ turn.size + turn.requested ≤ turn.allocSize

/-- What `file_read` returns and stores, and the contents it gives. -/
inductive Agrees : Int32 × Option (Bytes × Nat) → Option Bytes → Prop where
  | failed : Agrees (-1, none) none
  | whole {buf contents : Bytes} (h : buf.take contents.length = contents) :
      Agrees (0, some (buf, contents.length)) (some contents)

/-- The turns of `file_read`, against the calls it is given and the stream: each makes the next of
the calls, at the offset the one before has come to.  The last one fails, or finds the end of the
stream. -/
inductive Follows : List ReadCall → Bytes → Nat → List ReadTurn → Prop where
  | failed {calls : List ReadCall} {stream : Bytes} {turn : ReadTurn}
      (hcall : turn.call = calls.headD (readAll stream)) (hfails : turn.call.fails = true) :
      Follows calls stream turn.size [turn]
  | ended {calls : List ReadCall} {turn : ReadTurn} (hcall : turn.call = calls.headD (readAll []))
      (hdone : turn.call.fails = false) : Follows calls [] turn.size [turn]
  | more {calls : List ReadCall} {stream : Bytes} {turn : ReadTurn} {turns : List ReadTurn}
      {extra : Nat} (hcall : turn.call = calls.headD (readAll stream))
      (hdone : turn.call.fails = false) (hanswer : turn.call.answer = .gave extra)
      (hgot : stream.take (min (extra + 1) turn.requested) ≠ [])
      (hrest : Follows calls.tail
        (stream.drop (stream.take (min (extra + 1) turn.requested)).length)
        (turn.size + (stream.take (min (extra + 1) turn.requested)).length) turns) :
      Follows calls stream turn.size (turn :: turns)

theorem readAll_fails (stream : Bytes) : (readAll stream).fails = false := rfl

theorem call_fails {calls : List ReadCall} (h : ∀ call ∈ calls, call.fails = false)
    (stream : Bytes) : (calls.headD (readAll stream)).fails = false := by
  cases calls with
  | nil => exact readAll_fails stream
  | cons call calls => exact h call List.mem_cons_self

/-- **If none of the calls fails, none of the turns does.** -/
theorem Follows.any_fails {calls : List ReadCall} {stream : Bytes} {size : Nat}
    {turns : List ReadTurn} (h : Follows calls stream size turns)
    (hcalls : ∀ call ∈ calls, call.fails = false) :
    turns.any (fun turn => turn.call.fails) = false := by
  induction h with
  | failed hcall hfails =>
    rw [hcall, call_fails hcalls] at hfails
    cases hfails
  | ended _ hdone => simp [hdone]
  | more _ hdone _ _ _ ih =>
    have hrest := ih fun call hcall => hcalls call (List.mem_of_mem_tail hcall)
    rw [List.any_cons, hdone, hrest, Bool.false_or]

theorem Fits.size_le {buf contents : Bytes} {size allocSize : Nat}
    (h : Fits buf size allocSize contents) : size ≤ buf.length := by
  have hlen := congrArg List.length h.inUse
  rw [List.length_take, ← h.size_eq] at hlen
  omega

theorem Fits.requested {buf contents : Bytes} {size allocSize : Nat}
    (h : Fits buf size allocSize contents) : sizeSub allocSize size = allocSize - size :=
  if_pos h.room.le

theorem Fits.add_eq {buf contents got : Bytes} {size allocSize : Nat}
    (h : Fits buf size allocSize contents) (hle : got.length ≤ allocSize - size) :
    sizeAdd size got.length = size + got.length := by
  have hroom := h.room
  have hrep := h.representable
  exact if_pos (by omega)

/-- **The read of a turn is in bounds.** -/
theorem Fits.inBounds {buf contents : Bytes} {size allocSize : Nat}
    (h : Fits buf size allocSize contents) (call : ReadCall) :
    (ReadTurn.mk call size (sizeSub allocSize size) allocSize).InBounds := by
  have hroom := h.room
  show 0 < sizeSub allocSize size ∧ size + sizeSub allocSize size ≤ allocSize
  rw [h.requested]
  constructor <;> omega

theorem Fits.resized {buf contents : Bytes} {size allocSize : Nat} (junk : Nat → UInt8)
    (h : Fits buf size allocSize contents) :
    (resize junk allocSize buf).take size = contents := by
  rw [resize_take junk h.size_le h.room.le, h.inUse]

/-- **One turn keeps the invariant**, unless the allocation cannot be doubled. -/
theorem Fits.next {buf contents got : Bytes} {size allocSize : Nat} (junk : Nat → UInt8)
    (h : Fits buf size allocSize contents) (hgot : got ≠ [])
    (hle : got.length ≤ allocSize - size)
    (hdoubles : ¬ (sizeAdd size got.length = allocSize ∧ canDouble allocSize = false)) :
    Fits (store size got (resize junk allocSize buf)) (sizeAdd size got.length)
      (if sizeAdd size got.length = allocSize then allocSize * 2 else allocSize)
      (contents ++ got) := by
  have hroom := h.room
  have hrep := h.representable
  have hpos : 0 < got.length := List.length_pos_iff.2 hgot
  have hadd : sizeAdd size got.length = size + got.length := h.add_eq hle
  have hdoubles : size + got.length = allocSize → allocSize * 2 ≤ sizeMax := by
    intro hfull
    rw [hadd] at hdoubles
    simpa [canDouble, hfull] using hdoubles
  rw [hadd]
  refine ⟨?_, ?_, ?_, ?_⟩
  · rw [store_take got (by rw [resize_length]; omega), h.resized junk]
  · rw [List.length_append, h.size_eq]
  · split <;> omega
  · split
    · exact hdoubles ‹_›
    · exact hrep

theorem Fits.got_le {buf contents : Bytes} {size allocSize : Nat}
    (h : Fits buf size allocSize contents) (extra : Nat) (stream : Bytes) :
    (stream.take (min (extra + 1) (sizeSub allocSize size))).length ≤ allocSize - size := by
  rw [h.requested]
  exact (List.length_take_le _ _).trans (Nat.min_le_right _ _)

/-! ## The loop -/

/-- **The loop refines the one without a buffer**, and every read is in bounds, up to the point
where the allocation cannot be doubled. -/
theorem fileReadLoop_refines (junk : Nat → UInt8) (buf : Bytes) (size allocSize : Nat)
    (calls : List ReadCall) (stream : Bytes) :
    ∀ contents, Fits buf size allocSize contents →
      (∀ turn ∈ (fileReadLoop junk buf size allocSize calls stream).turns, turn.InBounds) ∧
        (((fileReadLoop junk buf size allocSize calls stream).returned = none ∧
            sizeMax < (contents.length + stream.length) * 2) ∨
          ∃ value, (fileReadLoop junk buf size allocSize calls stream).returned = some value ∧
            Agrees value (Process.fileReadLoop allocSize contents calls stream).contents ∧
            (fileReadLoop junk buf size allocSize calls stream).turns.map ReadTurn.call =
              (Process.fileReadLoop allocSize contents calls stream).calls ∧
            Follows calls stream size
              (fileReadLoop junk buf size allocSize calls stream).turns) := by
  fun_induction fileReadLoop junk buf size allocSize calls stream with
  | case1 buf size allocSize calls stream call turn hrealloc =>
    intro contents hfits
    have hfails : call.fails = true := by simp [ReadCall.fails, hrealloc]
    rw [fileReadLoop_failed rfl hfails]
    refine ⟨?_, .inr ⟨_, rfl, .failed, rfl, @Follows.failed calls stream turn rfl hfails⟩⟩
    simpa using hfits.inBounds call
  | case2 buf size allocSize calls stream call turn hrealloc hanswer =>
    intro contents hfits
    have hfails : call.fails = true := by simp [ReadCall.fails, hanswer]
    rw [fileReadLoop_failed rfl hfails]
    refine ⟨?_, .inr ⟨_, rfl, .failed, rfl, @Follows.failed calls stream turn rfl hfails⟩⟩
    simpa using hfits.inBounds call
  | case3 buf size allocSize calls stream call turn hrealloc buf' extra hanswer got hgot =>
    intro contents hfits
    have hempty : stream.take (min (extra + 1) (allocSize - contents.length)) = [] := by
      rw [← hfits.size_eq, ← hfits.requested]
      exact hgot
    have hok : call.reallocOk = true := by simpa using hrealloc
    have hdone : call.fails = false := by simp [ReadCall.fails, hok, hanswer]
    -- there was room, so the stream has ended
    have hend : stream = [] := by
      have hroom := hfits.room
      rw [← hfits.size_eq] at hempty
      exact (List.take_eq_nil_iff.1 hempty).resolve_left (by omega)
    rw [fileReadLoop_last rfl hok hanswer hempty]
    refine ⟨by simpa using hfits.inBounds call, .inr ⟨_, rfl, ?_, rfl, ?_⟩⟩
    rotate_left
    · subst hend
      exact @Follows.ended calls turn rfl hdone
    rw [hfits.size_eq]
    refine .whole ?_
    rw [← hfits.size_eq]
    exact hfits.resized junk
  | case4 buf size allocSize calls stream call turn hrealloc extra hanswer got hgot size'
      hdoubles =>
    intro contents hfits
    refine ⟨by simpa using hfits.inBounds call, .inl ⟨rfl, ?_⟩⟩
    -- the buffer is full, and more than half of the address space
    have hadd : size' = size + got.length := hfits.add_eq (hfits.got_le extra stream)
    have hfull : sizeMax < allocSize * 2 := by simpa [canDouble] using hdoubles.2
    have hle : got.length ≤ stream.length := List.length_take_le' _ _
    have hsize := hfits.size_eq
    omega
  | case5 buf size allocSize calls stream call turn hrealloc buf' extra hanswer got hgot buf''
      size' hdoubles allocSize' rest ih =>
    intro contents hfits
    have hnext := hfits.next junk hgot (hfits.got_le extra stream) hdoubles
    have heq : stream.take (min (extra + 1) (allocSize - contents.length)) = got := by
      rw [← hfits.size_eq, ← hfits.requested]
    have hsplit : (contents ++ got).length + (stream.drop got.length).length =
        contents.length + stream.length := by
      have hle : got.length ≤ stream.length := List.length_take_le' _ _
      rw [List.length_append, List.length_drop]
      omega
    obtain ⟨hbounds, hrest⟩ := ih (contents ++ got) hnext
    rw [hsplit] at hrest
    have hok : call.reallocOk = true := by simpa using hrealloc
    rw [fileReadLoop_more rfl hok hanswer heq hgot, ← hnext.size_eq]
    refine ⟨List.forall_mem_cons.2 ⟨hfits.inBounds call, hbounds⟩, ?_⟩
    rcases hrest with hstopped | ⟨value, hreturned, hagrees, hturns, hfollows⟩
    · exact .inl hstopped
    · have hdone : call.fails = false := by simp [ReadCall.fails, hok, hanswer]
      have hadd : size' = size + got.length := hfits.add_eq (hfits.got_le extra stream)
      refine .inr ⟨value, hreturned, hagrees, congrArg (call :: ·) hturns,
        @Follows.more calls stream turn rest.turns extra rfl hdone hanswer hgot ?_⟩
      show Follows calls.tail (stream.drop got.length) (size + got.length) rest.turns
      rw [← hadd]
      exact hfollows

/-- **`file_read` reads everything and stays in bounds**: every read asks for something there is
room for, and the turns follow the calls and the stream; if nothing fails the value is 0 and what
is stored is the stream and its length, and else the value is negative and nothing is stored.
Only a stream that is longer than half of what a `size_t` counts makes the allocation too large to
be doubled. -/
theorem file_read_whole (junk : Nat → UInt8) (calls : List ReadCall) (stream : Bytes) :
    (∀ turn ∈ (fileRead junk calls stream).turns,
        0 < turn.requested ∧ turn.size + turn.requested ≤ turn.allocSize) ∧
      ((fileRead junk calls stream).returned = none → sizeMax < stream.length * 2) ∧
      ∀ ret stored, (fileRead junk calls stream).returned = some (ret, stored) →
        Follows calls stream 0 (fileRead junk calls stream).turns ∧
        ((∀ call ∈ calls, call.fails = false) → ret = 0) ∧
        if (fileRead junk calls stream).turns.any (fun turn => turn.call.fails) then
          ret < 0 ∧ stored = none
        else ret = 0 ∧ ∃ buf, stored = some (buf, stream.length) ∧
          buf.take stream.length = stream := by
  have hfits : Fits [] 0 256 [] := ⟨rfl, rfl, by decide, by decide⟩
  obtain ⟨hbounds, hrest⟩ := fileReadLoop_refines junk [] 0 256 calls stream [] hfits
  refine ⟨hbounds, ?_, ?_⟩
  · intro hnone
    rcases hrest with ⟨-, hlong⟩ | ⟨value, hreturned, -⟩
    · simpa using hlong
    · rw [fileRead, hreturned] at hnone
      cases hnone
  · intro ret stored hret
    rcases hrest with ⟨hnone, -⟩ | ⟨value, hreturned, hagrees, hturns, hfollows⟩
    · rw [fileRead, hnone] at hret
      cases hret
    · rw [fileRead, hreturned] at hret
      cases hret
      have hcalls : (∀ call ∈ calls, call.fails = false) →
          (Process.fileRead calls stream).fails = false := by
        intro h
        rw [FileRead.fails, Process.fileRead, ← hturns, List.any_map]
        exact hfollows.any_fails h
      have hfails : (fileRead junk calls stream).turns.any (fun turn => turn.call.fails) =
          (Process.fileRead calls stream).fails := by
        rw [FileRead.fails, Process.fileRead, ← hturns, List.any_map]
        rfl
      have hspec := Process.fileRead_spec calls stream
      rw [hfails]
      rw [← Process.fileRead] at hagrees
      cases hread : (Process.fileRead calls stream).fails with
      | true =>
        rw [hspec, hread, if_pos rfl] at hagrees
        cases hagrees
        refine ⟨hfollows, fun h => ?_, by decide, rfl⟩
        rw [hcalls h] at hread
        cases hread
      | false =>
        rw [hspec, hread, if_neg Bool.false_ne_true] at hagrees
        cases hagrees with
        | @whole buf _ hbuf => exact ⟨hfollows, fun _ => rfl, rfl, buf, rfl, hbuf⟩

/-- Three bytes, of which the first `read` gives one. -/
theorem file_read_three_bytes :
    ∃ buf, (fileRead (fun _ => 0) [⟨true, .gave 0⟩] [1, 2, 3]).returned =
        some (0, some (buf, 3)) ∧
      buf.take 3 = [1, 2, 3] := by
  obtain ⟨-, hnone, hsome⟩ := file_read_whole (fun _ => 0) [⟨true, .gave 0⟩] [1, 2, 3]
  cases hreturned : (fileRead (fun _ => 0) [⟨true, .gave 0⟩] [1, 2, 3]).returned with
  | none => exact absurd (hnone hreturned) (by decide)
  | some value =>
    obtain ⟨ret, stored⟩ := value
    obtain ⟨hfollows, hret, hwhole⟩ := hsome ret stored hreturned
    have hcalls : ∀ call ∈ [(⟨true, .gave 0⟩ : ReadCall)], call.fails = false := by decide
    rw [hfollows.any_fails hcalls, if_neg Bool.false_ne_true] at hwhole
    obtain ⟨rfl, buf, rfl, hbuf⟩ := hwhole
    exact ⟨buf, rfl, hbuf⟩

end Cimple.Reading
