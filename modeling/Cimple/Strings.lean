import Cimple.EventLoop
import Cimple.Reading

/-!
# Appending strings to a buffer (`string.c`)

A pointer into a buffer is an offset, and `NULL` is `none`; a call is undefined if it reads or
writes outside of the buffer or past the end of the string.

* `stringAppend` — the function; `stringAppends` — calls with the same `end`, each with the pointer
  the one before has returned.
* `concat`, `truncate`, `written` — what the calls are for: a buffer that holds as much of the
  concatenation as there is room for.
* `appendEvent`, `eventsToString` — the caller (`event_loop.c`).

Principal results: `stringAppend_written` (one call), `stringAppends_written` (all of them),
`string_append_truncates` and `eventsToString_names`.
-/

set_option autoImplicit false

namespace Cimple.Strings

open Octets Buffer Cimple.Reading

/-! ## The source -/

/-- The buffer and the pointer into it. -/
structure Cursor where
  buf : Bytes
  ptr : Option Nat
  deriving DecidableEq

/-- The assignment `end[-1] = '\0'`. -/
def terminate : (bufEnd : Nat) → Bytes → Option Bytes
  | 0, _ => none
  | last + 1, buf => put last 0 buf

/-- `string_append`; `bufEnd` is its argument `end`. -/
def stringAppend (bufEnd : Nat) (dst : Cursor) (src : CStr) : Option Cursor :=
  match dst.ptr with
  | none => some ⟨dst.buf, none⟩
  | some ptr =>
    if ptr = bufEnd then some ⟨dst.buf, some bufEnd⟩
    else do
      let (buf, p) ← memccpy 0 (sizeSub bufEnd ptr) ptr src.memory dst.buf
      match p with
      | some p => some ⟨buf, some (p - 1)⟩
      | none => do
        let buf ← terminate bufEnd buf
        some ⟨buf, some bufEnd⟩

/-- Chained calls: each gets the pointer the one before has returned. -/
def stringAppends (bufEnd : Nat) (dst : Cursor) (srcs : List CStr) : Option Cursor :=
  srcs.foldlM (stringAppend bufEnd) dst

/-! ## What the calls are for -/

/-- The strings, one after the other. -/
def concat (srcs : List CStr) : CStr where
  bytes := srcs.flatMap CStr.bytes
  nulFree h := by
    obtain ⟨src, -, hmem⟩ := List.mem_flatMap.1 h
    exact src.nulFree hmem

/-- As much of a string as fits into `n` bytes with its NUL. -/
def truncate (n : Nat) (text : CStr) : CStr where
  bytes := text.bytes.take (n - 1)
  nulFree h := text.nulFree (List.mem_of_mem_take h)

/-- A buffer into which `text` has been appended, and the pointer to its NUL, or past the buffer if
not all of it has fitted. -/
def written (orig : Bytes) (text : CStr) : Cursor :=
  ⟨store 0 (truncate orig.length text).memory orig, some (min text.length orig.length)⟩

theorem concat_append (srcs srcs' : List CStr) :
    (concat (srcs ++ srcs')).bytes = (concat srcs).bytes ++ (concat srcs').bytes :=
  List.flatMap_append

theorem truncate_of_lt {n : Nat} {text : CStr} (h : text.length < n) : truncate n text = text :=
  CStr.eq_iff.2 (List.take_of_length_le (by rw [← CStr.length]; omega))

theorem truncate_ne {n : Nat} {text : CStr} (hn : 0 < n) (h : n ≤ text.length) :
    truncate n text ≠ text := by
  intro heq
  have hlen := congrArg CStr.length heq
  simp only [CStr.length, truncate, List.length_take] at hlen h
  omega

theorem truncate_full {n : Nat} {text text' : CStr} (h : n ≤ text.length)
    (hbegins : text.bytes <+: text'.bytes) : truncate n text' = truncate n text := by
  obtain ⟨more, hmore⟩ := hbegins
  refine CStr.eq_iff.2 ?_
  show text'.bytes.take (n - 1) = text.bytes.take (n - 1)
  rw [← hmore, List.take_append_of_le_length]
  rw [CStr.length] at h
  omega

/-! ## One call -/

theorem terminate_full {orig data : Bytes} (hn : 0 < orig.length)
    (hdata : data.length = orig.length) :
    terminate orig.length (store 0 data orig) =
      some (store 0 (data.take (orig.length - 1) ++ [0]) orig) := by
  obtain ⟨last, hlast⟩ : ∃ last, orig.length = last + 1 := ⟨orig.length - 1, by omega⟩
  have hsize : (store 0 data orig).length = orig.length := store_length (by omega)
  have hstore : store (0 + last) [0] (store 0 data orig) = store 0 (data.take last ++ [0]) orig :=
    store_store (Nat.zero_le _) (by omega) (by simp; omega)
  rw [Nat.zero_add] at hstore
  rw [hlast, terminate, put_eq 0 (by omega), hstore, Nat.add_sub_cancel]

section Room

/-! The buffer holds a string up to the pointer, and from there on a NUL at most. -/

variable {orig old : Bytes} {before src text : CStr}

theorem text_length (htext : text.bytes = before.bytes ++ src.bytes) :
    text.length = before.length + src.length := by
  rw [CStr.length, htext, List.length_append]
  rfl

theorem store_text_length (hroom : before.length < orig.length) (hold : old.length ≤ 1) :
    (store 0 (before.bytes ++ old) orig).length = orig.length := by
  apply store_length
  rw [List.length_append, ← CStr.length]
  omega

theorem store_text (more : Bytes) (hold : old.length ≤ more.length) :
    store before.length more (store 0 (before.bytes ++ old) orig) =
      store 0 (before.bytes ++ more) orig := by
  have hstore : store (0 + before.bytes.length) more (store 0 (before.bytes ++ old) orig) =
      store 0 (before.bytes ++ more) orig := store_over (Nat.zero_le _) hold
  rwa [Nat.zero_add] at hstore

theorem stringAppend_fits (hold : old.length ≤ 1)
    (htext : text.bytes = before.bytes ++ src.bytes) (hfits : text.length < orig.length) :
    stringAppend orig.length ⟨store 0 (before.bytes ++ old) orig, some before.length⟩ src =
      some (written orig text) := by
  have hlen := text_length htext
  have hroom : before.length < orig.length := by omega
  have hsub : sizeSub orig.length before.length = orig.length - before.length :=
    if_pos hroom.le
  have hcopy := memccpy_found src.nulFree [] (show src.length < orig.length - before.length by omega)
    (show before.length + src.length < (store 0 (before.bytes ++ old) orig).length by
      rw [store_text_length hroom hold]
      omega)
  have hmem : (src.bytes ++ [0]).length = src.length + 1 := src.memory_length
  have hptr : before.length + src.bytes.length + 1 - 1 = min text.length orig.length := by
    rw [← CStr.length]
    omega
  unfold stringAppend
  simp only [if_neg (show before.length ≠ orig.length by omega), hsub, CStr.memory]
  rw [hcopy, store_text _ (by omega)]
  simp only [Option.bind_eq_bind, Option.bind_some, written, hptr, CStr.memory,
    truncate_of_lt hfits, htext, List.append_assoc]

/-- There is no room for its NUL: the buffer is filled, and its last byte becomes a NUL. -/
theorem stringAppend_cut (hroom : before.length < orig.length) (hold : old.length ≤ 1)
    (htext : text.bytes = before.bytes ++ src.bytes) (hcut : orig.length ≤ text.length) :
    stringAppend orig.length ⟨store 0 (before.bytes ++ old) orig, some before.length⟩ src =
      some (written orig text) := by
  have hlen := text_length htext
  have hsub : sizeSub orig.length before.length = orig.length - before.length :=
    if_pos hroom.le
  have hfull : orig.length - before.length ≤ src.length := by omega
  have hcopy := memccpy_full src.nulFree [0] hfull
    (show before.length + (orig.length - before.length) ≤
        (store 0 (before.bytes ++ old) orig).length by
      rw [store_text_length hroom hold]
      omega)
  have hcopied : before.bytes ++ src.bytes.take (orig.length - before.length) =
      text.bytes.take orig.length := by
    have hbefore : before.bytes.take orig.length = before.bytes :=
      List.take_of_length_le hroom.le
    rw [htext, List.take_append, hbefore]
    rfl
  have hdata : (text.bytes.take orig.length).length = orig.length := by
    rw [List.length_take, ← CStr.length]
    omega
  unfold stringAppend
  simp only [if_neg (show before.length ≠ orig.length by omega), hsub, CStr.memory]
  rw [hcopy, store_text _ (by rw [List.length_take, ← CStr.length]; omega), hcopied]
  simp only [Option.bind_eq_bind, Option.bind_some,
    terminate_full (Nat.lt_of_le_of_lt (Nat.zero_le _) hroom) hdata, List.take_take,
    Nat.min_eq_left (Nat.sub_le orig.length 1), written, Nat.min_eq_right hcut]
  rfl

/-- **A call with room for a byte at least**: what the buffer holds up to the pointer stays, and
what it holds from there on, a NUL at most, is written over. -/
theorem stringAppend_room (hroom : before.length < orig.length) (hold : old.length ≤ 1)
    (htext : text.bytes = before.bytes ++ src.bytes) :
    stringAppend orig.length ⟨store 0 (before.bytes ++ old) orig, some before.length⟩ src =
      some (written orig text) := by
  by_cases hfits : text.length < orig.length
  · exact stringAppend_fits hold htext hfits
  · exact stringAppend_cut hroom hold htext (Nat.le_of_not_lt hfits)

end Room

theorem stringAppend_first {orig : Bytes} (horig : 0 < orig.length) (src : CStr) :
    stringAppend orig.length ⟨orig, some 0⟩ src = some (written orig src) := by
  have hnothing : store 0 ((concat []).bytes ++ []) orig = orig := store_nil 0 orig
  have hroom : stringAppend orig.length
      ⟨store 0 ((concat []).bytes ++ []) orig, some (concat []).length⟩ src =
        some (written orig src) :=
    stringAppend_room horig (Nat.zero_le 1) rfl
  rwa [hnothing] at hroom

/-- **One call appends**, whether the buffer is full or not. -/
theorem stringAppend_written {orig : Bytes} {before src text : CStr}
    (htext : text.bytes = before.bytes ++ src.bytes) :
    stringAppend orig.length (written orig before) src = some (written orig text) := by
  by_cases hroom : before.length < orig.length
  · have hbefore : written orig before =
        ⟨store 0 (before.bytes ++ [0]) orig, some before.length⟩ := by
      rw [written, truncate_of_lt hroom, CStr.memory, Nat.min_eq_left hroom.le]
    rw [hbefore]
    exact stringAppend_room hroom (Nat.le_refl 1) htext
  · have hfull : orig.length ≤ before.length := Nat.le_of_not_lt hroom
    have hlen : before.length ≤ text.length := by
      rw [CStr.length, CStr.length, htext, List.length_append]
      omega
    have htrunc : truncate orig.length text = truncate orig.length before :=
      truncate_full hfull ⟨src.bytes, htext.symm⟩
    unfold stringAppend written
    simp only [htrunc, Nat.min_eq_right hfull, Nat.min_eq_right (hfull.trans hlen), if_true]

/-! ## All the calls -/

/-- **Calls on a buffer that holds a string** append to it. -/
theorem stringAppends_written (orig : Bytes) (srcs : List CStr) :
    ∀ before : List CStr, stringAppends orig.length (written orig (concat before)) srcs =
      some (written orig (concat (before ++ srcs))) := by
  induction srcs with
  | nil =>
    intro before
    rw [List.append_nil]
    rfl
  | cons src srcs ih =>
    intro before
    have hfirst : stringAppend orig.length (written orig (concat before)) src =
        some (written orig (concat (before ++ [src]))) :=
      stringAppend_written (by rw [concat_append]; simp [concat])
    rw [stringAppends, List.foldlM_cons, hfirst]
    have hrest := ih (before ++ [src])
    rwa [List.append_assoc, List.singleton_append] at hrest

/-- **What a chain of calls leaves**: the buffer with the strings one after the other. -/
theorem stringAppends_eq {orig : Bytes} (horig : 0 < orig.length) {srcs : List CStr}
    (hsrcs : srcs ≠ []) :
    stringAppends orig.length ⟨orig, some 0⟩ srcs = some (written orig (concat srcs)) := by
  cases srcs with
  | nil => exact absurd rfl hsrcs
  | cons src srcs =>
    have hone : concat [src] = src := CStr.eq_iff.2 (by simp [concat])
    have hrest := stringAppends_written orig srcs [src]
    rw [hone] at hrest
    rw [stringAppends, List.foldlM_cons, stringAppend_first horig]
    exact hrest

/-- What a buffer with a string looks like: the memory of as much of it as fits, and the pointer. -/
theorem written_spec {orig : Bytes} (horig : 0 < orig.length) (text : CStr) :
    ∃ buf ptr, written orig text = ⟨buf, some ptr⟩ ∧ buf.length = orig.length ∧
      (truncate orig.length text).memory <+: buf ∧
      (ptr = orig.length ↔ truncate orig.length text ≠ text) ∧
      (ptr ≠ orig.length → ptr = text.length ∧ buf[ptr]? = some 0) := by
  have hlen : (truncate orig.length text).memory.length =
      min text.length (orig.length - 1) + 1 := by
    rw [CStr.memory_length, CStr.length, truncate, List.length_take, Nat.min_comm]
    rfl
  have hbegins : (truncate orig.length text).memory <+:
      store 0 (truncate orig.length text).memory orig := ⟨_, rfl⟩
  refine ⟨_, _, rfl, store_length (by omega), hbegins, ?_, ?_⟩
  · constructor
    · intro hend
      exact truncate_ne horig (by omega)
    · intro hne
      have hfull : ¬ text.length < orig.length := fun hlt => hne (truncate_of_lt hlt)
      omega
  · intro hne
    have hlt : text.length < orig.length := by omega
    rw [Nat.min_eq_left hlt.le]
    refine ⟨rfl, ?_⟩
    obtain ⟨rest, hrest⟩ := hbegins
    rw [← hrest, truncate_of_lt hlt, CStr.memory, CStr.length, List.append_assoc,
      List.getElem?_append_right (Nat.le_refl _), Nat.sub_self]
    rfl

/-- **Chained calls of `string_append` concatenate and truncate**: they are defined, so that none
of them reads or writes outside of the buffer; the pointer is `end` if something is missing, and
else as far as the concatenation is long; and after a call at least, the buffer holds the
concatenation, or as many of its bytes as there is room for before the NUL, and a pointer that is
not `end` points at the NUL. -/
theorem string_append_truncates (buf : Bytes) (hbuf : 1 ≤ buf.length) (srcs : List CStr) :
    ∃ buf' ptr, stringAppends buf.length ⟨buf, some 0⟩ srcs = some ⟨buf', some ptr⟩ ∧
      buf'.length = buf.length ∧
      (ptr = buf.length ↔ truncate buf.length (concat srcs) ≠ concat srcs) ∧
      (ptr ≠ buf.length → ptr = (concat srcs).length) ∧
      (srcs ≠ [] → (truncate buf.length (concat srcs)).memory <+: buf' ∧
        (ptr ≠ buf.length → buf'[ptr]? = some 0)) := by
  by_cases hsrcs : srcs = []
  · subst hsrcs
    refine ⟨buf, 0, rfl, rfl, ?_, fun _ => rfl, fun hne => absurd rfl hne⟩
    have hwhole : truncate buf.length (concat []) = concat [] := truncate_of_lt hbuf
    constructor
    · intro hend
      omega
    · intro hne
      exact absurd hwhole hne
  · obtain ⟨buf', ptr, hwritten, hlen, hholds, hend, hnul⟩ := written_spec hbuf (concat srcs)
    refine ⟨buf', ptr, ?_, hlen, hend, fun hne => (hnul hne).1, fun _ => ⟨hholds, ?_⟩⟩
    · rw [stringAppends_eq hbuf hsrcs, hwritten]
    · intro hne
      exact (hnul hne).2

/-- Strings that fill three bytes, and whose NUL has no room. -/
theorem string_append_truncates_three :
    stringAppends 3 ⟨[7, 7, 7], some 0⟩ [.ofAscii "a", .ofAscii "bc", .ofAscii ""] =
        some ⟨[97, 98, 0], some 3⟩ ∧
      truncate 3 (concat [.ofAscii "a", .ofAscii "bc", .ofAscii ""]) ≠
        concat [.ofAscii "a", .ofAscii "bc", .ofAscii ""] := by
  have hcomputed : stringAppends 3 ⟨[7, 7, 7], some 0⟩
      [.ofAscii "a", .ofAscii "bc", .ofAscii ""] = some ⟨[97, 98, 0], some 3⟩ := by decide
  obtain ⟨buf', ptr, happended, -, hend, -⟩ := string_append_truncates [7, 7, 7] (by decide)
    [.ofAscii "a", .ofAscii "bc", .ofAscii ""]
  have heq : (⟨[97, 98, 0], some 3⟩ : Cursor) = ⟨buf', some ptr⟩ :=
    Option.some.inj (hcomputed.symm.trans happended)
  cases heq
  exact ⟨hcomputed, hend.1 rfl⟩

/-! ## The names of events -/

/-- The events in the order `events_to_string` tests them, with their names. -/
def eventNames : List (Int16 × CStr) :=
  [(32, .ofAscii "POLLNVAL"), (8, .ofAscii "POLLERR"), (16, .ofAscii "POLLHUP"),
    (8192, .ofAscii "POLLRDHUP"), (2, .ofAscii "POLLPRI"), (Events.pollIn, .ofAscii "POLLIN"),
    (4, .ofAscii "POLLOUT")]

def comma : CStr := .ofAscii ","

/-- `append_event`; the pointer is compared with the beginning of the buffer. -/
def appendEvent (sz : Nat) (dst : Cursor) (event : CStr) : Option Cursor := do
  let dst ← if dst.ptr.any (0 < ·) then stringAppend sz dst comma else some dst
  stringAppend sz dst event

/-- `events_to_string`; the inner value is what it returns, none for `NULL`. -/
def eventsToString (callocOk : Bool) (events : Int16) : Option (Option Bytes) :=
  if !callocOk then some none
  else do
    let dst ← eventNames.foldlM
      (fun dst name => if events &&& name.1 ≠ 0 then appendEvent 128 dst name.2 else some dst)
      ⟨List.replicate 128 0, some 0⟩
    some (some dst.buf)

/-- The names of the events that are set. -/
def namesOf (events : Int16) : List CStr :=
  (eventNames.filter fun name => decide (events &&& name.1 ≠ 0)).map Prod.snd

/-- The names, with commas between them. -/
def commaSeparated (names : List CStr) : CStr := concat (names.intersperse comma)

/-- The buffer after some of the names. -/
def listed (orig : Bytes) (names : List CStr) : Cursor :=
  if names = [] then ⟨orig, some 0⟩ else written orig (commaSeparated names)

theorem intersperse_concat {α : Type} (sep a : α) {l : List α} (hl : l ≠ []) :
    (l ++ [a]).intersperse sep = l.intersperse sep ++ [sep, a] := by
  induction l with
  | nil => exact absurd rfl hl
  | cons b l ih =>
    cases l with
    | nil => rfl
    | cons c l =>
      have hrest := ih (List.cons_ne_nil c l)
      simp only [List.cons_append, List.intersperse] at hrest ⊢
      rw [hrest]

theorem commaSeparated_concat {names : List CStr} (hnames : names ≠ []) (event : CStr) :
    (commaSeparated (names ++ [event])).bytes =
      (concat (names.intersperse comma ++ [comma])).bytes ++ event.bytes := by
  have hone : (concat [event]).bytes = event.bytes := by simp [concat]
  rw [commaSeparated, intersperse_concat comma event hnames, ← hone, ← concat_append,
    List.append_assoc]
  rfl

theorem commaSeparated_length (name : CStr) (names : List CStr) :
    (commaSeparated (name :: names)).length =
      name.length + if names = [] then 0 else (commaSeparated names).length + 1 := by
  cases names with
  | nil => simp [commaSeparated, concat, CStr.length]
  | cons name' names =>
    have hcomma : comma.bytes.length = 1 := by decide
    simp only [commaSeparated, concat, CStr.length, List.intersperse, List.flatMap_cons,
      List.length_append, hcomma, if_neg (List.cons_ne_nil name' names)]
    omega

theorem commaSeparated_le {k : Nat} {names : List CStr} (hnames : ∀ name ∈ names, name.length ≤ k) :
    (commaSeparated names).length ≤ names.length * (k + 1) := by
  induction names with
  | nil => exact Nat.zero_le _
  | cons name names ih =>
    obtain ⟨hname, hnames⟩ := List.forall_mem_cons.1 hnames
    have hrest := ih hnames
    rw [commaSeparated_length, List.length_cons, Nat.add_mul]
    split <;> omega

/-- **One name** is appended, after a comma unless it is the first one. -/
theorem appendEvent_listed {orig : Bytes} (horig : 0 < orig.length) {names : List CStr}
    (hnames : ∀ name ∈ names, 0 < name.length) (event : CStr) :
    appendEvent orig.length (listed orig names) event = some (listed orig (names ++ [event])) := by
  unfold appendEvent listed
  by_cases hnil : names = []
  · subst hnil
    have hone : commaSeparated [event] = event := CStr.eq_iff.2 (by simp [commaSeparated, concat])
    simpa [hone] using stringAppend_first horig event
  · have hpos : 0 < (commaSeparated names).length := by
      obtain ⟨name, rest, rfl⟩ := List.exists_cons_of_ne_nil hnil
      have hname := hnames name List.mem_cons_self
      rw [commaSeparated_length]
      omega
    have hcomma : stringAppend orig.length (written orig (commaSeparated names)) comma =
        some (written orig (concat (names.intersperse comma ++ [comma]))) :=
      stringAppend_written (by rw [concat_append]; simp [concat, commaSeparated])
    have htext : (commaSeparated (names ++ [event])).bytes = _ := commaSeparated_concat hnil event
    have hany : (written orig (commaSeparated names)).ptr.any (0 < ·) = true :=
      decide_eq_true (Nat.lt_min.2 ⟨hpos, horig⟩)
    have hnext : names ++ [event] ≠ [] := by simp
    rw [if_neg hnil, if_pos hany, if_neg hnext, hcomma]
    exact stringAppend_written htext

/-- **Any number of names** is appended. -/
theorem appendEvents_listed {orig : Bytes} (horig : 0 < orig.length) (names : List CStr) :
    ∀ before : List CStr, (∀ name ∈ before ++ names, 0 < name.length) →
      names.foldlM (appendEvent orig.length) (listed orig before) =
        some (listed orig (before ++ names)) := by
  induction names with
  | nil =>
    intro before _
    rw [List.append_nil]
    rfl
  | cons name names ih =>
    intro before hnames
    have hbefore : ∀ name ∈ before, 0 < name.length := fun name hmem =>
      hnames name (List.mem_append_left _ hmem)
    rw [List.append_cons] at hnames ⊢
    rw [List.foldlM_cons, appendEvent_listed horig hbefore]
    exact ih (before ++ [name]) hnames

theorem listed_zeros {n : Nat} {names : List CStr} (hn : (commaSeparated names).length < n) :
    (listed (List.replicate n 0) names).buf.length = n ∧
      (commaSeparated names).memory <+: (listed (List.replicate n 0) names).buf := by
  have hpos : 0 < (List.replicate n (0 : UInt8)).length := by
    rw [List.length_replicate]
    omega
  unfold listed
  by_cases hnil : names = []
  · subst hnil
    rw [if_pos rfl]
    refine ⟨List.length_replicate, ?_⟩
    obtain ⟨k, rfl⟩ : ∃ k, n = k + 1 := ⟨n - 1, by omega⟩
    exact ⟨List.replicate k 0, rfl⟩
  · obtain ⟨buf, ptr, hwritten, hlen, hholds, -⟩ := written_spec hpos (commaSeparated names)
    rw [List.length_replicate] at hlen hholds
    rw [truncate_of_lt hn] at hholds
    rw [if_neg hnil, hwritten]
    exact ⟨hlen, hholds⟩

/-- **`events_to_string` names the events**, and its buffer has room for all of the names. -/
theorem eventsToString_names (events : Int16) :
    ∃ buf, eventsToString true events = some (some buf) ∧ buf.length = 128 ∧
      (commaSeparated (namesOf events)).memory <+: buf := by
  have hmem : ∀ name ∈ namesOf events, 0 < name.length ∧ name.length ≤ 9 := by
    have hall : ∀ name ∈ eventNames, 0 < name.2.length ∧ name.2.length ≤ 9 := by decide
    intro name hname
    obtain ⟨named, hnamed, rfl⟩ := List.mem_map.1 hname
    exact hall named (List.mem_of_mem_filter hnamed)
  have hshort : (commaSeparated (namesOf events)).length < 128 := by
    have hle := commaSeparated_le fun name hname => (hmem name hname).2
    have hseven : (namesOf events).length ≤ 7 := by
      rw [namesOf, List.length_map]
      exact List.length_filter_le _ _
    omega
  have hfold := appendEvents_listed (show 0 < (List.replicate 128 (0 : UInt8)).length by simp)
    (namesOf events) [] fun name hname => (hmem name hname).1
  rw [List.nil_append, namesOf, List.foldlM_map, List.foldlM_filter, ← namesOf] at hfold
  simp only [List.length_replicate, decide_eq_true_eq] at hfold
  refine ⟨_, ?_, listed_zeros hshort⟩
  unfold eventsToString
  rw [if_neg (by decide), show (⟨List.replicate 128 0, some 0⟩ : Cursor) =
    listed (List.replicate 128 0) [] from rfl]
  exact congrArg (fun dst => dst.bind fun dst => some (some dst.buf)) hfold

end Cimple.Strings
