import Mathlib.Data.List.Basic

/-!
# Blocks of memory

A block is the list of what it holds, from its first element on.

* `resize` — `realloc`: what fits is kept, and new memory holds anything.
* `store` — writing into a block, from an offset on; `put` — one element, if it is in the block.
* `memccpy` — copying up to and including an element, and not more than so many elements.

Principal results: `resize_take` and `store_take`, which say what a block begins with;
`store_store`, what two writes leave; `memccpy_found` and `memccpy_full`, what copying writes.
-/

set_option autoImplicit false

namespace Buffer

variable {α : Type}

/-- A block of `n` elements that begins as `buf` does; `junk` is what new memory holds. -/
def resize (junk : Nat → α) (n : Nat) (buf : List α) : List α :=
  buf.take n ++ ((List.range n).map junk).drop buf.length

/-- A block with `data` written into it from `off` on. -/
def store (off : Nat) (data buf : List α) : List α :=
  buf.take off ++ data ++ buf.drop (off + data.length)

/-- Writing one element; undefined outside of the block. -/
def put (i : Nat) (a : α) (buf : List α) : Option (List α) :=
  if i < buf.length then some (store i [a] buf) else none

/-- `memccpy`: elements of `src` are written from `off` on, up to the first `c` and `n` at most.
What is left is the block and, if a `c` has been written, the offset after it; it is undefined to
read past the end of `src`. -/
def memccpy [DecidableEq α] (c : α) : (n off : Nat) → (src buf : List α) →
    Option (List α × Option Nat)
  | 0, _, _, buf => some (buf, none)
  | _ + 1, _, [], _ => none
  | n + 1, off, a :: src, buf => do
    let buf ← put off a buf
    if a = c then some (buf, some (off + 1)) else memccpy c n (off + 1) src buf

@[simp] theorem resize_length (junk : Nat → α) (n : Nat) (buf : List α) :
    (resize junk n buf).length = n := by
  simp only [resize, List.length_append, List.length_take, List.length_drop, List.length_map,
    List.length_range]
  omega

/-- **Resizing keeps the beginning.** -/
theorem resize_take (junk : Nat → α) {k n : Nat} {buf : List α} (hk : k ≤ buf.length)
    (hn : k ≤ n) : (resize junk n buf).take k = buf.take k := by
  unfold resize
  rw [List.take_append_of_le_length (by rw [List.length_take]; omega), List.take_take,
    Nat.min_eq_left hn]

/-- **What is written comes after what was there.** -/
theorem store_take {off : Nat} (data : List α) {buf : List α} (h : off ≤ buf.length) :
    (store off data buf).take (off + data.length) = buf.take off ++ data := by
  have hlen : (buf.take off ++ data).length = off + data.length := by
    rw [List.length_append, List.length_take, Nat.min_eq_left h]
  unfold store
  rw [← hlen, List.take_left]

/-! ## Writing more than once -/

@[simp] theorem store_length {off : Nat} {data buf : List α} (h : off + data.length ≤ buf.length) :
    (store off data buf).length = buf.length := by
  simp only [store, List.length_append, List.length_take, List.length_drop]
  omega

@[simp] theorem store_nil (off : Nat) (buf : List α) : store off [] buf = buf := by
  simp [store]

/-- **What is written over**: of two writes the second one stays, and of the first what comes
before it. -/
theorem store_store {off k : Nat} {data more buf : List α} (hoff : off ≤ buf.length)
    (hk : k ≤ data.length) (hmore : data.length ≤ k + more.length) :
    store (off + k) more (store off data buf) = store off (data.take k ++ more) buf := by
  have htake : (buf.take off).length = off := by rw [List.length_take, Nat.min_eq_left hoff]
  have hbefore : (store off data buf).take (off + k) = buf.take off ++ data.take k := by
    rw [store, List.append_assoc, List.take_append, htake, Nat.add_sub_cancel_left,
      List.take_of_length_le (by omega), List.take_append_of_le_length hk]
  have hafter : (store off data buf).drop (off + k + more.length) =
      buf.drop (off + (data.take k ++ more).length) := by
    have hlen : (buf.take off ++ data).length = off + data.length := by
      rw [List.length_append, htake]
    rw [store, List.drop_append, List.drop_eq_nil_of_le (by omega), hlen, List.drop_drop,
      List.nil_append, List.length_append, List.length_take, Nat.min_eq_left hk]
    congr 1
    omega
  rw [store, hbefore, hafter, store, List.append_assoc]
  simp only [List.append_assoc]

theorem store_over {off : Nat} {data old more buf : List α} (hoff : off ≤ buf.length)
    (hold : old.length ≤ more.length) :
    store (off + data.length) more (store off (data ++ old) buf) =
      store off (data ++ more) buf := by
  rw [store_store hoff (by rw [List.length_append]; omega) (by rw [List.length_append]; omega),
    List.take_left]

theorem store_next {off : Nat} {data more buf : List α} (hoff : off ≤ buf.length) :
    store (off + data.length) more (store off data buf) = store off (data ++ more) buf := by
  rw [store_store hoff (Nat.le_refl _) (Nat.le_add_right _ _), List.take_length]

theorem store_cons {off : Nat} (a : α) (more : List α) {buf : List α} (h : off < buf.length) :
    store (off + 1) more (store off [a] buf) = store off (a :: more) buf := by
  have hnext : store (off + [a].length) more (store off [a] buf) = store off ([a] ++ more) buf :=
    store_next (Nat.le_of_lt h)
  exact hnext

/-! ## Copying -/

theorem put_eq {i : Nat} (a : α) {buf : List α} (h : i < buf.length) :
    put i a buf = some (store i [a] buf) := if_pos h

variable [DecidableEq α] {c : α}

theorem memccpy_cons {a : α} (hne : a ≠ c) (n : Nat) {off : Nat} (src : List α) {buf : List α}
    (hoff : off < buf.length) :
    memccpy c (n + 1) off (a :: src) buf = memccpy c n (off + 1) src (store off [a] buf) := by
  simp only [memccpy, put_eq a hoff, Option.bind_eq_bind, Option.bind_some, if_neg hne]

/-- **Copying up to a `c`** that is among the first `n` elements. -/
theorem memccpy_found {data : List α} (hc : c ∉ data) (rest : List α) :
    ∀ {n off : Nat} {buf : List α}, data.length < n → off + data.length < buf.length →
      memccpy c n off (data ++ c :: rest) buf =
        some (store off (data ++ [c]) buf, some (off + data.length + 1)) := by
  induction data with
  | nil =>
    intro n off buf hn hfits
    have hoff : off < buf.length := hfits
    cases n with
    | zero => cases hn
    | succ n => simp [memccpy, put_eq c hoff]
  | cons a data ih =>
    intro n off buf hn hfits
    rw [List.mem_cons, not_or] at hc
    rw [List.length_cons] at hn hfits
    have hoff : off < buf.length := by omega
    have hlen : (store off [a] buf).length = buf.length := store_length hoff
    cases n with
    | zero => cases hn
    | succ n =>
      rw [List.cons_append, memccpy_cons (Ne.symm hc.1) n _ hoff,
        ih hc.2 (by omega) (by rw [hlen]; omega)]
      rw [store_cons a _ hoff, List.length_cons]
      congr 3
      omega

/-- **Copying `n` elements** without a `c` among them. -/
theorem memccpy_full {data : List α} (hc : c ∉ data) (rest : List α) :
    ∀ {n off : Nat} {buf : List α}, n ≤ data.length → off + n ≤ buf.length →
      memccpy c n off (data ++ rest) buf = some (store off (data.take n) buf, none) := by
  induction data with
  | nil =>
    intro n off buf hn hfits
    obtain rfl : n = 0 := Nat.le_zero.1 hn
    simp [memccpy]
  | cons a data ih =>
    intro n off buf hn hfits
    rw [List.mem_cons, not_or] at hc
    rw [List.length_cons] at hn
    cases n with
    | zero => simp [memccpy]
    | succ n =>
      have hoff : off < buf.length := by omega
      have hlen : (store off [a] buf).length = buf.length := store_length hoff
      rw [List.cons_append, memccpy_cons (Ne.symm hc.1) n _ hoff,
        ih hc.2 (by omega) (by rw [hlen]; omega)]
      rw [store_cons a _ hoff, List.take_succ_cons]

end Buffer
