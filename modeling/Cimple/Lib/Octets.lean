import Mathlib.Data.List.TakeWhile

/-!
# Byte strings, C strings and 32-bit integers in memory

* `Bytes` — byte strings; `CStr` — the bytes of a NUL-terminated string, none of them NUL,
  so that a value *is* what `strlen`, `strcmp` and `strdup` see of a `char*`.
* `CStr.ofBytes` — a buffer read as a C string: everything before the first NUL.
* `ByteOrder`, `store32`, `load32` — a `uint32_t` as the four bytes it occupies in the memory
  of a machine of either byte order; `htonl`, `ntohl` — conversion to and from network order.

`store32_htonl` and `ntohl_load32` say that the bytes exchanged are the big-endian ones
whatever the byte orders of the two machines are.
-/

set_option autoImplicit false

namespace Octets

/-- A string of bytes. -/
abbrev Bytes := List UInt8

/-! ## C strings -/

/-- A C string: its bytes, without the terminating NUL. -/
structure CStr where
  bytes : Bytes
  nulFree : (0 : UInt8) ∉ bytes
  deriving DecidableEq, Repr

theorem CStr.eq_iff {a b : CStr} : a = b ↔ a.bytes = b.bytes := by
  cases a; cases b; simp

/-- A buffer read as a C string: everything before its first NUL. -/
def CStr.ofBytes (s : Bytes) : CStr where
  bytes := s.takeWhile (· != 0)
  nulFree h := by simpa using List.mem_takeWhile_imp h

theorem takeWhile_nulFree {s : Bytes} (h : (0 : UInt8) ∉ s) : s.takeWhile (· != 0) = s := by
  refine List.takeWhile_eq_self_iff.2 fun b hb => ?_
  have : b ≠ 0 := fun e => h (e ▸ hb)
  simpa using this

@[simp] theorem CStr.ofBytes_bytes (c : CStr) : CStr.ofBytes c.bytes = c :=
  CStr.eq_iff.2 (takeWhile_nulFree c.nulFree)

/-- The C string of an ASCII literal. -/
def CStr.ofAscii (s : String) : CStr := CStr.ofBytes (s.toList.map fun c => c.toNat.toUInt8)

/-- The memory of a C string: its bytes and the terminating NUL. -/
def CStr.memory (c : CStr) : Bytes := c.bytes ++ [0]

/-- `strlen`. -/
def CStr.length (c : CStr) : Nat := c.bytes.length

theorem CStr.memory_length (c : CStr) : c.memory.length = c.length + 1 := by
  simp [CStr.memory, CStr.length]

/-! ## 32-bit integers in memory -/

/-- The big-endian bytes of a 32-bit integer. -/
def be32 (w : UInt32) : Bytes :=
  [UInt8.ofNat (w.toNat / 16777216), UInt8.ofNat (w.toNat / 65536), UInt8.ofNat (w.toNat / 256),
    UInt8.ofNat w.toNat]

/-- The 32-bit integer denoted by four big-endian bytes. -/
def ofBe32 : Bytes → UInt32
  | [a, b, c, d] =>
    UInt32.ofNat (a.toNat * 16777216 + b.toNat * 65536 + c.toNat * 256 + d.toNat)
  | _ => 0

@[simp] theorem be32_length (w : UInt32) : (be32 w).length = 4 := rfl

@[simp] theorem ofBe32_be32 (w : UInt32) : ofBe32 (be32 w) = w := by
  apply UInt32.toNat_inj.1
  have hw := w.toNat_lt
  simp only [be32, ofBe32, UInt32.toNat_ofNat', UInt8.toNat_ofNat']
  omega

theorem be32_ofBe32 {m : Bytes} (h : m.length = 4) : be32 (ofBe32 m) = m := by
  match m, h with
  | [a, b, c, d], _ =>
    have ha := a.toNat_lt
    have hb := b.toNat_lt
    have hc := c.toNat_lt
    have hd := d.toNat_lt
    simp only [be32, ofBe32, UInt32.toNat_ofNat', List.cons.injEq, and_true]
    refine ⟨?_, ?_, ?_, ?_⟩ <;> (apply UInt8.toNat_inj.1; simp only [UInt8.toNat_ofNat']; omega)

/-- The byte order of a machine. -/
inductive ByteOrder where
  | big
  | little
  deriving DecidableEq, Repr

/-- The memory of a `uint32_t`. -/
def store32 : ByteOrder → UInt32 → Bytes
  | .big, w => be32 w
  | .little, w => (be32 w).reverse

/-- The `uint32_t` a piece of memory holds. -/
def load32 : ByteOrder → Bytes → UInt32
  | .big, m => ofBe32 m
  | .little, m => ofBe32 m.reverse

/-- `htonl`: the integer whose memory is big-endian. -/
def htonl (o : ByteOrder) (w : UInt32) : UInt32 := load32 o (be32 w)

/-- `ntohl`: the integer whose big-endian bytes are in memory. -/
def ntohl (o : ByteOrder) (w : UInt32) : UInt32 := ofBe32 (store32 o w)

@[simp] theorem store32_length (o : ByteOrder) (w : UInt32) : (store32 o w).length = 4 := by
  cases o <;> simp [store32]

theorem store32_load32 (o : ByteOrder) {m : Bytes} (h : m.length = 4) :
    store32 o (load32 o m) = m := by
  cases o with
  | big => exact be32_ofBe32 h
  | little =>
    simp only [store32, load32]
    rw [be32_ofBe32 (by simpa using h), List.reverse_reverse]

/-- A length converted by `htonl` lies in memory in network order. -/
@[simp] theorem store32_htonl (o : ByteOrder) (w : UInt32) : store32 o (htonl o w) = be32 w :=
  store32_load32 o (be32_length w)

/-- `ntohl` of four bytes read from the network. -/
theorem ntohl_load32 (o : ByteOrder) {m : Bytes} (h : m.length = 4) :
    ntohl o (load32 o m) = ofBe32 m := by
  rw [ntohl, store32_load32 o h]

end Octets
