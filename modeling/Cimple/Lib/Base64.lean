import Cimple.Lib.Octets

/-!
# Padded base64

* `encode` — the standard alphabet, three bytes to four characters, `=` padding.
* `decode` — the inverse on well-formed text; misplaced or missing padding, characters outside
  the alphabet and non-zero trailing bits are rejected.
* `decodeInto` — decoding into a buffer of a given capacity, which fails when it is exceeded.

Principal results: `decode_encode`, `encode_length`, `encode_nulFree` and
`decodeInto_encode` (a capacity of three bytes for every four characters is enough).
-/

set_option autoImplicit false

namespace Base64

open Octets

/-- The alphabet of the original variant. -/
def alphabet : Bytes :=
  "ABCDEFGHIJKLMNOPQRSTUVWXYZabcdefghijklmnopqrstuvwxyz0123456789+/".toList.map
    fun c => c.toNat.toUInt8

/-- The padding character `=`. -/
def pad : UInt8 := 61

/-- The character of a 6-bit value. -/
def digit (n : Nat) : UInt8 := alphabet.getD n pad

/-- The 6-bit value of a character. -/
def value (c : UInt8) : Option Nat :=
  if alphabet.idxOf c < 64 then some (alphabet.idxOf c) else none

theorem alphabet_eq : alphabet =
    (List.range' 65 26 ++ List.range' 97 26 ++ List.range' 48 10 ++ [43, 47]).map UInt8.ofNat := by
  decide +kernel

theorem value_digit_all : ∀ n < 64, value (digit n) = some n := by
  simp only [value, digit, alphabet_eq]
  decide +kernel

theorem value_pad : value pad = none := by
  simp only [value, alphabet_eq]
  decide +kernel

theorem value_digit {n : Nat} (h : n < 64) : value (digit n) = some n := value_digit_all n h

theorem digit_ne_pad {n : Nat} (h : n < 64) : digit n ≠ pad := by
  intro e
  have hv := value_digit h
  rw [e] at hv
  rw [value_pad] at hv
  cases hv

theorem digit_ne_zero (n : Nat) : digit n ≠ 0 := by
  unfold digit
  rw [List.getD_eq_getElem?_getD]
  cases h : alphabet[n]? with
  | none => decide
  | some c =>
    have hall : ∀ c ∈ alphabet, c ≠ 0 := by
      rw [alphabet_eq]
      decide +kernel
    exact hall c (List.mem_of_getElem? h)

/-! ## Encoding -/

def encode : Bytes → Bytes
  | [] => []
  | [a] => [digit (a.toNat / 4), digit (a.toNat % 4 * 16), pad, pad]
  | [a, b] =>
    [digit (a.toNat / 4), digit (a.toNat % 4 * 16 + b.toNat / 16), digit (b.toNat % 16 * 4), pad]
  | a :: b :: c :: rest =>
    digit (a.toNat / 4) :: digit (a.toNat % 4 * 16 + b.toNat / 16) ::
      digit (b.toNat % 16 * 4 + c.toNat / 64) :: digit (c.toNat % 64) :: encode rest

theorem encode_length (s : Bytes) : (encode s).length = (s.length + 2) / 3 * 4 := by
  fun_induction encode s with
  | case1 | case2 | case3 => simp
  | case4 a b c rest ih => simp only [List.length_cons, ih]; omega

/-- Encoded text has no NUL in it. -/
theorem encode_nulFree (s : Bytes) : (0 : UInt8) ∉ encode s := by
  have hpad : (0 : UInt8) ≠ pad := by decide
  have hdigit : ∀ n, (0 : UInt8) ≠ digit n := fun n => (digit_ne_zero n).symm
  fun_induction encode s with
  | case1 => simp
  | case2 => simp [hpad, hdigit]
  | case3 => simp [hpad, hdigit]
  | case4 a b c rest ih => simp [hdigit, ih]

/-! ## Decoding -/

/-- A last group with two padding characters: one byte. -/
def decodeOne (a b : UInt8) : Option Bytes :=
  match value a, value b with
  | some w, some x => if x % 16 = 0 then some [UInt8.ofNat (w * 4 + x / 16)] else none
  | _, _ => none

/-- A last group with one padding character: two bytes. -/
def decodeTwo (a b c : UInt8) : Option Bytes :=
  match value a, value b, value c with
  | some w, some x, some y =>
    if y % 4 = 0 then some [UInt8.ofNat (w * 4 + x / 16), UInt8.ofNat (x % 16 * 16 + y / 4)]
    else none
  | _, _, _ => none

def decode : Bytes → Option Bytes
  | [] => some []
  | a :: b :: c :: d :: rest =>
    if d = pad ∧ rest = [] then
      if c = pad then decodeOne a b else decodeTwo a b c
    else
      match value a, value b, value c, value d with
      | some w, some x, some y, some z =>
        (decode rest).map fun out =>
          UInt8.ofNat (w * 4 + x / 16) :: UInt8.ofNat (x % 16 * 16 + y / 4) ::
            UInt8.ofNat (y % 4 * 64 + z) :: out
      | _, _, _, _ => none
  | _ => none

theorem ofNat_eq {b : UInt8} {n : Nat} (h : n = b.toNat) : UInt8.ofNat n = b := by
  subst h; simp

theorem decode_one (a b : UInt8) : decode [a, b, pad, pad] = decodeOne a b := by
  rw [decode, if_pos ⟨rfl, rfl⟩, if_pos rfl]

theorem decode_two (a b : UInt8) {c : UInt8} (hc : c ≠ pad) :
    decode [a, b, c, pad] = decodeTwo a b c := by
  rw [decode, if_pos ⟨rfl, rfl⟩, if_neg hc]

theorem decode_group {a b c d : UInt8} {w x y z : Nat} (hd : d ≠ pad) (ha : value a = some w)
    (hb : value b = some x) (hc : value c = some y) (hz : value d = some z) (rest : Bytes) :
    decode (a :: b :: c :: d :: rest) = (decode rest).map fun out =>
      UInt8.ofNat (w * 4 + x / 16) :: UInt8.ofNat (x % 16 * 16 + y / 4) ::
        UInt8.ofNat (y % 4 * 64 + z) :: out := by
  rw [decode, if_neg fun h => hd h.1, ha, hb, hc, hz]

/-- **Decoding undoes encoding.** -/
theorem decode_encode (s : Bytes) : decode (encode s) = some s := by
  fun_induction encode s with
  | case1 => rfl
  | case2 a =>
    have ha := a.toNat_lt
    rw [decode_one, decodeOne, value_digit (by omega), value_digit (by omega)]
    simp only
    rw [if_pos (by omega), ofNat_eq (b := a) (by omega)]
  | case3 a b =>
    have ha := a.toNat_lt
    have hb := b.toNat_lt
    rw [decode_two _ _ (digit_ne_pad (by omega)), decodeTwo, value_digit (by omega),
      value_digit (by omega), value_digit (by omega)]
    simp only
    rw [if_pos (by omega), ofNat_eq (b := a) (by omega), ofNat_eq (b := b) (by omega)]
  | case4 a b c rest ih =>
    have ha := a.toNat_lt
    have hb := b.toNat_lt
    have hc := c.toNat_lt
    rw [decode_group (digit_ne_pad (by omega)) (value_digit (by omega)) (value_digit (by omega))
      (value_digit (by omega)) (value_digit (by omega)), ih, Option.map_some,
      ofNat_eq (b := a) (by omega), ofNat_eq (b := b) (by omega), ofNat_eq (b := c) (by omega)]

/-- Decoding into a buffer of `capacity` bytes. -/
def decodeInto (capacity : Nat) (text : Bytes) : Option Bytes :=
  (decode text).filter fun out => out.length ≤ capacity

/-- **Three bytes for every four characters are enough room for any encoded text.** -/
theorem decodeInto_encode (s : Bytes) :
    decodeInto ((encode s).length / 4 * 3) (encode s) = some s := by
  rw [decodeInto, decode_encode, encode_length, Option.filter_some]
  rw [if_pos (by simp only [decide_eq_true_eq]; omega)]

end Base64
