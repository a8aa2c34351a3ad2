import Cimple.Lib.JsonValue
import Cimple.Net

/-!
# The JSON layer (`json.c`)

The functions over json-c values.  Each check of the source that logs and returns a negative
value is a constructor of `JsonErr`, which carries the key its message names; a function that
returns a negative value returns `Except.error`.

json-c itself is not part of the repository: an object member is read and set by
`Json.get?` and `Json.add`, `json_object_deep_copy` copies, and the text of a value is the
parameter `toText` of `libjsonSend`.  Allocations succeed here.
-/

set_option autoImplicit false

namespace Cimple.Json

open Octets JsonValue

/-- The failing checks, one for each message. -/
inductive JsonErr where
  /-- `JSON: key is missing: %s` -/
  | keyMissing (key : CStr)
  /-- `JSON: key is not a string: %s` -/
  | notString (key : CStr)
  /-- `JSON: key is not an integer: %s` -/
  | notInt (key : CStr)
  /-- `JSON: failed to parse integer from key: %s` -/
  | intRange (key : CStr)
  /-- A member set in something that is not an object, an element appended to something that
  is not an array: json-c asserts. -/
  | assertion
  /-- `JSON-RPC: invalid '%s' value: %s` -/
  | badVersion (value : CStr)
  /-- `JSON-RPC: key '%s' must be either an integer or a string` -/
  | badIdType
  /-- `JSON-RPC: key '%s' must be either an object or an array` -/
  | badParamsType
  /-- `JSON-RPC: key is missing or not an integer: %s` -/
  | badErrorCode
  /-- `JSON-RPC: key is missing or not a string: %s` -/
  | badErrorMessage
  /-- `JSON-RPC: either '%s' or '%s' must be present` -/
  | noResultOrError
  /-- `Couldn't parse base64-encoded string` -/
  | badBase64
  deriving DecidableEq, Repr

/-- The range of an `int64_t`. -/
def InInt64 (n : Int) : Prop := -9223372036854775808 ≤ n ∧ n < 9223372036854775808

instance (n : Int) : Decidable (InInt64 n) := inferInstanceAs (Decidable (_ ∧ _))

theorem inInt64_toInt (n : Int32) : InInt64 n.toInt := by
  have h₁ := n.le_toInt
  have h₂ := n.toInt_lt
  unfold InInt64
  omega

/-! ## Reading -/

/-- `libjson_has`. -/
def libjsonHas (obj : Json) (key : CStr) : Bool := (obj.get? key).isSome

/-- `libjson_get`. -/
def libjsonGet (obj : Json) (key : CStr) : Except JsonErr Json :=
  match obj.get? key with
  | none => .error (.keyMissing key)
  | some value => .ok value

/-- `libjson_get_string`: the string as a `const char*`, so up to its first NUL. -/
def libjsonGetString (obj : Json) (key : CStr) : Except JsonErr CStr :=
  match libjsonGet obj key with
  | .error e => .error e
  | .ok (.string s) => .ok (CStr.ofBytes s)
  | .ok _ => .error (.notString key)

/-- `libjson_get_int`: json-c sets `errno` for an integer outside `int64_t`. -/
def libjsonGetInt (obj : Json) (key : CStr) : Except JsonErr Int :=
  match libjsonGet obj key with
  | .error e => .error e
  | .ok (.int n) => if InInt64 n then .ok n else .error (.intRange key)
  | .ok _ => .error (.notInt key)

/-- `libjson_clone`: a deep copy is the same value. -/
def libjsonClone (obj : Json) (key : CStr) : Except JsonErr Json := libjsonGet obj key

/-! ## Writing -/

/-- `libjson_new_object`. -/
def libjsonNewObject : Json := .object []

/-- `libjson_new_array`. -/
def libjsonNewArray : Json := .array []

/-- `libjson_set` and `libjson_set_const_key`: the flag is about the key's memory only. -/
def libjsonSet (obj : Json) (key : CStr) (value : Json) : Except JsonErr Json :=
  match obj.add key value with
  | none => .error .assertion
  | some obj' => .ok obj'

/-- `libjson_set_string`. -/
def libjsonSetString (obj : Json) (key value : CStr) : Except JsonErr Json :=
  libjsonSet obj key (.string value.bytes)

/-- `libjson_set_int`; the integer is an `int64_t`. -/
def libjsonSetInt (obj : Json) (key : CStr) (value : Int) : Except JsonErr Json :=
  libjsonSet obj key (.int value)

/-- `libjson_append`. -/
def libjsonAppend (arr elem : Json) : Except JsonErr Json :=
  match arr with
  | .array elems => .ok (.array (elems ++ [elem]))
  | _ => .error .assertion

/-! ## The text of a value on the wire -/

/-- `libjson_send`: the text and its NUL in one frame. -/
def libjsonSend (toText : Json → CStr) (o : ByteOrder) (answers : List ByteStream.WriteAns)
    (obj : Json) : ByteStream.Written :=
  Net.netSendBuf o answers (Net.bufCreateFromString (toText obj))

/-! ## Laws -/

theorem bind_ok {ε α β : Type} {x : Except ε α} {f : α → Except ε β} {b : β} :
    (x >>= f) = .ok b ↔ ∃ a, x = .ok a ∧ f a = .ok b := by
  cases x <;> simp [bind, Except.bind]

theorem libjsonGet_ok {obj v : Json} {key : CStr} :
    libjsonGet obj key = .ok v ↔ obj.get? key = some v := by
  unfold libjsonGet
  cases obj.get? key <;> simp

theorem libjsonGetString_ok {obj : Json} {key s : CStr} :
    libjsonGetString obj key = .ok s ↔
      ∃ b, obj.get? key = some (.string b) ∧ CStr.ofBytes b = s := by
  unfold libjsonGetString libjsonGet
  cases obj.get? key with
  | none => simp
  | some v => cases v <;> simp

theorem libjsonGetInt_ok {obj : Json} {key : CStr} {n : Int} :
    libjsonGetInt obj key = .ok n ↔ obj.get? key = some (.int n) ∧ InInt64 n := by
  unfold libjsonGetInt libjsonGet
  cases obj.get? key with
  | none => simp
  | some v =>
    cases v with
    | int m =>
      simp only [Option.some.injEq, Json.int.injEq]
      split
      · rename_i h
        simp only [Except.ok.injEq]
        exact ⟨by rintro rfl; exact ⟨rfl, h⟩, fun h => h.1⟩
      · rename_i h
        simp only [reduceCtorEq, false_iff, not_and]
        rintro rfl
        exact h
    | _ => simp

end Cimple.Json
