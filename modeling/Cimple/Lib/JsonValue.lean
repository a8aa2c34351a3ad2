import Cimple.Lib.Octets

/-!
# JSON values with keyed objects

Values as a C library keeps them: strings are byte strings of known length (a NUL may stand
inside one), object keys are C strings, and an object is an ordered list of members.

* `Json.get?` — the member under a key; anything but an object has none.
* `Json.add` — set a member: replaced in place if the key is there, appended otherwise.
-/

set_option autoImplicit false

namespace JsonValue

open Octets

inductive Json where
  | null
  | bool (b : Bool)
  | int (n : Int)
  | double (text : Bytes)
  | string (s : Bytes)
  | array (elems : List Json)
  | object (members : List (CStr × Json))
  deriving Repr

/-- The member of a list under a key. -/
def lookup (key : CStr) : List (CStr × Json) → Option Json
  | [] => none
  | (k, v) :: ms => if k = key then some v else lookup key ms

/-- The list with the member under a key set. -/
def setMember (key : CStr) (value : Json) : List (CStr × Json) → List (CStr × Json)
  | [] => [(key, value)]
  | (k, v) :: ms => if k = key then (k, value) :: ms else (k, v) :: setMember key value ms

/-- The member of a value under a key. -/
def Json.get? (obj : Json) (key : CStr) : Option Json :=
  match obj with
  | .object ms => lookup key ms
  | _ => none

/-- An object with the member under a key set; other values have no members to set. -/
def Json.add (obj : Json) (key : CStr) (value : Json) : Option Json :=
  match obj with
  | .object ms => some (.object (setMember key value ms))
  | _ => none

end JsonValue
