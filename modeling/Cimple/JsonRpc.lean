import Cimple.Json

/-!
# JSON-RPC requests and responses (`json_rpc.c`)

* `jsonrpcCheck*`, `jsonrpcSet*` — the members of a message, checked and set.
* `jsonrpcRequestCreate`, `jsonrpcNotificationCreate`, `jsonrpcRequestFromJson` and the typed
  access to parameters.
* `jsonrpcResponseCreate`, `jsonrpcErrorCreate`, `jsonrpcResponseFromJson`.

A `NULL` value is the JSON value `null`, as in json-c.  A response takes its identifier from
the request it answers, so a notification cannot be answered.
-/

set_option autoImplicit false

namespace Cimple.JsonRpc

open Octets JsonValue Cimple.Json

/-- `struct jsonrpc_request`. -/
structure JsonrpcRequest where
  impl : Json

/-- `struct jsonrpc_response`. -/
structure JsonrpcResponse where
  impl : Json

/-! ## Keys -/

def jsonrpcKeyVersion : CStr := .ofAscii "jsonrpc"
def jsonrpcKeyId : CStr := .ofAscii "id"
def jsonrpcKeyMethod : CStr := .ofAscii "method"
def jsonrpcKeyParams : CStr := .ofAscii "params"
def jsonrpcKeyResult : CStr := .ofAscii "result"
def jsonrpcKeyError : CStr := .ofAscii "error"
def jsonrpcKeyCode : CStr := .ofAscii "code"
def jsonrpcKeyMessage : CStr := .ofAscii "message"

def jsonrpcValueVersion : CStr := .ofAscii "2.0"

/-! ## Members of a message -/

/-- `jsonrpc_check_version`. -/
def jsonrpcCheckVersion (obj : Json) : Except JsonErr Unit := do
  let version ← libjsonGetString obj jsonrpcKeyVersion
  if version ≠ jsonrpcValueVersion then throw (.badVersion version)

/-- `jsonrpc_set_version`. -/
def jsonrpcSetVersion (obj : Json) : Except JsonErr Json :=
  libjsonSetString obj jsonrpcKeyVersion jsonrpcValueVersion

/-- `jsonrpc_generate_request_id`: the value of the counter and its successor. -/
def jsonrpcGenerateRequestId (counter : Int32) : Int32 × Int32 := (counter, counter + 1)

/-- `jsonrpc_check_id_type`. -/
def jsonrpcCheckIdType : Json → Except JsonErr Unit
  | .string _ => .ok ()
  | .int _ => .ok ()
  | _ => .error .badIdType

/-- `jsonrpc_check_id`. -/
def jsonrpcCheckId (obj : Json) (required : Bool) : Except JsonErr Unit :=
  if !libjsonHas obj jsonrpcKeyId then
    if !required then .ok () else .error (.keyMissing jsonrpcKeyId)
  else do
    let id ← libjsonGet obj jsonrpcKeyId
    jsonrpcCheckIdType id

/-- `jsonrpc_set_id`. -/
def jsonrpcSetId (obj : Json) (id : Int32) : Except JsonErr Json :=
  libjsonSetInt obj jsonrpcKeyId id.toInt

/-- `jsonrpc_check_method`. -/
def jsonrpcCheckMethod (obj : Json) : Except JsonErr Unit := do
  let _ ← libjsonGetString obj jsonrpcKeyMethod

/-- `jsonrpc_set_method`. -/
def jsonrpcSetMethod (obj : Json) (method : CStr) : Except JsonErr Json :=
  libjsonSetString obj jsonrpcKeyMethod method

/-- `jsonrpc_check_params_type`. -/
def jsonrpcCheckParamsType : Json → Except JsonErr Unit
  | .object _ => .ok ()
  | .array _ => .ok ()
  | _ => .error .badParamsType

/-- `jsonrpc_check_params`. -/
def jsonrpcCheckParams (obj : Json) : Except JsonErr Unit :=
  if !libjsonHas obj jsonrpcKeyParams then .ok ()
  else do
    let params ← libjsonGet obj jsonrpcKeyParams
    jsonrpcCheckParamsType params

/-- `jsonrpc_set_params`. -/
def jsonrpcSetParams (obj params : Json) : Except JsonErr Json := do
  jsonrpcCheckParamsType params
  libjsonSet obj jsonrpcKeyParams params

/-- `jsonrpc_check_error`. -/
def jsonrpcCheckError (obj : Json) : Except JsonErr Unit := do
  let error ← libjsonGet obj jsonrpcKeyError
  match libjsonGetInt error jsonrpcKeyCode with
  | .error _ => throw .badErrorCode
  | .ok _ =>
    match libjsonGetString error jsonrpcKeyMessage with
    | .error _ => throw .badErrorMessage
    | .ok _ => pure ()

/-- `jsonrpc_check_result_or_error`. -/
def jsonrpcCheckResultOrError (obj : Json) : Except JsonErr Unit :=
  if !libjsonHas obj jsonrpcKeyResult && !libjsonHas obj jsonrpcKeyError then
    .error .noResultOrError
  else if libjsonHas obj jsonrpcKeyResult then .ok ()
  else jsonrpcCheckError obj

/-! ## Requests -/

/-- `jsonrpc_request_create_internal`. -/
def jsonrpcRequestCreateInternal (id : Option Int32) (method : CStr) (params : Option Json) :
    Except JsonErr JsonrpcRequest := do
  let impl ← jsonrpcSetVersion libjsonNewObject
  let impl ← match id with
    | none => pure impl
    | some id => jsonrpcSetId impl id
  let impl ← jsonrpcSetMethod impl method
  let impl ← match params with
    | none => pure impl
    | some params => jsonrpcSetParams impl params
  pure ⟨impl⟩

/-- `jsonrpc_request_create`. -/
def jsonrpcRequestCreate (id : Int32) (method : CStr) (params : Option Json) :
    Except JsonErr JsonrpcRequest :=
  jsonrpcRequestCreateInternal (some id) method params

/-- `jsonrpc_notification_create`. -/
def jsonrpcNotificationCreate (method : CStr) (params : Option Json) :
    Except JsonErr JsonrpcRequest :=
  jsonrpcRequestCreateInternal none method params

/-- `jsonrpc_request_is_notification`. -/
def jsonrpcRequestIsNotification (request : JsonrpcRequest) : Bool :=
  !libjsonHas request.impl jsonrpcKeyId

/-- `jsonrpc_request_from_json`. -/
def jsonrpcRequestFromJson (impl : Json) : Except JsonErr JsonrpcRequest := do
  jsonrpcCheckVersion impl
  jsonrpcCheckId impl false
  jsonrpcCheckMethod impl
  jsonrpcCheckParams impl
  pure ⟨impl⟩

/-- `jsonrpc_request_get_method`; `NULL` if there is none. -/
def jsonrpcRequestGetMethod (request : JsonrpcRequest) : Option CStr :=
  (libjsonGetString request.impl jsonrpcKeyMethod).toOption

/-- `jsonrpc_request_create_params`: the parameters of a request, made if they are missing. -/
def jsonrpcRequestCreateParams (request : JsonrpcRequest) :
    Except JsonErr (JsonrpcRequest × Json) :=
  if !libjsonHas request.impl jsonrpcKeyParams then do
    let impl ← libjsonSet request.impl jsonrpcKeyParams libjsonNewObject
    pure (⟨impl⟩, libjsonNewObject)
  else do
    let params ← libjsonGet request.impl jsonrpcKeyParams
    pure (request, params)

/-- A change of the parameters object is a change of the request that points to it. -/
def jsonrpcRequestSetParam (request : JsonrpcRequest)
    (set : Json → Except JsonErr Json) : Except JsonErr JsonrpcRequest := do
  let (request, params) ← jsonrpcRequestCreateParams request
  let params ← set params
  let impl ← libjsonSet request.impl jsonrpcKeyParams params
  pure ⟨impl⟩

/-- `jsonrpc_request_get_param_string`. -/
def jsonrpcRequestGetParamString (request : JsonrpcRequest) (name : CStr) :
    Except JsonErr CStr := do
  let params ← libjsonGet request.impl jsonrpcKeyParams
  libjsonGetString params name

/-- `jsonrpc_request_set_param_string`. -/
def jsonrpcRequestSetParamString (request : JsonrpcRequest) (name value : CStr) :
    Except JsonErr JsonrpcRequest :=
  jsonrpcRequestSetParam request fun params => libjsonSetString params name value

/-- `jsonrpc_request_get_param_int`. -/
def jsonrpcRequestGetParamInt (request : JsonrpcRequest) (name : CStr) :
    Except JsonErr Int := do
  let params ← libjsonGet request.impl jsonrpcKeyParams
  libjsonGetInt params name

/-- `jsonrpc_request_set_param_int`. -/
def jsonrpcRequestSetParamInt (request : JsonrpcRequest) (name : CStr) (value : Int) :
    Except JsonErr JsonrpcRequest :=
  jsonrpcRequestSetParam request fun params => libjsonSetInt params name value

/-! ## Responses -/

/-- `jsonrpc_response_create_internal`. -/
def jsonrpcResponseCreateInternal (request : JsonrpcRequest) (result : Json)
    (error : Option Json) : Except JsonErr JsonrpcResponse := do
  let impl ← jsonrpcSetVersion libjsonNewObject
  let id ← libjsonClone request.impl jsonrpcKeyId
  let impl ← libjsonSet impl jsonrpcKeyId id
  let impl ← match error with
    | some error => libjsonSet impl jsonrpcKeyError error
    | none => libjsonSet impl jsonrpcKeyResult result
  pure ⟨impl⟩

/-- `jsonrpc_response_create`. -/
def jsonrpcResponseCreate (request : JsonrpcRequest) (result : Json) :
    Except JsonErr JsonrpcResponse :=
  jsonrpcResponseCreateInternal request result none

/-- `jsonrpc_error_create`. -/
def jsonrpcErrorCreate (request : JsonrpcRequest) (code : Int32) (message : CStr) :
    Except JsonErr JsonrpcResponse := do
  let error ← libjsonSetInt libjsonNewObject jsonrpcKeyCode code.toInt
  let error ← libjsonSetString error jsonrpcKeyMessage message
  jsonrpcResponseCreateInternal request .null (some error)

/-- `jsonrpc_response_is_error`. -/
def jsonrpcResponseIsError (response : JsonrpcResponse) : Bool :=
  libjsonHas response.impl jsonrpcKeyError

/-- `jsonrpc_response_from_json`. -/
def jsonrpcResponseFromJson (impl : Json) : Except JsonErr JsonrpcResponse := do
  jsonrpcCheckVersion impl
  jsonrpcCheckId impl true
  jsonrpcCheckResultOrError impl
  pure ⟨impl⟩

/-! ## What a created message looks like -/

/-- The members of a created request, before its parameters. -/
def requestMembers (id : Option Int32) (method : CStr) : List (CStr × Json) :=
  (jsonrpcKeyVersion, .string jsonrpcValueVersion.bytes) ::
    (id.map fun id => (jsonrpcKeyId, Json.int id.toInt)).toList ++
    [(jsonrpcKeyMethod, .string method.bytes)]

end Cimple.JsonRpc
