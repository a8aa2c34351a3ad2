import Cimple.Lib.Base64
import Cimple.Command
import Cimple.RunQueue

/-!
# The protocol (`const.h`, `base64.c`, `process.h`, `protocol.c`)

* `requestCreate*` — the five requests; `requestParse*` — their parameters read back.
* `base64Encode`, `base64Decode` — the output of a process as a C string.

For each request with parameters the file has its JSON value (`queueRunJson`, `startRunJson`,
`finishedRunJson`), the fact that the request is created as that value, and the fact that
parsing the value gives back what was encoded.
-/

set_option autoImplicit false

namespace Cimple.Protocol

open Octets JsonValue Cimple.Json Cimple.JsonRpc Cimple.RunQueue

/-! ## Commands -/

def cmdQueueRun : CStr := .ofAscii "queue-run"
def cmdNewWorker : CStr := .ofAscii "new-worker"
def cmdStartRun : CStr := .ofAscii "start-run"
def cmdFinishedRun : CStr := .ofAscii "finished-run"
def cmdGetRuns : CStr := .ofAscii "get-runs"

/-! ## Process output in base64 -/

/-- `struct process_output`; `data_size` is the length of the data. -/
structure ProcessOutput where
  ec : Int32
  data : Bytes
  deriving DecidableEq, Repr

/-- `base64_encode`. -/
def base64Encode (src : Bytes) : CStr := ⟨Base64.encode src, Base64.encode_nulFree src⟩

/-- `base64_decode`, into `strlen(src) / 4 * 3` bytes. -/
def base64Decode (src : CStr) : Except JsonErr Bytes :=
  let dstMaxLen := src.length / 4 * 3
  match Base64.decodeInto dstMaxLen src.bytes with
  | none => .error .badBase64
  | some dst => .ok dst

/-- **The wrapper's capacity is enough for every output.** -/
theorem base64Decode_base64Encode (data : Bytes) : base64Decode (base64Encode data) = .ok data := by
  have h : Base64.decodeInto ((base64Encode data).length / 4 * 3) (base64Encode data).bytes =
      some data := Base64.decodeInto_encode data
  simp only [base64Decode, h]

/-! ## Requests -/

def runKeyId : CStr := .ofAscii "id"
def runKeyUrl : CStr := .ofAscii "url"
def runKeyRev : CStr := .ofAscii "rev"

/-- `request_create_queue_run`; `counter` is the value of `jsonrpc_id_counter`. -/
def requestCreateQueueRun (counter : Int32) (run : Run) : Except JsonErr JsonrpcRequest := do
  let request ← jsonrpcRequestCreate (jsonrpcGenerateRequestId counter).1 cmdQueueRun none
  let request ← jsonrpcRequestSetParamString request runKeyUrl run.repoUrl
  jsonrpcRequestSetParamString request runKeyRev run.repoRev

/-- `request_parse_queue_run`. -/
def requestParseQueueRun (request : JsonrpcRequest) : Except JsonErr Run := do
  let url ← jsonrpcRequestGetParamString request runKeyUrl
  let rev ← jsonrpcRequestGetParamString request runKeyRev
  pure (runQueued url rev)

/-- `request_create_new_worker`. -/
def requestCreateNewWorker : Except JsonErr JsonrpcRequest :=
  jsonrpcNotificationCreate cmdNewWorker none

/-- `request_create_start_run`. -/
def requestCreateStartRun (run : Run) : Except JsonErr JsonrpcRequest := do
  let request ← jsonrpcNotificationCreate cmdStartRun none
  let request ← jsonrpcRequestSetParamInt request runKeyId run.id.toInt
  let request ← jsonrpcRequestSetParamString request runKeyUrl run.repoUrl
  jsonrpcRequestSetParamString request runKeyRev run.repoRev

/-- `request_parse_start_run`: the identifier is cut to an `int`. -/
def requestParseStartRun (request : JsonrpcRequest) : Except JsonErr Run := do
  let id ← jsonrpcRequestGetParamInt request runKeyId
  let url ← jsonrpcRequestGetParamString request runKeyUrl
  let rev ← jsonrpcRequestGetParamString request runKeyRev
  pure (runCreated (Int32.ofInt id) url rev)

def finishedKeyRunId : CStr := .ofAscii "run_id"
def finishedKeyEc : CStr := .ofAscii "exit_code"
def finishedKeyData : CStr := .ofAscii "output"

/-- `request_create_finished_run`. -/
def requestCreateFinishedRun (runId : Int32) (output : ProcessOutput) :
    Except JsonErr JsonrpcRequest := do
  let request ← jsonrpcNotificationCreate cmdFinishedRun none
  let request ← jsonrpcRequestSetParamInt request finishedKeyRunId runId.toInt
  let request ← jsonrpcRequestSetParamInt request finishedKeyEc output.ec.toInt
  jsonrpcRequestSetParamString request finishedKeyData (base64Encode output.data)

/-- `request_parse_finished_run`: identifier and exit code are cut to `int`s. -/
def requestParseFinishedRun (request : JsonrpcRequest) :
    Except JsonErr (Int32 × ProcessOutput) := do
  let runId ← jsonrpcRequestGetParamInt request finishedKeyRunId
  let ec ← jsonrpcRequestGetParamInt request finishedKeyEc
  let b64data ← jsonrpcRequestGetParamString request finishedKeyData
  let data ← base64Decode b64data
  pure (Int32.ofInt runId, ⟨Int32.ofInt ec, data⟩)

/-- `request_create_get_runs`. -/
def requestCreateGetRuns (counter : Int32) : Except JsonErr JsonrpcRequest :=
  jsonrpcRequestCreate (jsonrpcGenerateRequestId counter).1 cmdGetRuns none

/-- `request_parse_get_runs`: there is nothing to read. -/
def requestParseGetRuns (_ : JsonrpcRequest) : Except JsonErr Unit := .ok ()

/-- `response_create_get_runs`. -/
def responseCreateGetRuns (request : JsonrpcRequest) (runs : Queue) :
    Except JsonErr JsonrpcResponse := do
  let runsJson ← runQueueToJson runs
  jsonrpcResponseCreate request runsJson

/-! ## The values the requests are created as -/

/-- A request with parameters. -/
def requestJson (id : Option Int32) (method : CStr) (params : List (CStr × Json)) : Json :=
  .object (requestMembers id method ++ [(jsonrpcKeyParams, .object params)])

def queueRunJson (id : Int32) (url rev : CStr) : Json :=
  requestJson (some id) cmdQueueRun
    [(runKeyUrl, .string url.bytes), (runKeyRev, .string rev.bytes)]

def startRunJson (run : Run) : Json :=
  requestJson none cmdStartRun
    [(runKeyId, .int run.id.toInt), (runKeyUrl, .string run.repoUrl.bytes),
      (runKeyRev, .string run.repoRev.bytes)]

def finishedRunJson (runId : Int32) (output : ProcessOutput) : Json :=
  requestJson none cmdFinishedRun
    [(finishedKeyRunId, .int runId.toInt), (finishedKeyEc, .int output.ec.toInt),
      (finishedKeyData, .string (base64Encode output.data).bytes)]

theorem requestCreateQueueRun_eq (counter : Int32) (run : Run) :
    requestCreateQueueRun counter run = .ok ⟨queueRunJson counter run.repoUrl run.repoRev⟩ := rfl

theorem requestCreateNewWorker_eq :
    requestCreateNewWorker = .ok ⟨.object (requestMembers none cmdNewWorker)⟩ := rfl

theorem requestCreateStartRun_eq (run : Run) :
    requestCreateStartRun run = .ok ⟨startRunJson run⟩ := rfl

theorem requestCreateFinishedRun_eq (runId : Int32) (output : ProcessOutput) :
    requestCreateFinishedRun runId output = .ok ⟨finishedRunJson runId output⟩ := rfl

theorem requestCreateGetRuns_eq (counter : Int32) :
    requestCreateGetRuns counter = .ok ⟨.object (requestMembers (some counter) cmdGetRuns)⟩ := rfl

/-! ## Parsing what was created -/

theorem jsonrpcRequestFromJson_requestMembers (id : Option Int32) (method : CStr) :
    jsonrpcRequestFromJson (.object (requestMembers id method)) =
        .ok ⟨.object (requestMembers id method)⟩ ∧
      jsonrpcRequestGetMethod ⟨.object (requestMembers id method)⟩ = some method ∧
      jsonrpcRequestIsNotification ⟨.object (requestMembers id method)⟩ = id.isNone := by
  have hmethod : jsonrpcRequestGetMethod ⟨.object (requestMembers id method)⟩ =
      some (CStr.ofBytes method.bytes) := by cases id <;> rfl
  rw [CStr.ofBytes_bytes] at hmethod
  refine ⟨?_, hmethod, ?_⟩ <;> cases id <;> rfl

theorem jsonrpcRequestFromJson_requestJson (id : Option Int32) (method : CStr)
    (params : List (CStr × Json)) :
    jsonrpcRequestFromJson (requestJson id method params) = .ok ⟨requestJson id method params⟩ ∧
      jsonrpcRequestGetMethod ⟨requestJson id method params⟩ = some method ∧
      jsonrpcRequestIsNotification ⟨requestJson id method params⟩ = id.isNone := by
  have hmethod : jsonrpcRequestGetMethod ⟨requestJson id method params⟩ =
      some (CStr.ofBytes method.bytes) := by cases id <;> rfl
  rw [CStr.ofBytes_bytes] at hmethod
  refine ⟨?_, hmethod, ?_⟩ <;> cases id <;> rfl

theorem requestJson_params (id : Option Int32) (method : CStr) (params : List (CStr × Json)) :
    (requestJson id method params).get? jsonrpcKeyParams = some (.object params) := by
  cases id <;> rfl

theorem getParamString_of_get? {request : JsonrpcRequest} {params : Json} {name s : CStr}
    (hparams : request.impl.get? jsonrpcKeyParams = some params)
    (h : params.get? name = some (.string s.bytes)) :
    jsonrpcRequestGetParamString request name = .ok s :=
  bind_ok.2 ⟨params, libjsonGet_ok.2 hparams,
    libjsonGetString_ok.2 ⟨s.bytes, h, CStr.ofBytes_bytes s⟩⟩

theorem getParamInt_of_get? {request : JsonrpcRequest} {params : Json} {name : CStr} {n : Int32}
    (hparams : request.impl.get? jsonrpcKeyParams = some params)
    (h : params.get? name = some (.int n.toInt)) :
    jsonrpcRequestGetParamInt request name = .ok n.toInt :=
  bind_ok.2 ⟨params, libjsonGet_ok.2 hparams, libjsonGetInt_ok.2 ⟨h, inInt64_toInt n⟩⟩

theorem requestParseQueueRun_queueRunJson (id : Int32) (url rev : CStr) :
    requestParseQueueRun ⟨queueRunJson id url rev⟩ = .ok (runQueued url rev) := by
  have hparams := requestJson_params (some id) cmdQueueRun
    [(runKeyUrl, .string url.bytes), (runKeyRev, .string rev.bytes)]
  exact bind_ok.2 ⟨url, getParamString_of_get? hparams rfl,
    bind_ok.2 ⟨rev, getParamString_of_get? hparams rfl, rfl⟩⟩

theorem requestParseStartRun_startRunJson (run : Run) :
    requestParseStartRun ⟨startRunJson run⟩ =
      .ok (runCreated run.id run.repoUrl run.repoRev) := by
  have hparams := requestJson_params none cmdStartRun
    [(runKeyId, .int run.id.toInt), (runKeyUrl, .string run.repoUrl.bytes),
      (runKeyRev, .string run.repoRev.bytes)]
  refine bind_ok.2 ⟨_, getParamInt_of_get? hparams rfl,
    bind_ok.2 ⟨_, getParamString_of_get? hparams rfl,
      bind_ok.2 ⟨_, getParamString_of_get? hparams rfl, ?_⟩⟩⟩
  rw [Int32.ofInt_toInt]
  rfl

theorem requestParseFinishedRun_finishedRunJson (runId : Int32) (output : ProcessOutput) :
    requestParseFinishedRun ⟨finishedRunJson runId output⟩ = .ok (runId, output) := by
  have hparams := requestJson_params none cmdFinishedRun
    [(finishedKeyRunId, .int runId.toInt), (finishedKeyEc, .int output.ec.toInt),
      (finishedKeyData, .string (base64Encode output.data).bytes)]
  refine bind_ok.2 ⟨_, getParamInt_of_get? hparams rfl,
    bind_ok.2 ⟨_, getParamInt_of_get? hparams rfl,
      bind_ok.2 ⟨_, getParamString_of_get? hparams rfl,
        bind_ok.2 ⟨_, base64Decode_base64Encode output.data, ?_⟩⟩⟩⟩
  rw [Int32.ofInt_toInt, Int32.ofInt_toInt]
  rfl

end Cimple.Protocol
