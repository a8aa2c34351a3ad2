import Cimple.EventLoop
import Cimple.JsonRpc

/-!
# Command dispatch (`command.h`, `command.c`)

A dispatcher is a table of named handlers.  A handler gets the request, the descriptor it
arrived on and the state its `arg` points to; it returns a code, possibly a response object,
and the state it leaves.

* `cmdLookup`, `cmdDispatcherHandleInternal` — the search of the table and the call.
* `cmdDispatcherHandleConnInternal` — one request off a connection: the default response and
  the default error are made first, then the handler runs, then one of the three is sent.
* `AnswersRequest` — what is asked of a handler: a response it makes is made by
  `jsonrpc_response_create` from the request.

Principal results: `jsonrpcResponseCreate_eq`, `jsonrpcErrorCreate_eq` (the two kinds of
response) and `cmdDispatcherHandleConnInternal_answer`.
-/

set_option autoImplicit false

namespace Cimple.Command

open Octets JsonValue Cimple.Json Cimple.JsonRpc

/-! ## The table of commands -/

/-- What a handler leaves behind. -/
structure Handled (σ : Type) where
  ret : Int32
  response : Option JsonrpcResponse
  state : σ

/-- `cmd_handler`: the request, and the descriptor and state of `struct cmd_conn_ctx`. -/
abbrev CmdHandler (σ : Type) := JsonrpcRequest → Nat → σ → Handled σ

/-- `struct cmd_desc`. -/
structure CmdDesc (σ : Type) where
  name : CStr
  handler : CmdHandler σ

variable {σ : Type}

/-- The loop over the table: the first entry whose name `strcmp` finds equal. -/
def cmdLookup (cmds : List (CmdDesc σ)) (actualCmd : CStr) : Option (CmdDesc σ) :=
  cmds.find? fun cmd => decide (cmd.name = actualCmd)

/-- The entry of the table that serves a request; none if its method is unknown. -/
def cmdOf (cmds : List (CmdDesc σ)) (request : JsonrpcRequest) : Option (CmdDesc σ) :=
  (jsonrpcRequestGetMethod request).bind (cmdLookup cmds)

/-- `cmd_dispatcher_handle_internal`. -/
def cmdDispatcherHandleInternal (cmds : List (CmdDesc σ)) (request : JsonrpcRequest) (fd : Nat)
    (state : σ) : Handled σ :=
  match cmdOf cmds request with
  | some cmd => cmd.handler request fd state
  | none => ⟨-1, none, state⟩

/-! ## One request off a connection -/

/-- `jsonrpc_request_recv`, from what `libjson_recv` has returned. -/
def jsonrpcRequestRecv : Option Json → Option JsonrpcRequest
  | none => none
  | some impl => (jsonrpcRequestFromJson impl).toOption

/-- The response `cmd_dispatcher_handle_conn_internal` sends. -/
def actualResponse (ret : Int32) (response : Option JsonrpcResponse)
    (defaultResponse defaultError : JsonrpcResponse) : JsonrpcResponse :=
  let actual := match response with
    | some response => response
    | none => if ret < 0 then defaultError else defaultResponse
  if ret < 0 ∧ jsonrpcResponseIsError actual = false then defaultError else actual

/-- What `cmd_dispatcher_handle_conn_internal` leaves behind: its return value, the responses
it has tried to send and the state. -/
structure Served (σ : Type) where
  ret : Int32
  sent : List JsonrpcResponse
  state : σ

/-- The text of the default error. -/
def defaultErrorMessage : CStr := .ofAscii "An error occured"

/-- `cmd_dispatcher_handle_conn_internal`; `sendOk` is whether sending succeeds. -/
def cmdDispatcherHandleConnInternal (cmds : List (CmdDesc σ)) (fd : Nat) (received : Option Json)
    (sendOk : Bool) (state : σ) : Served σ :=
  match jsonrpcRequestRecv received with
  | none => ⟨-1, [], state⟩
  | some request =>
    if jsonrpcRequestIsNotification request then
      let handled := cmdDispatcherHandleInternal cmds request fd state
      ⟨handled.ret, [], handled.state⟩
    else
      match jsonrpcResponseCreate request .null, jsonrpcErrorCreate request (-1) defaultErrorMessage
      with
      | .ok defaultResponse, .ok defaultError =>
        let handled := cmdDispatcherHandleInternal cmds request fd state
        let actual := actualResponse handled.ret handled.response defaultResponse defaultError
        ⟨if sendOk then handled.ret else -1, [actual], handled.state⟩
      | _, _ => ⟨-1, [], state⟩

/-- `cmd_dispatcher_handle_event`. -/
def cmdDispatcherHandleEvent (cmds : List (CmdDesc σ)) (fd : Nat) (revents : Int16)
    (received : Option Json) (sendOk : Bool) (state : σ) : Served σ :=
  if revents &&& Events.pollIn = 0 then ⟨-1, [], state⟩
  else cmdDispatcherHandleConnInternal cmds fd received sendOk state

/-! ## Accepted requests -/

theorem jsonrpcRequestFromJson_ok {impl : Json} {request : JsonrpcRequest}
    (h : jsonrpcRequestFromJson impl = .ok request) :
    request = ⟨impl⟩ ∧ (∃ method, jsonrpcRequestGetMethod request = some method) ∧
      ∀ id, impl.get? jsonrpcKeyId = some id → jsonrpcCheckIdType id = .ok () := by
  simp only [jsonrpcRequestFromJson, bind_ok, pure, Except.pure, Except.ok.injEq] at h
  obtain ⟨_, _, _, hid, _, hmethod, _, _, rfl⟩ := h
  refine ⟨rfl, ?_, ?_⟩
  · simp only [jsonrpcCheckMethod, bind_ok] at hmethod
    obtain ⟨method, hm, _⟩ := hmethod
    exact ⟨method, by simp [jsonrpcRequestGetMethod, hm, Except.toOption]⟩
  · intro id hget
    have hhas : libjsonHas impl jsonrpcKeyId = true := by simp [libjsonHas, hget]
    simp only [jsonrpcCheckId, hhas, Bool.not_true, Bool.false_eq_true, if_false, bind_ok,
      libjsonGet_ok] at hid
    obtain ⟨id', hget', hcheck⟩ := hid
    rw [hget] at hget'
    cases hget'
    exact hcheck

/-! ## The two kinds of response -/

/-- The members of a response: version, identifier, and a result or an error. -/
def responseJson (id : Json) (key : CStr) (value : Json) : Json :=
  .object [(jsonrpcKeyVersion, .string jsonrpcValueVersion.bytes), (jsonrpcKeyId, id),
    (key, value)]

theorem jsonrpcResponseCreate_eq {request : JsonrpcRequest} {id : Json}
    (h : request.impl.get? jsonrpcKeyId = some id) (result : Json) :
    jsonrpcResponseCreate request result = .ok ⟨responseJson id jsonrpcKeyResult result⟩ := by
  have hclone : libjsonClone request.impl jsonrpcKeyId = .ok id := libjsonGet_ok.2 h
  simp only [jsonrpcResponseCreate, jsonrpcResponseCreateInternal, hclone]
  rfl

/-- The error object of `jsonrpc_error_create`. -/
def errorJson (code : Int32) (message : CStr) : Json :=
  .object [(jsonrpcKeyCode, .int code.toInt), (jsonrpcKeyMessage, .string message.bytes)]

theorem jsonrpcErrorCreate_eq {request : JsonrpcRequest} {id : Json}
    (h : request.impl.get? jsonrpcKeyId = some id) (code : Int32) (message : CStr) :
    jsonrpcErrorCreate request code message =
      .ok ⟨responseJson id jsonrpcKeyError (errorJson code message)⟩ := by
  have hclone : libjsonClone request.impl jsonrpcKeyId = .ok id := libjsonGet_ok.2 h
  simp only [jsonrpcErrorCreate, jsonrpcResponseCreateInternal, hclone]
  rfl

theorem jsonrpcResponseCreate_notification {request : JsonrpcRequest}
    (h : jsonrpcRequestIsNotification request = true) (result : Json) :
    ∃ e, jsonrpcResponseCreate request result = .error e := by
  have hclone : libjsonClone request.impl jsonrpcKeyId = .error (.keyMissing jsonrpcKeyId) := by
    simp only [jsonrpcRequestIsNotification, libjsonHas, Bool.not_eq_true',
      Option.isSome_eq_false_iff, Option.isNone_iff_eq_none] at h
    simp [libjsonClone, libjsonGet, h]
  refine ⟨.keyMissing jsonrpcKeyId, ?_⟩
  simp only [jsonrpcResponseCreate, jsonrpcResponseCreateInternal, hclone]
  rfl

/-- A well-formed response to a request with identifier `id`: that identifier, one of result
and error, and accepted by the receiver. -/
structure Answers (id : Json) (response : JsonrpcResponse) : Prop where
  id_eq : response.impl.get? jsonrpcKeyId = some id
  one_of : libjsonHas response.impl jsonrpcKeyResult = !libjsonHas response.impl jsonrpcKeyError
  accepted : jsonrpcResponseFromJson response.impl = .ok response

theorem jsonrpcResponseFromJson_responseJson {id : Json} (hid : jsonrpcCheckIdType id = .ok ())
    (key : CStr) (value : Json) :
    jsonrpcResponseFromJson (responseJson id key value) =
      (jsonrpcCheckResultOrError (responseJson id key value) >>= fun _ =>
        pure ⟨responseJson id key value⟩) := by
  have hversion : jsonrpcCheckVersion (responseJson id key value) = .ok () := rfl
  have hcheck : jsonrpcCheckId (responseJson id key value) true = .ok () := hid
  simp only [jsonrpcResponseFromJson, hversion, hcheck]
  rfl

theorem answers_result {id : Json} (hid : jsonrpcCheckIdType id = .ok ()) (result : Json) :
    Answers id ⟨responseJson id jsonrpcKeyResult result⟩ :=
  ⟨rfl, rfl, jsonrpcResponseFromJson_responseJson hid _ _⟩

theorem answers_error {id : Json} (hid : jsonrpcCheckIdType id = .ok ()) (code : Int32)
    (message : CStr) : Answers id ⟨responseJson id jsonrpcKeyError (errorJson code message)⟩ := by
  have hcode : InInt64 code.toInt := inInt64_toInt code
  refine ⟨rfl, rfl, ?_⟩
  rw [jsonrpcResponseFromJson_responseJson hid]
  have hint : libjsonGetInt (errorJson code message) jsonrpcKeyCode = .ok code.toInt :=
    libjsonGetInt_ok.2 ⟨rfl, hcode⟩
  have herror : jsonrpcCheckError (responseJson id jsonrpcKeyError (errorJson code message)) =
      .ok () := by
    have hget : libjsonGet (responseJson id jsonrpcKeyError (errorJson code message))
        jsonrpcKeyError = .ok (errorJson code message) := libjsonGet_ok.2 rfl
    simp only [jsonrpcCheckError, hget, bind, Except.bind, hint]
    rfl
  show (jsonrpcCheckError _ >>= _) = _
  rw [herror]
  rfl

/-! ## One request, one answer -/

/-- A handler makes its responses with `jsonrpc_response_create`, from the request it got. -/
def AnswersRequest (handler : CmdHandler σ) : Prop :=
  ∀ request fd state response, (handler request fd state).response = some response →
    ∃ result, jsonrpcResponseCreate request result = .ok response

theorem cmdOf_mem {cmds : List (CmdDesc σ)} {request : JsonrpcRequest} {cmd : CmdDesc σ}
    (h : cmdOf cmds request = some cmd) : cmd ∈ cmds := by
  obtain ⟨_, _, hfind⟩ := Option.bind_eq_some_iff.1 h
  exact List.mem_of_find?_eq_some hfind

theorem cmdDispatcherHandleInternal_answers {cmds : List (CmdDesc σ)}
    (hcmds : ∀ cmd ∈ cmds, AnswersRequest cmd.handler) {request : JsonrpcRequest} {fd : Nat}
    {state : σ} {id : Json} (hid : request.impl.get? jsonrpcKeyId = some id)
    {response : JsonrpcResponse}
    (h : (cmdDispatcherHandleInternal cmds request fd state).response = some response) :
    ∃ result, response = ⟨responseJson id jsonrpcKeyResult result⟩ := by
  unfold cmdDispatcherHandleInternal at h
  split at h
  · rename_i cmd hcmd
    obtain ⟨result, hresult⟩ := hcmds cmd (cmdOf_mem hcmd) request fd state response h
    rw [jsonrpcResponseCreate_eq hid, Except.ok.injEq] at hresult
    exact ⟨result, hresult.symm⟩
  · cases h

/-- **The choice among the three responses**: well-formed in every case, an error after a
negative code, and the handler's own after a non-negative one. -/
theorem actualResponse_spec {id : Json} (ret : Int32) (response : Option JsonrpcResponse)
    {defaultResponse defaultError : JsonrpcResponse}
    (hresponse : ∀ r, response = some r → Answers id r) (hdefault : Answers id defaultResponse)
    (herror : Answers id defaultError) (hisError : jsonrpcResponseIsError defaultError = true) :
    let actual := actualResponse ret response defaultResponse defaultError
    Answers id actual ∧ (ret < 0 → jsonrpcResponseIsError actual = true) ∧
      ∀ r, ¬ ret < 0 → response = some r → actual = r := by
  unfold actualResponse
  by_cases hret : ret < 0
  · cases response with
    | none => simp [hret, herror, hisError]
    | some r =>
      by_cases he : jsonrpcResponseIsError r = false
      · simp [hret, he, herror, hisError]
      · simp only [hret, he, not_true_eq_false, false_implies, implies_true, and_true]
        exact ⟨hresponse r rfl, fun _ => by simpa using he⟩
  · cases response with
    | none => simp [hret, hdefault]
    | some r => simpa [hret] using hresponse r rfl

/-- **What serving a connection does to the state**: nothing without a valid request, and what
the handler does with one; a failed answer only changes the return value. -/
theorem cmdDispatcherHandleConnInternal_spec (cmds : List (CmdDesc σ)) (fd : Nat)
    (received : Option Json) (sendOk : Bool) (state : σ) :
    let served := cmdDispatcherHandleConnInternal cmds fd received sendOk state
    (jsonrpcRequestRecv received = none ∧ served.ret = -1 ∧ served.state = state) ∨
      ∃ request, jsonrpcRequestRecv received = some request ∧
        served.state = (cmdDispatcherHandleInternal cmds request fd state).state ∧
        (served.ret = (cmdDispatcherHandleInternal cmds request fd state).ret ∨
          sendOk = false ∧ served.ret = -1) := by
  simp only [cmdDispatcherHandleConnInternal]
  cases hrecv : jsonrpcRequestRecv received with
  | none => exact .inl ⟨rfl, rfl, rfl⟩
  | some request =>
    refine .inr ⟨request, rfl, ?_⟩
    cases hn : jsonrpcRequestIsNotification request with
    | true => exact ⟨by simp [hn], .inl (by simp [hn])⟩
    | false =>
      obtain ⟨id, hid⟩ : ∃ id, request.impl.get? jsonrpcKeyId = some id := by
        simpa [jsonrpcRequestIsNotification, libjsonHas, Option.isSome_iff_exists] using hn
      simp only [hn, Bool.false_eq_true, if_false, jsonrpcResponseCreate_eq hid,
        jsonrpcErrorCreate_eq hid]
      cases sendOk <;> simp

theorem served_state {cmds : List (CmdDesc σ)} {message : Json} {request : JsonrpcRequest}
    {cmd : CmdDesc σ} (hrecv : jsonrpcRequestRecv (some message) = some request)
    (hcmd : cmdOf cmds request = some cmd) (fd : Nat) (sendOk : Bool) (state : σ) :
    (cmdDispatcherHandleConnInternal cmds fd (some message) sendOk state).state =
      (cmd.handler request fd state).state := by
  rcases cmdDispatcherHandleConnInternal_spec cmds fd (some message) sendOk state with
    ⟨hnone, -⟩ | ⟨request', hrecv', hstate, -⟩
  · rw [hrecv] at hnone
    cases hnone
  · rw [hrecv] at hrecv'
    cases hrecv'
    simp only [hstate, cmdDispatcherHandleInternal, hcmd]

/-- **One request, one answer**: a notification is answered with nothing, any other request
with one well-formed response that carries its identifier: an error if the method is unknown or
its handler has failed, and the handler's own response if the handler has not failed and has
made one. -/
structure OneAnswer (cmds : List (CmdDesc σ)) (request : JsonrpcRequest) (fd : Nat) (state : σ)
    (served : Served σ) : Prop where
  notification : jsonrpcRequestIsNotification request = true → served.sent = []
  answered : jsonrpcRequestIsNotification request = false →
    ∃ response id, served.sent = [response] ∧ request.impl.get? jsonrpcKeyId = some id ∧
      Answers id response ∧
      (cmdOf cmds request = none → jsonrpcResponseIsError response = true) ∧
      ∀ cmd, cmdOf cmds request = some cmd →
        ((cmd.handler request fd state).ret < 0 → jsonrpcResponseIsError response = true) ∧
        ∀ r, ¬ (cmd.handler request fd state).ret < 0 →
          (cmd.handler request fd state).response = some r → response = r

/-- Every table whose handlers answer the request they get is served so. -/
theorem cmdDispatcherHandleConnInternal_answer (cmds : List (CmdDesc σ))
    (hcmds : ∀ cmd ∈ cmds, AnswersRequest cmd.handler) {impl : Json} {request : JsonrpcRequest}
    (hrequest : jsonrpcRequestFromJson impl = .ok request) (fd : Nat) (sendOk : Bool)
    (state : σ) :
    OneAnswer cmds request fd state
      (cmdDispatcherHandleConnInternal cmds fd (some impl) sendOk state) := by
  obtain ⟨-, -, hidType⟩ := jsonrpcRequestFromJson_ok hrequest
  have hrecv : jsonrpcRequestRecv (some impl) = some request := by
    simp [jsonrpcRequestRecv, hrequest, Except.toOption]
  refine ⟨fun hn => by simp [cmdDispatcherHandleConnInternal, hrecv, hn], fun hn => ?_⟩
  obtain ⟨id, hid⟩ : ∃ id, request.impl.get? jsonrpcKeyId = some id := by
    simpa [jsonrpcRequestIsNotification, libjsonHas, Option.isSome_iff_exists] using hn
  have hcheck : jsonrpcCheckIdType id = .ok () := by
    obtain ⟨rfl, -, -⟩ := jsonrpcRequestFromJson_ok hrequest
    exact hidType id hid
  have hspec := actualResponse_spec (cmdDispatcherHandleInternal cmds request fd state).ret
    (cmdDispatcherHandleInternal cmds request fd state).response
    (fun r hr => by
      obtain ⟨result, rfl⟩ := cmdDispatcherHandleInternal_answers hcmds hid hr
      exact answers_result hcheck result)
    (answers_result hcheck .null) (answers_error hcheck (-1) defaultErrorMessage) rfl
  simp only [cmdDispatcherHandleConnInternal, hrecv, hn, Bool.false_eq_true, if_false,
    jsonrpcResponseCreate_eq hid, jsonrpcErrorCreate_eq hid]
  obtain ⟨hanswers, herror, hown⟩ := hspec
  refine ⟨_, id, rfl, hid, hanswers, ?_, ?_⟩
  · intro hunknown
    exact herror (by simp [cmdDispatcherHandleInternal, hunknown])
  · intro cmd hcmd
    have hhandled : cmdDispatcherHandleInternal cmds request fd state =
        cmd.handler request fd state := by
      simp [cmdDispatcherHandleInternal, hcmd]
    rw [hhandled] at herror hown ⊢
    exact ⟨herror, hown⟩

end Cimple.Command
