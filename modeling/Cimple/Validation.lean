import Cimple.Command

/-!
# What is accepted as a request and as a response (`json_rpc.c`, `json.c`)

A message is an arbitrary JSON value off the network.  Its strings may contain NULs, the checks
compare what stands before the first one, and a response with a result is not asked whether it
has an error as well.

* `jsonrpcCheck*_ok` — when each check passes.
* `WellFormedResponse`, `WellFormedRequest` — what the format says.
* `ResponseValidated`, `RequestValidated` — accepted exactly if well-formed, and what follows for
  the client's exit code and for the dispatch of a request.
* `traced` — a table of commands that records which handlers are called.

Principal results: `response_validation_iff` and `request_validation_iff`.
-/

set_option autoImplicit false

namespace Cimple.Validation

open Octets JsonValue Cimple.Json Cimple.JsonRpc Cimple.Command

/-! ## The checks -/

/-- The kinds of identifiers. -/
def IsId : Json → Prop
  | .int _ => True
  | .string _ => True
  | _ => False

/-- The kinds of parameters. -/
def IsParams : Json → Prop
  | .object _ => True
  | .array _ => True
  | _ => False

/-- The member under a key is a string. -/
def StringAt (v : Json) (key : CStr) (s : Bytes) : Prop := v.get? key = some (.string s)

theorem eq_bytes_iff {s : Bytes} {c : CStr} (h : CStr.ofBytes s = c) :
    s = c.bytes ↔ (0 : UInt8) ∉ s := by
  constructor
  · intro hs
    rw [hs]
    exact c.nulFree
  · intro hs
    rw [← h]
    exact (takeWhile_nulFree hs).symm

theorem jsonrpcCheckVersion_ok {v : Json} :
    jsonrpcCheckVersion v = .ok () ↔
      ∃ s, StringAt v jsonrpcKeyVersion s ∧ CStr.ofBytes s = jsonrpcValueVersion := by
  unfold jsonrpcCheckVersion StringAt
  rw [bind_ok]
  constructor
  · rintro ⟨version, hversion, hcheck⟩
    obtain ⟨s, hs, rfl⟩ := libjsonGetString_ok.1 hversion
    refine ⟨s, hs, ?_⟩
    by_contra hne
    rw [if_pos hne] at hcheck
    cases hcheck
  · rintro ⟨s, hs, hversion⟩
    refine ⟨_, libjsonGetString_ok.2 ⟨s, hs, hversion⟩, ?_⟩
    rw [if_neg (not_not.2 rfl)]
    rfl

theorem jsonrpcCheckIdType_ok {id : Json} : jsonrpcCheckIdType id = .ok () ↔ IsId id := by
  cases id <;> simp [jsonrpcCheckIdType, IsId]

theorem jsonrpcCheckParamsType_ok {params : Json} :
    jsonrpcCheckParamsType params = .ok () ↔ IsParams params := by
  cases params <;> simp [jsonrpcCheckParamsType, IsParams]

theorem jsonrpcCheckId_ok {v : Json} {required : Bool} :
    jsonrpcCheckId v required = .ok () ↔
      (v.get? jsonrpcKeyId = none ∧ required = false) ∨
        ∃ id, v.get? jsonrpcKeyId = some id ∧ IsId id := by
  unfold jsonrpcCheckId libjsonHas
  cases hid : v.get? jsonrpcKeyId with
  | none => cases required <;> simp
  | some id => simp [libjsonGet, hid, jsonrpcCheckIdType_ok, bind, Except.bind]

theorem jsonrpcCheckMethod_ok {v : Json} :
    jsonrpcCheckMethod v = .ok () ↔ ∃ s, StringAt v jsonrpcKeyMethod s := by
  unfold jsonrpcCheckMethod StringAt
  rw [bind_ok]
  constructor
  · rintro ⟨method, hmethod, -⟩
    obtain ⟨s, hs, -⟩ := libjsonGetString_ok.1 hmethod
    exact ⟨s, hs⟩
  · rintro ⟨s, hs⟩
    exact ⟨_, libjsonGetString_ok.2 ⟨s, hs, rfl⟩, rfl⟩

theorem jsonrpcCheckParams_ok {v : Json} :
    jsonrpcCheckParams v = .ok () ↔
      v.get? jsonrpcKeyParams = none ∨
        ∃ params, v.get? jsonrpcKeyParams = some params ∧ IsParams params := by
  unfold jsonrpcCheckParams libjsonHas
  cases hparams : v.get? jsonrpcKeyParams with
  | none => simp
  | some params => simp [libjsonGet, hparams, jsonrpcCheckParamsType_ok, bind, Except.bind]

/-- The member `error` of a value is a well-formed error of a code. -/
def ErrorOf (v : Json) (code : Int) : Prop :=
  ∃ error message, v.get? jsonrpcKeyError = some error ∧
    error.get? jsonrpcKeyCode = some (.int code) ∧ StringAt error jsonrpcKeyMessage message

/-- `jsonrpc_check_error`: a well-formed error whose code is an `int64_t`. -/
theorem jsonrpcCheckError_ok {v : Json} :
    jsonrpcCheckError v = .ok () ↔ ∃ code, ErrorOf v code ∧ InInt64 code := by
  unfold jsonrpcCheckError
  rw [bind_ok]
  constructor
  · rintro ⟨error, herror, hcheck⟩
    cases hcode : libjsonGetInt error jsonrpcKeyCode with
    | error e =>
      rw [hcode] at hcheck
      cases hcheck
    | ok code =>
      cases hmessage : libjsonGetString error jsonrpcKeyMessage with
      | error e =>
        rw [hcode, hmessage] at hcheck
        cases hcheck
      | ok message =>
        obtain ⟨hget, hrange⟩ := libjsonGetInt_ok.1 hcode
        obtain ⟨s, hs, -⟩ := libjsonGetString_ok.1 hmessage
        exact ⟨code, ⟨error, s, libjsonGet_ok.1 herror, hget, hs⟩, hrange⟩
  · rintro ⟨code, ⟨error, message, herror, hcode, hmessage⟩, hrange⟩
    refine ⟨error, libjsonGet_ok.2 herror, ?_⟩
    rw [libjsonGetInt_ok.2 ⟨hcode, hrange⟩, libjsonGetString_ok.2 ⟨message, hmessage, rfl⟩]
    rfl

theorem jsonrpcCheckResultOrError_ok {v : Json} :
    jsonrpcCheckResultOrError v = .ok () ↔
      libjsonHas v jsonrpcKeyResult = true ∨ jsonrpcCheckError v = .ok () := by
  unfold jsonrpcCheckResultOrError
  cases hresult : libjsonHas v jsonrpcKeyResult with
  | true => simp
  | false =>
    cases herror : libjsonHas v jsonrpcKeyError with
    | true => simp
    | false =>
      simp only [Bool.not_false, Bool.and_self, if_true, Bool.false_eq_true, false_or,
        reduceCtorEq, false_iff, jsonrpcCheckError_ok]
      rintro ⟨code, ⟨error, -, hget, -⟩, -⟩
      simp [libjsonHas, hget] at herror

/-! ## Responses -/

/-- The version member is the string of the version, and nothing more. -/
def ExactVersion (v : Json) : Prop := StringAt v jsonrpcKeyVersion jsonrpcValueVersion.bytes

/-- The version member has no NUL in it. -/
def VersionNulFree (v : Json) : Prop := ∀ s, StringAt v jsonrpcKeyVersion s → (0 : UInt8) ∉ s

/-- **A well-formed response.** -/
structure WellFormedResponse (v : Json) : Prop where
  object : ∃ members, v = .object members
  version : ExactVersion v
  id : ∃ id, v.get? jsonrpcKeyId = some id ∧ IsId id
  oneOf : libjsonHas v jsonrpcKeyResult = !libjsonHas v jsonrpcKeyError
  error : libjsonHas v jsonrpcKeyError = true → ∃ code, ErrorOf v code

/-- **Responses are validated**: accepted are exactly the well-formed ones, and of these
`jsonrpc_response_is_error` tells those with an error. -/
structure ResponseValidated (v : Json) : Prop where
  accepts : (∃ response, jsonrpcResponseFromJson v = .ok response) ↔ WellFormedResponse v
  isError : ∀ response, jsonrpcResponseFromJson v = .ok response →
    (jsonrpcResponseIsError response = true ↔
      (∃ code, ErrorOf v code) ∧ libjsonHas v jsonrpcKeyResult = false)

theorem object_of_get? {v value : Json} {key : CStr} (h : v.get? key = some value) :
    ∃ members, v = .object members := by
  cases v with
  | object members => exact ⟨members, rfl⟩
  | _ => cases h

theorem exactVersion_iff {v : Json} (h : jsonrpcCheckVersion v = .ok ()) :
    ExactVersion v ↔ VersionNulFree v := by
  obtain ⟨s, hs, hversion⟩ := jsonrpcCheckVersion_ok.1 h
  have hsame : ∀ s', StringAt v jsonrpcKeyVersion s' ↔ s' = s := by
    intro s'
    unfold StringAt at hs ⊢
    rw [hs, Option.some.injEq, Json.string.injEq]
    exact eq_comm
  unfold ExactVersion VersionNulFree
  simp only [hsame, forall_eq]
  rw [eq_comm]
  exact eq_bytes_iff hversion

theorem ExactVersion.check {v : Json} (h : ExactVersion v) : jsonrpcCheckVersion v = .ok () :=
  jsonrpcCheckVersion_ok.2 ⟨_, h, CStr.ofBytes_bytes _⟩

theorem jsonrpcResponseFromJson_ok {v : Json} {response : JsonrpcResponse} :
    jsonrpcResponseFromJson v = .ok response ↔ response = ⟨v⟩ ∧ jsonrpcCheckVersion v = .ok () ∧
      jsonrpcCheckId v true = .ok () ∧
      (libjsonHas v jsonrpcKeyResult = true ∨ ∃ code, ErrorOf v code ∧ InInt64 code) := by
  rw [← jsonrpcCheckError_ok, ← jsonrpcCheckResultOrError_ok]
  simp only [jsonrpcResponseFromJson, bind_ok, pure, Except.pure, Except.ok.injEq]
  constructor
  · rintro ⟨_, hversion, _, hid, _, hone, rfl⟩
    exact ⟨rfl, hversion, hid, hone⟩
  · rintro ⟨rfl, hversion, hid, hone⟩
    exact ⟨(), hversion, (), hid, (), hone, rfl⟩

theorem ErrorOf.hasError {v : Json} {code : Int} (h : ErrorOf v code) :
    libjsonHas v jsonrpcKeyError = true := by
  obtain ⟨error, -, hget, -⟩ := h
  simp [libjsonHas, hget]

theorem ErrorOf.unique {v : Json} {code code' : Int} (h : ErrorOf v code) (h' : ErrorOf v code') :
    code = code' := by
  obtain ⟨error, -, herror, hcode, -⟩ := h
  obtain ⟨error', -, herror', hcode', -⟩ := h'
  rw [herror, Option.some.injEq] at herror'
  rw [← herror', hcode, Option.some.injEq, Json.int.injEq] at hcode'
  exact hcode'

/-- **The responses that are told right**, among those whose version and identifier pass their
checks: with a result, those without an error and with no NUL in the version; without one, those
whose error, if it is well-formed, has an `int64_t` for its code exactly if there is no NUL in the
version. -/
def ToldRight (v : Json) : Prop :=
  jsonrpcCheckVersion v = .ok () → jsonrpcCheckId v true = .ok () →
    (libjsonHas v jsonrpcKeyResult = true →
        VersionNulFree v ∧ libjsonHas v jsonrpcKeyError = false) ∧
      (libjsonHas v jsonrpcKeyResult = false → ∀ code, ErrorOf v code →
        (VersionNulFree v ↔ InInt64 code))

theorem jsonrpcCheckId_required {v : Json} :
    jsonrpcCheckId v true = .ok () ↔ ∃ id, v.get? jsonrpcKeyId = some id ∧ IsId id := by
  simp [jsonrpcCheckId_ok]

/-- The responses told right that are accepted are well-formed. -/
theorem ToldRight.wellFormed {v : Json} (h : ToldRight v) (hversion : jsonrpcCheckVersion v = .ok ())
    (hid : jsonrpcCheckId v true = .ok ())
    (hone : libjsonHas v jsonrpcKeyResult = true ∨ ∃ code, ErrorOf v code ∧ InInt64 code) :
    WellFormedResponse v := by
  obtain ⟨id, hget, hkind⟩ := jsonrpcCheckId_required.1 hid
  obtain ⟨hwith, hwithout⟩ := h hversion hid
  cases hresult : libjsonHas v jsonrpcKeyResult with
  | true =>
    obtain ⟨hnul, herror⟩ := hwith hresult
    refine ⟨object_of_get? hget, (exactVersion_iff hversion).2 hnul, ⟨id, hget, hkind⟩, ?_, ?_⟩
    · rw [hresult, herror]
      rfl
    · intro hhas
      rw [herror] at hhas
      cases hhas
  | false =>
    rw [hresult] at hone
    obtain ⟨code, herror, hrange⟩ := hone.resolve_left Bool.false_ne_true
    refine ⟨object_of_get? hget, ?_, ⟨id, hget, hkind⟩, ?_, fun _ => ⟨code, herror⟩⟩
    · exact (exactVersion_iff hversion).2 ((hwithout hresult code herror).2 hrange)
    · rw [hresult, herror.hasError]
      rfl

/-- **Responses are validated exactly where they are told right**: an error beside a result, a NUL
in the version and a code outside `int64_t` are the exceptions. -/
theorem response_validation_iff (v : Json) : ResponseValidated v ↔ ToldRight v := by
  constructor
  · intro h hversion hid
    constructor
    · intro hresult
      have hwell := h.accepts.1 ⟨⟨v⟩, jsonrpcResponseFromJson_ok.2
        ⟨rfl, hversion, hid, .inl hresult⟩⟩
      refine ⟨(exactVersion_iff hversion).1 hwell.version, ?_⟩
      simpa [hresult] using hwell.oneOf
    · intro hresult code herror
      constructor
      · intro hnul
        have hwell : WellFormedResponse v := by
          obtain ⟨id, hget, hkind⟩ := jsonrpcCheckId_required.1 hid
          refine ⟨object_of_get? hget, (exactVersion_iff hversion).2 hnul, ⟨id, hget, hkind⟩, ?_,
            fun _ => ⟨code, herror⟩⟩
          rw [hresult, herror.hasError]
          rfl
        obtain ⟨response, haccepted⟩ := h.accepts.2 hwell
        obtain ⟨-, -, -, hone⟩ := jsonrpcResponseFromJson_ok.1 haccepted
        rw [hresult] at hone
        obtain ⟨code', herror', hrange⟩ := hone.resolve_left Bool.false_ne_true
        rw [herror.unique herror']
        exact hrange
      · intro hrange
        have hwell := h.accepts.1 ⟨⟨v⟩, jsonrpcResponseFromJson_ok.2
          ⟨rfl, hversion, hid, .inr ⟨code, herror, hrange⟩⟩⟩
        exact (exactVersion_iff hversion).1 hwell.version
  · intro h
    constructor
    · constructor
      · rintro ⟨response, haccepted⟩
        obtain ⟨-, hversion, hid, hone⟩ := jsonrpcResponseFromJson_ok.1 haccepted
        exact h.wellFormed hversion hid hone
      · intro hwell
        have hversion := hwell.version.check
        have hid := jsonrpcCheckId_required.2 hwell.id
        refine ⟨⟨v⟩, jsonrpcResponseFromJson_ok.2 ⟨rfl, hversion, hid, ?_⟩⟩
        cases hresult : libjsonHas v jsonrpcKeyResult with
        | true => exact .inl rfl
        | false =>
          obtain ⟨code, herror⟩ := hwell.error (by simpa [hresult] using hwell.oneOf)
          have hnul := (exactVersion_iff hversion).1 hwell.version
          exact .inr ⟨code, herror, ((h hversion hid).2 hresult code herror).1 hnul⟩
    · intro response haccepted
      obtain ⟨rfl, hversion, hid, hone⟩ := jsonrpcResponseFromJson_ok.1 haccepted
      have hwell := h.wellFormed hversion hid hone
      constructor
      · intro hhas
        refine ⟨hwell.error hhas, ?_⟩
        have hone := hwell.oneOf
        rw [show libjsonHas v jsonrpcKeyError = true from hhas] at hone
        exact hone
      · rintro ⟨⟨code, herror⟩, -⟩
        exact herror.hasError

/-- A response with a result and an error that is no error. -/
def bothResponse : Json :=
  .object [(jsonrpcKeyVersion, .string jsonrpcValueVersion.bytes), (jsonrpcKeyId, .int 1),
    (jsonrpcKeyResult, .null), (jsonrpcKeyError, .null)]

/-- `bothResponse` is accepted, and it is an error. -/
theorem response_both_accepted :
    jsonrpcResponseFromJson bothResponse = .ok ⟨bothResponse⟩ ∧
      jsonrpcResponseIsError ⟨bothResponse⟩ = true ∧ ¬ ResponseValidated bothResponse := by
  refine ⟨rfl, rfl, ?_⟩
  intro h
  have hwell := h.accepts.1 ⟨⟨bothResponse⟩, rfl⟩
  exact absurd hwell.oneOf (by decide)

/-! ## Requests -/

/-- **A well-formed request.** -/
structure WellFormedRequest (v : Json) : Prop where
  object : ∃ members, v = .object members
  version : ExactVersion v
  method : ∃ method, StringAt v jsonrpcKeyMethod method
  id : v.get? jsonrpcKeyId = none ∨ ∃ id, v.get? jsonrpcKeyId = some id ∧ IsId id
  params : v.get? jsonrpcKeyParams = none ∨
    ∃ params, v.get? jsonrpcKeyParams = some params ∧ IsParams params

theorem jsonrpcRequestFromJson_iff {v : Json} {request : JsonrpcRequest} :
    jsonrpcRequestFromJson v = .ok request ↔ request = ⟨v⟩ ∧ jsonrpcCheckVersion v = .ok () ∧
      jsonrpcCheckId v false = .ok () ∧ jsonrpcCheckMethod v = .ok () ∧
      jsonrpcCheckParams v = .ok () := by
  simp only [jsonrpcRequestFromJson, bind_ok, pure, Except.pure, Except.ok.injEq]
  constructor
  · rintro ⟨_, hversion, _, hid, _, hmethod, _, hparams, rfl⟩
    exact ⟨rfl, hversion, hid, hmethod, hparams⟩
  · rintro ⟨rfl, hversion, hid, hmethod, hparams⟩
    exact ⟨(), hversion, (), hid, (), hmethod, (), hparams, rfl⟩

/-- The checks of a request, with the version read up to its first NUL. -/
structure PassesChecks (v : Json) (method : Bytes) : Prop where
  version : jsonrpcCheckVersion v = .ok ()
  id : jsonrpcCheckId v false = .ok ()
  method : StringAt v jsonrpcKeyMethod method
  params : jsonrpcCheckParams v = .ok ()

theorem accepted_iff {v : Json} :
    (∃ request, jsonrpcRequestFromJson v = .ok request) ↔ ∃ method, PassesChecks v method := by
  constructor
  · rintro ⟨request, haccepted⟩
    obtain ⟨-, hversion, hid, hmethod, hparams⟩ := jsonrpcRequestFromJson_iff.1 haccepted
    obtain ⟨method, hmethod⟩ := jsonrpcCheckMethod_ok.1 hmethod
    exact ⟨method, hversion, hid, hmethod, hparams⟩
  · rintro ⟨method, h⟩
    exact ⟨⟨v⟩, jsonrpcRequestFromJson_iff.2
      ⟨rfl, h.version, h.id, jsonrpcCheckMethod_ok.2 ⟨method, h.method⟩, h.params⟩⟩

theorem PassesChecks.wellFormed_iff {v : Json} {method : Bytes} (h : PassesChecks v method) :
    WellFormedRequest v ↔ VersionNulFree v := by
  constructor
  · intro hwell
    exact (exactVersion_iff h.version).1 hwell.version
  · intro hnul
    have hid := jsonrpcCheckId_ok.1 h.id
    simp only [and_true] at hid
    exact ⟨object_of_get? h.method, (exactVersion_iff h.version).2 hnul, ⟨method, h.method⟩, hid,
      jsonrpcCheckParams_ok.1 h.params⟩

theorem WellFormedRequest.passes {v : Json} (h : WellFormedRequest v) :
    ∃ method, PassesChecks v method := by
  obtain ⟨method, hmethod⟩ := h.method
  exact ⟨method, h.version.check, jsonrpcCheckId_ok.2 (h.id.imp_left fun hid => ⟨hid, rfl⟩),
    hmethod, jsonrpcCheckParams_ok.2 h.params⟩

/-! ## Dispatch -/

variable {σ : Type}

/-- A table that records the names of the entries whose handlers are called. -/
def traced (cmds : List (CmdDesc σ)) : List (CmdDesc (σ × List CStr)) :=
  cmds.map fun cmd => ⟨cmd.name, fun request fd s =>
    let handled := cmd.handler request fd s.1
    ⟨handled.ret, handled.response, (handled.state, s.2 ++ [cmd.name])⟩⟩

/-- **An exact dispatch**: the one handler called is that of an entry whose name is the whole
method, or the dispatch fails and calls none. -/
def ExactDispatch (cmds : List (CmdDesc σ)) (request : JsonrpcRequest) (method : Bytes) (fd : Nat)
    (state : σ) : Prop :=
  let handled := cmdDispatcherHandleInternal (traced cmds) request fd (state, [])
  (handled.ret < 0 ∧ handled.state = (state, [])) ∨
    ∃ cmd ∈ cmds, handled.state.2 = [cmd.name] ∧ cmd.name.bytes = method

theorem cmdOf_traced (cmds : List (CmdDesc σ)) {v : Json} {method : Bytes}
    (hmethod : StringAt v jsonrpcKeyMethod method) (fd : Nat) (state : σ) :
    (cmdDispatcherHandleInternal (traced cmds) ⟨v⟩ fd (state, []) = ⟨-1, none, (state, [])⟩ ∧
        ∀ cmd ∈ cmds, cmd.name ≠ CStr.ofBytes method) ∨
      ∃ cmd ∈ cmds, cmd.name = CStr.ofBytes method ∧
        (cmdDispatcherHandleInternal (traced cmds) ⟨v⟩ fd (state, [])).state.2 = [cmd.name] := by
  have hget : jsonrpcRequestGetMethod ⟨v⟩ = some (CStr.ofBytes method) := by
    unfold jsonrpcRequestGetMethod
    rw [libjsonGetString_ok.2 ⟨method, hmethod, rfl⟩]
    rfl
  unfold cmdDispatcherHandleInternal cmdOf cmdLookup traced
  rw [hget, Option.bind_some, List.find?_map]
  cases hfind : cmds.find? fun cmd => decide (cmd.name = CStr.ofBytes method) with
  | none =>
    refine .inl ⟨?_, ?_⟩
    · simp only [Function.comp_def, hfind, Option.map_none]
    · intro cmd hcmd hname
      exact List.find?_eq_none.1 hfind cmd hcmd (decide_eq_true hname)
  | some cmd =>
    refine .inr ⟨cmd, List.mem_of_find?_eq_some hfind, by simpa using List.find?_some hfind, ?_⟩
    simp only [Function.comp_def, hfind, Option.map_some, List.nil_append]

/-- **A dispatch is exact** unless there is a NUL in the method and an entry is named by what
stands before it. -/
theorem exactDispatch_iff (cmds : List (CmdDesc σ)) {v : Json} {method : Bytes}
    (hmethod : StringAt v jsonrpcKeyMethod method) (fd : Nat) (state : σ) :
    ExactDispatch cmds ⟨v⟩ method fd state ↔
      ((0 : UInt8) ∈ method → ∀ cmd ∈ cmds, cmd.name ≠ CStr.ofBytes method) := by
  unfold ExactDispatch
  rcases cmdOf_traced cmds hmethod fd state with ⟨hnone, hunknown⟩ | ⟨cmd, hcmd, hname, hcalled⟩
  · rw [hnone]
    exact ⟨fun _ _ => hunknown, fun _ => .inl ⟨show (-1 : Int32) < 0 by decide, rfl⟩⟩
  · constructor
    · rintro (⟨-, hstate⟩ | ⟨cmd', -, hcalled', hexact⟩) hnul
      · rw [hstate] at hcalled
        cases hcalled
      · rw [hcalled, List.cons.injEq] at hcalled'
        exact absurd hnul ((eq_bytes_iff rfl).1 (by rw [← hname, hcalled'.1, hexact]))
    · intro h
      refine .inr ⟨cmd, hcmd, hcalled, ?_⟩
      rw [hname]
      refine ((eq_bytes_iff rfl).2 ?_).symm
      intro hnul
      exact h hnul cmd hcmd hname

/-- **Requests are validated and dispatched**: accepted are exactly the well-formed ones, and the
dispatch of these is exact. -/
structure RequestValidated (v : Json) (cmds : List (CmdDesc σ)) (fd : Nat) (state : σ) : Prop where
  accepts : (∃ request, jsonrpcRequestFromJson v = .ok request) ↔ WellFormedRequest v
  dispatch : ∀ request method, jsonrpcRequestFromJson v = .ok request →
    StringAt request.impl jsonrpcKeyMethod method → ExactDispatch cmds request method fd state

/-- **Requests are validated and dispatched exactly where no NUL gets in the way**: of a request
that passes its checks, the version has none, and the method has none or no entry is named by what
stands before it. -/
theorem request_validation_iff (v : Json) (cmds : List (CmdDesc σ)) (fd : Nat) (state : σ) :
    RequestValidated v cmds fd state ↔
      ∀ method, PassesChecks v method → VersionNulFree v ∧
        ((0 : UInt8) ∈ method → ∀ cmd ∈ cmds, cmd.name ≠ CStr.ofBytes method) := by
  constructor
  · intro h method hpasses
    obtain ⟨request, haccepted⟩ := accepted_iff.2 ⟨method, hpasses⟩
    obtain ⟨rfl, -⟩ := jsonrpcRequestFromJson_iff.1 haccepted
    constructor
    · exact hpasses.wellFormed_iff.1 (h.accepts.1 ⟨_, haccepted⟩)
    · exact (exactDispatch_iff cmds hpasses.method fd state).1
        (h.dispatch _ method haccepted hpasses.method)
  · intro h
    constructor
    · rw [accepted_iff]
      constructor
      · rintro ⟨method, hpasses⟩
        exact hpasses.wellFormed_iff.2 (h method hpasses).1
      · exact WellFormedRequest.passes
    · intro request method haccepted hmethod
      obtain ⟨rfl, hversion, hid, -, hparams⟩ := jsonrpcRequestFromJson_iff.1 haccepted
      exact (exactDispatch_iff cmds hmethod fd state).2
        (h method ⟨hversion, hid, hmethod, hparams⟩).2

/-- A request whose version and method go on after a NUL. -/
def nulRequest (version method : Bytes) : Json :=
  .object [(jsonrpcKeyVersion, .string (jsonrpcValueVersion.bytes ++ version)),
    (jsonrpcKeyMethod, .string ((CStr.ofAscii "start-run").bytes ++ method))]

/-- A table with one entry. -/
def startRunTable : List (CmdDesc Unit) :=
  [⟨.ofAscii "start-run", fun _ _ state => ⟨0, none, state⟩⟩]

/-- A version with a NUL is accepted, and a method with a NUL is dispatched. -/
theorem request_nul_accepted :
    jsonrpcRequestFromJson (nulRequest [0, 120] []) = .ok ⟨nulRequest [0, 120] []⟩ ∧
      ¬ RequestValidated (nulRequest [0, 120] []) startRunTable 4 () ∧
      (cmdDispatcherHandleInternal (traced startRunTable) ⟨nulRequest [] [0, 120]⟩ 4
        ((), [])).state.2 = [.ofAscii "start-run"] ∧
      ¬ RequestValidated (nulRequest [] [0, 120]) startRunTable 4 () := by
  refine ⟨rfl, ?_, rfl, ?_⟩
  · intro h
    have hversion := (h.accepts.1 ⟨_, rfl⟩).version
    have hne : (Json.string (jsonrpcValueVersion.bytes ++ [0, 120])) ≠
        .string jsonrpcValueVersion.bytes := by
      rw [Ne, Json.string.injEq]
      decide
    exact hne (Option.some.inj hversion)
  · intro h
    rcases h.dispatch _ _ rfl rfl with ⟨hret, -⟩ | ⟨cmd, hcmd, -, hname⟩
    · exact absurd hret (by decide)
    · obtain rfl := List.mem_singleton.1 hcmd
      exact absurd hname (by decide)

end Cimple.Validation
