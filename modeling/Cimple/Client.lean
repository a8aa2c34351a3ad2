import Cimple.Commands
import Cimple.Jobs
import Cimple.Listing
import Cimple.Messages

/-!
# The client, and what it can know (`client.c`)

A client makes one request from its arguments, sends it on a connection of its own, and prints the
response.  Between the two ends of the connection there are bytes, in pieces of any size, and each
end may run out of memory or fail to send or to receive at any point.

* `Codec` — json-c: how a value is printed and parsed.
* `makeRequest`, `clientMain` — the client; `serveConnection` — the thread of the server on the
  other end; `exchange` — both of them.
* `Queued`, `Untouched` — what an exchange may do to the runs; `Decided` — the condition under which
  it does one of the two.
* `Activity`, `afterActivity` — what the server does between two exchanges.

A client that prints a result knows that its run is queued, one that prints an error that it is
not; a client that prints nothing knows nothing, whatever value it returns.

Principal results: `exchange_cases` (every exchange), `client_told` and `told_then_listed`.
-/

set_option autoImplicit false

namespace Cimple.Clients

open Octets JsonValue ByteStream Cimple.Json Cimple.JsonRpc Cimple.Command Cimple.RunQueue
  Cimple.Protocol Cimple.Net Cimple.Messages Cimple.Storage Cimple.Servers Cimple.Enqueueing
  Cimple.Jobs

/-! ## The client -/

/-- json-c: the text of a value in a message, its text for people, and the parser. -/
structure Codec where
  toText : Json → CStr
  toPretty : Json → CStr
  tokener : Tokener

/-- A value fits into a frame and is parsed from its text. -/
structure Codec.Carries (codec : Codec) (value : Json) : Prop where
  fits : Fits (codec.toText value)
  parsed : parseText codec.tokener (codec.toText value) = some value

/-- What the outside world does to one end of a connection: whether there is memory for the text
and the buffer of what is sent, and for what is received; the kernel's answers to `send` and to
`read`; and what stands in memory behind what is received. -/
structure EndEnv where
  sendOk : Bool
  writes : List WriteAns
  recvOk : Bool
  reads : List ReadAns
  beyond : Bytes

/-- What the outside world does to a client: whether there is memory for its request, and for the
text of the response, and whether it can connect. -/
structure ClientEnv extends EndEnv where
  makeOk : Bool
  connected : Bool
  prettyOk : Bool

/-- `libjson_send`, with its allocations. -/
def sendValue (codec : Codec) (o : ByteOrder) (env : EndEnv) (value : Json) : Written :=
  if env.sendOk then libjsonSend codec.toText o env.writes value else ⟨false, [], env.writes⟩

/-- `libjson_recv`, with its allocations. -/
def recvValue (codec : Codec) (o : ByteOrder) (env : EndEnv) (stream : Bytes) : Option Json :=
  if env.recvOk then (libjsonRecv codec.tokener o env.reads env.beyond stream).value else none

/-- `make_request`, in a process whose `jsonrpc_id_counter` is 1; `none` if it fails or, as for no
arguments, ends the process. -/
def makeRequest (makeOk : Bool) : List CStr → Option JsonrpcRequest
  | [] => none
  | cmd :: args =>
    if cmd = cmdQueueRun then
      match args with
      | [url, rev] =>
        if makeOk then (requestCreateQueueRun 1 (runQueued url rev)).toOption else none
      | _ => none
    else if cmd = cmdGetRuns then
      match args with
      | [] => if makeOk then (requestCreateGetRuns 1).toOption else none
      | _ => none
    else none

/-- How a client ends: `exit_with_usage_err`, or the value of `client_main`. -/
inductive Ended where
  | usage
  | returned (ret : Int32)
  deriving DecidableEq

/-- What a client leaves: how it ends, what it has sent if it got a connection, and what it has
printed. -/
structure ClientEnd where
  ended : Ended
  sent : Option Bytes
  printed : Option CStr

/-- `client_main`; `answer` is what the other end sends for what it gets. -/
def clientMain (codec : Codec) (o : ByteOrder) (env : ClientEnv) (argv : List CStr)
    (answer : Bytes → Bytes) : ClientEnd :=
  match makeRequest env.makeOk argv with
  | none => ⟨.usage, none, none⟩
  | some request =>
    if !env.connected then ⟨.returned (-1), none, none⟩
    else
      let w := sendValue codec o env.toEndEnv request.impl
      if !w.ok then ⟨.returned (-1), some w.bytes, none⟩
      else
        match (recvValue codec o env.toEndEnv (answer w.bytes)).bind fun impl =>
          (jsonrpcResponseFromJson impl).toOption with
        | none => ⟨.returned (-1), some w.bytes, none⟩
        | some response =>
          if env.prettyOk then
            ⟨.returned (if jsonrpcResponseIsError response then -1 else 0), some w.bytes,
              some (codec.toPretty response.impl)⟩
          else ⟨.returned 0, some w.bytes, none⟩

/-! ## The server's end -/

/-- What the outside world does to the thread of a connection, and to the handler it calls. -/
structure ConnEnv extends EndEnv where
  handler : HandlerEnv

/-- What `cmd_dispatcher_handle_conn_internal` does with a value it has received, or with none. -/
def served (env : ConnEnv) (fd : Nat) (received : Option Json) (server : Server) :
    Served Server :=
  cmdDispatcherHandleConnInternal (serverCommands env.handler) fd received true server

/-- `cmd_dispatcher_handle_conn`, on the bytes of a connection: what it sends, and the server it
leaves.  Without memory for the context, the request or the default responses nothing has been
received as far as the server is concerned. -/
def serveConnection (codec : Codec) (o : ByteOrder) (env : ConnEnv) (fd : Nat) (stream : Bytes)
    (server : Server) : Bytes × Server :=
  let served := served env fd (recvValue codec o env.toEndEnv stream) server
  let sent := match served.sent with
    | [] => []
    | response :: _ => (sendValue codec o env.toEndEnv response.impl).bytes
  (sent, served.state)

/-- A client and the thread of the server that serves it. -/
def exchange (codec : Codec) (o o' : ByteOrder) (env : ClientEnv) (conn : ConnEnv) (fd : Nat)
    (argv : List CStr) (server : Server) : ClientEnd × Server :=
  let client := clientMain codec o env argv fun bytes =>
    (serveConnection codec o' conn fd bytes server).1
  (client, match client.sent with
    | none => server
    | some bytes => (serveConnection codec o' conn fd bytes server).2)

/-! ## Bytes between the two ends -/

theorem netRecvBuf_part {buf : Buf} {part left : Bytes} (h : frame buf = part ++ left)
    (hleft : left ≠ []) (o : ByteOrder) (answers : List ReadAns) :
    (netRecvBuf o answers part).buf = none := by
  cases hrecv : (netRecvBuf o answers part).buf with
  | none => rfl
  | some buf' =>
    obtain ⟨_, -, hspec⟩ := netRecvBuf_spec o answers part
    have hpart := (hspec buf' hrecv).1
    generalize (netRecvBuf o answers part).stream = rest at hpart
    -- both frames begin with the same four bytes, so they are of the same length
    have hsize : be32 buf.size = be32 buf'.size := by
      have := congrArg (List.take 4) h
      rwa [hpart, frame, frame, List.append_assoc, List.append_assoc,
        List.take_left' (be32_length _), List.take_left' (be32_length _)] at this
    have hsame : buf.size = buf'.size := by
      rw [← ofBe32_be32 buf.size, hsize, ofBe32_be32]
    have hlength := congrArg List.length h
    rw [hpart] at hlength
    simp only [List.length_append, frame_length, hsame] at hlength
    have := List.length_pos_of_ne_nil hleft
    omega

theorem libjsonRecv_whole {codec : Codec} {value : Json} (hvalue : codec.Carries value)
    (o : ByteOrder) (answers : List ReadAns) (beyond : Bytes) :
    let received := libjsonRecv codec.tokener o answers beyond
      (frame (bufCreateFromString (codec.toText value)))
    received.value = none ∨ received.value = some value := by
  obtain ⟨-, hcontents⟩ := bufCreateFromString_fits hvalue.fits
  generalize bufCreateFromString (codec.toText value) = sent at hcontents
  unfold libjsonRecv
  cases hrecv : (netRecvBuf o answers (frame sent)).buf with
  | none => exact .inl rfl
  | some buf =>
    have hpayload : payload (frame sent) = sent.contents := by
      rw [payload, frame, List.take_left' (be32_length _), List.drop_left' (be32_length _),
        ofBe32_be32, ← Buf.contents_length, List.take_length]
    have hread : codec.tokener.read (buf.contents ++ beyond) =
        codec.tokener.read (codec.toText value).memory := by
      rw [netRecvBuf_payload hrecv, hpayload, hcontents]
      exact StringReader.read_append (StringReader.terminates_of_nul (by simp [CStr.memory])) beyond
    refine .inr ?_
    simp only [hread]
    exact hvalue.parsed

/-- **What is received of a value that was sent** is the value or nothing, and nothing if it was
not sent in full. -/
theorem recvValue_sent {codec : Codec} {value : Json} (hvalue : codec.Carries value)
    (o o' : ByteOrder) (env env' : EndEnv) :
    recvValue codec o' env' (sendValue codec o env value).bytes = none ∨
      (sendValue codec o env value).ok = true ∧
        recvValue codec o' env' (sendValue codec o env value).bytes = some value := by
  -- part of a frame is as good as nothing
  have hpart : ∀ part left, frame (bufCreateFromString (codec.toText value)) = part ++ left →
      left ≠ [] → recvValue codec o' env' part = none := by
    intro part left hframe hleft
    simp only [recvValue, libjsonRecv, netRecvBuf_part hframe hleft o' env'.reads, ite_self]
  unfold sendValue
  cases env.sendOk with
  | false => exact .inl (hpart [] _ (List.nil_append _).symm (List.cons_ne_nil _ _))
  | true =>
    rw [if_pos rfl, libjsonSend]
    obtain ⟨left, hframe, hok⟩ :=
      netSendBuf_spec o env.writes (bufCreateFromString (codec.toText value))
    by_cases hleft : left = []
    · rw [hleft, List.append_nil] at hframe
      rw [← hframe, recvValue]
      cases env'.recvOk with
      | false => exact .inl rfl
      | true =>
        rcases libjsonRecv_whole hvalue o' env'.reads env'.beyond with hnone | hsome
        · exact .inl hnone
        · exact .inr ⟨hok.2 hleft, hsome⟩
    · exact .inl (hpart _ left hframe hleft)

theorem recvValue_ok {codec : Codec} {value : Json} (hvalue : codec.Carries value)
    (o o' : ByteOrder) {env env' : EndEnv} (hsend : env.sendOk = true)
    (hwrites : .fail ∉ env.writes) (hrecv : env'.recvOk = true) (hreads : .fail ∉ env'.reads) :
    (sendValue codec o env value).ok = true ∧
      recvValue codec o' env' (sendValue codec o env value).bytes = some value := by
  have hok : (sendValue codec o env value).ok = true := by
    rw [sendValue, if_pos hsend]
    exact netSendBuf_ok o hwrites _
  refine ⟨hok, ?_⟩
  have hbytes : (sendValue codec o env value).bytes =
      frame (bufCreateFromString (codec.toText value)) ++ [] := by
    rw [sendValue, if_pos hsend] at hok ⊢
    rw [libjsonSend_whole codec.toText o env.writes hok, List.append_nil]
  rw [recvValue, if_pos hrecv, hbytes, libjsonRecv_frame codec.tokener hvalue.fits o' hreads]
  exact hvalue.parsed

theorem recvValue_nil (codec : Codec) (o : ByteOrder) (env : EndEnv) :
    recvValue codec o env [] = none := by
  have hframe : frame (bufCreateFromString (codec.toText .null)) =
      [] ++ frame (bufCreateFromString (codec.toText .null)) := rfl
  have hnone := netRecvBuf_part hframe (List.cons_ne_nil _ _) o env.reads
  simp only [recvValue, libjsonRecv, hnone, ite_self]

/-! ## Every exchange -/

section Exchange

variable {codec : Codec} {o o' : ByteOrder} {env : ClientEnv} {conn : ConnEnv} {fd : Nat}
  {server : Server}

theorem served_none (conn : ConnEnv) (fd : Nat) (server : Server) :
    (served conn fd none server).sent = [] ∧ (served conn fd none server).state = server :=
  ⟨rfl, rfl⟩

theorem served_some {value id : Json} (hrequest : jsonrpcRequestFromJson value = .ok ⟨value⟩)
    (hid : value.get? jsonrpcKeyId = some id) (conn : ConnEnv) (fd : Nat) (server : Server) :
    ∃ response, (served conn fd (some value) server).sent = [response] ∧
      jsonrpcResponseFromJson response.impl = .ok response := by
  have hanswer := cmdDispatcherHandleConnInternal_answer (serverCommands conn.handler)
    (serverCommands_answer conn.handler) hrequest fd true server
  have hnot : jsonrpcRequestIsNotification ⟨value⟩ = false := by
    simp [jsonrpcRequestIsNotification, libjsonHas, hid]
  obtain ⟨response, _, hsent, -, hanswers, -⟩ := hanswer.answered hnot
  exact ⟨response, hsent, hanswers.accepted⟩

/-- **Every exchange**: the server has not been asked, and the client prints nothing and does not
succeed; or the server has served the request, and the client prints nothing, or the answer. -/
theorem exchange_cases {argv : List CStr} {value id : Json}
    (hmake : ∀ request, makeRequest env.makeOk argv = some request → request = ⟨value⟩)
    (hvalue : codec.Carries value) (hrequest : jsonrpcRequestFromJson value = .ok ⟨value⟩)
    (hid : value.get? jsonrpcKeyId = some id)
    (hresponse : ∀ response ∈ (served conn fd (some value) server).sent,
      codec.Carries response.impl) :
    let out := exchange codec o o' env conn fd argv server
    (out.2 = server ∧ out.1.printed = none ∧ out.1.ended ≠ .returned 0) ∨
      ∃ response, (served conn fd (some value) server).sent = [response] ∧
        out.2 = (served conn fd (some value) server).state ∧ out.1.ended ≠ .usage ∧
        (out.1.printed = none ∨ out.1.printed = some (codec.toPretty response.impl) ∧
          out.1.ended = .returned (if jsonrpcResponseIsError response then -1 else 0)) := by
  have hfail : Ended.returned (-1) ≠ .returned 0 := by decide
  cases hmade : makeRequest env.makeOk argv with
  | none =>
    refine .inl ?_
    simp [exchange, clientMain, hmade]
  | some request =>
    obtain rfl := hmake request hmade
    cases hconnected : env.connected with
    | false =>
      refine .inl ?_
      simp [exchange, clientMain, hmade, hconnected, hfail]
    | true =>
      simp only [exchange, clientMain, hmade, hconnected, serveConnection, Bool.not_true,
        Bool.false_eq_true, if_false]
      generalize hw : sendValue codec o env.toEndEnv value = w
      rcases recvValue_sent hvalue o o' env.toEndEnv conn.toEndEnv with hnone | ⟨hok, hsome⟩
      · -- the server has received nothing, so the client receives nothing
        rw [hw] at hnone
        simp only [hnone, (served_none conn fd server).1, recvValue_nil, Option.bind_none]
        refine .inl ?_
        cases w.ok <;> simp [hnone, (served_none conn fd server).2, hfail]
      · rw [hw] at hok hsome
        obtain ⟨response, hsent, haccepted⟩ := served_some hrequest hid conn fd server
        simp only [hsome, hsent, hok, Bool.not_true, Bool.false_eq_true, if_false]
        refine .inr ⟨response, rfl, ?_⟩
        rcases recvValue_sent (hresponse response (by simp [hsent])) o' o conn.toEndEnv
            env.toEndEnv with hlost | ⟨-, hback⟩
        · simp [hlost, hsome]
        · simp only [hback, Option.bind_some, haccepted, Except.toOption]
          cases env.prettyOk <;> simp [hsome]

/-- Nothing fails at an end of a connection. -/
structure EndEnv.Works (env : EndEnv) : Prop where
  send : env.sendOk = true
  writes : .fail ∉ env.writes
  recv : env.recvOk = true
  reads : .fail ∉ env.reads

/-- Nothing fails in a client. -/
structure ClientEnv.Works (env : ClientEnv) : Prop extends env.toEndEnv.Works where
  make : env.makeOk = true
  connected : env.connected = true
  pretty : env.prettyOk = true

theorem exchange_works {argv : List CStr} {value : Json} {response : JsonrpcResponse}
    (hmake : makeRequest true argv = some ⟨value⟩) (hvalue : codec.Carries value)
    (henv : env.Works) (hconn : conn.Works)
    (hsent : (served conn fd (some value) server).sent = [response])
    (haccepted : jsonrpcResponseFromJson response.impl = .ok response)
    (hresponse : codec.Carries response.impl) :
    let client := (exchange codec o o' env conn fd argv server).1
    client.printed = some (codec.toPretty response.impl) ∧
      client.ended = .returned (if jsonrpcResponseIsError response then -1 else 0) := by
  obtain ⟨hok, hsome⟩ := recvValue_ok hvalue o o' henv.send henv.writes hconn.recv hconn.reads
  obtain ⟨-, hback⟩ := recvValue_ok hresponse o' o hconn.send hconn.writes henv.recv henv.reads
  simp [exchange, clientMain, henv.make, henv.connected, henv.pretty, hmake, serveConnection, hok,
    hsome, hsent, hback, haccepted, Except.toOption]

end Exchange

/-! ## A run is queued -/

/-- A run is queued: it has a row, and a place at the end of the queue under the row's number. -/
def Queued (url rev : CStr) (before after : Server) : Prop :=
  ∃ row queued, after.db.runs = before.db.runs ++ [row] ∧
    after.runQueue = before.runQueue ++ [queued] ∧ queued.repoUrl = url ∧ queued.repoRev = rev ∧
    Backed after.db (runJob queued)

/-- No run is new, neither in the database nor in the queue. -/
def Untouched (before after : Server) : Prop :=
  after.db.runs = before.db.runs ∧ after.runQueue = before.runQueue

/-- A run that is inserted has what it needs to be queued, or is rolled back and refused. -/
def Decided (env : HandlerEnv) (db : Db) (url : CStr) : Prop :=
  ∀ key id, insertedKeys env.create db url = some (key, id) → InsertedOk env key id

/-- The response to a `queue-run` request that is queued. -/
def queuedResponse : JsonrpcResponse := ⟨responseJson (.int 1) jsonrpcKeyResult .null⟩

/-- The response to a request that fails. -/
def failedResponse : JsonrpcResponse :=
  ⟨responseJson (.int 1) jsonrpcKeyError (errorJson (-1) defaultErrorMessage)⟩

theorem actualResponse_failed {ret : Int32} (hret : ret < 0) (defaultResponse : JsonrpcResponse) :
    actualResponse ret none defaultResponse failedResponse = failedResponse := by
  have herror : jsonrpcResponseIsError failedResponse = true := rfl
  simp only [actualResponse, if_pos hret]
  rw [if_neg]
  rintro ⟨-, hno⟩
  rw [herror] at hno
  cases hno

theorem served_eq {value id : Json} {conn : ConnEnv} {cmd : CmdDesc Server}
    (hrequest : jsonrpcRequestFromJson value = .ok ⟨value⟩)
    (hid : value.get? jsonrpcKeyId = some id)
    (hcmd : cmdOf (serverCommands conn.handler) ⟨value⟩ = some cmd) (fd : Nat) (server : Server) :
    let handled := cmd.handler ⟨value⟩ fd server
    (served conn fd (some value) server).state = handled.state ∧
      (served conn fd (some value) server).sent = [actualResponse handled.ret handled.response
        ⟨responseJson id jsonrpcKeyResult .null⟩
        ⟨responseJson id jsonrpcKeyError (errorJson (-1) defaultErrorMessage)⟩] := by
  have hrecv : jsonrpcRequestRecv (some value) = some ⟨value⟩ := by
    simp [jsonrpcRequestRecv, hrequest, Except.toOption]
  have hnot : jsonrpcRequestIsNotification ⟨value⟩ = false := by
    simp [jsonrpcRequestIsNotification, libjsonHas, hid]
  simp [served, cmdDispatcherHandleConnInternal, hrecv, hnot, jsonrpcResponseCreate_eq hid,
    jsonrpcErrorCreate_eq hid, cmdDispatcherHandleInternal, hcmd]

theorem cmdOf_queueRun (env : HandlerEnv) (url rev : CStr) :
    cmdOf (serverCommands env) ⟨queueRunJson 1 url rev⟩ =
      some ⟨cmdQueueRun, serverHandleCmdQueueRun env⟩ := by
  rw [cmdOf, queueRunJson, (jsonrpcRequestFromJson_requestJson _ _ _).2.1, Option.bind_some]
  rfl

theorem cmdOf_getRuns (env : HandlerEnv) :
    cmdOf (serverCommands env) ⟨.object (requestMembers (some 1) cmdGetRuns)⟩ =
      some ⟨cmdGetRuns, serverHandleCmdGetRuns env⟩ := by
  rw [cmdOf, (jsonrpcRequestFromJson_requestMembers _ _).2.1, Option.bind_some]
  rfl

/-- A run that is refused is not inserted, or is rolled back. -/
theorem serverEnqueueRun_fails {env : HandlerEnv} {server : Server} {run : Run}
    (hdecided : Decided env server.db run.repoUrl)
    (hret : (serverEnqueueRun env server run).1 < 0) :
    insertedKeys env.create server.db run.repoUrl = none ∨
      env.create.insertRun.rollback = true := by
  obtain ⟨ret, db', hcreate, hcases⟩ :=
    storageSqliteRunCreate_keys env.create server.db run.repoUrl run.repoRev
  rcases hcases with ⟨hnone, -, -⟩ | ⟨key, id, hkeys, -, rfl, -, -⟩
  · exact .inl hnone
  · cases hback : env.create.insertRun.rollback with
    | true => exact .inr rfl
    | false =>
      have hok := hdecided key id hkeys
      simp only [InsertedOk, hback, Bool.false_eq_true, if_false] at hok
      obtain ⟨hlock, -, hid, hpos⟩ := hok
      have hneg : ¬ columnInt id < 0 := by
        rw [columnInt_neg_iff hid]
        omega
      have hzero : ¬ (0 : Int32) < 0 := by decide
      simp only [serverEnqueueRun, hcreate, if_neg hneg, hlock, Bool.not_true, Bool.false_eq_true,
        if_false] at hret
      exact absurd hret hzero

/-- **The handler of `queue-run`** queues the run and makes the response, or does neither. -/
theorem serverHandleCmdQueueRun_told {env : HandlerEnv} {server : Server} {url : CStr}
    (hdecided : Decided env server.db url) (rev : CStr) (fd : Nat) :
    let handled := serverHandleCmdQueueRun env ⟨queueRunJson 1 url rev⟩ fd server
    (¬ handled.ret < 0 ∧ handled.response = some queuedResponse ∧
        Queued url rev server handled.state) ∨
      (handled.ret < 0 ∧ handled.response = none ∧ Untouched server handled.state ∧
        (env.responseOk = false ∨ insertedKeys env.create server.db url = none ∨
          env.create.insertRun.rollback = true)) := by
  have hfail : (-1 : Int32) < 0 := by decide
  simp only [serverHandleCmdQueueRun, requestParseQueueRun_queueRunJson]
  cases hresponse : env.responseOk with
  | false => exact .inr ⟨hfail, rfl, ⟨rfl, rfl⟩, .inl rfl⟩
  | true =>
    have hcreate : jsonrpcResponseCreate ⟨queueRunJson 1 url rev⟩ .null = .ok queuedResponse :=
      jsonrpcResponseCreate_eq rfl .null
    have hcontract :=
      (serverEnqueueRun_contract env server (runQueued url rev) queuedResponse).2 hdecided
    have hfails : (serverEnqueueRun env server (runQueued url rev)).1 < 0 →
        insertedKeys env.create server.db url = none ∨ env.create.insertRun.rollback = true :=
      serverEnqueueRun_fails hdecided
    simp only [Bool.not_true, Bool.false_eq_true, if_false, hcreate]
    generalize serverEnqueueRun env server (runQueued url rev) = out at hcontract hfails ⊢
    by_cases hret : out.1 < 0
    · simp only [if_pos hret] at hcontract ⊢
      obtain ⟨hruns, hqueue, -⟩ := hcontract.refused hret
      exact .inr ⟨hret, trivial, ⟨hruns, hqueue⟩, .inr (hfails hret)⟩
    · simp only [if_neg hret] at hcontract ⊢
      obtain ⟨row, queued, hruns, hqueue, hid, hurl, hrev, hrowRev, repo, hrepo, hrepoId,
        hrepoUrl⟩ := hcontract.queued hret
      have hmem : row ∈ out.2.db.runs := by
        rw [show _ = _ from hruns]
        exact List.mem_append_right _ (List.mem_singleton_self row)
      refine .inl ⟨hret, trivial, row, queued, hruns, hqueue, hurl, hrev, row, hmem, hid.symm, ?_,
        repo, hrepo, hrepoId, ?_⟩
      · rw [hrowRev, ← hrev]
        rfl
      · rw [hrepoUrl, ← hurl]
        rfl

/-- **Serving a `queue-run` request** queues its run and says so, or does neither. -/
theorem served_queueRun {conn : ConnEnv} {server : Server} {url : CStr}
    (hdecided : Decided conn.handler server.db url) (fd : Nat) (rev : CStr) :
    let served := served conn fd (some (queueRunJson 1 url rev)) server
    (served.sent = [queuedResponse] ∧ Queued url rev server served.state) ∨
      (served.sent = [failedResponse] ∧ Untouched server served.state ∧
        (conn.handler.responseOk = false ∨
          insertedKeys conn.handler.create server.db url = none ∨
          conn.handler.create.insertRun.rollback = true)) := by
  have hrequest : jsonrpcRequestFromJson (queueRunJson 1 url rev) = .ok ⟨queueRunJson 1 url rev⟩ :=
    (jsonrpcRequestFromJson_requestJson _ _ _).1
  obtain ⟨hstate, hsent⟩ := served_eq hrequest rfl (cmdOf_queueRun conn.handler url rev) fd server
  simp only [hstate, hsent]
  rcases serverHandleCmdQueueRun_told hdecided rev fd with
    ⟨hret, hresponse, hqueued⟩ | ⟨hret, hresponse, huntouched, hwhy⟩
  · refine .inl ⟨?_, hqueued⟩
    simp [actualResponse, hret, hresponse]
  · refine .inr ⟨?_, huntouched, hwhy⟩
    rw [hresponse]
    exact congrArg (fun response => [response]) (actualResponse_failed hret _)

theorem makeRequest_queueRun {makeOk : Bool} {url rev : CStr} :
    ∀ request, makeRequest makeOk [cmdQueueRun, url, rev] = some request →
      request = ⟨queueRunJson 1 url rev⟩ := by
  intro request h
  cases makeOk with
  | false => cases h
  | true => exact (Option.some.inj h).symm

/-- What the texts of a `queue-run` exchange are asked to be. -/
structure Codec.CarriesQueueRun (codec : Codec) (url rev : CStr) : Prop where
  request : codec.Carries (queueRunJson 1 url rev)
  queued : codec.Carries queuedResponse.impl
  failed : codec.Carries failedResponse.impl

/-- **Every `queue-run` exchange**: the server has not been asked, or it has queued the run, or it
has failed; what it says gets through or not. -/
theorem exchange_queueRun {codec : Codec} {url rev : CStr} (hcodec : codec.CarriesQueueRun url rev)
    (o o' : ByteOrder) (env : ClientEnv) {conn : ConnEnv} (fd : Nat) {before : Server}
    (hdecided : Decided conn.handler before.db url) :
    let out := exchange codec o o' env conn fd [cmdQueueRun, url, rev] before
    (out.2 = before ∧ out.1.printed = none ∧ out.1.ended ≠ .returned 0) ∨
      (Queued url rev before out.2 ∧ out.1.ended ≠ .usage ∧
        (out.1.printed = none ∨ out.1.printed = some (codec.toPretty queuedResponse.impl) ∧
          out.1.ended = .returned 0)) ∨
      (Untouched before out.2 ∧ out.1.ended ≠ .usage ∧
        (out.1.printed = none ∨ out.1.printed = some (codec.toPretty failedResponse.impl) ∧
          out.1.ended = .returned (-1))) := by
  intro out
  have hvalid : jsonrpcRequestFromJson (queueRunJson 1 url rev) = .ok ⟨queueRunJson 1 url rev⟩ :=
    (jsonrpcRequestFromJson_requestJson _ _ _).1
  have hserved := served_queueRun hdecided fd rev
  have hcarries : ∀ response ∈ (served conn fd (some (queueRunJson 1 url rev)) before).sent,
      codec.Carries response.impl := by
    intro response hmem
    rcases hserved with ⟨hsent, -⟩ | ⟨hsent, -⟩
    · rw [hsent] at hmem
      rw [List.mem_singleton.1 hmem]
      exact hcodec.queued
    · rw [hsent] at hmem
      rw [List.mem_singleton.1 hmem]
      exact hcodec.failed
  rcases exchange_cases (o := o) makeRequest_queueRun hcodec.request hvalid rfl hcarries with
    hunasked | ⟨response, hsent, hstate, hended, hprinted⟩
  · exact .inl hunasked
  · rw [show out.2 = _ from hstate]
    rcases hserved with ⟨hsent', hserved⟩ | ⟨hsent', hserved, -⟩
    · obtain rfl : response = queuedResponse := by simpa [hsent] using hsent'
      exact .inr (.inl ⟨hserved, hended, hprinted⟩)
    · obtain rfl : response = failedResponse := by simpa [hsent] using hsent'
      exact .inr (.inr ⟨hserved, hended, hprinted⟩)

theorem exchange_queueRun_works {codec : Codec} {url rev : CStr}
    (hcodec : codec.CarriesQueueRun url rev) (o o' : ByteOrder) {env : ClientEnv} {conn : ConnEnv}
    (fd : Nat) {before : Server} (hdecided : Decided conn.handler before.db url) (henv : env.Works)
    (hconn : conn.Works) (hresponse : conn.handler.responseOk = true)
    (hkeys : insertedKeys conn.handler.create before.db url ≠ none)
    (hkept : conn.handler.create.insertRun.rollback = false) :
    let client := (exchange codec o o' env conn fd [cmdQueueRun, url, rev] before).1
    client.printed = some (codec.toPretty queuedResponse.impl) ∧ client.ended = .returned 0 := by
  rcases served_queueRun hdecided fd rev with ⟨hsent, -⟩ | ⟨-, -, hno | hno | hno⟩
  · obtain ⟨_, hsent', haccepted⟩ :=
      served_some (jsonrpcRequestFromJson_requestJson (some 1) cmdQueueRun _).1 rfl conn fd before
    obtain rfl := List.singleton_inj.1 (hsent.symm.trans hsent')
    exact exchange_works rfl hcodec.request henv hconn hsent haccepted hcodec.queued
  · rw [hresponse] at hno
    cases hno
  · exact absurd hno hkeys
  · rw [hkept] at hno
    cases hno

/-- **What a client can know**: its run is queued or no run is; a printed result says that it is, a
printed error that it is not, and so does a usage message; and if nothing fails a result is
printed. -/
theorem client_told (codec : Codec) (o o' : ByteOrder) (env : ClientEnv) (conn : ConnEnv) (fd : Nat)
    (url rev : CStr) (before : Server) (hcodec : codec.CarriesQueueRun url rev)
    (hdecided : Decided conn.handler before.db url) :
    let out := exchange codec o o' env conn fd [cmdQueueRun, url, rev] before
    (Queued url rev before out.2 ∨ Untouched before out.2) ∧
      (∀ text, out.1.printed = some text →
        (text = codec.toPretty queuedResponse.impl ∧ out.1.ended = .returned 0 ∧
            Queued url rev before out.2) ∨
          (text = codec.toPretty failedResponse.impl ∧ out.1.ended = .returned (-1) ∧
            Untouched before out.2)) ∧
      (out.1.ended = .usage → Untouched before out.2) ∧
      (env.Works → conn.Works → conn.handler.responseOk = true →
        insertedKeys conn.handler.create before.db url ≠ none →
        conn.handler.create.insertRun.rollback = false →
        out.1.printed = some (codec.toPretty queuedResponse.impl)) := by
  intro out
  rw [← and_assoc, ← and_assoc]
  refine ⟨?_, ?_⟩
  · rcases exchange_queueRun hcodec o o' env fd hdecided with
      ⟨hsame, hprinted, -⟩ | ⟨hqueued, hended, hprinted⟩ | ⟨huntouched, -, hprinted⟩
    · have huntouched : Untouched before out.2 := by
        rw [show out.2 = before from hsame]
        exact ⟨rfl, rfl⟩
      refine ⟨⟨.inr huntouched, fun text htext => ?_⟩, fun _ => huntouched⟩
      cases hprinted.symm.trans htext
    · refine ⟨⟨.inl hqueued, fun text htext => ?_⟩, fun husage => absurd husage hended⟩
      rcases hprinted with hnone | ⟨hsome, hreturned⟩
      · cases hnone.symm.trans htext
      · exact .inl ⟨Option.some.inj (htext.symm.trans hsome), hreturned, hqueued⟩
    · refine ⟨⟨.inr huntouched, fun text htext => ?_⟩, fun _ => huntouched⟩
      rcases hprinted with hnone | ⟨hsome, hreturned⟩
      · cases hnone.symm.trans htext
      · exact .inr ⟨Option.some.inj (htext.symm.trans hsome), hreturned, huntouched⟩
  · intro henv hconn hresponse hkeys hkept
    exact (exchange_queueRun_works hcodec o o' fd hdecided henv hconn hresponse hkeys hkept).1

/-- The values of a `queue-run` exchange and of a `get-runs` request. -/
def sampleValues : List Json :=
  [queueRunJson 1 (.ofAscii "repo") (.ofAscii "HEAD"),
    .object (requestMembers (some 1) cmdGetRuns), queuedResponse.impl, failedResponse.impl]

/-- These values as json-c prints them. -/
def sampleText (value : Json) : CStr :=
  match jsonrpcRequestGetMethod ⟨value⟩ with
  | some method =>
    if method = cmdQueueRun then
      .ofAscii "\x7b \"jsonrpc\": \"2.0\", \"id\": 1, \"method\": \"queue-run\", \"params\": \x7b \"url\": \"repo\", \"rev\": \"HEAD\" \x7d \x7d"
    else .ofAscii "\x7b \"jsonrpc\": \"2.0\", \"id\": 1, \"method\": \"get-runs\" \x7d"
  | none =>
    if libjsonHas value jsonrpcKeyError then
      .ofAscii "\x7b \"jsonrpc\": \"2.0\", \"id\": 1, \"error\": \x7b \"code\": -1, \"message\": \"An error occured\" \x7d \x7d"
    else .ofAscii "\x7b \"jsonrpc\": \"2.0\", \"id\": 1, \"result\": null \x7d"

/-- A library that knows these texts. -/
def sampleCodec : Codec where
  toText := sampleText
  toPretty := sampleText
  tokener := ⟨⟨fun _ => false⟩, fun bytes =>
    sampleValues.find? fun value => (sampleText value).memory = bytes⟩

theorem sampleCodec_carries {value : Json} (h : value ∈ sampleValues) :
    sampleCodec.Carries value := by
  have hfits : ∀ value ∈ sampleValues, Fits (sampleText value) := by decide +kernel
  have htexts : (sampleValues.map fun value => (sampleText value).memory).Nodup := by
    decide +kernel
  refine ⟨hfits value h, ?_⟩
  rw [parseText, StringReader.read_memory fun _ => rfl]
  exact Commands.find?_of_nodup htexts h

theorem sampleCodec_queueRun : sampleCodec.CarriesQueueRun (.ofAscii "repo") (.ofAscii "HEAD") where
  request := sampleCodec_carries (.head _)
  queued := sampleCodec_carries (.tail _ (.tail _ (.head _)))
  failed := sampleCodec_carries (.tail _ (.tail _ (.tail _ (.head _))))

/-- Ends of connections and a client at which nothing fails, and bytes come one by one. -/
def calmEnd : EndEnv := ⟨true, List.replicate 9 (.took 0), true, List.replicate 9 (.gave 0), []⟩

def calmClient : ClientEnv := ⟨calmEnd, true, true, true⟩

def calmConn : ConnEnv := ⟨calmEnd, calm⟩

theorem calmEnd_works : calmEnd.Works := ⟨rfl, by decide, rfl, by decide⟩

theorem calmClient_works : calmClient.Works := ⟨calmEnd_works, rfl, rfl, rfl⟩

theorem calmConn_keys :
    insertedKeys calmConn.handler.create emptyServer.db (.ofAscii "repo") = some (1, 1) := rfl

theorem calmConn_decided : Decided calmConn.handler emptyServer.db (.ofAscii "repo") := by
  intro key id h
  rw [calmConn_keys] at h
  cases h
  decide

/-- A client whose run is queued, and is told so. -/
theorem client_told_queued :
    Queued (.ofAscii "repo") (.ofAscii "HEAD") emptyServer
      (exchange sampleCodec .little .big calmClient calmConn 4
        [cmdQueueRun, .ofAscii "repo", .ofAscii "HEAD"] emptyServer).2 := by
  obtain ⟨-, htold, -, hworks⟩ := client_told sampleCodec .little .big calmClient calmConn 4
    (.ofAscii "repo") (.ofAscii "HEAD") emptyServer sampleCodec_queueRun calmConn_decided
  have hprinted := hworks calmClient_works calmEnd_works rfl (by simp [calmConn_keys]) rfl
  rcases htold _ hprinted with ⟨-, -, hqueued⟩ | ⟨htext, -⟩
  · exact hqueued
  · exact absurd htext (by decide +kernel)

/-! ## A run is listed -/

/-- What the server does between two exchanges: it serves a connection with any bytes on it, or
assigns a run. -/
inductive Activity where
  | connection (conn : ConnEnv) (fd : Nat) (stream : Bytes)
  | assign (env : AssignEnv)

/-- The server after an activity; there is nothing to assign without a run or without a worker. -/
def afterActivity (codec : Codec) (o : ByteOrder) (server : Server) : Activity → Server
  | .connection conn fd stream => (serveConnection codec o conn fd stream server).2
  | .assign env => ((serverAssignRun codec.toText o env server).map Prod.fst).getD server

/-- No command loses a row. -/
theorem serverCommands_grow {env : HandlerEnv} {cmd : CmdDesc Server}
    (hcmd : cmd ∈ serverCommands env) (request : JsonrpcRequest) (fd : Nat) (server : Server) :
    Grows server.db (cmd.handler request fd server).state.db := by
  simp only [serverCommands, List.mem_cons, List.not_mem_nil, or_false] at hcmd
  rcases hcmd with rfl | rfl | rfl | rfl
  · rw [(serverHandleCmdNewWorker_frame env request fd server).1]
    exact .refl _
  · have henqueue : ∀ run, Grows server.db (serverEnqueueRun env server run).2.db := by
      intro run
      have := Listing.storageSqliteRunCreate_grows env.create server.db run.repoUrl run.repoRev
      simp only [serverEnqueueRun]
      split
      · exact this
      · split <;> exact this
    simp only [serverHandleCmdQueueRun]
    split
    · exact .refl _
    · split
      · exact .refl _
      · split
        · exact .refl _
        · split <;> exact henqueue _
  · simp only [serverHandleCmdFinishedRun]
    split
    · exact .refl _
    · exact storageSqliteRunFinished_grows _ _ _ _
  · simp only [serverHandleCmdGetRuns]
    split
    · exact .refl _
    · split
      · exact .refl _
      · split
        · exact .refl _
        · split <;> exact .refl _

theorem served_grows (conn : ConnEnv) (fd : Nat) (received : Option Json) (server : Server) :
    Grows server.db (served conn fd received server).state.db := by
  rcases cmdDispatcherHandleConnInternal_spec (serverCommands conn.handler) fd received true server
    with ⟨-, -, hstate⟩ | ⟨request, -, hstate, -⟩
  · rw [served, hstate]
    exact .refl _
  · rw [served, hstate, cmdDispatcherHandleInternal]
    split
    · rename_i cmd hcmd
      exact serverCommands_grow (cmdOf_mem hcmd) request fd server
    · exact .refl _

theorem afterActivity_grows (codec : Codec) (o : ByteOrder) (server : Server)
    (activity : Activity) : Grows server.db (afterActivity codec o server activity).db := by
  cases activity with
  | connection conn fd stream => exact served_grows conn fd _ server
  | assign env =>
    have hsame : (afterActivity codec o server (.assign env)).db = server.db := by
      simp only [afterActivity, serverAssignRun]
      split <;> rfl
    rw [hsame]
    exact .refl _

theorem activities_grow (codec : Codec) (o : ByteOrder) (activities : List Activity) :
    ∀ server : Server, Grows server.db (activities.foldl (afterActivity codec o) server).db := by
  induction activities with
  | nil => exact fun server => .refl server.db
  | cons activity activities ih =>
    intro server
    exact (afterActivity_grows codec o server activity).trans (ih _)

/-- The runs a `get-runs` request is answered with. -/
def listedRuns (db : Db) : List Json := (storageSqliteRowsToRuns [] (selectRuns db)).map runJson

/-- The response to a `get-runs` request that does not fail. -/
def listedResponse (db : Db) : JsonrpcResponse :=
  ⟨responseJson (.int 1) jsonrpcKeyResult (.array (listedRuns db))⟩

/-- **A run that has a row is listed** under its number, with its repository and its revision. -/
theorem listed_of_backed {db : Db} {run : Run} (h : Backed db (runJob run)) :
    ∃ item ∈ listedRuns db, item.get? RunQueue.runKeyId = some (.int run.id.toInt) ∧
      item.get? runKeyRepoUrl = some (.string run.repoUrl.bytes) ∧
      item.get? runKeyRepoRev = some (.string run.repoRev.bytes) := by
  obtain ⟨row, hrow, hid, hrev, repo, hrepo, hrepoId, hurl⟩ := h
  have hshows := List.forall₂_iff_get.1 (Listing.cimpleRunsView_shows db)
  obtain ⟨i, rfl⟩ := List.get_of_mem hrow
  have hi : i.1 < (cimpleRunsView db).length := hshows.1 ▸ i.2
  have hview := hshows.2 i.1 i.2 hi
  generalize hviewRow : (cimpleRunsView db).get ⟨i.1, hi⟩ = viewRow at hview
  have hmem : viewRow ∈ selectRuns db := by
    rw [selectRuns, List.mem_insertionSort, ← hviewRow]
    exact List.get_mem _ _
  refine ⟨runJson (storageSqliteRowToRun viewRow), ?_, ?_, ?_, ?_⟩
  · rw [listedRuns, storageSqliteRowsToRuns_eq, List.nil_append]
    exact List.mem_map_of_mem (List.mem_map_of_mem hmem)
  · have hsame : columnInt viewRow.id = run.id := by
      rw [hview.id, show _ = _ from hid]
      exact Int32.ofInt_toInt run.id
    rw [← hsame]
    rfl
  · have hsame : CStr.ofBytes viewRow.repoUrl = run.repoUrl := by
      obtain ⟨repo', hrepo', hrepoId', hurl'⟩ := hview.repo
      obtain rfl : repo = repo' :=
        List.inj_on_of_nodup_map db.repoIds hrepo hrepo' (hrepoId.trans hrepoId'.symm)
      rw [hurl', hurl, CStr.ofBytes_bytes]
      rfl
    rw [← hsame]
    rfl
  · have hsame : CStr.ofBytes viewRow.repoRev = run.repoRev := by
      rw [hview.repoRev, show _ = _ from hrev, CStr.ofBytes_bytes]
      rfl
    rw [← hsame]
    rfl

/-- **Serving a `get-runs` request** lists the runs, or fails; it changes nothing. -/
theorem served_getRuns (conn : ConnEnv) (fd : Nat) (server : Server) :
    let served := served conn fd (some (.object (requestMembers (some 1) cmdGetRuns))) server
    served.state = server ∧
      (served.sent = [listedResponse server.db] ∨ served.sent = [failedResponse]) := by
  have hrequest : jsonrpcRequestFromJson (.object (requestMembers (some 1) cmdGetRuns)) =
      .ok ⟨.object (requestMembers (some 1) cmdGetRuns)⟩ :=
    (jsonrpcRequestFromJson_requestMembers _ _).1
  obtain ⟨hstate, hsent⟩ := served_eq hrequest rfl (cmdOf_getRuns conn.handler) fd server
  have hfailed : ∀ ret : Int32, ret < 0 → [actualResponse ret none
      ⟨responseJson (.int 1) jsonrpcKeyResult .null⟩ failedResponse] = [failedResponse] :=
    fun ret hret => congrArg (fun response => [response]) (actualResponse_failed hret _)
  simp only [hstate, hsent, serverHandleCmdGetRuns, requestParseGetRuns, storageSqliteGetRuns]
  cases conn.handler.storage.fault with
  | some e => exact ⟨rfl, .inr (hfailed e e.2)⟩
  | none =>
    cases conn.handler.responseOk with
    | false => exact ⟨rfl, .inr (hfailed (-1) (by decide))⟩
    | true =>
      have hcreate : responseCreateGetRuns ⟨.object (requestMembers (some 1) cmdGetRuns)⟩
          (storageSqliteRowsToRuns [] (selectRuns server.db)) = .ok (listedResponse server.db) := by
        rw [responseCreateGetRuns, runQueueToJson_eq]
        show jsonrpcResponseCreate ⟨.object (requestMembers (some 1) cmdGetRuns)⟩ _ = _
        exact jsonrpcResponseCreate_eq rfl _
      simp only [Bool.not_true, Bool.false_eq_true, if_false, hcreate, true_and]
      exact .inl rfl

theorem makeRequest_getRuns {makeOk : Bool} :
    ∀ request, makeRequest makeOk [cmdGetRuns] = some request →
      request = ⟨.object (requestMembers (some 1) cmdGetRuns)⟩ := by
  intro request h
  cases makeOk with
  | false => cases h
  | true => exact (Option.some.inj h).symm

/-- **A list that is printed** is the list of the runs there are. -/
theorem exchange_getRuns {codec : Codec} {server : Server}
    (hrequest : codec.Carries (.object (requestMembers (some 1) cmdGetRuns)))
    (hlisted : codec.Carries (listedResponse server.db).impl)
    (hfailed : codec.Carries failedResponse.impl) (o o' : ByteOrder) (env : ClientEnv)
    (conn : ConnEnv) (fd : Nat) {text : CStr} :
    let out := exchange codec o o' env conn fd [cmdGetRuns] server
    out.2 = server ∧ (out.1.printed = some text → out.1.ended = .returned 0 →
      text = codec.toPretty (listedResponse server.db).impl) := by
  obtain ⟨hstate, hsent⟩ := served_getRuns conn fd server
  have hcarries : ∀ response ∈ (served conn fd
      (some (.object (requestMembers (some 1) cmdGetRuns))) server).sent,
      codec.Carries response.impl := by
    intro response hmem
    rcases hsent with hsent | hsent
    · rw [hsent] at hmem
      rw [List.mem_singleton.1 hmem]
      exact hlisted
    · rw [hsent] at hmem
      rw [List.mem_singleton.1 hmem]
      exact hfailed
  rcases exchange_cases (o := o) makeRequest_getRuns hrequest
      (jsonrpcRequestFromJson_requestMembers (some 1) cmdGetRuns).1 rfl hcarries with
    ⟨hsame, hnone, -⟩ | ⟨response, hsent', hstate', -, hprinted⟩
  · refine ⟨hsame, fun htext => ?_⟩
    cases hnone.symm.trans htext
  · refine ⟨hstate'.trans hstate, fun htext hended => ?_⟩
    rcases hprinted with hnone | ⟨hsome, hreturned⟩
    · cases hnone.symm.trans htext
    · rcases hsent with hsent | hsent
      · obtain rfl : response = listedResponse server.db := by simpa [hsent'] using hsent
        exact Option.some.inj (htext.symm.trans hsome)
      · obtain rfl : response = failedResponse := by simpa [hsent'] using hsent
        cases hreturned.symm.trans hended

/-- **A run whose client was told so** is in every list that is printed from then on, under one
number, whatever the server has served and assigned in between. -/
theorem told_then_listed (codec : Codec) (o o' : ByteOrder) (env : ClientEnv) (conn : ConnEnv)
    (fd : Nat) (url rev : CStr) (before : Server) (hcodec : codec.CarriesQueueRun url rev)
    (hlist : codec.Carries (.object (requestMembers (some 1) cmdGetRuns)))
    (hdecided : Decided conn.handler before.db url)
    (hended : (exchange codec o o' env conn fd [cmdQueueRun, url, rev] before).1.ended =
      .returned 0)
    (hprinted : (exchange codec o o' env conn fd [cmdQueueRun, url, rev] before).1.printed ≠
      none) :
    ∃ queued, (exchange codec o o' env conn fd [cmdQueueRun, url, rev] before).2.runQueue =
        before.runQueue ++ [queued] ∧ queued.repoUrl = url ∧ queued.repoRev = rev ∧
      ∀ (activities : List Activity) (env' : ClientEnv) (conn' : ConnEnv) (fd' : Nat),
        let later := activities.foldl (afterActivity codec o')
          (exchange codec o o' env conn fd [cmdQueueRun, url, rev] before).2
        let listing := (exchange codec o o' env' conn' fd' [cmdGetRuns] later).1
        codec.Carries (listedResponse later.db).impl →
        ∀ text, listing.printed = some text → listing.ended = .returned 0 →
          ∃ items, text = codec.toPretty (responseJson (.int 1) jsonrpcKeyResult (.array items)) ∧
            ∃ item ∈ items, item.get? RunQueue.runKeyId = some (.int queued.id.toInt) ∧
              item.get? runKeyRepoUrl = some (.string url.bytes) ∧
              item.get? runKeyRepoRev = some (.string rev.bytes) := by
  rcases exchange_queueRun hcodec o o' env fd hdecided with
    ⟨-, hnone, -⟩ | ⟨hqueued, -⟩ | ⟨-, -, hnone | ⟨-, hfailed⟩⟩
  · exact absurd hnone hprinted
  · obtain ⟨-, queued, -, hqueue, hurl, hrev, hbacked⟩ := hqueued
    refine ⟨queued, hqueue, hurl, hrev, ?_⟩
    intro activities env' conn' fd' later listing hcarries text htext hreturned
    have hlater := hbacked.grows (activities_grow codec o' activities _)
    obtain ⟨-, hshown⟩ := exchange_getRuns hlist hcarries hcodec.failed o o' env' conn' fd'
    refine ⟨listedRuns later.db, hshown htext hreturned, ?_⟩
    rw [← hurl, ← hrev]
    exact listed_of_backed hlater
  · exact absurd hnone hprinted
  · cases hfailed.symm.trans hended

/-- A client whose run is at the end of the queue, and is listed from then on. -/
theorem told_then_listed_queued :
    ∃ queued, (exchange sampleCodec .little .big calmClient calmConn 4
        [cmdQueueRun, .ofAscii "repo", .ofAscii "HEAD"] emptyServer).2.runQueue =
          emptyServer.runQueue ++ [queued] ∧ queued.repoUrl = .ofAscii "repo" := by
  obtain ⟨hprinted, hended⟩ := exchange_queueRun_works sampleCodec_queueRun .little .big 4
    calmConn_decided calmClient_works calmEnd_works rfl (by simp [calmConn_keys]) rfl
  obtain ⟨queued, hqueue, hurl, -⟩ := told_then_listed sampleCodec .little .big calmClient calmConn
    4 (.ofAscii "repo") (.ofAscii "HEAD") emptyServer sampleCodec_queueRun
    (sampleCodec_carries (.tail _ (.head _))) calmConn_decided hended
    (by rw [hprinted]; exact Option.some_ne_none _)
  exact ⟨queued, hqueue, hurl⟩

end Cimple.Clients
