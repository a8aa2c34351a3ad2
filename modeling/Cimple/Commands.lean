import Cimple.Server
import Cimple.Worker

/-!
# The commands of the server and of the worker

What holds of both tables of commands.

* `OneAnswer` of `Command.lean`, for the tables as they are registered: `one_request_one_answer`.
* `Delivered` — a created request, printed and parsed again, is accepted, finds its handler and
  is decoded to the fields it was created from: `requests_delivered`.
-/

set_option autoImplicit false

namespace Cimple.Commands

open Octets JsonValue Cimple.Json Cimple.JsonRpc Cimple.Command Cimple.RunQueue Cimple.Protocol
  Cimple.Servers Cimple.Workers

/-! ## Answers -/

theorem workerCommands_answer : ∀ cmd ∈ workerCommands, AnswersRequest cmd.handler := by
  simp only [workerCommands, List.mem_singleton]
  rintro cmd rfl request fd worker response h
  simp only [workerHandleCmdStartRun] at h
  split at h <;> cases h

/-- **One request, one answer.**  Every valid request on a connection of the server or of the
worker is answered once, or not at all if it is a notification, whatever the handlers do; and so
it is with any other table whose handlers make their responses from the request they get. -/
theorem one_request_one_answer (impl : Json) (request : JsonrpcRequest)
    (hrequest : jsonrpcRequestFromJson impl = .ok request) (fd : Nat) (sendOk : Bool) :
    (∀ (env : HandlerEnv) (server : Server), OneAnswer (serverCommands env) request fd server
        (cmdDispatcherHandleConnInternal (serverCommands env) fd (some impl) sendOk server)) ∧
      (∀ worker : Workers.Worker, OneAnswer workerCommands request fd worker
        (cmdDispatcherHandleConnInternal workerCommands fd (some impl) sendOk worker)) ∧
      ∀ (σ : Type) (cmds : List (CmdDesc σ)), (∀ cmd ∈ cmds, AnswersRequest cmd.handler) →
        ∀ state : σ, OneAnswer cmds request fd state
          (cmdDispatcherHandleConnInternal cmds fd (some impl) sendOk state) :=
  ⟨fun env server => cmdDispatcherHandleConnInternal_answer _ (serverCommands_answer env)
      hrequest fd sendOk server,
    fun worker => cmdDispatcherHandleConnInternal_answer _ workerCommands_answer hrequest fd sendOk
      worker,
    fun _ _ hcmds state => cmdDispatcherHandleConnInternal_answer _ hcmds hrequest fd sendOk state⟩

/-- The answers to a `get-runs` request and to a request for an unknown method. -/
theorem one_request_one_answer_server :
    OneAnswer (serverCommands calm) ⟨.object (requestMembers (some 7) cmdGetRuns)⟩ 4 emptyServer
        (cmdDispatcherHandleConnInternal (serverCommands calm) 4
          (some (.object (requestMembers (some 7) cmdGetRuns))) true emptyServer) ∧
      OneAnswer (serverCommands calm) ⟨.object (requestMembers (some 7) cmdStartRun)⟩ 4 emptyServer
        (cmdDispatcherHandleConnInternal (serverCommands calm) 4
          (some (.object (requestMembers (some 7) cmdStartRun))) true emptyServer) :=
  ⟨(one_request_one_answer _ _ (jsonrpcRequestFromJson_requestMembers (some 7) cmdGetRuns).1 4
      true).1 calm emptyServer,
    (one_request_one_answer _ _ (jsonrpcRequestFromJson_requestMembers (some 7) cmdStartRun).1 4
      true).1 calm emptyServer⟩

/-! ## Delivery -/

/-- A JSON library: the text of a value, and the value of a text. -/
structure Library where
  toText : Json → CStr
  parse : CStr → Option Json

/-- The library prints a value as a text from which it reads the value again. -/
def Library.Faithful (lib : Library) (value : Json) : Prop :=
  lib.parse (lib.toText value) = some value

/-- **A delivered request**: it is created, what the receiver parses from its text is accepted,
is a notification or not, has the method of a command of the table, and is decoded. -/
def Delivered {σ : Type} (lib : Library) (cmds : List (CmdDesc σ)) (cmd : CmdDesc σ)
    (notification : Bool) (created : Except JsonErr JsonrpcRequest)
    (decoded : JsonrpcRequest → Prop) : Prop :=
  ∃ request received, created = .ok request ∧
    lib.parse (lib.toText request.impl) = some received ∧
    jsonrpcRequestFromJson received = .ok ⟨received⟩ ∧
    jsonrpcRequestGetMethod ⟨received⟩ = some cmd.name ∧
    jsonrpcRequestIsNotification ⟨received⟩ = notification ∧
    cmdOf cmds ⟨received⟩ = some cmd ∧ decoded ⟨received⟩

theorem delivered_of_eq {σ : Type} {lib : Library} {cmds : List (CmdDesc σ)} {cmd : CmdDesc σ}
    {notification : Bool} {created : Except JsonErr JsonrpcRequest}
    {decoded : JsonrpcRequest → Prop} {value : Json} (hcreated : created = .ok ⟨value⟩)
    (hlib : lib.Faithful value)
    (hvalue : jsonrpcRequestFromJson value = .ok ⟨value⟩ ∧
      jsonrpcRequestGetMethod ⟨value⟩ = some cmd.name ∧
      jsonrpcRequestIsNotification ⟨value⟩ = notification)
    (hlookup : cmdLookup cmds cmd.name = some cmd) (hdecoded : decoded ⟨value⟩) :
    Delivered lib cmds cmd notification created decoded :=
  ⟨⟨value⟩, value, hcreated, hlib, hvalue.1, hvalue.2.1, hvalue.2.2,
    by simp [cmdOf, hvalue.2.1, hlookup], hdecoded⟩

/-- **Decoding undoes encoding for every command.**  Whatever the run and the output are, each
request that the library prints and parses faithfully is delivered with its fields. -/
theorem requests_delivered (lib : Library) (counter : Int32) (run : Run) (output : ProcessOutput)
    (env : HandlerEnv)
    (hlib : ∀ request,
      requestCreateQueueRun counter run = .ok request ∨ requestCreateNewWorker = .ok request ∨
        requestCreateStartRun run = .ok request ∨
        requestCreateFinishedRun run.id output = .ok request ∨
        requestCreateGetRuns counter = .ok request → lib.Faithful request.impl) :
    Delivered lib (serverCommands env) ⟨cmdQueueRun, serverHandleCmdQueueRun env⟩ false
        (requestCreateQueueRun counter run)
        (fun r => requestParseQueueRun r = .ok (runQueued run.repoUrl run.repoRev)) ∧
      Delivered lib (serverCommands env) ⟨cmdNewWorker, serverHandleCmdNewWorker env⟩ true
        requestCreateNewWorker (fun _ => True) ∧
      Delivered lib workerCommands ⟨cmdStartRun, workerHandleCmdStartRun⟩ true
        (requestCreateStartRun run)
        (fun r => requestParseStartRun r = .ok (runCreated run.id run.repoUrl run.repoRev)) ∧
      Delivered lib (serverCommands env) ⟨cmdFinishedRun, serverHandleCmdFinishedRun env⟩ true
        (requestCreateFinishedRun run.id output)
        (fun r => requestParseFinishedRun r = .ok (run.id, output)) ∧
      Delivered lib (serverCommands env) ⟨cmdGetRuns, serverHandleCmdGetRuns env⟩ false
        (requestCreateGetRuns counter) (fun r => requestParseGetRuns r = .ok ()) := by
  refine ⟨?_, ?_, ?_, ?_, ?_⟩
  · exact delivered_of_eq (requestCreateQueueRun_eq counter run) (hlib _ (.inl rfl))
      (jsonrpcRequestFromJson_requestJson _ _ _) rfl (requestParseQueueRun_queueRunJson _ _ _)
  · exact delivered_of_eq requestCreateNewWorker_eq (hlib _ (.inr (.inl rfl)))
      (jsonrpcRequestFromJson_requestMembers _ _) rfl trivial
  · exact delivered_of_eq (requestCreateStartRun_eq run) (hlib _ (.inr (.inr (.inl rfl))))
      (jsonrpcRequestFromJson_requestJson _ _ _) rfl (requestParseStartRun_startRunJson run)
  · exact delivered_of_eq (requestCreateFinishedRun_eq run.id output)
      (hlib _ (.inr (.inr (.inr (.inl rfl))))) (jsonrpcRequestFromJson_requestJson _ _ _) rfl
      (requestParseFinishedRun_finishedRunJson _ _)
  · exact delivered_of_eq (requestCreateGetRuns_eq counter)
      (hlib _ (.inr (.inr (.inr (.inr rfl))))) (jsonrpcRequestFromJson_requestMembers _ _) rfl rfl

/-- The run and the output of the texts below. -/
def sampleRun : Run := runCreated 7 (.ofAscii "repo") (.ofAscii "HEAD")

def sampleOutput : ProcessOutput := ⟨2, [65, 0, 66]⟩

/-- The five requests as json-c prints them, with their methods and their values. -/
def sampleTexts : List (CStr × CStr × Json) :=
  [(cmdQueueRun, .ofAscii "\x7b \"jsonrpc\": \"2.0\", \"id\": 0, \"method\": \"queue-run\", \"params\": \x7b \"url\": \"repo\", \"rev\": \"HEAD\" \x7d \x7d",
      queueRunJson 0 sampleRun.repoUrl sampleRun.repoRev),
    (cmdNewWorker, .ofAscii "\x7b \"jsonrpc\": \"2.0\", \"method\": \"new-worker\" \x7d",
      .object (requestMembers none cmdNewWorker)),
    (cmdStartRun, .ofAscii "\x7b \"jsonrpc\": \"2.0\", \"method\": \"start-run\", \"params\": \x7b \"id\": 7, \"url\": \"repo\", \"rev\": \"HEAD\" \x7d \x7d",
      startRunJson sampleRun),
    (cmdFinishedRun, .ofAscii "\x7b \"jsonrpc\": \"2.0\", \"method\": \"finished-run\", \"params\": \x7b \"run_id\": 7, \"exit_code\": 2, \"output\": \"QQBC\" \x7d \x7d",
      finishedRunJson sampleRun.id sampleOutput),
    (cmdGetRuns, .ofAscii "\x7b \"jsonrpc\": \"2.0\", \"id\": 0, \"method\": \"get-runs\" \x7d",
      .object (requestMembers (some 0) cmdGetRuns))]

/-- A library that knows these texts. -/
def sampleLibrary : Library where
  toText value := ((sampleTexts.find? fun t =>
    some t.1 = jsonrpcRequestGetMethod ⟨value⟩).map fun t => t.2.1).getD (.ofAscii "")
  parse text := (sampleTexts.find? fun t => t.2.1 = text).map fun t => t.2.2

theorem find?_of_nodup {α β : Type} [DecidableEq β] {key : α → β} {l : List α} {a : α}
    (hnodup : (l.map key).Nodup) (h : a ∈ l) : (l.find? fun x => key x = key a) = some a := by
  induction l with
  | nil => cases h
  | cons x l ih =>
    rw [List.map_cons, List.nodup_cons] at hnodup
    rcases List.mem_cons.1 h with rfl | h
    · simp
    · have hne : key x ≠ key a := fun heq => hnodup.1 (heq ▸ List.mem_map.2 ⟨a, h, rfl⟩)
      simp [hne, ih hnodup.2 h]

theorem sampleLibrary_faithful {method text : CStr} {value : Json}
    (h : (method, text, value) ∈ sampleTexts)
    (hmethod : jsonrpcRequestGetMethod ⟨value⟩ = some method) : sampleLibrary.Faithful value := by
  have hmethods : (sampleTexts.map fun t => t.1).Nodup := by decide +kernel
  have htexts : (sampleTexts.map fun t => t.2.1).Nodup := by decide +kernel
  have h₁ := find?_of_nodup hmethods h
  have h₂ := find?_of_nodup htexts h
  simp only [Library.Faithful, sampleLibrary, hmethod, Option.some.injEq] at h₁ h₂ ⊢
  rw [h₁]
  simp only [Option.map_some, Option.getD_some]
  rw [h₂]
  rfl

/-- The five requests of the texts are delivered; in particular an output with a NUL is. -/
theorem requests_delivered_sample :
    Delivered sampleLibrary (serverCommands calm)
      ⟨cmdFinishedRun, serverHandleCmdFinishedRun calm⟩ true
      (requestCreateFinishedRun 7 sampleOutput)
      (fun r => requestParseFinishedRun r = .ok (7, sampleOutput)) := by
  refine (requests_delivered sampleLibrary 0 sampleRun sampleOutput calm ?_).2.2.2.1
  rintro request (h | h | h | h | h)
  · rw [requestCreateQueueRun_eq] at h
    cases h
    exact sampleLibrary_faithful (.head _) (jsonrpcRequestFromJson_requestJson _ _ _).2.1
  · rw [requestCreateNewWorker_eq] at h
    cases h
    exact sampleLibrary_faithful (.tail _ (.head _))
      (jsonrpcRequestFromJson_requestMembers _ _).2.1
  · rw [requestCreateStartRun_eq] at h
    cases h
    exact sampleLibrary_faithful (.tail _ (.tail _ (.head _)))
      (jsonrpcRequestFromJson_requestJson _ _ _).2.1
  · rw [requestCreateFinishedRun_eq] at h
    cases h
    exact sampleLibrary_faithful (.tail _ (.tail _ (.tail _ (.head _))))
      (jsonrpcRequestFromJson_requestJson _ _ _).2.1
  · rw [requestCreateGetRuns_eq] at h
    cases h
    exact sampleLibrary_faithful (.tail _ (.tail _ (.tail _ (.tail _ (.head _)))))
      (jsonrpcRequestFromJson_requestMembers _ _).2.1

end Cimple.Commands
