import PySOA.RedisGateway.Core
import PySOA.Server.Server

/-! Handling one request: receiving it, running its job and sending the response, or an error in
its place. Logging and metrics do not fail, and the hooks around a request do nothing here. -/
namespace PySOA

/-- A server transport. Sending changes the meta dict of the request in place. -/
structure ServerTransport (σ : Type) where
  receiveRequestMessage : σ → Except Exc ReceivedMessage × σ
  sendResponseMessage : Value → Meta → Value → σ → Except Exc Unit × Meta × σ

/-- What handling a request leaves: how it returns, the responses that have been sent with the
request ids they carry, and the world. -/
structure Handled (σ : Type) where
  result : Except Exc Unit
  sent : List (Value × Value) := []
  world : σ

/-- `PySOALogContextFilter.set_logging_request_context(request_id=request_id, **context)`, a class
method, where a repeated argument is an error of the given class. -/
def setLoggingRequestContext (repeatedArgument : String) : Value → Except Exc Unit
  | .dict context =>
    if ¬context.all (·.1.isText) then .error (.typeError "keywords must be strings")
    else if Dict.hasKeyText context "request_id" || Dict.hasKeyText context "cls" then
      .error (.exception repeatedArgument "got multiple values for argument")
    else .ok ()
  | _ => .error (.typeError "argument after ** must be a mapping")

/-- The logging context is set; if that fails it is tried again with the keys as texts. -/
def logRequestContext (repeatedArgument : String) (jobRequest : Dict) : Except Exc Unit :=
  let context := (jobRequest.get? "context").getD (.dict [])
  match setLoggingRequestContext "TypeError" context, context with
  | .ok (), _ => .ok ()
  | .error _, .dict context => setLoggingRequestContext repeatedArgument (.dict (Dict.unicodeKeys context))
  | .error _, _ => .error (.attributeError "object has no attribute 'items'")

/-- The version that the client gives of itself, of integers. -/
def clientVersion (metaDict : Meta) : Except Exc (List ℤ) :=
  match metaDict.entries.get? "client_version" with
  | none => .ok [0,40,0]
  | some version => do
    (← iterate version).mapM fun
      | .int n => .ok n
      | _ => .error (.typeError "not supported between instances")

/-- `job_request.get('control', {}).get('suppress_response', False)`. -/
def suppressResponse (jobRequest : Dict) : Except Exc Bool :=
  match (jobRequest.get? "control").getD (.dict []) with
  | .dict control => .ok ((Dict.get? control "suppress_response").getD (.bool false)).truthy
  | _ => .error (.attributeError "object has no attribute 'get'")

/-- `handle_job_error_code`. -/
def handleJobErrorCode (code message : String) : JobResponse where
  errors := [{ code := .text code, message := .text message, isCallerError := .bool false }]

/-- The response that is sent in place of one that could not be sent, by the exception. -/
def replacement? : Exc → Option JobResponse
  | .messageTooLarge .. => some
      (handleJobErrorCode "RESPONSE_TOO_LARGE" "Could not send the response because it was too large")
  | .invalidField _ => some
      (handleJobErrorCode "RESPONSE_NOT_SERIALIZABLE"
        "Could not send the response because it failed to serialize")
  | _ => none

namespace ServerTransport
variable {σ : Type} (transport : ServerTransport σ)

/-- The part of `handle_next_request` that sends the response. -/
def sendResponse (received : ReceivedMessage) (version : List ℤ) (message : Value) (w : σ) :
    Handled σ :=
  match transport.sendResponseMessage received.requestId received.metaDict message w with
  | (.ok (), _, w) => { result := .ok (), sent := [(received.requestId, message)], world := w }
  | (.error e, metaDict, w) =>
    match replacement? e with
    | none => { result := .error e, world := w }
    | some jobResponse =>
      match jobResponse.asdict version with
      | .error e => { result := .error e, world := w }
      | .ok message =>
        match transport.sendResponseMessage received.requestId metaDict message w with
        | (.ok (), _, w) => { result := .ok (), sent := [(received.requestId, message)], world := w }
        | (.error e, _, w) => { result := .error e, world := w }

end ServerTransport

namespace Server
variable {σ : Type} (server : Server σ)

/-- The response as a message dict, or an error if it cannot be converted to one. -/
def responseMessage (version : List ℤ) (jobResponse : JobResponse) : Except Exc Value :=
  match jobResponse.asdict version with
  | .ok message => .ok message
  | .error e =>
    let errorVariables : Value :=
      match server.repr jobResponse with
      | some repr => .dict [(.text "job_response", .text repr)]
      | none => .text "Error formatting variables"
    JobResponse.asdict version { errors := [server.handleUnhandledException e errorVariables] }

/-- `handle_next_request` from the request on that has been received. -/
def handleRequest (transport : ServerTransport σ) (received : ReceivedMessage) (jobRequest : Dict)
    (w : σ) : Handled σ :=
  match logRequestContext server.repeatedArgument jobRequest, clientVersion received.metaDict with
  | .error e, _ => { result := .error e, world := w }
  | .ok (), .error e => { result := .error e, world := w }
  | .ok (), .ok version =>
    let out := server.processJob jobRequest w
    match server.responseMessage version out.1, suppressResponse jobRequest with
    | .error e, _ => { result := .error e, world := out.2 }
    | .ok _, .error e => { result := .error e, world := out.2 }
    | .ok _, .ok true => { result := .ok (), world := out.2 }
    | .ok message, .ok false => transport.sendResponse received version message out.2

def handleNextRequest (transport : ServerTransport σ) (w : σ) : Handled σ :=
  match transport.receiveRequestMessage w with
  | (.error e, w) => { result := if e.isReceiveTimeout then .ok () else .error e, world := w }
  | (.ok received, w) =>
    match received.requestId, received.body with
    | .none, _ | _, .none => { result := .ok (), world := w }
    | _, .dict jobRequest => server.handleRequest transport received jobRequest w
    | _, _ => { result := .error (.attributeError "object has no attribute 'get'"), world := w }

end Server
end PySOA
