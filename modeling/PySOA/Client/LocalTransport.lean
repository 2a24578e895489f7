import PySOA.Client.Client
import PySOA.Common.ResponseRoundTrip
import PySOA.Lib.Runs
import PySOA.Server.Answering

/-! The local transport, with which a client and its server run in one thread: sending a request runs the
server, and the responses wait in a queue of the transport. -/
namespace PySOA

/-- The state of a local transport and, besides, the rest of the world. -/
structure LocalState (ω : Type) where
  currentRequest : Option ReceivedMessage := none
  responseMessages : List ReceivedMessage := []
  world : ω

namespace LocalClientTransport
variable {ω : Type}

/-- What the server sees of the transport. -/
def serverTransport : ServerTransport (LocalState ω) where
  receiveRequestMessage s :=
    match s.currentRequest with
    | some request => (.ok request, { s with currentRequest := none })
    | none => (.error (.exception "RuntimeError" "Local server tried to receive message more than once"), s)
  sendResponseMessage requestId metaDict body s :=
    (.ok (), metaDict, { s with responseMessages := s.responseMessages ++ [⟨requestId, metaDict, body⟩] })

def sendRequestMessage (server : Server (LocalState ω)) (requestId : Value) (metaDict : Meta) (body : Value)
    (s : LocalState ω) : Except Exc Unit × LocalState ω :=
  let handled := server.handleNextRequest serverTransport
    { s with currentRequest := some ⟨requestId, metaDict, body⟩ }
  (handled.result, { handled.world with currentRequest := none })

def receiveResponseMessage (s : LocalState ω) : ReceivedMessage × LocalState ω :=
  match s.responseMessages with
  | message :: messages => (message, { s with responseMessages := messages })
  | [] => (.empty, s)

end LocalClientTransport

/-- The service handler of a client whose transport is local. -/
structure LocalHandler (ω : Type) where
  clientVersion : List ℤ
  server : Server (LocalState ω)
  requestCounter : ℤ
  state : LocalState ω

namespace LocalHandler
variable {ω : Type} (handler : LocalHandler ω)

def metaDict : Meta where
  entries := [(.text "client_version", .list (handler.clientVersion.map .int))]

/-- The request counter goes up even if the request is not sent. -/
def sendRequest (jobRequest : JobRequest) : Except Exc ℤ × LocalHandler ω :=
  let requestId := handler.requestCounter
  let handler := { handler with requestCounter := requestId+1 }
  match jobRequest.asdict with
  | .error e => (.error e, handler)
  | .ok body =>
    let out := LocalClientTransport.sendRequestMessage handler.server (.int requestId) handler.metaDict body
      handler.state
    (out.1.map fun _ => requestId, { handler with state := out.2 })

def baseGetResponse : Except Exc (Option (Value × JobResponse)) × LocalHandler ω :=
  let out := LocalClientTransport.receiveResponseMessage handler.state
  let handler := { handler with state := out.2 }
  if out.1.body.isNone then (.ok none, handler)
  else
    match JobResponse.ofKwargs out.1.body with
    | .error e => (.error e, handler)
    | .ok response => (.ok (some (out.1.requestId, response)), handler)

/-- A loop over at most the given number of responses of `get_all_responses`. -/
def forResponses {σ : Type*} (body : σ → Value → JobResponse → Except Exc σ) :
    ℕ → σ → LocalHandler ω → Except Exc Unit × σ × LocalHandler ω
  | 0, s, handler => (.ok (), s, handler)
  | n+1, s, handler =>
    match handler.baseGetResponse with
    | (.error e, handler) => (.error e, s, handler)
    | (.ok none, handler) => (.ok (), s, handler)
    | (.ok (some (requestId, response)), handler) =>
      if requestId.isNone then (.ok (), s, handler)
      else
        match body s requestId response with
        | .error e => (.error e, s, handler)
        | .ok s => forResponses body n s handler

/-- `for request_id, response in handler.get_all_responses()`, which ends when the queue is empty. -/
def getAllResponses {σ : Type*} (body : σ → Value → JobResponse → Except Exc σ) (s : σ) :
    Except Exc Unit × σ × LocalHandler ω :=
  forResponses body (handler.state.responseMessages.length+1) s handler

/-- `call_actions` with a job request that the client has made. -/
def callActions (jobRequest : JobRequest) (raiseJobErrors raiseActionErrors : Bool) :
    Except Exc JobResponse × LocalHandler ω :=
  match handler.sendRequest jobRequest with
  | (.error e, handler) => (.error e, handler)
  | (.ok expectedRequestId, handler) =>
    let future : ActionsFuture :=
      { serviceName := handler.server.serviceName, expectedRequestId, raiseJobErrors, raiseActionErrors }
    let out := handler.getAllResponses ActionsFuture.collect []
    match out.1 with
    | .error e => (.error e, out.2.2)
    | .ok () =>
      match out.2.1.find? (fun r => r.1.eqInt expectedRequestId) with
      | none => (.error (future.unexpected (out.2.1.map Prod.fst)), out.2.2)
      | some (_, response) => (checkErrors raiseJobErrors raiseActionErrors response, out.2.2)

end LocalHandler
end PySOA
