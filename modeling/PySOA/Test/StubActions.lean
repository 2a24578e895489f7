import PySOA.Lib.Assoc
import PySOA.Lib.Splits
import PySOA.Server.Execution

/-! Clients with stubbed actions: the wrappers around sending a request and around reading all responses,
one for each active stub, and the client below them, whose requests are answered by a server. -/
namespace PySOA

/-- How an action ends at its position in a job. -/
inductive PositionOutcome
  | body (b : Value)
  | errors (es : List Error)

/-- A request for an action, and how the action ends at this position. -/
structure StubTask where
  action : String
  body : Value := .dict []
  outcome : PositionOutcome

namespace StubTask

def request (task : StubTask) : ActionRequest := ⟨.text task.action, task.body⟩

def response (task : StubTask) : ActionResponse :=
  match task.outcome with
  | .body b => { action := .text task.action, body := b }
  | .errors es => { action := .text task.action, errors := es }

/-- How running the action ends on a server. -/
def taskOutcome (task : StubTask) : TaskOutcome :=
  match task.outcome with
  | .body _ => .returned task.response
  | .errors es => .actionError es

end StubTask

namespace ActionResponse

def hasErrors (a : ActionResponse) : Bool := !a.errors.isEmpty

end ActionResponse

/-- The responses of a server that runs the tasks in order. -/
def executeTasks (continueOnError : Bool) : List StubTask → List ActionResponse
  | [] => []
  | task :: tasks =>
    if task.response.hasErrors && !continueOnError then [task.response]
    else task.response :: executeTasks continueOnError tasks

/-- The argument `continue_on_error` of `send_request`. -/
inductive ContinueOnError
  | omitted
  | keyword (b : Bool)
  | positional (b : Bool)
  deriving DecidableEq

namespace ContinueOnError

/-- The value that the client puts in the control header. -/
def value : ContinueOnError → Bool
  | omitted => false
  | keyword b | positional b => b

/-- `kwargs.get('continue_on_error', False)`. -/
def inKwargs : ContinueOnError → Bool
  | keyword b => b
  | omitted | positional _ => false

end ContinueOnError

/-- What a call of the mock gives, as far as the wrapper handles it; of a job response with actions, the
errors and the first action. `other` is an object of any other type. -/
inductive MockResult
  | jobResponse (errors : List Error) (action : ActionResponse)
  | body (b : Dict)
  | actionResponse (response : ActionResponse)
  | other
  | actionError (errors : List Error)
  | jobError (errors : List Error)
  | receiveError (e : Exc)

namespace MockResult

/-- The `mock_response` for the action with the given name. -/
def response? (action : String) : MockResult → Option ActionResponse
  | jobResponse _ response | actionResponse response => some response
  | body b => some { action := .text action, body := .dict b }
  | other => some { action := .text action }
  | actionError errors => some { action := .text action, errors }
  | jobError _ | receiveError _ => none

def jobErrors : MockResult → List Error
  | jobResponse errors _ | jobError errors => errors
  | _ => []

def transportException : MockResult → Option Exc
  | receiveError e => some e
  | _ => none

end MockResult

/-- What a wrapper keeps for a request with stubbed actions until all responses are read. In a response
that is to be merged the actions are keyed by their places in the request. -/
inductive StubbedResponse
  | exception (e : Exc)
  | job (response : JobResponse)
  | toMerge (errors : List Error) (actions : List (ℕ × ActionResponse))

/-- An active `stub_action`. The dicts are those of the services and, below them, of request ids. -/
structure StubAction where
  service : String
  action : String
  mock : StubTask → MockResult
  servicesWithCallsSent : String → Bool := fun _ => false
  responsesOutstanding : String → List (ℕ × StubbedResponse) := fun _ => []
  responsesToMerge : String → List (ℕ × (ℕ × Bool)) := fun _ => []

/-- What the calls of the mock for a request have given so far. -/
structure MockCalls where
  errors : List Error := []
  actions : List (ℕ × ActionResponse) := []
  exception : Option Exc := none

namespace StubAction

/-- The action is stubbed. -/
def stubs (stub : StubAction) (serviceName : String) (task : StubTask) : Bool :=
  serviceName = stub.service && task.action = stub.action

/-- The loop of `wrapped_send_request` over the actions to send to the mock. -/
def callMock (stub : StubAction) (continueOnError : Bool) : List (ℕ × StubTask) → MockCalls → MockCalls
  | [], calls => calls
  | (i, task) :: tasks, calls =>
    let result := stub.mock task
    let response := result.response? stub.action
    let calls : MockCalls := {
      errors := calls.errors ++ result.jobErrors
      actions := calls.actions ++ response.toList.map fun r => (i, r)
      exception := result.transportException.or calls.exception }
    if !continueOnError && response.any ActionResponse.hasErrors then calls
    else if !calls.errors.isEmpty then calls
    else callMock stub continueOnError tasks calls

/-- What is kept for a request whose responses have to be merged, and for one that was not sent on. -/
def kept (merge : Bool) (calls : MockCalls) : StubbedResponse :=
  match calls.exception with
  | some e => .exception e
  | none =>
    if merge then .toMerge calls.errors calls.actions
    else .job { errors := calls.errors, actions := calls.actions.map Prod.snd }

def keep (stub : StubAction) (serviceName : String) (requestId : ℕ) (response : StubbedResponse) :
    StubAction :=
  { stub with
    responsesOutstanding := Function.update stub.responsesOutstanding serviceName
      (Assoc.upsert requestId (fun _ => response) (stub.responsesOutstanding serviceName)) }

def markSent (stub : StubAction) (serviceName : String) : StubAction :=
  { stub with servicesWithCallsSent := Function.update stub.servicesWithCallsSent serviceName true }

def expectMerge (stub : StubAction) (serviceName : String) (unwrappedRequestId : ℕ)
    (merge : ℕ × Bool) : StubAction :=
  { stub with
    responsesToMerge := Function.update stub.responsesToMerge serviceName
      (Assoc.upsert unwrappedRequestId (fun _ => merge) (stub.responsesToMerge serviceName)) }

end StubAction

/-- The client below the wrappers: the next request id for each service, and the responses of the
service that have not been read. -/
structure UnstubbedClient where
  requestCounter : String → ℕ := fun _ => 0
  responses : String → List (ℕ × JobResponse) := fun _ => []

namespace UnstubbedClient

/-- `Client.send_request`; the response of the server is on its way. -/
def sendRequest (client : UnstubbedClient) (serviceName : String) (continueOnError : Bool)
    (tasks : List StubTask) : UnstubbedClient where
  requestCounter := Function.update client.requestCounter serviceName (client.requestCounter serviceName + 1)
  responses := Function.update client.responses serviceName (client.responses serviceName ++
    [(client.requestCounter serviceName, { actions := executeTasks continueOnError tasks })])

/-- `Client.get_all_responses`, read to the end: the client afterwards. -/
def received (client : UnstubbedClient) (serviceName : String) : UnstubbedClient :=
  { client with responses := Function.update client.responses serviceName [] }

end UnstubbedClient

/-- A client with active stubs, the last of which is first, and the counter that all stubs share. -/
structure StubbedClient where
  counter : ℕ := 0
  stubs : List StubAction
  client : UnstubbedClient := {}

namespace StubbedClient

/-- `send_request` through the wrappers: the request id and the client afterwards. -/
def send (serviceName : String) (continueOnError : ContinueOnError) :
    List StubAction → ℕ → UnstubbedClient → List StubTask → ℕ × StubbedClient
  | [], counter, client, tasks =>
    (client.requestCounter serviceName,
      ⟨counter, [], client.sendRequest serviceName continueOnError.value tasks⟩)
  | stub :: stubs, counter, client, tasks =>
    let toMock := Splits.placed (stub.stubs serviceName) 0 tasks
    let toWrappedClient := tasks.filter fun task => !stub.stubs serviceName task
    let requestId := counter
    let calls := stub.callMock continueOnError.inKwargs toMock {}
    if toWrappedClient.isEmpty then
      (requestId, ⟨counter+1, stub.keep serviceName requestId (StubAction.kept false calls) :: stubs, client⟩)
    else
      let sent := send serviceName continueOnError stubs (counter+1) client toWrappedClient
      let stub := stub.markSent serviceName
      if toMock.isEmpty then (sent.1, { sent.2 with stubs := stub :: sent.2.stubs })
      else
        let stub := stub.expectMerge serviceName sent.1 (requestId, continueOnError.inKwargs)
        (requestId, { sent.2 with
          stubs := stub.keep serviceName requestId (StubAction.kept true calls) :: sent.2.stubs })

def sendRequest (c : StubbedClient) (serviceName : String) (tasks : List StubTask)
    (continueOnError : ContinueOnError) : ℕ × StubbedClient :=
  send serviceName continueOnError c.stubs c.counter c.client tasks

end StubbedClient

namespace StubAction

/-- Leaves out what comes after the first action with errors. -/
def haltAtFirstError (actions : List ActionResponse) : List ActionResponse :=
  match actions.findIdx? ActionResponse.hasErrors with
  | some firstErrorIndex => actions.take (firstErrorIndex + 1)
  | none => actions

/-- A pass of the loop of `wrapped_get_all_responses` over the responses to the wrapped client. -/
def mergeResponse (stub : StubAction) (serviceName : String) (requestId : ℕ) (response : JobResponse) :
    Except Exc ((ℕ × JobResponse) × StubAction) :=
  match Assoc.get? requestId (stub.responsesToMerge serviceName) with
  | none => .ok ((requestId, response), stub)
  | some (stubRequestId, continueOnError) =>
    let popped : StubAction := { stub with
      responsesToMerge := Function.update stub.responsesToMerge serviceName
        ((stub.responsesToMerge serviceName).filter fun entry => entry.1 ≠ requestId)
      responsesOutstanding := Function.update stub.responsesOutstanding serviceName
        ((stub.responsesOutstanding serviceName).filter fun entry => entry.1 ≠ stubRequestId) }
    match Assoc.get? stubRequestId (stub.responsesOutstanding serviceName) with
    | none => .error (.keyError stubRequestId.repr)
    | some (.exception e) => .error e
    | some (.job _) => .error (.attributeError "'list' object has no attribute 'items'")
    | some (.toMerge errors actions) =>
      let merged := Splits.insertAll response.actions actions
      .ok ((stubRequestId, { response with
        actions := if continueOnError then merged else haltAtFirstError merged
        errors := response.errors ++ errors }), popped)

def mergeResponses (serviceName : String) : StubAction → List (ℕ × JobResponse) →
    Except Exc (List (ℕ × JobResponse) × StubAction)
  | stub, [] => .ok ([], stub)
  | stub, (requestId, response) :: responses =>
    (stub.mergeResponse serviceName requestId response).bind fun first =>
      (mergeResponses serviceName first.2 responses).map fun rest => (first.1 :: rest.1, rest.2)

/-- The loop over the outstanding responses. A response that was to be merged comes with all its actions. -/
def readOutstanding : List (ℕ × StubbedResponse) → Except Exc (List (ℕ × JobResponse))
  | [] => .ok []
  | (_, .exception e) :: _ => .error e
  | (requestId, .job response) :: outstanding =>
    (readOutstanding outstanding).map ((requestId, response) :: ·)
  | (requestId, .toMerge errors actions) :: outstanding =>
    (readOutstanding outstanding).map ((requestId, { errors, actions := actions.map Prod.snd }) :: ·)

/-- The end of `wrapped_get_all_responses`, after the loop over the responses to the wrapped client. -/
def finish (stub : StubAction) (serviceName : String) :
    Except Exc (List (ℕ × JobResponse) × StubAction) :=
  if (stub.responsesToMerge serviceName).isEmpty then
    (readOutstanding (stub.responsesOutstanding serviceName)).map fun responses =>
      (responses, { stub with
        responsesOutstanding := Function.update stub.responsesOutstanding serviceName [] })
  else
    .error (.exception "Exception"
      "Something very bad happened, and there are still stubbed responses to merge!")

/-- `wrapped_get_all_responses`, given the responses to the wrapped client. -/
def getAllResponses (stub : StubAction) (serviceName : String) (responses : List (ℕ × JobResponse)) :
    Except Exc (List (ℕ × JobResponse) × StubAction) :=
  (stub.mergeResponses serviceName responses).bind fun merged =>
    (merged.2.finish serviceName).map fun outstanding => (merged.1 ++ outstanding.1, outstanding.2)

end StubAction

namespace StubbedClient

/-- `get_all_responses` through the wrappers, read to the end: the request ids and responses, the stubs
and the client below them. Nothing is said about the state after an exception. -/
def receive (serviceName : String) : List StubAction → UnstubbedClient →
    Except Exc (List (ℕ × JobResponse) × List StubAction × UnstubbedClient)
  | [], client => .ok (client.responses serviceName, [], client.received serviceName)
  | stub :: stubs, client =>
    (if stub.servicesWithCallsSent serviceName then receive serviceName stubs client
      else .ok ([], stubs, client)).bind fun wrapped =>
        (stub.getAllResponses serviceName wrapped.1).map fun out =>
          (out.1, out.2 :: wrapped.2.1, wrapped.2.2)

def getAllResponses (c : StubbedClient) (serviceName : String) :
    Except Exc (List (ℕ × JobResponse) × StubbedClient) :=
  (receive serviceName c.stubs c.client).map fun out => (out.1, { c with stubs := out.2.1, client := out.2.2 })

end StubbedClient
end PySOA
