import PySOA.Client.ServiceHandler

/-! The client: sending requests to services, and the futures that its calls return. Expansions
are not part of this model: the argument `expansions` has its default. -/
namespace PySOA

/-- A context header; the entry with the switches is kept apart from the others. -/
structure Context where
  entries : Dict := []
  switches : Option (List ℤ) := none
  apart : entries.hasKeyText "switches" = false := by rfl

lemma Context.apart_nil : Dict.hasKeyText [] "switches" = false := rfl

/-- The handlers of the configured services, the client's own context, and the correlation ids
that it will generate. -/
structure Client where
  handlers : String → Option ServiceHandler
  context : Context := {}
  uuids : ℕ → String := fun _ => ""
  drawn : ℕ := 0

/-- The arguments that the calls of a client pass on to each request. -/
structure RequestArguments where
  switches : List ℤ := []
  correlationId : Option String := none
  continueOnError : Bool := false
  context : Option Context := none
  controlExtra : Dict := []
  timeout : Option ℤ := none

namespace Client

def setHandler (client : Client) (serviceName : String) (handler : ServiceHandler) : Client :=
  { client with handlers := Function.update client.handlers serviceName (some handler) }

def unrecognized (serviceName : String) : Exc :=
  .exception "ImproperlyConfigured" ("Unrecognized service name \"" ++ serviceName ++ "\"")

def makeControlHeader (continueOnError : Bool) (controlExtra : Dict) (suppressResponse : Bool) : Dict :=
  Dict.update [(.text "continue_on_error", .bool continueOnError),
    (.text "suppress_response", .bool suppressResponse)] controlExtra

/-- The context header, and the context argument, whose switches have been taken out. The order of
the switches is that of their first appearance. -/
def makeContextHeader (client : Client) (switches : List ℤ) (correlationId : Option String)
    (contextExtra : Option Context) : Dict × Option Context × Client :=
  let entries := client.context.entries
  let (entries, drawn) :=
    match correlationId with
    | some correlationId => (entries.set "correlation_id" (.text correlationId), client.drawn)
    | none =>
      if (entries.get? "correlation_id").isSome then (entries, client.drawn)
      else (entries.set "correlation_id" (.text (client.uuids client.drawn)), client.drawn+1)
  let extra := contextExtra.getD {}
  let all := (client.context.switches.getD [] ++ switches ++ extra.switches.getD []).dedup
  let entries := entries.set "switches" (.list (all.map .int))
  ((entries.update extra.entries).unicodeKeys, contextExtra.map ({ · with switches := none }), { client with drawn })

/-- Besides the request id this returns the context argument as it is afterwards. -/
def sendRequest (client : Client) (serviceName : String) (actions : List ActionRequest)
    (arguments : RequestArguments) (suppressResponse : Bool) :
    Except Exc ℤ × Option Context × Client :=
  let timeout := arguments.timeout.filter (· ≠ 0)
  let controlExtra :=
    match timeout with
    | some timeout =>
      if (arguments.controlExtra.get? "timeout").isSome then arguments.controlExtra
      else arguments.controlExtra.set "timeout" (.int timeout)
    | none => arguments.controlExtra
  match client.handlers serviceName with
  | none => (.error (unrecognized serviceName), arguments.context, client)
  | some handler =>
    let control := makeControlHeader arguments.continueOnError controlExtra suppressResponse
    let (header, context, client) := client.makeContextHeader arguments.switches
      arguments.correlationId arguments.context
    let out := handler.sendRequest ⟨.dict control, .dict header, actions⟩ timeout
    (out.1, context, client.setHandler serviceName out.2)

/-- `get_all_responses`, as the iterable of a loop. -/
def getAllResponses {σ : Type} (client : Client) (serviceName : String)
    (body : σ → Value → JobResponse → Except Exc σ) (s : σ) : Except Exc Unit × σ × Client :=
  match client.handlers serviceName with
  | none => (.error (unrecognized serviceName), s, client)
  | some handler =>
    let out := handler.getAllResponses body s
    (out.1, out.2.1, client.setHandler serviceName out.2.2)

lemma context_getAllResponses {σ : Type} (client : Client) (serviceName : String)
    (body : σ → Value → JobResponse → Except Exc σ) (s : σ) :
    (client.getAllResponses serviceName body s).2.2.context = client.context := by
  unfold getAllResponses
  cases client.handlers serviceName <;> rfl

theorem getAllResponses_preserves {σ : Type} {P : σ → Prop} (client : Client) (serviceName : String)
    {body : σ → Value → JobResponse → Except Exc σ}
    (hbody : ∀ s requestId response s', P s → body s requestId response = .ok s' → P s') {s : σ}
    (hs : P s) : P (client.getAllResponses serviceName body s).2.1 := by
  unfold getAllResponses
  cases client.handlers serviceName with
  | none => exact hs
  | some handler => exact ServiceHandler.forResponses_preserves hbody _ handler hs

end Client

/-- The cell of a `FutureSOAResponse`: the response or the exception that it has obtained. -/
structure FutureCell (α : Type) where
  response : Option α := none
  raised : Option Exc := none

namespace FutureCell
variable {α ω : Type}

/-- `result`. A response counts as obtained if it is truthy. A timeout is not remembered, nor is what
is not an `Exception`. -/
def result (truthy : α → Bool) (getResponse : ω → Except Exc α × ω) (cell : FutureCell α) (w : ω) :
    Except Exc α × FutureCell α × ω :=
  match cell.raised with
  | some e => (.error e, cell, w)
  | none =>
    match cell.response.filter truthy with
    | some response => (.ok response, cell, w)
    | none =>
      match getResponse w with
      | (.ok response, w) => (.ok response, { cell with response := some response }, w)
      | (.error e, w) =>
        if e.isReceiveTimeout || !e.isException then (.error e, cell, w)
        else (.error e, { cell with raised := some e }, w)

end FutureCell

/-- The errors of a response that the caller wants to be raised. -/
def checkErrors (raiseJobErrors raiseActionErrors : Bool) (response : JobResponse) :
    Except Exc JobResponse :=
  if !response.errors.isEmpty && raiseJobErrors then .error (.callJobError response.errors)
  else
    let errorActions := response.actions.filter (fun action => !action.errors.isEmpty)
    if raiseActionErrors && !errorActions.isEmpty then .error (.callActionError errorActions)
    else .ok response

/-- The future of `call_actions_future`. -/
structure ActionsFuture where
  serviceName : String
  expectedRequestId : ℤ
  raiseJobErrors : Bool
  raiseActionErrors : Bool
  cell : FutureCell JobResponse := {}

namespace ActionsFuture
variable (future : ActionsFuture)

/-- The loop of `list(self.get_all_responses(...))`. -/
def collect (responses : List (Value × JobResponse)) (requestId : Value) (response : JobResponse) :
    Except Exc (List (Value × JobResponse)) :=
  .ok (responses ++ [(requestId, response)])

def unexpected (requestIds : List Value) : Exc :=
  .exception "Exception" ("Got unexpected response(s) with ID(s) [" ++
    ", ".intercalate (requestIds.map Value.format) ++ "] for request with ID " ++
    toString future.expectedRequestId)

def getResponse (client : Client) : Except Exc JobResponse × Client :=
  let out := client.getAllResponses future.serviceName collect []
  match out.1 with
  | .error e => (.error e, out.2.2)
  | .ok () =>
    match out.2.1.find? (fun r => r.1.eqInt future.expectedRequestId) with
    | none => (.error (future.unexpected (out.2.1.map Prod.fst)), out.2.2)
    | some (_, response) =>
      (checkErrors future.raiseJobErrors future.raiseActionErrors response, out.2.2)

def result (client : Client) : Except Exc JobResponse × ActionsFuture × Client :=
  let out := future.cell.result (fun _ => true) future.getResponse client
  (out.1, { future with cell := out.2.1 }, out.2.2)

end ActionsFuture

/-- What `call_action` returns: an action response, or the errors of the job. -/
inductive ActionOutcome
  | response (response : ActionResponse)
  | errors (errors : List Error)

/-- The future of `call_action_future`, which wraps one of `call_actions_future`. -/
structure ActionFuture where
  future : ActionsFuture
  cell : FutureCell ActionOutcome := {}

namespace ActionFuture

def outcome (response : JobResponse) : Except Exc ActionOutcome :=
  if response.errors.isEmpty then
    match response.actions with
    | [] => .error (.exception "IndexError" "list index out of range")
    | action :: _ => .ok (.response action)
  else .ok (.errors response.errors)

def getResult (w : ActionsFuture × Client) : Except Exc ActionOutcome × ActionsFuture × Client :=
  let out := w.1.result w.2
  (out.1 >>= outcome, out.2)

/-- Action responses and non-empty lists of errors are both truthy. -/
def result (future : ActionFuture) (client : Client) :
    Except Exc ActionOutcome × ActionFuture × Client :=
  let out := future.cell.result (fun _ => true) getResult (future.future, client)
  (out.1, ⟨out.2.2.1, out.2.1⟩, out.2.2.2)

end ActionFuture

/-- A job of a parallel call. -/
structure Job where
  serviceName : String
  actions : List ActionRequest

/-- The variables of `call_jobs_parallel_future` that its `get_response` reads and changes. -/
structure JobsState where
  serviceRequestIds : List (String × List ℤ) := []
  transportErrors : List ((String × ℤ) × Exc) := []

/-- The future of `call_jobs_parallel_future`. -/
structure JobsFuture where
  raiseJobErrors : Bool
  raiseActionErrors : Bool
  catchTransportErrors : Bool
  responseReassemblyKeys : List (String × ℤ)
  state : JobsState
  cell : FutureCell (List (Except Exc JobResponse)) := {}

namespace JobsFuture

/-- The responses that have been received, the last one first. -/
abbrev ServiceResponses := List ((String × ℤ) × JobResponse)

def lookup {α : Type} (key : String × ℤ) (entries : List ((String × ℤ) × α)) : Option α :=
  (entries.find? fun entry => entry.1 = key).map Prod.snd

/-- The body of the loop over the responses of one service: the request ids that are expected, and
what has been received. -/
def receive (catchTransportErrors : Bool) (serviceName : String) (s : List ℤ × ServiceResponses)
    (requestId : Value) (response : JobResponse) : Except Exc (List ℤ × ServiceResponses) :=
  match s.1.find? (fun expected => requestId.eqInt expected) with
  | none =>
    .error (if requestId.hashKey?.isSome then .exception "Exception" ("Got response ID " ++
        requestId.format ++ ", not in set of expected IDs \x7b" ++
        ", ".intercalate (s.1.map toString) ++ "\x7d")
      else .typeError "unhashable type")
  | some expected =>
    .ok (if catchTransportErrors then s.1.erase expected else s.1,
      ((serviceName, expected), response) :: s.2)

/-- The loop over the services. The first list is what is left of it; the services before it have
their request ids in the state again. -/
def receiveAll (catchTransportErrors : Bool) : List (String × List ℤ) → JobsState → ServiceResponses →
    Client → Except Exc ServiceResponses × JobsState × Client
  | [], state, responses, client => (.ok responses, state, client)
  | (serviceName, requestIds) :: rest, state, responses, client =>
    let (result, (requestIds, responses), client) :=
      client.getAllResponses serviceName (receive catchTransportErrors serviceName)
        (requestIds, responses)
    let state := { state with
      serviceRequestIds := state.serviceRequestIds ++ [(serviceName, requestIds)] }
    match result with
    | .ok () => receiveAll catchTransportErrors rest state responses client
    | .error e =>
      if e.isTransportError && catchTransportErrors then
        let failed := requestIds.map fun requestId => ((serviceName, requestId), e)
        receiveAll catchTransportErrors rest
          { state with transportErrors := failed ++ state.transportErrors } responses client
      else (.error e, { state with serviceRequestIds := state.serviceRequestIds ++ rest }, client)

def noResponse (key : String × ℤ) : Exc :=
  .exception "Exception" ("There was no response for service " ++ key.1 ++ ", request " ++
    toString key.2)

variable (future : JobsFuture)

/-- The entry of the result for one job. -/
def entry (transportErrors : List ((String × ℤ) × Exc)) (responses : ServiceResponses)
    (key : String × ℤ) : Except Exc (Except Exc JobResponse) :=
  if key.2 < 0 then
    match lookup key transportErrors with
    | some e => .ok (.error e)
    | none => .error (.keyError "no transport error was kept")
  else
    match lookup key responses with
    | some response =>
      (checkErrors future.raiseJobErrors future.raiseActionErrors response).map .ok
    | none =>
      match lookup key transportErrors with
      | some e => .ok (.error e)
      | none => .error (noResponse key)

def getResponse (w : JobsState × Client) :
    Except Exc (List (Except Exc JobResponse)) × JobsState × Client :=
  let out := receiveAll future.catchTransportErrors w.1.serviceRequestIds
    { w.1 with serviceRequestIds := [] } [] w.2
  match out.1 with
  | .error e => (.error e, out.2)
  | .ok responses =>
    (future.responseReassemblyKeys.mapM (future.entry out.2.1.transportErrors responses), out.2)

/-- An empty list of responses is not truthy. -/
def result (client : Client) :
    Except Exc (List (Except Exc JobResponse)) × JobsFuture × Client :=
  let out := future.cell.result (fun responses => !responses.isEmpty) future.getResponse
    (future.state, client)
  (out.1, { future with state := out.2.2.1, cell := out.2.1 }, out.2.2.2)

end JobsFuture

namespace Client

/-- The future, and the context argument as it is afterwards. -/
def callActionsFuture (client : Client) (serviceName : String) (actions : List ActionRequest)
    (raiseJobErrors raiseActionErrors : Bool) (arguments : RequestArguments) :
    Except Exc ActionsFuture × Option Context × Client :=
  let out := client.sendRequest serviceName actions arguments false
  (out.1.map fun expectedRequestId => { serviceName, expectedRequestId, raiseJobErrors, raiseActionErrors },
    out.2)

def callActionFuture (client : Client) (serviceName : String) (action body : Value)
    (raiseJobErrors raiseActionErrors : Bool) (arguments : RequestArguments) :
    Except Exc ActionFuture × Option Context × Client :=
  let body := if body.truthy then body else .dict []
  let out := client.callActionsFuture serviceName [⟨action, body⟩] raiseJobErrors raiseActionErrors
    { arguments with continueOnError := false }
  (out.1.map fun future => { future }, out.2)

/-- `service_request_ids.setdefault(service_name, set()).add(request_id)`. -/
def addRequestId (serviceName : String) (requestId : ℤ) : List (String × List ℤ) → List (String × List ℤ)
  | [] => [(serviceName, [requestId])]
  | (name, requestIds) :: rest =>
    if name = serviceName then (name, requestIds ++ [requestId]) :: rest
    else (name, requestIds) :: addRequestId serviceName requestId rest

/-- The loop over the jobs: the number of errors that were caught, the state and the keys. -/
def sendJobs (catchTransportErrors : Bool) : List Job → RequestArguments → ℕ → JobsState →
    List (String × ℤ) → Client → Except Exc (JobsState × List (String × ℤ)) × Option Context × Client
  | [], arguments, _, state, keys, client => (.ok (state, keys), arguments.context, client)
  | job :: jobs, arguments, errors, state, keys, client =>
    match client.sendRequest job.serviceName job.actions arguments false with
    | (.ok requestId, context, client) =>
      sendJobs catchTransportErrors jobs { arguments with context } errors
        { state with
          serviceRequestIds := addRequestId job.serviceName requestId state.serviceRequestIds }
        (keys ++ [(job.serviceName, requestId)]) client
    | (.error e, context, client) =>
      if e.isTransportError && catchTransportErrors then
        let key : String × ℤ := (job.serviceName, -(errors+1))
        sendJobs catchTransportErrors jobs { arguments with context } (errors+1)
          { state with transportErrors := (key, e) :: state.transportErrors } (keys ++ [key]) client
      else (.error e, context, client)

def callJobsParallelFuture (client : Client) (jobs : List Job)
    (raiseJobErrors raiseActionErrors catchTransportErrors : Bool) (arguments : RequestArguments) :
    Except Exc JobsFuture × Option Context × Client :=
  let out := sendJobs catchTransportErrors jobs arguments 0 {} [] client
  (out.1.map fun (state, responseReassemblyKeys) =>
    { raiseJobErrors, raiseActionErrors, catchTransportErrors, responseReassemblyKeys, state }, out.2)

end Client
end PySOA
