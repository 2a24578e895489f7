import PySOA.Lib.Loops
import PySOA.Server.Schemas

/-! The server: running the actions of a job, and the errors it answers with in their place. What
actions and middleware read and change is a state of its own, the rest of the world; they do not
change the request. -/
namespace PySOA

/-- `pysoa.server.types.EnrichedActionRequest`. -/
structure EnrichedActionRequest extends ActionRequest where
  switches : List ℤ
  context : Dict
  control : Dict
  client : Dict

section
variable (σ : Type)

/-- A callable that runs an action, for instance an instance of an action class. -/
abbrev ActionTask := EnrichedActionRequest → σ → Except Exc ActionResponse × σ

abbrev JobTask := EnrichedJobRequest → σ → Except Exc JobResponse × σ

/-- An action class, which is called with the settings. -/
abbrev ActionType := σ → Except Exc (ActionTask σ) × σ

structure ServerMiddleware where
  job : JobTask σ → JobTask σ := id
  action : ActionTask σ → ActionTask σ := id

/-- A server with its settings. `text` is `six.text_type(exception)` and `repr` is that of a job
response; both can fail. The class of the error for an argument that is given twice, while another
error is handled, depends on the version of Python. -/
structure Server where
  serviceName : String
  actionClassMap : String → Option (ActionType σ)
  introspectionAction : Option (ActionType σ) := none
  defaultIntrospectionAction : ActionType σ
  defaultStatusActionClass : ActionType σ
  middleware : List (ServerMiddleware σ) := []
  jobRequestErrors : JobRequestErrors
  text : Exc → Option String
  traceback : Exc → String
  repr : JobResponse → Option String := fun _ => none
  repeatedArgument : String := "TypeError"

end

/-- The ways in which running an action ends that `execute_job` answers with a response. -/
inductive TaskOutcome
  | returned (response : ActionResponse)
  | harakiriInterrupt
  | actionError (errors : List Error)
  | unhandled (error : Error)
  | notFound

namespace TaskOutcome

/-- The response for the action with the given name. -/
def response (action : Value) : TaskOutcome → ActionResponse
  | returned response => response
  | harakiriInterrupt => {
      action
      errors := [{
        code := .text "ACTION_TIMEOUT"
        message := .text ("The action \"" ++ action.format ++
          "\" ran for too long and had to be interrupted.")
        isCallerError := .bool false }] }
  | actionError errors => { action, errors }
  | unhandled error => { action, errors := [error] }
  | notFound => {
      action
      errors := [{
        code := .text "UNKNOWN"
        message := .text ("The action \"" ++ action.format ++ "\" was not found on this server.")
        field := .text "action"
        isCallerError := .bool true }] }

/-- The server has made the response, which is an error. -/
def ServerMade : TaskOutcome → Prop
  | returned _ => False
  | _ => True

/-- `job_request.control.get('continue_on_error', False)`. -/
def continueOnError (control : Dict) : Bool :=
  ((control.get? "continue_on_error").getD (.bool false)).truthy

/-- No further action is run after one with this outcome. -/
def stops (control : Dict) (action : Value) : TaskOutcome → Bool
  | harakiriInterrupt => true
  | outcome => (outcome.response action).errors ≠ [] && !continueOnError control

/-- How the pass of the loop for an action ends. -/
def pass (control : Dict) (action : Value) : Except Exc TaskOutcome → Loops.Pass Exc ActionResponse
  | .ok outcome =>
    if outcome.stops control action then .last (outcome.response action)
    else .next (outcome.response action)
  | .error e => .raised e

end TaskOutcome

namespace Server
variable {σ : Type}

def makeMiddlewareStack {α : Type} (middleware : List (α → α)) (base : α) : α :=
  middleware.reverse.foldl (fun base ware => ware base) base

/-- The last-ditch error of a response; `variables` are those that it is to describe. -/
def handleUnhandledException (server : Server σ) (e : Exc) (errorVariables : Value := .none) : Error where
  code := .text "SERVER_ERROR"
  message := .text ("Internal server error: " ++ (server.text e).getD "Error formatting error")
  traceback := .text (server.traceback e)
  errorVariables := errorVariables
  isCallerError := .bool false

/-- The context of the client that actions use. -/
def makeClient (server : Server σ) (context : Dict) : Dict :=
  context.set "calling_service" (.text server.serviceName)

/-- The action class for a name, if the server has one; a value that cannot be hashed cannot be
looked up. -/
def findAction (server : Server σ) : Value → Except Exc (Option (ActionType σ))
  | .text name =>
    match server.actionClassMap name with
    | some actionClass => .ok (some actionClass)
    | none =>
      if name = "introspect" then
        .ok (some (server.introspectionAction.getD server.defaultIntrospectionAction))
      else if name = "status" then .ok (some server.defaultStatusActionClass)
      else .ok none
  | .list _ | .dict _ => .error (.typeError "unhashable type")
  | _ => .ok none

/-- The exception handlers around the call of an action; a `JobError` is raised again. -/
def caught (server : Server σ) : Except Exc ActionResponse → Except Exc TaskOutcome
  | .ok response => .ok (.returned response)
  | .error .harakiriInterrupt => .ok .harakiriInterrupt
  | .error (.actionError errors) => .ok (.actionError errors)
  | .error (.jobError errors) => .error (.jobError errors)
  | .error e => .ok (.unhandled (server.handleUnhandledException e))

/-- Looks the action up, constructs it, wraps it in the middleware and runs it. Only the run is
inside the exception handlers. -/
def perform (server : Server σ) (job : EnrichedJobRequest) (switches : List ℤ)
    (request : ActionRequest) (w : σ) : Except Exc TaskOutcome × σ :=
  match server.findAction request.action with
  | .error e => (.error e, w)
  | .ok none => (.ok .notFound, w)
  | .ok (some actionClass) =>
    match actionClass w with
    | (.error e, w) => (.error e, w)
    | (.ok action, w) =>
      let wrapper := makeMiddlewareStack (server.middleware.map (·.action)) action
      let out := wrapper ⟨request, switches, job.context, job.control, job.client⟩ w
      (server.caught out.1, out.2)

/-- The body of the loop of `execute_job`. -/
def executeAction (server : Server σ) (job : EnrichedJobRequest) (switches : List ℤ)
    (request : ActionRequest) (w : σ) : Loops.Pass Exc ActionResponse × σ :=
  let out := server.perform job switches request w
  (TaskOutcome.pass job.control request.action out.1, out.2)

def executeJob (server : Server σ) : JobTask σ := fun job w =>
  match job.switchSet with
  | .error e => (.error e, w)
  | .ok switches =>
    let out := Loops.run (server.executeAction job switches) job.actions w
    (out.1.map fun actions => { actions }, out.2)

/-- The errors that the validation of a job request makes. -/
def validationErrors (server : Server σ) (jobRequest : Dict) : List Error :=
  (server.jobRequestErrors.errors (.dict jobRequest)).map fun error => {
    code := .text error.code
    message := .text error.message
    field := .text error.pointer
    isCallerError := .bool false }

/-- `job_response.context['correlation_id'] = job_request['context']['correlation_id']`, if that
is there. -/
def copyCorrelationId (context : Dict) (response : JobResponse) : Except Exc JobResponse :=
  match context.get? "correlation_id", response.context with
  | none, _ => .ok response
  | some correlationId, .dict d =>
    .ok { response with context := .dict (Dict.set d "correlation_id" correlationId) }
  | some _, _ => .error (.typeError "object does not support item assignment")

/-- `job_request['context']` of a job request that the schema accepts. -/
def contextOf (jobRequest : Dict) : Dict :=
  match jobRequest.get? "context" with
  | some (.dict context) => context
  | _ => []

/-- The job that a job request asks for; the errors that the validation finds are raised. -/
def enrichedJobRequest (server : Server σ) (jobRequest : Dict) : Except Exc EnrichedJobRequest :=
  if server.validationErrors jobRequest ≠ [] then
    .error (.jobError (server.validationErrors jobRequest))
  else EnrichedJobRequest.ofKwargs jobRequest (server.makeClient (contextOf jobRequest))

/-- The body of the `try` of `process_job`. -/
def runJob (server : Server σ) (jobRequest : Dict) (w : σ) : Except Exc JobResponse × σ :=
  match server.enrichedJobRequest jobRequest with
  | .error e => (.error e, w)
  | .ok job =>
    let out := makeMiddlewareStack (server.middleware.map (·.job)) server.executeJob job w
    (out.1.bind (copyCorrelationId (contextOf jobRequest)), out.2)

/-- The exception handlers of `process_job`. -/
def jobResponse (server : Server σ) : Except Exc JobResponse → JobResponse
  | .ok response => response
  | .error .harakiriInterrupt => {
      errors := [{
        code := .text "JOB_TIMEOUT"
        message := .text ("The service job ran for too long and had to be interrupted " ++
          "(probably a middleware issue).")
        isCallerError := .bool false }] }
  | .error (.jobError errors) => { errors }
  | .error e => { errors := [server.handleUnhandledException e] }

def processJob (server : Server σ) (jobRequest : Dict) (w : σ) : JobResponse × σ :=
  let out := server.runJob jobRequest w
  (server.jobResponse out.1, out.2)

end Server
end PySOA
