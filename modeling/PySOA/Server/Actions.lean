import PySOA.Server.Execution

/-! Actions with schemas: what these promise of every job, and how actions of a server call each other. -/
namespace PySOA

namespace Server
variable {σ : Type} {server : Server σ} {P : σ → Prop}

/-- What runs the task keeps the condition on the world. -/
def Keeps {ρ τ : Type} (P : σ → Prop) (task : ρ → σ → τ × σ) : Prop := ∀ r w, P w → P (task r w).2

lemma keeps_makeMiddlewareStack {ρ τ : Type} {middleware : List ((ρ → σ → τ × σ) → ρ → σ → τ × σ)}
    (h : ∀ m ∈ middleware, ∀ task, Keeps P task → Keeps P (m task)) {task : ρ → σ → τ × σ}
    (htask : Keeps P task) : Keeps P (makeMiddlewareStack middleware task) := by
  unfold makeMiddlewareStack
  induction middleware using List.reverseRecOn generalizing task with
  | nil => exact htask
  | append_singleton middleware m ih =>
    rw [List.reverse_concat, List.foldl_cons]
    apply ih
    · intro m hm
      exact h m (List.mem_append_left _ hm)
    · exact h m (by simp) task htask

/-- The action class, and the actions that it makes, keep the condition on the world. -/
def ClassKeeps (P : σ → Prop) (actionClass : ActionType σ) : Prop :=
  ∀ w, P w → P (actionClass w).2 ∧ ∀ action, (actionClass w).1 = .ok action → Keeps P action

lemma keeps_perform (hclasses : ∀ name actionClass, server.findAction name = .ok (some actionClass) →
    ClassKeeps P actionClass)
    (hmiddleware : ∀ m ∈ server.middleware, ∀ task, Keeps P task → Keeps P (m.action task))
    (job : EnrichedJobRequest) (switches : List ℤ) : Keeps P (server.perform job switches) := by
  intro request w hw
  unfold perform
  cases hfind : server.findAction request.action with
  | error e => exact hw
  | ok found =>
    cases found with
    | none => exact hw
    | some actionClass =>
      obtain ⟨hw', haction⟩ := hclasses _ _ hfind w hw
      dsimp only
      generalize actionClass w = made at hw' haction
      obtain ⟨action | action, w'⟩ := made
      · exact hw'
      · apply keeps_makeMiddlewareStack _ (haction action rfl) _ _ hw'
        intro m hm
        obtain ⟨ware, hware, rfl⟩ := List.mem_map.mp hm
        exact hmiddleware ware hware

/-- What the actions and the middleware of a server keep of the world, a job keeps. -/
theorem keeps_processJob (hclasses : ∀ name actionClass, server.findAction name = .ok (some actionClass) →
    ClassKeeps P actionClass)
    (haction : ∀ m ∈ server.middleware, ∀ task, Keeps P task → Keeps P (m.action task))
    (hjob : ∀ m ∈ server.middleware, ∀ task, Keeps P task → Keeps P (m.job task)) :
    Keeps P server.processJob := by
  have hexecute : Keeps P server.executeJob := by
    intro job w hw
    unfold executeJob
    cases job.switchSet with
    | error e => exact hw
    | ok switches =>
      have hpass : ∀ request w, P w → P (server.executeAction job switches request w).2 :=
        fun request w => keeps_perform hclasses haction job switches request w
      exact Loops.run_invariant hpass job.actions hw
  intro jobRequest w hw
  unfold processJob runJob
  cases server.enrichedJobRequest jobRequest with
  | error e => exact hw
  | ok job =>
    apply keeps_makeMiddlewareStack _ hexecute job w hw
    intro m hm
    obtain ⟨ware, hware, rfl⟩ := List.mem_map.mp hm
    exact hjob ware hware

end Server

/-- An action class that inherits from `Action`: its schemas, by the errors that they find in a body, and its
methods. -/
structure Action (σ : Type) where
  requestSchema : Option (Value → List ConformityError) := none
  responseSchema : Option (Value → List ConformityError) := none
  validate : EnrichedActionRequest → σ → Except Exc Unit × σ := fun _ w => (.ok (), w)
  run : EnrichedActionRequest → σ → Except Exc Value × σ

/-- `ResponseValidationError`, with its text. -/
def responseValidationError (action : Value) (errors : List ConformityError) : Exc :=
  .exception "ResponseValidationError" (action.format ++ " had an invalid response:\n\t" ++
    "\n\t".intercalate (errors.map fun error => error.pointer ++ " " ++ error.code ++ ": " ++ error.message))

namespace Action
variable {σ : Type} (action : Action σ)

/-- The errors of a request whose body the schema does not accept. -/
def requestErrors (body : Value) : List Error :=
  match action.requestSchema with
  | none => []
  | some schema => (schema body).map fun error => {
      code := .text error.code
      message := .text error.message
      field := .text error.pointer
      isCallerError := .bool true }

def responseErrors (body : Value) : List ConformityError :=
  match action.responseSchema with
  | none => []
  | some schema => schema body

/-- `__call__`. -/
def call : ActionTask σ := fun request w =>
  if action.requestErrors request.body ≠ [] then
    (.error (.actionError (action.requestErrors request.body)), w)
  else
    match action.validate request w with
    | (.error e, w) => (.error e, w)
    | (.ok (), w) =>
      match action.run request w with
      | (.error e, w) => (.error e, w)
      | (.ok body, w) =>
        if action.responseErrors body ≠ [] then
          (.error (responseValidationError request.action (action.responseErrors body)), w)
        else if body.isNone then (.ok { action := request.action }, w)
        else (.ok { action := request.action, body }, w)

/-- The class, which is called with the settings. -/
def actionType : ActionType σ := fun w => (.ok action.call, w)

/-- The methods keep the condition on the world, of which `validate` may rely on the schema of the request and
`run` on `validate`, too. -/
def Keeps (P : σ → Prop) : Prop :=
  ∀ request w, P w → action.requestErrors request.body = [] →
    P (action.validate request w).2 ∧ ((action.validate request w).1 = .ok () →
      P (action.run request (action.validate request w).2).2)

/-- The schema and `validate` accept the request, and the response has the body that `run` then returns for it,
which the schema accepts, or an empty one in place of none. -/
def Answers (request : EnrichedActionRequest) (w : σ) (response : ActionResponse) : Prop :=
  action.requestErrors request.body = [] ∧ ∃ w₁ body w₂, action.validate request w = (.ok (), w₁) ∧
    action.run request w₁ = (.ok body, w₂) ∧ action.responseErrors body = [] ∧
    response = { action := request.action, body := if body.isNone then .dict [] else body }

/-- The exception is one of the schema for the request, of `validate`, of `run`, or of the schema for the
response. -/
def Raises (request : EnrichedActionRequest) (w : σ) (e : Exc) : Prop :=
  (action.requestErrors request.body ≠ [] ∧ e = .actionError (action.requestErrors request.body)) ∨
  action.requestErrors request.body = [] ∧
    ((action.validate request w).1 = .error e ∨
      ∃ w₁, action.validate request w = (.ok (), w₁) ∧
        ((action.run request w₁).1 = .error e ∨
          ∃ body w₂, action.run request w₁ = (.ok body, w₂) ∧ action.responseErrors body ≠ [] ∧
            e = responseValidationError request.action (action.responseErrors body)))

variable {action}

lemma Keeps.call {P : σ → Prop} (h : action.Keeps P) (request : EnrichedActionRequest) {w : σ} (hw : P w) :
    P (action.call request w).2 := by
  unfold Action.call
  split_ifs with herrors
  · exact hw
  · obtain ⟨hvalidate, hrun⟩ := h request w hw (not_not.mp herrors)
    generalize action.validate request w = validated at hvalidate hrun ⊢
    obtain ⟨e | u, w'⟩ := validated
    · exact hvalidate
    · have hran := hrun rfl
      dsimp only at hran ⊢
      generalize action.run request w' = ran at hran ⊢
      obtain ⟨e | body, w''⟩ := ran
      · exact hran
      · dsimp only
        split_ifs <;> exact hran

lemma Keeps.classKeeps {P : σ → Prop} (h : action.Keeps P) : Server.ClassKeeps P action.actionType := by
  intro w hw
  refine ⟨hw, fun task htask => ?_⟩
  cases htask
  intro request w hw
  exact h.call request hw

/-- A call returns an answer, or it raises one of the exceptions. -/
lemma call_cases (request : EnrichedActionRequest) (w : σ) :
    (∃ response, (action.call request w).1 = .ok response ∧ action.Answers request w response) ∨
      ∃ e, (action.call request w).1 = .error e ∧ action.Raises request w e := by
  unfold Action.call
  split_ifs with herrors
  · exact .inr ⟨_, rfl, .inl ⟨herrors, rfl⟩⟩
  · have haccepted := not_not.mp herrors
    cases hvalidate : action.validate request w with
    | mk validated w₁ =>
      cases validated with
      | error e => exact .inr ⟨e, rfl, .inr ⟨haccepted, .inl (by rw [hvalidate])⟩⟩
      | ok u =>
        dsimp only
        cases hrun : action.run request w₁ with
        | mk ran w₂ =>
          cases ran with
          | error e =>
            exact .inr ⟨e, rfl, .inr ⟨haccepted, .inr ⟨w₁, hvalidate, .inl (by rw [hrun])⟩⟩⟩
          | ok body =>
            dsimp only
            split_ifs with hinvalid hnone
            · exact .inr ⟨_, rfl, .inr ⟨haccepted, .inr ⟨w₁, hvalidate, .inr ⟨body, w₂, hrun, hinvalid, rfl⟩⟩⟩⟩
            · exact .inl ⟨_, rfl, haccepted, w₁, body, w₂, hvalidate, hrun, not_not.mp hinvalid, by rw [if_pos hnone]⟩
            · exact .inl ⟨_, rfl, haccepted, w₁, body, w₂, hvalidate, hrun, not_not.mp hinvalid, by rw [if_neg hnone]⟩

lemma answers_of_call {request : EnrichedActionRequest} {w : σ} {response : ActionResponse}
    (h : (action.call request w).1 = .ok response) : action.Answers request w response := by
  obtain ⟨response', hcall, hanswers⟩ | ⟨e, hcall, -⟩ := action.call_cases request w
  · obtain rfl : response' = response := Except.ok.inj (hcall.symm.trans h)
    exact hanswers
  · cases hcall.symm.trans h

lemma raises_of_call {request : EnrichedActionRequest} {w : σ} {e : Exc}
    (h : (action.call request w).1 = .error e) : action.Raises request w e := by
  obtain ⟨response, hcall, -⟩ | ⟨e', hcall, hraises⟩ := action.call_cases request w
  · cases hcall.symm.trans h
  · obtain rfl : e' = e := Except.error.inj (hcall.symm.trans h)
    exact hraises

end Action

namespace Server
variable {σ : Type} {server : Server σ} {actions : String → Option (Action σ)}

/-- These are all action classes of the server. -/
def HasActions (server : Server σ) (actions : String → Option (Action σ)) : Prop :=
  ∀ name, server.findAction (.text name) = .ok ((actions name).map Action.actionType)

/-- The response is the answer of the action that the request names, or the error that the server makes of what
this raises, or of there being none. -/
inductive Answered (server : Server σ) (actions : String → Option (Action σ)) (request : EnrichedActionRequest)
    (w : σ) : ActionResponse → Prop
  | answer {name action response} (hname : request.action = .text name) (haction : actions name = some action)
      (h : action.Answers request w response) : Answered server actions request w response
  | timeout {name action} (hname : request.action = .text name) (haction : actions name = some action)
      (h : action.Raises request w .harakiriInterrupt) :
      Answered server actions request w (TaskOutcome.harakiriInterrupt.response request.action)
  | actionError {name action errors} (hname : request.action = .text name) (haction : actions name = some action)
      (h : action.Raises request w (.actionError errors)) :
      Answered server actions request w { action := request.action, errors }
  | unhandled {name action e} (hname : request.action = .text name) (haction : actions name = some action)
      (h : action.Raises request w e)
      (hother : e ≠ .harakiriInterrupt ∧ ∀ errors, e ≠ .actionError errors ∧ e ≠ .jobError errors) :
      Answered server actions request w
        { action := request.action, errors := [server.handleUnhandledException e] }
  | notFound {name} (hname : request.action = .text name) (haction : actions name = none) :
      Answered server actions request w (TaskOutcome.notFound.response request.action)

lemma exists_action (h : server.HasActions actions) {name : Value} {actionClass : ActionType σ}
    (hfind : server.findAction name = .ok (some actionClass)) :
    ∃ text action, name = .text text ∧ actions text = some action ∧ actionClass = action.actionType := by
  cases name with
  | text text =>
    have hsome := Except.ok.inj ((h text).symm.trans hfind)
    obtain ⟨action, haction, rfl⟩ := Option.map_eq_some_iff.mp hsome
    exact ⟨text, action, rfl, haction, rfl⟩
  | _ => simp [findAction] at hfind

variable {job : EnrichedJobRequest} {switches : List ℤ}

/-- What is called for a request is the action under its name. -/
lemma exists_call (h : server.HasActions actions) (hmiddleware : server.middleware = []) {request : ActionRequest}
    {w w' : σ} {result : Except Exc ActionResponse} (hcalls : server.Calls job switches request w result w') :
    ∃ name action, request.action = .text name ∧ actions name = some action ∧
      action.call ⟨request, switches, job.context, job.control, job.client⟩ w = (result, w') := by
  obtain ⟨name, actionClass, task, w₁, hname, hfound, hmade, hcall⟩ := hcalls
  obtain ⟨text, action, htext, haction, rfl⟩ := exists_action h (findAction_of_hasAction hfound)
  cases htext
  cases hmade
  rw [hmiddleware] at hcall
  exact ⟨name, action, hname, haction, hcall⟩

/-- Each outcome of an action makes its response an answer. -/
lemma answered_performed (h : server.HasActions actions) (hmiddleware : server.middleware = [])
    {request : ActionRequest} {w w' : σ} {outcome : TaskOutcome}
    (houtcome : server.Performed job switches request w (.ok outcome) w') :
    server.Answered actions ⟨request, switches, job.context, job.control, job.client⟩ w
      (outcome.response request.action) := by
  cases houtcome with
  | @notFound name hname hnone =>
    cases haction : actions name with
    | none => exact .notFound hname haction
    | some action =>
      have hfind := h name
      rw [haction] at hfind
      exact absurd (hasAction_of_findAction hfind) (hnone _)
  | returned hcalls =>
    obtain ⟨name, action, hname, haction, hcall⟩ := exists_call h hmiddleware hcalls
    exact .answer hname haction (Action.answers_of_call (congrArg Prod.fst hcall))
  | harakiriInterrupt hcalls =>
    obtain ⟨name, action, hname, haction, hcall⟩ := exists_call h hmiddleware hcalls
    exact .timeout hname haction (Action.raises_of_call (congrArg Prod.fst hcall))
  | actionError hcalls =>
    obtain ⟨name, action, hname, haction, hcall⟩ := exists_call h hmiddleware hcalls
    exact .actionError hname haction (Action.raises_of_call (congrArg Prod.fst hcall))
  | unhandled hcalls hother =>
    obtain ⟨name, action, hname, haction, hcall⟩ := exists_call h hmiddleware hcalls
    exact .unhandled hname haction (Action.raises_of_call (congrArg Prod.fst hcall)) hother

/-- The response at a place of the job response answers the request at this place of the job, in the world that
the actions in front of it leave. -/
lemma answered_executeJob (h : server.HasActions actions) (hmiddleware : server.middleware = [])
    (hnames : ∀ request ∈ job.actions, ∃ name, request.action = .text name)
    (hswitches : job.switchSet = .ok switches) {w : σ} {response : JobResponse}
    (hresponse : (server.executeJob job w).1 = .ok response) {i : ℕ} {r : ActionResponse}
    (hr : response.actions[i]? = some r) :
    ∃ request, job.actions[i]? = some request ∧
      server.Answered actions ⟨request, switches, job.context, job.control, job.client⟩
        (server.worldAfter job switches (job.actions.take i) w) r := by
  unfold executeJob at hresponse
  rw [hswitches] at hresponse
  dsimp only at hresponse
  cases hrun : (Loops.run (server.executeAction job switches) job.actions w).1 with
  | error e =>
    rw [hrun] at hresponse
    cases hresponse
  | ok responses =>
    rw [hrun] at hresponse
    cases hresponse
    obtain ⟨request, hrequest, hvalue⟩ := Loops.value_of_run hrun hr
    refine ⟨request, hrequest, ?_⟩
    change (TaskOutcome.pass job.control request.action
      (server.perform job switches request (server.worldAfter job switches (job.actions.take i) w)).1).value? =
        some r at hvalue
    cases hperform : server.perform job switches request (server.worldAfter job switches (job.actions.take i) w) with
    | mk out w' =>
      rw [hperform] at hvalue
      cases out with
      | error e => cases hvalue
      | ok outcome =>
        have hr : outcome.response request.action = r := by
          rw [TaskOutcome.pass] at hvalue
          split_ifs at hvalue <;> exact Option.some.inj hvalue
        rw [← hr]
        exact answered_performed h hmiddleware
          ((perform_eq_iff (hnames request (List.mem_of_getElem? hrequest))).mp hperform)

lemma actions_copyCorrelationId {context : Dict} {response response' : JobResponse}
    (h : copyCorrelationId context response = .ok response') : response'.actions = response.actions := by
  unfold copyCorrelationId at h
  split at h
  · cases h
    rfl
  · cases h
    rfl
  · cases h

/-- Only the response of a job that ran has responses for actions. -/
lemma exists_response_of_actions {result : Except Exc JobResponse} {i : ℕ} {r : ActionResponse}
    (h : (server.jobResponse result).actions[i]? = some r) :
    ∃ response, result = .ok response ∧ response.actions[i]? = some r := by
  cases result with
  | ok response => exact ⟨response, rfl, h⟩
  | error e => cases e <;> cases h

lemma exists_executeJob (hmiddleware : server.middleware = []) {jobRequest : Dict} {w : σ} {response : JobResponse}
    (h : (server.runJob jobRequest w).1 = .ok response) :
    ∃ job response', server.enrichedJobRequest jobRequest = .ok job ∧
      (server.executeJob job w).1 = .ok response' ∧ response.actions = response'.actions := by
  unfold runJob at h
  cases hjob : server.enrichedJobRequest jobRequest with
  | error e =>
    rw [hjob] at h
    cases h
  | ok job =>
    rw [hjob, hmiddleware] at h
    change (server.executeJob job w).1.bind (copyCorrelationId (contextOf jobRequest)) = .ok response at h
    cases hexecute : (server.executeJob job w).1 with
    | error e =>
      rw [hexecute] at h
      cases h
    | ok response' =>
      rw [hexecute] at h
      exact ⟨job, response', rfl, hexecute, actions_copyCorrelationId h⟩

/-- In every job `run` gets only requests that the schema and `validate` accept, and the response at each place
answers the request at this place: it has the body that `run` returned, which the schema accepts, or it is the
error that the server makes of what the action raised. -/
theorem processJob_contract {P : σ → Prop} (h : server.HasActions actions) (hmiddleware : server.middleware = [])
    (hkeeps : ∀ name action, actions name = some action → action.Keeps P) (jobRequest : Dict) {w : σ} (hw : P w) :
    P (server.processJob jobRequest w).2 ∧
      ∀ i response, (server.processJob jobRequest w).1.actions[i]? = some response →
        ∃ job switches request, server.enrichedJobRequest jobRequest = .ok job ∧ job.switchSet = .ok switches ∧
          job.actions[i]? = some request ∧ P (server.worldAfter job switches (job.actions.take i) w) ∧
          server.Answered actions ⟨request, switches, job.context, job.control, job.client⟩
            (server.worldAfter job switches (job.actions.take i) w) response := by
  have hclasses : ∀ name actionClass, server.findAction name = .ok (some actionClass) →
      ClassKeeps P actionClass := by
    intro name actionClass hfind
    obtain ⟨text, action, -, haction, rfl⟩ := exists_action h hfind
    exact (hkeeps text action haction).classKeeps
  constructor
  · exact keeps_processJob hclasses (by simp [hmiddleware]) (by simp [hmiddleware]) jobRequest w hw
  · intro i response hi
    obtain ⟨jobResponse, hran, hi⟩ := exists_response_of_actions hi
    obtain ⟨job, jobResponse', hjob, hexecute, hactions⟩ := exists_executeJob hmiddleware hran
    obtain ⟨switches, hswitches, hnames⟩ := exists_switchSet hjob
    rw [hactions] at hi
    obtain ⟨request, hrequest, hanswered⟩ := answered_executeJob h hmiddleware hnames hswitches hexecute hi
    refine ⟨job, switches, request, hjob, hswitches, hrequest, ?_, hanswered⟩
    have hpass : ∀ request w, P w → P (server.executeAction job switches request w).2 :=
      fun request w => keeps_perform hclasses (by simp [hmiddleware]) job switches request w
    exact Loops.after_invariant hpass (job.actions.take i) hw

end Server

/-! An action that takes a size and returns it. -/

/-- What a schema for dicts with an integer as their size finds. -/
def sizeErrors : Value → List ConformityError
  | .dict entries =>
    match Dict.get? entries "size" with
    | some (.int _) => []
    | _ => [⟨"INVALID", "Not an integer", "size"⟩]
  | _ => [⟨"INVALID", "Not a dict", ""⟩]

/-- The action keeps the bodies that it is run with. -/
def resizeAction : Action (List Value) where
  requestSchema := some sizeErrors
  responseSchema := some sizeErrors
  run request w := (.ok request.body, w ++ [request.body])

/-- An action that returns nothing. -/
def silentAction : Action (List Value) where
  run _ w := (.ok .none, w)

def resizeActions (name : String) : Option (Action (List Value)) :=
  if name = "resize" then some resizeAction
  else if name = "introspect" ∨ name = "status" then some silentAction
  else none

def resizeServer : Server (List Value) where
  serviceName := "example"
  actionClassMap name := if name = "resize" then some resizeAction.actionType else none
  defaultIntrospectionAction := silentAction.actionType
  defaultStatusActionClass := silentAction.actionType
  jobRequestErrors := Server.exampleServer.jobRequestErrors
  text := fun _ => none
  traceback := fun _ => ""

/-- One request with a size and one without. -/
def resizeRequest : Dict :=
  [(.text "control", .dict Server.exampleControl), (.text "context", .dict Server.exampleContext),
    (.text "actions", .list [
      .dict [(.text "action", .text "resize"), (.text "body", .dict [(.text "size", .int 3)])],
      .dict [(.text "action", .text "resize"), (.text "body", .dict [])]])]

lemma hasActions_resizeServer : resizeServer.HasActions resizeActions := by
  intro name
  unfold Server.findAction resizeServer resizeActions
  dsimp only
  by_cases hresize : name = "resize"
  · simp [hresize]
  · by_cases hintrospect : name = "introspect"
    · simp [hintrospect]
    · by_cases hstatus : name = "status" <;> simp [hresize, hintrospect, hstatus]

/-- The action has been run with sizes only, and both requests are answered. -/
theorem Server.processJob_contract_resizeRequest :
    (∀ body ∈ (resizeServer.processJob resizeRequest []).2, sizeErrors body = []) ∧
      (resizeServer.processJob resizeRequest []).1.actions.length = 2 ∧
      ∀ (i : ℕ) response, (resizeServer.processJob resizeRequest []).1.actions[i]? = some response →
        ∃ request w, (∀ body ∈ w, sizeErrors body = []) ∧
          resizeServer.Answered resizeActions request w response := by
  have hkeeps : ∀ name action, resizeActions name = some action →
      action.Keeps fun w => ∀ body ∈ w, sizeErrors body = [] := by
    intro name action haction
    unfold resizeActions at haction
    split_ifs at haction
    · cases haction
      intro request w hw herrors
      refine ⟨hw, fun _ => ?_⟩
      exact List.forall_mem_append.mpr ⟨hw, List.forall_mem_singleton.mpr (List.map_eq_nil_iff.mp herrors)⟩
    · cases haction
      intro request w hw herrors
      exact ⟨hw, fun _ => hw⟩
  obtain ⟨hworld, hanswered⟩ := processJob_contract hasActions_resizeServer rfl hkeeps resizeRequest
    (List.forall_mem_nil _)
  refine ⟨hworld, rfl, ?_⟩
  intro i response hi
  obtain ⟨job, switches, request, -, -, -, hw, hresponse⟩ := hanswered i response hi
  exact ⟨_, _, hw, hresponse⟩

/-! Actions that call other actions of their server. -/

/-- `_replace_errors_if_necessary`. -/
def replaceErrorsIfNecessary (errors : List Error) (isCallerError : Bool) : List Error :=
  errors.map fun error =>
    if error.isCallerError.eqInt (if isCallerError then 1 else 0) then error
    else { error with isCallerError := .bool isCallerError }

namespace EnrichedActionRequest
variable {σ : Type}

/-- `call_local_action`; the request knows its server, if this has made it. -/
def callLocalAction (request : EnrichedActionRequest) (server? : Option (Server σ)) (action : String)
    (body : Value) (raiseActionErrors isCallerError : Bool) (context : Option Dict) (w : σ) :
    Except Exc ActionResponse × σ :=
  let failed (error : Error) : Except Exc ActionResponse :=
    if raiseActionErrors then .error (.actionError [error])
    else .ok { action := .text action, errors := [error] }
  match server? with
  | none => (failed {
      code := .text "SERVER_ERROR"
      message := .text
        "No `_server` attribute set on action request object (and can't make request without it)"
      isCallerError := .bool false }, w)
  | some server =>
    match server.actionClassMap action with
    | none => (failed {
        code := .text "UNKNOWN"
        message := .text ("The action \"" ++ action ++ "\" was not found on this server.")
        field := .text "action"
        isCallerError := .bool false }, w)
    | some actionClass =>
      match actionClass w with
      | (.error e, w) => (.error e, w)
      | (.ok task, w) =>
        let newContext := (context.map request.context.update).getD request.context
        match task { request with action := .text action, body, context := newContext } w with
        | (.error (.actionError errors), w) =>
          (if raiseActionErrors then .error (.actionError errors) else .ok { action := .text action, errors }, w)
        | (.error e, w) => (.error e, w)
        | (.ok response, w) =>
          if raiseActionErrors ∧ response.errors ≠ [] then
            (.error (.actionError (replaceErrorsIfNecessary response.errors isCallerError)), w)
          else (.ok response, w)

/-- A local call that raises no action errors is answered as the action is in the job that it is made from. What
else the action raises, for which the server has an error or which ends the job, the call raises. -/
theorem callLocalAction_eq_perform {server : Server σ} (hmiddleware : server.middleware = []) {name : String}
    {actionClass : ActionType σ} (hclass : server.actionClassMap name = some actionClass)
    (job : EnrichedJobRequest) (switches : List ℤ) (asking : ActionRequest) (body : Value) (isCallerError : Bool)
    (w : σ) :
    let called := callLocalAction ⟨asking, switches, job.context, job.control, job.client⟩ (some server) name body
      false isCallerError none w
    let performed := server.perform job switches { action := .text name, body } w
    called.2 = performed.2 ∧
      ((∃ outcome, performed.1 = .ok outcome ∧ called.1 = .ok (outcome.response (.text name))) ∨
        ∃ e, called.1 = .error e ∧ (performed.1 = .error e ∨
          (∀ errors, e ≠ .actionError errors) ∧ performed.1 = server.caught (.error e))) := by
  have hfind : server.findAction (.text name) = .ok (some actionClass) := by
    rw [Server.findAction, hclass]
  unfold callLocalAction Server.perform
  simp only [hclass, hfind, hmiddleware, List.map_nil]
  generalize actionClass w = made
  obtain ⟨e | task, w'⟩ := made
  · exact ⟨rfl, .inr ⟨e, rfl, .inl rfl⟩⟩
  · have hwrapped : Server.makeMiddlewareStack [] task = task := rfl
    simp only [hwrapped, Option.map_none, Option.getD_none]
    generalize task _ w' = out
    obtain ⟨e | response, w''⟩ := out
    · cases e with
      | actionError errors => exact ⟨rfl, .inl ⟨.actionError errors, rfl, rfl⟩⟩
      | _ =>
        refine ⟨rfl, .inr ⟨_, rfl, .inr ⟨?_, rfl⟩⟩⟩
        rintro errors ⟨⟩
    · exact ⟨rfl, .inl ⟨.returned response, rfl, rfl⟩⟩

/-- A local call without a size gets the error that a client would get. -/
theorem callLocalAction_eq_perform_resizeServer :
    ∃ outcome, (resizeServer.perform (Server.exampleJob []) [] { action := .text "resize" } []).1 = .ok outcome ∧
      (callLocalAction ⟨{ action := .text "enlarge" }, [], Server.exampleContext, Server.exampleControl,
        (Server.exampleJob []).client⟩ (some resizeServer) "resize" (.dict []) false false none []).1 =
          .ok (outcome.response (.text "resize")) := by
  have hmiddleware : resizeServer.middleware = [] := rfl
  obtain ⟨-, h | ⟨e, he, -⟩⟩ := callLocalAction_eq_perform hmiddleware (if_pos rfl)
    (Server.exampleJob []) [] { action := .text "enlarge" } (.dict []) false []
  · exact h
  · cases he

end EnrichedActionRequest
end PySOA
