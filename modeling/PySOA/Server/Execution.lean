import PySOA.Server.Server

/-! Which actions of a job are run, and what the job response says about them: an action after
which the job goes no further is the last one that is run and answered. -/
namespace PySOA

namespace TaskOutcome

/-- The response for the action has errors. -/
def Errored : TaskOutcome → Prop
  | returned response => response.errors ≠ []
  | actionError errors => errors ≠ []
  | harakiriInterrupt | unhandled _ | notFound => True

/-- The action was struck by harakiri, or it errored in a job that does not continue on errors. -/
def Stops (control : Dict) (outcome : TaskOutcome) : Prop :=
  outcome = harakiriInterrupt ∨ outcome.Errored ∧ continueOnError control = false

lemma errored_iff (action : Value) (outcome : TaskOutcome) :
    outcome.Errored ↔ (outcome.response action).errors ≠ [] := by
  cases outcome <;> simp [Errored, response]

lemma stops_iff (control : Dict) (action : Value) (outcome : TaskOutcome) :
    outcome.stops control action = true ↔ outcome.Stops control := by
  have herrored := errored_iff action outcome
  cases outcome <;> simp [stops, Stops, herrored]

/-- The responses that the server makes name the action. -/
lemma action_response_of_serverMade (action : Value) {outcome : TaskOutcome}
    (h : outcome.ServerMade) : (outcome.response action).action = action := by
  cases outcome with
  | returned response => exact h.elim
  | _ => rfl

end TaskOutcome

/-- The job goes no further after an action with this outcome, or raises its exception. -/
def EndsJob (control : Dict) : Except Exc TaskOutcome → Prop
  | .ok outcome => outcome.Stops control
  | .error _ => True

lemma ends_pass_iff (control : Dict) (action : Value) (outcome : Except Exc TaskOutcome) :
    (TaskOutcome.pass control action outcome).Ends ↔ EndsJob control outcome := by
  cases outcome with
  | error e => exact Iff.rfl
  | ok outcome =>
    rw [EndsJob, ← TaskOutcome.stops_iff control action]
    simp only [TaskOutcome.pass]
    split_ifs with h <;> simp [h, Loops.Pass.Ends]

namespace ServerMiddleware

/-- The middleware lets the exceptions that leave a job through. -/
def PropagatesErrors {σ : Type} (m : ServerMiddleware σ) : Prop :=
  ∀ (task : JobTask σ) job w e w', task job w = (.error e, w') → m.job task job w = (.error e, w')

end ServerMiddleware

namespace Server
variable {σ : Type} (server : Server σ) (job : EnrichedJobRequest) (switches : List ℤ)

/-- The action class that the server has for a name: one of its own, or one of the two that every server
has. -/
inductive HasAction : String → ActionType σ → Prop
  | ofClassMap {name actionClass} (h : server.actionClassMap name = some actionClass) :
      HasAction name actionClass
  | introspect (h : server.actionClassMap "introspect" = none) :
      HasAction "introspect" (server.introspectionAction.getD server.defaultIntrospectionAction)
  | status (h : server.actionClassMap "status" = none) :
      HasAction "status" server.defaultStatusActionClass

/-- The action for a request is found and made, and calling it in the middleware has this result. -/
def Calls (request : ActionRequest) (w : σ) (result : Except Exc ActionResponse) (w' : σ) : Prop :=
  ∃ name actionClass action w₁, request.action = .text name ∧ server.HasAction name actionClass ∧
    actionClass w = (.ok action, w₁) ∧
    makeMiddlewareStack (server.middleware.map (·.action)) action
      ⟨request, switches, job.context, job.control, job.client⟩ w₁ = (result, w')

/-- How an action ends, by what is found under its name and by what its call returns or raises. -/
inductive Performed (request : ActionRequest) (w : σ) : Except Exc TaskOutcome → σ → Prop
  | notFound {name} (hname : request.action = .text name)
      (h : ∀ actionClass, ¬server.HasAction name actionClass) : Performed request w (.ok .notFound) w
  | notMade {name actionClass e w'} (hname : request.action = .text name)
      (hfound : server.HasAction name actionClass) (h : actionClass w = (.error e, w')) :
      Performed request w (.error e) w'
  | returned {response w'} (h : server.Calls job switches request w (.ok response) w') :
      Performed request w (.ok (.returned response)) w'
  | harakiriInterrupt {w'} (h : server.Calls job switches request w (.error .harakiriInterrupt) w') :
      Performed request w (.ok .harakiriInterrupt) w'
  | actionError {errors w'} (h : server.Calls job switches request w (.error (.actionError errors)) w') :
      Performed request w (.ok (.actionError errors)) w'
  | jobError {errors w'} (h : server.Calls job switches request w (.error (.jobError errors)) w') :
      Performed request w (.error (.jobError errors)) w'
  | unhandled {e w'} (h : server.Calls job switches request w (.error e) w')
      (hother : e ≠ .harakiriInterrupt ∧ ∀ errors, e ≠ .actionError errors ∧ e ≠ .jobError errors) :
      Performed request w (.ok (.unhandled (server.handleUnhandledException e))) w'

section performed
variable {server job switches}

lemma findAction_of_hasAction {name : String} {actionClass : ActionType σ}
    (h : server.HasAction name actionClass) : server.findAction (.text name) = .ok (some actionClass) := by
  cases h with
  | ofClassMap h => simp [findAction, h]
  | introspect h => simp [findAction, h]
  | status h => simp [findAction, h]

lemma hasAction_of_findAction {name : String} {actionClass : ActionType σ}
    (h : server.findAction (.text name) = .ok (some actionClass)) : server.HasAction name actionClass := by
  unfold findAction at h
  dsimp only at h
  cases hmap : server.actionClassMap name with
  | some own =>
    rw [hmap] at h
    cases h
    exact .ofClassMap hmap
  | none =>
    rw [hmap] at h
    dsimp only at h
    split_ifs at h with hintrospect hstatus
    · cases h
      subst hintrospect
      exact .introspect hmap
    · cases h
      subst hstatus
      exact .status hmap
    · cases h

/-- A name can be looked up. -/
lemma exists_findAction (server : Server σ) (name : String) :
    ∃ found, server.findAction (.text name) = .ok found := by
  unfold findAction
  dsimp only
  split
  · exact ⟨_, rfl⟩
  · split_ifs <;> exact ⟨_, rfl⟩

lemma perform_of_calls {request : ActionRequest} {w w' : σ} {result : Except Exc ActionResponse}
    (h : server.Calls job switches request w result w') :
    server.perform job switches request w = (server.caught result, w') := by
  obtain ⟨name, actionClass, action, w₁, hname, hfound, hmade, hcall⟩ := h
  unfold perform
  rw [hname, findAction_of_hasAction hfound]
  simp only [hmade, hcall]

/-- The handlers around the call of an action do what is said of them. -/
lemma performed_caught {request : ActionRequest} {w w' : σ} {result : Except Exc ActionResponse}
    (h : server.Calls job switches request w result w') :
    server.Performed job switches request w (server.caught result) w' := by
  cases result with
  | ok response => exact .returned h
  | error e =>
    cases e with
    | harakiriInterrupt => exact .harakiriInterrupt h
    | actionError errors => exact .actionError h
    | jobError errors => exact .jobError h
    | _ => exact .unhandled h (by simp)

/-- **Performing an action** is what is said of it. -/
theorem perform_eq_iff {request : ActionRequest} (hname : ∃ name, request.action = .text name) {w w' : σ}
    {out : Except Exc TaskOutcome} :
    server.perform job switches request w = (out, w') ↔ server.Performed job switches request w out w' := by
  constructor
  · intro h
    obtain ⟨name, hname⟩ := hname
    obtain ⟨found, hfind⟩ := exists_findAction server name
    cases found with
    | none =>
      simp only [perform, hname, hfind] at h
      cases h
      refine .notFound hname fun actionClass hfound => ?_
      rw [findAction_of_hasAction hfound] at hfind
      cases hfind
    | some actionClass =>
      have hfound := hasAction_of_findAction hfind
      cases hmade : actionClass w with
      | mk made w₁ =>
        cases made with
        | error e =>
          simp only [perform, hname, hfind, hmade] at h
          cases h
          exact .notMade hname hfound hmade
        | ok action =>
          have hcalls : server.Calls job switches request w _ _ :=
            ⟨name, actionClass, action, w₁, hname, hfound, hmade, rfl⟩
          rw [perform_of_calls hcalls] at h
          cases h
          exact performed_caught hcalls
  · intro h
    cases h with
    | @notFound name hname h =>
      obtain ⟨found, hfind⟩ := exists_findAction server name
      cases found with
      | none => simp only [perform, hname, hfind]
      | some actionClass => exact absurd (hasAction_of_findAction hfind) (h actionClass)
    | notMade hname hfound h => simp only [perform, hname, findAction_of_hasAction hfound, h]
    | returned h => exact perform_of_calls h
    | harakiriInterrupt h => exact perform_of_calls h
    | actionError h => exact perform_of_calls h
    | jobError h => exact perform_of_calls h
    | unhandled h hother =>
      rw [perform_of_calls h, caught]
      · exact hother.1
      · exact fun errors => (hother.2 errors).1
      · exact fun errors => (hother.2 errors).2

end performed

/-- The outcomes of action requests, were all of them performed one after the other. -/
def outcomes : List ActionRequest → σ → List (Except Exc TaskOutcome)
  | [], _ => []
  | request :: requests, w =>
    let out := server.perform job switches request w
    out.1 :: outcomes requests out.2

/-- The world after performing action requests one after the other. -/
def worldAfter (requests : List ActionRequest) (w : σ) : σ :=
  requests.foldl (fun w request => (server.perform job switches request w).2) w

/-- The responses for the first actions of the job, in order and each by the outcome of its own
action; no other action has been performed. -/
def AnswersFirst (n : ℕ) (w : σ) (out : Except Exc JobResponse × σ) : Prop :=
  (∃ done : List TaskOutcome, (server.outcomes job switches job.actions w).take n = done.map .ok ∧
    out.1 = .ok { actions := job.actions.zipWith (fun request outcome =>
      outcome.response request.action) done }) ∧
  out.2 = server.worldAfter job switches (job.actions.take n) w

lemma passes_executeAction (requests : List ActionRequest) (w : σ) :
    Loops.passes (server.executeAction job switches) requests w =
      requests.zipWith (fun request outcome => TaskOutcome.pass job.control request.action outcome)
        (server.outcomes job switches requests w) := by
  induction requests generalizing w with
  | nil => rfl
  | cons request requests ih =>
    simp only [Loops.passes, outcomes, List.zipWith_cons_cons, ih]
    rfl

variable {server job switches}

/-- The values of the first passes are the responses by the outcomes of their actions. -/
lemma exists_done {requests : List ActionRequest} {w : σ} {n : ℕ} {responses : List ActionResponse}
    (h : responses.map some = ((Loops.passes (server.executeAction job switches) requests w).take n).map
      Loops.Pass.value?) :
    ∃ done : List TaskOutcome, (server.outcomes job switches requests w).take n = done.map .ok ∧
      responses = requests.zipWith (fun request outcome => outcome.response request.action) done := by
  induction requests generalizing w n responses with
  | nil => exact ⟨[], by simp [outcomes], by simpa [Loops.passes] using h⟩
  | cons request requests ih =>
    cases n with
    | zero => exact ⟨[], rfl, by simpa using h⟩
    | succ n =>
      rw [Loops.passes, List.take_succ_cons, List.map_cons] at h
      obtain ⟨response, responses, rfl, hvalue, hrest⟩ := List.map_eq_cons_iff.mp h
      obtain ⟨done, houtcomes, rfl⟩ := ih hrest
      cases hout : (server.perform job switches request w).1 with
      | error e => simp [executeAction, hout, TaskOutcome.pass, Loops.Pass.value?] at hvalue
      | ok outcome =>
        refine ⟨outcome :: done, ?_, ?_⟩
        · rw [outcomes, List.take_succ_cons, hout, List.map_cons]
          exact congrArg _ houtcomes
        · have hresponse : response = outcome.response request.action := by
            simp only [executeAction, hout, TaskOutcome.pass] at hvalue
            split_ifs at hvalue <;> exact Option.some.inj hvalue
          rw [List.zipWith_cons_cons, hresponse]

lemma AnswersFirst.of_givesFirst (hswitches : job.switchSet = .ok switches) {w : σ} {n : ℕ}
    (h : Loops.GivesFirst (server.executeAction job switches) job.actions w n
      (Loops.run (server.executeAction job switches) job.actions w)) :
    server.AnswersFirst job switches n w (server.executeJob job w) := by
  obtain ⟨⟨responses, hrun, hvalues⟩, hafter⟩ := h
  obtain ⟨done, houtcomes, rfl⟩ := exists_done hvalues
  refine ⟨⟨done, houtcomes, ?_⟩, ?_⟩
  · simp only [executeJob, hswitches, hrun, Except.map]
  · simp only [executeJob, hswitches, hafter]
    rfl

lemma getElem?_outcomes (requests : List ActionRequest) (w : σ) (i : ℕ) :
    (server.outcomes job switches requests w)[i]? = requests[i]?.map fun request =>
      (server.perform job switches request (server.worldAfter job switches (requests.take i) w)).1 := by
  induction requests generalizing w i with
  | nil => rfl
  | cons request requests ih =>
    cases i with
    | zero => rfl
    | succ i =>
      rw [outcomes, List.getElem?_cons_succ, List.getElem?_cons_succ, ih]
      rfl

lemma worldAfter_succ {requests : List ActionRequest} {i : ℕ} {request : ActionRequest}
    (h : requests[i]? = some request) (w : σ) :
    server.worldAfter job switches (requests.take (i+1)) w =
      (server.perform job switches request (server.worldAfter job switches (requests.take i) w)).2 := by
  rw [worldAfter, List.take_add_one, h, Option.toList_some, List.foldl_append]
  rfl

/-- The outcomes, of which each is that of an action in the world that the actions in front of it leave. -/
theorem outcomes_eq_some_iff {requests : List ActionRequest}
    (hnames : ∀ request ∈ requests, ∃ name, request.action = .text name) (w : σ) (i : ℕ)
    (o : Except Exc TaskOutcome) :
    (server.outcomes job switches requests w)[i]? = some o ↔ ∃ request, requests[i]? = some request ∧
      server.Performed job switches request (server.worldAfter job switches (requests.take i) w) o
        (server.worldAfter job switches (requests.take (i+1)) w) := by
  rw [getElem?_outcomes, Option.map_eq_some_iff]
  refine exists_congr fun request => and_congr_right fun hrequest => ?_
  rw [← perform_eq_iff (hnames request (List.mem_of_getElem? hrequest)), worldAfter_succ hrequest]
  exact ⟨fun h => Prod.ext h rfl, fun h => congrArg Prod.fst h⟩

lemma length_outcomes (requests : List ActionRequest) (w : σ) :
    (server.outcomes job switches requests w).length = requests.length := by
  induction requests generalizing w with
  | nil => rfl
  | cons request requests ih => simp only [outcomes, List.length_cons, ih]

/-- What ends the loop is what ends the job. -/
lemma ends_of_mem_take {requests : List ActionRequest} {w : σ} {i : ℕ}
    (h : ∀ o ∈ (server.outcomes job switches requests w).take i, ¬EndsJob job.control o) :
    ∀ p ∈ (Loops.passes (server.executeAction job switches) requests w).take i, ¬p.Ends := by
  intro p hp
  rw [passes_executeAction, List.take_zipWith] at hp
  obtain ⟨j, hj⟩ := List.mem_iff_getElem?.mp hp
  obtain ⟨request, outcome, -, houtcome, rfl⟩ := List.getElem?_zipWith_eq_some.mp hj
  rw [ends_pass_iff]
  exact h _ (List.mem_of_getElem? houtcome)

lemma exists_pass {requests : List ActionRequest} {w : σ} {i : ℕ} {o : Except Exc TaskOutcome}
    (h : (server.outcomes job switches requests w)[i]? = some o) :
    ∃ action, (Loops.passes (server.executeAction job switches) requests w)[i]? =
      some (TaskOutcome.pass job.control action o) := by
  obtain ⟨hi, -⟩ := List.getElem?_eq_some_iff.mp h
  rw [length_outcomes] at hi
  refine ⟨requests[i].action, ?_⟩
  rw [passes_executeAction, List.getElem?_zipWith_eq_some]
  exact ⟨requests[i], o, List.getElem?_eq_getElem hi, h, rfl⟩

theorem executeJob_of_not_ends (hswitches : job.switchSet = .ok switches) {w : σ}
    (h : ∀ o ∈ server.outcomes job switches job.actions w, ¬EndsJob job.control o) :
    server.AnswersFirst job switches job.actions.length w (server.executeJob job w) := by
  apply AnswersFirst.of_givesFirst hswitches
  apply Loops.run_of_next
  have hpasses : ∀ p ∈ (Loops.passes (server.executeAction job switches) job.actions w).take
      job.actions.length, ¬p.Ends := ends_of_mem_take fun o ho => h o (List.mem_of_mem_take ho)
  rwa [List.take_of_length_le (by simp)] at hpasses

/-- An action after which the job goes no further is the last one that is answered. -/
theorem executeJob_of_stops (hswitches : job.switchSet = .ok switches) {w : σ} {i : ℕ}
    {outcome : TaskOutcome}
    (houtcome : (server.outcomes job switches job.actions w)[i]? = some (.ok outcome))
    (hbefore : ∀ o ∈ (server.outcomes job switches job.actions w).take i, ¬EndsJob job.control o)
    (hstops : outcome.Stops job.control) :
    server.AnswersFirst job switches (i+1) w (server.executeJob job w) := by
  obtain ⟨action, hpass⟩ := exists_pass houtcome
  rw [TaskOutcome.pass, if_pos ((TaskOutcome.stops_iff _ action outcome).mpr hstops)] at hpass
  exact .of_givesFirst hswitches (Loops.run_of_last hpass (ends_of_mem_take hbefore))

theorem executeJob_of_error (hswitches : job.switchSet = .ok switches) {w : σ} {i : ℕ} {e : Exc}
    (houtcome : (server.outcomes job switches job.actions w)[i]? = some (.error e))
    (hbefore : ∀ o ∈ (server.outcomes job switches job.actions w).take i, ¬EndsJob job.control o) :
    server.executeJob job w = (.error e, server.worldAfter job switches (job.actions.take (i+1)) w) := by
  obtain ⟨action, hpass⟩ := exists_pass houtcome
  have hrun := Loops.run_of_raised hpass (ends_of_mem_take hbefore)
  simp only [executeJob, hswitches, hrun]
  rfl

lemma makeMiddlewareStack_of_propagatesErrors {middleware : List (ServerMiddleware σ)}
    (h : ∀ m ∈ middleware, m.PropagatesErrors) {task : JobTask σ} {w w' : σ} {e : Exc}
    (htask : task job w = (.error e, w')) :
    makeMiddlewareStack (middleware.map (·.job)) task job w = (.error e, w') := by
  unfold makeMiddlewareStack
  induction middleware using List.reverseRecOn generalizing task with
  | nil => exact htask
  | append_singleton middleware m ih =>
    simp only [List.map_append, List.map_cons, List.map_nil, List.reverse_append, List.reverse_cons,
      List.reverse_nil, List.nil_append, List.foldl_cons, List.singleton_append]
    apply ih fun m hm => h m (List.mem_append_left _ hm)
    exact h m (by simp) task job w e w' htask

/-- A `JobError` makes the response to the job, if no middleware keeps it. -/
theorem processJob_of_jobError {jobRequest : Dict} {w w' : σ} {errors : List Error}
    (hjob : server.enrichedJobRequest jobRequest = .ok job)
    (hmiddleware : ∀ m ∈ server.middleware, m.PropagatesErrors)
    (h : server.executeJob job w = (.error (.jobError errors), w')) :
    server.processJob jobRequest w = ({ errors }, w') := by
  have hwrapped := makeMiddlewareStack_of_propagatesErrors hmiddleware h
  simp only [processJob, runJob, hjob, hwrapped]
  rfl

/-- The response to a job that ran has the responses for its actions. -/
theorem processJob_of_response {jobRequest : Dict} {w w' : σ} {actions : List ActionResponse}
    (hjob : server.enrichedJobRequest jobRequest = .ok job)
    (hmiddleware : ∀ m ∈ server.middleware, m.job = id)
    (h : server.executeJob job w = (.ok { actions }, w')) :
    ∃ context, server.processJob jobRequest w = ({ actions, context }, w') := by
  have hstack : makeMiddlewareStack (server.middleware.map (·.job)) server.executeJob =
      server.executeJob := by
    have hid : server.middleware.map (·.job) = List.replicate server.middleware.length id :=
      List.eq_replicate_iff.mpr ⟨List.length_map _, by simpa using hmiddleware⟩
    rw [hid, makeMiddlewareStack, List.reverse_replicate]
    induction server.middleware.length with
    | zero => rfl
    | succ n ih => exact ih
  simp only [processJob, runJob, hjob, hstack, h, Except.bind, copyCorrelationId]
  cases (contextOf jobRequest).get? "correlation_id" with
  | none => exact ⟨_, rfl⟩
  | some correlationId => exact ⟨_, rfl⟩

/-- The job of a job request that is accepted has a set of switches and names its actions with texts. -/
lemma exists_switchSet {jobRequest : Dict} (hjob : server.enrichedJobRequest jobRequest = .ok job) :
    ∃ switches, job.switchSet = .ok switches ∧
      ∀ request ∈ job.actions, ∃ name, request.action = .text name := by
  unfold enrichedJobRequest at hjob
  split_ifs at hjob with herrors
  have haccepted : jobRequestSchema (.dict jobRequest) = true := by
    rw [← server.jobRequestErrors.errors_eq_nil]
    exact List.map_eq_nil_iff.mp (not_not.mp herrors)
  obtain ⟨job', switches, hjob', hswitches⟩ :=
    exists_job_of_accepted (server.makeClient (contextOf jobRequest)) haccepted
  obtain rfl : job' = job := Except.ok.inj (hjob'.symm.trans hjob)
  exact ⟨switches, hswitches⟩

/-- The actions of a job are run in order up to the first one that is struck by harakiri or that
errors in a job which does not continue on errors, and each of these gets its response by what is
found under its name and what its call returns or raises. An exception that no handler keeps leaves no
response to an action; a `JobError` that an action raises makes the response to the job. -/
theorem executeJob_answersPrefix {server : Server σ} {jobRequest : Dict} {job : EnrichedJobRequest}
    (hjob : server.enrichedJobRequest jobRequest = .ok job) (w : σ) :
    ∃ switches, job.switchSet = .ok switches ∧
      (∀ i o, (server.outcomes job switches job.actions w)[i]? = some o ↔
        ∃ request, job.actions[i]? = some request ∧
          server.Performed job switches request (server.worldAfter job switches (job.actions.take i) w) o
            (server.worldAfter job switches (job.actions.take (i+1)) w)) ∧
      ((∀ o ∈ server.outcomes job switches job.actions w, ¬EndsJob job.control o) →
        server.AnswersFirst job switches job.actions.length w (server.executeJob job w)) ∧
      (∀ i outcome, (server.outcomes job switches job.actions w)[i]? = some (.ok outcome) →
        (∀ o ∈ (server.outcomes job switches job.actions w).take i, ¬EndsJob job.control o) →
        outcome.Stops job.control →
        server.AnswersFirst job switches (i+1) w (server.executeJob job w)) ∧
      (∀ outcome : TaskOutcome, outcome.ServerMade → ∀ action, (outcome.response action).action = action) ∧
      (∀ i e, (server.outcomes job switches job.actions w)[i]? = some (.error e) →
        (∀ o ∈ (server.outcomes job switches job.actions w).take i, ¬EndsJob job.control o) →
        server.executeJob job w =
          (.error e, server.worldAfter job switches (job.actions.take (i+1)) w)) ∧
      (∀ actions w', server.executeJob job w = (.ok { actions }, w') →
        (∀ m ∈ server.middleware, m.job = id) →
        ∃ context, server.processJob jobRequest w = ({ actions, context }, w')) ∧
      (∀ errors w', server.executeJob job w = (.error (.jobError errors), w') →
        (∀ m ∈ server.middleware, m.PropagatesErrors) →
        server.processJob jobRequest w = ({ errors }, w')) ∧
      ∀ i request errors w', job.actions[i]? = some request →
        (∀ o ∈ (server.outcomes job switches job.actions w).take i, ¬EndsJob job.control o) →
        server.Calls job switches request (server.worldAfter job switches (job.actions.take i) w)
          (.error (.jobError errors)) w' →
        (∀ m ∈ server.middleware, m.PropagatesErrors) →
        server.processJob jobRequest w = ({ errors }, w') := by
  obtain ⟨switches, hswitches, hnames⟩ := exists_switchSet hjob
  refine ⟨switches, hswitches, outcomes_eq_some_iff hnames w, executeJob_of_not_ends hswitches, ?_, ?_, ?_,
    ?_, ?_, ?_⟩
  · intro i outcome houtcome hbefore hstops
    exact executeJob_of_stops hswitches houtcome hbefore hstops
  · intro outcome hmade action
    exact TaskOutcome.action_response_of_serverMade action hmade
  · intro i e houtcome hbefore
    exact executeJob_of_error hswitches houtcome hbefore
  · intro actions w' h hmiddleware
    exact processJob_of_response hjob hmiddleware h
  · intro errors w' h hmiddleware
    exact processJob_of_jobError hjob hmiddleware h
  · intro i request errors w' hrequest hbefore hcalls hmiddleware
    have hperform := perform_of_calls hcalls
    have houtcome : (server.outcomes job switches job.actions w)[i]? = some (.error (.jobError errors)) := by
      rw [getElem?_outcomes, hrequest, Option.map_some, hperform]
      rfl
    have hexecute := executeJob_of_error hswitches houtcome hbefore
    rw [worldAfter_succ hrequest, hperform] at hexecute
    exact processJob_of_jobError hjob hmiddleware hexecute

/-- An action that notes in the world that it has run and ends as given. -/
def exampleAction (name : String) (result : Except Exc ActionResponse) : ActionType (List String) :=
  fun log => (.ok fun _ log => (result, log ++ [name]), log)

def refusal : Error := { code := .text "REFUSED", message := .text "no" }

/-- Of its actions `greet` responds, `deny` raises an `ActionError` and `refuse` a `JobError`. -/
def exampleServer : Server (List String) where
  serviceName := "example"
  actionClassMap := fun name =>
    if name = "greet" then some (exampleAction name (.ok { action := .text name }))
    else if name = "deny" then
      some (exampleAction name (.error (.actionError [{ code := .text "DENIED", message := .text "no" }])))
    else if name = "refuse" then some (exampleAction name (.error (.jobError [refusal])))
    else none
  defaultIntrospectionAction := exampleAction "introspect" (.ok { action := .text "introspect" })
  defaultStatusActionClass := exampleAction "status" (.ok { action := .text "status" })
  jobRequestErrors := {
    errors := fun v => if jobRequestSchema v then [] else [⟨"INVALID", "Invalid", ""⟩]
    errors_eq_nil := fun v => by simp }
  text := fun _ => none
  traceback := fun _ => ""

def exampleControl : Dict := [(.text "continue_on_error", .bool false)]

def exampleContext : Dict := [(.text "correlation_id", .text "1"), (.text "switches", .list [])]

/-- The job request for the named actions. -/
def exampleRequest (names : List String) : Dict :=
  [(.text "control", .dict exampleControl), (.text "context", .dict exampleContext),
    (.text "actions", .list (names.map fun name => .dict [(.text "action", .text name)]))]

def exampleJob (names : List String) : EnrichedJobRequest where
  control := exampleControl
  context := exampleContext
  actions := names.map fun name => { action := .text name }
  client := exampleServer.makeClient exampleContext

lemma enrichedJobRequest_greetDenyGreet :
    exampleServer.enrichedJobRequest (exampleRequest ["greet", "deny", "greet"]) =
      .ok (exampleJob ["greet", "deny", "greet"]) := rfl

lemma enrichedJobRequest_greetRefuseGreet :
    exampleServer.enrichedJobRequest (exampleRequest ["greet", "refuse", "greet"]) =
      .ok (exampleJob ["greet", "refuse", "greet"]) := rfl

lemma not_endsJob_greet :
    ¬EndsJob exampleControl (.ok (.returned { action := .text "greet" })) := by
  rintro (h | ⟨h, -⟩)
  · cases h
  · exact h rfl

/-- The second action errors; the third is not run and gets no response. If it is a `JobError` that the
second action raises, the response to the job has its errors and no responses to actions. -/
theorem executeJob_answersPrefix_exampleJob :
    (exampleServer.executeJob (exampleJob ["greet", "deny", "greet"]) []).2 = ["greet", "deny"] ∧
      (∃ responses, (exampleServer.executeJob (exampleJob ["greet", "deny", "greet"]) []).1 =
        .ok { actions := responses } ∧ responses.length = 2) ∧
      exampleServer.processJob (exampleRequest ["greet", "refuse", "greet"]) [] =
        ({ errors := [refusal] }, ["greet", "refuse"]) := by
  refine and_assoc.mp ⟨?_, ?_⟩
  · obtain ⟨switches, hswitches, -, -, hstops, -⟩ :=
      executeJob_answersPrefix enrichedJobRequest_greetDenyGreet []
    obtain rfl : [] = switches := Except.ok.inj hswitches
    obtain ⟨⟨done, hdone, hresponses⟩, hworld⟩ := hstops 1 _ rfl
      (fun o ho => List.mem_singleton.mp ho ▸ not_endsJob_greet) (.inr ⟨List.cons_ne_nil _ _, rfl⟩)
    have hlength : done.length = 2 := by
      rw [← List.length_map (f := Except.ok (ε := Exc)), ← hdone, List.length_take, length_outcomes]
      rfl
    refine ⟨hworld, _, hresponses, ?_⟩
    rw [List.length_zipWith, hlength]
    rfl
  · obtain ⟨switches, hswitches, -, -, -, -, -, -, -, hrefused⟩ :=
      executeJob_answersPrefix enrichedJobRequest_greetRefuseGreet []
    obtain rfl : [] = switches := Except.ok.inj hswitches
    apply hrefused 1 { action := .text "refuse" } _ _ rfl
    · exact fun o ho => List.mem_singleton.mp ho ▸ not_endsJob_greet
    · exact ⟨"refuse", _, _, _, rfl, .ofClassMap rfl, rfl, rfl⟩
    · exact List.forall_mem_nil _

end Server
end PySOA
