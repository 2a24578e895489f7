import PySOA.Test.StubActions

/-! A client with stubbed actions answers a job as one server would that runs all of its actions, unless
`continue_on_error` is passed in a way that the stubs do not see. -/
namespace PySOA
open Splits (placed cut insertAll)

/-- The responses of the tasks, up to the first with errors if the job does not continue on errors. -/
lemma executeTasks_eq (continueOnError : Bool) (tasks : List StubTask) :
    executeTasks continueOnError tasks =
      if continueOnError then tasks.map StubTask.response
      else cut ActionResponse.hasErrors (tasks.map StubTask.response) := by
  induction tasks with
  | nil => cases continueOnError <;> rfl
  | cons task tasks ih =>
    rw [executeTasks, ih, List.map_cons]
    cases continueOnError with
    | true => rw [Bool.not_true, Bool.and_false, if_neg Bool.false_ne_true, if_pos rfl, if_pos rfl]
    | false =>
      rw [Bool.not_false, Bool.and_true, if_neg Bool.false_ne_true, if_neg Bool.false_ne_true, cut]

/-- Going on after errors makes no difference if no action has errors but the last. -/
lemma executeTasks_false_eq_iff (tasks : List StubTask) :
    executeTasks false tasks = executeTasks true tasks ↔ ∀ task ∈ tasks.dropLast, task.response.errors = [] := by
  have herrors (task : StubTask) : ¬task.response.hasErrors = true ↔ task.response.errors = [] := by
    rw [ActionResponse.hasErrors, Bool.not_eq_true, Bool.not_eq_false', List.isEmpty_iff]
  rw [executeTasks_eq, executeTasks_eq, if_neg Bool.false_ne_true, if_pos rfl, Splits.cut_eq_self_iff,
    ← List.map_dropLast, List.forall_mem_map]
  exact forall₂_congr fun task _ => herrors task

section server
variable {σ : Type} {server : Server σ} {job : EnrichedJobRequest} {w : σ} {tasks : List StubTask}

/-- The job asks for the tasks, and the server, were it to perform all of them, would do so with the
outcomes of their positions. -/
structure Performs (server : Server σ) (job : EnrichedJobRequest) (w : σ) (tasks : List StubTask) : Prop where
  actions : job.actions = tasks.map StubTask.request
  outcomes : ∃ switches, job.switchSet = .ok switches ∧
    server.outcomes job switches job.actions w = tasks.map fun task => .ok task.taskOutcome

lemma response_taskOutcome (task : StubTask) :
    task.taskOutcome.response task.request.action = task.response := by
  unfold StubTask.taskOutcome StubTask.response
  cases task.outcome <;> rfl

lemma stops_taskOutcome (control : Dict) (task : StubTask) :
    task.taskOutcome.stops control task.request.action =
      (task.response.hasErrors && !TaskOutcome.continueOnError control) := by
  have hstops : task.taskOutcome.stops control task.request.action =
      ((task.taskOutcome.response task.request.action).errors ≠ [] &&
        !TaskOutcome.continueOnError control) := by
    unfold StubTask.taskOutcome
    cases task.outcome <;> rfl
  rw [hstops, response_taskOutcome, ActionResponse.hasErrors]
  cases task.response.errors <;> rfl

/-- A server that performs the tasks answers the job with their responses. -/
theorem executeJob_of_performs (h : Performs server job w tasks) :
    (server.executeJob job w).1 =
      .ok { actions := executeTasks (TaskOutcome.continueOnError job.control) tasks } := by
  obtain ⟨hactions, switches, hswitches, houtcomes⟩ := h
  have hrun (tasks : List StubTask) (w : σ)
      (houtcomes : server.outcomes job switches (tasks.map StubTask.request) w =
        tasks.map fun task => .ok task.taskOutcome) :
      (Loops.run (server.executeAction job switches) (tasks.map StubTask.request) w).1 =
        .ok (executeTasks (TaskOutcome.continueOnError job.control) tasks) := by
    induction tasks generalizing w with
    | nil => rfl
    | cons task tasks ih =>
      rw [List.map_cons, List.map_cons, Server.outcomes, List.cons.injEq] at houtcomes
      have hbody : server.executeAction job switches task.request w =
          (TaskOutcome.pass job.control task.request.action (.ok task.taskOutcome),
            (server.perform job switches task.request w).2) := by
        rw [Server.executeAction, houtcomes.1]
      rw [TaskOutcome.pass, stops_taskOutcome, response_taskOutcome] at hbody
      rw [List.map_cons, Loops.run, hbody, executeTasks]
      by_cases hstop : (task.response.hasErrors && !TaskOutcome.continueOnError job.control) = true
      · rw [if_pos hstop, if_pos hstop]
      · rw [if_neg hstop, if_neg hstop]
        dsimp only
        rw [ih _ houtcomes.2]
        rfl
  rw [hactions] at houtcomes
  rw [Server.executeJob, hswitches]
  dsimp only
  rw [hactions, hrun tasks w houtcomes]
  rfl

end server

namespace StubAction
variable {stub : StubAction} {serviceName : String}

lemma haltAtFirstError_eq (actions : List ActionResponse) :
    haltAtFirstError actions = cut ActionResponse.hasErrors actions :=
  (Splits.cut_eq_take _ _).symm

/-- The mock gives the outcome of the task, one way or another. -/
structure Conveys (stub : StubAction) (task : StubTask) : Prop where
  response : (stub.mock task).response? stub.action = some task.response
  jobErrors : (stub.mock task).jobErrors = []
  transportException : (stub.mock task).transportException = none

/-- The tasks that are given to the mock. -/
def called (continueOnError : Bool) (tasks : List (ℕ × StubTask)) : List (ℕ × StubTask) :=
  if continueOnError then tasks else cut (fun entry => entry.2.response.hasErrors) tasks

lemma called_cons (continueOnError : Bool) (i : ℕ) (task : StubTask) (tasks : List (ℕ × StubTask)) :
    called continueOnError ((i, task) :: tasks) =
      if !continueOnError && task.response.hasErrors then [(i, task)]
      else (i, task) :: called continueOnError tasks := by
  cases continueOnError with
  | true => rfl
  | false => rw [called, if_neg Bool.false_ne_true, cut, Bool.not_false, Bool.true_and, called,
      if_neg Bool.false_ne_true]

lemma callMock_of_conveys {continueOnError : Bool} {tasks : List (ℕ × StubTask)}
    (h : ∀ entry ∈ tasks, stub.Conveys entry.2) (actions : List (ℕ × ActionResponse)) :
    stub.callMock continueOnError tasks { actions } =
      { actions := actions ++ (called continueOnError tasks).map (Prod.map id StubTask.response) } := by
  induction tasks generalizing actions with
  | nil => cases continueOnError <;> simp [callMock, called, cut]
  | cons entry tasks ih =>
    obtain ⟨i, task⟩ := entry
    obtain ⟨hresponse, hjobErrors, hexception⟩ := h (i, task) List.mem_cons_self
    have hrest := ih (fun entry hentry => h entry (List.mem_cons_of_mem _ hentry))
      (actions ++ [(i, task.response)])
    simp only [callMock, hresponse, hjobErrors, hexception, Option.any_some, Option.toList_some,
      List.map_cons, List.map_nil, List.append_nil, Option.none_or, List.isEmpty_nil, Bool.not_true,
      if_neg Bool.false_ne_true, called_cons]
    split_ifs
    · rfl
    · rw [hrest, List.map_cons, List.append_assoc]
      rfl

@[simp] lemma keep_outstanding (stub : StubAction) (serviceName : String) (requestId : ℕ)
    (response : StubbedResponse) :
    (stub.keep serviceName requestId response).responsesOutstanding serviceName =
      Assoc.upsert requestId (fun _ => response) (stub.responsesOutstanding serviceName) :=
  Function.update_self _ _ _

@[simp] lemma expectMerge_toMerge (stub : StubAction) (serviceName : String) (requestId : ℕ)
    (merge : ℕ × Bool) :
    (stub.expectMerge serviceName requestId merge).responsesToMerge serviceName =
      Assoc.upsert requestId (fun _ => merge) (stub.responsesToMerge serviceName) :=
  Function.update_self _ _ _

@[simp] lemma markSent_sent (stub : StubAction) (serviceName : String) :
    (stub.markSent serviceName).servicesWithCallsSent serviceName = true := Function.update_self _ _ _

/-- The stub keeps nothing for the service. -/
structure Idle (stub : StubAction) (serviceName : String) : Prop where
  toMerge : stub.responsesToMerge serviceName = []
  outstanding : stub.responsesOutstanding serviceName = []

lemma mergeResponses_of_idle (h : stub.Idle serviceName) (responses : List (ℕ × JobResponse)) :
    stub.mergeResponses serviceName responses = .ok (responses, stub) := by
  induction responses with
  | nil => rfl
  | cons entry responses ih =>
    obtain ⟨requestId, response⟩ := entry
    have hpass : stub.mergeResponse serviceName requestId response = .ok ((requestId, response), stub) := by
      rw [mergeResponse, h.toMerge]
      rfl
    rw [mergeResponses, hpass, Except.bind, ih]
    rfl

lemma finish_of_idle (h : stub.Idle serviceName) : stub.finish serviceName = .ok ([], stub) := by
  have hsame : Function.update stub.responsesOutstanding serviceName [] = stub.responsesOutstanding := by
    rw [← h.outstanding, Function.update_eq_self]
  rw [finish, h.toMerge, h.outstanding, hsame]
  rfl

/-- A stub that keeps nothing passes the responses on. -/
lemma getAllResponses_of_idle (h : stub.Idle serviceName) (responses : List (ℕ × JobResponse)) :
    stub.getAllResponses serviceName responses = .ok (responses, stub) := by
  rw [getAllResponses, mergeResponses_of_idle h, Except.bind, finish_of_idle h, Except.map, List.append_nil]

/-- A stub that has answered a request alone gives the response at the end. -/
lemma getAllResponses_keep (h : stub.Idle serviceName) (requestId : ℕ) (response : JobResponse) :
    ∃ stub' : StubAction, (stub.keep serviceName requestId (.job response)).getAllResponses serviceName [] =
      .ok ([(requestId, response)], stub') ∧ stub'.Idle serviceName := by
  have houtstanding : (stub.keep serviceName requestId (.job response)).responsesOutstanding serviceName =
      [(requestId, .job response)] := by
    rw [keep_outstanding, h.outstanding, Assoc.upsert]
  have htoMerge : (stub.keep serviceName requestId (.job response)).responsesToMerge serviceName = [] :=
    h.toMerge
  rw [getAllResponses, mergeResponses, Except.bind, finish, htoMerge, houtstanding]
  exact ⟨_, rfl, htoMerge, Function.update_self _ _ _⟩

/-- A stub that waits for one response merges its own actions into it. -/
lemma getAllResponses_single {requestId stubRequestId : ℕ} {continueOnError : Bool}
    {errors : List Error} {actions : List (ℕ × ActionResponse)}
    (htoMerge : stub.responsesToMerge serviceName = [(requestId, (stubRequestId, continueOnError))])
    (houtstanding : stub.responsesOutstanding serviceName = [(stubRequestId, .toMerge errors actions)])
    (response : JobResponse) :
    ∃ stub' : StubAction, stub.getAllResponses serviceName [(requestId, response)] =
      .ok ([(stubRequestId, { response with
        actions := if continueOnError then insertAll response.actions actions
          else haltAtFirstError (insertAll response.actions actions)
        errors := response.errors ++ errors })], stub') ∧ stub'.Idle serviceName := by
  have hself {β : Type} (key : ℕ) (b : β) : Assoc.get? key [(key, b)] = some b := by
    rw [Assoc.get?_cons, if_pos rfl]
  have hpopped {β : Type} (key : ℕ) (b : β) : [(key, b)].filter (fun entry => entry.1 ≠ key) = [] :=
    List.filter_cons_of_neg (by simp)
  obtain ⟨stub', hmerge, hidle⟩ : ∃ stub' : StubAction,
      stub.mergeResponse serviceName requestId response =
        .ok ((stubRequestId, { response with
          actions := if continueOnError then insertAll response.actions actions
            else haltAtFirstError (insertAll response.actions actions)
          errors := response.errors ++ errors }), stub') ∧ stub'.Idle serviceName := by
    rw [mergeResponse, htoMerge, hself]
    dsimp only
    rw [houtstanding, hself, hpopped, hpopped]
    exact ⟨_, rfl, Function.update_self _ _ _, Function.update_self _ _ _⟩
  refine ⟨stub', ?_, hidle⟩
  rw [getAllResponses, mergeResponses, hmerge]
  change (stub'.finish serviceName).map _ = _
  rw [finish_of_idle hidle]
  rfl

end StubAction

namespace StubbedClient
variable {serviceName : String} {stubs : List StubAction} {client : UnstubbedClient}

/-- Nothing is kept and nothing is on its way for the service. -/
structure Idle (stubs : List StubAction) (client : UnstubbedClient) (serviceName : String) : Prop where
  stubs : ∀ stub ∈ stubs, stub.Idle serviceName
  client : client.responses serviceName = []

/-- The response that is read for the tasks: a stub that is concerned goes by what it sees of the argument. -/
def answered (serviceName : String) (continueOnError : ContinueOnError) (stubs : List StubAction)
    (tasks : List StubTask) : List ActionResponse :=
  executeTasks
    (if tasks.any fun task => stubs.any fun stub => stub.stubs serviceName task then continueOnError.inKwargs
      else continueOnError.value) tasks

lemma receive_cons {stub stub' : StubAction} {responses responses' : List (ℕ × JobResponse)}
    {stubs' : List StubAction} {client' : UnstubbedClient}
    (h : (if stub.servicesWithCallsSent serviceName then receive serviceName stubs client
      else .ok ([], stubs, client)) = .ok (responses, stubs', client'))
    (hstub : stub.getAllResponses serviceName responses = .ok (responses', stub')) :
    receive serviceName (stub :: stubs) client = .ok (responses', stub' :: stubs', client') := by
  rw [receive, h, Except.bind, hstub]
  rfl

/-- There is nothing to read if nothing was sent. -/
lemma receive_of_idle (h : Idle stubs client serviceName) :
    ∃ stubs' client', receive serviceName stubs client = .ok ([], stubs', client') ∧
      Idle stubs' client' serviceName := by
  induction stubs with
  | nil =>
    rw [receive, h.client]
    exact ⟨_, _, rfl, nofun, Function.update_self _ _ _⟩
  | cons stub stubs ih =>
    have hstub := h.stubs stub List.mem_cons_self
    have hstubs : Idle stubs client serviceName :=
      ⟨fun stub hstub => h.stubs stub (List.mem_cons_of_mem _ hstub), h.client⟩
    obtain ⟨stubs', client', hreceive, hidle⟩ : ∃ stubs' client',
        (if stub.servicesWithCallsSent serviceName then receive serviceName stubs client
          else .ok ([], stubs, client)) = .ok ([], stubs', client') ∧ Idle stubs' client' serviceName := by
      by_cases hsent : stub.servicesWithCallsSent serviceName = true
      · rw [if_pos hsent]
        exact ih hstubs
      · rw [if_neg hsent]
        exact ⟨stubs, client, rfl, hstubs⟩
    refine ⟨_, _, receive_cons hreceive (StubAction.getAllResponses_of_idle hstub []), ?_, hidle.client⟩
    exact List.forall_mem_cons.mpr ⟨hstub, hidle.stubs⟩

/-- Merging the responses of the mock into those for the other actions gives those of all actions. -/
lemma merged_eq {sent seen : Bool} (hsent : sent = seen ∨ seen = false) (p : StubTask → Bool)
    (tasks : List StubTask) {actions : List ActionResponse}
    (hactions : actions = insertAll (executeTasks sent (tasks.filter fun task => !p task))
      ((StubAction.called seen (placed p 0 tasks)).map (Prod.map id StubTask.response))) :
    (if seen then actions else StubAction.haltAtFirstError actions) = executeTasks seen tasks := by
  rw [executeTasks_eq] at hactions ⊢
  cases seen with
  | true =>
    obtain rfl : sent = true := hsent.resolve_right Bool.true_eq_false_eq_False
    rw [if_pos rfl, if_pos rfl, hactions, if_pos rfl, StubAction.called, if_pos rfl, ← Splits.map_insertAll,
      Splits.insertAll_placed]
  | false =>
    have hbad (tasks : List StubTask) : cut ActionResponse.hasErrors (tasks.map StubTask.response) =
        (cut (fun task => task.response.hasErrors) tasks).map StubTask.response :=
      (Splits.map_cut _ StubTask.response tasks).symm
    obtain ⟨rest, hrest, hcut⟩ : ∃ rest : List StubTask,
        (if sent = true then (tasks.filter fun task => !p task).map StubTask.response
          else cut ActionResponse.hasErrors ((tasks.filter fun task => !p task).map StubTask.response)) =
          rest.map StubTask.response ∧
        (rest = (tasks.filter fun task => !p task) ∨
          rest = cut (fun task => task.response.hasErrors) (tasks.filter fun task => !p task)) := by
      cases sent with
      | true => exact ⟨_, if_pos rfl, .inl rfl⟩
      | false => exact ⟨_, (if_neg Bool.false_ne_true).trans (hbad _), .inr rfl⟩
    rw [hrest, ← Splits.map_insertAll, StubAction.called, if_neg Bool.false_ne_true] at hactions
    rw [if_neg Bool.false_ne_true, if_neg Bool.false_ne_true, StubAction.haltAtFirstError_eq, hactions, hbad,
      hbad, Splits.cut_insertAll p hcut]

lemma inKwargs_eq_value {continueOnError : ContinueOnError} (h : continueOnError ≠ .positional true) :
    continueOnError.inKwargs = continueOnError.value := by
  cases continueOnError with
  | omitted => rfl
  | keyword b => rfl
  | positional b =>
    cases b with
    | true => exact absurd rfl h
    | false => rfl

lemma inKwargs_eq (continueOnError : ContinueOnError) :
    continueOnError.value = continueOnError.inKwargs ∨ continueOnError.inKwargs = false := by
  cases continueOnError with
  | omitted => exact .inr rfl
  | keyword b => exact .inl rfl
  | positional b => exact .inr rfl

/-- A stub that is concerned makes the difference to what is read. -/
lemma answered_of_stubs (continueOnError : ContinueOnError) {stub : StubAction} {task : StubTask}
    {tasks : List StubTask} (hstub : stub ∈ stubs) (htask : task ∈ tasks)
    (h : stub.stubs serviceName task = true) :
    answered serviceName continueOnError stubs tasks = executeTasks continueOnError.inKwargs tasks := by
  have hany : (tasks.any fun task => stubs.any fun stub => stub.stubs serviceName task) = true :=
    List.any_eq_true.mpr ⟨task, htask, List.any_eq_true.mpr ⟨stub, hstub, h⟩⟩
  rw [answered, hany, if_pos rfl]

lemma answered_of_not_stubs (continueOnError : ContinueOnError) {tasks : List StubTask}
    (h : ∀ task ∈ tasks, ∀ stub ∈ stubs, ¬stub.stubs serviceName task = true) :
    answered serviceName continueOnError stubs tasks = executeTasks continueOnError.value tasks := by
  have hany : (tasks.any fun task => stubs.any fun stub => stub.stubs serviceName task) = false := by
    apply List.any_eq_false.mpr
    intro task htask hstubs
    obtain ⟨stub, hstub, hstubs⟩ := List.any_eq_true.mp hstubs
    exact h task htask stub hstub hstubs
  rw [answered, hany, if_neg Bool.false_ne_true]

/-- What is read is up to the first error by what the stubs see, or by what the server sees. -/
lemma exists_answered_eq (serviceName : String) (stubs : List StubAction)
    (continueOnError : ContinueOnError)
    (tasks : List StubTask) :
    ∃ sent, (sent = continueOnError.inKwargs ∨ continueOnError.inKwargs = false) ∧
      answered serviceName continueOnError stubs tasks = executeTasks sent tasks := by
  by_cases h : ∃ task ∈ tasks, ∃ stub ∈ stubs, stub.stubs serviceName task = true
  · obtain ⟨task, htask, stub, hstub, hstubs⟩ := h
    exact ⟨_, .inl rfl, answered_of_stubs _ hstub htask hstubs⟩
  · push Not at h
    exact ⟨_, inKwargs_eq continueOnError, answered_of_not_stubs _ h⟩

/-- The responses of the mock for actions that are all stubbed. -/
lemma map_snd_called (continueOnError : Bool) (entries : List (ℕ × StubTask)) :
    ((StubAction.called continueOnError entries).map (Prod.map id StubTask.response)).map Prod.snd =
      executeTasks continueOnError (entries.map Prod.snd) := by
  have hsnd (entries : List (ℕ × StubTask)) : (entries.map (Prod.map id StubTask.response)).map Prod.snd =
      (entries.map Prod.snd).map StubTask.response := by
    rw [List.map_map, List.map_map]
    rfl
  rw [executeTasks_eq, hsnd, StubAction.called]
  cases continueOnError with
  | true => rfl
  | false =>
    rw [if_neg Bool.false_ne_true, if_neg Bool.false_ne_true, ← Splits.map_cut _ StubTask.response]
    congr 1
    exact Splits.map_cut (fun task : StubTask => task.response.hasErrors) Prod.snd entries

/-- After the request was sent its response is read once, under its request id, with the given actions,
and nothing is kept afterwards. -/
def Reads (serviceName : String) (sent : ℕ × StubbedClient) (actions : List ActionResponse) : Prop :=
  ∃ stubs' client', receive serviceName sent.2.stubs sent.2.client =
    .ok ([(sent.1, { actions })], stubs', client') ∧ Idle stubs' client' serviceName

lemma reads_unstubbed (h : client.responses serviceName = []) (continueOnError : Bool)
    (tasks : List StubTask) (counter : ℕ) :
    Reads serviceName
      (client.requestCounter serviceName, ⟨counter, [], client.sendRequest serviceName continueOnError tasks⟩)
      (executeTasks continueOnError tasks) := by
  have hresponses : (client.sendRequest serviceName continueOnError tasks).responses serviceName =
      [(client.requestCounter serviceName, { actions := executeTasks continueOnError tasks })] := by
    rw [UnstubbedClient.sendRequest]
    dsimp only
    rw [Function.update_self, h, List.nil_append]
  refine ⟨[], (client.sendRequest serviceName continueOnError tasks).received serviceName, ?_,
    fun _ hstub => absurd hstub List.not_mem_nil, Function.update_self _ _ _⟩
  rw [receive, hresponses]

section cons
variable {stub : StubAction}

lemma reads_alone (hstub : stub.Idle serviceName) (hidle : Idle stubs client serviceName) (requestId : ℕ)
    (actions : List ActionResponse) (counter : ℕ) :
    Reads serviceName
      (requestId, ⟨counter, stub.keep serviceName requestId (.job { actions }) :: stubs, client⟩) actions := by
  obtain ⟨stub', hread, hstub'⟩ := StubAction.getAllResponses_keep hstub requestId { actions }
  obtain ⟨stubs', client', hreceive, hidle'⟩ : ∃ stubs' client',
      (if stub.servicesWithCallsSent serviceName then receive serviceName stubs client
        else .ok ([], stubs, client)) = .ok ([], stubs', client') ∧ Idle stubs' client' serviceName := by
    by_cases hsent : stub.servicesWithCallsSent serviceName = true
    · rw [if_pos hsent]
      exact receive_of_idle hidle
    · rw [if_neg hsent]
      exact ⟨stubs, client, rfl, hidle⟩
  exact ⟨_, _, receive_cons hreceive hread, List.forall_mem_cons.mpr ⟨hstub', hidle'.stubs⟩, hidle'.client⟩

variable {sent : ℕ × StubbedClient} {actions : List ActionResponse}

lemma reads_through (hstub : stub.Idle serviceName) (h : Reads serviceName sent actions) :
    Reads serviceName
      (sent.1, { sent.2 with stubs := stub.markSent serviceName :: sent.2.stubs }) actions := by
  obtain ⟨stubs', client', hreceive, hidle⟩ := h
  have hmarked : (stub.markSent serviceName).Idle serviceName := ⟨hstub.toMerge, hstub.outstanding⟩
  refine ⟨_, _, receive_cons ?_ (StubAction.getAllResponses_of_idle hmarked _),
    List.forall_mem_cons.mpr ⟨hmarked, hidle.stubs⟩, hidle.client⟩
  rw [StubAction.markSent_sent, if_pos rfl, hreceive]

lemma reads_merged (hstub : stub.Idle serviceName) (h : Reads serviceName sent actions) (requestId : ℕ)
    (continueOnError : Bool) (stubbed : List (ℕ × ActionResponse)) :
    Reads serviceName
      (requestId, { sent.2 with
        stubs := ((stub.markSent serviceName).expectMerge serviceName sent.1 (requestId, continueOnError)).keep
          serviceName requestId (.toMerge [] stubbed) :: sent.2.stubs })
      (if continueOnError then insertAll actions stubbed
        else StubAction.haltAtFirstError (insertAll actions stubbed)) := by
  obtain ⟨stubs', client', hreceive, hidle⟩ := h
  have htoMerge : (((stub.markSent serviceName).expectMerge serviceName sent.1
      (requestId, continueOnError)).keep serviceName requestId
        (.toMerge [] stubbed)).responsesToMerge serviceName = [(sent.1, (requestId, continueOnError))] := by
    change ((stub.markSent serviceName).expectMerge serviceName sent.1
      (requestId, continueOnError)).responsesToMerge serviceName = _
    rw [StubAction.expectMerge_toMerge]
    change Assoc.upsert _ _ (stub.responsesToMerge serviceName) = _
    rw [hstub.toMerge, Assoc.upsert]
  have houtstanding : (((stub.markSent serviceName).expectMerge serviceName sent.1
      (requestId, continueOnError)).keep serviceName requestId
        (.toMerge [] stubbed)).responsesOutstanding serviceName = [(requestId, .toMerge [] stubbed)] := by
    rw [StubAction.keep_outstanding]
    change Assoc.upsert _ _ (stub.responsesOutstanding serviceName) = _
    rw [hstub.outstanding, Assoc.upsert]
  obtain ⟨stub', hread, hstub'⟩ := StubAction.getAllResponses_single htoMerge houtstanding { actions }
  refine ⟨_, _, receive_cons ?_ hread, List.forall_mem_cons.mpr ⟨hstub', hidle.stubs⟩, hidle.client⟩
  change (if (stub.markSent serviceName).servicesWithCallsSent serviceName then _ else _) = _
  rw [StubAction.markSent_sent, if_pos rfl, hreceive]

end cons

/-- The response to a request is read once, and nothing is kept afterwards. -/
theorem reads_send (continueOnError : ContinueOnError) (tasks : List StubTask) (counter : ℕ)
    (hidle : Idle stubs client serviceName)
    (hconveys : ∀ stub ∈ stubs, ∀ task ∈ tasks, stub.stubs serviceName task = true → stub.Conveys task) :
    Reads serviceName (send serviceName continueOnError stubs counter client tasks)
      (answered serviceName continueOnError stubs tasks) := by
  induction stubs generalizing tasks counter with
  | nil =>
    have hany : (tasks.any fun task => ([] : List StubAction).any fun stub => stub.stubs serviceName task) =
        false := List.any_eq_false.mpr fun task _ => Bool.false_ne_true
    rw [send, answered, hany, if_neg Bool.false_ne_true]
    exact reads_unstubbed hidle.client _ _ _
  | cons stub stubs ih =>
    have hstub := hidle.stubs stub List.mem_cons_self
    have hstubs : Idle stubs client serviceName :=
      ⟨fun stub hstub => hidle.stubs stub (List.mem_cons_of_mem _ hstub), hidle.client⟩
    have hplaced : ∀ entry ∈ placed (stub.stubs serviceName) 0 tasks,
        entry.2 ∈ tasks ∧ stub.stubs serviceName entry.2 = true := by
      intro entry hentry
      rw [← List.mem_filter, ← Splits.map_snd_placed (stub.stubs serviceName) 0]
      exact List.mem_map_of_mem hentry
    have hcalls : stub.callMock continueOnError.inKwargs (placed (stub.stubs serviceName) 0 tasks) {} =
        { actions := (StubAction.called continueOnError.inKwargs
          (placed (stub.stubs serviceName) 0 tasks)).map (Prod.map id StubTask.response) } := by
      apply StubAction.callMock_of_conveys
      intro entry hentry
      obtain ⟨htask, hstubbed⟩ := hplaced entry hentry
      exact hconveys stub List.mem_cons_self _ htask hstubbed
    have hinner := ih (tasks.filter fun task => !stub.stubs serviceName task) (counter+1) hstubs
      fun stub' hstub' task htask => hconveys stub' (List.mem_cons_of_mem _ hstub') task
        (List.mem_filter.mp htask).1
    rw [send]
    dsimp only
    rw [hcalls]
    by_cases hnone : (tasks.filter fun task => !stub.stubs serviceName task).isEmpty = true
    · -- The stub answers alone.
      have hall : ∀ task ∈ tasks, stub.stubs serviceName task = true := by
        simpa using hnone
      have hactions : answered serviceName continueOnError (stub :: stubs) tasks =
          executeTasks continueOnError.inKwargs ((placed (stub.stubs serviceName) 0 tasks).map Prod.snd) := by
        rw [Splits.map_snd_placed, List.filter_eq_self.mpr hall]
        cases tasks with
        | nil => rfl
        | cons task tasks =>
          exact answered_of_stubs _ List.mem_cons_self List.mem_cons_self (hall task List.mem_cons_self)
      rw [if_pos hnone, hactions, ← map_snd_called]
      exact reads_alone hstub hstubs _ _ _
    · rw [if_neg hnone]
      by_cases hmock : (placed (stub.stubs serviceName) 0 tasks).isEmpty = true
      · -- The stub is not concerned.
        have hnot : ∀ task ∈ tasks, ¬stub.stubs serviceName task = true := by
          rw [List.isEmpty_iff, ← List.map_eq_nil_iff (f := Prod.snd), Splits.map_snd_placed,
            List.filter_eq_nil_iff] at hmock
          exact hmock
        have hfilter : (tasks.filter fun task => !stub.stubs serviceName task) = tasks :=
          List.filter_eq_self.mpr fun task htask => by simp [hnot task htask]
        have hactions : answered serviceName continueOnError (stub :: stubs) tasks =
            answered serviceName continueOnError stubs tasks := by
          have hany : (tasks.any fun task => (stub :: stubs).any fun stub => stub.stubs serviceName task) =
              tasks.any fun task => stubs.any fun stub => stub.stubs serviceName task := by
            rw [Bool.eq_iff_iff, List.any_eq_true, List.any_eq_true]
            apply exists_congr
            intro task
            apply and_congr_right
            intro htask
            rw [List.any_cons, Bool.eq_false_of_not_eq_true (hnot task htask), Bool.false_or]
          rw [answered, hany, answered]
        rw [if_pos hmock, hfilter, hactions]
        rw [hfilter] at hinner
        exact reads_through hstub hinner
      · -- The stub answers some of the actions, and the wrapped client the others.
        obtain ⟨entry, hentry⟩ := List.exists_mem_of_ne_nil _ (fun h => hmock (List.isEmpty_iff.mpr h))
        obtain ⟨htask, hstubbed⟩ := hplaced entry hentry
        obtain ⟨sent, hsent, hanswered⟩ := exists_answered_eq serviceName stubs continueOnError
          (tasks.filter fun task => !stub.stubs serviceName task)
        rw [hanswered] at hinner
        rw [if_neg hmock, answered_of_stubs _ List.mem_cons_self htask hstubbed,
          ← merged_eq hsent (stub.stubs serviceName) tasks rfl]
        exact reads_merged hstub hinner _ _ _

variable {σ : Type} {server : Server σ} {job : EnrichedJobRequest} {w : σ} {tasks : List StubTask}

/-- The response that the client with stubs reads for the tasks has the same responses of actions, in the
same order, as the response of a server that runs all of them. -/
def Transparent (c : StubbedClient) (serviceName : String) (tasks : List StubTask)
    (continueOnError : ContinueOnError) (server : Server σ) (job : EnrichedJobRequest) (w : σ) : Prop :=
  ∃ response c', (c.sendRequest serviceName tasks continueOnError).2.getAllResponses serviceName =
      .ok ([((c.sendRequest serviceName tasks continueOnError).1, response)], c') ∧
    (server.executeJob job w).1 = .ok { actions := response.actions }

/-- A client with stubs in use for any jobs that were read to the end answers a job like one server, unless
`continue_on_error=True` is passed as a positional argument, a stub is concerned and an action other than
the last has errors. -/
theorem transparent_iff (c : StubbedClient) {continueOnError : ContinueOnError}
    (hidle : Idle c.stubs c.client serviceName)
    (hconveys : ∀ stub ∈ c.stubs, ∀ task ∈ tasks, stub.stubs serviceName task = true → stub.Conveys task)
    (hperforms : Performs server job w tasks)
    (hcontrol : TaskOutcome.continueOnError job.control = continueOnError.value) :
    c.Transparent serviceName tasks continueOnError server job w ↔
      continueOnError ≠ .positional true ∨
      (∀ task ∈ tasks, ∀ stub ∈ c.stubs, ¬stub.stubs serviceName task = true) ∨
      ∀ task ∈ tasks.dropLast, task.response.errors = [] := by
  obtain ⟨stubs', client', hreceive, -⟩ := reads_send continueOnError tasks c.counter hidle hconveys
  have hread : (c.sendRequest serviceName tasks continueOnError).2.getAllResponses serviceName =
      .ok ([((c.sendRequest serviceName tasks continueOnError).1,
        { actions := answered serviceName continueOnError c.stubs tasks })],
        { (c.sendRequest serviceName tasks continueOnError).2 with stubs := stubs', client := client' }) := by
    rw [getAllResponses]
    unfold sendRequest
    rw [hreceive]
    rfl
  have hexecute := executeJob_of_performs hperforms
  rw [hcontrol] at hexecute
  have htransparent : c.Transparent serviceName tasks continueOnError server job w ↔
      answered serviceName continueOnError c.stubs tasks = executeTasks continueOnError.value tasks := by
    unfold Transparent
    rw [hread, hexecute]
    constructor
    · rintro ⟨response, c', hok, hactions⟩
      cases hok
      exact (congrArg JobResponse.actions (Except.ok.inj hactions)).symm
    · intro h
      exact ⟨_, _, rfl, by rw [h]⟩
  rw [htransparent]
  by_cases hstubs : ∀ task ∈ tasks, ∀ stub ∈ c.stubs, ¬stub.stubs serviceName task = true
  · exact iff_of_true (answered_of_not_stubs _ hstubs) (.inr (.inl hstubs))
  · have hanswered : answered serviceName continueOnError c.stubs tasks =
        executeTasks continueOnError.inKwargs tasks := by
      push Not at hstubs
      obtain ⟨task, htask, stub, hstub, hstubbed⟩ := hstubs
      exact answered_of_stubs _ hstub htask hstubbed
    rw [hanswered, or_iff_right hstubs]
    by_cases hpositional : continueOnError = .positional true
    · rw [or_iff_right (not_not_intro hpositional), hpositional]
      exact executeTasks_false_eq_iff tasks
    · apply iff_of_true _ (.inl hpositional)
      rw [inKwargs_eq_value hpositional]

/-- A client with a stub for the action `deny` that raises what the action does. -/
def denyingClient : StubbedClient where
  stubs := [{
    service := "example"
    action := "deny"
    mock := fun task =>
      match task.outcome with
      | .body _ => .other
      | .errors es => .actionError es }]

/-- An action that errors, and one that does not. -/
def denyGreet : List StubTask :=
  [{ action := "deny", outcome := .errors [{ code := .text "DENIED", message := .text "no" }] },
    { action := "greet", outcome := .body (.dict []) }]

/-- The job of the two tasks, to be continued after errors. -/
def denyGreetJob : EnrichedJobRequest :=
  { Server.exampleJob ["deny", "greet"] with control := [(.text "continue_on_error", .bool true)] }

lemma performs_denyGreet : Performs Server.exampleServer denyGreetJob [] denyGreet :=
  ⟨rfl, [], rfl, rfl⟩

theorem transparent_iff_denyGreet :
    denyingClient.Transparent "example" denyGreet (.keyword true) Server.exampleServer denyGreetJob [] := by
  have hidle : Idle denyingClient.stubs denyingClient.client "example" :=
    ⟨List.forall_mem_singleton.mpr ⟨rfl, rfl⟩, rfl⟩
  have hconveys : ∀ stub ∈ denyingClient.stubs, ∀ task ∈ denyGreet,
      stub.stubs "example" task = true → stub.Conveys task := by
    intro stub hstub task htask hstubbed
    obtain rfl := List.mem_singleton.mp hstub
    obtain rfl | htask := List.mem_cons.mp htask
    · exact ⟨rfl, rfl, rfl⟩
    · obtain rfl := List.mem_singleton.mp htask
      exact absurd hstubbed (by decide)
  exact (transparent_iff denyingClient hidle hconveys performs_denyGreet rfl).mpr (.inl (by decide))

/-- The stub halts at the error although the job is to be continued. -/
theorem not_transparent_positional :
    ¬denyingClient.Transparent "example" denyGreet (.positional true) Server.exampleServer denyGreetJob [] := by
  intro h
  obtain ⟨response, c', hread, hexecute⟩ := h
  have hlength : ((Server.exampleServer.executeJob denyGreetJob []).1.toOption.map
      fun response => response.actions.length) = some 2 := rfl
  have hactions : (((denyingClient.sendRequest "example" denyGreet (.positional true)).2.getAllResponses
      "example").toOption.map fun out => out.1.map fun entry => entry.2.actions.length) = some [1] := rfl
  rw [hexecute] at hlength
  rw [hread] at hactions
  have htwo : response.actions.length = 2 := Option.some.inj hlength
  have hone : response.actions.length = 1 := (List.cons.inj (Option.some.inj hactions)).1
  omega

end StubbedClient
end PySOA
