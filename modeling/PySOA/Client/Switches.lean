import PySOA.Client.ExpansionRounds
import PySOA.Client.ParallelJobs

/-! The switches of a parallel call: which switches its requests and those of its expansions carry,
and what becomes of the context argument. -/
namespace PySOA

/-- The context argument without its switches. -/
def Context.strip (context : Context) : Context := { context with switches := none }

/-- The context of the request has exactly the given switches. -/
def JobRequest.Carries (request : JobRequest) (switches : Finset ℤ) : Prop :=
  ∃ (entries : Dict) (vs : List ℤ), request.context = .dict entries ∧
    Dict.get? entries "switches" = some (.list (vs.map .int)) ∧ vs.Nodup ∧ vs.toFinset = switches

namespace Client

/-- The union of the client's own switches, the argument and those of the context argument. -/
def allSwitches (client : Client) (arguments : RequestArguments) : Finset ℤ :=
  (client.context.switches.getD []).toFinset ∪ arguments.switches.toFinset ∪
    ((arguments.context.bind Context.switches).getD []).toFinset

lemma allSwitches_congr {client client' : Client} {arguments arguments' : RequestArguments}
    (hcontext : client'.context = client.context) (hswitches : arguments'.switches = arguments.switches)
    (hargument : arguments'.context = arguments.context) :
    client'.allSwitches arguments' = client.allSwitches arguments := by
  unfold allSwitches
  rw [hcontext, hswitches, hargument]

lemma bind_switches (context : Option Context) :
    (context.getD {}).switches = context.bind Context.switches := by
  cases context <;> rfl

lemma notText_of_apart {context : Context} {kv : Key × Value} (h : kv ∈ context.entries) :
    kv.1.toText ≠ "switches" := by
  intro hkey
  have hany : context.entries.hasKeyText "switches" = true := by
    unfold Dict.hasKeyText
    exact List.any_eq_true.mpr ⟨kv, h, by simp [hkey]⟩
  rw [context.apart] at hany
  cases hany

lemma get?_header {entries : Dict} (hentries : ∀ kv ∈ entries, kv.1.toText ≠ "switches") (v : Value)
    (extra : Context) :
    Dict.get? (Dict.unicodeKeys ((entries.set "switches" v).update extra.entries)) "switches" = some v := by
  apply Dict.get?_unicodeKeys
  · intro kv hkv hkey
    rcases Dict.mem_update hkv with hkv | hkv
    · rcases Dict.mem_set hkv with rfl | hkv
      · rfl
      · exact absurd hkey (hentries kv hkv)
    · exact absurd hkey (notText_of_apart hkv)
  · refine ⟨_, Dict.mem_update_of_mem (Dict.mem_set_self _ _ _) ?_, rfl⟩
    intro kv' hkv' heq
    apply notText_of_apart hkv'
    rw [heq]
    rfl

lemma notText_set {entries : Dict} (hentries : ∀ kv ∈ entries, kv.1.toText ≠ "switches") (v : Value) :
    ∀ kv ∈ entries.set "correlation_id" v, kv.1.toText ≠ "switches" := by
  intro kv hkv
  rcases Dict.mem_set hkv with rfl | hkv
  · exact (by decide : "correlation_id" ≠ "switches")
  · exact hentries kv hkv

/-- The switches of a context header. -/
lemma get?_makeContextHeader (client : Client) (switches : List ℤ) (correlationId : Option String)
    (contextExtra : Option Context) :
    Dict.get? (client.makeContextHeader switches correlationId contextExtra).1 "switches" =
      some (.list ((client.context.switches.getD [] ++ switches ++
        ((contextExtra.bind Context.switches).getD [])).dedup.map .int)) := by
  have hentries : ∀ kv ∈ client.context.entries, kv.1.toText ≠ "switches" := fun kv hkv => notText_of_apart hkv
  unfold makeContextHeader
  rw [← bind_switches]
  cases correlationId with
  | some correlationId => exact get?_header (notText_set hentries _) _ _
  | none =>
    dsimp only
    split_ifs
    · exact get?_header hentries _ _
    · exact get?_header (notText_set hentries _) _ _

theorem carries_jobRequest (client : Client) (actions : List ActionRequest) (arguments : RequestArguments)
    (suppressResponse : Bool) :
    (client.jobRequest actions arguments suppressResponse).Carries (client.allSwitches arguments) := by
  refine ⟨_, _, rfl, client.get?_makeContextHeader arguments.switches arguments.correlationId
    arguments.context, List.nodup_dedup _, ?_⟩
  ext n
  simp [allSwitches]

/-- What `send_request` does: it hands the job request to the handler, if there is one. -/
lemma sendRequest_eq (client : Client) (serviceName : String) (actions : List ActionRequest)
    (arguments : RequestArguments) (suppressResponse : Bool) :
    client.sendRequest serviceName actions arguments suppressResponse =
      match client.handlers serviceName with
      | none => (.error (unrecognized serviceName), arguments.context, client)
      | some handler =>
        let out := handler.sendRequest (client.jobRequest actions arguments suppressResponse)
          (arguments.timeout.filter (· ≠ 0))
        (out.1, arguments.context.map Context.strip,
          (client.makeContextHeader arguments.switches arguments.correlationId arguments.context).2.2.setHandler
            serviceName out.2) := by
  unfold sendRequest
  cases client.handlers serviceName <;> rfl

lemma context_sendRequest (client : Client) (serviceName : String) (actions : List ActionRequest)
    (arguments : RequestArguments) (suppressResponse : Bool) :
    (client.sendRequest serviceName actions arguments suppressResponse).2.2.context = client.context := by
  rw [sendRequest_eq]
  cases client.handlers serviceName <;> rfl

/-- The context argument is as before, or its switches have been taken out. -/
lemma contextArgument_sendRequest (client : Client) (serviceName : String) (actions : List ActionRequest)
    (arguments : RequestArguments) (suppressResponse : Bool) :
    (client.sendRequest serviceName actions arguments suppressResponse).2.1 =
      if (client.handlers serviceName).isSome then arguments.context.map Context.strip
      else arguments.context := by
  rw [sendRequest_eq]
  cases client.handlers serviceName <;> rfl

/-- The job requests that the loop over the jobs hands to the service handlers. -/
def sentRequests (catchTransportErrors : Bool) : List Job → RequestArguments → Client → List JobRequest
  | [], _, _ => []
  | job :: jobs, arguments, client =>
    let (result, context, client') := client.sendRequest job.serviceName job.actions arguments false
    let handed := if (client.handlers job.serviceName).isSome then
      [client.jobRequest job.actions arguments false] else []
    match result with
    | .ok _ => handed ++ sentRequests catchTransportErrors jobs { arguments with context } client'
    | .error e =>
      if e.isTransportError && catchTransportErrors then
        handed ++ sentRequests catchTransportErrors jobs { arguments with context } client'
      else handed

section jobs
variable {client : Client} {arguments : RequestArguments} {catchTransportErrors : Bool} {jobs : List Job}

/-- Without switches in the context argument the loop over the jobs leaves it as it is, and all its
requests carry the same switches. -/
theorem sentRequests_carry (hstrip : arguments.context.map Context.strip = arguments.context)
    (errors : ℕ) (state : JobsState) (keys : List (String × ℤ)) :
    (∀ request ∈ sentRequests catchTransportErrors jobs arguments client,
      request.Carries (client.allSwitches arguments)) ∧
    (sendJobs catchTransportErrors jobs arguments errors state keys client).2.1 = arguments.context := by
  induction jobs generalizing client errors state keys with
  | nil =>
    refine ⟨?_, rfl⟩
    intro request hrequest
    cases hrequest
  | cons job jobs ih =>
    have hargument := client.contextArgument_sendRequest job.serviceName job.actions arguments false
    rw [hstrip, ite_self] at hargument
    have hcontext := client.context_sendRequest job.serviceName job.actions arguments false
    have hhanded : ∀ request ∈ (if (client.handlers job.serviceName).isSome then
        [client.jobRequest job.actions arguments false] else []),
        request.Carries (client.allSwitches arguments) := by
      intro request hrequest
      split_ifs at hrequest
      · rw [List.mem_singleton.mp hrequest]
        exact client.carries_jobRequest job.actions arguments false
      · cases hrequest
    unfold sentRequests sendJobs
    revert hargument hcontext
    generalize client.sendRequest job.serviceName job.actions arguments false = out
    generalize (if (client.handlers job.serviceName).isSome then
        [client.jobRequest job.actions arguments false] else []) = handed at hhanded
    obtain ⟨result, context, client'⟩ := out
    intro hargument hcontext
    dsimp only at hargument hcontext ⊢
    subst hargument
    have hrest : ∀ errors state keys, (∀ request ∈ handed ++
          sentRequests catchTransportErrors jobs arguments client',
          request.Carries (client.allSwitches arguments)) ∧
        (sendJobs catchTransportErrors jobs arguments errors state keys client').2.1 =
          arguments.context := by
      intro errors state keys
      obtain ⟨hall, hsame⟩ := ih errors state keys
      refine ⟨?_, hsame⟩
      intro request hrequest
      rcases List.mem_append.mp hrequest with hrequest | hrequest
      · exact hhanded request hrequest
      · rw [← allSwitches_congr hcontext rfl rfl]
        exact hall request hrequest
    cases result with
    | ok requestId => exact hrest _ _ _
    | error e =>
      by_cases hcaught : (e.isTransportError && catchTransportErrors) = true
      · simp only [hcaught, if_true]
        exact hrest _ _ _
      · simp only [hcaught]
        exact ⟨hhanded, rfl⟩

/-- However the loop over the jobs ends, it has left the context argument alone or taken its switches
out. -/
lemma contextArgument_sendJobs (errors : ℕ) (state : JobsState) (keys : List (String × ℤ)) :
    (sendJobs catchTransportErrors jobs arguments errors state keys client).2.1 = arguments.context ∨
      (sendJobs catchTransportErrors jobs arguments errors state keys client).2.1 =
        arguments.context.map Context.strip := by
  induction jobs generalizing client arguments errors state keys with
  | nil => exact .inl rfl
  | cons job jobs ih =>
    have hargument := client.contextArgument_sendRequest job.serviceName job.actions arguments false
    unfold sendJobs
    generalize client.sendRequest job.serviceName job.actions arguments false = out at hargument ⊢
    obtain ⟨result, context, client'⟩ := out
    have hcases : context = arguments.context ∨ context = arguments.context.map Context.strip := by
      rw [show context = _ from hargument]
      split_ifs
      · exact .inr rfl
      · exact .inl rfl
    have hstrip : ∀ c : Option Context, (c.map Context.strip).map Context.strip = c.map Context.strip := by
      intro c
      cases c <;> rfl
    have hrest : ∀ final : Option Context, final = context ∨ final = context.map Context.strip →
        final = arguments.context ∨ final = arguments.context.map Context.strip := by
      rintro final (rfl | rfl)
      · exact hcases
      · rcases hcases with rfl | rfl
        · exact .inr rfl
        · exact .inr (hstrip _)
    cases result with
    | ok requestId => exact hrest _ (ih _ _ _)
    | error e =>
      dsimp only
      split_ifs
      · exact hrest _ (ih _ _ _)
      · exact hcases

/-- The first header takes the switches out of the context argument. -/
lemma contextArgument_sendJobs_cons {job : Job} (hhandler : (client.handlers job.serviceName).isSome = true)
    (errors : ℕ) (state : JobsState) (keys : List (String × ℤ)) :
    (sendJobs catchTransportErrors (job :: jobs) arguments errors state keys client).2.1 =
      arguments.context.map Context.strip := by
  have hargument := client.contextArgument_sendRequest job.serviceName job.actions arguments false
  rw [if_pos hhandler] at hargument
  have hstrip : (arguments.context.map Context.strip).map Context.strip =
      arguments.context.map Context.strip := by
    cases arguments.context <;> rfl
  unfold sendJobs
  generalize client.sendRequest job.serviceName job.actions arguments false = out at hargument ⊢
  obtain ⟨result, context, client'⟩ := out
  dsimp only at hargument
  subst hargument
  have hrest : ∀ errors state keys, (sendJobs catchTransportErrors jobs
      { arguments with context := arguments.context.map Context.strip } errors state keys client').2.1 =
        arguments.context.map Context.strip := by
    intro errors state keys
    rcases @contextArgument_sendJobs client' { arguments with context := arguments.context.map Context.strip }
      catchTransportErrors jobs errors state keys with h | h
    · exact h
    · exact h.trans hstrip
  cases result with
  | ok requestId => exact hrest _ _ _
  | error e =>
    dsimp only
    split_ifs
    · exact hrest _ _ _
    · rfl

lemma context_sendJobs (errors : ℕ) (state : JobsState) (keys : List (String × ℤ)) :
    (sendJobs catchTransportErrors jobs arguments errors state keys client).2.2.context = client.context := by
  induction jobs generalizing client arguments errors state keys with
  | nil => rfl
  | cons job jobs ih =>
    have hcontext := client.context_sendRequest job.serviceName job.actions arguments false
    unfold sendJobs
    generalize client.sendRequest job.serviceName job.actions arguments false = out at hcontext ⊢
    obtain ⟨result, context, client'⟩ := out
    cases result with
    | ok requestId => exact (ih _ _ _).trans hcontext
    | error e =>
      dsimp only
      split_ifs
      · exact (ih _ _ _).trans hcontext
      · exact hcontext

end jobs

end Client

/-- Receiving leaves the client's own context alone. -/
lemma JobsFuture.context_receiveAll (catchTransportErrors : Bool) (services : List (String × List ℤ))
    (state : JobsState) (responses : ServiceResponses) (client : Client) :
    (receiveAll catchTransportErrors services state responses client).2.2.context = client.context := by
  induction services generalizing state responses client with
  | nil => rfl
  | cons service rest ih =>
    obtain ⟨serviceName, requestIds⟩ := service
    have hloop := client.context_getAllResponses serviceName (receive catchTransportErrors serviceName)
      (requestIds, responses)
    unfold receiveAll
    revert hloop
    generalize client.getAllResponses serviceName (receive catchTransportErrors serviceName)
      (requestIds, responses) = out
    obtain ⟨result, ⟨requestIds', responses'⟩, client'⟩ := out
    intro hloop
    dsimp only at hloop ⊢
    cases result with
    | ok _ => rw [ih, hloop]
    | error e =>
      dsimp only
      split_ifs
      · rw [ih, hloop]
      · exact hloop

lemma JobsFuture.context_result (future : JobsFuture) (client : Client) :
    (future.result client).2.2.context = client.context := by
  have hget : ∀ w : JobsState × Client, (future.getResponse w).2.2.context = w.2.context := by
    intro w
    have hall := context_receiveAll future.catchTransportErrors w.1.serviceRequestIds
      { w.1 with serviceRequestIds := [] } [] w.2
    unfold getResponse
    revert hall
    generalize receiveAll _ _ _ _ _ = out
    obtain ⟨result, rest⟩ := out
    intro hall
    cases result <;> exact hall
  unfold result FutureCell.result
  cases future.cell.raised with
  | some e => rfl
  | none =>
    dsimp only
    cases future.cell.response.filter fun responses => !responses.isEmpty with
    | some responses => rfl
    | none =>
      dsimp only
      have hcontext := hget (future.state, client)
      revert hcontext
      generalize future.getResponse (future.state, client) = out
      obtain ⟨result, w⟩ := out
      intro hcontext
      cases result with
      | ok responses => exact hcontext
      | error e =>
        dsimp only
        split_ifs <;> exact hcontext

namespace ExpandState

/-- All requests of an expansion have carried the switches of its call, and the contexts are as they
were. -/
structure Switched (client : Client) (arguments : RequestArguments) (s : ExpandState) : Prop where
  context : s.context = arguments.context
  ownContext : s.client.context = client.context
  sent : ∀ request ∈ s.sent, request.jobRequest.Carries (client.allSwitches arguments)

section switched
variable {client : Client} {arguments : RequestArguments} {s : ExpandState}

lemma Switched.sendExpansion (h : s.Switched client arguments)
    (hstrip : arguments.context.map Context.strip = arguments.context) (serviceName actionName : String)
    (instruction : RequestInstruction) (requests : ServiceRequests) :
    (s.sendExpansion arguments serviceName actionName instruction requests).2.Switched client arguments := by
  unfold ExpandState.sendExpansion
  dsimp only
  split_ifs
  · exact h
  · generalize hactions : [(⟨.text actionName, .dict [(.text instruction.field, .list _)]⟩ : ActionRequest)] =
      actions
    generalize hargs : ({ arguments with context := s.context, continueOnError := false } : RequestArguments) =
      args
    have hcarries := s.client.carries_jobRequest actions args false
    have hargument := s.client.contextArgument_sendRequest serviceName actions args false
    have hown := s.client.context_sendRequest serviceName actions args false
    have hswitches : s.client.allSwitches args = client.allSwitches arguments := by
      rw [← hargs]
      exact Client.allSwitches_congr h.ownContext rfl h.context
    have hcontext : args.context = arguments.context := by
      rw [← hargs]
      exact h.context
    rw [hcontext, hstrip, ite_self] at hargument
    rw [hswitches] at hcarries
    have hsent : ∀ values, ∀ request ∈ s.sent ++ [⟨serviceName, actionName, instruction.field, values,
        s.client.jobRequest actions args false⟩],
        request.jobRequest.Carries (client.allSwitches arguments) := by
      intro values request hrequest
      rcases List.mem_append.mp hrequest with hrequest | hrequest
      · exact h.sent request hrequest
      · rw [List.mem_singleton.mp hrequest]
        exact hcarries
    revert hargument hown
    generalize s.client.sendRequest serviceName actions args false = out
    obtain ⟨result, context, client'⟩ := out
    intro hargument hown
    cases result with
    | error e => exact ⟨hargument, hown.trans h.ownContext, hsent _⟩
    | ok requestId => exact ⟨hargument, hown.trans h.ownContext, hsent _⟩

lemma Switched.sendExpansions (h : s.Switched client arguments)
    (hstrip : arguments.context.map Context.strip = arguments.context)
    (L : List (String × String × RequestInstruction)) (requests : ServiceRequests) :
    (s.sendExpansions arguments L requests).2.Switched client arguments := by
  induction L generalizing s requests with
  | nil => exact h
  | cons head rest ih =>
    obtain ⟨serviceName, actionName, instruction⟩ := head
    have hfirst := h.sendExpansion hstrip serviceName actionName instruction requests
    rcases sendExpansions_cons arguments serviceName actionName instruction rest requests s with
      ⟨e, -, hout⟩ | ⟨requests', -, hout⟩
    · rw [hout]
      exact hfirst
    · rw [hout]
      exact ih hfirst requests'

lemma Switched.request (h : s.Switched client arguments)
    (hstrip : arguments.context.map Context.strip = arguments.context) :
    (s.request arguments).2.Switched client arguments := by
  rcases request_cases arguments s with ⟨e, hout⟩ | ⟨pending, -, -, hout⟩
  · rw [hout]
    exact h
  · rw [hout]
    exact h.sendExpansions hstrip _ _

/-- A round keeps it. -/
theorem Switched.round {expansionTrees : List TypeNode} (h : s.Switched client arguments)
    (hstrip : arguments.context.map Context.strip = arguments.context) (hs : s.Sound expansionTrees) :
    (s.round arguments expansionTrees).2.Switched client arguments := by
  have hrequest := h.request hstrip
  have hreceived := hs.received_round arguments
  refine ⟨hreceived.contexts.1.trans hrequest.context, hreceived.contexts.2.trans hrequest.ownContext, ?_⟩
  rw [hreceived.sent]
  exact hrequest.sent

theorem Reaches.switched {expansionTrees : List TypeNode} {s' : ExpandState}
    (hreach : Reaches arguments expansionTrees s s') (h : s.Switched client arguments)
    (hstrip : arguments.context.map Context.strip = arguments.context) (hs : s.Sound expansionTrees) :
    s'.Switched client arguments := by
  induction hreach with
  | refl => exact h
  | round hreach _ hround ih =>
    have hnext := ih.round hstrip (hreach.sound hs)
    rwa [hround] at hnext

lemma Reaches.eq_of_nil {expansionTrees : List TypeNode} {s' : ExpandState}
    (hreach : Reaches arguments expansionTrees s s') (hnil : s.objectsToExpand = []) : s' = s := by
  induction hreach with
  | refl => rfl
  | round _ hwork _ ih =>
    subst ih
    exact absurd hnil hwork

end switched
end ExpandState

/-- The actions whose responses are expanded after a parallel call. -/
def actionsToExpand (entries : List (Except Exc JobResponse)) : List ActionResponse :=
  entries.flatMap fun entry =>
    match entry with
    | .ok response => response.actions
    | .error _ => []

/-- All requests of a parallel call, those of its jobs and those of its expansions, carry the union of
the client's own switches, the argument and those of the context argument, and this stays as it is. -/
structure SwitchesReachAll (client : Client) (jobs : List Job)
    (raiseJobErrors raiseActionErrors catchTransportErrors : Bool) (arguments : RequestArguments) : Prop where
  requests : ∀ request ∈ Client.sentRequests catchTransportErrors jobs arguments client,
    request.Carries (client.allSwitches arguments)
  unchanged : (client.callJobsParallelFuture jobs raiseJobErrors raiseActionErrors catchTransportErrors
    arguments).2.1 = arguments.context
  expansions : ∀ future context client' entries, client.callJobsParallelFuture jobs raiseJobErrors
      raiseActionErrors catchTransportErrors arguments = (.ok future, context, client') →
    (future.result client').1 = .ok entries → ∀ expansionTrees s,
      ExpandState.Reaches arguments expansionTrees
        (.initial (future.result client').2.2 context (actionsToExpand entries) expansionTrees) s →
      s.objectsToExpand ≠ [] →
      (∀ request ∈ (s.round arguments expansionTrees).2.sent,
        request.jobRequest.Carries (client.allSwitches arguments)) ∧
      (s.round arguments expansionTrees).2.context = arguments.context

section switchesReachAll
variable {client : Client} {jobs : List Job} {raiseJobErrors raiseActionErrors catchTransportErrors : Bool}
  {arguments : RequestArguments}

/-- Without switches in the context argument. -/
lemma switchesReachAll_of_none (hnone : arguments.context.bind Context.switches = none) :
    SwitchesReachAll client jobs raiseJobErrors raiseActionErrors catchTransportErrors arguments := by
  have hstrip : arguments.context.map Context.strip = arguments.context := by
    cases hcontext : arguments.context with
    | none => rfl
    | some context =>
      rw [hcontext] at hnone
      obtain ⟨entries, switches, apart⟩ := context
      cases (show switches = none from hnone)
      rfl
  have hjobs := @Client.sentRequests_carry client arguments catchTransportErrors jobs hstrip 0 {} []
  refine ⟨hjobs.1, hjobs.2, ?_⟩
  intro future context client' entries hcall hresult expansionTrees s hreach _
  have hcontext : context = arguments.context := by
    rw [← hjobs.2]
    exact (congrArg (fun out => out.2.1) hcall).symm
  have hown : client'.context = client.context := by
    have hsent := @Client.context_sendJobs client arguments catchTransportErrors jobs 0 {} []
    rw [← hsent]
    exact (congrArg (fun out => out.2.2.context) hcall).symm
  have hstart : (ExpandState.initial (future.result client').2.2 context (actionsToExpand entries)
      expansionTrees).Switched client arguments := by
    refine ⟨hcontext, (future.context_result client').trans hown, ?_⟩
    intro request hrequest
    cases hrequest
  have hsound := ExpandState.sound_initial (future.result client').2.2 context (actionsToExpand entries)
    expansionTrees
  have hround := (hreach.switched hstart hstrip hsound).round hstrip (hreach.sound hsound)
  exact ⟨hround.sent, hround.context⟩

/-- When no request is made. -/
lemma switchesReachAll_of_idle (hidle : ∀ job ∈ jobs.head?, client.handlers job.serviceName = none) :
    SwitchesReachAll client jobs raiseJobErrors raiseActionErrors catchTransportErrors arguments := by
  cases jobs with
  | nil =>
    refine ⟨?_, rfl, ?_⟩
    · intro request hrequest
      cases hrequest
    · intro future context client' entries hcall hresult expansionTrees s hreach hwork
      cases hcall
      cases hresult
      have hnil : ∀ client' : Client, (ExpandState.initial client' arguments.context (actionsToExpand [])
          expansionTrees).objectsToExpand = [] := by
        intro client'
        simp [ExpandState.initial, extractCandidateObjects, actionsToExpand]
      rw [hreach.eq_of_nil (hnil _)] at hwork
      exact absurd (hnil _) hwork
  | cons job jobs =>
    have hhandler := hidle job rfl
    have hraise : client.callJobsParallelFuture (job :: jobs) raiseJobErrors raiseActionErrors
        catchTransportErrors arguments =
          (.error (Client.unrecognized job.serviceName), arguments.context, client) := by
      unfold Client.callJobsParallelFuture Client.sendJobs
      rw [Client.sendRequest_eq, hhandler]
      rfl
    refine ⟨?_, by rw [hraise], ?_⟩
    · intro request hrequest
      unfold Client.sentRequests at hrequest
      rw [Client.sendRequest_eq, hhandler] at hrequest
      cases hrequest
    · intro future context client' entries hcall
      rw [hraise] at hcall
      cases hcall

/-- **Switches reach every parallel job** and every request of its expansions, and the context
argument is left unchanged, if and only if it has no switches or no request is made. -/
theorem switchesReachAll_iff (client : Client) (jobs : List Job)
    (raiseJobErrors raiseActionErrors catchTransportErrors : Bool) (arguments : RequestArguments) :
    SwitchesReachAll client jobs raiseJobErrors raiseActionErrors catchTransportErrors arguments ↔
      arguments.context.bind Context.switches = none ∨
        ∀ job ∈ jobs.head?, client.handlers job.serviceName = none := by
  constructor
  · intro h
    by_contra hnot
    push Not at hnot
    obtain ⟨hswitches, job, hjob, hhandler⟩ := hnot
    cases jobs with
    | nil => cases hjob
    | cons first jobs =>
      cases hjob
      have hcall : (client.callJobsParallelFuture (job :: jobs) raiseJobErrors raiseActionErrors
          catchTransportErrors arguments).2.1 = arguments.context.map Context.strip :=
        Client.contextArgument_sendJobs_cons (Option.isSome_iff_ne_none.mpr hhandler) 0 {} []
      have hstripped := hcall.symm.trans h.unchanged
      rw [← hstripped] at hswitches
      cases hcontext : arguments.context with
      | none => exact hswitches (by rw [hcontext]; rfl)
      | some context => exact hswitches (by rw [hcontext]; rfl)
  · rintro (hnone | hidle)
    · exact switchesReachAll_of_none hnone
    · exact switchesReachAll_of_idle hidle

end switchesReachAll

/-- How many switches the context of a request has. -/
def JobRequest.switchCount (request : JobRequest) : ℕ :=
  match request.context with
  | .dict entries =>
    match Dict.get? entries "switches" with
    | some (.list vs) => vs.length
    | _ => 0
  | _ => 0

lemma JobRequest.Carries.switchCount_eq {request : JobRequest} {switches : Finset ℤ}
    (h : request.Carries switches) : request.switchCount = switches.card := by
  obtain ⟨entries, vs, hcontext, hget, hnodup, rfl⟩ := h
  unfold switchCount
  rw [hcontext]
  simp only [hget, List.length_map, List.toFinset_card_of_nodup hnodup]

/-- The second of two jobs does not get the switch of the context argument. -/
theorem not_switchesReachAll_two_jobs :
    ¬ SwitchesReachAll exampleClient Client.exampleJobs true true false
      { context := some { switches := some [5] } } := by
  intro h
  have hcounts : (Client.sentRequests false Client.exampleJobs { context := some { switches := some [5] } }
      exampleClient).map JobRequest.switchCount = [1, 0] := by decide +kernel
  have hmem : 0 ∈ (Client.sentRequests false Client.exampleJobs { context := some { switches := some [5] } }
      exampleClient).map JobRequest.switchCount := by simp [hcounts]
  obtain ⟨request, hrequest, hzero⟩ := List.mem_map.mp hmem
  rw [(h.requests request hrequest).switchCount_eq] at hzero
  exact absurd hzero (by decide)

end PySOA
