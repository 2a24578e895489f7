import PySOA.Client.LocalTransport
import PySOA.Server.Actions

/-! A call over the local transport, after any history of requests and responses, comes to running the job
of the server directly. -/
namespace PySOA
variable {ω : Type}

/-- The response that is made a message: that of the job, or an error if it cannot be converted. -/
def Server.sentResponse {σ : Type} (server : Server σ) (jobResponse : JobResponse) : JobResponse :=
  if jobResponse.convertible then jobResponse
  else
    let errorVariables : Value :=
      match server.repr jobResponse with
      | some repr => .dict [(.text "job_response", .text repr)]
      | none => .text "Error formatting variables"
    { errors := [server.handleUnhandledException (.typeError "cannot convert the response") errorVariables] }

lemma Server.responseMessage_eq {σ : Type} (server : Server σ) (version : List ℤ) (jobResponse : JobResponse) :
    server.responseMessage version jobResponse = .ok ((server.sentResponse jobResponse).toValue version) := by
  unfold responseMessage sentResponse JobResponse.asdict
  by_cases h : jobResponse.convertible = true
  · simp [h]
  · simp only [h]
    cases server.repr jobResponse <;> rfl

/-- The actions and the middleware of the server do not touch the transport that the server runs on. -/
def Server.LeavesTransport (server : Server (LocalState ω)) : Prop :=
  ∀ jobRequest s, (server.processJob jobRequest s).2.currentRequest = s.currentRequest ∧
    (server.processJob jobRequest s).2.responseMessages = s.responseMessages

namespace LocalHandler
variable (handler : LocalHandler ω)

lemma clientVersion_metaDict : PySOA.clientVersion handler.metaDict = .ok handler.clientVersion := by
  simp only [PySOA.clientVersion, metaDict, Dict.get?, if_true, iterate, bind, Except.bind]
  apply Results.mapM_eq_ok.mpr
  rw [List.map_map]
  rfl

end LocalHandler

/-- A response that waits in the queue. -/
structure Waiting where
  requestId : ℤ
  metaDict : Meta
  response : JobResponse

namespace Waiting
variable (version : List ℤ) (waiting : Waiting)

def message : ReceivedMessage := ⟨.int waiting.requestId, waiting.metaDict, waiting.response.toValue version⟩

/-- The response as the client reads it, with the request id. -/
def read : Value × JobResponse := (.int waiting.requestId, waiting.response.read version)

end Waiting

namespace LocalClientTransport
variable {server : Server (LocalState ω)} {requestId : ℤ} {metaDict : Meta} {body : Dict} {version : List ℤ}
  {s : LocalState ω}

lemma sendRequestMessage_eq : sendRequestMessage server (.int requestId) metaDict (.dict body) s =
    let handled := server.handleRequest serverTransport ⟨.int requestId, metaDict, .dict body⟩ body
      { s with currentRequest := none }
    (handled.result, { handled.world with currentRequest := none }) := rfl

/-- The job is run, and its response is put in the queue if it is not suppressed. -/
lemma sendRequestMessage_of_loggable (hserver : server.LeavesTransport) (hlog : Loggable body)
    (hversion : PySOA.clientVersion metaDict = .ok version) {suppress : Bool}
    (hsuppress : suppressResponse body = .ok suppress) :
    let answer := server.processJob body { s with currentRequest := none }
    sendRequestMessage server (.int requestId) metaDict (.dict body) s = (.ok (), { answer.2 with
      responseMessages := s.responseMessages ++ if suppress then []
        else [(Waiting.mk requestId metaDict (server.sentResponse answer.1)).message version] }) := by
  have hleft := hserver body { s with currentRequest := none }
  rw [sendRequestMessage_eq, Server.handleRequest_of_loggable hlog hversion (server.responseMessage_eq _ _),
    hsuppress]
  generalize server.processJob body { s with currentRequest := none } = answer at hleft
  obtain ⟨jobResponse, currentRequest, responseMessages, world⟩ := answer
  obtain ⟨rfl, rfl⟩ := hleft
  cases suppress with
  | true => simp
  | false => simp [ServerTransport.sendResponse, serverTransport, Waiting.message]

/-- Whatever comes of a request, at most its own response is put in the queue. -/
lemma exists_sendRequestMessage (hserver : server.LeavesTransport)
    (hversion : PySOA.clientVersion metaDict = .ok version) (requestId : ℤ) (body : Dict) (s : LocalState ω) :
    let s' := (sendRequestMessage server (.int requestId) metaDict (.dict body) s).2
    s'.currentRequest = none ∧ ∃ answers : List Waiting,
      s'.responseMessages = s.responseMessages ++ answers.map (Waiting.message version) ∧
        ∀ answer ∈ answers, answer.requestId = requestId := by
  have hleft := hserver body { s with currentRequest := none }
  refine ⟨rfl, ?_⟩
  by_cases hlog : Loggable body
  · cases hsuppress : suppressResponse body with
    | ok suppress =>
      rw [sendRequestMessage_of_loggable hserver hlog hversion hsuppress]
      cases suppress with
      | true => exact ⟨[], by simp, nofun⟩
      | false => exact ⟨[⟨requestId, metaDict, _⟩], rfl, by simp⟩
    | error e =>
      rw [sendRequestMessage_eq, Server.handleRequest_of_loggable hlog hversion (server.responseMessage_eq _ _),
        hsuppress]
      exact ⟨[], by simp [hleft.2], nofun⟩
  · obtain ⟨cls, m, hhandle⟩ : ∃ cls m, server.handleRequest serverTransport
        ⟨.int requestId, metaDict, .dict body⟩ body { s with currentRequest := none } =
        { result := .error (.exception cls m), world := { s with currentRequest := none } } :=
      Server.handleRequest_of_not_loggable hlog
    rw [sendRequestMessage_eq, hhandle]
    exact ⟨[], by simp, nofun⟩

end LocalClientTransport

namespace LocalHandler

/-- No request is being handled, and the queue holds responses for earlier requests. -/
structure Ready (handler : LocalHandler ω) : Prop where
  server : handler.server.LeavesTransport
  idle : handler.state.currentRequest = none
  waiting : ∃ waiting : List Waiting,
    handler.state.responseMessages = waiting.map (Waiting.message handler.clientVersion) ∧
      ∀ w ∈ waiting, w.requestId < handler.requestCounter

/-- What a client does with its handler, one step after the other: it sends a request, or a loop over the
responses takes the next one. -/
inductive Op
  | send (jobRequest : JobRequest)
  | receive

def step (handler : LocalHandler ω) : Op → LocalHandler ω
  | .send jobRequest => (handler.sendRequest jobRequest).2
  | .receive => handler.baseGetResponse.2

variable {handler : LocalHandler ω}

lemma asdict_dict {jobRequest : JobRequest} {v : Value} (h : jobRequest.asdict = .ok v) :
    ∃ body, v = .dict body := by
  unfold JobRequest.asdict at h
  split_ifs at h
  cases h
  exact ⟨_, rfl⟩

lemma sendRequest_of_asdict {jobRequest : JobRequest} {body : Dict} (h : jobRequest.asdict = .ok (.dict body)) :
    handler.sendRequest jobRequest =
      let out := LocalClientTransport.sendRequestMessage handler.server (.int handler.requestCounter)
        handler.metaDict (.dict body) handler.state
      (out.1.map fun _ => handler.requestCounter,
        { handler with requestCounter := handler.requestCounter+1, state := out.2 }) := by
  rw [sendRequest, h]
  rfl

lemma baseGetResponse_nil (h : handler.state.responseMessages = []) :
    handler.baseGetResponse = (.ok none, handler) := by
  unfold baseGetResponse LocalClientTransport.receiveResponseMessage
  rw [h]
  rfl

lemma baseGetResponse_cons {w : Waiting} {messages : List ReceivedMessage}
    (h : handler.state.responseMessages = w.message handler.clientVersion :: messages) :
    handler.baseGetResponse = (.ok (some (w.read handler.clientVersion)),
      { handler with state := { handler.state with responseMessages := messages } }) := by
  unfold baseGetResponse LocalClientTransport.receiveResponseMessage
  rw [h]
  simp only [Waiting.message, JobResponse.ofKwargs_toValue]
  rfl

theorem Ready.step (h : handler.Ready) (op : Op) : (handler.step op).Ready := by
  obtain ⟨hserver, hidle, waiting, hwaiting, hless⟩ := h
  cases op with
  | send jobRequest =>
    cases hbody : jobRequest.asdict with
    | error e =>
      have hsend : handler.step (.send jobRequest) =
          { handler with requestCounter := handler.requestCounter+1 } := by
        rw [LocalHandler.step, sendRequest, hbody]
      rw [hsend]
      exact ⟨hserver, hidle, waiting, hwaiting, fun w hw => Int.lt_add_one_iff.mpr (hless w hw).le⟩
    | ok v =>
      obtain ⟨body, rfl⟩ := asdict_dict hbody
      obtain ⟨hidle', answers, hanswers, hids⟩ := LocalClientTransport.exists_sendRequestMessage hserver
        handler.clientVersion_metaDict handler.requestCounter body handler.state
      rw [LocalHandler.step, sendRequest_of_asdict hbody]
      refine ⟨hserver, hidle', waiting ++ answers, ?_, ?_⟩
      · rw [List.map_append, ← hwaiting]
        exact hanswers
      · intro w hw
        apply Int.lt_add_one_iff.mpr
        obtain hw | hw := List.mem_append.mp hw
        · exact (hless w hw).le
        · exact (hids w hw).le
  | receive =>
    unfold LocalHandler.step
    cases waiting with
    | nil =>
      rw [baseGetResponse_nil hwaiting]
      exact ⟨hserver, hidle, [], hwaiting, hless⟩
    | cons w waiting =>
      rw [baseGetResponse_cons hwaiting]
      exact ⟨hserver, hidle, waiting, rfl, fun w hw => hless w (List.mem_cons_of_mem _ hw)⟩

/-- The loop over all responses empties the queue. -/
lemma forResponses_collect {waiting : List Waiting}
    (h : handler.state.responseMessages = waiting.map (Waiting.message handler.clientVersion)) {n : ℕ}
    (hn : waiting.length < n) (responses : List (Value × JobResponse)) :
    forResponses ActionsFuture.collect n responses handler =
      (.ok (), responses ++ waiting.map (Waiting.read handler.clientVersion),
        { handler with state := { handler.state with responseMessages := [] } }) := by
  induction waiting generalizing handler n responses with
  | nil =>
    obtain ⟨n, rfl⟩ : ∃ m, n = m+1 := ⟨n-1, by omega⟩
    rw [forResponses, baseGetResponse_nil h]
    obtain ⟨clientVersion, server, requestCounter, current, messages, world⟩ := handler
    cases h
    simp
  | cons w waiting ih =>
    obtain ⟨n, rfl⟩ : ∃ m, n = m+1 := ⟨n-1, by omega⟩
    rw [forResponses, baseGetResponse_cons h]
    let rest : LocalHandler ω := { handler with state := { handler.state with
      responseMessages := waiting.map (Waiting.message handler.clientVersion) } }
    have hrest := @ih rest rfl n (by simpa using hn) (responses ++ [w.read handler.clientVersion])
    rw [List.append_assoc] at hrest
    exact hrest

/-- The only response with the id of the last request is found behind the responses to earlier ones. -/
lemma find?_read {version : List ℤ} {waiting : List Waiting} {requestId : ℤ}
    (h : ∀ w ∈ waiting, w.requestId < requestId) (metaDict : Meta) (response : JobResponse) :
    ((waiting ++ [Waiting.mk requestId metaDict response]).map (Waiting.read version)).find?
      (fun r => r.1.eqInt requestId) = some (.int requestId, response.read version) := by
  induction waiting with
  | nil => simp [Waiting.read]
  | cons w waiting ih =>
    have hne : w.requestId ≠ requestId := (h w List.mem_cons_self).ne
    have hrest := ih fun w hw => h w (List.mem_cons_of_mem _ hw)
    rw [List.cons_append, List.map_cons, List.find?_cons_of_neg (by simp [Waiting.read, hne]), hrest]

lemma callActions_of_sendRequest {jobRequest : JobRequest} {requestId : ℤ} {after : LocalHandler ω}
    {waiting : List Waiting} {response : Value × JobResponse}
    (hsend : handler.sendRequest jobRequest = (.ok requestId, after))
    (hwaiting : after.state.responseMessages = waiting.map (Waiting.message after.clientVersion))
    (hfind : (waiting.map (Waiting.read after.clientVersion)).find? (fun r => r.1.eqInt requestId) =
      some response) (raiseJobErrors raiseActionErrors : Bool) :
    handler.callActions jobRequest raiseJobErrors raiseActionErrors =
      (checkErrors raiseJobErrors raiseActionErrors response.2,
        { after with state := { after.state with responseMessages := [] } }) := by
  have hlength : waiting.length < after.state.responseMessages.length + 1 := by simp [hwaiting]
  unfold callActions getAllResponses
  rw [hsend]
  dsimp only
  rw [forResponses_collect hwaiting hlength, List.nil_append]
  dsimp only
  rw [hfind]

/-- A call comes to running the job: its result is the response of the job, as the client reads it, or the
error that the caller wants to be raised for it. What earlier requests have left in the queue does not
matter, and is gone afterwards. -/
lemma Ready.callActions (h : handler.Ready) {jobRequest : JobRequest} {body : Dict}
    (hbody : jobRequest.asdict = .ok (.dict body)) (hlog : Loggable body)
    (hsuppress : suppressResponse body = .ok false) (raiseJobErrors raiseActionErrors : Bool) :
    let answer := handler.server.processJob body handler.state
    let out := handler.callActions jobRequest raiseJobErrors raiseActionErrors
    out.1 = checkErrors raiseJobErrors raiseActionErrors
        ((handler.server.sentResponse answer.1).read handler.clientVersion) ∧
      out.2.state = { answer.2 with responseMessages := [] } := by
  obtain ⟨hserver, hidle, waiting, hwaiting, hless⟩ := h
  intro answer
  have hstate : { handler.state with currentRequest := none } = handler.state := by rw [← hidle]
  have hsend := @sendRequest_of_asdict _ handler _ _ hbody
  rw [LocalClientTransport.sendRequestMessage_of_loggable hserver hlog handler.clientVersion_metaDict hsuppress,
    hstate, hwaiting] at hsend
  let own : Waiting := ⟨handler.requestCounter, handler.metaDict, handler.server.sentResponse answer.1⟩
  have hqueue : waiting.map (Waiting.message handler.clientVersion) ++ [own.message handler.clientVersion] =
      (waiting ++ [own]).map (Waiting.message handler.clientVersion) := by simp
  have hcall := callActions_of_sendRequest hsend hqueue (find?_read hless _ _) raiseJobErrors raiseActionErrors
  exact ⟨congrArg Prod.fst hcall, congrArg (fun out => out.2.state) hcall⟩

/-- After any history a call over the local transport comes to running the job of the server. -/
theorem callActions_eq_processJob (hserver : handler.server.LeavesTransport)
    (hidle : handler.state.currentRequest = none) (hempty : handler.state.responseMessages = [])
    (ops : List Op) {jobRequest : JobRequest} {body : Dict} (hbody : jobRequest.asdict = .ok (.dict body))
    (hlog : Loggable body) (hsuppress : suppressResponse body = .ok false)
    (raiseJobErrors raiseActionErrors : Bool) :
    let handler := Runs.run LocalHandler.step handler ops
    let answer := handler.server.processJob body handler.state
    let out := handler.callActions jobRequest raiseJobErrors raiseActionErrors
    out.1 = checkErrors raiseJobErrors raiseActionErrors
        ((handler.server.sentResponse answer.1).read handler.clientVersion) ∧
      out.2.state = { answer.2 with responseMessages := [] } := by
  have hnew : handler.Ready := ⟨hserver, hidle, [], hempty, nofun⟩
  have hready := Runs.run_invariant (fun handler op (h : Ready handler) => h.step op) hnew ops
  exact hready.callActions hbody hlog hsuppress raiseJobErrors raiseActionErrors

/-- Notes in the world that it has run. -/
def greet : ActionType (LocalState (List String)) := fun s =>
  (.ok fun _ s => (.ok { action := .text "greet" }, { s with world := s.world ++ ["greet"] }), s)

def exampleLocalServer : Server (LocalState (List String)) where
  serviceName := "example"
  actionClassMap := fun name => if name = "greet" then some greet else none
  defaultIntrospectionAction := greet
  defaultStatusActionClass := greet
  jobRequestErrors := Server.exampleServer.jobRequestErrors
  text := fun _ => none
  traceback := fun _ => ""

lemma leavesTransport_exampleLocalServer : exampleLocalServer.LeavesTransport := by
  intro jobRequest s
  apply Server.keeps_processJob (P := fun s' : LocalState (List String) =>
    s'.currentRequest = s.currentRequest ∧ s'.responseMessages = s.responseMessages)
  · intro name actionClass hfind w hw
    obtain rfl : actionClass = greet := by
      unfold Server.findAction exampleLocalServer at hfind
      dsimp only at hfind
      split at hfind
      · split_ifs at hfind
        all_goals simp at hfind
        all_goals exact hfind.symm
      · cases hfind
      · cases hfind
      · cases hfind
    refine ⟨hw, ?_⟩
    intro action haction
    cases haction
    exact fun _ _ h => h
  · intro m hm
    cases hm
  · intro m hm
    cases hm
  · exact ⟨rfl, rfl⟩

def exampleLocalHandler : LocalHandler (List String) where
  clientVersion := [1,0,0]
  server := exampleLocalServer
  requestCounter := 0
  state := { world := [] }

def exampleJobRequest : JobRequest where
  control := .dict Server.exampleControl
  context := .dict Server.exampleContext
  actions := [{ action := .text "greet" }]

/-- The answer to an earlier request, which was not received, does not get in the way. -/
theorem callActions_eq_processJob_exampleJobRequest :
    ((exampleLocalHandler.sendRequest exampleJobRequest).2.callActions exampleJobRequest true true).1 =
      .ok { actions := [{ action := .text "greet" }], context := .dict [(.text "correlation_id", .text "1")] } := by
  have hlog : Loggable [(.text "control", .dict Server.exampleControl), (.text "context", .dict Server.exampleContext),
      (.text "actions", .list [.dict [(.text "action", .text "greet"), (.text "body", .dict [])]])] :=
    ⟨Server.exampleContext, rfl, rfl, rfl⟩
  exact (@callActions_eq_processJob _ exampleLocalHandler leavesTransport_exampleLocalServer rfl rfl
    [.send exampleJobRequest] _ _ rfl hlog rfl true true).1

end LocalHandler
end PySOA
