import PySOA.Server.Requests

/-! A server next to a transport that its actions leave alone: by two transports that behave alike it handles
the same requests in the same way. -/
namespace PySOA

section beside
variable {ρ α σ : Type} (τ : Type)

/-- A task in a world that has another part, which the task leaves alone. -/
def beside (task : ρ → σ → α × σ) : ρ → σ × τ → α × (σ × τ) := fun r w =>
  let out := task r w.1
  (out.1, out.2, w.2)

/-- Middleware in such a world. -/
def middlewareBeside (middleware : (ρ → σ → α × σ) → ρ → σ → α × σ) (task : ρ → σ × τ → α × (σ × τ)) :
    ρ → σ × τ → α × (σ × τ) := fun r w =>
  beside τ (middleware fun r s =>
    let out := task r (s, w.2)
    (out.1, out.2.1)) r w

lemma makeMiddlewareStack_beside (middleware : List ((ρ → σ → α × σ) → ρ → σ → α × σ)) (task : ρ → σ → α × σ) :
    Server.makeMiddlewareStack (middleware.map (middlewareBeside τ)) (beside τ task) =
      beside τ (Server.makeMiddlewareStack middleware task) := by
  unfold Server.makeMiddlewareStack
  induction middleware using List.reverseRecOn generalizing task with
  | nil => rfl
  | append_singleton middleware m ih =>
    rw [List.map_append, List.map_singleton, List.reverse_concat, List.reverse_concat, List.foldl_cons,
      List.foldl_cons]
    exact ih (m task)

lemma run_beside {β ε : Type} (body : α → σ → Loops.Pass ε β × σ) (as : List α) (w : σ × τ) :
    Loops.run (beside τ body) as w = beside τ (Loops.run body) as w := by
  induction as generalizing w with
  | nil => rfl
  | cons a as ih =>
    have hrest := ih ((body a w.1).2, w.2)
    simp only [Loops.run, beside] at hrest ⊢
    generalize body a w.1 = out at hrest ⊢
    obtain ⟨pass, s⟩ := out
    cases pass with
    | next b => simp only [hrest]
    | last b => rfl
    | raised e => rfl

end beside

namespace Server
variable {σ : Type} (τ : Type)

def classBeside (actionClass : ActionType σ) : ActionType (σ × τ) := fun w =>
  let out := actionClass w.1
  (out.1.map (beside τ), out.2, w.2)

variable (server : Server σ)

/-- The server in a world that has another part. -/
def lift : Server (σ × τ) where
  serviceName := server.serviceName
  actionClassMap name := (server.actionClassMap name).map (classBeside τ)
  introspectionAction := server.introspectionAction.map (classBeside τ)
  defaultIntrospectionAction := classBeside τ server.defaultIntrospectionAction
  defaultStatusActionClass := classBeside τ server.defaultStatusActionClass
  middleware := server.middleware.map fun m =>
    { job := middlewareBeside τ m.job, action := middlewareBeside τ m.action }
  jobRequestErrors := server.jobRequestErrors
  text := server.text
  traceback := server.traceback
  repr := server.repr
  repeatedArgument := server.repeatedArgument

lemma findAction_lift (name : Value) :
    (server.lift τ).findAction name = (server.findAction name).map (Option.map (classBeside τ)) := by
  cases name with
  | text name =>
    unfold findAction lift
    dsimp only
    cases server.actionClassMap name with
    | some actionClass => rfl
    | none =>
      dsimp only [Option.map_none]
      split_ifs
      · cases server.introspectionAction <;> rfl
      · rfl
      · rfl
  | _ => rfl

lemma perform_lift (job : EnrichedJobRequest) (switches : List ℤ) (request : ActionRequest) (w : σ × τ) :
    (server.lift τ).perform job switches request w = beside τ (server.perform job switches) request w := by
  unfold perform beside
  rw [findAction_lift]
  dsimp only
  cases server.findAction request.action with
  | error e => rfl
  | ok found =>
    cases found with
    | none => rfl
    | some actionClass =>
      have hclass : classBeside τ actionClass w =
          ((actionClass w.1).1.map (beside τ), (actionClass w.1).2, w.2) := rfl
      simp only [Except.map, Option.map_some, hclass]
      generalize actionClass w.1 = made
      obtain ⟨e | action, s⟩ := made
      · rfl
      · have hstack := makeMiddlewareStack_beside τ (server.middleware.map (·.action)) action
        rw [List.map_map] at hstack
        have hmiddleware : (server.lift τ).middleware.map (·.action) =
            server.middleware.map (middlewareBeside τ ∘ (·.action)) := List.map_map
        simp only [hmiddleware, hstack]
        rfl

lemma executeJob_lift (job : EnrichedJobRequest) (w : σ × τ) :
    (server.lift τ).executeJob job w = beside τ server.executeJob job w := by
  unfold executeJob beside
  dsimp only
  cases job.switchSet with
  | error e => rfl
  | ok switches =>
    have hbody : (server.lift τ).executeAction job switches = beside τ (server.executeAction job switches) := by
      funext request w
      unfold executeAction
      rw [perform_lift]
      rfl
    simp only [hbody, run_beside]
    rfl

/-- A job is run as in the world without the other part. -/
theorem processJob_lift (jobRequest : Dict) (w : σ × τ) :
    (server.lift τ).processJob jobRequest w = beside τ server.processJob jobRequest w := by
  unfold processJob beside runJob
  have hjob : (server.lift τ).enrichedJobRequest jobRequest = server.enrichedJobRequest jobRequest := rfl
  rw [hjob]
  dsimp only
  cases server.enrichedJobRequest jobRequest with
  | error e => rfl
  | ok job =>
    have hexecute : (server.lift τ).executeJob = beside τ server.executeJob := by
      funext job w
      exact server.executeJob_lift τ job w
    have hstack := makeMiddlewareStack_beside τ (server.middleware.map (·.job)) server.executeJob
    rw [List.map_map] at hstack
    have hmiddleware : (server.lift τ).middleware.map (·.job) =
        server.middleware.map (middlewareBeside τ ∘ (·.job)) := List.map_map
    simp only [hmiddleware, hexecute, hstack]
    rfl

end Server

section alike
variable {σ τ₁ τ₂ : Type}

/-- The two have handled a request in the same way, and have left transports that are related. -/
structure HandledAlike (R : τ₁ → τ₂ → Prop) (h₁ : Handled (σ × τ₁)) (h₂ : Handled (σ × τ₂)) : Prop where
  result_eq : h₁.result = h₂.result
  sent_eq : h₁.sent = h₂.sent
  world_eq : h₁.world.1 = h₂.world.1
  related : R h₁.world.2 h₂.world.2

/-- By either of two related transports responses are sent in the same way, if the meta of the request meets
the condition; that of the next try meets it again. -/
def SendAlike (R : τ₁ → τ₂ → Prop) (P : Meta → Prop) (transport₁ : ServerTransport (σ × τ₁))
    (transport₂ : ServerTransport (σ × τ₂)) : Prop :=
  ∀ {metaDict t₁ t₂}, P metaDict → R t₁ t₂ → ∀ requestId body s,
    ∃ result metaDict' t₁' t₂', P metaDict' ∧ R t₁' t₂' ∧
      transport₁.sendResponseMessage requestId metaDict body (s, t₁) = (result, metaDict', s, t₁') ∧
      transport₂.sendResponseMessage requestId metaDict body (s, t₂) = (result, metaDict', s, t₂')

variable {R : τ₁ → τ₂ → Prop} {P : Meta → Prop} {transport₁ : ServerTransport (σ × τ₁)}
  {transport₂ : ServerTransport (σ × τ₂)}

lemma SendAlike.sendResponse (hsend : SendAlike R P transport₁ transport₂) {received : ReceivedMessage}
    (hreceived : P received.metaDict) {t₁ : τ₁} {t₂ : τ₂} (h : R t₁ t₂) (version : List ℤ) (message : Value) (s : σ) :
    HandledAlike R (transport₁.sendResponse received version message (s, t₁))
      (transport₂.sendResponse received version message (s, t₂)) := by
  obtain ⟨result, metaDict, t₁, t₂, hmeta, h, hfirst₁, hfirst₂⟩ :=
    hsend hreceived h received.requestId message s
  unfold ServerTransport.sendResponse
  rw [hfirst₁, hfirst₂]
  cases result with
  | ok u => exact ⟨rfl, rfl, rfl, h⟩
  | error e =>
    dsimp only
    cases replacement? e with
    | none => exact ⟨rfl, rfl, rfl, h⟩
    | some jobResponse =>
      dsimp only
      cases jobResponse.asdict version with
      | error e => exact ⟨rfl, rfl, rfl, h⟩
      | ok replacement =>
        obtain ⟨result, metaDict, t₁, t₂, -, h, hsecond₁, hsecond₂⟩ :=
          hsend hmeta h received.requestId replacement s
        dsimp only
        rw [hsecond₁, hsecond₂]
        cases result with
        | ok u => exact ⟨rfl, rfl, rfl, h⟩
        | error e => exact ⟨rfl, rfl, rfl, h⟩

namespace Server
variable (server : Server σ)

lemma handleRequest_alike (hsend : SendAlike R P transport₁ transport₂) {received : ReceivedMessage}
    (hreceived : P received.metaDict) {t₁ : τ₁} {t₂ : τ₂} (h : R t₁ t₂) (jobRequest : Dict) (s : σ) :
    HandledAlike R ((server.lift τ₁).handleRequest transport₁ received jobRequest (s, t₁))
      ((server.lift τ₂).handleRequest transport₂ received jobRequest (s, t₂)) := by
  unfold handleRequest
  rw [processJob_lift, processJob_lift]
  have hmessage (version : List ℤ) (τ : Type) (response : JobResponse) :
      (server.lift τ).responseMessage version response = server.responseMessage version response := rfl
  have hrepeated (τ : Type) : (server.lift τ).repeatedArgument = server.repeatedArgument := rfl
  simp only [hmessage, hrepeated, beside]
  cases logRequestContext server.repeatedArgument jobRequest with
  | error e => exact ⟨rfl, rfl, rfl, h⟩
  | ok u =>
    cases clientVersion received.metaDict with
    | error e => exact ⟨rfl, rfl, rfl, h⟩
    | ok version =>
      dsimp only
      cases server.responseMessage version (server.processJob jobRequest s).1 with
      | error e => exact ⟨rfl, rfl, rfl, h⟩
      | ok message =>
        cases suppressResponse jobRequest with
        | error e => exact ⟨rfl, rfl, rfl, h⟩
        | ok suppress =>
          cases suppress with
          | true => exact ⟨rfl, rfl, rfl, h⟩
          | false => exact hsend.sendResponse hreceived h version message _

/-- If from either transport the same is received, the request is handled in the same way. -/
theorem handleNextRequest_alike (hsend : SendAlike R P transport₁ transport₂) {t₁ t₁' : τ₁} {t₂ t₂' : τ₂} {s : σ}
    {result : Except Exc ReceivedMessage}
    (hreceive₁ : transport₁.receiveRequestMessage (s, t₁) = (result, s, t₁'))
    (hreceive₂ : transport₂.receiveRequestMessage (s, t₂) = (result, s, t₂'))
    (hreceived : ∀ received, result = .ok received → P received.metaDict) (h : R t₁' t₂') :
    HandledAlike R ((server.lift τ₁).handleNextRequest transport₁ (s, t₁))
      ((server.lift τ₂).handleNextRequest transport₂ (s, t₂)) := by
  unfold handleNextRequest
  rw [hreceive₁, hreceive₂]
  cases result with
  | error e => exact ⟨rfl, rfl, rfl, h⟩
  | ok received =>
    dsimp only
    have hhandle := fun jobRequest => server.handleRequest_alike hsend (hreceived received rfl) h jobRequest s
    split
    · exact ⟨rfl, rfl, rfl, h⟩
    · exact ⟨rfl, rfl, rfl, h⟩
    · exact hhandle _
    · exact ⟨rfl, rfl, rfl, h⟩

end Server
end alike

section once
variable {σ τ : Type}

/-- A response that is sent takes the transport from the one condition to the other; a try that fails keeps the
first, and the condition on the meta. -/
def SendsOnce (P : Meta → Prop) (A : τ → Prop) (B : Value → τ → Prop) (requestId : Value)
    (transport : ServerTransport (σ × τ)) : Prop :=
  ∀ metaDict t, P metaDict → A t → ∀ body s, ∃ metaDict' t',
    (transport.sendResponseMessage requestId metaDict body (s, t) = (.ok (), metaDict', s, t') ∧ B body t') ∨
      ∃ e, transport.sendResponseMessage requestId metaDict body (s, t) = (.error e, metaDict', s, t') ∧
        P metaDict' ∧ A t'

/-- Nothing has been sent, or one response. -/
def Handled.SentOnce (A : τ → Prop) (B : Value → τ → Prop) (requestId : Value) (handled : Handled (σ × τ)) : Prop :=
  handled.sent = [] ∧ A handled.world.2 ∨
    ∃ body, handled.sent = [(requestId, body)] ∧ B body handled.world.2

variable {P : Meta → Prop} {A : τ → Prop} {B : Value → τ → Prop} {transport : ServerTransport (σ × τ)}
  {received : ReceivedMessage}

lemma SendsOnce.sendResponse (hsend : SendsOnce P A B received.requestId transport) (hreceived : P received.metaDict)
    {t : τ} (h : A t) (version : List ℤ) (message : Value) (s : σ) :
    (transport.sendResponse received version message (s, t)).SentOnce A B received.requestId := by
  obtain ⟨metaDict, t, ⟨hfirst, hsent⟩ | ⟨e, hfirst, hmeta, h⟩⟩ := hsend _ _ hreceived h message s
  · unfold ServerTransport.sendResponse
    rw [hfirst]
    exact .inr ⟨message, rfl, hsent⟩
  · unfold ServerTransport.sendResponse
    rw [hfirst]
    dsimp only
    cases replacement? e with
    | none => exact .inl ⟨rfl, h⟩
    | some jobResponse =>
      dsimp only
      cases jobResponse.asdict version with
      | error e => exact .inl ⟨rfl, h⟩
      | ok replacement =>
        obtain ⟨metaDict, t, ⟨hsecond, hsent⟩ | ⟨e, hsecond, -, h⟩⟩ := hsend _ _ hmeta h replacement s
        · dsimp only
          rw [hsecond]
          exact .inr ⟨replacement, rfl, hsent⟩
        · dsimp only
          rw [hsecond]
          exact .inl ⟨rfl, h⟩

/-- For a request that has been received at most one response is sent. -/
theorem Server.handleNextRequest_once (server : Server σ) (hsend : SendsOnce P A B received.requestId transport)
    (hreceived : P received.metaDict) {s : σ} {t t' : τ}
    (hreceive : transport.receiveRequestMessage (s, t) = (.ok received, s, t')) (h : A t') :
    ((server.lift τ).handleNextRequest transport (s, t)).SentOnce A B received.requestId := by
  unfold handleNextRequest
  rw [hreceive]
  dsimp only
  split
  · exact .inl ⟨rfl, h⟩
  · exact .inl ⟨rfl, h⟩
  · unfold handleRequest
    rw [processJob_lift]
    dsimp only [beside]
    split
    · exact .inl ⟨rfl, h⟩
    · exact .inl ⟨rfl, h⟩
    · split
      · exact .inl ⟨rfl, h⟩
      · exact .inl ⟨rfl, h⟩
      · exact .inl ⟨rfl, h⟩
      · exact hsend.sendResponse hreceived h _ _ _
  · exact .inl ⟨rfl, h⟩

end once
end PySOA
