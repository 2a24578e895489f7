import PySOA.RedisGateway.Gateway

/-! What the clients of a service receive over Redis: responses of the server to their own requests, at most one
to each, in the order of the requests. -/
namespace PySOA

namespace RedisTransportCore
variable (core : RedisTransportCore) (key : String) (b : Broker)

/-- What receiving does to the broker. -/
lemma receiveFromBroker_cases :
    let out := core.receiveFromBroker key b
    (∃ e, out.1 = .error e ∧ out.2.queues = b.queues) ∨
      ∃ received rest, b.queues key = received :: rest ∧ out.2.queues = Function.update b.queues key rest ∧
        (out.1 = .ok received ∨ ∃ e, out.1 = .error e) := by
  unfold receiveFromBroker
  split
  · exact .inl ⟨_, rfl, rfl⟩
  · next received rest hqueue =>
    refine .inr ⟨received, rest, hqueue, rfl, ?_⟩
    dsimp only
    unfold unlessExpired
    split
    · exact .inr ⟨_, rfl⟩
    · exact .inr ⟨_, rfl⟩
    · exact .inl rfl

end RedisTransportCore

namespace Gateway
variable {ι σ : Type} (g : Gateway ι σ)

section trace
variable [DecidableEq ι] (i : ι)

/-- The id of a request that the client has sent. -/
def requested : ((ℕ → ℚ) × GatewayOp ι) × GatewayOutcome → List Value
  | ((_, .sendRequest j requestId _ _ _), .sent (.ok ())) => if j = i then [requestId] else []
  | _ => []

/-- A response that the client has received. A message without an id says that no more are to come. -/
def received : ((ℕ → ℚ) × GatewayOp ι) × GatewayOutcome → List ReceivedMessage
  | ((_, .receiveResponse j), .received (.ok response)) =>
    if j = i ∧ response.requestId.isNone = false then [response] else []
  | _ => []

lemma received_ok_sublist (clock : ℕ → ℚ) (j : ι) (response : ReceivedMessage) :
    (received i ((clock, .receiveResponse j), .received (.ok response))).Sublist
      (if j = i then [response] else []) := by
  change (if j = i ∧ response.requestId.isNone = false then [response] else []).Sublist _
  by_cases hji : j = i
  · rw [if_pos hji]
    split_ifs
    · exact List.Sublist.refl _
    · exact List.nil_sublist _
  · rw [if_neg (mt And.left hji)]
    exact List.nil_sublist _

/-- The responses that the server has sent, with their ids. -/
def responded : ((ℕ → ℚ) × GatewayOp ι) × GatewayOutcome → List (Value × Value)
  | (_, .handled _ responses) => responses
  | _ => []

end trace

/-- The response is to go to the client. -/
def RepliesTo (i : ι) (metaDict : Meta) : Prop :=
  metaDict.entries.get? "reply_to" = some (.text ((g.client i).replyQueueName (g.threadId i)))

/-- The response to what has been received goes to the client. -/
def isFrom (i : ι) (received : ReceivedMessage) : Bool :=
  match received.metaDict.entries.get? "reply_to" with
  | some (.text queueName) => queueName == (g.client i).replyQueueName (g.threadId i)
  | _ => false

/-- The ids of the responses that wait for the client and, behind them, of its requests that wait for the server. -/
def outstanding (i : ι) (queues : String → List ReceivedMessage) : List Value :=
  (queues (g.replyKey i)).map (·.requestId) ++ ((queues g.requestKey).filter (g.isFrom i)).map (·.requestId)

/-- The responses that wait for the client. -/
def awaiting (i : ι) (queues : String → List ReceivedMessage) : List (Value × Value) :=
  (queues (g.replyKey i)).map fun response => (response.requestId, response.body)

section queues
variable {g} {queues : String → List ReceivedMessage} {message : ReceivedMessage} {rest : List ReceivedMessage}

lemma isFrom_iff {i : ι} (h : g.RepliesTo i message.metaDict) (j : ι) : g.isFrom j message = true ↔ i = j := by
  unfold isFrom
  rw [h]
  simp only [beq_iff_eq]
  exact g.replyQueueName_injective.eq_iff

variable (queues) in
/-- A change of the requests leaves the responses. -/
@[simp] lemma update_requestKey_replyKey (requests : List ReceivedMessage) (i : ι) :
    Function.update queues g.requestKey requests (g.replyKey i) = queues (g.replyKey i) :=
  Function.update_of_ne (g.replyKey_ne i) ..

variable (queues) in
/-- A change of the responses leaves the requests. -/
@[simp] lemma update_replyKey_requestKey (responses : List ReceivedMessage) (i : ι) :
    Function.update queues (g.replyKey i) responses g.requestKey = queues g.requestKey :=
  Function.update_of_ne (g.replyKey_ne i).symm ..

variable (queues) in
lemma update_replyKey_of_ne (responses : List ReceivedMessage) {i j : ι} (h : i ≠ j) :
    Function.update queues (g.replyKey i) responses (g.replyKey j) = queues (g.replyKey j) :=
  Function.update_of_ne (g.replyKey_injective.ne h.symm) ..

/-- A request that is sent is outstanding for its client. -/
lemma outstanding_put [DecidableEq ι] {i : ι} (h : g.RepliesTo i message.metaDict) (j : ι) :
    g.outstanding j (Function.update queues g.requestKey (queues g.requestKey ++ [message])) =
      g.outstanding j queues ++ if i = j then [message.requestId] else [] := by
  have hfrom := isFrom_iff h j
  unfold outstanding
  rw [update_requestKey_replyKey, Function.update_self, List.filter_append, List.map_append, List.append_assoc]
  split_ifs with hij
  · rw [List.filter_cons_of_pos (hfrom.mpr hij)]
    rfl
  · rw [List.filter_cons_of_neg (mt hfrom.mp hij)]
    rfl

/-- Of what waited in a queue whose key has expired, nothing is outstanding. -/
lemma outstanding_expire (key : String) (i : ι) :
    (g.outstanding i (Function.update queues key [])).Sublist (g.outstanding i queues) := by
  have hqueue (key' : String) : (Function.update queues key [] key').Sublist (queues key') := by
    by_cases hkey : key' = key
    · rw [hkey, Function.update_self]
      exact List.nil_sublist _
    · rw [Function.update_of_ne hkey]
  exact ((hqueue _).map _).append (((hqueue _).filter _).map _)

/-- A request that is taken is outstanding no more. -/
lemma outstanding_take (hqueue : queues g.requestKey = message :: rest) (j : ι) :
    (g.outstanding j (Function.update queues g.requestKey rest)).Sublist (g.outstanding j queues) := by
  unfold outstanding
  rw [update_requestKey_replyKey, Function.update_self, hqueue]
  exact (((List.sublist_cons_self message rest).filter _).map _).append_left _

/-- A response that takes the place of its request does so in the order of these. -/
lemma outstanding_answer {i : ι} (hqueue : queues g.requestKey = message :: rest)
    (h : g.RepliesTo i message.metaDict) {response : ReceivedMessage}
    (hid : response.requestId = message.requestId) (j : ι) :
    (g.outstanding j (Function.update (Function.update queues g.requestKey rest) (g.replyKey i)
      (queues (g.replyKey i) ++ [response]))).Sublist (g.outstanding j queues) := by
  by_cases hij : i = j
  · subst hij
    have hfrom : g.isFrom i message = true := (isFrom_iff h i).mpr rfl
    have hsame : g.outstanding i (Function.update (Function.update queues g.requestKey rest) (g.replyKey i)
        (queues (g.replyKey i) ++ [response])) = g.outstanding i queues := by
      unfold outstanding
      rw [Function.update_self, update_replyKey_requestKey, Function.update_self, hqueue,
        List.filter_cons_of_pos hfrom, List.map_append, List.map_cons, List.map_cons, List.map_nil, hid,
        List.append_assoc, List.singleton_append]
    rw [hsame]
  · have hsame : g.outstanding j (Function.update (Function.update queues g.requestKey rest) (g.replyKey i)
        (queues (g.replyKey i) ++ [response])) = g.outstanding j (Function.update queues g.requestKey rest) := by
      unfold outstanding
      rw [update_replyKey_of_ne _ _ hij, update_replyKey_requestKey]
    rw [hsame]
    exact outstanding_take hqueue j

/-- A response that is received was the first to be outstanding. -/
lemma outstanding_receive [DecidableEq ι] {j : ι} (hqueue : queues (g.replyKey j) = message :: rest) (i : ι) :
    (if j = i then [message] else []).map (·.requestId) ++
      g.outstanding i (Function.update queues (g.replyKey j) rest) = g.outstanding i queues := by
  unfold outstanding
  rw [update_replyKey_requestKey]
  split_ifs with hji
  · subst hji
    rw [Function.update_self, hqueue]
    rfl
  · rw [update_replyKey_of_ne _ _ hji]
    rfl

lemma awaiting_receive [DecidableEq ι] {j : ι} (hqueue : queues (g.replyKey j) = message :: rest) (i : ι) :
    (if j = i then [message] else []).map (fun response => (response.requestId, response.body)) ++
      g.awaiting i (Function.update queues (g.replyKey j) rest) = g.awaiting i queues := by
  unfold awaiting
  split_ifs with hji
  · subst hji
    rw [Function.update_self, hqueue]
    rfl
  · rw [update_replyKey_of_ne _ _ hji]
    rfl

variable (queues) in
/-- A response that is sent comes to wait for its client, if for any. -/
lemma awaiting_answer (response : ReceivedMessage) (i j : ι) :
    (g.awaiting j (Function.update queues (g.replyKey i) (queues (g.replyKey i) ++ [response]))).Sublist
      (g.awaiting j queues ++ [(response.requestId, response.body)]) := by
  unfold awaiting
  by_cases hij : i = j
  · subst hij
    rw [Function.update_self, List.map_append]
    rfl
  · rw [update_replyKey_of_ne _ _ hij]
    exact List.sublist_append_left _ _

lemma awaiting_expire (key : String) (i : ι) :
    (g.awaiting i (Function.update queues key [])).Sublist (g.awaiting i queues) := by
  unfold awaiting
  by_cases hkey : g.replyKey i = key
  · rw [hkey, Function.update_self]
    exact List.nil_sublist _
  · rw [Function.update_of_ne hkey]

@[simp] lemma awaiting_update_requestKey (requests : List ReceivedMessage) (i : ι) :
    g.awaiting i (Function.update queues g.requestKey requests) = g.awaiting i queues := by
  unfold awaiting
  rw [update_requestKey_replyKey]

end queues

/-- A response to the client that is sent is put behind those that wait for it. -/
lemma sendsOnce_brokerTransport (i : ι) (requestId : Value) (queues : String → List ReceivedMessage) :
    SendsOnce (g.RepliesTo i) (fun b : Broker => b.queues = queues)
      (fun body b => ∃ response, b.queues = Function.update queues (g.replyKey i)
        (queues (g.replyKey i) ++ [response]) ∧ response.requestId = requestId ∧ response.body = body)
      requestId (g.brokerTransport (σ := σ)) := by
  rintro metaDict b hmeta rfl body s
  have hsend : g.brokerTransport.sendResponseMessage requestId metaDict body (s, b) =
      let out := g.transport.core.sendToBroker ((g.client i).replyQueueName (g.threadId i)) requestId metaDict body
        none b
      (out.1, out.2.1, s, out.2.2) := by
    unfold RepliesTo at hmeta
    unfold brokerTransport
    simp only [hmeta]
  rw [hsend]
  obtain ⟨e, hout⟩ | ⟨e, hout⟩ | hout := g.transport.core.sendToBroker_cases
    ((g.client i).replyQueueName (g.threadId i)) requestId metaDict body none b
  · rw [hout]
    exact ⟨_, _, .inr ⟨e, rfl, hmeta, rfl⟩⟩
  · rw [hout]
    exact ⟨_, _, .inr ⟨e, rfl, (Dict.get?_set_of_ne _ _ (by decide)).trans hmeta, rfl⟩⟩
  · rw [hout]
    exact ⟨_, _, .inl ⟨rfl, _, rfl, rfl, rfl⟩⟩

/-- What handling a request does to the queues: the request is gone, and its response, if one is sent, waits for
the client. -/
lemma queues_handleNextRequest {b : Broker} (hrequests : ∀ received ∈ b.queues g.requestKey,
    g.Answerable received.metaDict) (w : σ) :
    let handled := (g.server.lift Broker).handleNextRequest g.brokerTransport (w, b)
    handled.sent = [] ∧ handled.world.2.queues = b.queues ∨
      ∃ received rest, b.queues g.requestKey = received :: rest ∧
        (handled.sent = [] ∧ handled.world.2.queues = Function.update b.queues g.requestKey rest ∨
          ∃ i response, g.RepliesTo i received.metaDict ∧ response.requestId = received.requestId ∧
            handled.sent = [(received.requestId, response.body)] ∧
            handled.world.2.queues = Function.update (Function.update b.queues g.requestKey rest) (g.replyKey i)
              (b.queues (g.replyKey i) ++ [response])) := by
  have hreceive : g.brokerTransport.receiveRequestMessage (w, b) =
      ((g.transport.core.receiveFromBroker g.requestKey b).1, w,
        (g.transport.core.receiveFromBroker g.requestKey b).2) := rfl
  obtain ⟨e, hout, hqueues⟩ | ⟨received, rest, hqueue, hqueues, hout | ⟨e, hout⟩⟩ :=
    g.transport.core.receiveFromBroker_cases g.requestKey b
  · left
    unfold Server.handleNextRequest
    rw [hreceive, hout]
    exact ⟨rfl, hqueues⟩
  · right
    refine ⟨received, rest, hqueue, ?_⟩
    obtain ⟨i, hreply, -⟩ := hrequests received (hqueue ▸ List.mem_cons_self)
    have hsend := g.sendsOnce_brokerTransport (σ := σ) i received.requestId
      (Function.update b.queues g.requestKey rest)
    rw [update_requestKey_replyKey] at hsend
    obtain ⟨hsent, hend⟩ | ⟨body, hsent, response, hend, hid, rfl⟩ :=
      g.server.handleNextRequest_once hsend hreply (hreceive.trans (by rw [hout])) hqueues
    · exact .inl ⟨hsent, hend⟩
    · exact .inr ⟨i, response, hreply, hid, hsent, hend⟩
  · right
    refine ⟨received, rest, hqueue, .inl ?_⟩
    unfold Server.handleNextRequest
    rw [hreceive, hout]
    exact ⟨rfl, hqueues⟩

section steps
variable [DecidableEq ι]

/-- What a step does to the queues of the broker. -/
inductive Transfer (queues : String → List ReceivedMessage) (event : ((ℕ → ℚ) × GatewayOp ι) × GatewayOutcome) :
    (String → List ReceivedMessage) → Prop
  | nothing (hreceived : ∀ i, received i event = []) : Transfer queues event queues
  | request {j : ι} {message : ReceivedMessage} (hreply : g.RepliesTo j message.metaDict)
      (hrequested : ∀ i, requested i event = if j = i then [message.requestId] else [])
      (hreceived : ∀ i, received i event = []) :
      Transfer queues event (Function.update queues g.requestKey (queues g.requestKey ++ [message]))
  | take {message : ReceivedMessage} {rest : List ReceivedMessage} (hqueue : queues g.requestKey = message :: rest)
      (hreceived : ∀ i, received i event = []) :
      Transfer queues event (Function.update queues g.requestKey rest)
  | answer {message : ReceivedMessage} {rest : List ReceivedMessage} {j : ι} {response : ReceivedMessage}
      (hqueue : queues g.requestKey = message :: rest)
      (hreply : g.RepliesTo j message.metaDict)
      (hid : response.requestId = message.requestId)
      (hresponded : responded event = [(response.requestId, response.body)])
      (hreceived : ∀ i, received i event = []) :
      Transfer queues event (Function.update (Function.update queues g.requestKey rest) (g.replyKey j)
        (queues (g.replyKey j) ++ [response]))
  | receive {j : ι} {message : ReceivedMessage} {rest : List ReceivedMessage}
      (hqueue : queues (g.replyKey j) = message :: rest)
      (hreceived : ∀ i, (received i event).Sublist (if j = i then [message] else [])) :
      Transfer queues event (Function.update queues (g.replyKey j) rest)
  | expire {key : String} (hreceived : ∀ i, received i event = []) :
      Transfer queues event (Function.update queues key [])

variable {g} {s : GatewayState ι σ} {t : BrokerState ι σ} {queues queues' : String → List ReceivedMessage}
  {event : ((ℕ → ℚ) × GatewayOp ι) × GatewayOutcome}

/-- Each step is of one of these kinds, by what it returns or raises. -/
lemma transfer_brokerStep (h : g.Related s t) (op : (ℕ → ℚ) × GatewayOp ι) :
    g.Transfer t.queues (op, (g.brokerStep t op).1) (g.brokerStep t op).2.queues := by
  obtain ⟨clock, op⟩ := op
  cases op with
  | sendRequest j requestId entries body expiry =>
    have hcases := (t.clients j).core.sendToBroker_cases (t.clients j).sendQueueName requestId
      { entries := entries.set "reply_to" (.text ((t.clients j).replyQueueName (g.threadId j))) } body expiry
      { queues := t.queues, sent := t.sent, clock }
    unfold brokerStep
    dsimp only at hcases ⊢
    rw [requestKey_of_sameClient (h.sameClient j)] at hcases
    obtain ⟨e, hout⟩ | ⟨e, hout⟩ | hout := hcases
    · rw [hout]
      exact .nothing fun _ => rfl
    · rw [hout]
      exact .nothing fun _ => rfl
    · rw [hout]
      refine .request ?_ (fun _ => rfl) fun _ => rfl
      rw [RepliesTo, ← (h.sameClient j).replyQueueName]
      exact RedisTransportCore.replyTo_opened ..
  | handleNextRequest =>
    obtain ⟨-, hqueues⟩ | ⟨message, rest, hqueue, ⟨-, hqueues⟩ | ⟨j, response, hreply, hid, hsent, hqueues⟩⟩ :=
      g.queues_handleNextRequest (b := { queues := t.queues, sent := t.sent, clock }) h.answerable t.world
    · unfold brokerStep
      dsimp only
      rw [hqueues]
      exact .nothing fun _ => rfl
    · unfold brokerStep
      dsimp only
      rw [hqueues]
      exact .take hqueue fun _ => rfl
    · unfold brokerStep
      dsimp only
      rw [hqueues]
      exact .answer hqueue hreply hid (hid ▸ hsent) fun _ => rfl
  | receiveResponse j =>
    unfold brokerStep
    dsimp only
    by_cases hpos : 0 < (t.clients j).requestsOutstanding
    · rw [if_pos hpos]
      obtain ⟨e, hout, hqueues⟩ | ⟨message, rest, hqueue, hqueues, hout⟩ :=
        (t.clients j).core.receiveFromBroker_cases (g.replyKey j) { queues := t.queues, sent := t.sent, clock }
      · dsimp only at hout hqueues ⊢
        rw [hout, hqueues]
        exact .nothing fun _ => rfl
      · dsimp only at hout hqueues ⊢
        rw [hqueues]
        refine .receive hqueue fun i => ?_
        obtain hout | ⟨e, hout⟩ := hout
        · rw [hout]
          exact received_ok_sublist i clock j message
        · rw [hout]
          exact List.nil_sublist _
    · rw [if_neg hpos]
      refine .nothing fun i => ?_
      apply if_neg
      rintro ⟨-, hid⟩
      cases hid
  | expire key => exact .expire fun _ => rfl

/-- What a client receives was outstanding for it, and what comes to be outstanding it has requested. -/
lemma Transfer.outstanding (h : g.Transfer queues event queues') (i : ι) :
    ((received i event).map (·.requestId) ++ g.outstanding i queues').Sublist
      (g.outstanding i queues ++ requested i event) := by
  cases h with
  | nothing hreceived =>
    rw [hreceived]
    exact List.sublist_append_left _ _
  | request hreply hrequested hreceived =>
    rw [hreceived, hrequested, outstanding_put hreply]
    exact List.Sublist.refl _
  | take hqueue hreceived =>
    rw [hreceived]
    exact (outstanding_take hqueue i).trans (List.sublist_append_left _ _)
  | answer hqueue hreply hid hresponded hreceived =>
    rw [hreceived]
    exact (outstanding_answer hqueue hreply hid i).trans (List.sublist_append_left _ _)
  | receive hqueue hreceived =>
    rw [← outstanding_receive hqueue i, List.append_assoc]
    exact ((hreceived i).map _).append (List.sublist_append_left _ _)
  | expire hreceived =>
    rw [hreceived]
    exact (outstanding_expire _ i).trans (List.sublist_append_left _ _)

/-- What a client receives has waited for it, and what comes to wait for it the server has sent. -/
lemma Transfer.awaiting (h : g.Transfer queues event queues') (i : ι) :
    ((received i event).map (fun response => (response.requestId, response.body)) ++ g.awaiting i queues').Sublist
      (g.awaiting i queues ++ responded event) := by
  cases h with
  | nothing hreceived =>
    rw [hreceived]
    exact List.sublist_append_left _ _
  | request hreply hrequested hreceived =>
    rw [hreceived, awaiting_update_requestKey]
    exact List.sublist_append_left _ _
  | take hqueue hreceived =>
    rw [hreceived, awaiting_update_requestKey]
    exact List.sublist_append_left _ _
  | @answer message rest j response hqueue hreply hid hresponded hreceived =>
    have hanswer := awaiting_answer (Function.update queues g.requestKey rest) (g := g) response j i
    rw [update_requestKey_replyKey, awaiting_update_requestKey] at hanswer
    rw [hreceived, hresponded]
    exact hanswer
  | receive hqueue hreceived =>
    rw [← awaiting_receive hqueue i, List.append_assoc]
    exact ((hreceived i).map _).append (List.sublist_append_left _ _)
  | expire hreceived =>
    rw [hreceived]
    exact (awaiting_expire _ i).trans (List.sublist_append_left _ _)

variable (g)

/-- In every run, whichever keys expire in it, each client receives responses to its own requests, at most one to
each, in the order in which it has sent them; and what it receives is, in order, what the server has sent. -/
theorem received_sublist_requested (w : σ) {ops : List ((ℕ → ℚ) × GatewayOp ι)}
    (hlegible : (Runs.outputs g.brokerStep (g.brokerStart w) ops).2.Legible) (i : ι) :
    let trace := ops.zip (Runs.outputs g.step (g.start w) ops).1
    ((trace.flatMap (received i)).map (·.requestId)).Sublist (trace.flatMap (requested i)) ∧
      ((trace.flatMap (received i)).map fun response => (response.requestId, response.body)).Sublist
        (trace.flatMap responded) := by
  have hstep : ∀ t op, (∃ s, g.Related s t) → (g.brokerStep t op).2.Legible →
      (∃ s, g.Related s (g.brokerStep t op).2) ∧
        g.Transfer t.queues (op, (g.brokerStep t op).1) (g.brokerStep t op).2.queues := by
    rintro t op ⟨s, h⟩ hok
    exact ⟨⟨_, (h.step op hok).2⟩, transfer_brokerStep h op⟩
  have hstart : ∃ s, g.Related s (g.brokerStart w) := ⟨_, g.related_start w⟩
  dsimp only
  rw [(g.simulates_broker w hlegible).1, List.map_flatMap, List.map_flatMap]
  constructor
  · exact Runs.sublist_of_outputs (fun event => (received i event).map (·.requestId)) (requested i)
      (fun t => g.outstanding i t.queues) (fun _ _ => legible_of_brokerStep)
      (fun t op h hok => ⟨(hstep t op h hok).1, (hstep t op h hok).2.outstanding i⟩) hstart hlegible
  · exact Runs.sublist_of_outputs
      (fun event => (received i event).map fun response => (response.requestId, response.body)) responded
      (fun t => g.awaiting i t.queues) (fun _ _ => legible_of_brokerStep)
      (fun t op h hok => ⟨(hstep t op h hok).1, (hstep t op h hok).2.awaiting i⟩) hstart hlegible

end steps

set_option maxRecDepth 100000 in
/-- The client receives the response to its request. -/
theorem received_sublist_requested_exampleOps :
    let trace := exampleOps.zip (Runs.outputs exampleGateway.step (exampleGateway.start []) exampleOps).1
    [.int 1].Sublist (trace.flatMap (requested ())) ∧
      [(.int 1, exampleResponseBody)].Sublist (trace.flatMap responded) := by
  have hreceived : (exampleOps.zip
      (Runs.outputs exampleGateway.step (exampleGateway.start []) exampleOps).1).flatMap (received ()) =
        [RedisTransportCore.opened .version3 exampleSerializer (.int 1) exampleMetaDict exampleResponseBody] := by
    rw [(exampleGateway.simulates_broker [] legible_exampleOps).1]
    with_unfolding_all rfl
  have h := received_sublist_requested exampleGateway [] legible_exampleOps ()
  dsimp only at h
  rw [hreceived] at h
  exact h

end Gateway
end PySOA
