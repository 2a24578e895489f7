import PySOA.Client.Arrivals
import PySOA.Client.Sending
import PySOA.Lib.Results

/-! What the futures of a client do with the responses in the reply queues, and the results that
they have when each obtains the responses to its own requests. -/
namespace PySOA

/-- The responses to each service arrive; from then on the connections work. -/
def Client.deliver (client : Client) (responses : String → List Arrival) : Client :=
  { client with
    handlers := fun serviceName => (client.handlers serviceName).map fun handler =>
      { handler with io := { handler.io with
          connections := [], pops := handler.io.pops ++ Arrival.pops (responses serviceName) } } }

namespace Client
variable {client : Client} {serviceName : String} {core : RedisTransportCore} {k : ℕ}
  {clock : ℕ → ℚ} {arrivals later : List Arrival}

/-- The client's handler for the service waits for the given number of responses. -/
def Awaits (client : Client) (serviceName : String) (core : RedisTransportCore) (k : ℕ)
    (arrivals later : List Arrival) : Prop :=
  ∃ handler, client.handlers serviceName = some handler ∧ PySOA.Awaits handler core k arrivals later

/-- Whether the last error of the handler for the service was a transport problem. -/
def hasProblem (client : Client) (serviceName : String) : Bool :=
  match client.handlers serviceName with
  | some handler => handler.transport.previousErrorWasTransportProblem
  | none => false

/-- These responses of the service are live when they are received one after the other, from the
client's next reading of the clock on. -/
def Expects (client : Client) (serviceName : String) (arrivals : List Arrival) : Prop :=
  ∀ handler, client.handlers serviceName = some handler →
    Arrival.AllLive handler.transport.core handler.io.clock handler.io.ticks arrivals

lemma handlers_deliver {handler : ServiceHandler} (hhandler : client.handlers serviceName = some handler)
    (responses : String → List Arrival) :
    (client.deliver responses).handlers serviceName = some { handler with
      io := { handler.io with
        connections := [], pops := handler.io.pops ++ Arrival.pops (responses serviceName) } } := by
  simp only [deliver, hhandler, Option.map_some]

lemma Outstanding.awaits_deliver {requestIds : List ℤ}
    (h : client.Outstanding serviceName core clock requestIds) (responses : String → List Arrival)
    (later : List Arrival)
    (hexpects : client.Expects serviceName (responses serviceName ++ later)) :
    (client.deliver responses).Awaits serviceName core requestIds.length (responses serviceName)
      later := by
  obtain ⟨handler, hhandler, hcore, ⟨hpops, -⟩, hcount, -, -⟩ := h
  refine ⟨_, handlers_deliver hhandler responses, hcore, hcount, rfl, by simp [hpops], ?_⟩
  rw [← hcore]
  exact hexpects handler hhandler

/-- Responses that were to come later arrive. -/
lemma Awaits.deliver {responses : String → List Arrival}
    (h : client.Awaits serviceName core k arrivals (responses serviceName ++ later)) :
    (client.deliver responses).Awaits serviceName core k (arrivals ++ responses serviceName) later := by
  obtain ⟨handler, hhandler, hcore, hcount, -, hpops, hlive⟩ := h
  exact ⟨_, handlers_deliver hhandler responses, hcore, hcount, rfl, by simp [hpops], by simpa using hlive⟩

/-- Responses that are live at every reading of the clock. -/
lemma Outstanding.expects {requestIds : List ℤ}
    (h : client.Outstanding serviceName core clock requestIds)
    (hlive : ∀ a ∈ arrivals, ∀ n, a.LiveAt core (clock n)) : client.Expects serviceName arrivals := by
  obtain ⟨handler, hhandler, hcore, ⟨-, hclock⟩, -⟩ := h
  intro handler' hhandler' i a ha
  cases hhandler.symm.trans hhandler'
  rw [hcore, hclock]
  exact hlive a (List.mem_of_getElem? ha) _

section loop
variable {σ : Type} (body : σ → Value → JobResponse → Except Exc σ)

/-- The loop over the responses of the service leaves the other handlers alone. -/
theorem Awaits.getAllResponses_eq (h : client.Awaits serviceName core k arrivals later) {s s' : σ}
    (hbody : (arrivals.take k).foldlM (fun s a => body s (.int a.requestId) a.response) s = .ok s') :
    ∃ client', client.getAllResponses serviceName body s =
        (if k ≤ arrivals.length then .ok () else .error core.receiveTimeout, s', client') ∧
      client'.Awaits serviceName core (if client.hasProblem serviceName then 0 else k-arrivals.length)
        (arrivals.drop k) later ∧
      ∀ name, name ≠ serviceName → client'.handlers name = client.handlers name := by
  obtain ⟨handler, hhandler, hawaits⟩ := h
  obtain ⟨handler', hloop, hawaits'⟩ := hawaits.getAllResponses_eq body hbody
  refine ⟨client.setHandler serviceName handler', ?_, ⟨handler', by simp, ?_⟩, fun name hname => ?_⟩
  · simp only [Client.getAllResponses, hhandler, hloop]
  · simpa only [hasProblem, hhandler] using hawaits'
  · simp [Function.update_of_ne hname]

theorem Awaits.getAllResponses_error (h : client.Awaits serviceName core k arrivals later) {s : σ} {e : Exc}
    (hbody : (arrivals.take k).foldlM (fun s a => body s (.int a.requestId) a.response) s = .error e) :
    (client.getAllResponses serviceName body s).1 = .error e := by
  obtain ⟨handler, hhandler, hawaits⟩ := h
  simp only [Client.getAllResponses, hhandler]
  exact hawaits.getAllResponses_error body hbody

end loop
end Client

section cell
variable {α ω : Type}

/-- The first `result` of a future is that of its `get_response`. -/
lemma FutureCell.result_fresh (truthy : α → Bool) (getResponse : ω → Except Exc α × ω) (w : ω) :
    (FutureCell.result truthy getResponse {} w).1 = (getResponse w).1 ∧
      (FutureCell.result truthy getResponse {} w).2.2 = (getResponse w).2 := by
  simp only [FutureCell.result, Option.filter_none]
  rcases getResponse w with ⟨e | response, w'⟩
  · dsimp only
    split_ifs <;> exact ⟨rfl, rfl⟩
  · exact ⟨rfl, rfl⟩

/-- A timeout is not remembered. -/
lemma FutureCell.result_timeout {truthy : α → Bool} {getResponse : ω → Except Exc α × ω} {w : ω} {e : Exc}
    (h : (getResponse w).1 = .error e) (he : e.isReceiveTimeout = true) :
    FutureCell.result truthy getResponse {} w = (.error e, {}, (getResponse w).2) := by
  simp only [FutureCell.result, Option.filter_none]
  generalize getResponse w = out at h ⊢
  obtain ⟨result, w'⟩ := out
  subst h
  simp [he]

end cell

namespace ActionsFuture
variable {future : ActionsFuture}

lemma result_fresh (hcell : future.cell = {}) (client : Client) :
    (future.result client).1 = (future.getResponse client).1 ∧
      (future.result client).2.2 = (future.getResponse client).2 := by
  unfold result
  rw [hcell]
  exact FutureCell.result_fresh _ _ _

end ActionsFuture

lemma ActionFuture.result_fresh {future : ActionFuture} (hcell : future.cell = {})
    (hinner : future.future.cell = {}) (client : Client) :
    (future.result client).1 = (future.future.getResponse client).1 >>= outcome ∧
      (future.result client).2.2 = (future.future.getResponse client).2 := by
  obtain ⟨hresult, hclient⟩ := ActionsFuture.result_fresh hinner client
  obtain ⟨hresult', hclient'⟩ := FutureCell.result_fresh (fun _ => true) getResult
    (future.future, client)
  unfold result
  rw [hcell]
  refine ⟨hresult'.trans ?_, (congrArg Prod.snd hclient').trans hclient⟩
  simp only [getResult, hresult]

lemma JobsFuture.result_fresh {future : JobsFuture} (hcell : future.cell = {}) (client : Client) :
    (future.result client).1 = (future.getResponse (future.state, client)).1 ∧
      (future.result client).2.2 = (future.getResponse (future.state, client)).2.2 := by
  obtain ⟨hresult, hworld⟩ := FutureCell.result_fresh
    (fun responses : List (Except Exc JobResponse) => !responses.isEmpty) future.getResponse
    (future.state, client)
  unfold result
  rw [hcell]
  exact ⟨hresult, congrArg Prod.snd hworld⟩

/-- The responses of the service to its requests. -/
def Answers (answers : String × ℤ → JobResponse) (serviceName : String) (arrivals : List Arrival) : Prop :=
  ∀ a ∈ arrivals, a.response = answers (serviceName, a.requestId)

namespace ActionsFuture
variable {future : ActionsFuture} {client : Client} {core : RedisTransportCore} {k : ℕ}
  {arrivals later : List Arrival} {answers : String × ℤ → JobResponse}

/-- The result when the response to the request is obtained. -/
def own (future : ActionsFuture) (answers : String × ℤ → JobResponse) : Except Exc JobResponse :=
  checkErrors future.raiseJobErrors future.raiseActionErrors
    (answers (future.serviceName, future.expectedRequestId))

lemma foldlM_collect (arrivals : List Arrival) (responses : List (Value × JobResponse)) :
    arrivals.foldlM (fun s a => collect s (.int a.requestId) a.response) responses =
      .ok (responses ++ arrivals.map fun a => (.int a.requestId, a.response)) := by
  induction arrivals generalizing responses with
  | nil => simp [pure, Except.pure]
  | cons a arrivals ih =>
    rw [List.foldlM_cons]
    exact (ih _).trans (by simp)

lemma find?_collected {serviceName : String} (requestId : ℤ)
    (hanswers : Answers answers serviceName arrivals) :
    ((arrivals.map fun a => (Value.int a.requestId, a.response)).find?
        fun r => r.1.eqInt requestId).map Prod.snd =
      if requestId ∈ arrivals.map Arrival.requestId then some (answers (serviceName, requestId))
      else none := by
  induction arrivals with
  | nil => rfl
  | cons a arrivals ih =>
    have ih := ih fun b hb => hanswers b (List.mem_cons_of_mem a hb)
    by_cases hid : a.requestId = requestId
    · simp [hid, hanswers a List.mem_cons_self]
    · simpa [hid, Ne.symm hid] using ih

/-- The responses that the handler waits for are there: the future takes them all, and has its own
result if its own response is one of them. -/
theorem getResponse_eq (h : client.Awaits future.serviceName core k arrivals later)
    (hk : k ≤ arrivals.length) (answers : String × ℤ → JobResponse)
    (hanswers : Answers answers future.serviceName arrivals) :
    ∃ client', future.getResponse client =
        (if future.expectedRequestId ∈ (arrivals.take k).map Arrival.requestId then future.own answers
          else .error (future.unexpected ((arrivals.take k).map fun a => .int a.requestId)), client') ∧
      client'.Awaits future.serviceName core 0 (arrivals.drop k) later := by
  obtain ⟨client', hloop, hawaits, -⟩ := h.getAllResponses_eq collect
    (foldlM_collect (arrivals.take k) [])
  refine ⟨client', ?_, by simpa [Nat.sub_eq_zero_of_le hk] using hawaits⟩
  have htaken : Answers answers future.serviceName (arrivals.take k) :=
    fun a ha => hanswers a (List.mem_of_mem_take ha)
  have hfind := find?_collected future.expectedRequestId htaken
  unfold getResponse
  simp only [hloop, hk, if_true, List.nil_append]
  split_ifs at hfind ⊢ with hmem
  · obtain ⟨⟨id, response⟩, hsome, rfl⟩ := Option.map_eq_some_iff.mp hfind
    simp only [hsome]
    rfl
  · simp only [Option.map_eq_none_iff.mp hfind, List.map_map, Function.comp_def]

/-- No response is there although the handler waits for some. -/
theorem getResponse_timeout (h : client.Awaits future.serviceName core (k+1) [] later) :
    ∃ client', future.getResponse client = (.error core.receiveTimeout, client') ∧
      client'.Awaits future.serviceName core
        (if client.hasProblem future.serviceName then 0 else k+1) [] later := by
  have hnone : (([] : List Arrival).take (k+1)).foldlM
      (fun s a => collect s (.int a.requestId) a.response) [] = .ok [] := rfl
  obtain ⟨client', hloop, hawaits, -⟩ := h.getAllResponses_eq collect hnone
  exact ⟨client', by simp [getResponse, hloop], by simpa using hawaits⟩

end ActionsFuture

namespace JobsFuture
variable {future : JobsFuture} {client : Client} {core : RedisTransportCore} {k : ℕ}
  {arrivals later : List Arrival} {answers : String × ℤ → JobResponse} {serviceName : String}

/-- The entry of the result for a job when the response to its request is obtained. -/
def ownEntry (future : JobsFuture) (answers : String × ℤ → JobResponse) (key : String × ℤ) :
    Except Exc (Except Exc JobResponse) :=
  if key.2 < 0 then
    match lookup key future.state.transportErrors with
    | some e => .ok (.error e)
    | none => .error (.keyError "no transport error was kept")
  else (checkErrors future.raiseJobErrors future.raiseActionErrors (answers key)).map .ok

/-- The result when the responses to all its requests are obtained. -/
def own (future : JobsFuture) (answers : String × ℤ → JobResponse) :
    Except Exc (List (Except Exc JobResponse)) :=
  future.responseReassemblyKeys.mapM (future.ownEntry answers)

/-- Responses of a service, in the form in which the loop keeps them. -/
def received (serviceName : String) (arrivals : List Arrival) : ServiceResponses :=
  (arrivals.map fun a => ((serviceName, a.requestId), a.response)).reverse

lemma find?_expected (requestIds : List ℤ) (requestId : ℤ) :
    requestIds.find? (fun expected => (Value.int requestId).eqInt expected) =
      if requestId ∈ requestIds then some requestId else none := by
  induction requestIds with
  | nil => rfl
  | cons id requestIds ih =>
    rw [List.find?_cons, ih]
    by_cases hid : requestId = id <;> simp [hid]

lemma receive_of_mem {catchTransportErrors : Bool} {s : List ℤ × ServiceResponses} {requestId : ℤ}
    {response : JobResponse} (hmem : requestId ∈ s.1) :
    receive catchTransportErrors serviceName s (.int requestId) response =
      .ok (if catchTransportErrors then s.1.erase requestId else s.1,
        ((serviceName, requestId), response) :: s.2) := by
  unfold receive
  rw [find?_expected, if_pos hmem]

lemma receive_of_notMem (catchTransportErrors : Bool) (serviceName : String)
    {s : List ℤ × ServiceResponses} {requestId : ℤ} (response : JobResponse) (hmem : requestId ∉ s.1) :
    ∃ message, receive catchTransportErrors serviceName s (.int requestId) response =
      .error (.exception "Exception" message) := by
  unfold receive
  rw [find?_expected, if_neg hmem]
  exact ⟨_, rfl⟩

/-- Expected responses, none of them twice, are all kept. -/
lemma foldlM_receive_ok (catchTransportErrors : Bool) (serviceName : String) {requestIds : List ℤ}
    (responses : ServiceResponses) (hnodup : (arrivals.map Arrival.requestId).Nodup)
    (hexpected : ∀ a ∈ arrivals, a.requestId ∈ requestIds) :
    ∃ requestIds', (catchTransportErrors = false → requestIds' = requestIds) ∧
      arrivals.foldlM (fun s a => receive catchTransportErrors serviceName s (.int a.requestId)
        a.response) (requestIds, responses) =
          .ok (requestIds', received serviceName arrivals ++ responses) := by
  induction arrivals generalizing requestIds responses with
  | nil => exact ⟨requestIds, fun _ => rfl, rfl⟩
  | cons a arrivals ih =>
    rw [List.map_cons, List.nodup_cons] at hnodup
    have hmem := hexpected a List.mem_cons_self
    have hrest : ∀ b ∈ arrivals, b.requestId ∈
        if catchTransportErrors then requestIds.erase a.requestId else requestIds := by
      intro b hb
      have hb' := hexpected b (List.mem_cons_of_mem a hb)
      have hne : b.requestId ≠ a.requestId :=
        fun heq => hnodup.1 (heq ▸ List.mem_map_of_mem hb)
      cases catchTransportErrors with
      | true => exact (List.mem_erase_of_ne hne).mpr hb'
      | false => exact hb'
    obtain ⟨requestIds', hsame, hloop⟩ := ih (((serviceName, a.requestId), a.response) :: responses)
      hnodup.2 hrest
    refine ⟨requestIds', fun hcatch => (hsame hcatch).trans (by simp [hcatch]), ?_⟩
    rw [List.foldlM_cons, receive_of_mem hmem]
    simp only [bind, Except.bind]
    rw [hloop]
    simp [received]

/-- A response that is not expected makes the loop raise. -/
lemma foldlM_receive_error (catchTransportErrors : Bool) (serviceName : String) {requestIds : List ℤ}
    (responses : ServiceResponses) (hforeign : ∃ a ∈ arrivals, a.requestId ∉ requestIds) :
    ∃ message, arrivals.foldlM (fun s a => receive catchTransportErrors serviceName s
      (.int a.requestId) a.response) (requestIds, responses) =
        .error (.exception "Exception" message) := by
  induction arrivals generalizing requestIds responses with
  | nil => simp at hforeign
  | cons a arrivals ih =>
    by_cases hmem : a.requestId ∈ requestIds
    · obtain ⟨b, hb, hforeign⟩ := hforeign
      obtain rfl | hb := List.mem_cons.mp hb
      · exact absurd hmem hforeign
      have hb' : b.requestId ∉
          if catchTransportErrors then requestIds.erase a.requestId else requestIds := by
        cases catchTransportErrors with
        | true => exact fun h => hforeign (List.mem_of_mem_erase h)
        | false => exact hforeign
      rw [List.foldlM_cons, receive_of_mem hmem]
      exact ih _ ⟨b, hb, hb'⟩
    · obtain ⟨message, hmessage⟩ := receive_of_notMem catchTransportErrors serviceName
        (s := (requestIds, responses)) a.response hmem
      exact ⟨message, by rw [List.foldlM_cons, hmessage]; rfl⟩

lemma lookup_append {α : Type} (key : String × ℤ) (entries entries' : List ((String × ℤ) × α)) :
    lookup key (entries ++ entries') = (lookup key entries).or (lookup key entries') := by
  simp only [lookup, List.find?_append]
  cases entries.find? _ <;> rfl

lemma ite_some_or_ite_some {α : Type} (p q : Prop) [Decidable p] [Decidable q] (x : α) :
    (if p then some x else none).or (if q then some x else none) =
      if p ∨ q then some x else none := by
  by_cases p <;> by_cases q <;> simp [*]

lemma lookup_received (hanswers : Answers answers serviceName arrivals) (key : String × ℤ) :
    lookup key (received serviceName arrivals) =
      if key.1 = serviceName ∧ key.2 ∈ arrivals.map Arrival.requestId then some (answers key)
      else none := by
  induction arrivals with
  | nil => simp [received, lookup]
  | cons a arrivals ih =>
    have ih := ih fun b hb => hanswers b (List.mem_cons_of_mem a hb)
    have hcons : received serviceName (a :: arrivals) =
        received serviceName arrivals ++ [((serviceName, a.requestId), a.response)] := by
      simp [received]
    have hlast : lookup key [((serviceName, a.requestId), a.response)] =
        if key.1 = serviceName ∧ key.2 = a.requestId then some (answers key) else none := by
      rw [lookup_cons]
      by_cases hkey : (serviceName, a.requestId) = key
      · subst hkey
        simp [hanswers a List.mem_cons_self]
      · rw [if_neg hkey, if_neg fun h => hkey (Prod.ext h.1.symm h.2.symm)]
        rfl
    rw [hcons, lookup_append, ih, hlast, ite_some_or_ite_some]
    refine if_congr ?_ rfl rfl
    rw [List.map_cons, List.mem_cons]
    tauto

/-- A job whose request was not sent, or whose response was received, has its own entry. -/
lemma entry_eq_ownEntry {responses : ServiceResponses} {key : String × ℤ}
    (hkey : 0 ≤ key.2 → lookup key responses = some (answers key)) :
    future.entry future.state.transportErrors responses key = future.ownEntry answers key := by
  unfold entry ownEntry
  split_ifs with hneg
  · rfl
  · rw [hkey (not_lt.mp hneg)]

/-- A request that was sent and whose response was not received is an error. -/
lemma entry_eq_noResponse {keys : List (String × ℤ)} (hstate : future.state.Sent keys)
    {responses : ServiceResponses} {key : String × ℤ} (hkey : 0 ≤ key.2)
    (hmissing : lookup key responses = none) :
    future.entry future.state.transportErrors responses key = .error (noResponse key) := by
  have hkept : lookup key future.state.transportErrors = none := by
    unfold lookup
    rw [Option.map_eq_none_iff, List.find?_eq_none]
    intro entry hentry heq
    have := hstate.errors entry hentry
    rw [of_decide_eq_true heq] at this
    omega
  simp only [entry, not_lt.mpr hkey, if_false, hmissing, hkept]

end JobsFuture

/-- The exceptions of a future that did not find the responses that it expected. -/
def Exc.isUnexpected : Exc → Prop
  | .exception "Exception" _ => True
  | _ => False

/-- The exceptions that a caller gets for the errors of a response. -/
def Exc.isCallError : Exc → Bool
  | .callJobError _ | .callActionError _ => true
  | _ => false

lemma checkErrors_error {raiseJobErrors raiseActionErrors : Bool} {response : JobResponse} {e : Exc}
    (h : checkErrors raiseJobErrors raiseActionErrors response = .error e) : e.isCallError = true := by
  unfold checkErrors at h
  dsimp only at h
  split_ifs at h <;> cases h <;> rfl

/-! A client of one service, and responses to its first requests. -/

/-- The envelope of a response to a request for one action. -/
def exampleEnvelope (requestId : ℤ) : Value :=
  Arrival.envelope requestId [(.text "__expiry__", .float 60)]
    (.dict [(.text "errors", .list []), (.text "context", .dict []),
      (.text "actions", .list [.dict [(.text "action", .text "read"), (.text "errors", .list []),
        (.text "body", .dict [])]])])

def exampleJobResponse : JobResponse := { actions := [{ action := .text "read" }] }

def exampleSerializer : Serializer := PlainJson.serializer [exampleEnvelope 0, exampleEnvelope 1]

def exampleArrival (requestId : ℤ) : Arrival where
  frames := [RedisTransportCore.unchunkedFrame exampleSerializer
    ((PlainJson.dumps (exampleEnvelope requestId)).getD [])]
  requestId
  response := exampleJobResponse

def exampleCore (serviceName : String) : RedisTransportCore :=
  .defaultClient exampleSerializer serviceName

def exampleHandler (serviceName : String) : ServiceHandler where
  serviceName
  threadId := "1"
  clientVersion := [1, 3, 1]
  transport :=
    { core := exampleCore serviceName
      sendQueueName := "service." ++ serviceName
      receiveQueueName := "service." ++ serviceName ++ ".0!"
      isClient := rfl }
  requestCounter := 0
  io := {}

/-- A client that has sent nothing yet. -/
def exampleClient : Client where
  handlers serviceName := some (exampleHandler serviceName)
  context := { apart := Context.apart_nil }
  uuids n := "correlation-" ++ toString n

lemma exampleClient_counting : exampleClient.Counting := by
  rintro serviceName handler hhandler
  cases hhandler
  exact le_rfl

lemma exampleClient_outstanding (serviceName : String) :
    exampleClient.Outstanding serviceName (exampleCore serviceName) (fun _ => 0) [] :=
  ⟨_, rfl, rfl, ⟨rfl, rfl⟩, rfl, List.nodup_nil, by simp⟩

lemma liveAt_exampleArrival {requestId : ℤ} (hid : requestId = 0 ∨ requestId = 1) (serviceName : String) :
    (exampleArrival requestId).LiveAt (exampleCore serviceName) 0 := by
  obtain ⟨blob, hblob⟩ : ∃ blob, PlainJson.dumps (exampleEnvelope requestId) = some blob := by
    rcases hid with rfl | rfl <;> exact ⟨_, rfl⟩
  have hhead : matchHeader ((PlainJson.dumps (exampleEnvelope requestId)).getD []) = none := by
    rcases hid with rfl | rfl <;> decide +kernel
  have hread : exampleSerializer.blobToDict ((PlainJson.dumps (exampleEnvelope requestId)).getD []) =
      .ok (exampleEnvelope requestId) := by
    refine PlainJson.blobToDict_serializer (by decide +kernel) (by rcases hid with rfl | rfl <;> simp) ?_
    rw [hblob]
    rfl
  exact Arrival.liveAt_unchunkedFrame (by decide +kernel) (by decide +kernel) rfl hhead hread rfl rfl

end PySOA
