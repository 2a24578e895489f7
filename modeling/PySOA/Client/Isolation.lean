import PySOA.Client.Retry
import PySOA.Client.Threads

/-! What the earlier operations on a client leave behind for a later call that blocks until it has
its response. -/
namespace PySOA
open Ledger

/-- A call of `call_action` or `call_actions`. -/
def Call.isSingle : Call → Bool
  | .action .. | .actions .. => true
  | .jobs .. => false

section simulation
variable (threadId : Unit → String)

/-- The handler meets the transport and the reply queue of the books. -/
structure ServiceHandler.Follows (handler : ServiceHandler) (s : Ledger Unit) : Prop where
  threadId_eq : handler.threadId = threadId ()
  transport_eq : handler.transport = s.transport
  io_eq : handler.io = s.io ()

/-- The client's handler for the service meets the transport and the reply queue of the books. -/
def Client.Follows (client : Client) (serviceName : String) (s : Ledger Unit) : Prop :=
  ∃ handler, client.handlers serviceName = some handler ∧ handler.Follows threadId s

variable {threadId}

lemma ServiceHandler.Follows.baseGetResponse {handler : ServiceHandler} {s : Ledger Unit}
    (h : handler.Follows threadId s) :
    handler.baseGetResponse.2.Follows threadId (s.step threadId (.receive ())) := by
  have hstep := handlerOf_step_receive threadId handler s ()
  have hsame : handlerOf threadId handler s () = handler := by
    rw [handlerOf, ← h.threadId_eq, ← h.transport_eq, ← h.io_eq]
  rw [hsame] at hstep
  rw [hstep]
  exact ⟨rfl, rfl, rfl⟩

/-- The loop over all responses is a run of receives. -/
lemma ServiceHandler.Follows.forResponses {σ : Type*} (body : σ → Value → JobResponse → Except Exc σ)
    (n : ℕ) (x : σ) {handler : ServiceHandler} {s : Ledger Unit} (h : handler.Follows threadId s) :
    ∃ k, (forResponses body n x handler).2.2.Follows threadId
      (Runs.run (step threadId) s (List.replicate k (.receive ()))) := by
  induction n generalizing x handler s with
  | zero => exact ⟨0, h⟩
  | succ n ih =>
    have hstep := h.baseGetResponse
    unfold ServiceHandler.forResponses
    generalize handler.baseGetResponse = out at hstep ⊢
    obtain ⟨result, handler'⟩ := out
    obtain e | _ | ⟨requestId, response⟩ := result
    · exact ⟨1, hstep⟩
    · exact ⟨1, hstep⟩
    · dsimp only
      split_ifs
      · exact ⟨1, hstep⟩
      · cases body x requestId response with
        | error e => exact ⟨1, hstep⟩
        | ok x' =>
          obtain ⟨k, hk⟩ := ih x' hstep
          exact ⟨k+1, hk⟩

/-- Sending a request is a send of the transport, unless the request has no dict. -/
lemma ServiceHandler.Follows.sendRequest {handler : ServiceHandler} {s : Ledger Unit}
    (h : handler.Follows threadId s) (jobRequest : JobRequest) (expiry : Option ℤ) :
    ∃ ops, (∀ op ∈ ops, ∃ requestId metaDict body, jobRequest.asdict = .ok body ∧
        op = .send () requestId metaDict body expiry) ∧
      (handler.sendRequest jobRequest expiry).2.Follows threadId (Runs.run (step threadId) s ops) := by
  obtain ⟨hthread, htransport, hio⟩ := h
  unfold ServiceHandler.sendRequest baseSendRequest
  cases hbody : jobRequest.asdict with
  | error e => exact ⟨[], by simp, hthread, htransport, hio⟩
  | ok body =>
    refine ⟨[.send () (.int handler.requestCounter)
      { entries := [(.text "client_version", .list (handler.clientVersion.map .int))] } body expiry],
      by simp, hthread, ?_, ?_⟩
    · simp [step, sent, hthread, htransport, hio]
    · simp [step, sent, hthread, htransport, hio]

/-- Every request of a client is a send of the transport of its service, or none. -/
theorem Client.Follows.sendRequest {client : Client} {serviceName : String} {s : Ledger Unit}
    (h : client.Follows threadId serviceName s) (name : String) (actions : List ActionRequest)
    (arguments : RequestArguments) (suppressResponse : Bool) :
    ∃ ops, (∀ op ∈ ops, ∃ requestId metaDict body expiry, op = .send () requestId metaDict body expiry) ∧
      (client.sendRequest name actions arguments suppressResponse).2.2.Follows threadId serviceName
        (Runs.run (step threadId) s ops) := by
  obtain ⟨handler, hhandler, hfollows⟩ := h
  unfold Client.sendRequest
  dsimp only
  by_cases hname : name = serviceName
  · subst hname
    rw [hhandler]
    dsimp only
    obtain ⟨ops, hops, hafter⟩ := hfollows.sendRequest _ _
    refine ⟨ops, fun op hop => ?_, _, Function.update_self .., hafter⟩
    obtain ⟨requestId, metaDict, body, -, rfl⟩ := hops op hop
    exact ⟨requestId, metaDict, body, _, rfl⟩
  · refine ⟨[], by simp, handler, ?_, hfollows⟩
    cases client.handlers name with
    | none => exact hhandler
    | some other => simp [Function.update_of_ne (Ne.symm hname), handlers_makeContextHeader, hhandler]

/-- Every loop of a client over all responses is a run of receives of the transport of its service. -/
theorem Client.Follows.getAllResponses {σ : Type} {client : Client} {serviceName : String}
    {s : Ledger Unit} (h : client.Follows threadId serviceName s) (name : String)
    (body : σ → Value → JobResponse → Except Exc σ) (x : σ) :
    ∃ k, (client.getAllResponses name body x).2.2.Follows threadId serviceName
      (Runs.run (step threadId) s (List.replicate k (.receive ()))) := by
  obtain ⟨handler, hhandler, hfollows⟩ := h
  unfold Client.getAllResponses
  by_cases hname : name = serviceName
  · subst hname
    rw [hhandler]
    obtain ⟨k, hk⟩ := hfollows.forResponses body _ x
    exact ⟨k, _, Function.update_self .., hk⟩
  · refine ⟨0, handler, ?_, hfollows⟩
    cases client.handlers name with
    | none => exact hhandler
    | some other => simp [Function.update_of_ne (Ne.symm hname), hhandler]

end simulation

namespace ActionsFuture
variable {future : ActionsFuture} {client : Client} {core : RedisTransportCore} {k : ℕ}
  {arrivals later : List Arrival} {answers : String × ℤ → JobResponse}

/-- Fewer responses than the handler waits for: the loop takes them all and times out. -/
lemma getResponse_short (h : client.Awaits future.serviceName core k arrivals later)
    (hk : arrivals.length < k) : (future.getResponse client).1 = .error core.receiveTimeout := by
  obtain ⟨client', hloop, -⟩ := h.getAllResponses_eq collect (foldlM_collect (arrivals.take k) [])
  simp [getResponse, hloop, not_le.mpr hk]

end ActionsFuture

namespace Client
variable {client client' : Client} {serviceName : String} {context : Option Context}

/-- A call that has sent its request leaves the reply queue alone and waits for one more response. -/
lemma callActionsFuture_sends {handler : ServiceHandler} (hhandler : client.handlers serviceName = some handler)
    {actions : List ActionRequest} {raiseJobErrors raiseActionErrors : Bool}
    {arguments : RequestArguments} {future : ActionsFuture}
    (h : client.callActionsFuture serviceName actions raiseJobErrors raiseActionErrors arguments =
      (.ok future, context, client')) :
    future.cell = {} ∧ future.serviceName = serviceName ∧
      ∃ handler', client'.handlers serviceName = some handler' ∧
        handler'.transport.core = handler.transport.core ∧
        (handler'.io.pops = handler.io.pops ∧ handler'.io.clock = handler.io.clock) ∧
        handler'.transport.requestsOutstanding = handler.transport.requestsOutstanding+1 := by
  have hcases := client.handlers_sendRequest serviceName actions arguments false
  unfold callActionsFuture at h
  revert hcases
  generalize client.sendRequest serviceName actions arguments false = out at h ⊢
  obtain ⟨result, context', client₁⟩ := out
  intro hcases
  cases result with
  | error e => cases h
  | ok requestId =>
    cases h
    refine ⟨rfl, rfl, ?_⟩
    obtain ⟨⟨e, he⟩, -⟩ | ⟨handler₀, handler', hhandler₀, hhandlers, -, hcore, hio, hsent⟩ := hcases
    · cases he
    · cases hhandler.symm.trans hhandler₀
      obtain ⟨-, hcount⟩ | ⟨e, he, -⟩ := hsent
      · exact ⟨handler', by rw [hhandlers, Function.update_self], hcore, hio, hcount⟩
      · cases he

/-- A blocking call has one request to its service, for a future of `call_actions_future`. -/
lemma call_single {call : Call} (hsingle : call.isSingle = true) (hservices : call.services = [serviceName])
    {handler : ServiceHandler} (hhandler : client.handlers serviceName = some handler) {future : Future}
    (hcall : client.call call = (.ok future, context, client')) :
    ∃ inner : ActionsFuture, (future = .action { future := inner } ∨ future = .actions inner) ∧
      inner.cell = {} ∧ inner.serviceName = serviceName ∧
      ∃ handler', client'.handlers serviceName = some handler' ∧
        handler'.transport.core = handler.transport.core ∧
        (handler'.io.pops = handler.io.pops ∧ handler'.io.clock = handler.io.clock) ∧
        handler'.transport.requestsOutstanding = handler.transport.requestsOutstanding+1 := by
  cases call with
  | jobs => cases hsingle
  | actions name actions raiseJobErrors raiseActionErrors arguments =>
    cases hservices
    simp only [Client.call] at hcall
    generalize hsent : client.callActionsFuture _ _ _ _ _ = out at hcall
    obtain ⟨result, context', client₁⟩ := out
    cases result with
    | error e => cases hcall
    | ok inner =>
      cases hcall
      exact ⟨inner, Or.inr rfl, callActionsFuture_sends hhandler hsent⟩
  | action name action body raiseJobErrors raiseActionErrors arguments =>
    cases hservices
    simp only [Client.call, callActionFuture] at hcall
    generalize hsent : client.callActionsFuture _ _ _ _ _ = out at hcall
    obtain ⟨result, context', client₁⟩ := out
    cases result with
    | error e => cases hcall
    | ok inner =>
      cases hcall
      exact ⟨inner, Or.inl rfl, callActionsFuture_sends hhandler hsent⟩

end Client

namespace Future
variable {client client' : Client} {serviceName : String} {context : Option Context} {future : Future}
  {answers : String × ℤ → JobResponse} {queued responses : List Arrival}

/-- The own outcome of a future is never a timeout. -/
lemma ne_own_of_timeout {out : Outcome} (hfuture : future.Unresolved) {e : Exc} (h : out.error? = some e)
    (he : e.isReceiveTimeout = true) : out ≠ future.own answers := by
  rintro rfl
  obtain hcall | ⟨message, rfl⟩ := error_own hfuture h
  · cases e <;> cases hcall <;> cases he
  · cases he

section single
variable {inner : ActionsFuture}
  (hfuture : future = .action { future := inner } ∨ future = .actions inner) (hcell : inner.cell = {})
include hfuture hcell

/-- The first result of the future of a blocking call comes from the response that it gets. -/
lemma result_single {result : Except Exc JobResponse} (hget : (inner.getResponse client).1 = result) :
    (future.result client).1 =
      match future with
      | .action _ => .action (result >>= ActionFuture.outcome)
      | _ => .actions result := by
  subst hget
  obtain rfl | rfl := hfuture
  · exact congrArg Outcome.action (@ActionFuture.result_fresh { future := inner } rfl hcell _).1
  · exact congrArg Outcome.actions (ActionsFuture.result_fresh hcell _).1

lemma error?_result_single {e : Exc} (hget : (inner.getResponse client).1 = .error e) :
    (future.result client).1.error? = some e := by
  rw [result_single hfuture hcell hget]
  obtain rfl | rfl := hfuture <;> rfl

lemma unresolved_single : future.Unresolved := by
  obtain rfl | rfl := hfuture
  · exact ⟨rfl, hcell⟩
  · exact hcell

end single

/-- A blocking call returns its own result exactly if the queue holds all responses that its handler
waits for, and its own response is among the first of that number. -/
theorem result_eq_own_iff_taken {call : Call} (hsingle : call.isSingle = true)
    (hservices : call.services = [serviceName]) {handler : ServiceHandler}
    (hhandler : client.handlers serviceName = some handler)
    (hcall : client.call call = (.ok future, context, client'))
    (hqueued : handler.io.pops = Arrival.pops queued)
    (hexpects : client'.Expects serviceName (queued ++ responses))
    (hanswers : Answers answers serviceName (queued ++ responses)) {k : ℕ}
    (hk : handler.transport.requestsOutstanding+1 = k) :
    (future.result (client'.deliver fun _ => responses)).1 = future.own answers ↔
      k ≤ (queued ++ responses).length ∧ ∀ requestId ∈ future.requests serviceName,
        requestId ∈ ((queued ++ responses).take k).map Arrival.requestId := by
  obtain ⟨inner, hfuture, hcell, hname, handler', hhandler', -, ⟨hpops, -⟩, hcount⟩ :=
    Client.call_single hsingle hservices hhandler hcall
  subst hname
  have hawaits : (client'.deliver fun _ => responses).Awaits inner.serviceName handler'.transport.core
      k (queued ++ responses) [] := by
    refine ⟨_, Client.handlers_deliver hhandler' _, rfl, hcount.trans hk, rfl, ?_, ?_⟩
    · rw [hpops, hqueued, Arrival.pops_append]
    · rw [List.append_nil]
      exact hexpects handler' hhandler'
  have hunresolved := unresolved_single hfuture hcell
  have hrequests : future.requests inner.serviceName = [inner.expectedRequestId] := by
    obtain rfl | rfl := hfuture <;> simp [requests]
  simp only [hrequests, List.mem_singleton, forall_eq]
  obtain hshort | henough := lt_or_ge (queued ++ responses).length k
  · have htimeout := error?_result_single hfuture hcell (ActionsFuture.getResponse_short hawaits hshort)
    refine iff_of_false ?_ fun h => absurd h.1 (not_le.mpr hshort)
    exact ne_own_of_timeout hunresolved htimeout rfl
  · obtain ⟨client'', hget, -⟩ := ActionsFuture.getResponse_eq hawaits henough answers hanswers
    by_cases hown : inner.expectedRequestId ∈ ((queued ++ responses).take k).map Arrival.requestId
    · refine iff_of_true ?_ ⟨henough, hown⟩
      rw [if_pos hown] at hget
      rw [result_single hfuture hcell (congrArg Prod.fst hget)]
      obtain rfl | rfl := hfuture <;> rfl
    · refine iff_of_false ?_ fun h => hown h.2
      rw [if_neg hown] at hget
      have hunexpected := error?_result_single hfuture hcell (congrArg Prod.fst hget)
      exact ne_own_of_unexpected hunresolved ⟨_, hunexpected, trivial⟩

/-- After every history of a new client in which no step meets a transport problem: when the service
answers each request at most once, and the own response of a blocking call is in the queue in time,
the call returns its own result exactly if no step of the history has leaked and every response that
has been asked for is in the queue. -/
theorem result_eq_own_iff_leakFree (threadId : Unit → String) (transport : RedisClientTransport)
    (io : Unit → RedisIo) {history : List (ClientOp Unit)}
    (hquiet : Runs.Along (step threadId) (Quiet threadId) (fresh transport io) history)
    (hfollows : client.Follows threadId serviceName
      (Runs.run (step threadId) (fresh transport io) history))
    {call : Call} (hsingle : call.isSingle = true) (hservices : call.services = [serviceName])
    (hcall : client.call call = (.ok future, context, client'))
    (hqueued : ((Runs.run (step threadId) (fresh transport io) history).io ()).pops =
      Arrival.pops queued)
    (hexpects : client'.Expects serviceName (queued ++ responses))
    (hanswers : Answers answers serviceName (queued ++ responses))
    (hown : ∀ requestId ∈ future.requests serviceName,
      requestId ∈ (queued ++ responses).map Arrival.requestId)
    (honce : (queued ++ responses).length ≤
      (Runs.run (step threadId) (fresh transport io) history).owed () + 1) :
    (future.result (client'.deliver fun _ => responses)).1 = future.own answers ↔
      Runs.Along (step threadId) (LeakFree threadId) (fresh transport io) history ∧
        (queued ++ responses).length =
          (Runs.run (step threadId) (fresh transport io) history).owed () + 1 := by
  have hexcess := excess_run transport io hquiet
  have hleaks : Runs.tally (step threadId) (leak threadId) (fresh transport io) history = 0 ↔
      Runs.Along (step threadId) (LeakFree threadId) (fresh transport io) history := by
    rw [Runs.tally_eq_zero_iff]
    simp only [leak_eq_zero_iff]
  rw [← hleaks]
  obtain ⟨handler, hhandler, -, htransport, hio⟩ := hfollows
  unfold excess at hexcess
  rw [Fintype.sum_unique, ← htransport] at hexcess
  have hdefault : (default : Unit) = () := rfl
  rw [hdefault] at hexcess
  rw [result_eq_own_iff_taken hsingle hservices hhandler hcall (hio ▸ hqueued) hexpects hanswers rfl]
  constructor
  · rintro ⟨henough, -⟩
    omega
  · rintro ⟨hnone, hall⟩
    refine ⟨by omega, ?_⟩
    rwa [List.take_of_length_le (by omega)]

/-- What the only thread of a new client has done so far. -/
def ledgerAfter (history : List (ClientOp Unit)) : Ledger Unit :=
  Runs.run (step fun _ => "1") (fresh (exampleHandler "example").transport fun _ => {}) history

/-- The client after its first request. -/
def clientAfter (history : List (ClientOp Unit)) : Client :=
  { exampleClient with handlers := fun serviceName => some { exampleHandler serviceName with
      transport := (ledgerAfter history).transport
      io := (ledgerAfter history).io ()
      requestCounter := 1 } }

/-- The response to the first request comes after its timeout. -/
def lateHistory : List (ClientOp Unit) :=
  [.send () (.int 0) {} (exampleRequest false) none, .receive (), .deliver () (exampleArrival 0).frames]

lemma pops_before_late :
    ((ledgerAfter [.send () (.int 0) {} (exampleRequest false) none]).io ()).pops = [] ∧
      ((ledgerAfter [.send () (.int 0) {} (exampleRequest false) none, .receive ()]).io ()).pops = [] :=
  ⟨List.eq_nil_of_length_eq_zero (by decide +kernel), List.eq_nil_of_length_eq_zero (by decide +kernel)⟩

lemma core_ledgerAfter (history : List (ClientOp Unit)) :
    (ledgerAfter history).transport.core = exampleCore "example" := core_run ..

lemma clock_ledgerAfter (history : List (ClientOp Unit)) :
    ((ledgerAfter history).io ()).clock = fun _ => 0 := clock_run ..

lemma isReceiveTimeout_late :
    (match ((ledgerAfter [.send () (.int 0) {} (exampleRequest false) none]).received ()).1 with
    | .error e => e.isReceiveTimeout
    | .ok _ => false) = true := by
  decide +kernel

lemma quiet_lateHistory : Runs.Along (step fun _ => "1") (Quiet fun _ => "1")
    (fresh (exampleHandler "example").transport fun _ => {}) lateHistory := by
  refine ⟨quiet_send_of_isOk (by decide +kernel), fun e he => ?_, ?_, trivial⟩
  · have htimeout := isReceiveTimeout_late
    change ((ledgerAfter [.send () (.int 0) {} (exampleRequest false) none]).received ()).1 = .error e at he
    rw [he] at htimeout
    exact Or.inr htimeout
  · change ((ledgerAfter [.send () (.int 0) {} (exampleRequest false) none, .receive ()]).transport.core).Whole _
    rw [core_ledgerAfter]
    exact (liveAt_exampleArrival (Or.inl rfl) "example").whole

lemma leakFree_lateHistory : Runs.Along (step fun _ => "1") (LeakFree fun _ => "1")
    (fresh (exampleHandler "example").transport fun _ => {}) lateHistory := by
  refine ⟨fun hsuppressed => ?_, fun _ hpops => ?_, trivial, trivial⟩
  · cases hsuppressed
  · exact absurd pops_before_late.1 hpops

/-- The response to the first request, which has come late, and the response to the call itself. -/
theorem result_eq_own_after_late :
    ∃ future context client', (clientAfter lateHistory).call
        (.actions "example" [{ action := .text "read" }] true true {}) = (.ok future, context, client') ∧
      (future.result (client'.deliver fun _ => [exampleArrival 1])).1 =
        future.own fun _ => exampleJobResponse := by
  obtain ⟨future, context, client', hcall, hcheck⟩ := exists_of_call (clientAfter lateHistory)
    (.actions "example" [{ action := .text "read" }] true true {})
    (fun future _ => future.requests "example" = [1]) (by decide +kernel)
  have hids := of_decide_eq_true hcheck
  have hpops : ((ledgerAfter lateHistory).io ()).pops = Arrival.pops [exampleArrival 0] := by
    change ((ledgerAfter [.send () (.int 0) {} (exampleRequest false) none, .receive ()]).io ()).pops ++
      (exampleArrival 0).frames.map .message = _
    simp [pops_before_late.2]
  have howed : (ledgerAfter lateHistory).owed () = 1 := by decide +kernel
  refine ⟨future, context, client', hcall, (result_eq_own_iff_leakFree (fun _ => "1")
    (exampleHandler "example").transport (fun _ => {}) quiet_lateHistory
    ⟨_, rfl, rfl, rfl, rfl⟩ rfl rfl hcall hpops ?_ ?_ ?_ ?_).mpr ⟨leakFree_lateHistory, ?_⟩⟩
  · obtain ⟨-, -, -, -, handler', hhandler', hcore, ⟨-, hclock⟩, -⟩ :=
      Client.call_single rfl rfl (by rfl) hcall
    intro handler hhandler i a ha
    cases hhandler'.symm.trans hhandler
    rw [hcore, hclock, core_ledgerAfter, clock_ledgerAfter]
    have hmem := List.mem_of_getElem? ha
    simp only [List.singleton_append, List.mem_cons, List.not_mem_nil, or_false] at hmem
    obtain rfl | rfl := hmem
    · exact liveAt_exampleArrival (Or.inl rfl) "example"
    · exact liveAt_exampleArrival (Or.inr rfl) "example"
  · simp [Answers, exampleArrival]
  · rw [hids]
    decide
  · exact howed.symm ▸ by decide
  · exact howed.symm ▸ by decide

/-- A request that asks for no response makes the next call wait for one more. -/
theorem result_ne_own_after_suppressed :
    ∃ future context client',
      (clientAfter [.send () (.int 0) {} (exampleRequest true) none]).call
        (.actions "example" [{ action := .text "read" }] true true {}) = (.ok future, context, client') ∧
      future.requests "example" = [1] ∧
      (future.result (client'.deliver fun _ => [exampleArrival 1])).1 ≠
        future.own fun _ => exampleJobResponse := by
  obtain ⟨future, context, client', hcall, hcheck⟩ := exists_of_call
    (clientAfter [.send () (.int 0) {} (exampleRequest true) none])
    (.actions "example" [{ action := .text "read" }] true true {})
    (fun future client => future.requests "example" = [1] ∧
      (future.result (client.deliver fun _ => [exampleArrival 1])).1.error?.any Exc.isReceiveTimeout ∧
      (future.own fun _ => exampleJobResponse).error? = none) (by decide +kernel)
  obtain ⟨hids, htimeout, hown⟩ := of_decide_eq_true hcheck
  refine ⟨future, context, client', hcall, hids, fun heq => ?_⟩
  rw [heq, hown] at htimeout
  cases htimeout

end Future
end PySOA
