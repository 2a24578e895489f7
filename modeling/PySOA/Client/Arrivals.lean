import PySOA.Client.ServiceHandler
import PySOA.RedisGateway.Framing

/-! Live responses in a reply queue, and what the loop over all responses does with them. -/
namespace PySOA
open RedisTransportCore

/-- A response: its frames, the request that it answers, and its content. -/
structure Arrival where
  frames : List Bytes
  requestId : ℤ
  response : JobResponse

namespace Arrival

/-- A call that finds the frames of the response at the head of its queue at the given time receives
the response, and takes these frames and no others. -/
def LiveAt (core : RedisTransportCore) (now : ℚ) (a : Arrival) : Prop :=
  ∃ r metaDict body, (∀ rest, core.receiveFrames (a.frames.map .message ++ rest) = (.ok r, rest)) ∧
    core.openEnvelope r now = .ok ⟨.int a.requestId, metaDict, body⟩ ∧
    JobResponse.ofKwargs body = .ok a.response

/-- The envelope of a response to the given request. -/
def envelope (requestId : ℤ) (metaDict : Dict) (body : Value) : Value :=
  .dict [(.text "request_id", .int requestId), (.text "meta", .dict metaDict), (.text "body", body)]

/-- A response that travels in one frame is live when the client knows the serializer, its envelope
is read back, and it has not expired. -/
theorem liveAt_unchunkedFrame {core : RedisTransportCore} {serializer : Serializer}
    (hne : serializer.mimeType ≠ []) (hmime : ∀ b ∈ serializer.mimeType, Bytes.isHeaderValue b = true)
    (hknown : core.serializers.resolve? serializer.mimeType = some serializer) {blob : Bytes}
    (hheader : matchHeader blob = none) {requestId : ℤ} {metaDict : Dict} {body : Value}
    (hblob : serializer.blobToDict blob = .ok (envelope requestId metaDict body)) {now : ℚ}
    (hexpired : isMessageExpired ((metaDict.erase "serializer").erase "protocol_version") now =
      .ok false) {response : JobResponse} (hbody : JobResponse.ofKwargs body = .ok response) :
    LiveAt core now ⟨[unchunkedFrame serializer blob], requestId, response⟩ := by
  refine ⟨⟨.version3, serializer, blob, none⟩,
    ⟨(metaDict.erase "serializer").erase "protocol_version", some .version3, some serializer⟩, body,
    core.receiveFrames_unchunkedFrame hne hmime hknown hheader, ?_, hbody⟩
  simp [openEnvelope, hblob, envelope, Dict.get?, hexpired, Value.isNone]

/-- What `blpop` will answer. -/
def pops (arrivals : List Arrival) : List Blpop := (arrivals.flatMap frames).map .message

@[simp] theorem pops_nil : pops [] = [] := rfl

@[simp] theorem pops_cons (a : Arrival) (arrivals : List Arrival) :
    pops (a :: arrivals) = a.frames.map .message ++ pops arrivals := by
  simp [pops]

@[simp] theorem pops_append (arrivals arrivals' : List Arrival) :
    pops (arrivals ++ arrivals') = pops arrivals ++ pops arrivals' := by
  simp [pops]

/-- The responses are live when they are received one after the other, the first one at the given
reading of the clock. -/
def AllLive (core : RedisTransportCore) (clock : ℕ → ℚ) (ticks : ℕ) (arrivals : List Arrival) : Prop :=
  ∀ (i : ℕ) (a : Arrival), arrivals[i]? = some a → a.LiveAt core (clock (ticks+i))

lemma allLive_cons {core : RedisTransportCore} {clock : ℕ → ℚ} {ticks : ℕ} {a : Arrival}
    {arrivals : List Arrival} : AllLive core clock ticks (a :: arrivals) ↔
      a.LiveAt core (clock ticks) ∧ AllLive core clock (ticks+1) arrivals := by
  constructor
  · intro h
    refine ⟨h 0 a rfl, fun i b hb => ?_⟩
    have := h (i+1) b hb
    rwa [show ticks+(i+1) = ticks+1+i by omega] at this
  · rintro ⟨ha, h⟩ i b hb
    cases i with
    | zero =>
      cases hb
      exact ha
    | succ i =>
      rw [show ticks+(i+1) = ticks+1+i by omega]
      exact h i b hb

end Arrival

/-- A decoded body is a dict. -/
lemma isNone_of_ofKwargs {body : Value} {response : JobResponse}
    (h : JobResponse.ofKwargs body = .ok response) : body.isNone = false := by
  cases body with
  | none => cases h
  | _ => rfl

/-- The handler waits for the given number of responses, its reply queue holds the given ones, and
its connection works. These responses, and then those that arrive later, are live when they are
received in order. -/
structure Awaits (handler : ServiceHandler) (core : RedisTransportCore) (k : ℕ)
    (arrivals later : List Arrival) : Prop where
  core_eq : handler.transport.core = core
  count : handler.transport.requestsOutstanding = k
  connections : handler.io.connections = []
  pops : handler.io.pops = Arrival.pops arrivals
  live : Arrival.AllLive core handler.io.clock handler.io.ticks (arrivals ++ later)

namespace Awaits
variable {handler : ServiceHandler} {core : RedisTransportCore} {k : ℕ} {a : Arrival}
  {arrivals later : List Arrival}

/-- The first response of the queue is received. -/
theorem get_arrival (h : Awaits handler core (k+1) (a :: arrivals) later) :
    ∃ handler', handler.baseGetResponse = (.ok (some (.int a.requestId, a.response)), handler') ∧
      Awaits handler' core k arrivals later ∧ handler'.transport.previousErrorWasTransportProblem =
        handler.transport.previousErrorWasTransportProblem := by
  obtain ⟨hcore, hcount, hconn, hpops, hlive⟩ := h
  obtain ⟨⟨r, metaDict, body, htaken, hopened, hdecoded⟩, hrest⟩ := Arrival.allLive_cons.mp hlive
  have hreceive : handler.transport.core.receiveMessage handler.io =
      (.ok ⟨.int a.requestId, metaDict, body⟩,
        { handler.io with pops := Arrival.pops arrivals, ticks := handler.io.ticks+1 }) := by
    rw [hcore]
    simp only [receiveMessage, RedisIo.getRedisConnection, hconn, hpops, Arrival.pops_cons, htaken]
    simp only [RedisIo.now, hopened, RedisIo.tick]
  have hpos : 0 < handler.transport.requestsOutstanding := by omega
  have hget : handler.baseGetResponse = (.ok (some (.int a.requestId, a.response)),
      { handler with
        transport := { handler.transport with
          requestsOutstanding := handler.transport.requestsOutstanding-1 }
        io := { handler.io with pops := Arrival.pops arrivals, ticks := handler.io.ticks+1 } }) := by
    simp [ServiceHandler.baseGetResponse, RedisClientTransport.receiveResponseMessage, hpos, hreceive,
      isNone_of_ofKwargs hdecoded, hdecoded]
  exact ⟨_, hget, ⟨hcore, by simp [hcount], hconn, rfl, hrest⟩, rfl⟩

/-- No more response is awaited. -/
theorem get_none (h : Awaits handler core 0 arrivals later) :
    ∃ handler', handler.baseGetResponse = (.ok none, handler') ∧ Awaits handler' core 0 arrivals later := by
  obtain ⟨hcore, hcount, hconn, hpops, hlive⟩ := h
  have hget : handler.baseGetResponse = (.ok none,
      { handler with transport := { handler.transport with
        previousErrorWasTransportProblem := false } }) := by
    simp [ServiceHandler.baseGetResponse, RedisClientTransport.receiveResponseMessage, hcount,
      ReceivedMessage.empty, Value.isNone]
  exact ⟨_, hget, hcore, hcount, hconn, hpops, hlive⟩

/-- A response is awaited, but the queue is empty. After a transport problem the handler stops
waiting for it. -/
theorem get_timeout (h : Awaits handler core (k+1) [] later) :
    ∃ handler', handler.baseGetResponse = (.error core.receiveTimeout, handler') ∧
      Awaits handler' core (if handler.transport.previousErrorWasTransportProblem then 0 else k+1) [] later := by
  obtain ⟨hcore, hcount, hconn, hpops, hlive⟩ := h
  have hreceive : handler.transport.core.receiveMessage handler.io =
      (.error core.receiveTimeout, { handler.io with connections := [], pops := [] }) := by
    rw [hcore]
    simp [receiveMessage, RedisIo.getRedisConnection, hconn, hpops, receiveFrames]
  cases hproblem : handler.transport.previousErrorWasTransportProblem with
  | false =>
    have hget : handler.baseGetResponse = (.error core.receiveTimeout,
        { handler with io := { handler.io with connections := [], pops := [] } }) := by
      simp [ServiceHandler.baseGetResponse, RedisClientTransport.receiveResponseMessage, hcount,
        hreceive, receiveTimeout, Exc.isReceiveTimeout, hproblem]
    exact ⟨_, hget, hcore, hcount, rfl, rfl, hlive⟩
  | true =>
    have hget : handler.baseGetResponse = (.error core.receiveTimeout,
        { handler with
          transport := { handler.transport with
            requestsOutstanding := 0, previousErrorWasTransportProblem := false }
          io := { handler.io with connections := [], pops := [] } }) := by
      simp [ServiceHandler.baseGetResponse, RedisClientTransport.receiveResponseMessage, hcount,
        hreceive, receiveTimeout, Exc.isReceiveTimeout, hproblem]
    exact ⟨_, hget, hcore, rfl, rfl, rfl, hlive⟩

section loop
variable {σ : Type*} (body : σ → Value → JobResponse → Except Exc σ)

/-- What the loop does with the responses of the queue: it takes as many as are awaited, and times
out when these are not all there. When its body raises, the loop raises the same. -/
theorem forResponses_eq {n : ℕ} (h : Awaits handler core k arrivals later) (hn : k < n) (s : σ) :
    match (arrivals.take k).foldlM (fun s a => body s (.int a.requestId) a.response) s with
    | .error e => (ServiceHandler.forResponses body n s handler).1 = .error e
    | .ok s' => ∃ handler', ServiceHandler.forResponses body n s handler =
        (if k ≤ arrivals.length then .ok () else .error core.receiveTimeout, s', handler') ∧
        Awaits handler' core
          (if handler.transport.previousErrorWasTransportProblem then 0 else k-arrivals.length)
          (arrivals.drop k) later := by
  induction k generalizing n s handler arrivals with
  | zero =>
    obtain ⟨n, rfl⟩ : ∃ m, n = m+1 := ⟨n-1, by omega⟩
    obtain ⟨handler', hget, h'⟩ := h.get_none
    refine ⟨handler', ?_, by simpa using h'⟩
    simp [ServiceHandler.forResponses, hget]
  | succ k ih =>
    obtain ⟨n, rfl⟩ : ∃ m, n = m+1 := ⟨n-1, by omega⟩
    cases arrivals with
    | nil =>
      obtain ⟨handler', hget, h'⟩ := h.get_timeout
      refine ⟨handler', ?_, by simpa using h'⟩
      simp [ServiceHandler.forResponses, hget]
    | cons a arrivals =>
      obtain ⟨handler', hget, h', hsame⟩ := h.get_arrival
      rw [List.take_succ_cons, List.foldlM_cons]
      simp only [ServiceHandler.forResponses, hget, Value.isNone, Bool.false_eq_true, if_false]
      cases hbody : body s (.int a.requestId) a.response with
      | error e => rfl
      | ok s' =>
        have := ih h' (n := n) (by omega) s'
        simpa [bind, Except.bind, hsame] using this

/-- The loop when its body does not raise for the responses that it takes. -/
theorem getAllResponses_eq (h : Awaits handler core k arrivals later) {s s' : σ}
    (hbody : (arrivals.take k).foldlM (fun s a => body s (.int a.requestId) a.response) s = .ok s') :
    ∃ handler', ServiceHandler.getAllResponses body s handler =
        (if k ≤ arrivals.length then .ok () else .error core.receiveTimeout, s', handler') ∧
      Awaits handler' core
        (if handler.transport.previousErrorWasTransportProblem then 0 else k-arrivals.length)
        (arrivals.drop k) later := by
  have hloop := forResponses_eq body h (by rw [h.count]; omega :
    k < handler.transport.requestsOutstanding+1) s
  simpa only [ServiceHandler.getAllResponses, hbody] using hloop

/-- The loop when its body raises. -/
theorem getAllResponses_error (h : Awaits handler core k arrivals later) {s : σ} {e : Exc}
    (hbody : (arrivals.take k).foldlM (fun s a => body s (.int a.requestId) a.response) s = .error e) :
    (ServiceHandler.getAllResponses body s handler).1 = .error e := by
  have hloop := forResponses_eq body h (by rw [h.count]; omega :
    k < handler.transport.requestsOutstanding+1) s
  simpa only [ServiceHandler.getAllResponses, hbody] using hloop

end loop
end Awaits
end PySOA
