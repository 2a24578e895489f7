import PySOA.Common.Types
import PySOA.RedisGateway.Client

/-! The service handler of a client: sending a request, receiving a response, and the loop over
all responses. The middleware of the handler is the identity. -/
namespace PySOA
open RedisTransportCore

structure ServiceHandler where
  serviceName : String
  threadId : String
  clientVersion : List ℤ
  transport : RedisClientTransport
  requestCounter : ℤ
  io : RedisIo

namespace ServiceHandler

def baseSendRequest (handler : ServiceHandler) (requestId : ℤ) (metaDict : Meta)
    (jobRequest : JobRequest) (messageExpiryInSeconds : Option ℤ) : Except Exc Unit × ServiceHandler :=
  match jobRequest.asdict with
  | .error e => (.error e, handler)
  | .ok body =>
    let out := handler.transport.sendRequestMessage handler.threadId (.int requestId) metaDict body
      messageExpiryInSeconds handler.io
    (out.1, { handler with transport := out.2.1, io := out.2.2 })

/-- The request counter goes up even if the request is not sent. -/
def sendRequest (handler : ServiceHandler) (jobRequest : JobRequest)
    (messageExpiryInSeconds : Option ℤ) : Except Exc ℤ × ServiceHandler :=
  let requestId := handler.requestCounter
  let metaDict : Meta :=
    { entries := [(.text "client_version", .list (handler.clientVersion.map .int))] }
  let out := { handler with requestCounter := requestId+1 }.baseSendRequest requestId metaDict
    jobRequest messageExpiryInSeconds
  (out.1.map fun _ => requestId, out.2)

/-- The transport's empty message becomes the pair of two `None`. -/
def baseGetResponse (handler : ServiceHandler) :
    Except Exc (Option (Value × JobResponse)) × ServiceHandler :=
  let out := handler.transport.receiveResponseMessage handler.io
  let handler := { handler with transport := out.2.1, io := out.2.2 }
  match out.1 with
  | .error e => (.error e, handler)
  | .ok message =>
    if message.body.isNone then (.ok none, handler)
    else
      match JobResponse.ofKwargs message.body with
      | .error e => (.error e, handler)
      | .ok response => (.ok (some (message.requestId, response)), handler)

/-- A loop over at most the given number of responses of `get_all_responses`. Its body changes
the state, or raises. -/
def forResponses {σ : Type*} (body : σ → Value → JobResponse → Except Exc σ) :
    ℕ → σ → ServiceHandler → Except Exc Unit × σ × ServiceHandler
  | 0, s, handler => (.ok (), s, handler)
  | n+1, s, handler =>
    match handler.baseGetResponse with
    | (.error e, handler) => (.error e, s, handler)
    | (.ok none, handler) => (.ok (), s, handler)
    | (.ok (some (requestId, response)), handler) =>
      if requestId.isNone then (.ok (), s, handler)
      else
        match body s requestId response with
        | .error e => (.error e, s, handler)
        | .ok s => forResponses body n s handler

/-- `for request_id, response in handler.get_all_responses()`. Each response lowers the number of
outstanding requests, and the loop ends when there is none. -/
def getAllResponses {σ : Type*} (body : σ → Value → JobResponse → Except Exc σ) (s : σ)
    (handler : ServiceHandler) : Except Exc Unit × σ × ServiceHandler :=
  forResponses body (handler.transport.requestsOutstanding+1) s handler

/-- What the body of the loop keeps holds after the loop, also when it raises. -/
theorem forResponses_preserves {σ : Type*} {P : σ → Prop}
    {body : σ → Value → JobResponse → Except Exc σ}
    (hbody : ∀ s requestId response s', P s → body s requestId response = .ok s' → P s') (n : ℕ) {s : σ}
    (handler : ServiceHandler) (hs : P s) : P (forResponses body n s handler).2.1 := by
  induction n generalizing s handler with
  | zero => exact hs
  | succ n ih =>
    unfold forResponses
    cases handler.baseGetResponse with
    | mk result handler' =>
      match result with
      | .error e => exact hs
      | .ok none => exact hs
      | .ok (some (requestId, response)) =>
        dsimp only
        split_ifs
        · exact hs
        · cases hout : body s requestId response with
          | error e => exact hs
          | ok s' => exact ih handler' (hbody s requestId response s' hs hout)

/-- A response that is received lowers the count. -/
lemma requestsOutstanding_baseGetResponse {handler : ServiceHandler} {out : Value × JobResponse}
    (h : handler.baseGetResponse.1 = .ok (some out)) :
    handler.baseGetResponse.2.transport.requestsOutstanding+1 = handler.transport.requestsOutstanding := by
  unfold baseGetResponse at *
  unfold RedisClientTransport.receiveResponseMessage at *
  by_cases hpos : 0 < handler.transport.requestsOutstanding
  · simp only [hpos, if_true] at h ⊢
    cases hm : handler.transport.core.receiveMessage handler.io with
    | mk result io =>
      cases result with
      | error e =>
        simp only [hm] at h
        split_ifs at h
      | ok message =>
        simp only [hm] at h ⊢
        cases hnone : message.body.isNone with
        | true => simp [hnone] at h
        | false =>
          cases hr : JobResponse.ofKwargs message.body with
          | error e => simp [hnone, hr] at h
          | ok response => exact Nat.sub_add_cancel hpos
  · simp [hpos, ReceivedMessage.empty, Value.isNone] at h

/-- The bound on the number of responses does not cut the loop short. -/
theorem forResponses_eq_getAllResponses {σ : Type*} (body : σ → Value → JobResponse → Except Exc σ)
    {n : ℕ} (s : σ) {handler : ServiceHandler} (hn : handler.transport.requestsOutstanding < n) :
    forResponses body n s handler = getAllResponses body s handler := by
  unfold getAllResponses
  generalize hk : handler.transport.requestsOutstanding = k at *
  induction k generalizing n s handler with
  | zero =>
    obtain ⟨n, rfl⟩ : ∃ m, n = m+1 := ⟨n-1, by omega⟩
    have hcount : ∀ out, handler.baseGetResponse.1 = .ok (some out) →
        handler.baseGetResponse.2.transport.requestsOutstanding+1 =
          handler.transport.requestsOutstanding := fun _ h => requestsOutstanding_baseGetResponse h
    cases hout : handler.baseGetResponse with
    | mk result handler' =>
      match result with
      | .error e => simp only [forResponses, hout]
      | .ok none => simp only [forResponses, hout]
      | .ok (some out) =>
        rw [hout] at hcount
        have := hcount out rfl
        omega
  | succ k ih =>
    obtain ⟨n, rfl⟩ : ∃ m, n = m+1 := ⟨n-1, by omega⟩
    have hcount : ∀ out, handler.baseGetResponse.1 = .ok (some out) →
        handler.baseGetResponse.2.transport.requestsOutstanding+1 =
          handler.transport.requestsOutstanding := fun _ h => requestsOutstanding_baseGetResponse h
    cases hout : handler.baseGetResponse with
    | mk result handler' =>
      match result with
      | .error e => simp only [forResponses, hout]
      | .ok none => simp only [forResponses, hout]
      | .ok (some (requestId, response)) =>
        rw [hout] at hcount
        have hk' : handler'.transport.requestsOutstanding = k := by
          have := hcount _ rfl
          simp only at this
          omega
        simp only [forResponses, hout]
        split_ifs
        · rfl
        · cases body s requestId response with
          | error e => rfl
          | ok s' => exact ih s' hk' (by omega)

end ServiceHandler
end PySOA
