import PySOA.RedisGateway.Chunks

/-! The Redis client transport: the core, and a count of the requests whose response is still
to come. -/
namespace PySOA

/-- The transport of one client to one service; all threads of the client share it. -/
structure RedisClientTransport where
  core : RedisTransportCore
  sendQueueName : String
  receiveQueueName : String
  requestsOutstanding : ℕ := 0
  previousErrorWasTransportProblem : Bool := false
  isClient : core.isServer = false

/-- What `receive_response_message` returns when no response is outstanding. -/
def ReceivedMessage.empty : ReceivedMessage := ⟨.none, {}, .none⟩

namespace RedisClientTransport
variable (transport : RedisClientTransport)

def sendRequestMessage (threadId : String) (requestId : Value) (metaDict : Meta) (body : Value)
    (messageExpiryInSeconds : Option ℤ) (io : RedisIo) :
    Except Exc Unit × RedisClientTransport × RedisIo :=
  let metaDict := { metaDict with
    entries := metaDict.entries.set "reply_to" (.text (transport.receiveQueueName ++ threadId)) }
  match transport.core.sendMessage transport.sendQueueName requestId metaDict body
    messageExpiryInSeconds io with
  | (.ok (), _, io) =>
    (.ok (), { transport with requestsOutstanding := transport.requestsOutstanding+1 }, io)
  | (.error e, _, io) =>
    (.error e, if e.isTransient then { transport with previousErrorWasTransportProblem := true }
      else transport, io)

/-- A timeout is a transient error too, but the handler for timeouts comes first. -/
def receiveResponseMessage (io : RedisIo) : Except Exc ReceivedMessage × RedisClientTransport × RedisIo :=
  if 0 < transport.requestsOutstanding then
    match transport.core.receiveMessage io with
    | (.ok receivedMessage, io) => (.ok receivedMessage,
        { transport with requestsOutstanding := transport.requestsOutstanding-1 }, io)
    | (.error e, io) =>
      if e.isReceiveTimeout then
        (.error e, if transport.previousErrorWasTransportProblem then
            { transport with requestsOutstanding := 0, previousErrorWasTransportProblem := false }
          else transport, io)
      else if e.isTransient then
        (.error e, { transport with previousErrorWasTransportProblem := true }, io)
      else (.error e, transport, io)
  else (.ok .empty, { transport with previousErrorWasTransportProblem := false }, io)

end RedisClientTransport

namespace RedisTransportCore
variable (core : RedisTransportCore)

/-- The response at the head of the queue is live: its frames are accepted, its blob is a dict
whose meta entries are a dict that has not expired, and it names its request. -/
def Live (pops : List Blpop) (now : ℚ) : Prop :=
  ∃ r rest message entries, core.receiveFrames pops = (.ok r, rest) ∧
    r.serializer.blobToDict r.serializedMessage = .ok (.dict message) ∧
    (Dict.get? message "meta").getD (.dict []) = .dict entries ∧
    isMessageExpired ((Dict.erase entries "serializer").erase "protocol_version") now = .ok false ∧
    ((Dict.get? message "request_id").getD .none).isNone = false

lemma openEnvelope_eq_ok {r : Reassembly} {now : ℚ} : (∃ m, core.openEnvelope r now = .ok m) ↔
    ∃ message entries, r.serializer.blobToDict r.serializedMessage = .ok (.dict message) ∧
      (Dict.get? message "meta").getD (.dict []) = .dict entries ∧
      isMessageExpired ((Dict.erase entries "serializer").erase "protocol_version") now = .ok false ∧
      ((Dict.get? message "request_id").getD .none).isNone = false := by
  unfold openEnvelope
  cases hblob : r.serializer.blobToDict r.serializedMessage with
  | error e => simp
  | ok value =>
    cases value with
    | dict message =>
      cases hmeta : (Dict.get? message "meta").getD (.dict []) with
      | dict entries =>
        cases hexp : isMessageExpired ((Dict.erase entries "serializer").erase "protocol_version") now with
        | error e => simp [hmeta, hexp]
        | ok expired =>
          cases expired <;> cases hid : ((Dict.get? message "request_id").getD .none).isNone <;>
            simp [hmeta, hexp, hid]
      | _ => simp [hmeta]
    | _ => simp

lemma getRedisConnection_cases (forSend : Bool) (io : RedisIo) :
    ∃ connections, (io.getRedisConnection forSend).2 = { io with connections } ∧
      ((io.getRedisConnection forSend).1 = .ok () ∨
        ∃ e, (io.getRedisConnection forSend).1 = .error e ∧ e.isTransient = true ∧
          e.isReceiveTimeout = false) := by
  unfold RedisIo.getRedisConnection
  split
  · next h => exact ⟨[], by rw [← h], Or.inl rfl⟩
  · next connections _ => exact ⟨connections, rfl, Or.inl rfl⟩
  · next e connections _ =>
    refine ⟨connections, rfl, Or.inr ⟨_, rfl, ?_⟩⟩
    cases forSend <;> exact ⟨rfl, rfl⟩

/-- A call that gets a connection takes off the queue what `receiveFrames` takes, and returns a
message exactly if the response at the head of the queue is live. -/
theorem receiveMessage_cases (io : RedisIo) :
    (∃ e, (core.receiveMessage io).1 = .error e ∧ e.isTransient = true ∧ e.isReceiveTimeout = false) ∨
      ((core.receiveMessage io).2.pops = (core.receiveFrames io.pops).2 ∧
        ((∃ m, (core.receiveMessage io).1 = .ok m) ↔ core.Live io.pops io.now)) := by
  obtain ⟨connections, hio, hok | ⟨e, he, herror⟩⟩ := getRedisConnection_cases false io
  · right
    rw [receiveMessage, ← Prod.mk.eta (p := io.getRedisConnection false), hio, hok]
    simp only
    cases hout : core.receiveFrames io.pops with
    | mk result rest =>
      cases result with
      | error e => simp [Live, hout]
      | ok r =>
        refine ⟨rfl, ?_⟩
        rw [openEnvelope_eq_ok]
        simp [Live, hout, RedisIo.now]
  · left
    rw [receiveMessage, ← Prod.mk.eta (p := io.getRedisConnection false), hio, he]
    exact ⟨e, rfl, herror⟩

/-- The frames of one response, in one piece: a call that finds them at the head of the queue takes
these frames and no others. -/
def Whole (frames : List Bytes) : Prop :=
  ∃ result, ∀ rest, core.receiveFrames (frames.map .message ++ rest) = (result, rest)

/-- An unchunked response is one frame. -/
theorem whole_unchunked {frame : Bytes} (hframe : ¬ HasChunkCount frame) : core.Whole [frame] :=
  ⟨core.firstFrame frame, core.receiveFrames_unchunked hframe⟩

lemma Whole.ne_nil {frames : List Bytes} (h : core.Whole frames) : frames ≠ [] := by
  rintro rfl
  obtain ⟨result, hresult⟩ := h
  have hnothing := congrArg Prod.snd (hresult [.nothing])
  simp [receiveFrames, popResult, bind, Except.bind] at hnothing

lemma pushFrames_keeps (queueName : String) (frames : List PushedFrame) (io : RedisIo) :
    (core.pushFrames queueName frames io).2.pops = io.pops ∧
      (core.pushFrames queueName frames io).2.clock = io.clock := by
  induction frames generalizing io with
  | nil => exact ⟨rfl, rfl⟩
  | cons frame frames ih =>
    unfold pushFrames
    split
    · exact ⟨rfl, rfl⟩
    · exact ih _

/-- Sending takes nothing off the reply queue. -/
theorem sendMessage_keeps (queueName : String) (requestId : Value) (metaDict : Meta) (body : Value)
    (expiry : Option ℤ) (io : RedisIo) :
    (core.sendMessage queueName requestId metaDict body expiry io).2.2.pops = io.pops ∧
      (core.sendMessage queueName requestId metaDict body expiry io).2.2.clock = io.clock := by
  unfold sendMessage
  dsimp only
  split
  · exact ⟨rfl, rfl⟩
  · split
    · exact ⟨rfl, rfl⟩
    · obtain ⟨connections, hio, -⟩ := getRedisConnection_cases true io.tick
      generalize io.tick.getRedisConnection true = out at hio ⊢
      obtain ⟨result, io'⟩ := out
      dsimp only at hio
      subst hio
      cases result with
      | error e => exact ⟨rfl, rfl⟩
      | ok u => exact core.pushFrames_keeps queueName _ _

end RedisTransportCore

namespace RedisClientTransport
open RedisTransportCore

/-- What sending a request does to the transport. -/
theorem sendRequestMessage_cases (transport : RedisClientTransport) (threadId : String)
    (requestId : Value) (metaDict : Meta) (body : Value) (expiry : Option ℤ) (io : RedisIo) :
    ((transport.sendRequestMessage threadId requestId metaDict body expiry io).2.2.pops = io.pops ∧
      (transport.sendRequestMessage threadId requestId metaDict body expiry io).2.2.clock = io.clock) ∧
      (((transport.sendRequestMessage threadId requestId metaDict body expiry io).1 = .ok () ∧
        (transport.sendRequestMessage threadId requestId metaDict body expiry io).2.1 =
          { transport with requestsOutstanding := transport.requestsOutstanding+1 }) ∨
      ∃ e, (transport.sendRequestMessage threadId requestId metaDict body expiry io).1 = .error e ∧
        (transport.sendRequestMessage threadId requestId metaDict body expiry io).2.1 =
          if e.isTransient then { transport with previousErrorWasTransportProblem := true }
          else transport) := by
  have hkeeps := sendMessage_keeps transport.core transport.sendQueueName requestId
    { metaDict with entries :=
      metaDict.entries.set "reply_to" (.text (transport.receiveQueueName ++ threadId)) } body expiry io
  unfold RedisClientTransport.sendRequestMessage
  dsimp only
  split
  · next h =>
    rw [h] at hkeeps
    exact ⟨hkeeps, Or.inl ⟨rfl, rfl⟩⟩
  · next h =>
    rw [h] at hkeeps
    exact ⟨hkeeps, Or.inr ⟨_, rfl, rfl⟩⟩

@[simp] lemma pops_sendRequestMessage (transport : RedisClientTransport) (threadId : String)
    (requestId : Value) (metaDict : Meta) (body : Value) (expiry : Option ℤ) (io : RedisIo) :
    (transport.sendRequestMessage threadId requestId metaDict body expiry io).2.2.pops = io.pops :=
  (transport.sendRequestMessage_cases threadId requestId metaDict body expiry io).1.1

@[simp] lemma clock_sendRequestMessage (transport : RedisClientTransport) (threadId : String)
    (requestId : Value) (metaDict : Meta) (body : Value) (expiry : Option ℤ) (io : RedisIo) :
    (transport.sendRequestMessage threadId requestId metaDict body expiry io).2.2.clock = io.clock :=
  (transport.sendRequestMessage_cases threadId requestId metaDict body expiry io).1.2

/-- The core of a transport never changes. -/
@[simp] lemma core_sendRequestMessage (transport : RedisClientTransport) (threadId : String)
    (requestId : Value) (metaDict : Meta) (body : Value) (expiry : Option ℤ) (io : RedisIo) :
    (transport.sendRequestMessage threadId requestId metaDict body expiry io).2.1.core =
      transport.core := by
  obtain ⟨-, ⟨-, h⟩ | ⟨e, -, h⟩⟩ :=
    transport.sendRequestMessage_cases threadId requestId metaDict body expiry io
  · rw [h]
  · rw [h]
    split <;> rfl

@[simp] lemma core_receiveResponseMessage (transport : RedisClientTransport) (io : RedisIo) :
    (transport.receiveResponseMessage io).2.1.core = transport.core := by
  unfold RedisClientTransport.receiveResponseMessage
  split
  · split
    · rfl
    · split
      · dsimp only
        split <;> rfl
      · split <;> rfl
  · rfl

@[simp] lemma clock_receiveMessage (core : RedisTransportCore) (io : RedisIo) :
    (core.receiveMessage io).2.clock = io.clock := by
  obtain ⟨connections, hio, -⟩ := getRedisConnection_cases false io
  unfold receiveMessage
  generalize io.getRedisConnection false = out at hio ⊢
  obtain ⟨result, io'⟩ := out
  dsimp only at hio
  subst hio
  cases result with
  | error e => rfl
  | ok u =>
    dsimp only
    split <;> rfl

@[simp] lemma clock_receiveResponseMessage (transport : RedisClientTransport) (io : RedisIo) :
    (transport.receiveResponseMessage io).2.2.clock = io.clock := by
  have hclock := clock_receiveMessage transport.core io
  unfold RedisClientTransport.receiveResponseMessage
  generalize transport.core.receiveMessage io = out at hclock ⊢
  obtain ⟨result, io'⟩ := out
  cases result with
  | ok m =>
    dsimp only
    split
    · exact hclock
    · rfl
  | error e =>
    dsimp only
    split
    · split_ifs <;> exact hclock
    · rfl

/-- What receiving does to the transport when a response is outstanding. -/
lemma receiveResponseMessage_of_pos {transport : RedisClientTransport} {io : RedisIo}
    (hpos : 0 < transport.requestsOutstanding)
    (hproblem : transport.previousErrorWasTransportProblem = false)
    (hquiet : ∀ e, (transport.receiveResponseMessage io).1 = .error e →
      e.isTransient = false ∨ e.isReceiveTimeout = true) :
    (transport.receiveResponseMessage io).1 = (transport.core.receiveMessage io).1 ∧
      (transport.receiveResponseMessage io).2.2 = (transport.core.receiveMessage io).2 ∧
      (transport.receiveResponseMessage io).2.1 =
        if (transport.core.receiveMessage io).1.isOk then
          { transport with requestsOutstanding := transport.requestsOutstanding-1 }
        else transport := by
  unfold RedisClientTransport.receiveResponseMessage at *
  simp only [hpos, if_true, hproblem] at *
  cases hout : transport.core.receiveMessage io with
  | mk result io' =>
    cases result with
    | ok m => simp [Except.isOk, Except.toBool]
    | error e =>
      simp only [hout] at hquiet
      cases htimeout : e.isReceiveTimeout <;> cases htransient : e.isTransient <;>
        simp_all [Except.isOk, Except.toBool]

end RedisClientTransport
end PySOA
