import PySOA.Lib.Runs
import PySOA.RedisGateway.Broker
import PySOA.RedisGateway.Client
import PySOA.RedisGateway.Server
import PySOA.Server.Execution
import PySOA.Server.Transports

/-! A service whose server and clients talk over Redis, in any order of their steps: message by message they
talk over a broker. Redis works, and each step, also the handling of a request, is taken at once; every client
has a single thread. The key of a queue may expire between any two steps. -/
namespace PySOA

namespace RedisClientTransport
variable (transport : RedisClientTransport)

/-- The queue in which a thread of the client waits for responses. -/
def replyQueueName (threadId : String) : String := transport.receiveQueueName ++ threadId

def afterSending : Except Exc Unit → RedisClientTransport
  | .ok () => { transport with requestsOutstanding := transport.requestsOutstanding+1 }
  | .error e => if e.isTransient then { transport with previousErrorWasTransportProblem := true } else transport

def afterReceiving : Except Exc ReceivedMessage → RedisClientTransport
  | .ok _ => { transport with requestsOutstanding := transport.requestsOutstanding-1 }
  | .error e =>
    if e.isReceiveTimeout then
      if transport.previousErrorWasTransportProblem then
        { transport with requestsOutstanding := 0, previousErrorWasTransportProblem := false }
      else transport
    else if e.isTransient then { transport with previousErrorWasTransportProblem := true }
    else transport

/-- The two transports belong to one client. -/
structure SameClient (transport transport' : RedisClientTransport) : Prop where
  core_eq : transport.core = transport'.core
  sendQueueName_eq : transport.sendQueueName = transport'.sendQueueName
  receiveQueueName_eq : transport.receiveQueueName = transport'.receiveQueueName

end RedisClientTransport

/-- A service with one server and its clients, which are set up so that they read each other's messages. -/
structure Gateway (ι σ : Type) where
  server : Server σ
  transport : RedisServerTransport
  requestQueueName : String
  client : ι → RedisClientTransport
  threadId : ι → String
  sendQueueName_eq : ∀ i, (client i).sendQueueName = requestQueueName
  replyQueueName_ne : ∀ i, (client i).replyQueueName (threadId i) ≠ requestQueueName
  replyQueueName_injective : Function.Injective fun i => (client i).replyQueueName (threadId i)
  readsRequests : ∀ i, transport.core.Reads (client i).core.protocolVersion (client i).core.defaultSerializer
  readsResponses : ∀ i, (client i).core.Reads (client i).core.protocolVersion (client i).core.defaultSerializer
  readsReplacements : ∀ i, (client i).core.Reads transport.core.protocolVersion transport.core.defaultSerializer
  serverTries : 0 ≤ transport.core.queueFullRetries
  clientTries : ∀ i, 0 ≤ (client i).core.queueFullRetries

/-- The frames in the queues of Redis, the transports of the clients and what the actions of the server use. -/
structure GatewayState (ι σ : Type) where
  queues : String → List Bytes := fun _ => []
  clients : ι → RedisClientTransport
  world : σ

/-- The same with whole messages in the queues of a broker, and a record of all that have been sent. -/
structure BrokerState (ι σ : Type) where
  queues : String → List ReceivedMessage := fun _ => []
  sent : List SentMessage := []
  clients : ι → RedisClientTransport
  world : σ

/-- All messages that have been sent can be told from their frames. -/
def BrokerState.Legible {ι σ : Type} (t : BrokerState ι σ) : Prop := ∀ m ∈ t.sent, m.Legible

/-- What happens next. Each push sets the time to live of the key of the queue, so that this is gone with all its
frames when nothing has been pushed for that long. -/
inductive GatewayOp (ι : Type)
  | sendRequest (i : ι) (requestId : Value) (entries : Dict) (body : Value) (messageExpiryInSeconds : Option ℤ)
  | handleNextRequest
  | receiveResponse (i : ι)
  | expire (key : String)

/-- What a step returns or raises; the server besides says what it has sent. -/
inductive GatewayOutcome
  | sent (result : Except Exc Unit)
  | handled (result : Except Exc Unit) (responses : List (Value × Value))
  | received (result : Except Exc ReceivedMessage)
  | expired

namespace Gateway
variable {ι σ : Type} (g : Gateway ι σ)

def requestKey : String := "pysoa:" ++ g.requestQueueName

def replyKey (i : ι) : String := "pysoa:" ++ (g.client i).replyQueueName (g.threadId i)

section steps
variable [DecidableEq ι]

def start (w : σ) : GatewayState ι σ where
  clients := g.client
  world := w

/-- One step at the times that the clock gives. -/
def step (s : GatewayState ι σ) : (ℕ → ℚ) × GatewayOp ι → GatewayOutcome × GatewayState ι σ
  | (clock, .sendRequest i requestId entries body messageExpiryInSeconds) =>
    let out := (s.clients i).sendRequestMessage (g.threadId i) requestId { entries } body messageExpiryInSeconds
      (.ofQueue s.queues (g.replyKey i) clock)
    (.sent out.1, { s with
      queues := out.2.2.settle s.queues (g.replyKey i)
      clients := Function.update s.clients i out.2.1 })
  | (clock, .handleNextRequest) =>
    let handled := (g.server.lift RedisIo).handleNextRequest (g.transport.toServerTransport σ)
      (s.world, .ofQueue s.queues g.requestKey clock)
    (.handled handled.result handled.sent, { s with
      queues := handled.world.2.settle s.queues g.requestKey
      world := handled.world.1 })
  | (clock, .receiveResponse i) =>
    let out := (s.clients i).receiveResponseMessage (.ofQueue s.queues (g.replyKey i) clock)
    (.received out.1, { s with
      queues := out.2.2.settle s.queues (g.replyKey i)
      clients := Function.update s.clients i out.2.1 })
  | (_, .expire key) => (.expired, { s with queues := Function.update s.queues key [] })

/-- The transport of the server over the broker. -/
def brokerTransport : ServerTransport (σ × Broker) where
  receiveRequestMessage w :=
    let out := g.transport.core.receiveFromBroker g.requestKey w.2
    (out.1, w.1, out.2)
  sendResponseMessage requestId metaDict body w :=
    match metaDict.entries.get? "reply_to" with
    | none => (.error (.invalidMessageError "Missing reply queue name"), metaDict, w)
    | some (.text queueName) =>
      let out := g.transport.core.sendToBroker queueName requestId metaDict body none w.2
      (out.1, out.2.1, w.1, out.2.2)
    | some _ => (.error (.typeError "must be str"), metaDict, w)

def brokerStart (w : σ) : BrokerState ι σ where
  clients := g.client
  world := w

/-- The same step over the broker, which loses the messages of a queue whose key expires. -/
def brokerStep (s : BrokerState ι σ) : (ℕ → ℚ) × GatewayOp ι → GatewayOutcome × BrokerState ι σ
  | (clock, .sendRequest i requestId entries body messageExpiryInSeconds) =>
    let transport := s.clients i
    let metaDict : Meta := { entries := entries.set "reply_to" (.text (transport.replyQueueName (g.threadId i))) }
    let out := transport.core.sendToBroker transport.sendQueueName requestId metaDict body messageExpiryInSeconds
      { queues := s.queues, sent := s.sent, clock }
    (.sent out.1, { s with
      queues := out.2.2.queues
      sent := out.2.2.sent
      clients := Function.update s.clients i (transport.afterSending out.1) })
  | (clock, .handleNextRequest) =>
    let handled := (g.server.lift Broker).handleNextRequest g.brokerTransport
      (s.world, { queues := s.queues, sent := s.sent, clock })
    (.handled handled.result handled.sent, { s with
      queues := handled.world.2.queues
      sent := handled.world.2.sent
      world := handled.world.1 })
  | (clock, .receiveResponse i) =>
    let transport := s.clients i
    if 0 < transport.requestsOutstanding then
      let out := transport.core.receiveFromBroker (g.replyKey i) { queues := s.queues, sent := s.sent, clock }
      (.received out.1, { s with
        queues := out.2.queues
        clients := Function.update s.clients i (transport.afterReceiving out.1) })
    else (.received (.ok .empty), { s with
      clients := Function.update s.clients i { transport with previousErrorWasTransportProblem := false } })
  | (_, .expire key) => (.expired, { s with queues := Function.update s.queues key [] })

end steps

/-- Who reads from the queue. -/
def readers (key : String) : Set RedisTransportCore :=
  {core | key = g.requestKey ∧ core = g.transport.core ∨ ∃ i, key = g.replyKey i ∧ core = (g.client i).core}

/-- The meta dict is that of a request of one of the clients: the response goes to this client and is framed as it
reads it. -/
def Answerable (metaDict : Meta) : Prop :=
  ∃ i, metaDict.entries.get? "reply_to" = some (.text ((g.client i).replyQueueName (g.threadId i))) ∧
    (metaDict.protocolVersion = some (g.client i).core.protocolVersion ∧
        metaDict.serializer = some (g.client i).core.defaultSerializer ∨
      metaDict.protocolVersion = none ∧ metaDict.serializer = none)

/-- Redis holds what the broker does, if all messages are legible, and all requests in it come from clients. -/
structure Related (s : GatewayState ι σ) (t : BrokerState ι σ) : Prop where
  clients_eq : s.clients = t.clients
  world_eq : s.world = t.world
  sameClient : ∀ i, (t.clients i).SameClient (g.client i)
  answerable : ∀ received ∈ t.queues g.requestKey, g.Answerable received.metaDict
  queued : t.Legible → ∀ key, Queued (g.readers key) (s.queues key) (t.queues key)

lemma replyKey_ne (i : ι) : g.replyKey i ≠ g.requestKey := by
  intro h
  exact g.replyQueueName_ne i (by simpa [replyKey, requestKey] using h)

lemma replyKey_injective : Function.Injective g.replyKey := by
  intro i j h
  exact g.replyQueueName_injective (by simpa [replyKey] using h)

lemma mem_readers_requestKey {core : RedisTransportCore} :
    core ∈ g.readers g.requestKey ↔ core = g.transport.core := by
  constructor
  · rintro (⟨-, h⟩ | ⟨i, h, -⟩)
    · exact h
    · exact absurd h.symm (g.replyKey_ne i)
  · rintro rfl
    exact .inl ⟨rfl, rfl⟩

lemma mem_readers_replyKey {core : RedisTransportCore} {i : ι} :
    core ∈ g.readers (g.replyKey i) ↔ core = (g.client i).core := by
  constructor
  · rintro (⟨h, -⟩ | ⟨j, h, hcore⟩)
    · exact absurd h (g.replyKey_ne i)
    · rw [g.replyKey_injective h]
      exact hcore
  · rintro rfl
    exact .inr ⟨i, rfl, rfl⟩

end Gateway

namespace RedisClientTransport
variable (transport : RedisClientTransport)

lemma sendRequestMessage_eq (threadId : String) (requestId : Value) (metaDict : Meta) (body : Value)
    (expiry : Option ℤ) (io : RedisIo) :
    transport.sendRequestMessage threadId requestId metaDict body expiry io =
      let metaDict := { metaDict with
        entries := metaDict.entries.set "reply_to" (.text (transport.replyQueueName threadId)) }
      let out := transport.core.sendMessage transport.sendQueueName requestId metaDict body expiry io
      (out.1, transport.afterSending out.1, out.2.2) := by
  unfold sendRequestMessage replyQueueName
  dsimp only
  generalize transport.core.sendMessage _ _ _ _ _ _ = out
  obtain ⟨result, metaDict', io'⟩ := out
  cases result with
  | ok u => rfl
  | error e => rfl

lemma receiveResponseMessage_eq (h : 0 < transport.requestsOutstanding) (io : RedisIo) :
    transport.receiveResponseMessage io =
      let out := transport.core.receiveMessage io
      (out.1, transport.afterReceiving out.1, out.2) := by
  unfold receiveResponseMessage afterReceiving
  rw [if_pos h]
  generalize transport.core.receiveMessage io = out
  obtain ⟨result, io'⟩ := out
  cases result with
  | ok received => rfl
  | error e =>
    dsimp only
    split_ifs <;> rfl

variable {transport}

lemma SameClient.afterSending {transport' : RedisClientTransport} (h : transport.SameClient transport')
    (result : Except Exc Unit) : (transport.afterSending result).SameClient transport' := by
  obtain ⟨hcore, hsend, hreceive⟩ := h
  cases result with
  | ok u => exact ⟨hcore, hsend, hreceive⟩
  | error e =>
    unfold RedisClientTransport.afterSending
    dsimp only
    split_ifs <;> exact ⟨hcore, hsend, hreceive⟩

lemma SameClient.afterReceiving {transport' : RedisClientTransport} (h : transport.SameClient transport')
    (result : Except Exc ReceivedMessage) : (transport.afterReceiving result).SameClient transport' := by
  obtain ⟨hcore, hsend, hreceive⟩ := h
  cases result with
  | ok received => exact ⟨hcore, hsend, hreceive⟩
  | error e =>
    unfold RedisClientTransport.afterReceiving
    dsimp only
    split_ifs <;> exact ⟨hcore, hsend, hreceive⟩

lemma SameClient.replyQueueName {transport' : RedisClientTransport} (h : transport.SameClient transport')
    (threadId : String) : transport.replyQueueName threadId = transport'.replyQueueName threadId :=
  congrArg (· ++ threadId) h.receiveQueueName_eq

end RedisClientTransport

namespace Dict

lemma get?_erase_of_ne (d : Dict) {key key' : String} (h : key' ≠ key) :
    (d.erase key).get? key' = d.get? key' := by
  induction d with
  | nil => rfl
  | cons kv d ih =>
    obtain ⟨k, v⟩ := kv
    by_cases hk : k = .text key
    · subst hk
      simpa [erase, get?, h.symm] using ih
    · have herase : erase ((k, v) :: d) key = (k, v) :: erase d key := by simp [erase, hk]
      rw [herase, get?, get?, ih]

end Dict

namespace RedisTransportCore
variable (core : RedisTransportCore) (queueName : String) (requestId : Value) (metaDict : Meta) (body : Value)
  (expiry : Option ℤ) (b : Broker)

/-- What sending does to the broker. -/
lemma sendToBroker_cases :
    let out := core.sendToBroker queueName requestId metaDict body expiry b
    let entries := metaDict.entries.set "__expiry__" (.float (core.messageExpiry expiry b.now))
    let protocolVersion := metaDict.protocolVersion.getD core.protocolVersion
    let serializer := metaDict.serializer.getD core.defaultSerializer
    (∃ e, out = (.error e, metaDict, b)) ∨ (∃ e, out = (.error e, { entries }, b.tick)) ∨
      out = (.ok (), { entries }, b.tick.put ("pysoa:" ++ queueName)
        (opened protocolVersion serializer requestId entries body)
        ⟨core, serializer, envelope requestId entries body⟩) := by
  unfold sendToBroker
  cases requestId.isNone with
  | true => exact .inl ⟨_, rfl⟩
  | false =>
    right
    simp only [Bool.false_eq_true, if_false]
    split
    · next e _ => exact .inl ⟨e, rfl⟩
    · exact .inr rfl

variable {queueName} in
lemma queues_sendToBroker_of_ne {key : String} (h : key ≠ "pysoa:" ++ queueName) :
    (core.sendToBroker queueName requestId metaDict body expiry b).2.2.queues key = b.queues key := by
  obtain ⟨e, hout⟩ | ⟨e, hout⟩ | hout := core.sendToBroker_cases queueName requestId metaDict body expiry b
  · rw [hout]
  · rw [hout]
    rfl
  · rw [hout]
    exact b.tick.queues_put_of_ne _ _ h

lemma mem_sent_sendToBroker {m : SentMessage} (hm : m ∈ b.sent) :
    m ∈ (core.sendToBroker queueName requestId metaDict body expiry b).2.2.sent := by
  obtain ⟨e, hout⟩ | ⟨e, hout⟩ | hout := core.sendToBroker_cases queueName requestId metaDict body expiry b
  · rw [hout]
    exact hm
  · rw [hout]
    exact hm
  · rw [hout]
    exact List.mem_append_left _ hm

variable (key : String)

@[simp] lemma sent_receiveFromBroker : (core.receiveFromBroker key b).2.sent = b.sent := by
  unfold receiveFromBroker
  split <;> rfl

variable {key b}

lemma mem_of_mem_receiveFromBroker {key' : String} {received : ReceivedMessage}
    (h : received ∈ (core.receiveFromBroker key b).2.queues key') : received ∈ b.queues key' := by
  unfold receiveFromBroker at h
  split at h
  · exact h
  · next first rest hqueue =>
    by_cases hkey : key' = key
    · subst hkey
      dsimp only at h
      rw [Function.update_self] at h
      rw [hqueue]
      exact List.mem_cons_of_mem _ h
    · dsimp only at h
      rw [Function.update_of_ne hkey] at h
      exact h

/-- The queue for the response is received as it was sent. -/
lemma replyTo_opened (protocolVersion : ProtocolVersion) (serializer : Serializer) (requestId replyTo expiry : Value)
    (entries : Dict) (body : Value) :
    (opened protocolVersion serializer requestId ((entries.set "reply_to" replyTo).set "__expiry__" expiry)
      body).metaDict.entries.get? "reply_to" = some replyTo := by
  unfold opened
  dsimp only
  rw [Dict.get?_erase_of_ne _ (by decide), Dict.get?_erase_of_ne _ (by decide),
    Dict.get?_set_of_ne _ _ (by decide), Dict.get?_set_self]

/-- What is received has waited in the queue. -/
lemma mem_of_receiveFromBroker {received : ReceivedMessage}
    (h : (core.receiveFromBroker key b).1 = .ok received) : received ∈ b.queues key := by
  unfold receiveFromBroker at h
  split at h
  · cases h
  · next first rest hqueue =>
    unfold unlessExpired at h
    split at h
    · cases h
    · cases h
    · cases h
      rw [hqueue]
      exact List.mem_cons_self

end RedisTransportCore

namespace Gateway
variable {ι σ : Type} (g : Gateway ι σ) {queues : String → List Bytes}

/-- What is sent for a request is received as an answerable request. -/
lemma answerable_opened (i : ι) (requestId : Value) (entries : Dict) (body expiry : Value) :
    g.Answerable (RedisTransportCore.opened (g.client i).core.protocolVersion (g.client i).core.defaultSerializer
      requestId ((entries.set "reply_to" (.text ((g.client i).replyQueueName (g.threadId i)))).set "__expiry__"
        expiry) body).metaDict :=
  ⟨i, RedisTransportCore.replyTo_opened .., .inl ⟨rfl, rfl⟩⟩

/-- Redis during the handling of a request. -/
def Handling (queues : String → List Bytes) (io : RedisIo) (b : Broker) : Prop :=
  RedisIo.Mirrors g.readers queues g.requestKey io b ∧
    ∀ received ∈ b.queues g.requestKey, g.Answerable received.metaDict

/-- The client reads its responses, be they framed as its request was or as the server frames by itself. -/
lemma reads_reply {metaDict : Meta} {i : ι} (h : metaDict.protocolVersion = some (g.client i).core.protocolVersion ∧
      metaDict.serializer = some (g.client i).core.defaultSerializer ∨
    metaDict.protocolVersion = none ∧ metaDict.serializer = none) :
    ∀ receiver ∈ g.readers (g.replyKey i),
      receiver.Reads (metaDict.protocolVersion.getD g.transport.core.protocolVersion)
        (metaDict.serializer.getD g.transport.core.defaultSerializer) ∧
      (g.transport.core.isServer = true → receiver.isServer = false) := by
  intro receiver hreceiver
  rw [g.mem_readers_replyKey.mp hreceiver]
  refine ⟨?_, fun _ => (g.client i).isClient⟩
  obtain ⟨hversion, hserializer⟩ | ⟨hversion, hserializer⟩ := h
  · rw [hversion, hserializer]
    exact g.readsResponses i
  · rw [hversion, hserializer]
    exact g.readsReplacements i

/-- The server sends responses to Redis as it does to the broker. -/
lemma sendAlike (queues : String → List Bytes) :
    SendAlike (g.Handling queues) g.Answerable (g.transport.toServerTransport σ) g.brokerTransport := by
  rintro metaDict io b ⟨i, hreply, hframing⟩ ⟨hmirrors, hrequests⟩ requestId body s
  obtain ⟨hresult, hmeta, hmirrors'⟩ :=
    g.transport.core.sendMessage_mirrors hmirrors g.serverTries _ metaDict (g.reads_reply hframing) requestId body none
  have hconcrete : (g.transport.toServerTransport σ).sendResponseMessage requestId metaDict body (s, io) =
      let out := g.transport.core.sendMessage ((g.client i).replyQueueName (g.threadId i)) requestId metaDict body
        none io
      (out.1, out.2.1, s, out.2.2) := by
    unfold RedisServerTransport.toServerTransport RedisServerTransport.sendResponseMessage
    simp only [hreply]
  have hbroker : g.brokerTransport.sendResponseMessage requestId metaDict body (s, b) =
      let out := g.transport.core.sendToBroker ((g.client i).replyQueueName (g.threadId i)) requestId metaDict body
        none b
      (out.1, out.2.1, s, out.2.2) := by
    unfold brokerTransport
    simp only [hreply]
  have hcases := g.transport.core.sendToBroker_cases ((g.client i).replyQueueName (g.threadId i)) requestId metaDict
    body none b
  have hqueue := g.transport.core.queues_sendToBroker_of_ne requestId metaDict body none b (g.replyKey_ne i).symm
  rw [hconcrete, hbroker]
  dsimp only at hresult hmeta hmirrors' hcases ⊢
  generalize g.transport.core.sendMessage _ requestId metaDict body none io = out at hresult hmeta hmirrors' ⊢
  generalize g.transport.core.sendToBroker _ requestId metaDict body none b = out'
    at hresult hmeta hmirrors' hcases hqueue ⊢
  obtain ⟨result, metaDict', io'⟩ := out
  obtain ⟨result', metaDict'', b'⟩ := out'
  cases hresult
  cases hmeta
  refine ⟨result, metaDict', io', b', ?_, ⟨hmirrors', ?_⟩, rfl, rfl⟩
  · have hnext : g.Answerable
        { entries := metaDict.entries.set "__expiry__" (.float (g.transport.core.messageExpiry none b.now)) } :=
      ⟨i, by rw [← hreply, Dict.get?_set_of_ne _ _ (by decide)], .inr ⟨rfl, rfl⟩⟩
    obtain ⟨e, h⟩ | ⟨e, h⟩ | h := hcases
    · cases h
      exact ⟨i, hreply, hframing⟩
    · cases h
      exact hnext
    · cases h
      exact hnext
  · dsimp only at hqueue
    rw [hqueue]
    exact hrequests

variable {g}

/-- The server handles a request from Redis as it does one from the broker. -/
lemma handleNextRequest_alike {io : RedisIo} {b : Broker} (h : g.Handling queues io b) (hpushed : io.pushed = [])
    (hlegible : ∀ m ∈ b.sent, m.Legible) (w : σ) :
    HandledAlike (g.Handling queues)
      ((g.server.lift RedisIo).handleNextRequest (g.transport.toServerTransport σ) (w, io))
      ((g.server.lift Broker).handleNextRequest g.brokerTransport (w, b)) := by
  obtain ⟨hmirrors, hrequests⟩ := h
  obtain ⟨hresult, hmirrors'⟩ := g.transport.core.receiveMessage_mirrors hmirrors
    (g.mem_readers_requestKey.mpr rfl) hpushed hlegible
  have hreceive : (g.transport.toServerTransport σ).receiveRequestMessage (w, io) =
      ((g.transport.core.receiveFromBroker g.requestKey b).1, w, (g.transport.core.receiveMessage io).2) :=
    congrArg (fun result => (result, w, (g.transport.core.receiveMessage io).2)) hresult
  apply Server.handleNextRequest_alike g.server (g.sendAlike queues) hreceive rfl
  · intro received hreceived
    exact hrequests received (g.transport.core.mem_of_receiveFromBroker hreceived)
  · refine ⟨hmirrors', ?_⟩
    intro received hreceived
    exact hrequests received (g.transport.core.mem_of_mem_receiveFromBroker hreceived)

/-- Handling a request, the server takes nothing back that has been sent. -/
lemma mem_sent_handleNextRequest (b : Broker) (w : σ) {m : SentMessage} (hm : m ∈ b.sent) :
    m ∈ ((g.server.lift Broker).handleNextRequest g.brokerTransport (w, b)).world.2.sent := by
  have hsend : SendAlike (fun b b' : Broker => b = b' ∧ m ∈ b.sent) (fun _ => True) g.brokerTransport
      g.brokerTransport := by
    rintro metaDict b _ - ⟨rfl, hm⟩ requestId body s
    have hcases : ∃ result metaDict' b', m ∈ Broker.sent b' ∧
        g.brokerTransport.sendResponseMessage requestId metaDict body (s, b) = (result, metaDict', s, b') := by
      unfold brokerTransport
      dsimp only
      split
      · exact ⟨_, _, _, hm, rfl⟩
      · exact ⟨_, _, _, g.transport.core.mem_sent_sendToBroker _ _ _ _ _ _ hm, rfl⟩
      · exact ⟨_, _, _, hm, rfl⟩
    obtain ⟨result, metaDict', b', hm', hsend⟩ := hcases
    exact ⟨result, metaDict', b', b', trivial, ⟨rfl, hm'⟩, hsend, hsend⟩
  have hreceive : g.brokerTransport.receiveRequestMessage (w, b) =
      ((g.transport.core.receiveFromBroker g.requestKey b).1, w,
        (g.transport.core.receiveFromBroker g.requestKey b).2) := rfl
  have hkept : m ∈ (g.transport.core.receiveFromBroker g.requestKey b).2.sent := by
    rw [g.transport.core.sent_receiveFromBroker]
    exact hm
  exact (Server.handleNextRequest_alike g.server hsend hreceive hreceive (fun _ _ => trivial) ⟨rfl, hkept⟩).related.2

section steps
variable [DecidableEq ι]

lemma mem_sent_brokerStep (t : BrokerState ι σ) (op : (ℕ → ℚ) × GatewayOp ι) {m : SentMessage} (hm : m ∈ t.sent) :
    m ∈ (g.brokerStep t op).2.sent := by
  obtain ⟨clock, op⟩ := op
  cases op with
  | sendRequest i requestId entries body expiry =>
    exact (t.clients i).core.mem_sent_sendToBroker _ _ _ _ _ { queues := t.queues, sent := t.sent, clock } hm
  | handleNextRequest => exact mem_sent_handleNextRequest _ _ hm
  | receiveResponse i =>
    unfold brokerStep
    dsimp only
    split_ifs <;> exact hm
  | expire key => exact hm

lemma legible_of_brokerStep {t : BrokerState ι σ} {op : (ℕ → ℚ) × GatewayOp ι} (h : (g.brokerStep t op).2.Legible) :
    t.Legible := fun m hm => h m (mem_sent_brokerStep t op hm)

lemma sameClient_update {clients : ι → RedisClientTransport} (h : ∀ j, (clients j).SameClient (g.client j)) {i : ι}
    {transport : RedisClientTransport} (htransport : transport.SameClient (g.client i)) (j : ι) :
    (Function.update clients i transport j).SameClient (g.client j) := by
  by_cases hj : j = i
  · subst hj
    rw [Function.update_self]
    exact htransport
  · rw [Function.update_of_ne hj]
    exact h j

omit [DecidableEq ι] in
lemma requestKey_of_sameClient {transport : RedisClientTransport} {i : ι} (h : transport.SameClient (g.client i)) :
    "pysoa:" ++ transport.sendQueueName = g.requestKey := by
  rw [h.sendQueueName_eq, g.sendQueueName_eq i]
  rfl

section related
variable {s : GatewayState ι σ} {t : BrokerState ι σ}

/-- Sending a request keeps Redis and the broker alike. -/
lemma Related.sendRequest (h : g.Related s t) (clock : ℕ → ℚ) (i : ι) (requestId : Value) (entries : Dict)
    (body : Value) (expiry : Option ℤ) :
    let op : (ℕ → ℚ) × GatewayOp ι := (clock, .sendRequest i requestId entries body expiry)
    (g.step s op).1 = (g.brokerStep t op).1 ∧ g.Related (g.step s op).2 (g.brokerStep t op).2 := by
  obtain ⟨queues, clients, w⟩ := s
  obtain ⟨rfl, rfl, hsame, hrequests, hqueued⟩ := h
  have hcore := (hsame i).core_eq
  have hkey := requestKey_of_sameClient (hsame i)
  have hreaders : ∀ receiver ∈ g.readers ("pysoa:" ++ (t.clients i).sendQueueName),
      receiver.Reads (t.clients i).core.protocolVersion (t.clients i).core.defaultSerializer ∧
      ((t.clients i).core.isServer = true → receiver.isServer = false) := by
    rw [hkey, hcore]
    intro receiver hreceiver
    rw [g.mem_readers_requestKey.mp hreceiver]
    refine ⟨g.readsRequests i, fun hserver => ?_⟩
    rw [(g.client i).isClient] at hserver
    cases hserver
  have htries : 0 ≤ (t.clients i).core.queueFullRetries := by
    rw [hcore]
    exact g.clientTries i
  obtain ⟨hresult, -, hmirrors⟩ := (t.clients i).core.sendMessage_mirrors
    (.ofQueue hqueued (g.replyKey i) clock) htries (t.clients i).sendQueueName
    { entries := entries.set "reply_to" (.text ((t.clients i).replyQueueName (g.threadId i))) } hreaders requestId
    body expiry
  have hcases := (t.clients i).core.sendToBroker_cases (t.clients i).sendQueueName requestId
    { entries := entries.set "reply_to" (.text ((t.clients i).replyQueueName (g.threadId i))) } body expiry
    { queues := t.queues, sent := t.sent, clock }
  unfold Gateway.step brokerStep
  dsimp only at hresult hmirrors hcases ⊢
  rw [RedisClientTransport.sendRequestMessage_eq]
  dsimp only
  rw [hresult]
  refine ⟨rfl, rfl, rfl, sameClient_update hsame ((hsame i).afterSending _), ?_, hmirrors.queued⟩
  rw [hkey] at hcases
  obtain ⟨e, hout⟩ | ⟨e, hout⟩ | hout := hcases
  · rw [hout]
    exact hrequests
  · rw [hout]
    exact hrequests
  · rw [hout]
    dsimp only
    rw [Broker.queues_put_self, List.forall_mem_append]
    refine ⟨hrequests, List.forall_mem_singleton.mpr ?_⟩
    rw [(hsame i).replyQueueName, hcore]
    exact g.answerable_opened i requestId entries body _

/-- Handling a request does. -/
lemma Related.handleNextRequest (h : g.Related s t) (hlegible : t.Legible) (clock : ℕ → ℚ) :
    let op : (ℕ → ℚ) × GatewayOp ι := (clock, .handleNextRequest)
    (g.step s op).1 = (g.brokerStep t op).1 ∧ g.Related (g.step s op).2 (g.brokerStep t op).2 := by
  obtain ⟨queues, clients, w⟩ := s
  obtain ⟨rfl, rfl, hsame, hrequests, hqueued⟩ := h
  have halike := handleNextRequest_alike ⟨.ofQueue hqueued g.requestKey clock, hrequests⟩ rfl hlegible t.world
  exact ⟨congrArg₂ GatewayOutcome.handled halike.result_eq halike.sent_eq, rfl, halike.world_eq, hsame,
    halike.related.2, halike.related.1.queued⟩

/-- So does receiving a response. -/
lemma Related.receiveResponse (h : g.Related s t) (hlegible : t.Legible) (clock : ℕ → ℚ) (i : ι) :
    let op : (ℕ → ℚ) × GatewayOp ι := (clock, .receiveResponse i)
    (g.step s op).1 = (g.brokerStep t op).1 ∧ g.Related (g.step s op).2 (g.brokerStep t op).2 := by
  obtain ⟨queues, clients, w⟩ := s
  obtain ⟨rfl, rfl, hsame, hrequests, hqueued⟩ := h
  unfold Gateway.step brokerStep
  dsimp only
  by_cases hpos : 0 < (t.clients i).requestsOutstanding
  · rw [if_pos hpos, RedisClientTransport.receiveResponseMessage_eq _ hpos]
    have hreads : (t.clients i).core ∈ g.readers (g.replyKey i) := g.mem_readers_replyKey.mpr (hsame i).core_eq
    obtain ⟨hresult, hmirrors⟩ := (t.clients i).core.receiveMessage_mirrors
      (.ofQueue hqueued (g.replyKey i) clock) hreads rfl hlegible
    dsimp only at hresult hmirrors ⊢
    rw [hresult]
    refine ⟨rfl, rfl, rfl, sameClient_update hsame ((hsame i).afterReceiving _), ?_, ?_⟩
    · intro received hreceived
      exact hrequests received ((t.clients i).core.mem_of_mem_receiveFromBroker hreceived)
    · intro hlegible'
      apply hmirrors.queued
      rw [RedisTransportCore.sent_receiveFromBroker]
      exact hlegible'
  · rw [if_neg hpos]
    have hempty : (t.clients i).receiveResponseMessage (.ofQueue queues (g.replyKey i) clock) =
        (.ok .empty, { t.clients i with previousErrorWasTransportProblem := false },
          .ofQueue queues (g.replyKey i) clock) := by
      unfold RedisClientTransport.receiveResponseMessage
      rw [if_neg hpos]
    rw [hempty]
    dsimp only
    rw [RedisIo.settle_ofQueue]
    obtain ⟨hcore, hsend, hreceive⟩ := hsame i
    exact ⟨rfl, rfl, rfl, sameClient_update hsame ⟨hcore, hsend, hreceive⟩, hrequests, hqueued⟩

/-- So does the expiry of a key: a queue without frames is one without messages. -/
lemma Related.expire (h : g.Related s t) (clock : ℕ → ℚ) (key : String) :
    let op : (ℕ → ℚ) × GatewayOp ι := (clock, .expire key)
    (g.step s op).1 = (g.brokerStep t op).1 ∧ g.Related (g.step s op).2 (g.brokerStep t op).2 := by
  refine ⟨rfl, h.clients_eq, h.world_eq, h.sameClient, ?_, ?_⟩
  · intro received hreceived
    apply h.answerable received
    change received ∈ Function.update t.queues key [] g.requestKey at hreceived
    by_cases hkey : g.requestKey = key
    · rw [hkey, Function.update_self] at hreceived
      cases hreceived
    · rwa [Function.update_of_ne hkey] at hreceived
  · intro hlegible key'
    change Queued (g.readers key') (Function.update s.queues key [] key') (Function.update t.queues key [] key')
    by_cases hkey : key' = key
    · rw [hkey, Function.update_self, Function.update_self]
      exact .nil _
    · rw [Function.update_of_ne hkey, Function.update_of_ne hkey]
      exact h.queued hlegible key'

/-- One step over Redis is the step over the broker, as long as what is sent is legible. -/
lemma Related.step (h : g.Related s t) (op : (ℕ → ℚ) × GatewayOp ι) (hlegible : (g.brokerStep t op).2.Legible) :
    (g.step s op).1 = (g.brokerStep t op).1 ∧ g.Related (g.step s op).2 (g.brokerStep t op).2 := by
  obtain ⟨clock, op⟩ := op
  cases op with
  | sendRequest i requestId entries body expiry => exact h.sendRequest clock i requestId entries body expiry
  | handleNextRequest => exact h.handleNextRequest (legible_of_brokerStep hlegible) clock
  | receiveResponse i => exact h.receiveResponse (legible_of_brokerStep hlegible) clock i
  | expire key => exact h.expire clock key

end related

variable (g)

omit [DecidableEq ι] in
lemma related_start (w : σ) : g.Related (g.start w) (g.brokerStart w) where
  clients_eq := rfl
  world_eq := rfl
  sameClient := fun _ => ⟨rfl, rfl, rfl⟩
  answerable := fun received hreceived => by cases hreceived
  queued := fun _ key => .nil (g.readers key)

lemma simulates_broker (w : σ) {ops : List ((ℕ → ℚ) × GatewayOp ι)}
    (hlegible : (Runs.outputs g.brokerStep (g.brokerStart w) ops).2.Legible) :
    (Runs.outputs g.step (g.start w) ops).1 = (Runs.outputs g.brokerStep (g.brokerStart w) ops).1 ∧
      g.Related (Runs.outputs g.step (g.start w) ops).2 (Runs.outputs g.brokerStep (g.brokerStart w) ops).2 :=
  Runs.outputs_eq_of_simulation (fun _ _ => legible_of_brokerStep) (fun _ _ op h hok => h.step op hok)
    (g.related_start w) hlegible

/-- The clients and the server cannot tell Redis from a broker of whole messages: in whatever order they take
their steps and keys expire, each step returns and raises what it does over the broker, as long as every message
that is sent can be told from its frames. -/
theorem outcomes_eq_broker (w : σ) {ops : List ((ℕ → ℚ) × GatewayOp ι)}
    (hlegible : (Runs.outputs g.brokerStep (g.brokerStart w) ops).2.Legible) :
    (Runs.outputs g.step (g.start w) ops).1 = (Runs.outputs g.brokerStep (g.brokerStart w) ops).1 ∧
      (Runs.outputs g.step (g.start w) ops).2.world = (Runs.outputs g.brokerStep (g.brokerStart w) ops).2.world := by
  obtain ⟨houts, hend⟩ := g.simulates_broker w hlegible
  exact ⟨houts, hend.world_eq⟩

end steps

/-! A client that sends one request, and the messages that travel for it. -/

def exampleMetaDict : Dict :=
  [(.text "reply_to", .text "service.example.0!main"), (.text "__expiry__", .float 60)]

def exampleRequestEnvelope : Value :=
  RedisTransportCore.envelope (.int 1) exampleMetaDict (.dict (Server.exampleRequest ["greet"]))

/-- The response that the server sends. -/
def exampleResponseBody : Value :=
  .dict [(.text "errors", .list []), (.text "context", .dict [(.text "correlation_id", .text "1")]),
    (.text "actions", .list [.dict [(.text "action", .text "greet"), (.text "errors", .list []),
      (.text "body", .dict [])]])]

def exampleEnvelopes : List Value :=
  [exampleRequestEnvelope, RedisTransportCore.envelope (.int 1) exampleMetaDict exampleResponseBody]

/-- The JSON serializer, which is to read the two messages. -/
def exampleSerializer : Serializer := PlainJson.serializer exampleEnvelopes

lemma reads_exampleSerializer {core : RedisTransportCore} (h : core.serializers = .ofList [exampleSerializer]) :
    core.Reads .version3 exampleSerializer where
  mimeType_ne_nil := by decide
  isHeaderValue := by decide +kernel
  serializerFor_eq := by
    unfold RedisTransportCore.serializerFor
    rw [h]
    rfl

def exampleGateway : Gateway Unit (List String) where
  server := Server.exampleServer
  transport := { core := .chunkingServer exampleSerializer "example", isServer := rfl }
  requestQueueName := "service.example"
  client _ := {
    core := .defaultClient exampleSerializer "example"
    sendQueueName := "service.example"
    receiveQueueName := "service.example.0!"
    isClient := rfl }
  threadId _ := "main"
  sendQueueName_eq _ := rfl
  replyQueueName_ne _ := by decide
  replyQueueName_injective _ _ _ := rfl
  readsRequests _ := reads_exampleSerializer rfl
  readsResponses _ := reads_exampleSerializer rfl
  readsReplacements _ := reads_exampleSerializer rfl
  serverTries := by decide
  clientTries _ := by decide

def exampleOps : List ((ℕ → ℚ) × GatewayOp Unit) :=
  [(fun _ => 0, .sendRequest () (.int 1) [] (.dict (Server.exampleRequest ["greet"])) none),
    (fun _ => 0, .handleNextRequest), (fun _ => 0, .receiveResponse ())]

set_option maxRecDepth 100000 in
lemma sent_exampleOps :
    (Runs.outputs exampleGateway.brokerStep (exampleGateway.brokerStart []) exampleOps).2.sent =
      [⟨.defaultClient exampleSerializer "example", exampleSerializer, exampleRequestEnvelope⟩,
        ⟨.chunkingServer exampleSerializer "example", exampleSerializer,
          RedisTransportCore.envelope (.int 1) exampleMetaDict exampleResponseBody⟩] := by
  with_unfolding_all rfl

/-- Both messages are short and begin with a brace. -/
lemma legible_of_mem_exampleEnvelopes (core : RedisTransportCore) {message : Value}
    (hmem : message ∈ exampleEnvelopes) : SentMessage.Legible ⟨core, exampleSerializer, message⟩ := by
  intro blob hblob
  have hdumps : PlainJson.dumps message = some blob := by
    unfold exampleSerializer PlainJson.serializer at hblob
    dsimp only at hblob
    split at hblob
    · next blob' hdumps =>
      cases hblob
      exact hdumps
    · cases hblob
  have hall : exampleEnvelopes.all (fun message => (PlainJson.dumps message).all fun blob =>
      blob.head? = some 123 && blob.length ≤ 1000) = true := by decide +kernel
  have hshape := List.all_eq_true.mp hall message hmem
  rw [hdumps, Option.all_some, Bool.and_eq_true, decide_eq_true_eq, decide_eq_true_eq] at hshape
  obtain ⟨hhead, hshort⟩ := hshape
  refine ⟨PlainJson.blobToDict_serializer (by decide +kernel) hmem hdumps, ?_, ?_⟩
  · cases blob with
    | nil => cases hhead
    | cons b blob =>
      cases hhead
      exact ⟨_, _, rfl, rfl⟩
  · rintro ⟨-, hpos, hlong⟩
    have hthreshold := core.threshold_valid
    unfold minimumChunkedMessageBytes at hthreshold
    dsimp only at hpos hlong
    omega

lemma legible_exampleOps :
    (Runs.outputs exampleGateway.brokerStep (exampleGateway.brokerStart []) exampleOps).2.Legible := by
  unfold BrokerState.Legible
  rw [sent_exampleOps]
  intro m hm
  obtain rfl | hm := List.mem_cons.mp hm
  · exact legible_of_mem_exampleEnvelopes _ List.mem_cons_self
  · obtain rfl := List.mem_singleton.mp hm
    exact legible_of_mem_exampleEnvelopes _ (List.mem_cons_of_mem _ (List.mem_singleton_self _))

set_option maxRecDepth 100000 in
/-- The client gets the response of the server. -/
theorem outcomes_eq_broker_exampleOps :
    (Runs.outputs exampleGateway.step (exampleGateway.start []) exampleOps).1.getLast? =
      some (.received (.ok (RedisTransportCore.opened .version3 exampleSerializer (.int 1) exampleMetaDict
        exampleResponseBody))) := by
  rw [(outcomes_eq_broker exampleGateway [] legible_exampleOps).1]
  with_unfolding_all rfl

end Gateway
end PySOA
