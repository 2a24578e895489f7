import Mathlib.Logic.Function.Basic
import PySOA.RedisGateway.ListKey
import PySOA.RedisGateway.Unchunked

/-! Redis as a broker of whole messages: what the frames in its queues stand for, as long as all messages
can be told from their frames. -/
namespace PySOA

/-- A message that has been sent, before it was framed. -/
structure SentMessage where
  core : RedisTransportCore
  serializer : Serializer
  message : Value

/-- A broker as a transport meets it: in its queues whole messages wait. It has a record of all messages that
have been sent. -/
structure Broker where
  queues : String → List ReceivedMessage := fun _ => []
  sent : List SentMessage := []
  clock : ℕ → ℚ := fun _ => 0
  ticks : ℕ := 0

namespace Broker

def now (b : Broker) : ℚ := b.clock b.ticks

def tick (b : Broker) : Broker := { b with ticks := b.ticks+1 }

def put (b : Broker) (key : String) (received : ReceivedMessage) (message : SentMessage) : Broker :=
  { b with
    queues := Function.update b.queues key (b.queues key ++ [received])
    sent := b.sent ++ [message] }

@[simp] lemma queues_put_self (b : Broker) (key : String) (received : ReceivedMessage) (message : SentMessage) :
    (b.put key received message).queues key = b.queues key ++ [received] := Function.update_self ..

lemma queues_put_of_ne (b : Broker) {key key' : String} (received : ReceivedMessage) (message : SentMessage)
    (h : key' ≠ key) : (b.put key received message).queues key' = b.queues key' := Function.update_of_ne h ..

end Broker

namespace RedisTransportCore
variable (core : RedisTransportCore)

/-- The blob is cut in chunks. -/
def Cuts (blob : Bytes) : Prop :=
  core.isServer = true ∧ 0 < core.chunkMessagesLargerThanBytes ∧
    core.chunkMessagesLargerThanBytes < blob.length

instance (blob : Bytes) : Decidable (core.Cuts blob) := inferInstanceAs (Decidable (_ ∧ _ ∧ _))

/-- The dict of a message that is serialized. -/
def envelope (requestId : Value) (entries : Dict) (body : Value) : Value :=
  .dict [(.text "request_id", requestId), (.text "meta", .dict entries), (.text "body", body)]

/-- The message as it is received, in the version and from the serializer that it was sent in. -/
def opened (protocolVersion : ProtocolVersion) (serializer : Serializer) (requestId : Value) (entries : Dict)
    (body : Value) : ReceivedMessage where
  requestId
  metaDict := {
    entries := (entries.erase "serializer").erase "protocol_version"
    protocolVersion := some protocolVersion
    serializer := some serializer }
  body

/-- The size of a message, if it is not too large to be sent. -/
def checkedSize (protocolVersion : ProtocolVersion) (serializer : Serializer) (message : Value) :
    Except Exc Unit :=
  match serializer.dictToBlob message with
  | .error e => .error e
  | .ok blob =>
    if core.maximumMessageSizeInBytes < blob.length then
      .error (.messageTooLarge blob.length "Message exceeds maximum message size")
    else if core.Cuts blob ∧ ProtocolFeature.chunkedResponses.supportedIn protocolVersion = false then
      .error (.messageTooLarge blob.length "Message exceeds chunking threshold but client does not support chunking")
    else .ok ()

/-- `send_message` to a broker of whole messages. -/
def sendToBroker (queueName : String) (requestId : Value) (metaDict : Meta) (body : Value)
    (messageExpiryInSeconds : Option ℤ) (b : Broker) : Except Exc Unit × Meta × Broker :=
  if requestId.isNone then (.error (.invalidMessageError "No request ID"), metaDict, b)
  else
    let entries := metaDict.entries.set "__expiry__" (.float (core.messageExpiry messageExpiryInSeconds b.now))
    let protocolVersion := metaDict.protocolVersion.getD core.protocolVersion
    let serializer := metaDict.serializer.getD core.defaultSerializer
    match core.checkedSize protocolVersion serializer (envelope requestId entries body) with
    | .error e => (.error e, { entries }, b.tick)
    | .ok () => (.ok (), { entries },
        b.tick.put ("pysoa:" ++ queueName) (opened protocolVersion serializer requestId entries body)
          ⟨core, serializer, envelope requestId entries body⟩)

/-- What comes of a message that is received. -/
def unlessExpired (received : ReceivedMessage) (now : ℚ) : Except Exc ReceivedMessage :=
  match isMessageExpired received.metaDict.entries now with
  | .error e => .error e
  | .ok true => .error (.messageReceiveTimeout ("Message expired for service " ++ core.serviceName))
  | .ok false => .ok received

/-- `receive_message` from a broker of whole messages. -/
def receiveFromBroker (key : String) (b : Broker) : Except Exc ReceivedMessage × Broker :=
  match b.queues key with
  | [] => (.error core.receiveTimeout, b)
  | received :: rest =>
    (core.unlessExpired received b.now, { b.tick with queues := Function.update b.queues key rest })

/-- The core takes a message of the version for one of the serializer. -/
structure Reads (protocolVersion : ProtocolVersion) (serializer : Serializer) : Prop where
  mimeType_ne_nil : serializer.mimeType ≠ []
  isHeaderValue : ∀ b ∈ serializer.mimeType, Bytes.isHeaderValue b = true
  serializerFor_eq : core.serializerFor { contentType :=
    if ProtocolFeature.contentTypeHeader.supportedIn protocolVersion then some serializer.mimeType
      else none } = serializer

end RedisTransportCore

namespace SentMessage

/-- The serializer reads back what it has written, which looks like a dict, and none of the slices begins
with what looks like a header. -/
def Legible (m : SentMessage) : Prop :=
  ∀ blob, m.serializer.dictToBlob m.message = .ok blob →
    m.serializer.blobToDict blob = .ok m.message ∧ IsDictBlob blob ∧
      (m.core.Cuts blob → ∀ i < Slices.count blob.length m.core.chunkMessagesLargerThanBytes.toNat,
        matchHeader (Slices.slice m.core.chunkMessagesLargerThanBytes.toNat i blob) = none)

end SentMessage

namespace RedisTransportCore
variable (core : RedisTransportCore)

/-- Whatever follows the frames, the core takes them for this message. -/
def Reassembles (frames : List Bytes) (received : ReceivedMessage) : Prop :=
  ∀ rest, ∃ r, core.receiveFrames (frames.map .message ++ rest) = (.ok r, rest) ∧
    ∀ now, core.openEnvelope r now = core.unlessExpired received now

lemma openEnvelope_envelope {r : Reassembly} {requestId : Value} {entries : Dict} {body : Value}
    (hid : requestId.isNone = false)
    (hblob : r.serializer.blobToDict r.serializedMessage = .ok (envelope requestId entries body)) (now : ℚ) :
    core.openEnvelope r now =
      core.unlessExpired (opened r.protocolVersion r.serializer requestId entries body) now := by
  unfold openEnvelope
  rw [hblob]
  simp only [envelope, Dict.get?, Key.text.injEq, String.reduceEq, if_false, if_true, Option.getD_some]
  unfold unlessExpired opened
  dsimp only
  cases isMessageExpired ((entries.erase "serializer").erase "protocol_version") now with
  | error e => rfl
  | ok expired =>
    cases expired with
    | true => rfl
    | false => simp [hid]

/-- Either the message cannot be sent, or it is one frame, or it is cut in chunks. -/
lemma serializeCheckAndChunkMessage_cases (protocolVersion : ProtocolVersion) (serializer : Serializer)
    (message : Value) :
    (∃ e, core.checkedSize protocolVersion serializer message = .error e ∧
      core.serializeCheckAndChunkMessage protocolVersion message serializer = .error e) ∨
    core.checkedSize protocolVersion serializer message = .ok () ∧
      ∃ blob, serializer.dictToBlob message = .ok blob ∧
        ((∃ frame, core.serializeCheckAndChunkMessage protocolVersion message serializer = .ok [frame]) ∨
          core.Cuts blob ∧ protocolVersion = .version3 ∧
            core.serializeCheckAndChunkMessage protocolVersion message serializer =
              .ok (chunkFrames serializer core.chunkMessagesLargerThanBytes.toNat blob)) := by
  unfold checkedSize
  cases hblob : serializer.dictToBlob message with
  | error e => exact .inl ⟨e, rfl, by rw [serializeCheckAndChunkMessage, hblob]⟩
  | ok blob =>
    dsimp only
    by_cases hmax : core.maximumMessageSizeInBytes < blob.length
    · rw [if_pos hmax]
      exact .inl ⟨_, rfl, by simp [serializeCheckAndChunkMessage, hblob, hmax]⟩
    · rw [if_neg hmax]
      by_cases hcuts : core.Cuts blob
      · cases hsupported : ProtocolFeature.chunkedResponses.supportedIn protocolVersion with
        | false =>
          rw [if_pos ⟨hcuts, rfl⟩]
          refine .inl ⟨_, rfl, ?_⟩
          unfold Cuts at hcuts
          simp [serializeCheckAndChunkMessage, hblob, hmax, hcuts, hsupported]
        | true =>
          obtain rfl : protocolVersion = .version3 := by
            cases protocolVersion with
            | version3 => rfl
            | _ => cases hsupported
          rw [if_neg (by simp)]
          exact .inr ⟨rfl, blob, rfl, .inr ⟨hcuts, rfl, core.serializeCheckAndChunkMessage_chunked hcuts.1
            hcuts.2.1 hblob hcuts.2.2 (not_lt.mp hmax)⟩⟩
      · rw [if_neg fun h => hcuts h.1]
        refine .inr ⟨rfl, blob, rfl, .inl ?_⟩
        unfold Cuts at hcuts
        simp only [serializeCheckAndChunkMessage, hblob, hmax, hcuts, if_false]
        exact ⟨_, rfl⟩

/-- A message of one frame is received as it was sent. -/
lemma receiveFrames_single {sender receiver : RedisTransportCore} {protocolVersion : ProtocolVersion}
    {serializer : Serializer} (hreads : receiver.Reads protocolVersion serializer) {message : Value}
    {blob frame : Bytes} (hblob : serializer.dictToBlob message = .ok blob) (hdict : IsDictBlob blob)
    (hframe : sender.serializeCheckAndChunkMessage protocolVersion message serializer = .ok [frame])
    (rest : List Blpop) :
    receiver.receiveFrames (.message frame :: rest) = (.ok ⟨protocolVersion, serializer, blob, none⟩, rest) := by
  obtain ⟨b, hversion, hheaders⟩ := sender.unchunked_round_trip hreads.mimeType_ne_nil hreads.isHeaderValue
    hblob hdict hframe
  have hunchunked : ¬HasChunkCount frame := by
    rintro ⟨v, b', hv, hcount⟩
    cases hversion.symm.trans hv
    rw [hheaders] at hcount
    exact hcount rfl
  rw [receiver.receiveFrames_unchunked hunchunked]
  simp only [firstFrame, hversion, hheaders, hreads.serializerFor_eq]

lemma Reads.readsSerializer {core : RedisTransportCore} {serializer : Serializer}
    (h : core.Reads .version3 serializer) : core.ReadsSerializer serializer := by
  have hx := extractSupportedHeaders_contentTypeHeader h.mimeType_ne_nil h.isHeaderValue (x := []) rfl
  rw [List.append_nil] at hx
  constructor
  · rw [HeaderReadable, hx]
  · rw [hx]
    exact h.serializerFor_eq

lemma protocolVersion_of_read? {serializer : Serializer} {c n i : ℕ} {blob : Bytes} {ch : Chunk}
    (h : Chunk.read? (chunkFrame .version3 serializer c n blob i) = some ch) : ch.protocolVersion = .version3 := by
  unfold Chunk.read? at h
  rw [extractVersion_chunkFrame] at h
  simp only [bind, Option.bind_eq_some_iff, pure, Option.some.injEq] at h
  obtain ⟨_, _, _, _, rfl⟩ := h
  rfl

lemma Reassembly.protocolVersion_foldl_add {chunks : List Chunk} (h : ∀ ch ∈ chunks, ch.protocolVersion = .version3)
    {r : Reassembly} (hr : r.protocolVersion = .version3) : (chunks.foldl .add r).protocolVersion = .version3 := by
  induction chunks generalizing r with
  | nil => exact hr
  | cons ch chunks ih =>
    exact ih (fun ch' hch' => h ch' (List.mem_cons_of_mem _ hch')) (h ch List.mem_cons_self)

/-- A chunked message is received in the version in which alone messages are cut. -/
lemma protocolVersion_of_chunkFrames (hclient : core.isServer = false) {serializer : Serializer} {c : ℕ}
    (hc : 0 < c) {blob : Bytes} (hlong : c < blob.length) {rest : List Blpop} {r : Reassembly}
    (h : core.receiveFrames ((chunkFrames serializer c blob).map .message ++ rest) = (.ok r, rest)) :
    r.protocolVersion = .version3 := by
  have hn := Slices.two_le_count hc hlong
  unfold chunkFrames at h
  generalize Slices.count blob.length c = n at h hn
  rw [range_eq_cons hn, List.map_cons, List.map_cons, List.cons_append] at h
  have hread : ∀ frame ∈ (List.range' 1 (n-1)).map (chunkFrame .version3 serializer c n blob), ∀ ch,
      Chunk.read? frame = some ch → ch.protocolVersion = .version3 := by
    intro frame hframe ch hch
    obtain ⟨i, -, rfl⟩ := List.mem_map.mp hframe
    exact protocolVersion_of_read? hch
  by_cases hcount : HasChunkCount (chunkFrame .version3 serializer c n blob 0)
  · obtain ⟨ch, frames, chunks, hch, hcompletes, rfl⟩ := (core.receiveFrames_eq_ok hclient hcount).mp h
    have hframes := (List.map_injective_iff.mpr (fun _ _ hm => Blpop.message.inj hm))
      (List.append_cancel_right hcompletes.pops_eq)
    rw [hframes] at hread
    apply Reassembly.protocolVersion_foldl_add
    · intro ch' hch'
      have hmem : some ch' ∈ frames.map Chunk.read? := by
        rw [hcompletes.carries]
        exact List.mem_map_of_mem hch'
      obtain ⟨frame, hframe, hch'⟩ := List.mem_map.mp hmem
      exact hread frame hframe ch' hch'
    · exact protocolVersion_of_read? hch
  · rw [core.receiveFrames_unchunked hcount] at h
    have hrest := congrArg List.length (Prod.mk.inj h).2
    simp only [List.length_append, List.length_map, List.length_range'] at hrest
    omega

/-- A legible message is taken for itself by whoever reads its version and its serializer; servers read no
chunks, and only servers make them. -/
theorem reassembles_of_legible {sender receiver : RedisTransportCore} {protocolVersion : ProtocolVersion}
    {serializer : Serializer} (hreads : receiver.Reads protocolVersion serializer)
    (hsides : sender.isServer = true → receiver.isServer = false) {requestId : Value} {entries : Dict}
    {body : Value} (hid : requestId.isNone = false)
    (hlegible : SentMessage.Legible ⟨sender, serializer, envelope requestId entries body⟩) {frames : List Bytes}
    (hframes : sender.serializeCheckAndChunkMessage protocolVersion (envelope requestId entries body) serializer =
      .ok frames) :
    receiver.Reassembles frames (opened protocolVersion serializer requestId entries body) := by
  obtain ⟨e, -, he⟩ | ⟨-, blob, hblob, hsent⟩ :=
    sender.serializeCheckAndChunkMessage_cases protocolVersion serializer (envelope requestId entries body)
  · cases he.symm.trans hframes
  obtain ⟨hback, hdict, hslices⟩ := hlegible blob hblob
  intro rest
  obtain ⟨frame, hframe⟩ | ⟨hcuts, rfl, hchunks⟩ := hsent
  · cases hframe.symm.trans hframes
    exact ⟨_, receiveFrames_single hreads hblob hdict hframe rest,
      fun now => receiver.openEnvelope_envelope hid hback now⟩
  · cases hchunks.symm.trans hframes
    have hclient := hsides hcuts.1
    have hpos : 0 < sender.chunkMessagesLargerThanBytes.toNat := by
      have := hcuts.2.1
      omega
    have hlong : sender.chunkMessagesLargerThanBytes.toNat < blob.length := by
      have := hcuts.2.2
      omega
    obtain ⟨r, hr, hserializer, hmessage⟩ :=
      receiver.receiveFrames_chunkFrames hclient hreads.readsSerializer hpos hlong (hslices hcuts) rest
    have hversion := receiver.protocolVersion_of_chunkFrames hclient hpos hlong hr
    refine ⟨r, hr, fun now => ?_⟩
    have hread : r.serializer.blobToDict r.serializedMessage = .ok (envelope requestId entries body) := by
      rw [hserializer, hmessage]
      exact hback
    rw [receiver.openEnvelope_envelope hid hread, hversion, hserializer]

end RedisTransportCore

/-- The frames stand for the messages, whichever of the readers takes them. -/
def Queued (readers : Set RedisTransportCore) (frames : List Bytes) (messages : List ReceivedMessage) : Prop :=
  ∃ groups : List (List Bytes), frames = groups.flatten ∧
    List.Forall₂ (fun group received => ∀ core ∈ readers, core.Reassembles group received) groups messages

namespace Queued
variable {readers : Set RedisTransportCore} {frames : List Bytes} {messages : List ReceivedMessage}

lemma nil (readers : Set RedisTransportCore) : Queued readers [] [] := ⟨[], rfl, .nil⟩

lemma concat (h : Queued readers frames messages) {frames' : List Bytes} {received : ReceivedMessage}
    (hframes' : ∀ core ∈ readers, core.Reassembles frames' received) :
    Queued readers (frames ++ frames') (messages ++ [received]) := by
  obtain ⟨groups, rfl, hgroups⟩ := h
  refine ⟨groups ++ [frames'], by simp, ?_⟩
  exact List.rel_append hgroups (.cons hframes' .nil)

lemma eq_nil (h : Queued readers frames []) : frames = [] := by
  obtain ⟨groups, rfl, hgroups⟩ := h
  cases hgroups
  rfl

lemma of_cons {received : ReceivedMessage} (h : Queued readers frames (received :: messages)) :
    ∃ first rest, frames = first ++ rest ∧ (∀ core ∈ readers, core.Reassembles first received) ∧
      Queued readers rest messages := by
  obtain ⟨groups, rfl, hgroups⟩ := h
  cases hgroups with
  | cons hfirst hrest => exact ⟨_, _, rfl, hfirst, _, rfl, hrest⟩

end Queued

namespace RedisIo

def frame? : Blpop → Option Bytes
  | .message frame => some frame
  | _ => none

/-- Redis and the clock, for a transport that pops from the queue of the given key. -/
def ofQueue (queues : String → List Bytes) (key : String) (clock : ℕ → ℚ) : RedisIo where
  pops := (queues key).map .message
  clock

/-- The queues afterwards. No key expires meanwhile. -/
def settle (queues : String → List Bytes) (key : String) (io : RedisIo) : String → List Bytes := fun key' =>
  (if key' = key then io.pops.filterMap frame? else queues key') ++
    (io.pushed.filter (·.queueKey = key')).map (·.frame)

lemma filterMap_frame? (frames : List Bytes) : (frames.map Blpop.message).filterMap frame? = frames := by
  rw [List.filterMap_map]
  exact List.filterMap_some

/-- A transport that does nothing leaves the queues as they are. -/
lemma settle_ofQueue (queues : String → List Bytes) (key : String) (clock : ℕ → ℚ) :
    (ofQueue queues key clock).settle queues key = queues := by
  funext key'
  simp only [settle, ofQueue, filterMap_frame?, List.filter_nil, List.map_nil, List.append_nil]
  split_ifs with hkey
  · rw [hkey]
  · rfl

/-- Redis works and is, frame by frame, what the broker is message by message, if all messages are legible. -/
structure Mirrors (readers : String → Set RedisTransportCore) (queues : String → List Bytes) (key : String)
    (io : RedisIo) (b : Broker) : Prop where
  pushes_eq : io.pushes = []
  connections_eq : io.connections = []
  pops_eq : ∃ frames : List Bytes, io.pops = frames.map .message
  clock_eq : io.clock = b.clock
  ticks_eq : io.ticks = b.ticks
  queued : (∀ m ∈ b.sent, m.Legible) → ∀ key', Queued (readers key') (io.settle queues key key') (b.queues key')

namespace Mirrors
variable {readers : String → Set RedisTransportCore} {queues : String → List Bytes} {key : String} {io : RedisIo}
  {b : Broker}

lemma now_eq (h : Mirrors readers queues key io b) : io.now = b.now := by
  rw [RedisIo.now, Broker.now, h.clock_eq, h.ticks_eq]

lemma tick (h : Mirrors readers queues key io b) : Mirrors readers queues key io.tick b.tick where
  pushes_eq := h.pushes_eq
  connections_eq := h.connections_eq
  pops_eq := h.pops_eq
  clock_eq := h.clock_eq
  ticks_eq := congrArg (· + 1) h.ticks_eq
  queued := h.queued

lemma ofQueue {messages : String → List ReceivedMessage} {sent : List SentMessage}
    (hqueued : (∀ m ∈ sent, m.Legible) → ∀ key', Queued (readers key') (queues key') (messages key'))
    (key : String) (clock : ℕ → ℚ) :
    Mirrors readers queues key (RedisIo.ofQueue queues key clock) { queues := messages, sent, clock } where
  pushes_eq := rfl
  connections_eq := rfl
  pops_eq := ⟨_, rfl⟩
  clock_eq := rfl
  ticks_eq := rfl
  queued hlegible key' := by
    rw [settle_ofQueue]
    exact hqueued hlegible key'

/-- The frames of one message are pushed. -/
lemma put (h : Mirrors readers queues key io b) {key' : String} {frames : List PushedFrame}
    (hframes : ∀ frame ∈ frames, frame.queueKey = key') {received : ReceivedMessage} {message : SentMessage}
    (hreassembles : message.Legible → ∀ core ∈ readers key', core.Reassembles (frames.map (·.frame)) received) :
    Mirrors readers queues key { io with pushed := io.pushed ++ frames } (b.put key' received message) where
  pushes_eq := h.pushes_eq
  connections_eq := h.connections_eq
  pops_eq := h.pops_eq
  clock_eq := h.clock_eq
  ticks_eq := h.ticks_eq
  queued hlegible key'' := by
    have hbefore := h.queued (fun m hm => hlegible m (List.mem_append_left _ hm)) key''
    have hmessage := hlegible message (List.mem_append_right _ (List.mem_singleton_self _))
    simp only [settle, List.filter_append, List.map_append, ← List.append_assoc] at hbefore ⊢
    by_cases hkey : key'' = key'
    · subst hkey
      rw [List.filter_eq_self.mpr fun frame hframe => decide_eq_true (hframes frame hframe),
        Broker.queues_put_self]
      exact hbefore.concat (hreassembles hmessage)
    · have hnone : frames.filter (fun frame => decide (frame.queueKey = key'')) = [] := by
        rw [List.filter_eq_nil_iff]
        intro frame hframe
        rw [hframes frame hframe, decide_eq_true_eq]
        exact Ne.symm hkey
      rw [hnone, List.map_nil, List.append_nil, b.queues_put_of_ne received message hkey]
      exact hbefore

/-- The frames of messages are popped. -/
lemma take (h : Mirrors readers queues key io b) (hpushed : io.pushed = []) {frames : List Bytes}
    {messages : List ReceivedMessage}
    (hqueued : (∀ m ∈ b.sent, m.Legible) → Queued (readers key) frames messages) :
    Mirrors readers queues key { io with pops := frames.map .message }
      { b with queues := Function.update b.queues key messages } where
  pushes_eq := h.pushes_eq
  connections_eq := h.connections_eq
  pops_eq := ⟨frames, rfl⟩
  clock_eq := h.clock_eq
  ticks_eq := h.ticks_eq
  queued hlegible key' := by
    have hbefore := h.queued hlegible key'
    simp only [settle, hpushed, List.filter_nil, List.map_nil, List.append_nil, filterMap_frame?] at hbefore ⊢
    by_cases hkey : key' = key
    · subst hkey
      rw [if_pos rfl, Function.update_self]
      exact hqueued hlegible
    · rw [if_neg hkey] at hbefore ⊢
      rw [Function.update_of_ne hkey]
      exact hbefore

end Mirrors
end RedisIo

namespace RedisTransportCore
variable (core : RedisTransportCore)

lemma pushFrames_of_pushes_eq_nil (hretries : 0 ≤ core.queueFullRetries) (queueName : String)
    (frames : List PushedFrame) {io : RedisIo} (hpushes : io.pushes = []) :
    core.pushFrames queueName frames io = (.ok (), { io with pushed := io.pushed ++ frames }) := by
  obtain ⟨n, hn⟩ : ∃ n, (core.queueFullRetries+1).toNat = n+1 := ⟨core.queueFullRetries.toNat, by omega⟩
  induction frames generalizing io with
  | nil => simp [pushFrames]
  | cons frame frames ih =>
    rw [pushFrames, hn, hpushes]
    have hrest := @ih { io with pushes := [], pushed := io.pushed ++ [frame] } rfl
    simp only [pushAttempts, hrest, List.append_assoc, List.singleton_append]

variable {readers : String → Set RedisTransportCore} {queues : String → List Bytes} {key : String} {io : RedisIo}
  {b : Broker}

/-- Sending to Redis is sending to the broker. -/
theorem sendMessage_mirrors (h : RedisIo.Mirrors readers queues key io b) (hretries : 0 ≤ core.queueFullRetries)
    (queueName : String) (metaDict : Meta)
    (hreaders : ∀ receiver ∈ readers ("pysoa:" ++ queueName),
      receiver.Reads (metaDict.protocolVersion.getD core.protocolVersion)
        (metaDict.serializer.getD core.defaultSerializer) ∧
      (core.isServer = true → receiver.isServer = false)) (requestId body : Value) (expiry : Option ℤ) :
    let out := core.sendMessage queueName requestId metaDict body expiry io
    let out' := core.sendToBroker queueName requestId metaDict body expiry b
    out.1 = out'.1 ∧ out.2.1 = out'.2.1 ∧ RedisIo.Mirrors readers queues key out.2.2 out'.2.2 := by
  unfold sendMessage sendToBroker messageExpiry
  cases hid : requestId.isNone with
  | true => exact ⟨rfl, rfl, h⟩
  | false =>
    simp only [Bool.false_eq_true, if_false, h.now_eq]
    generalize metaDict.protocolVersion.getD core.protocolVersion = protocolVersion at hreaders ⊢
    generalize metaDict.serializer.getD core.defaultSerializer = serializer at hreaders ⊢
    generalize metaDict.entries.set "__expiry__" _ = entries
    obtain ⟨e, hsize, he⟩ | ⟨hsize, blob, -, hsent⟩ :=
      core.serializeCheckAndChunkMessage_cases protocolVersion serializer (envelope requestId entries body)
    · unfold envelope at he
      simp only [he, hsize]
      exact ⟨trivial, trivial, h.tick⟩
    · obtain ⟨frames, hframes⟩ : ∃ frames, core.serializeCheckAndChunkMessage protocolVersion
          (envelope requestId entries body) serializer = .ok frames := by
        obtain ⟨frame, hframe⟩ | ⟨-, -, hchunks⟩ := hsent
        · exact ⟨_, hframe⟩
        · exact ⟨_, hchunks⟩
      have hreassembles (hlegible : SentMessage.Legible ⟨core, serializer, envelope requestId entries body⟩) :
          ∀ receiver ∈ readers ("pysoa:" ++ queueName),
            receiver.Reassembles frames (opened protocolVersion serializer requestId entries body) :=
        fun receiver hreceiver => reassembles_of_legible (hreaders receiver hreceiver).1
          (hreaders receiver hreceiver).2 hid hlegible hframes
      have hconnection : io.tick.getRedisConnection true = (.ok (), io.tick) := by
        rw [RedisIo.getRedisConnection, h.tick.connections_eq]
      unfold envelope at hframes
      simp only [hframes, hsize, hconnection, core.pushFrames_of_pushes_eq_nil hretries queueName _ h.tick.pushes_eq]
      refine ⟨trivial, trivial, h.tick.put ?_ ?_⟩
      · intro frame hframe
        obtain ⟨_, -, rfl⟩ := List.mem_map.mp hframe
        rfl
      · intro hlegible receiver hreceiver
        simpa only [List.map_map, Function.comp_def, List.map_id'] using hreassembles hlegible receiver hreceiver

/-- Receiving from Redis is receiving from the broker. -/
theorem receiveMessage_mirrors (h : RedisIo.Mirrors readers queues key io b) (hcore : core ∈ readers key)
    (hpushed : io.pushed = []) (hlegible : ∀ m ∈ b.sent, m.Legible) :
    let out := core.receiveMessage io
    let out' := core.receiveFromBroker key b
    out.1 = out'.1 ∧ RedisIo.Mirrors readers queues key out.2 out'.2 := by
  obtain ⟨frames, hpops⟩ := h.pops_eq
  have hqueued := h.queued hlegible key
  have hsettle : io.settle queues key key = frames := by
    rw [RedisIo.settle, if_pos rfl, hpops, RedisIo.filterMap_frame?, hpushed]
    exact List.append_nil _
  rw [hsettle] at hqueued
  have hconnection : io.getRedisConnection false = (.ok (), io) := by
    rw [RedisIo.getRedisConnection, h.connections_eq]
  unfold receiveMessage receiveFromBroker
  simp only [hconnection, hpops]
  cases hmessages : b.queues key with
  | nil =>
    rw [hmessages] at hqueued
    obtain rfl := hqueued.eq_nil
    obtain ⟨pops, pushes, connections, clock, ticks, pushed⟩ := io
    cases hpops
    exact ⟨rfl, h⟩
  | cons received messages =>
    rw [hmessages] at hqueued
    obtain ⟨first, rest, rfl, hfirst, hrest⟩ := hqueued.of_cons
    obtain ⟨r, hr, hread⟩ := hfirst core hcore (rest.map .message)
    rw [List.map_append, hr]
    simp only [hread]
    exact ⟨congrArg (core.unlessExpired received) h.now_eq, (h.take hpushed fun _ => hrest).tick⟩

end RedisTransportCore
end PySOA
