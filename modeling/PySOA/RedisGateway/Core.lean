import PySOA.Lib.Slices
import PySOA.Common.Serializer
import PySOA.RedisGateway.Headers

/-! The Redis transport core: framing, sending and receiving one message. Redis and the clock
are streams of answers: what each push and each blocking pop will do, and what each reading
of the time will be. -/
namespace PySOA

/-- What a blocking pop does; `failure` is an exception of the given class. -/
inductive Blpop
  | message (frame : Bytes)
  | nothing
  | failure (cls : String)

/-- What an attempt to push a frame does. -/
inductive PushResult
  | appended
  | queueFull
  | responseError (message : String)
  | failure (cls : String)

/-- A frame that was appended to a queue, with the framing that the sender chose for it and wrote at its
start. -/
structure PushedFrame where
  queueKey : String
  frame : Bytes
  redisExpiry : ℤ
  protocolVersion : ProtocolVersion
  serializer : Serializer

/-- Redis and the clock as one transport object meets them. An exhausted stream of pops gives
nothing, an exhausted stream of pushes or connections succeeds. -/
structure RedisIo where
  pops : List Blpop := []
  pushes : List PushResult := []
  connections : List (Option String) := []
  clock : ℕ → ℚ := fun _ => 0
  ticks : ℕ := 0
  pushed : List PushedFrame := []

/-- The meta dict of a message. The two objects that never reach a serializer are kept apart
from the other entries. -/
structure Meta where
  entries : Dict := []
  protocolVersion : Option ProtocolVersion := none
  serializer : Option Serializer := none

structure ReceivedMessage where
  requestId : Value
  metaDict : Meta
  body : Value

/-- The settings of a transport core that its methods read. The last three fields are what the
classes and the validators guarantee: only servers chunk, a threshold that is not negative is
large enough, and a server's maximum size leaves room for five chunks. -/
structure RedisTransportCore where
  isServer : Bool
  maximumMessageSizeInBytes : ℤ
  chunkMessagesLargerThanBytes : ℤ
  messageExpiryInSeconds : ℤ
  queueCapacity : ℤ
  queueFullRetries : ℤ
  defaultSerializer : Serializer
  serializers : SerializerMap
  serviceName : String
  protocolVersion : ProtocolVersion
  client_unchunked : isServer = false → chunkMessagesLargerThanBytes = -1
  threshold_valid : chunkMessagesLargerThanBytes < 0 ∨
    minimumChunkedMessageBytes ≤ chunkMessagesLargerThanBytes
  maximum_valid : isServer = true → protocolVersion = .version3 ∧
    chunkMessagesLargerThanBytes*5 ≤ maximumMessageSizeInBytes

/-- The settings that a client has by default. -/
def RedisTransportCore.defaultClient (serializer : Serializer) (serviceName : String) :
    RedisTransportCore where
  isServer := false
  maximumMessageSizeInBytes := 1024*100
  chunkMessagesLargerThanBytes := -1
  messageExpiryInSeconds := 60
  queueCapacity := 10000
  queueFullRetries := 10
  defaultSerializer := serializer
  serializers := .ofList [serializer]
  serviceName
  protocolVersion := .version3
  client_unchunked _ := rfl
  threshold_valid := by decide
  maximum_valid := by decide

/-- A server that chunks above the smallest threshold; the other settings are the defaults. -/
def RedisTransportCore.chunkingServer (serializer : Serializer) (serviceName : String) :
    RedisTransportCore where
  isServer := true
  maximumMessageSizeInBytes := 5*minimumChunkedMessageBytes
  chunkMessagesLargerThanBytes := minimumChunkedMessageBytes
  messageExpiryInSeconds := 60
  queueCapacity := 10000
  queueFullRetries := 10
  defaultSerializer := serializer
  serializers := .ofList [serializer]
  serviceName
  protocolVersion := .version3
  client_unchunked := by decide
  threshold_valid := by decide
  maximum_valid _ := ⟨rfl, by decide⟩

namespace RedisIo

/-- `time.time()`. -/
def now (io : RedisIo) : ℚ := io.clock io.ticks

def tick (io : RedisIo) : RedisIo := { io with ticks := io.ticks+1 }

def getRedisConnection (forSend : Bool) (io : RedisIo) : Except Exc Unit × RedisIo :=
  match io.connections with
  | [] => (.ok (), io)
  | none :: connections => (.ok (), { io with connections })
  | some e :: connections =>
    let message := "Cannot get connection: " ++ e
    (.error (if forSend then .messageSendError message else .messageReceiveError message),
      { io with connections })

end RedisIo

namespace RedisTransportCore
variable (core : RedisTransportCore)

def contentTypeHeader (serializer : Serializer) : Bytes :=
  ascii "content-type:" ++ serializer.mimeType ++ ascii ";"

def chunkCountHeader (chunkCount : ℕ) : Bytes :=
  ascii "chunk-count:" ++ Bytes.decimal chunkCount ++ ascii ";"

def chunkIdHeader (chunkId : ℕ) : Bytes :=
  ascii "chunk-id:" ++ Bytes.decimal chunkId ++ ascii ";"

/-- The frame with the given index, counted from zero, of a chunked message. -/
def chunkFrame (protocolVersion : ProtocolVersion) (serializer : Serializer) (c chunkCount : ℕ)
    (serializedMessage : Bytes) (i : ℕ) : Bytes :=
  protocolVersion.prefixBytes ++ contentTypeHeader serializer ++ chunkCountHeader chunkCount ++
    chunkIdHeader (i+1) ++ Slices.slice c i serializedMessage

/-- The division of the size by the threshold is exact here; the source divides floats, which
is exact for sizes up to 2^53. -/
def serializeCheckAndChunkMessage (protocolVersion : ProtocolVersion) (message : Value)
    (serializer : Serializer) : Except Exc (List Bytes) :=
  match serializer.dictToBlob message with
  | .error e => .error e
  | .ok serializedMessage =>
    let messageSizeInBytes := serializedMessage.length
    if core.maximumMessageSizeInBytes < messageSizeInBytes then
      .error (.messageTooLarge messageSizeInBytes "Message exceeds maximum message size")
    else if core.isServer = true ∧ 0 < core.chunkMessagesLargerThanBytes ∧
        core.chunkMessagesLargerThanBytes < messageSizeInBytes then
      if ProtocolFeature.chunkedResponses.supportedIn protocolVersion then
        let c := core.chunkMessagesLargerThanBytes.toNat
        let chunkCount := Slices.count messageSizeInBytes c
        .ok ((List.range chunkCount).map
          (chunkFrame protocolVersion serializer c chunkCount serializedMessage))
      else
        .error (.messageTooLarge messageSizeInBytes
          "Message exceeds chunking threshold but client does not support chunking")
    else
      let serializedMessage :=
        if ProtocolFeature.contentTypeHeader.supportedIn protocolVersion then
          contentTypeHeader serializer ++ serializedMessage
        else serializedMessage
      let serializedMessage :=
        if ProtocolFeature.versionMarker.supportedIn protocolVersion then
          protocolVersion.prefixBytes ++ serializedMessage
        else serializedMessage
      .ok [serializedMessage]

/-- The attempts to push one frame: a full queue is tried again while attempts are left. -/
def pushAttempts (queueName : String) : ℕ → List PushResult → Except Exc Unit × List PushResult
  | 0, pushes =>
    (.error (.messageSendError ("Redis queue " ++ queueName ++ " was full after " ++
      toString core.queueFullRetries ++ " retries")), pushes)
  | _+1, [] => (.ok (), [])
  | _+1, .appended :: pushes => (.ok (), pushes)
  | n+1, .queueFull :: pushes => pushAttempts queueName n pushes
  | _+1, .responseError _ :: pushes =>
    (.error (.messageSendError ("Redis error sending message for service " ++ core.serviceName)), pushes)
  | _+1, .failure _ :: pushes =>
    (.error (.messageSendError ("Unknown error sending message for service " ++ core.serviceName)), pushes)

/-- The frames of a message are pushed one after the other. -/
def pushFrames (queueName : String) : List PushedFrame → RedisIo → Except Exc Unit × RedisIo
  | [], io => (.ok (), io)
  | frame :: frames, io =>
    match core.pushAttempts queueName (core.queueFullRetries+1).toNat io.pushes with
    | (.error e, pushes) => (.error e, { io with pushes })
    | (.ok (), pushes) =>
      pushFrames queueName frames { io with pushes, pushed := io.pushed ++ [frame] }

/-- The meta dict is changed in place, so the caller sees it without the version and the
serializer, also when the call raises. -/
def sendMessage (queueName : String) (requestId : Value) (metaDict : Meta) (body : Value)
    (messageExpiryInSeconds : Option ℤ) (io : RedisIo) : Except Exc Unit × Meta × RedisIo :=
  if requestId.isNone then (.error (.invalidMessageError "No request ID"), metaDict, io)
  else
    let expiry := messageExpiryInSeconds.filter (· ≠ 0)
    let messageExpiry := io.now + (expiry.getD core.messageExpiryInSeconds : ℤ)
    let redisExpiry := (expiry.map (· + 10)).getD core.messageExpiryInSeconds
    let entries := metaDict.entries.set "__expiry__" (.float messageExpiry)
    let protocolVersion := metaDict.protocolVersion.getD core.protocolVersion
    let serializer := metaDict.serializer.getD core.defaultSerializer
    let metaDict : Meta := { entries }
    let message := Value.dict [(.text "request_id", requestId), (.text "meta", .dict entries),
      (.text "body", body)]
    match core.serializeCheckAndChunkMessage protocolVersion message serializer with
    | .error e => (.error e, metaDict, io.tick)
    | .ok messagesToSend =>
      match io.tick.getRedisConnection true with
      | (.error e, io) => (.error e, metaDict, io)
      | (.ok (), io) =>
        let frames := messagesToSend.map (fun frame =>
          ⟨"pysoa:" ++ queueName, frame, redisExpiry, protocolVersion, serializer⟩)
        let out := core.pushFrames queueName frames io
        (out.1, metaDict, out.2)

def receiveTimeout : Exc :=
  .messageReceiveTimeout ("No message received for service " ++ core.serviceName)

/-- `_receive_message` for one answer of Redis. -/
def popResult : Blpop → Except Exc Bytes
  | .message frame => .ok frame
  | .nothing => .error core.receiveTimeout
  | .failure _ =>
    .error (.messageReceiveError ("Unknown error receiving message for service " ++ core.serviceName))

def serializerFor (headers : Headers) : Serializer :=
  (headers.contentType.bind core.serializers.resolve?).getD core.defaultSerializer

/-- What `receive_message` has collected so far. The chunk is the id and the count of the last
frame, if the message is chunked. -/
structure Reassembly where
  protocolVersion : ProtocolVersion
  serializer : Serializer
  serializedMessage : Bytes
  chunk : Option (ℤ × ℤ)

namespace Reassembly

/-- The condition of the loop over further chunks. -/
def incomplete (r : Reassembly) : Bool :=
  match r.chunk with
  | none => false
  | some (chunkId, chunkCount) => chunkId < chunkCount

end Reassembly

def readInt (value : Bytes) : Except Exc ℤ :=
  match Bytes.int? value with
  | some n => .ok n
  | none => .error (.valueError ("invalid literal for int() with base 10: '" ++ value.decode ++ "'"))

/-- The part of `receive_message` before the loop. -/
def firstFrame (frame : Bytes) : Except Exc Reassembly :=
  match ProtocolVersion.extractVersion frame with
  | .error e => .error e
  | .ok (protocolVersion, b) =>
    let (headers, serializedMessage) := extractSupportedHeaders b
    let serializer := core.serializerFor headers
    match headers.chunkCount with
    | none => .ok ⟨protocolVersion, serializer, serializedMessage, none⟩
    | some chunkCount =>
      if core.isServer then
        .error (.invalidMessageError "Unsupported chunked request on server Redis backend")
      else
        match headers.chunkId with
        | none => .error (.invalidMessageError
            ("Invalid chunked response missing chunk ID for service " ++ core.serviceName))
        | some chunkId =>
          match readInt chunkId, readInt chunkCount with
          | .ok chunkId, .ok chunkCount =>
            .ok ⟨protocolVersion, serializer, serializedMessage, some (chunkId, chunkCount)⟩
          | .error e, _ => .error e
          | _, .error e => .error e

/-- The body of the loop, for the chunk after the given one. -/
def nextFrame (r : Reassembly) (frame : Bytes) : Except Exc Reassembly :=
  match r.chunk with
  | none => .ok r
  | some (chunkId, chunkCount) =>
    let expectedChunk := chunkId+1
    let expected := toString expectedChunk ++ " of " ++ toString chunkCount ++ " for service " ++
      core.serviceName ++ "."
    let expecting := "chunk " ++ expected
    match ProtocolVersion.extractVersion frame with
    | .error e => .error e
    | .ok (protocolVersion, b) =>
      let (headers, nextChunk) := extractSupportedHeaders b
      match headers.chunkCount, headers.chunkId with
      | some countText, some idText =>
        match readInt countText with
        | .error e => .error e
        | .ok count =>
          if count ≠ chunkCount then
            .error (.invalidMessageError ("Invalid chunked response has different chunk count " ++
              countText.decode ++ " expecting " ++ expecting))
          else
            match readInt idText with
            | .error e => .error e
            | .ok id =>
              if id ≠ expectedChunk then
                .error (.invalidMessageError ("Invalid chunked response has incorrect chunk ID " ++
                  idText.decode ++ " expected " ++ expected))
              else
                .ok ⟨protocolVersion, r.serializer, r.serializedMessage ++ nextChunk, some (id, count)⟩
      | _, _ => .error (.invalidMessageError
          ("Invalid chunked response missing chunk headers expecting " ++ expecting))

/-- The loop over further chunks. -/
def collectChunks (r : Reassembly) : List Blpop → Except Exc Reassembly × List Blpop
  | [] => if r.incomplete then (.error core.receiveTimeout, []) else (.ok r, [])
  | p :: pops =>
    if r.incomplete then
      match core.popResult p with
      | .error e => (.error e, pops)
      | .ok frame =>
        match core.nextFrame r frame with
        | .error e => (.error e, pops)
        | .ok r => collectChunks r pops
    else (.ok r, p :: pops)

/-- `receive_message` up to the call of `blob_to_dict`: the serializer and the byte string that
are used there, and the answers of Redis that are left. -/
def receiveFrames : List Blpop → Except Exc Reassembly × List Blpop
  | [] => (.error core.receiveTimeout, [])
  | p :: pops =>
    match core.popResult p >>= core.firstFrame with
    | .error e => (.error e, pops)
    | .ok r => core.collectChunks r pops

def isMessageExpired (entries : Dict) (now : ℚ) : Except Exc Bool :=
  match entries.get? "__expiry__" with
  | none => .ok false
  | some expiry =>
    if expiry.truthy then
      match expiry.number? with
      | some expiry => .ok (expiry < now)
      | none => .error (.typeError "'<' not supported")
    else .ok false

/-- The part of `receive_message` from `blob_to_dict` on. -/
def openEnvelope (r : Reassembly) (now : ℚ) : Except Exc ReceivedMessage :=
  match r.serializer.blobToDict r.serializedMessage with
  | .error e => .error e
  | .ok (.dict message) =>
    match (Dict.get? message "meta").getD (.dict []) with
    | .dict entries =>
      let entries := (Dict.erase entries "serializer").erase "protocol_version"
      match isMessageExpired entries now with
      | .error e => .error e
      | .ok true => .error (.messageReceiveTimeout ("Message expired for service " ++ core.serviceName))
      | .ok false =>
        let requestId := (Dict.get? message "request_id").getD .none
        if requestId.isNone then
          .error (.invalidMessageError ("No request ID for service " ++ core.serviceName))
        else
          .ok ⟨requestId, ⟨entries, some r.protocolVersion, some r.serializer⟩,
            (Dict.get? message "body").getD .none⟩
    | _ => .error (.typeError "object does not support item assignment")
  | .ok _ => .error (.attributeError "object has no attribute 'setdefault'")

def receiveMessage (io : RedisIo) : Except Exc ReceivedMessage × RedisIo :=
  match io.getRedisConnection false with
  | (.error e, io) => (.error e, io)
  | (.ok (), io) =>
    let out := core.receiveFrames io.pops
    let io := { io with pops := out.2 }
    match out.1 with
    | .error e => (.error e, io)
    | .ok r => (core.openEnvelope r io.now, io.tick)

end RedisTransportCore
end PySOA
