import PySOA.RedisGateway.ListKey
import PySOA.RedisGateway.Unchunked
import PySOA.RedisGateway.Server
import PySOA.Server.Answering

/-! In which protocol version, and by which serializer, the responses to a request are framed. -/
namespace PySOA

namespace RedisIo

/-- What has been pushed since is framed in the version and serialized by the serializer, and its bytes
begin with what tells a receiver so. -/
def PushedIn (v : ProtocolVersion) (s : Serializer) (io io' : RedisIo) : Prop :=
  ∃ frames, io'.pushed = io.pushed ++ frames ∧
    ∀ frame ∈ frames, (frame.protocolVersion = v ∧ frame.serializer = s) ∧
      RedisTransportCore.framePrelude v s <+: frame.frame

variable {v v' : ProtocolVersion} {s s' : Serializer} {io io' : RedisIo}

lemma pushedIn_of_pushed_eq (h : io'.pushed = io.pushed) : PushedIn v s io io' :=
  ⟨[], by rw [h, List.append_nil], by simp⟩

/-- A frame that has been pushed is framed in one way only. -/
lemma PushedIn.framing_eq (h : PushedIn v s io io') (h' : PushedIn v' s' io io')
    (hne : io'.pushed ≠ io.pushed) : v = v' ∧ s = s' := by
  obtain ⟨frames, hpushed, hframes⟩ := h
  obtain ⟨frames', hpushed', hframes'⟩ := h'
  obtain rfl : frames = frames' := List.append_cancel_left (hpushed.symm.trans hpushed')
  cases frames with
  | nil => exact absurd (hpushed.trans (List.append_nil _)) hne
  | cons frame frames =>
    obtain ⟨⟨hv, hs⟩, -⟩ := hframes frame List.mem_cons_self
    obtain ⟨⟨hv', hs'⟩, -⟩ := hframes' frame List.mem_cons_self
    exact ⟨hv.symm.trans hv', hs.symm.trans hs'⟩

end RedisIo

namespace Meta

/-- The two objects that the receiver puts into the meta dict are in it no more. -/
def Unframed (metaDict : Meta) : Prop := metaDict.protocolVersion = none ∧ metaDict.serializer = none

end Meta

lemma isTransient_of_replacement? {e : Exc} {jobResponse : JobResponse}
    (h : replacement? e = some jobResponse) : e.isTransient = false := by
  cases e with
  | messageTooLarge _ _ => rfl
  | invalidField _ => rfl
  | _ => cases h

namespace RedisTransportCore
variable (core : RedisTransportCore)

/-- The version and the serializer that the frame at the head of a queue is received in. -/
def HeadFramed (pops : List Blpop) (v : ProtocolVersion) (s : Serializer) : Prop :=
  ∃ frame rest b, pops = .message frame :: rest ∧ ProtocolVersion.extractVersion frame = .ok (v, b) ∧
    core.serializerFor (extractSupportedHeaders b).1 = s

lemma isTransient_of_pushAttempts {queueName : String} {n : ℕ} {pushes : List PushResult} {e : Exc}
    (h : (core.pushAttempts queueName n pushes).1 = .error e) : e.isTransient = true := by
  induction n generalizing pushes with
  | zero =>
    cases h
    rfl
  | succ n ih =>
    cases pushes with
    | nil => cases h
    | cons push pushes =>
      cases push with
      | appended => cases h
      | queueFull => exact ih h
      | responseError message =>
        cases h
        rfl
      | failure cls =>
        cases h
        rfl

/-- Redis fails only in ways that are worth another try. -/
lemma isTransient_of_pushFrames {queueName : String} {frames : List PushedFrame} {io : RedisIo} {e : Exc}
    (h : (core.pushFrames queueName frames io).1 = .error e) : e.isTransient = true := by
  induction frames generalizing io with
  | nil => cases h
  | cons frame frames ih =>
    unfold pushFrames at h
    split at h
    · next e' pushes hpush =>
      cases h
      exact core.isTransient_of_pushAttempts (congrArg Prod.fst hpush)
    · exact ih h

/-- Every frame of a message begins with what its version puts in front. -/
lemma framePrelude_prefix {protocolVersion : ProtocolVersion} {message : Value} {serializer : Serializer}
    {frames : List Bytes} (h : core.serializeCheckAndChunkMessage protocolVersion message serializer = .ok frames) :
    ∀ frame ∈ frames, framePrelude protocolVersion serializer <+: frame := by
  intro frame hframe
  cases hblob : serializer.dictToBlob message with
  | error e =>
    rw [serializeCheckAndChunkMessage, hblob] at h
    cases h
  | ok blob =>
    obtain ⟨first, rfl⟩ | hmany : (∃ first, frames = [first]) ∨ ¬∃ first, frames = [first] := em _
    · rw [List.mem_singleton.mp hframe, core.eq_framePrelude_of_single hblob h]
      exact List.prefix_append _ _
    · simp only [serializeCheckAndChunkMessage, hblob] at h
      split_ifs at h with hmax hcuts hsupported
      · cases h
        obtain ⟨i, -, rfl⟩ := List.mem_map.mp hframe
        -- only the third version knows chunks
        cases protocolVersion with
        | version3 =>
          rw [chunkFrame, List.append_assoc, List.append_assoc]
          exact List.prefix_append _ _
        | _ => cases hsupported
      all_goals exact absurd ⟨_, (Except.ok.inj h).symm⟩ hmany

lemma framePrelude_prefix_of_mem_framesToSend {queueName : String} {requestId : Value} {metaDict : Meta}
    {body : Value} {expiry : Option ℤ} {now : ℚ} {frames : List PushedFrame}
    (h : core.framesToSend queueName requestId metaDict body expiry now = .ok frames) :
    ∀ frame ∈ frames, framePrelude (metaDict.protocolVersion.getD core.protocolVersion)
      (metaDict.serializer.getD core.defaultSerializer) <+: frame.frame := by
  unfold framesToSend at h
  dsimp only at h
  split at h
  · cases h
  · next messagesToSend hmessages =>
    cases h
    intro frame hframe
    obtain ⟨bytes, hbytes, rfl⟩ := List.mem_map.mp hframe
    exact core.framePrelude_prefix hmessages bytes hbytes

/-- What `send_message` pushes is framed as its meta says, and by the settings where it says
nothing. It takes what it says out of the meta. -/
theorem sendMessage_pushedIn (queueName : String) {requestId : Value} (hid : requestId.isNone = false)
    (metaDict : Meta) (body : Value) (expiry : Option ℤ) (io : RedisIo) :
    RedisIo.PushedIn (metaDict.protocolVersion.getD core.protocolVersion)
        (metaDict.serializer.getD core.defaultSerializer) io
        (core.sendMessage queueName requestId metaDict body expiry io).2.2 ∧
      (core.sendMessage queueName requestId metaDict body expiry io).2.1.Unframed := by
  rw [core.sendMessage_eq queueName hid]
  dsimp only
  cases hframes : core.framesToSend queueName requestId metaDict body expiry io.now with
  | error e => exact ⟨RedisIo.pushedIn_of_pushed_eq rfl, rfl, rfl⟩
  | ok frames =>
    obtain ⟨connections, hio, -⟩ := getRedisConnection_cases true io.tick
    generalize io.tick.getRedisConnection true = out at hio ⊢
    obtain ⟨result, io'⟩ := out
    dsimp only at hio
    subst hio
    cases result with
    | error e => exact ⟨RedisIo.pushedIn_of_pushed_eq rfl, rfl, rfl⟩
    | ok u =>
      obtain ⟨n, -, hpushed, -⟩ := core.pushFrames_pushed queueName frames { io.tick with connections }
      refine ⟨⟨frames.take n, hpushed, ?_⟩, rfl, rfl⟩
      intro frame hframe
      have hmem := List.mem_of_mem_take hframe
      exact ⟨(core.of_mem_framesToSend hframes frame hmem).2,
        core.framePrelude_prefix_of_mem_framesToSend hframes frame hmem⟩

/-- A message that is too large or cannot be serialized is found to be so before anything is
pushed. -/
lemma pushed_eq_of_replacement? {queueName : String} {requestId : Value}
    (hid : requestId.isNone = false) {metaDict : Meta} {body : Value} {expiry : Option ℤ} {io : RedisIo}
    {e : Exc} {jobResponse : JobResponse} (hreplacement : replacement? e = some jobResponse)
    (h : (core.sendMessage queueName requestId metaDict body expiry io).1 = .error e) :
    (core.sendMessage queueName requestId metaDict body expiry io).2.2.pushed = io.pushed := by
  have hfinal := isTransient_of_replacement? hreplacement
  rw [core.sendMessage_eq queueName hid] at h ⊢
  dsimp only at h ⊢
  cases hframes : core.framesToSend queueName requestId metaDict body expiry io.now with
  | error e => rfl
  | ok frames =>
    rw [hframes] at h
    obtain ⟨connections, hio, hresult⟩ := getRedisConnection_cases true io.tick
    generalize io.tick.getRedisConnection true = out at hio hresult h ⊢
    obtain ⟨result, io'⟩ := out
    dsimp only at hio hresult h
    subst hio
    cases result with
    | error e => rfl
    | ok u =>
      have htransient := core.isTransient_of_pushFrames h
      rw [hfinal] at htransient
      cases htransient

/-- The meta of a message that has been received says how its frames were read. -/
lemma framing_of_openEnvelope {r : Reassembly} {now : ℚ} {received : ReceivedMessage}
    (h : core.openEnvelope r now = .ok received) :
    received.metaDict.protocolVersion = some r.protocolVersion ∧
      received.metaDict.serializer = some r.serializer ∧ received.requestId.isNone = false := by
  unfold openEnvelope at h
  split at h
  · cases h
  · split at h
    · dsimp only at h
      split at h
      · cases h
      · cases h
      · split_ifs at h with hid
        cases h
        exact ⟨rfl, rfl, Bool.not_eq_true _ ▸ hid⟩
    · cases h
  · cases h

/-- A server takes one frame off its queue, which is in one piece. -/
lemma receiveFrames_server (hserver : core.isServer = true) {pops rest : List Blpop}
    {v : ProtocolVersion} {s : Serializer} (hhead : core.HeadFramed pops v s) {r : Reassembly}
    (h : core.receiveFrames pops = (.ok r, rest)) : r.protocolVersion = v ∧ r.serializer = s := by
  obtain ⟨frame, pops, b, rfl, hversion, rfl⟩ := hhead
  obtain ⟨r₀, hfirst, hcollect⟩ := core.receiveFrames_message_eq_ok.mp h
  by_cases hframe : HasChunkCount frame
  · obtain ⟨v', b', hversion', hcount⟩ := hframe
    obtain ⟨chunkCount, hcount⟩ := Option.ne_none_iff_exists'.mp hcount
    rw [firstFrame, hversion'] at hfirst
    dsimp only at hfirst
    rw [hcount] at hfirst
    simp only [hserver, if_true] at hfirst
    cases hfirst
  · obtain ⟨v', b', hversion', rfl⟩ := (core.firstFrame_unchunked_eq_ok hframe).mp hfirst
    obtain ⟨rfl, rfl⟩ := Prod.mk.inj (Except.ok.inj (hversion.symm.trans hversion'))
    rw [core.collectChunks_of_complete rfl] at hcollect
    cases hcollect
    exact ⟨rfl, rfl⟩

/-- A request carries in its meta how it was framed. -/
theorem framing_of_receiveMessage (hserver : core.isServer = true) {io io' : RedisIo}
    {v : ProtocolVersion} {s : Serializer} (hhead : core.HeadFramed io.pops v s)
    {received : ReceivedMessage} (h : core.receiveMessage io = (.ok received, io')) :
    received.metaDict.protocolVersion = some v ∧ received.metaDict.serializer = some s ∧
      received.requestId.isNone = false := by
  obtain ⟨connections, hio, hresult⟩ := getRedisConnection_cases false io
  unfold receiveMessage at h
  generalize io.getRedisConnection false = out at hio hresult h
  obtain ⟨result, io₁⟩ := out
  dsimp only at hio hresult h
  subst hio
  cases result with
  | error e => cases h
  | ok u =>
    dsimp only at h
    cases hframes : core.receiveFrames io.pops with
    | mk result rest =>
      rw [hframes] at h
      cases result with
      | error e => cases h
      | ok r =>
        obtain ⟨rfl, rfl⟩ := core.receiveFrames_server hserver hhead hframes
        exact core.framing_of_openEnvelope (congrArg Prod.fst h)

end RedisTransportCore

namespace RedisServerTransport
variable (transport : RedisServerTransport) {σ : Type}

/-- What a response pushes is framed as the meta of its request says. -/
lemma sendResponseMessage_pushedIn {requestId : Value} (hid : requestId.isNone = false)
    (metaDict : Meta) (body : Value) (io : RedisIo) :
    RedisIo.PushedIn (metaDict.protocolVersion.getD transport.core.protocolVersion)
      (metaDict.serializer.getD transport.core.defaultSerializer) io
      (transport.sendResponseMessage requestId metaDict body io).2.2 := by
  unfold sendResponseMessage
  split
  · exact RedisIo.pushedIn_of_pushed_eq rfl
  · exact (transport.core.sendMessage_pushedIn _ hid metaDict body none io).1
  · exact RedisIo.pushedIn_of_pushed_eq rfl

/-- A response that is to be replaced has pushed nothing, and has cost the meta of the request its
version and its serializer. -/
lemma sendResponseMessage_of_replacement? {requestId : Value} (hid : requestId.isNone = false)
    {metaDict : Meta} {body : Value} {io : RedisIo} {e : Exc} {jobResponse : JobResponse}
    (hreplacement : replacement? e = some jobResponse)
    (h : (transport.sendResponseMessage requestId metaDict body io).1 = .error e) :
    (transport.sendResponseMessage requestId metaDict body io).2.2.pushed = io.pushed ∧
      (transport.sendResponseMessage requestId metaDict body io).2.1.Unframed := by
  unfold sendResponseMessage at h ⊢
  split
  · next hqueue =>
    rw [hqueue] at h
    cases h
    cases hreplacement
  · next queueName hqueue =>
    rw [hqueue] at h
    exact ⟨transport.core.pushed_eq_of_replacement? hid hreplacement h,
      (transport.core.sendMessage_pushedIn queueName hid metaDict body none io).2⟩
  · next value htext hvalue =>
    rw [hvalue] at h
    split at h
    · next hnone => cases hnone
    · next queueName hqueue => exact absurd (Option.some.inj hqueue) (htext queueName)
    · cases h
      cases hreplacement

/-- The response is too large or cannot be serialized, and of the error that takes its place at
least one frame is pushed. -/
def PushesReplacement (received : ReceivedMessage) (version : List ℤ) (message : Value) (io : RedisIo) :
    Prop :=
  let first := transport.sendResponseMessage received.requestId received.metaDict message io
  ∃ e jobResponse replacement, first.1 = .error e ∧ replacement? e = some jobResponse ∧
    jobResponse.asdict version = .ok replacement ∧
    (transport.sendResponseMessage received.requestId first.2.1 replacement first.2.2).2.2.pushed ≠ io.pushed

variable {transport} {received : ReceivedMessage} {version : List ℤ} {message : Value}

lemma not_pushesReplacement {io : RedisIo} (h : ∀ e,
    (transport.sendResponseMessage received.requestId received.metaDict message io).1 = .error e →
      replacement? e = none) : ¬transport.PushesReplacement received version message io := by
  rintro ⟨e, jobResponse, replacement, he, hreplacement, -⟩
  rw [h e he] at hreplacement
  cases hreplacement

lemma pushesReplacement_iff {io io' : RedisIo} {metaDict : Meta} {e : Exc} {jobResponse : JobResponse}
    {replacement : Value} (hsend : transport.sendResponseMessage received.requestId received.metaDict
      message io = (.error e, metaDict, io')) (hreplacement : replacement? e = some jobResponse)
    (hasdict : jobResponse.asdict version = .ok replacement) :
    transport.PushesReplacement received version message io ↔
      (transport.sendResponseMessage received.requestId metaDict replacement io').2.2.pushed ≠ io.pushed := by
  unfold PushesReplacement
  rw [hsend]
  constructor
  · rintro ⟨e', jobResponse', replacement', he, hr, ha, h⟩
    cases he
    cases hreplacement.symm.trans hr
    cases hasdict.symm.trans ha
    exact h
  · exact fun h => ⟨e, jobResponse, replacement, rfl, hreplacement, hasdict, h⟩

/-- The response comes as its request came; an error in its place comes as the settings say. -/
lemma sendResponse_pushedIn_iff {v : ProtocolVersion} {s : Serializer}
    (hid : received.requestId.isNone = false) (hv : received.metaDict.protocolVersion = some v)
    (hs : received.metaDict.serializer = some s) (w : σ × RedisIo) :
    RedisIo.PushedIn v s w.2
        ((transport.toServerTransport σ).sendResponse received version message w).world.2 ↔
      (v = transport.core.protocolVersion ∧ s = transport.core.defaultSerializer) ∨
        ¬transport.PushesReplacement received version message w.2 := by
  have hfirst := transport.sendResponseMessage_pushedIn hid received.metaDict message w.2
  rw [hv, hs, Option.getD_some, Option.getD_some] at hfirst
  unfold ServerTransport.sendResponse toServerTransport
  dsimp only
  cases hsend : transport.sendResponseMessage received.requestId received.metaDict message w.2 with
  | mk result rest =>
    obtain ⟨metaDict, io⟩ := rest
    have hresult := congrArg Prod.fst hsend
    rw [hsend] at hfirst
    cases result with
    | ok u =>
      refine iff_of_true hfirst (.inr (not_pushesReplacement fun e he => ?_))
      cases hresult.symm.trans he
    | error e =>
      dsimp only
      cases hreplacement : replacement? e with
      | none =>
        refine iff_of_true hfirst (.inr (not_pushesReplacement fun e' he => ?_))
        cases hresult.symm.trans he
        exact hreplacement
      | some jobResponse =>
        have hreplaced := transport.sendResponseMessage_of_replacement? hid hreplacement hresult
        rw [hsend] at hreplaced
        obtain ⟨hpushed, hversion, hserializer⟩ := hreplaced
        obtain ⟨replacement, hasdict⟩ := ServerTransport.exists_asdict_replacement hreplacement version
        -- the second send meets a meta dict without version and serializer
        have hsecond := transport.sendResponseMessage_pushedIn hid metaDict replacement io
        rw [hversion, hserializer, Option.getD_none, Option.getD_none, RedisIo.PushedIn, hpushed] at hsecond
        have hpushes := pushesReplacement_iff hsend hreplacement hasdict
        dsimp only
        rw [hasdict, hpushes]
        dsimp only
        generalize transport.sendResponseMessage received.requestId metaDict replacement io = second
          at hsecond ⊢
        obtain ⟨result, metaDict', io'⟩ := second
        have hiff : RedisIo.PushedIn v s w.2 io' ↔
            (v = transport.core.protocolVersion ∧ s = transport.core.defaultSerializer) ∨
              ¬io'.pushed ≠ w.2.pushed := by
          constructor
          · intro h
            by_cases hne : io'.pushed = w.2.pushed
            · exact .inr (not_not.mpr hne)
            · exact .inl (h.framing_eq hsecond hne)
          · rintro (⟨rfl, rfl⟩ | hnone)
            · exact hsecond
            · exact RedisIo.pushedIn_of_pushed_eq (not_not.mp hnone)
        cases result with
        | ok u => exact hiff
        | error e => exact hiff

end RedisServerTransport

namespace Server
variable {σ : Type} (server : Server (σ × RedisIo))

/-- The world in which the response is sent: the job has been run, unless the request has been given
up before that. -/
def worldAfterJob (received : ReceivedMessage) (jobRequest : Dict) (w : σ × RedisIo) : σ × RedisIo :=
  match logRequestContext server.repeatedArgument jobRequest, clientVersion received.metaDict with
  | .ok (), .ok _ => (server.processJob jobRequest w).2
  | _, _ => w

/-- All that is sent for the request, which has been received in the world `w'`, is framed in the
version and serialized by the serializer. -/
def RespondsIn (transport : RedisServerTransport) (v : ProtocolVersion) (s : Serializer)
    (received : ReceivedMessage) (jobRequest : Dict) (w w' : σ × RedisIo) : Prop :=
  RedisIo.PushedIn v s (server.worldAfterJob received jobRequest w').2
    (server.handleNextRequest (transport.toServerTransport σ) w).world.2

/-- The server comes to send the response, and sends an error in its place. -/
def PushesReplacement (transport : RedisServerTransport) (received : ReceivedMessage)
    (jobRequest : Dict) (w : σ × RedisIo) : Prop :=
  Loggable jobRequest ∧ suppressResponse jobRequest = .ok false ∧ ∃ version message,
    clientVersion received.metaDict = .ok version ∧
    server.responseMessage version (server.processJob jobRequest w).1 = .ok message ∧
    transport.PushesReplacement received version message (server.processJob jobRequest w).2.2

variable {server} {transport : RedisServerTransport} {received : ReceivedMessage} {jobRequest : Dict}
  {w w' : σ × RedisIo} {v : ProtocolVersion} {s : Serializer}

/-- A request that came in another version or serializer than those of the settings is answered in
its own exactly if no error is sent in place of the response. -/
theorem respondsIn_iff
    (hreceive : (transport.toServerTransport σ).receiveRequestMessage w = (.ok received, w'))
    (hhead : transport.core.HeadFramed w.2.pops v s) (hbody : received.body = .dict jobRequest) :
    server.RespondsIn transport v s received jobRequest w w' ↔
      (v = transport.core.protocolVersion ∧ s = transport.core.defaultSerializer) ∨
        ¬server.PushesReplacement transport received jobRequest w' := by
  have hresult : (transport.core.receiveMessage w.2).1 = .ok received := congrArg Prod.fst hreceive
  have hcore : transport.core.receiveMessage w.2 = (.ok received, (transport.core.receiveMessage w.2).2) :=
    Prod.ext hresult rfl
  obtain ⟨hv, hs, hid⟩ := transport.core.framing_of_receiveMessage transport.isServer hhead hcore
  have hne : received.requestId ≠ .none := by
    intro hnone
    rw [hnone] at hid
    cases hid
  unfold RespondsIn worldAfterJob
  rw [handleNextRequest_eq hreceive hne hbody]
  cases hlog : logRequestContext server.repeatedArgument jobRequest with
  | error e =>
    have hloggable : ¬Loggable jobRequest := by
      rw [← logRequestContext_eq_ok_iff server.repeatedArgument, hlog]
      exact nofun
    rw [handleRequest, hlog]
    exact iff_of_true (RedisIo.pushedIn_of_pushed_eq rfl) (.inr fun h => hloggable h.1)
  | ok u =>
    have hloggable := (logRequestContext_eq_ok_iff _ jobRequest).mp hlog
    cases hversion : clientVersion received.metaDict with
    | error e =>
      rw [handleRequest, hlog, hversion]
      refine iff_of_true (RedisIo.pushedIn_of_pushed_eq rfl) (.inr ?_)
      rintro ⟨-, -, version, message, h, -⟩
      cases hversion.symm.trans h
    | ok version =>
      obtain ⟨message, hmessage⟩ := server.exists_responseMessage version (server.processJob jobRequest w').1
      rw [handleRequest_of_loggable hloggable hversion hmessage]
      cases hsuppress : suppressResponse jobRequest with
      | error e =>
        refine iff_of_true (RedisIo.pushedIn_of_pushed_eq rfl) (.inr ?_)
        rintro ⟨-, h, -⟩
        cases hsuppress.symm.trans h
      | ok suppress =>
        cases suppress with
        | true =>
          refine iff_of_true (RedisIo.pushedIn_of_pushed_eq rfl) (.inr ?_)
          rintro ⟨-, h, -⟩
          cases hsuppress.symm.trans h
        | false =>
          have hreplacement : server.PushesReplacement transport received jobRequest w' ↔
              transport.PushesReplacement received version message (server.processJob jobRequest w').2.2 := by
            constructor
            · rintro ⟨-, -, version', message', hversion', hmessage', h⟩
              cases hversion.symm.trans hversion'
              cases hmessage.symm.trans hmessage'
              exact h
            · exact fun h => ⟨hloggable, hsuppress, version, message, hversion, hmessage, h⟩
          rw [hreplacement]
          exact RedisServerTransport.sendResponse_pushedIn_iff hid hv hs _

/-- A server whose transport is Redis. Its action `read` responds with the given body. -/
def exampleRedisServer (body : Value) : Server (Unit × RedisIo) where
  serviceName := "example"
  actionClassMap := fun name =>
    if name = "read" then some fun w => (.ok fun _ w => (.ok { action := .text name, body }, w), w)
    else none
  defaultIntrospectionAction w := (.ok fun _ w => (.ok { action := .text "introspect" }, w), w)
  defaultStatusActionClass w := (.ok fun _ w => (.ok { action := .text "status" }, w), w)
  jobRequestErrors := exampleServer.jobRequestErrors
  text := fun _ => none
  traceback := fun _ => ""

def exampleMeta : Dict := [(.text "reply_to", .text "service.example.0!")]

/-- A request for the action, as a message of a client. -/
def exampleRequestMessage : Value :=
  .dict [(.text "request_id", .int 1), (.text "meta", .dict exampleMeta),
    (.text "body", .dict (exampleRequest ["read"]))]

/-- The JSON serializer, which is to read the request. -/
def exampleJson : Serializer := PlainJson.serializer [exampleRequestMessage]

def exampleRedisTransport : RedisServerTransport where
  core := .chunkingServer exampleJson "example"
  isServer := rfl

def exampleRequestBlob : Bytes := (PlainJson.dumps exampleRequestMessage).getD []

/-- The request is waiting, framed in the given version. -/
def exampleRedisWorld (v : ProtocolVersion) : Unit × RedisIo :=
  ((), { pops := [.message (RedisTransportCore.framePrelude v exampleJson ++ exampleRequestBlob)] })

def exampleReceived (v : ProtocolVersion) : ReceivedMessage where
  requestId := .int 1
  metaDict := { entries := exampleMeta, protocolVersion := some v, serializer := some exampleJson }
  body := .dict (exampleRequest ["read"])

set_option maxRecDepth 20000 in
lemma receive_exampleRedisWorld (v : ProtocolVersion) :
    (exampleRedisTransport.toServerTransport Unit).receiveRequestMessage (exampleRedisWorld v) =
      (.ok (exampleReceived v), ((), { ticks := 1 })) := by
  cases v <;> rfl

set_option maxRecDepth 20000 in
lemma headFramed_exampleRedisWorld (v : ProtocolVersion) :
    exampleRedisTransport.core.HeadFramed (exampleRedisWorld v).2.pops v exampleJson := by
  cases v with
  | version1 => exact ⟨_, _, _, rfl, rfl, rfl⟩
  | version2 => exact ⟨_, _, _, rfl, rfl, rfl⟩
  | version3 => exact ⟨_, _, _, rfl, rfl, rfl⟩

/-- A request in the version and the serializer of the settings. -/
theorem respondsIn_iff_version3 :
    (exampleRedisServer (.dict [])).RespondsIn exampleRedisTransport .version3 exampleJson
      (exampleReceived .version3) (exampleRequest ["read"]) (exampleRedisWorld .version3)
      ((), { ticks := 1 }) :=
  (respondsIn_iff (receive_exampleRedisWorld .version3) (headFramed_exampleRedisWorld .version3) rfl).mpr
    (.inl ⟨rfl, rfl⟩)

/-- A response with bytes in its body cannot be written in JSON. The error that tells a client of the
second version so is framed in the third. -/
theorem not_respondsIn_version2 :
    ¬(exampleRedisServer (.dict [(.text "raw", .bytes [255])])).RespondsIn exampleRedisTransport .version2
      exampleJson (exampleReceived .version2) (exampleRequest ["read"]) (exampleRedisWorld .version2)
      ((), { ticks := 1 }) := by
  rintro ⟨frames, hpushed, hframes⟩
  have hversions := congrArg (List.map (·.protocolVersion)) hpushed
  have hbefore : ((exampleRedisServer (.dict [(.text "raw", .bytes [255])])).worldAfterJob
      (exampleReceived .version2) (exampleRequest ["read"]) ((), { ticks := 1 })).2.pushed.map
        (·.protocolVersion) = [] := by decide +kernel
  have hafter : ((exampleRedisServer (.dict [(.text "raw", .bytes [255])])).handleNextRequest
      (exampleRedisTransport.toServerTransport Unit) (exampleRedisWorld .version2)).world.2.pushed.map
        (·.protocolVersion) = [.version3] := by decide +kernel
  rw [hafter, List.map_append, hbefore, List.nil_append] at hversions
  obtain ⟨frame, hframe, hversion⟩ : ∃ frame ∈ frames, frame.protocolVersion = .version3 := by
    rw [← List.mem_map, ← hversions]
    exact List.mem_singleton_self _
  cases (hframes frame hframe).1.1.symm.trans hversion

end Server
end PySOA
