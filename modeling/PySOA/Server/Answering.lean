import PySOA.Server.Execution
import PySOA.Server.Requests

/-! When the server answers a request with exactly one response. -/
namespace PySOA

namespace Dict

lemma hasKeyText_iff (d : Dict) (key : String) :
    d.hasKeyText key = true ↔ ∃ kv ∈ d, kv.1.toText = key := by
  simp [hasKeyText]

lemma exists_key_set_iff (d : Dict) (k : String) (v : Value) (key : String) :
    (∃ kv ∈ d.set k v, kv.1.toText = key) ↔ k = key ∨ ∃ kv ∈ d, kv.1.toText = key := by
  constructor
  · rintro ⟨kv, hkv, rfl⟩
    obtain rfl | hkv := mem_set hkv
    · exact .inl rfl
    · exact .inr ⟨kv, hkv, rfl⟩
  · rintro (rfl | ⟨kv, hkv, rfl⟩)
    · exact ⟨_, mem_set_self d k v, rfl⟩
    · by_cases hk : kv.1 = .text k
      · exact ⟨_, mem_set_self d k v, by rw [hk]⟩
      · exact ⟨kv, mem_set_of_mem hkv hk, rfl⟩

lemma unicodeKeys_append_singleton (d : Dict) (kv : Key × Value) :
    unicodeKeys (d ++ [kv]) = (unicodeKeys d).set kv.1.toText kv.2 := by
  simp [unicodeKeys]

/-- Making the keys of a dict texts keeps the texts that they have. -/
lemma hasKeyText_unicodeKeys (d : Dict) (key : String) :
    d.unicodeKeys.hasKeyText key = d.hasKeyText key := by
  rw [Bool.eq_iff_iff, hasKeyText_iff, hasKeyText_iff]
  induction d using List.reverseRecOn with
  | nil => rfl
  | append_singleton d kv ih =>
    rw [unicodeKeys_append_singleton, exists_key_set_iff, ih]
    simp only [List.mem_append, List.mem_singleton, or_and_right, exists_or, exists_eq_left]
    exact or_comm

lemma isText_of_mem_unicodeKeys (d : Dict) : ∀ kv ∈ d.unicodeKeys, kv.1.isText = true := by
  induction d using List.reverseRecOn with
  | nil =>
    intro kv hkv
    cases hkv
  | append_singleton d kv ih =>
    intro kv' hkv'
    rw [unicodeKeys_append_singleton] at hkv'
    obtain rfl | hkv' := mem_set hkv'
    · rfl
    · exact ih kv' hkv'

end Dict

/-- The context of the request, if there is one, is a dict whose keys do not name the arguments
that the logging filter takes besides. -/
def Loggable (jobRequest : Dict) : Prop :=
  ∃ context : Dict, (jobRequest.get? "context").getD (.dict []) = .dict context ∧
    context.hasKeyText "request_id" = false ∧ context.hasKeyText "cls" = false

lemma setLoggingRequestContext_eq_ok_iff (repeatedArgument : String) (context : Dict) :
    setLoggingRequestContext repeatedArgument (.dict context) = .ok () ↔ context.all (·.1.isText) = true ∧
      context.hasKeyText "request_id" = false ∧ context.hasKeyText "cls" = false := by
  rw [setLoggingRequestContext]
  by_cases htext : context.all (·.1.isText) = true
  · rw [if_neg (not_not.mpr htext), and_iff_right htext]
    by_cases hkeys : (context.hasKeyText "request_id" || context.hasKeyText "cls") = true
    · rw [if_pos hkeys]
      constructor
      · intro h
        cases h
      · rintro ⟨hid, hcls⟩
        rw [hid, hcls] at hkeys
        cases hkeys
    · rw [if_neg hkeys]
      rw [Bool.or_eq_true, not_or, Bool.not_eq_true, Bool.not_eq_true] at hkeys
      exact iff_of_true rfl hkeys
  · rw [if_pos htext]
    constructor
    · intro h
      cases h
    · exact fun h => absurd h.1 htext

/-- Setting the logging context works, perhaps at the second try, exactly for such contexts. -/
lemma logRequestContext_eq_ok_iff (repeatedArgument : String) (jobRequest : Dict) :
    logRequestContext repeatedArgument jobRequest = .ok () ↔ Loggable jobRequest := by
  unfold logRequestContext Loggable
  generalize (jobRequest.get? "context").getD (.dict []) = context
  cases context with
  | dict context =>
    have hfirst := setLoggingRequestContext_eq_ok_iff "TypeError" context
    have hsecond := setLoggingRequestContext_eq_ok_iff repeatedArgument (Dict.unicodeKeys context)
    have htext := List.all_eq_true.mpr (Dict.isText_of_mem_unicodeKeys context)
    rw [Dict.hasKeyText_unicodeKeys, Dict.hasKeyText_unicodeKeys, and_iff_right htext] at hsecond
    cases hset : setLoggingRequestContext "TypeError" (.dict context) with
    | ok u => simpa only [hset, Value.dict.injEq, exists_eq_left', true_iff] using (hfirst.mp hset).2
    | error e => simpa only [hset, Value.dict.injEq, exists_eq_left'] using hsecond
  | _ => simp [setLoggingRequestContext]

/-- The control header, if there is one, is a dict. -/
def ControlIsDict (jobRequest : Dict) : Prop :=
  ∃ control : Dict, (jobRequest.get? "control").getD (.dict []) = .dict control

/-- The control header asks for no response. -/
def Suppresses (jobRequest : Dict) : Prop := suppressResponse jobRequest = .ok true

lemma suppressResponse_cases (jobRequest : Dict) :
    (ControlIsDict jobRequest ∧ ∃ b, suppressResponse jobRequest = .ok b) ∨
      ¬ControlIsDict jobRequest ∧ ∃ cls message, suppressResponse jobRequest = .error (.exception cls message) := by
  unfold ControlIsDict suppressResponse
  generalize (jobRequest.get? "control").getD (.dict []) = control
  cases control with
  | dict control => exact .inl ⟨⟨control, rfl⟩, _, rfl⟩
  | _ =>
    refine .inr ⟨?_, _, _, rfl⟩
    rintro ⟨control, h⟩
    cases h

lemma exists_of_logRequestContext_error {repeatedArgument : String} {jobRequest : Dict} {e : Exc}
    (h : logRequestContext repeatedArgument jobRequest = .error e) : ∃ cls message, e = .exception cls message := by
  have hset : ∀ {r : String} {v : Value} {e : Exc}, setLoggingRequestContext r v = .error e →
      ∃ cls message, e = .exception cls message := by
    intro r v e h
    unfold setLoggingRequestContext at h
    split at h
    · split_ifs at h <;> exact ⟨_, _, (Except.error.inj h).symm⟩
    · exact ⟨_, _, (Except.error.inj h).symm⟩
  unfold logRequestContext at h
  dsimp only at h
  split at h
  · cases h
  · exact hset h
  · exact ⟨_, _, (Except.error.inj h).symm⟩

/-- The response has been sent, or the transport itself has failed to send. -/
def SentOrFailed (result : Except Exc Unit) : Prop :=
  result = .ok () ∨ ∃ message, result = .error (.messageSendError message)

/-- Exactly one response has been sent for the request, or the transport has failed to send. -/
def AnsweredOnce {σ : Type} (requestId : Value) (handled : Handled σ) : Prop :=
  (handled.result = .ok () ∧ ∃ response, handled.sent = [(requestId, response)]) ∨
    ∃ message, handled.result = .error (.messageSendError message)

namespace ServerTransport
variable {σ : Type} (transport : ServerTransport σ)

/-- The message can be sent, or the error can that takes its place if it is too large or cannot be
serialized. -/
def Delivers (received : ReceivedMessage) (version : List ℤ) (message : Value) (w : σ) : Prop :=
  let first := transport.sendResponseMessage received.requestId received.metaDict message w
  SentOrFailed first.1 ∨ ∃ e jobResponse replacement, first.1 = .error e ∧
    replacement? e = some jobResponse ∧ jobResponse.asdict version = .ok replacement ∧
    SentOrFailed (transport.sendResponseMessage received.requestId first.2.1 replacement first.2.2).1

lemma answeredOnce_error_iff {requestId : Value} {e : Exc} {w : σ} :
    AnsweredOnce requestId { result := .error e, world := w } ↔ ∃ message, e = .messageSendError message := by
  constructor
  · rintro (⟨h, -⟩ | ⟨message, h⟩)
    · cases h
    · exact ⟨message, Except.error.inj h⟩
  · rintro ⟨message, rfl⟩
    exact .inr ⟨message, rfl⟩

lemma sentOrFailed_error_iff {e : Exc} : SentOrFailed (.error e) ↔ ∃ message, e = .messageSendError message := by
  constructor
  · rintro (h | ⟨message, h⟩)
    · cases h
    · exact ⟨message, Except.error.inj h⟩
  · rintro ⟨message, rfl⟩
    exact .inr ⟨message, rfl⟩

lemma exists_asdict_replacement {e : Exc} {jobResponse : JobResponse} (h : replacement? e = some jobResponse)
    (version : List ℤ) : ∃ message, jobResponse.asdict version = .ok message := by
  cases e with
  | messageTooLarge _ _ =>
    cases h
    exact ⟨_, rfl⟩
  | invalidField _ =>
    cases h
    exact ⟨_, rfl⟩
  | _ => cases h

lemma answeredOnce_sendResponse_iff (received : ReceivedMessage) (version : List ℤ) (message : Value)
    (w : σ) : AnsweredOnce received.requestId (transport.sendResponse received version message w) ↔
      transport.Delivers received version message w := by
  unfold sendResponse Delivers
  obtain ⟨result, metaDict, w'⟩ :=
    transport.sendResponseMessage received.requestId received.metaDict message w
  cases result with
  | ok u => exact iff_of_true (.inl ⟨rfl, message, rfl⟩) (.inl (.inl rfl))
  | error e =>
    dsimp only
    cases hreplacement : replacement? e with
    | none =>
      rw [answeredOnce_error_iff, sentOrFailed_error_iff, or_iff_left]
      rintro ⟨e', jobResponse, replacement, he, hr, -⟩
      cases he
      rw [hreplacement] at hr
      cases hr
    | some jobResponse =>
      have hne : ¬SentOrFailed (.error e) := by
        rw [sentOrFailed_error_iff]
        rintro ⟨m, rfl⟩
        cases hreplacement
      obtain ⟨replacement, hasdict⟩ := exists_asdict_replacement hreplacement version
      have hsecond : (∃ e' jobResponse' replacement', Except.error e = Except.error (α := Unit) e' ∧
          replacement? e' = some jobResponse' ∧ jobResponse'.asdict version = .ok replacement' ∧
          SentOrFailed (transport.sendResponseMessage received.requestId metaDict replacement' w').1) ↔
          SentOrFailed (transport.sendResponseMessage received.requestId metaDict replacement w').1 := by
        constructor
        · rintro ⟨e', jobResponse', replacement', he, hr, ha, h⟩
          cases he
          cases hreplacement.symm.trans hr
          cases hasdict.symm.trans ha
          exact h
        · exact fun h => ⟨e, jobResponse, replacement, rfl, hreplacement, hasdict, h⟩
      rw [or_iff_right hne, hsecond]
      dsimp only
      rw [hasdict]
      dsimp only
      obtain ⟨result, metaDict, w''⟩ :=
        transport.sendResponseMessage received.requestId metaDict replacement w'
      cases result with
      | ok u => exact iff_of_true (.inl ⟨rfl, replacement, rfl⟩) (.inl rfl)
      | error e => exact answeredOnce_error_iff.trans sentOrFailed_error_iff.symm

end ServerTransport

namespace Server
variable {σ : Type} (server : Server σ)

lemma exists_responseMessage (version : List ℤ) (jobResponse : JobResponse) :
    ∃ message, server.responseMessage version jobResponse = .ok message := by
  unfold responseMessage
  cases jobResponse.asdict version with
  | ok message => exact ⟨message, rfl⟩
  | error e =>
    dsimp only
    cases server.repr jobResponse with
    | none => exact ⟨_, rfl⟩
    | some repr => exact ⟨_, rfl⟩

/-- The request gets exactly one response, or none if it asks for that, and the server goes on; it
raises only if the transport has failed to send. -/
def AnswersNext (transport : ServerTransport σ) (requestId : Value) (jobRequest : Dict) (w : σ) : Prop :=
  let handled := server.handleNextRequest transport w
  (Suppresses jobRequest → handled.result = .ok () ∧ handled.sent = []) ∧
    (¬Suppresses jobRequest → AnsweredOnce requestId handled)

/-- The response that the job of the request gets, as a message, can be delivered. -/
def DeliversResponse (transport : ServerTransport σ) (received : ReceivedMessage) (version : List ℤ)
    (jobRequest : Dict) (w : σ) : Prop :=
  let out := server.processJob jobRequest w
  ∀ message, server.responseMessage version out.1 = .ok message →
    transport.Delivers received version message out.2

variable {server} {transport : ServerTransport σ} {received : ReceivedMessage} {version : List ℤ}
  {jobRequest : Dict} {w w' : σ}

lemma handleNextRequest_eq (hreceive : transport.receiveRequestMessage w = (.ok received, w'))
    (hid : received.requestId ≠ .none) (hbody : received.body = .dict jobRequest) :
    server.handleNextRequest transport w = server.handleRequest transport received jobRequest w' := by
  rw [handleNextRequest, hreceive]
  dsimp only
  rw [hbody]
  cases hrequestId : received.requestId with
  | none => exact absurd hrequestId hid
  | _ => rfl

lemma not_answeredOnce_of_exception {requestId : Value} {cls message : String} :
    ¬AnsweredOnce requestId ({ result := .error (.exception cls message), world := w } : Handled σ) := by
  rw [ServerTransport.answeredOnce_error_iff]
  rintro ⟨m, h⟩
  cases h

lemma handleRequest_of_not_loggable (h : ¬Loggable jobRequest) : ∃ cls message,
    server.handleRequest transport received jobRequest w =
      { result := .error (.exception cls message), world := w } := by
  cases hlog : logRequestContext server.repeatedArgument jobRequest with
  | ok u => exact absurd ((logRequestContext_eq_ok_iff _ jobRequest).mp hlog) h
  | error e =>
    obtain ⟨cls, message, rfl⟩ := exists_of_logRequestContext_error hlog
    exact ⟨cls, message, by rw [handleRequest, hlog]⟩

/-- What is left to do for a request whose context could be logged. -/
lemma handleRequest_of_loggable (h : Loggable jobRequest)
    (hversion : clientVersion received.metaDict = .ok version) {message : Value}
    (hmessage : server.responseMessage version (server.processJob jobRequest w).1 = .ok message) :
    server.handleRequest transport received jobRequest w =
      match suppressResponse jobRequest with
      | .error e => { result := .error e, world := (server.processJob jobRequest w).2 }
      | .ok true => { result := .ok (), world := (server.processJob jobRequest w).2 }
      | .ok false => transport.sendResponse received version message (server.processJob jobRequest w).2 := by
  rw [handleRequest, (logRequestContext_eq_ok_iff _ jobRequest).mpr h, hversion]
  dsimp only
  rw [hmessage]
  cases suppressResponse jobRequest with
  | error e => rfl
  | ok suppress => cases suppress <;> rfl

/-- A request is answered exactly if its context can be passed to the logging filter, its control
header is a dict, and the response or its replacement can be delivered unless it is suppressed. -/
theorem answersNext_iff (hreceive : transport.receiveRequestMessage w = (.ok received, w'))
    (hid : received.requestId ≠ .none) (hbody : received.body = .dict jobRequest)
    (hversion : clientVersion received.metaDict = .ok version) :
    server.AnswersNext transport received.requestId jobRequest w ↔
      Loggable jobRequest ∧ ControlIsDict jobRequest ∧
        (¬Suppresses jobRequest → server.DeliversResponse transport received version jobRequest w') := by
  unfold AnswersNext
  rw [handleNextRequest_eq hreceive hid hbody]
  by_cases hlog : Loggable jobRequest
  · obtain ⟨message, hmessage⟩ := server.exists_responseMessage version (server.processJob jobRequest w').1
    have hdelivers : server.DeliversResponse transport received version jobRequest w' ↔
        transport.Delivers received version message (server.processJob jobRequest w').2 := by
      constructor
      · exact fun h => h message hmessage
      · intro h message' hmessage'
        cases hmessage.symm.trans hmessage'
        exact h
    rw [handleRequest_of_loggable hlog hversion hmessage, and_iff_right hlog, hdelivers,
      ← ServerTransport.answeredOnce_sendResponse_iff]
    unfold Suppresses
    obtain ⟨hcontrol, suppress, hsuppress⟩ | ⟨hcontrol, cls, m, hsuppress⟩ :=
      suppressResponse_cases jobRequest
    · rw [hsuppress, and_iff_right hcontrol]
      cases suppress with
      | true => simp
      | false => simp
    · rw [hsuppress]
      refine iff_of_false (fun h => ?_) fun h => hcontrol h.1
      exact not_answeredOnce_of_exception (h.2 fun h => by cases h)
  · obtain ⟨cls, m, hhandle⟩ : ∃ cls m, server.handleRequest transport received jobRequest w' =
        { result := .error (.exception cls m), world := w' } := handleRequest_of_not_loggable hlog
    rw [hhandle]
    refine iff_of_false (fun h => ?_) fun h => hlog h.1
    by_cases hsuppress : Suppresses jobRequest
    · cases (h.1 hsuppress).1
    · exact not_answeredOnce_of_exception (h.2 hsuppress)

/-- A transport that has received a request and sends every response. -/
def exampleTransport (jobRequest : Dict) : ServerTransport (List String) where
  receiveRequestMessage w := (.ok ⟨.int 1, {}, .dict jobRequest⟩, w)
  sendResponseMessage _ metaDict _ w := (.ok (), metaDict, w)

theorem answersNext_iff_greet :
    exampleServer.AnswersNext (exampleTransport (exampleRequest ["greet"])) (.int 1)
      (exampleRequest ["greet"]) [] := by
  have hreceive : (exampleTransport (exampleRequest ["greet"])).receiveRequestMessage [] =
      (.ok ⟨.int 1, {}, .dict (exampleRequest ["greet"])⟩, []) := rfl
  exact (answersNext_iff hreceive (by simp) rfl rfl).mpr
    ⟨⟨exampleContext, rfl, by decide +kernel, by decide +kernel⟩, ⟨exampleControl, rfl⟩,
      fun _ _ _ => .inl (.inl rfl)⟩

/-- A request whose context has an entry named `request_id`. -/
def requestIdRequest : Dict :=
  [(.text "control", .dict exampleControl),
    (.text "context", .dict ((.text "request_id", .text "abc") :: exampleContext)),
    (.text "actions", .list [.dict [(.text "action", .text "greet")]])]

/-- The entry is taken for an argument given twice, and the server raises instead of answering. -/
theorem not_answersNext_requestIdRequest :
    ¬exampleServer.AnswersNext (exampleTransport requestIdRequest) (.int 1) requestIdRequest [] := by
  have hlog : ¬Loggable requestIdRequest := by
    rintro ⟨context, hcontext, hid, -⟩
    cases hcontext
    exact absurd hid (by decide +kernel)
  obtain ⟨cls, m, hhandle⟩ : ∃ cls m, exampleServer.handleRequest (exampleTransport requestIdRequest)
      ⟨.int 1, {}, .dict requestIdRequest⟩ requestIdRequest [] =
        { result := .error (.exception cls m), world := [] } := handleRequest_of_not_loggable hlog
  have hsuppress : ¬Suppresses requestIdRequest := fun h => by cases h
  intro h
  have hanswered := h.2 hsuppress
  rw [handleNextRequest_eq rfl (by simp) rfl, hhandle] at hanswered
  exact not_answeredOnce_of_exception hanswered

end Server
end PySOA
