import PySOA.Client.Resolving

/-! Parallel calls: whatever the order in which responses arrive and whatever sends and receives
fail, each job has its own response or its own transport error. -/
namespace PySOA

/-- What the loop over the responses of a handler meets, when all that is outstanding are the given
requests and each is answered at most once: responses to some of them in any order, and then
either nothing is outstanding any more or a transport error. -/
inductive ServiceHandler.Receives : ServiceHandler → List ℤ → List (ℤ × JobResponse) → Option Exc → Prop
  | nothing {handler requestIds} (hcount : handler.transport.requestsOutstanding = 0) :
      Receives handler requestIds [] none
  | error {handler requestIds e} (hout : handler.baseGetResponse.1 = .error e)
      (htransport : e.isTransportError = true) : Receives handler requestIds [] (some e)
  | response {handler requestIds requestId response received error}
      (hout : handler.baseGetResponse.1 = .ok (some (.int requestId, response)))
      (hmem : requestId ∈ requestIds)
      (hrest : Receives handler.baseGetResponse.2 (requestIds.erase requestId) received error) :
      Receives handler requestIds ((requestId, response) :: received) error

namespace ServiceHandler
variable {handler : ServiceHandler} {requestIds : List ℤ} {received : List (ℤ × JobResponse)}
  {error : Option Exc}

lemma Receives.mem_requestIds (h : handler.Receives requestIds received error) :
    ∀ requestId ∈ received.map Prod.fst, requestId ∈ requestIds := by
  induction h with
  | nothing => simp
  | error => simp
  | response _ hmem _ ih =>
    intro requestId hid
    rcases List.mem_cons.mp hid with rfl | hid
    · exact hmem
    · exact List.mem_of_mem_erase (ih requestId hid)

lemma Receives.nodup (h : handler.Receives requestIds received error) (hnodup : requestIds.Nodup) :
    (received.map Prod.fst).Nodup := by
  induction h with
  | nothing => exact List.nodup_nil
  | error => exact List.nodup_nil
  | response _ _ hrest ih =>
    rw [List.map_cons, List.nodup_cons]
    refine ⟨?_, ih (hnodup.erase _)⟩
    intro hmem
    exact (hnodup.not_mem_erase) (hrest.mem_requestIds _ hmem)

lemma Receives.transport (h : handler.Receives requestIds received error) {e : Exc} (he : error = some e) :
    e.isTransportError = true := by
  induction h with
  | nothing => cases he
  | error _ htransport =>
    cases he
    exact htransport
  | response _ _ _ ih => exact ih he

/-- Without an error the loop ends only when all requests have been answered. -/
lemma Receives.complete (h : handler.Receives requestIds received error) (herror : error = none)
    (hcount : handler.transport.requestsOutstanding = requestIds.length) :
    ∀ requestId ∈ requestIds, requestId ∈ received.map Prod.fst := by
  induction h with
  | nothing hzero =>
    rw [hzero] at hcount
    intro requestId hid
    rw [List.length_eq_zero_iff.mp hcount.symm] at hid
    cases hid
  | error => cases herror
  | @response handler requestIds first response received error hout hmem _ ih =>
    have hless := requestsOutstanding_baseGetResponse hout
    have hrest := ih herror (by rw [List.length_erase_of_mem hmem]; omega)
    intro requestId hid
    by_cases hfirst : requestId = first
    · exact List.mem_cons.mpr (.inl hfirst)
    · exact List.mem_cons_of_mem _ (hrest requestId ((List.mem_erase_of_ne hfirst).mpr hid))

end ServiceHandler

namespace JobsFuture
open ServiceHandler

/-- How the loop over responses ends. -/
def ending : Option Exc → Except Exc Unit
  | none => .ok ()
  | some e => .error e

/-- The responses of one service, as they are kept. -/
def kept (serviceName : String) (received : List (ℤ × JobResponse)) : ServiceResponses :=
  (received.map fun entry => ((serviceName, entry.1), entry.2)).reverse

/-- The loop over the responses of one service. The expected ids are those that are left, or, if no
errors are caught, all of them. -/
lemma forResponses_receives (catchTransportErrors : Bool) (serviceName : String) {handler : ServiceHandler}
    {requestIds expected : List ℤ} {received : List (ℤ × JobResponse)} {error : Option Exc}
    (h : handler.Receives requestIds received error) {n : ℕ}
    (hn : handler.transport.requestsOutstanding < n) (responses : ServiceResponses)
    (hnodup : requestIds.Nodup) (hsub : requestIds ⊆ expected)
    (hexpected : catchTransportErrors = true → expected = requestIds) :
    ∃ expected' handler', forResponses (receive catchTransportErrors serviceName) n
        (expected, responses) handler =
        (ending error, (expected', kept serviceName received ++ responses), handler') ∧
      (catchTransportErrors = true →
        ∀ requestId, requestId ∈ expected' ↔ requestId ∈ requestIds ∧ requestId ∉ received.map Prod.fst) := by
  induction h generalizing n expected responses with
  | @nothing handler requestIds hcount =>
    obtain ⟨n, rfl⟩ : ∃ m, n = m+1 := ⟨n-1, by omega⟩
    have hout : ∃ handler', handler.baseGetResponse = (.ok none, handler') := by
      unfold baseGetResponse RedisClientTransport.receiveResponseMessage
      simp [hcount, ReceivedMessage.empty, Value.isNone]
    obtain ⟨handler', hout⟩ := hout
    refine ⟨expected, handler', by simp [forResponses, hout, kept, ending], ?_⟩
    intro hcatch requestId
    simp [hexpected hcatch]
  | @error handler requestIds e hout =>
    obtain ⟨n, rfl⟩ : ∃ m, n = m+1 := ⟨n-1, by omega⟩
    refine ⟨expected, handler.baseGetResponse.2, ?_, ?_⟩
    · cases hpair : handler.baseGetResponse with
      | mk result handler' =>
        rw [hpair] at hout
        cases hout
        simp [forResponses, hpair, kept, ending]
    · intro hcatch requestId
      simp [hexpected hcatch]
  | @response handler requestIds requestId response received error hout hmem _ ih =>
    obtain ⟨n, rfl⟩ : ∃ m, n = m+1 := ⟨n-1, by omega⟩
    have hless := requestsOutstanding_baseGetResponse hout
    have hsub' : requestIds.erase requestId ⊆
        if catchTransportErrors then expected.erase requestId else expected := by
      intro id hid
      have hid' := hsub (List.mem_of_mem_erase hid)
      have hne : id ≠ requestId := fun heq => hnodup.not_mem_erase (heq ▸ hid)
      cases catchTransportErrors with
      | true => exact (List.mem_erase_of_ne hne).mpr hid'
      | false => exact hid'
    have hexpected' : catchTransportErrors = true →
        (if catchTransportErrors then expected.erase requestId else expected) =
          requestIds.erase requestId := by
      intro hcatch
      rw [if_pos hcatch, hexpected hcatch]
    obtain ⟨expected', handler', hloop, hleft⟩ := ih (n := n) (by omega)
      (((serviceName, requestId), response) :: responses) (hnodup.erase _) hsub' hexpected'
    refine ⟨expected', handler', ?_, ?_⟩
    · cases hpair : handler.baseGetResponse with
      | mk result next =>
        rw [hpair] at hout hloop
        cases hout
        have hreceive : receive catchTransportErrors serviceName (expected, responses) (.int requestId)
            response = .ok (if catchTransportErrors then expected.erase requestId else expected,
              ((serviceName, requestId), response) :: responses) := receive_of_mem (hsub hmem)
        dsimp only at hloop
        simp only [forResponses, hpair, Value.isNone, Bool.false_eq_true, if_false, hreceive]
        rw [hloop]
        simp [kept]
    · intro hcatch id
      rw [hleft hcatch id, hnodup.mem_erase_iff, List.map_cons, List.mem_cons, not_or]
      tauto

lemma lookup_kept_of_notMem {serviceName : String} {received : List (ℤ × JobResponse)}
    {key : String × ℤ} (hnot : key.1 ≠ serviceName ∨ key.2 ∉ received.map Prod.fst) :
    lookup key (kept serviceName received) = none := by
  unfold lookup
  rw [Option.map_eq_none_iff, List.find?_eq_none]
  intro other hother heq
  obtain ⟨pair, hpair, rfl⟩ := List.mem_map.mp (List.mem_reverse.mp hother)
  have hkey : (serviceName, pair.1) = key := of_decide_eq_true heq
  rcases hnot with hname | hid
  · exact hname (congrArg Prod.fst hkey).symm
  · exact hid (congrArg Prod.snd hkey ▸ List.mem_map_of_mem hpair)

lemma lookup_kept {serviceName : String} {received : List (ℤ × JobResponse)}
    (hnodup : (received.map Prod.fst).Nodup) {requestId : ℤ} {response : JobResponse}
    (hmem : (requestId, response) ∈ received) :
    lookup (serviceName, requestId) (kept serviceName received) = some response := by
  induction received with
  | nil => cases hmem
  | cons entry received ih =>
    rw [List.map_cons, List.nodup_cons] at hnodup
    have hcons : kept serviceName (entry :: received) =
        kept serviceName received ++ [((serviceName, entry.1), entry.2)] := by simp [kept]
    rw [hcons, lookup_append]
    rcases List.mem_cons.mp hmem with rfl | hmem
    · have hnone : lookup (serviceName, requestId) (kept serviceName received) = none :=
        lookup_kept_of_notMem (.inr hnodup.1)
      rw [hnone, lookup_cons, if_pos rfl]
      rfl
    · rw [ih hnodup.2 hmem]
      rfl

/-- The ids that are left of a service when it fails have its error. -/
lemma lookup_failed (serviceName : String) (requestIds : List ℤ) (e : Exc) (key : String × ℤ) :
    lookup key (requestIds.map fun requestId => ((serviceName, requestId), e)) =
      if key.1 = serviceName ∧ key.2 ∈ requestIds then some e else none := by
  induction requestIds with
  | nil => simp [lookup]
  | cons requestId requestIds ih =>
    rw [List.map_cons, lookup_cons, ih]
    by_cases hkey : (serviceName, requestId) = key
    · subst hkey
      simp
    · rw [if_neg hkey]
      refine if_congr ?_ rfl rfl
      rw [List.mem_cons]
      constructor
      · rintro ⟨hname, hid⟩
        exact ⟨hname, .inr hid⟩
      · rintro ⟨hname, hid | hid⟩
        · exact absurd (Prod.ext hname.symm hid.symm) hkey
        · exact ⟨hname, hid⟩

/-- What is known of a request after the responses of all services have been received: its response
is kept, or it has not been received and the error of its service is. -/
def Settled (catchTransportErrors : Bool) (received : List (ℤ × JobResponse)) (error : Option Exc)
    (responses : ServiceResponses) (transportErrors : List ((String × ℤ) × Exc)) (key : String × ℤ) : Prop :=
  (∃ response, (key.2, response) ∈ received ∧ lookup key responses = some response) ∨
    catchTransportErrors = true ∧ key.2 ∉ received.map Prod.fst ∧ lookup key responses = none ∧
      ∃ e, error = some e ∧ lookup key transportErrors = some e

/-- The services of a parallel call are ready: the handler of each waits for its requests, and its
responses are given. -/
structure Ready (client : Client) (serviceName : String) (requestIds : List ℤ)
    (received : List (ℤ × JobResponse)) (error : Option Exc) : Prop where
  nodup : requestIds.Nodup
  receives : ∃ handler, client.handlers serviceName = some handler ∧
    handler.transport.requestsOutstanding = requestIds.length ∧ handler.Receives requestIds received error

lemma Ready.congr {client client' : Client} {serviceName : String} {requestIds : List ℤ}
    {received : List (ℤ × JobResponse)} {error : Option Exc}
    (h : Ready client serviceName requestIds received error)
    (hsame : client'.handlers serviceName = client.handlers serviceName) :
    Ready client' serviceName requestIds received error := by
  obtain ⟨handler, hhandler, hrest⟩ := h.receives
  exact ⟨h.nodup, handler, hsame.trans hhandler, hrest⟩

/-- The loop over the responses of a service that is ready. -/
lemma Ready.getAllResponses {client : Client} {serviceName : String} {requestIds : List ℤ}
    {received : List (ℤ × JobResponse)} {error : Option Exc}
    (h : Ready client serviceName requestIds received error) (catchTransportErrors : Bool)
    (responses : ServiceResponses) :
    ∃ left client', client.getAllResponses serviceName (receive catchTransportErrors serviceName)
        (requestIds, responses) = (ending error, (left, kept serviceName received ++ responses), client') ∧
      (catchTransportErrors = true →
        ∀ requestId, requestId ∈ left ↔ requestId ∈ requestIds ∧ requestId ∉ received.map Prod.fst) ∧
      ∀ name, name ≠ serviceName → client'.handlers name = client.handlers name := by
  obtain ⟨handler, hhandler, -, hreceives⟩ := h.receives
  obtain ⟨left, handler', hloop, hleft⟩ := forResponses_receives catchTransportErrors serviceName hreceives
    (Nat.lt_succ_self _) responses h.nodup (List.Subset.refl _) (fun _ => rfl)
  refine ⟨left, client.setHandler serviceName handler', ?_, hleft, ?_⟩
  · simp only [Client.getAllResponses, hhandler, ServiceHandler.getAllResponses, hloop]
  · intro name hname
    simp [Function.update_of_ne hname]

/-- The requests of the service whose loop has been run are settled, if later services do not change
what is kept for them. -/
lemma Ready.settled {client : Client} {serviceName : String} {requestIds : List ℤ}
    {received : List (ℤ × JobResponse)} {error : Option Exc}
    (h : Ready client serviceName requestIds received error) {catchTransportErrors : Bool}
    {responses responses' : ServiceResponses} {transportErrors : List ((String × ℤ) × Exc)}
    {requestId : ℤ} (hid : requestId ∈ requestIds)
    (hfresh : lookup (serviceName, requestId) responses = none)
    (hkept : lookup (serviceName, requestId) responses' =
      lookup (serviceName, requestId) (kept serviceName received ++ responses))
    (hfailed : ∀ e, error = some e → requestId ∉ received.map Prod.fst → catchTransportErrors = true ∧
      lookup (serviceName, requestId) transportErrors = some e) :
    Settled catchTransportErrors received error responses' transportErrors (serviceName, requestId) := by
  obtain ⟨handler, -, hcount, hreceives⟩ := h.receives
  rw [lookup_append, hfresh] at hkept
  by_cases hmem : requestId ∈ received.map Prod.fst
  · left
    obtain ⟨⟨id, response⟩, hpair, rfl⟩ := List.mem_map.mp hmem
    refine ⟨response, hpair, ?_⟩
    rw [hkept, lookup_kept (hreceives.nodup h.nodup) hpair]
    rfl
  · right
    cases herror : error with
    | none => exact absurd (hreceives.complete herror hcount requestId hid) hmem
    | some e =>
      obtain ⟨hcatch, hlookup⟩ := hfailed e herror hmem
      refine ⟨hcatch, hmem, ?_, e, rfl, hlookup⟩
      rw [hkept, lookup_kept_of_notMem (.inr hmem)]
      rfl

variable {received : String → List (ℤ × JobResponse)} {error : String → Option Exc}

/-- The outcome of the loop over the services: it raises only if errors are not caught, and otherwise
the requests of these services are settled, and nothing else is changed. -/
structure AllSettled (catchTransportErrors : Bool) (names : List String) (ids : String → List ℤ)
    (received : String → List (ℤ × JobResponse)) (error : String → Option Exc) (state : JobsState)
    (responses : ServiceResponses) (out : Except Exc ServiceResponses × JobsState × Client) : Prop where
  ok : catchTransportErrors = true → ∃ responses', out.1 = .ok responses'
  settled : ∀ responses', out.1 = .ok responses' → ∀ key : String × ℤ, key.1 ∈ names → key.2 ∈ ids key.1 →
    Settled catchTransportErrors (received key.1) (error key.1) responses' out.2.1.transportErrors key
  others : ∀ responses', out.1 = .ok responses' → ∀ key : String × ℤ, key.1 ∉ names →
    lookup key responses' = lookup key responses
  errors : ∀ responses', out.1 = .ok responses' → ∀ key : String × ℤ, key.1 ∉ names ∨ key.2 ∉ ids key.1 →
    lookup key out.2.1.transportErrors = lookup key state.transportErrors

section receiveAll
variable {catchTransportErrors : Bool} {name : String} {names : List String} {ids : String → List ℤ}
  {client : Client} {state state' : JobsState} {responses : ServiceResponses}
  {out : Except Exc ServiceResponses × JobsState × Client}

/-- After the loop over a first service the rest is settled. -/
lemma AllSettled.cons (hname : Ready client name (ids name) (received name) (error name))
    (hnot : name ∉ names) (hfresh : ∀ key : String × ℤ, key.1 = name → lookup key responses = none)
    (hrest : AllSettled catchTransportErrors names ids received error state'
      (kept name (received name) ++ responses) out)
    (hsame : ∀ key : String × ℤ, key.1 ≠ name ∨ key.2 ∉ ids key.1 →
      lookup key state'.transportErrors = lookup key state.transportErrors)
    (hfailed : ∀ e requestId, error name = some e → requestId ∈ ids name →
      requestId ∉ (received name).map Prod.fst → catchTransportErrors = true ∧
        lookup (name, requestId) state'.transportErrors = some e) :
    AllSettled catchTransportErrors (name :: names) ids received error state responses out where
  ok := hrest.ok
  settled := by
    rintro responses' hok ⟨n, requestId⟩ hn hid
    rcases List.mem_cons.mp hn with rfl | hn
    · apply hname.settled hid (hfresh _ rfl) (hrest.others responses' hok _ hnot)
      intro e he hmissing
      obtain ⟨hcatch, hlookup⟩ := hfailed e requestId he hid hmissing
      exact ⟨hcatch, (hrest.errors responses' hok _ (.inl hnot)).trans hlookup⟩
    · exact hrest.settled responses' hok _ hn hid
  others := by
    intro responses' hok key hkey
    rw [List.mem_cons, not_or] at hkey
    rw [hrest.others responses' hok key hkey.2, lookup_append, lookup_kept_of_notMem (.inl hkey.1)]
    rfl
  errors := by
    intro responses' hok key hkey
    have hold : key.1 ∉ names ∨ key.2 ∉ ids key.1 :=
      hkey.imp_left fun hnot hmem => hnot (List.mem_cons_of_mem _ hmem)
    have hnew : key.1 ≠ name ∨ key.2 ∉ ids key.1 :=
      hkey.imp_left fun hnot heq => hnot (heq ▸ List.mem_cons_self)
    rw [hrest.errors responses' hok key hold, hsame key hnew]

theorem receiveAll_settled (hnodup : names.Nodup)
    (hready : ∀ n ∈ names, Ready client n (ids n) (received n) (error n))
    (hfresh : ∀ key : String × ℤ, key.1 ∈ names → lookup key responses = none) :
    AllSettled catchTransportErrors names ids received error state responses
      (receiveAll catchTransportErrors (names.map fun n => (n, ids n)) state responses client) := by
  induction names generalizing client state responses with
  | nil =>
    refine ⟨fun _ => ⟨responses, rfl⟩, by simp, ?_, fun _ _ _ _ => rfl⟩
    intro responses' hok key _
    cases hok
    rfl
  | cons name names ih =>
    rw [List.nodup_cons] at hnodup
    have hname := hready name List.mem_cons_self
    obtain ⟨handler, -, -, hreceives⟩ := hname.receives
    obtain ⟨left, client₁, hloop, hleft, hothers⟩ := hname.getAllResponses catchTransportErrors responses
    have hready' : ∀ n ∈ names, Ready client₁ n (ids n) (received n) (error n) := by
      intro n hn
      exact (hready n (List.mem_cons_of_mem _ hn)).congr (hothers n (ne_of_mem_of_not_mem hn hnodup.1))
    have hfresh' : ∀ key : String × ℤ, key.1 ∈ names →
        lookup key (kept name (received name) ++ responses) = none := by
      intro key hkey
      rw [lookup_append, hfresh key (List.mem_cons_of_mem _ hkey),
        lookup_kept_of_notMem (.inl (ne_of_mem_of_not_mem hkey hnodup.1))]
      rfl
    have hfirst : ∀ key : String × ℤ, key.1 = name → lookup key responses = none :=
      fun key hkey => hfresh key (hkey ▸ List.mem_cons_self)
    rw [List.map_cons, receiveAll, hloop]
    dsimp only
    cases herror : error name with
    | none =>
      simp only [ending]
      refine AllSettled.cons hname hnodup.1 hfirst (ih hnodup.2 hready' hfresh') ?_ ?_
      · intro _ _
        rfl
      · intro e requestId he
        cases herror.symm.trans he
    | some e =>
      have htransport := hreceives.transport herror
      cases catchTransportErrors with
      | false =>
        simp only [ending, Bool.and_false, Bool.false_eq_true, if_false]
        exact ⟨fun h => (by cases h), fun _ h => (by cases h), fun _ h => (by cases h),
          fun _ h => (by cases h)⟩
      | true =>
        simp only [ending, htransport, Bool.and_self, if_true]
        have hlookup : ∀ key : String × ℤ, lookup key (left.map fun requestId => ((name, requestId), e)) =
            if key.1 = name ∧ key.2 ∈ left then some e else none := fun key => lookup_failed name left e key
        refine AllSettled.cons hname hnodup.1 hfirst (ih hnodup.2 hready' hfresh') ?_ ?_
        · intro key hkey
          have hnot : ¬ (key.1 = name ∧ key.2 ∈ left) := by
            rintro ⟨heq, hmem⟩
            rcases hkey with hne | hnot
            · exact hne heq
            · exact hnot (heq ▸ ((hleft rfl _).mp hmem).1)
          rw [lookup_append, hlookup, if_neg hnot]
          rfl
        · intro e' requestId he hid hmissing
          cases herror.symm.trans he
          refine ⟨rfl, ?_⟩
          rw [lookup_append, hlookup, if_pos ⟨rfl, (hleft rfl _).mpr ⟨hid, hmissing⟩⟩]
          rfl

end receiveAll

end JobsFuture

/-- What `send_request` returned or raised for each job, one after the other. -/
def Client.sendOutcomes : List Job → RequestArguments → Client → List (Except Exc ℤ)
  | [], _, _ => []
  | job :: jobs, arguments, client =>
    let (outcome, context, client) := client.sendRequest job.serviceName job.actions arguments false
    outcome :: sendOutcomes jobs { arguments with context } client

/-- The jobs of a parallel call with what sending them returned or raised. -/
def Client.sentJobs (client : Client) (jobs : List Job) (arguments : RequestArguments) :
    List (Job × Except Exc ℤ) :=
  jobs.zip (client.sendOutcomes jobs arguments)

/-- The ids of the requests to a service that were sent. -/
def assigned (serviceName : String) (sent : List (Job × Except Exc ℤ)) : List ℤ :=
  sent.filterMap fun job =>
    match job.2 with
    | .ok requestId => if job.1.serviceName = serviceName then some requestId else none
    | .error _ => none

/-- The key that the parallel call keeps for a job. -/
inductive KeyFor (transportErrors : List ((String × ℤ) × Exc)) : Job × Except Exc ℤ → String × ℤ → Prop
  | sent {job : Job} {requestId : ℤ} (hpos : 0 ≤ requestId) :
      KeyFor transportErrors (job, .ok requestId) (job.serviceName, requestId)
  | failed {job : Job} {e : Exc} {number : ℤ} (hneg : number < 0)
      (hkept : JobsFuture.lookup (job.serviceName, number) transportErrors = some e) :
      KeyFor transportErrors (job, .error e) (job.serviceName, number)

lemma assigned_eq_sentTo {transportErrors : List ((String × ℤ) × Exc)} {sent : List (Job × Except Exc ℤ)}
    {keys : List (String × ℤ)} (h : List.Forall₂ (KeyFor transportErrors) sent keys) (serviceName : String) :
    assigned serviceName sent = sentTo serviceName keys := by
  induction h with
  | nil => rfl
  | cons hkey _ ih =>
    rw [sentTo_cons, ← ih]
    cases hkey with
    | @sent job requestId hpos =>
      by_cases hname : job.serviceName = serviceName <;> simp [assigned, hname, hpos]
    | failed hneg => simp [assigned, not_le.mpr hneg]

/-- The handler waits for the responses to these requests. -/
structure ServiceHandler.Waits (handler : ServiceHandler) (requestIds : List ℤ) : Prop where
  count : handler.transport.requestsOutstanding = requestIds.length
  nodup : requestIds.Nodup
  below : ∀ requestId ∈ requestIds, requestId < handler.requestCounter

namespace Client
variable {client : Client} {serviceName : String} {requestIds : List ℤ}

/-- Any handler for the service waits for the responses to these requests. -/
def Waits (client : Client) (serviceName : String) (requestIds : List ℤ) : Prop :=
  ∀ handler, client.handlers serviceName = some handler → handler.Waits requestIds

/-- Afterwards the handler also waits for the response to a request that was sent, and there is a
handler for its service. -/
lemma Waits.sendRequest (h : client.Waits serviceName requestIds) (name : String)
    (actions : List ActionRequest) (arguments : RequestArguments) :
    (client.sendRequest name actions arguments false).2.2.Waits serviceName
      (requestIds ++ match (client.sendRequest name actions arguments false).1 with
        | .ok requestId => if name = serviceName then [requestId] else []
        | .error _ => []) := by
  obtain ⟨⟨e, he⟩, hsame⟩ | ⟨handler, handler', hhandler, hhandlers, hcounter, -, -, hsent⟩ :=
    client.handlers_sendRequest name actions arguments false
  · rw [he, hsame]
    simpa using h
  · intro handler'' hhandler''
    rw [hhandlers] at hhandler''
    by_cases hname : name = serviceName
    · subst hname
      rw [Function.update_self] at hhandler''
      cases hhandler''
      obtain ⟨hcount, hnodup, hbelow⟩ := h handler hhandler
      obtain ⟨hok, hmore⟩ | ⟨e, he, hless⟩ := hsent
      · obtain ⟨hnodup', hbelow'⟩ := nodup_concat_of_lt hnodup hbelow
        rw [← hcounter] at hbelow'
        rw [hok]
        dsimp only
        rw [if_pos rfl]
        exact ⟨by simp [hmore, hcount], hnodup', hbelow'⟩
      · rw [he]
        refine ⟨by simp [hless, hcount], by simpa using hnodup, fun requestId hid => ?_⟩
        rw [List.append_nil] at hid
        have := hbelow requestId hid
        omega
    · rw [Function.update_of_ne (Ne.symm hname)] at hhandler''
      have hsame : (match (client.sendRequest name actions arguments false).1 with
          | .ok requestId => if name = serviceName then [requestId] else []
          | .error _ => []) = [] := by
        split
        · exact if_neg hname
        · rfl
      rw [hsame, List.append_nil]
      exact h handler'' hhandler''

/-- Sending takes no handler away, and a request that was sent had one. -/
lemma isSome_handlers_sendRequest (client : Client) (name : String) (actions : List ActionRequest)
    (arguments : RequestArguments) :
    (∀ n, (client.handlers n).isSome = true →
      ((client.sendRequest name actions arguments false).2.2.handlers n).isSome = true) ∧
    ∀ requestId, (client.sendRequest name actions arguments false).1 = .ok requestId →
      ((client.sendRequest name actions arguments false).2.2.handlers name).isSome = true := by
  obtain ⟨⟨e, he⟩, hsame⟩ | ⟨handler, handler', hhandler, hhandlers, -⟩ :=
    client.handlers_sendRequest name actions arguments false
  · rw [he, hsame]
    exact ⟨fun _ h => h, fun _ h => by cases h⟩
  · rw [hhandlers]
    constructor
    · intro n hn
      by_cases hname : n = name
      · subst hname
        simp
      · rwa [Function.update_of_ne hname]
    · simp

/-- What the loop over the jobs, when it does not raise, has done for them: each has a key, those of
the requests that failed with their errors, and the handlers wait for those that were sent. -/
structure SentAs (catchTransportErrors : Bool) (errors : ℕ) (state state' : JobsState)
    (client client' : Client) (sent : List (Job × Except Exc ℤ)) (new : List (String × ℤ)) : Prop where
  keys : List.Forall₂ (KeyFor state'.transportErrors) sent new
  errors : ∃ newErrors, state'.transportErrors = newErrors ++ state.transportErrors ∧
    ∀ entry ∈ newErrors, entry.1.2 < -(errors : ℤ)
  uncaught : catchTransportErrors = false → ∀ job ∈ sent, ∃ requestId, job.2 = .ok requestId
  waits : ∀ serviceName requestIds, client.Waits serviceName requestIds →
    client'.Waits serviceName (requestIds ++ assigned serviceName sent)
  still : ∀ n, (client.handlers n).isSome = true → (client'.handlers n).isSome = true
  handled : ∀ key ∈ new, 0 ≤ key.2 → (client'.handlers key.1).isSome = true

section cons
variable {catchTransportErrors : Bool} {errors : ℕ} {state state₁ state' : JobsState}
  {client₁ client' : Client} {sent : List (Job × Except Exc ℤ)} {new : List (String × ℤ)} {job : Job}

/-- A first job whose request was sent. -/
lemma SentAs.cons_sent {requestId : ℤ} (hpos : 0 ≤ requestId)
    (hwaits : ∀ serviceName requestIds, client.Waits serviceName requestIds →
      client₁.Waits serviceName
        (requestIds ++ if job.serviceName = serviceName then [requestId] else []))
    (hstill : ∀ n, (client.handlers n).isSome = true → (client₁.handlers n).isSome = true)
    (hhandled : (client₁.handlers job.serviceName).isSome = true)
    (hsame : state₁.transportErrors = state.transportErrors)
    (h : SentAs catchTransportErrors errors state₁ state' client₁ client' sent new) :
    SentAs catchTransportErrors errors state state' client client' ((job, .ok requestId) :: sent)
      ((job.serviceName, requestId) :: new) := by
  refine ⟨.cons (.sent hpos) h.keys, hsame ▸ h.errors, ?_, ?_, fun n hn => h.still n (hstill n hn), ?_⟩
  · intro hcatch
    exact List.forall_mem_cons.mpr ⟨⟨requestId, rfl⟩, h.uncaught hcatch⟩
  · intro serviceName requestIds hclient
    have hall := h.waits serviceName _ (hwaits serviceName requestIds hclient)
    by_cases hname : job.serviceName = serviceName <;> simpa [assigned, hname] using hall
  · intro key hkey hnonneg
    obtain rfl | hkey := List.mem_cons.mp hkey
    · exact h.still _ hhandled
    · exact h.handled key hkey hnonneg

/-- A first job whose request failed with an error that is kept under a number of its own. -/
lemma SentAs.cons_failed {e : Exc}
    (hwaits : ∀ serviceName requestIds, client.Waits serviceName requestIds →
      client₁.Waits serviceName requestIds)
    (hstill : ∀ n, (client.handlers n).isSome = true → (client₁.handlers n).isSome = true)
    (hcatch : catchTransportErrors = true)
    (hkept : state₁.transportErrors =
      ((job.serviceName, -((errors : ℤ)+1)), e) :: state.transportErrors)
    (h : SentAs catchTransportErrors (errors+1) state₁ state' client₁ client' sent new) :
    SentAs catchTransportErrors errors state state' client client' ((job, .error e) :: sent)
      ((job.serviceName, -((errors : ℤ)+1)) :: new) := by
  have hneg : (-((errors : ℤ)+1)) < 0 := by omega
  obtain ⟨newErrors, herrors, hbelow⟩ := h.errors
  rw [hkept] at herrors
  -- later errors have other numbers
  have hnumber : ∀ entry ∈ newErrors, entry.1.2 < -((errors : ℤ)+1) := by
    intro entry hentry
    have := hbelow entry hentry
    push_cast at this
    exact this
  have hother : JobsFuture.lookup (job.serviceName, -((errors : ℤ)+1)) newErrors = none := by
    unfold JobsFuture.lookup
    rw [Option.map_eq_none_iff, List.find?_eq_none]
    intro entry hentry heq
    have hlt := hnumber entry hentry
    rw [of_decide_eq_true heq] at hlt
    exact absurd hlt (lt_irrefl _)
  refine ⟨.cons (.failed hneg ?_) h.keys,
    ⟨newErrors ++ [((job.serviceName, -((errors : ℤ)+1)), e)], ?_, ?_⟩, ?_, ?_,
    fun n hn => h.still n (hstill n hn), ?_⟩
  · rw [herrors, JobsFuture.lookup_append, hother, JobsFuture.lookup_cons, if_pos rfl]
    rfl
  · rw [herrors, List.append_assoc, List.singleton_append]
  · intro entry hentry
    obtain hentry | hentry := List.mem_append.mp hentry
    · have := hnumber entry hentry
      omega
    · rw [List.mem_singleton.mp hentry]
      exact neg_lt_neg (lt_add_one _)
  · intro hfalse
    rw [hfalse] at hcatch
    cases hcatch
  · intro serviceName requestIds hclient
    simpa [assigned] using h.waits serviceName _ (hwaits serviceName requestIds hclient)
  · intro key hkey hnonneg
    obtain rfl | hkey := List.mem_cons.mp hkey
    · exact absurd hnonneg (not_le.mpr hneg)
    · exact h.handled key hkey hnonneg

end cons

theorem sendJobs_sentAs {catchTransportErrors : Bool} {jobs : List Job} {arguments : RequestArguments}
    {errors : ℕ} {state state' : JobsState} {keys keys' : List (String × ℤ)} {client' : Client}
    {context : Option Context} (hclient : client.Counting)
    (h : sendJobs catchTransportErrors jobs arguments errors state keys client =
      (.ok (state', keys'), context, client')) :
    ∃ new, keys' = keys ++ new ∧ SentAs catchTransportErrors errors state state' client client'
      (client.sentJobs jobs arguments) new := by
  induction jobs generalizing arguments errors state keys client with
  | nil =>
    cases h
    refine ⟨[], by simp, .nil, ⟨[], rfl, by simp⟩, by simp [sentJobs], ?_, fun _ hn => hn, by simp⟩
    intro serviceName requestIds hwaits
    simpa [sentJobs, assigned] using hwaits
  | cons job jobs ih =>
    obtain ⟨hcounting, hpos⟩ := hclient.sendRequest job.serviceName job.actions arguments false
    obtain ⟨hstill, hhandled⟩ := client.isSome_handlers_sendRequest job.serviceName job.actions arguments
    have hwaits : ∀ serviceName requestIds, client.Waits serviceName requestIds → _ :=
      fun serviceName requestIds hwaits => hwaits.sendRequest job.serviceName job.actions arguments
    unfold sendJobs at h
    unfold sentJobs sendOutcomes
    revert hcounting hpos hstill hhandled hwaits
    generalize client.sendRequest job.serviceName job.actions arguments false = out at h ⊢
    obtain ⟨result, context₁, client₁⟩ := out
    intro hcounting hpos hstill hhandled hwaits
    cases result with
    | ok requestId =>
      obtain ⟨new, rfl, hsent⟩ := ih hcounting h
      exact ⟨(job.serviceName, requestId) :: new, by simp,
        hsent.cons_sent (hpos requestId rfl) hwaits hstill (hhandled requestId rfl) (by rfl)⟩
    | error e =>
      dsimp only at h
      split_ifs at h with hcaught
      · rw [Bool.and_eq_true] at hcaught
        obtain ⟨new, rfl, hsent⟩ := ih hcounting h
        refine ⟨(job.serviceName, -((errors : ℤ)+1)) :: new, by simp,
          hsent.cons_failed (fun serviceName requestIds hclient => ?_) hstill hcaught.2 (by rfl)⟩
        simpa using hwaits serviceName requestIds hclient
      · cases h

/-- If transport errors are caught and nothing else is raised, the loop over the jobs goes through. -/
lemma exists_ok_of_sendJobs {jobs : List Job} {arguments : RequestArguments}
    (htransport : ∀ e, .error e ∈ client.sendOutcomes jobs arguments → e.isTransportError = true)
    (errors : ℕ) (state : JobsState) (keys : List (String × ℤ)) :
    ∃ out, (sendJobs true jobs arguments errors state keys client).1 = .ok out := by
  induction jobs generalizing arguments errors state keys client with
  | nil => exact ⟨_, rfl⟩
  | cons job jobs ih =>
    unfold sendOutcomes at htransport
    unfold sendJobs
    generalize client.sendRequest job.serviceName job.actions arguments false = out at htransport ⊢
    obtain ⟨result, context, client'⟩ := out
    have hrest : ∀ e, .error e ∈ client'.sendOutcomes jobs { arguments with context } →
        e.isTransportError = true := fun e he => htransport e (List.mem_cons_of_mem _ he)
    cases result with
    | ok requestId => exact ih hrest _ _ _
    | error e =>
      dsimp only
      rw [if_pos (by rw [htransport e List.mem_cons_self, Bool.and_self])]
      exact ih hrest _ _ _

end Client

/-- The entry of the result for a job: the transport error of its send, or the response to its
request, or, if that was not received, the transport error of its service. -/
inductive IsEntry (received : String → List (ℤ × JobResponse)) (error : String → Option Exc) :
    Job × Except Exc ℤ → Except Exc JobResponse → Prop
  | notSent {job : Job} {e : Exc} : IsEntry received error (job, .error e) (.error e)
  | response {job : Job} {requestId : ℤ} {response : JobResponse}
      (hmem : (requestId, response) ∈ received job.serviceName) :
      IsEntry received error (job, .ok requestId) (.ok response)
  | notReceived {job : Job} {requestId : ℤ} {e : Exc}
      (hnot : requestId ∉ (received job.serviceName).map Prod.fst) (he : error job.serviceName = some e) :
      IsEntry received error (job, .ok requestId) (.error e)

namespace JobsFuture
variable {received : String → List (ℤ × JobResponse)} {error : String → Option Exc}
  {sent : List (Job × Except Exc ℤ)} {catchTransportErrors : Bool} {responses : ServiceResponses}

/-- The entry that is made for a settled request. -/
lemma Settled.entry {future : JobsFuture} (hraise : future.raiseJobErrors = false)
    (hraise' : future.raiseActionErrors = false) {transportErrors : List ((String × ℤ) × Exc)}
    {job : Job} {requestId : ℤ} (hpos : 0 ≤ requestId)
    (h : Settled catchTransportErrors (received job.serviceName) (error job.serviceName) responses
      transportErrors (job.serviceName, requestId)) :
    ∃ entry, future.entry transportErrors responses (job.serviceName, requestId) = .ok entry ∧
      IsEntry received error (job, .ok requestId) entry ∧
      (catchTransportErrors = false → ∃ response, entry = .ok response) := by
  unfold JobsFuture.entry
  rw [if_neg (by simpa using hpos)]
  rcases h with ⟨response, hmem, hlookup⟩ | ⟨hcatch, hnot, hlookup, e, he, herror⟩
  · refine ⟨.ok response, ?_, .response hmem, fun _ => ⟨response, rfl⟩⟩
    rw [hlookup, hraise, hraise']
    simp [checkErrors, Except.map]
  · refine ⟨.error e, ?_, .notReceived hnot he, ?_⟩
    · rw [hlookup]
      simp only [herror]
    · intro hfalse
      rw [hfalse] at hcatch
      cases hcatch

variable {future : JobsFuture} {client : Client}

/-- The services of the requests that were sent are those that the loop goes through. -/
lemma requestIds_of_sent (hstate : future.state.Sent future.responseReassemblyKeys) :
    ∃ names : List String, names.Nodup ∧
      (∀ n, n ∈ names ↔ ∃ key ∈ future.responseReassemblyKeys, 0 ≤ key.2 ∧ key.1 = n) ∧
      future.state.serviceRequestIds =
        names.map fun n => (n, sentTo n future.responseReassemblyKeys) := by
  have hnonneg : ∀ key ∈ future.responseReassemblyKeys.filter (fun key => 0 ≤ key.2), 0 ≤ key.2 :=
    fun key hkey => by simpa using (List.mem_filter.mp hkey).2
  obtain ⟨names, hnodup, hnames, -, hids⟩ := requestIdsByService_eq hnonneg
  simp only [sentTo_filter] at hids
  rw [← requestIdsByService_filter, ← hstate.requestIds] at hids
  refine ⟨names, hnodup, fun n => ?_, hids⟩
  rw [hnames, List.mem_map]
  simp only [List.mem_filter, decide_eq_true_eq, and_assoc]

/-- When the loop over the services has settled the requests, each job has an entry. -/
lemma mapM_entry_of_allSettled (hraise : future.raiseJobErrors = false)
    (hraise' : future.raiseActionErrors = false)
    (hkeys : List.Forall₂ (KeyFor future.state.transportErrors) sent future.responseReassemblyKeys)
    {names : List String}
    (hnames : ∀ n, n ∈ names ↔ ∃ key ∈ future.responseReassemblyKeys, 0 ≤ key.2 ∧ key.1 = n)
    {state' : JobsState} {client' : Client}
    (hall : AllSettled future.catchTransportErrors names
      (fun n => sentTo n future.responseReassemblyKeys) received error
      { future.state with serviceRequestIds := [] } [] (.ok responses, state', client')) :
    ∃ entries, future.responseReassemblyKeys.mapM (future.entry state'.transportErrors responses) =
        .ok entries ∧
      List.Forall₂ (fun job entry => IsEntry received error job entry ∧
        (future.catchTransportErrors = false → (∃ requestId, job.2 = .ok requestId) →
          ∃ response, entry = .ok response)) sent entries := by
  apply Results.mapM_forall₂ hkeys
  intro job _ key hkey hfor
  cases hfor with
  | @sent job requestId hpos =>
    have hmem : requestId ∈ sentTo job.serviceName future.responseReassemblyKeys :=
      mem_sentTo.mpr ⟨hkey, hpos⟩
    have hname : job.serviceName ∈ names := (hnames _).mpr ⟨_, hkey, hpos, rfl⟩
    have hsettled := hall.settled responses rfl (job.serviceName, requestId) hname hmem
    obtain ⟨entry, hentry, his, hok⟩ := Settled.entry hraise hraise' hpos hsettled
    exact ⟨entry, hentry, his, fun hcatch _ => hok hcatch⟩
  | @failed job e number hneg hkept =>
    have hsame := hall.errors responses rfl (job.serviceName, number)
      (.inr fun hmem => absurd (mem_sentTo.mp hmem).2 (not_le.mpr hneg))
    refine ⟨.error e, ?_, .notSent, ?_⟩
    · unfold JobsFuture.entry
      rw [if_pos (by simpa using hneg)]
      dsimp only at hsame
      rw [hsame, hkept]
    · rintro - ⟨requestId, hid⟩
      cases hid

/-- The result of a parallel call whose services are ready: it raises only if errors are not caught,
and otherwise has an entry for each job, in order. -/
theorem getResponse_reassembles (hraise : future.raiseJobErrors = false)
    (hraise' : future.raiseActionErrors = false) (hstate : future.state.Sent future.responseReassemblyKeys)
    (hkeys : List.Forall₂ (KeyFor future.state.transportErrors) sent future.responseReassemblyKeys)
    (hready : ∀ key ∈ future.responseReassemblyKeys, 0 ≤ key.2 →
      Ready client key.1 (sentTo key.1 future.responseReassemblyKeys) (received key.1) (error key.1)) :
    (future.catchTransportErrors = true →
      ∃ entries, (future.getResponse (future.state, client)).1 = .ok entries) ∧
    ∀ entries, (future.getResponse (future.state, client)).1 = .ok entries →
      List.Forall₂ (fun job entry => IsEntry received error job entry ∧
        (future.catchTransportErrors = false → (∃ requestId, job.2 = .ok requestId) →
          ∃ response, entry = .ok response)) sent entries := by
  obtain ⟨names, hnodup, hnames, hids⟩ := requestIds_of_sent hstate
  have hall : AllSettled future.catchTransportErrors names
      (fun n => sentTo n future.responseReassemblyKeys) received error
      { future.state with serviceRequestIds := [] } []
      (receiveAll future.catchTransportErrors (names.map fun n => (n, sentTo n future.responseReassemblyKeys))
        { future.state with serviceRequestIds := [] } [] client) := by
    apply receiveAll_settled hnodup
    · intro n hn
      obtain ⟨key, hkey, hpos, rfl⟩ := (hnames n).mp hn
      exact hready key hkey hpos
    · intro _ _
      rfl
  unfold getResponse
  rw [hids]
  generalize receiveAll future.catchTransportErrors _ _ _ _ = out at hall ⊢
  obtain ⟨result, state', client'⟩ := out
  cases result with
  | error e =>
    constructor
    · intro hcatch
      obtain ⟨responses, hok⟩ := hall.ok hcatch
      cases hok
    · intro entries hok
      cases hok
  | ok responses =>
    obtain ⟨entries, hmapM, hforall⟩ := mapM_entry_of_allSettled hraise hraise' hkeys hnames hall
    dsimp only
    rw [hmapM]
    refine ⟨fun _ => ⟨entries, rfl⟩, ?_⟩
    intro entries' hok
    cases hok
    exact hforall

end JobsFuture

/-- `call_jobs_parallel`: the result, and the context argument as it is afterwards. -/
def Client.callJobsParallel (client : Client) (jobs : List Job)
    (raiseJobErrors raiseActionErrors catchTransportErrors : Bool) (arguments : RequestArguments) :
    Except Exc (List (Except Exc JobResponse)) × Option Context × Client :=
  match client.callJobsParallelFuture jobs raiseJobErrors raiseActionErrors catchTransportErrors arguments with
  | (.error e, context, client) => (.error e, context, client)
  | (.ok future, context, client) =>
    let out := future.result client
    (out.1, context, out.2.2)

/-- The result of a parallel call: one entry for each job, in order, each with the response to its
own request or its own transport error; no two jobs have the same request, and no request two
responses. -/
structure Reassembled (jobs : List Job) (sent : List (Job × Except Exc ℤ))
    (received : String → List (ℤ × JobResponse)) (error : String → Option Exc)
    (entries : List (Except Exc JobResponse)) : Prop where
  jobs_eq : sent.map Prod.fst = jobs
  entries : List.Forall₂ (IsEntry received error) sent entries
  distinct : ∀ serviceName, (assigned serviceName sent).Nodup
  once : ∀ serviceName, assigned serviceName sent ≠ [] → ((received serviceName).map Prod.fst).Nodup

namespace Client
variable {client : Client} {jobs : List Job} {arguments : RequestArguments} {catchTransportErrors : Bool}
  {received : String → List (ℤ × JobResponse)} {error : String → Option Exc}

lemma length_sendOutcomes (jobs : List Job) (arguments : RequestArguments) (client : Client) :
    (client.sendOutcomes jobs arguments).length = jobs.length := by
  induction jobs generalizing arguments client with
  | nil => rfl
  | cons job jobs ih => rw [sendOutcomes, List.length_cons, ih, List.length_cons]

lemma map_fst_sentJobs (client : Client) (jobs : List Job) (arguments : RequestArguments) :
    (client.sentJobs jobs arguments).map Prod.fst = jobs := by
  unfold sentJobs
  rw [List.map_fst_zip (by rw [length_sendOutcomes])]

lemma exists_of_mem_right {α β : Type} {R : α → β → Prop} {xs : List α} {ys : List β}
    (h : List.Forall₂ R xs ys) {y : β} (hy : y ∈ ys) : ∃ x ∈ xs, R x y := by
  induction h with
  | nil => cases hy
  | cons hxy _ ih =>
    rcases List.mem_cons.mp hy with rfl | hy
    · exact ⟨_, List.mem_cons_self, hxy⟩
    · obtain ⟨x, hx, hr⟩ := ih hy
      exact ⟨x, List.mem_cons_of_mem _ hx, hr⟩

/-- The services are ready once the loop over the jobs has gone through. -/
lemma SentAs.ready {state state' : JobsState} {client' : Client} {new : List (String × ℤ)}
    (h : SentAs catchTransportErrors 0 state state' client client' (client.sentJobs jobs arguments) new)
    (hidle : ∀ job ∈ jobs, ∀ handler, client.handlers job.serviceName = some handler →
      handler.transport.requestsOutstanding = 0)
    (hreceives : ∀ job ∈ jobs, ∀ handler, client'.handlers job.serviceName = some handler →
      handler.Receives (assigned job.serviceName (client.sentJobs jobs arguments))
        (received job.serviceName) (error job.serviceName))
    {key : String × ℤ} (hkey : key ∈ new) (hpos : 0 ≤ key.2) :
    JobsFuture.Ready client' key.1 (sentTo key.1 new) (received key.1) (error key.1) := by
  obtain ⟨job, hjob, hname⟩ : ∃ job ∈ jobs, job.serviceName = key.1 := by
    obtain ⟨⟨job, outcome⟩, hjob, hfor⟩ := exists_of_mem_right h.keys hkey
    refine ⟨job, ?_, ?_⟩
    · rw [← map_fst_sentJobs client jobs arguments]
      exact List.mem_map_of_mem hjob
    · cases hfor <;> rfl
  obtain ⟨handler, hhandler⟩ := Option.isSome_iff_exists.mp (h.handled key hkey hpos)
  have hwaits : client.Waits key.1 [] := by
    intro handler hhandler
    exact ⟨hidle job hjob handler (hname ▸ hhandler), List.nodup_nil, by simp⟩
  obtain ⟨hcount, hnodup, -⟩ := h.waits key.1 [] hwaits handler hhandler
  rw [List.nil_append, assigned_eq_sentTo h.keys] at hcount hnodup
  refine ⟨hnodup, handler, hhandler, hcount, ?_⟩
  rw [← assigned_eq_sentTo h.keys, ← hname]
  exact hreceives job hjob handler (hname ▸ hhandler)

/-- **Parallel calls are ordered and complete and never mix responses.** If nothing else is outstanding
for the services of the jobs and each request is answered at most once, in whatever order, then a
call that returns has an entry for each job in the order of the jobs, its own response or its own
transport error. A call that catches transport errors returns unless a send raises something
else; one that does not returns responses only. -/
theorem callJobsParallel_reassembles (hcounting : client.Counting)
    (hidle : ∀ job ∈ jobs, ∀ handler, client.handlers job.serviceName = some handler →
      handler.transport.requestsOutstanding = 0)
    (hreceives : ∀ job ∈ jobs, ∀ handler,
      (client.callJobsParallelFuture jobs false false catchTransportErrors arguments).2.2.handlers
        job.serviceName = some handler →
      handler.Receives (assigned job.serviceName (client.sentJobs jobs arguments))
        (received job.serviceName) (error job.serviceName)) :
    (catchTransportErrors = true →
      (∀ e, .error e ∈ client.sendOutcomes jobs arguments → e.isTransportError = true) →
      ∃ entries, (client.callJobsParallel jobs false false catchTransportErrors arguments).1 = .ok entries) ∧
    ∀ entries, (client.callJobsParallel jobs false false catchTransportErrors arguments).1 = .ok entries →
      Reassembled jobs (client.sentJobs jobs arguments) received error entries ∧
      (catchTransportErrors = false → ∀ entry ∈ entries, ∃ response, entry = .ok response) := by
  unfold callJobsParallel
  unfold callJobsParallelFuture at hreceives ⊢
  dsimp only at hreceives ⊢
  have hstart : JobsState.Sent {} [] := ⟨rfl, by simp, by simp⟩
  cases hsend : sendJobs catchTransportErrors jobs arguments 0 {} [] client with
  | mk result rest =>
    obtain ⟨context, client'⟩ := rest
    rw [hsend] at hreceives
    cases result with
    | error e =>
      constructor
      · intro hcatch htransport
        obtain ⟨out, hok⟩ := exists_ok_of_sendJobs htransport 0 {} []
        rw [← hcatch, hsend] at hok
        cases hok
      · intro entries hok
        cases hok
    | ok sentState =>
      obtain ⟨state, keys⟩ := sentState
      obtain ⟨new, hnew, hsentAs⟩ := sendJobs_sentAs hcounting hsend
      obtain ⟨-, -, -, hstate, -⟩ := sendJobs_ok hcounting hstart hsend
      rw [List.nil_append] at hnew
      subst hnew
      have hready : ∀ key ∈ keys, 0 ≤ key.2 →
          JobsFuture.Ready client' key.1 (sentTo key.1 keys) (received key.1) (error key.1) :=
        fun key hkey hpos => hsentAs.ready hidle hreceives hkey hpos
      generalize hfuture : (⟨false, false, catchTransportErrors, keys, state, {}⟩ : JobsFuture) = future
      have hresult : (future.result client').1 = (future.getResponse (future.state, client')).1 := by
        rw [← hfuture]
        exact (JobsFuture.result_fresh rfl client').1
      have hall := @JobsFuture.getResponse_reassembles received error (client.sentJobs jobs arguments)
        future client'
      rw [← hresult, ← hfuture] at hall
      obtain ⟨hreturns, hentries⟩ := hall rfl rfl hstate hsentAs.keys hready
      constructor
      · exact fun hcatch _ => hreturns hcatch
      · intro entries hok
        have hforall := hentries entries hok
        have hservice : ∀ serviceName, assigned serviceName (client.sentJobs jobs arguments) ≠ [] →
            JobsFuture.Ready client' serviceName (sentTo serviceName keys) (received serviceName)
              (error serviceName) := by
          intro serviceName hne
          rw [assigned_eq_sentTo hsentAs.keys] at hne
          obtain ⟨requestId, hid⟩ := List.exists_mem_of_ne_nil _ hne
          obtain ⟨hmem, hpos⟩ := mem_sentTo.mp hid
          exact hready _ hmem hpos
        refine ⟨⟨map_fst_sentJobs client jobs arguments, hforall.imp fun _ _ h => h.1, ?_, ?_⟩, ?_⟩
        · intro serviceName
          by_cases hnil : assigned serviceName (client.sentJobs jobs arguments) = []
          · rw [hnil]
            exact List.nodup_nil
          · have hnodup := (hservice serviceName hnil).nodup
            rwa [← assigned_eq_sentTo hsentAs.keys] at hnodup
        · intro serviceName hne
          have hservice := hservice serviceName hne
          obtain ⟨handler, -, -, hreceives⟩ := hservice.receives
          exact hreceives.nodup hservice.nodup
        · intro hcatch entry hentry
          obtain ⟨job, hjob, -, hok⟩ := exists_of_mem_right hforall hentry
          exact hok hcatch (hsentAs.uncaught hcatch job hjob)

/-- The id of the request that is answered, if one is. -/
def answeredId : Except Exc (Option (Value × JobResponse)) → Option ℤ
  | .ok (some (.int requestId, _)) => some requestId
  | _ => none

lemma exists_of_answeredId {out : Except Exc (Option (Value × JobResponse))} {requestId : ℤ}
    (h : answeredId out = some requestId) : ∃ response, out = .ok (some (.int requestId, response)) := by
  unfold answeredId at h
  split at h
  · cases h
    exact ⟨_, rfl⟩
  · cases h

def exampleJobs : List Job :=
  [⟨"example", [{ action := .text "read" }]⟩, ⟨"example", [{ action := .text "read" }]⟩]

/-- Two jobs for one service, whose responses arrive the other way round. -/
theorem callJobsParallel_reassembles_two_jobs :
    ∃ received entries, (received "example").map Prod.fst = [1, 0] ∧
      ((exampleClient.deliver fun _ => [exampleArrival 1, exampleArrival 0]).callJobsParallel exampleJobs
        false false true {}).1 = .ok entries ∧
      Reassembled exampleJobs
        ((exampleClient.deliver fun _ => [exampleArrival 1, exampleArrival 0]).sentJobs exampleJobs {})
        received (fun _ => none) entries := by
  have hassigned : assigned "example" ((exampleClient.deliver fun _ => [exampleArrival 1,
      exampleArrival 0]).sentJobs exampleJobs {}) = [0, 1] := by decide +kernel
  have houtcomes : ((exampleClient.deliver fun _ => [exampleArrival 1, exampleArrival 0]).sendOutcomes
      exampleJobs {}).all Except.isOk = true := by decide +kernel
  have hreceived : ((exampleClient.deliver fun _ => [exampleArrival 1,
      exampleArrival 0]).callJobsParallelFuture exampleJobs false false true {}).2.2.handlers "example" |>.any
      (fun handler => answeredId handler.baseGetResponse.1 = some 1 ∧
        answeredId handler.baseGetResponse.2.baseGetResponse.1 = some 0 ∧
        handler.baseGetResponse.2.baseGetResponse.2.transport.requestsOutstanding = 0) := by decide +kernel
  have hidle : ∀ handler, (exampleClient.deliver fun _ => [exampleArrival 1,
      exampleArrival 0]).handlers "example" = some handler → handler.transport.requestsOutstanding = 0 := by
    intro handler hhandler
    cases hhandler
    rfl
  have hcounting : (exampleClient.deliver fun _ => [exampleArrival 1, exampleArrival 0]).Counting := by
    intro name handler hhandler
    cases hhandler
    exact le_rfl
  generalize exampleClient.deliver (fun _ => [exampleArrival 1, exampleArrival 0]) = client at *
  obtain ⟨handler, hhandler, hanswers⟩ := (Option.any_eq_true _ _).mp hreceived
  obtain ⟨hone, hzero, hnothing⟩ := of_decide_eq_true hanswers
  obtain ⟨response, hone⟩ := exists_of_answeredId hone
  obtain ⟨response', hzero⟩ := exists_of_answeredId hzero
  have hservice : ∀ job ∈ exampleJobs, job.serviceName = "example" := by simp [exampleJobs]
  have hreceives : ∀ job ∈ exampleJobs, ∀ handler',
      (client.callJobsParallelFuture exampleJobs false false true {}).2.2.handlers job.serviceName =
        some handler' →
      handler'.Receives (assigned job.serviceName (client.sentJobs exampleJobs {}))
        [(1, response), (0, response')] none := by
    intro job hjob handler' hhandler'
    rw [hservice job hjob] at hhandler' ⊢
    cases hhandler.symm.trans hhandler'
    rw [hassigned]
    exact .response hone (by simp) (.response hzero (by simp) (.nothing hnothing))
  have hcall := @callJobsParallel_reassembles client exampleJobs {} true
    (fun _ => [(1, response), (0, response')]) (fun _ => none) hcounting
    (fun job hjob => by rw [hservice job hjob]; exact hidle) hreceives
  have htransport : ∀ e, .error e ∈ client.sendOutcomes exampleJobs {} → e.isTransportError = true := by
    intro e he
    have hall := List.all_eq_true.mp houtcomes _ he
    cases hall
  obtain ⟨entries, hok⟩ := hcall.1 rfl htransport
  exact ⟨_, entries, rfl, hok, (hcall.2 entries hok).1⟩

end Client
end PySOA
