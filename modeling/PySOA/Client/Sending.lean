import PySOA.Client.Client

/-! What the calls that send requests leave in the handlers of a client and in its futures. -/
namespace PySOA

/-- What sending a request does to the handler. -/
lemma ServiceHandler.sendRequest_cases (handler : ServiceHandler) (jobRequest : JobRequest)
    (expiry : Option ℤ) :
    ∃ handler', (handler.sendRequest jobRequest expiry).2 = handler' ∧
      handler'.requestCounter = handler.requestCounter+1 ∧
      handler'.transport.core = handler.transport.core ∧
      (handler'.io.pops = handler.io.pops ∧ handler'.io.clock = handler.io.clock) ∧
      ((handler.sendRequest jobRequest expiry).1 = .ok handler.requestCounter ∧
          handler'.transport.requestsOutstanding = handler.transport.requestsOutstanding+1 ∨
        ∃ e, (handler.sendRequest jobRequest expiry).1 = .error e ∧
          handler'.transport.requestsOutstanding = handler.transport.requestsOutstanding) := by
  refine ⟨_, rfl, ?_⟩
  unfold sendRequest baseSendRequest
  cases hbody : jobRequest.asdict with
  | error e => exact ⟨rfl, rfl, ⟨rfl, rfl⟩, Or.inr ⟨e, rfl, rfl⟩⟩
  | ok body =>
    dsimp only
    obtain ⟨hkeeps, ⟨hok, ht⟩ | ⟨e, he, ht⟩⟩ := handler.transport.sendRequestMessage_cases handler.threadId
      (.int handler.requestCounter)
      { entries := [(.text "client_version", .list (handler.clientVersion.map .int))] } body expiry
      handler.io
    · exact ⟨rfl, by simp [ht], hkeeps, Or.inl ⟨by simp [hok, Except.map], by simp [ht]⟩⟩
    · refine ⟨rfl, by rw [ht]; split <;> rfl, hkeeps, Or.inr ⟨e, by simp [he, Except.map], ?_⟩⟩
      rw [ht]
      split <;> rfl

/-- A request gets an id above those of the earlier requests. -/
lemma nodup_concat_of_lt {requestIds : List ℤ} {requestCounter : ℤ} (hnodup : requestIds.Nodup)
    (hbelow : ∀ requestId ∈ requestIds, requestId < requestCounter) :
    (requestIds ++ [requestCounter]).Nodup ∧
      ∀ requestId ∈ requestIds ++ [requestCounter], requestId < requestCounter+1 := by
  constructor
  · rw [List.nodup_append]
    refine ⟨hnodup, List.nodup_singleton _, fun a ha b hb => ?_⟩
    rw [List.mem_singleton.mp hb]
    exact (hbelow a ha).ne
  · intro requestId hid
    obtain hid | hid := List.mem_append.mp hid
    · exact (hbelow requestId hid).trans (lt_add_one _)
    · rw [List.mem_singleton.mp hid]
      exact lt_add_one _

/-- The handler waits for the responses to these requests, and its reply queue is empty. -/
structure ServiceHandler.Outstanding (handler : ServiceHandler) (core : RedisTransportCore)
    (clock : ℕ → ℚ) (requestIds : List ℤ) : Prop where
  core_eq : handler.transport.core = core
  io_eq : handler.io.pops = [] ∧ handler.io.clock = clock
  count : handler.transport.requestsOutstanding = requestIds.length
  nodup : requestIds.Nodup
  below : ∀ requestId ∈ requestIds, requestId < handler.requestCounter

namespace Client
variable {client : Client} {serviceName : String} {core : RedisTransportCore}
  {clock : ℕ → ℚ} {requestIds : List ℤ}

@[simp] lemma handlers_setHandler (client : Client) (serviceName : String) (handler : ServiceHandler) :
    (client.setHandler serviceName handler).handlers =
      Function.update client.handlers serviceName (some handler) := rfl

/-- The client has a handler for the service that waits for the responses to these requests. -/
def Outstanding (client : Client) (serviceName : String) (core : RedisTransportCore)
    (clock : ℕ → ℚ) (requestIds : List ℤ) : Prop :=
  ∃ handler, client.handlers serviceName = some handler ∧ handler.Outstanding core clock requestIds

/-- The request counters have not been negative. -/
def Counting (client : Client) : Prop :=
  ∀ serviceName handler, client.handlers serviceName = some handler → 0 ≤ handler.requestCounter

lemma handlers_makeContextHeader (client : Client) (switches : List ℤ) (correlationId : Option String)
    (contextExtra : Option Context) :
    (client.makeContextHeader switches correlationId contextExtra).2.2.handlers = client.handlers := by
  unfold makeContextHeader
  split <;> rfl

/-- What sending a request does to the handlers: nothing when there is none for the service. -/
lemma handlers_sendRequest (client : Client) (serviceName : String) (actions : List ActionRequest)
    (arguments : RequestArguments) (suppressResponse : Bool) :
    ((∃ e, (client.sendRequest serviceName actions arguments suppressResponse).1 = .error e) ∧
      (client.sendRequest serviceName actions arguments suppressResponse).2.2 = client) ∨
    ∃ handler handler', client.handlers serviceName = some handler ∧
      (client.sendRequest serviceName actions arguments suppressResponse).2.2.handlers =
        Function.update client.handlers serviceName (some handler') ∧
      handler'.requestCounter = handler.requestCounter+1 ∧
      handler'.transport.core = handler.transport.core ∧
      (handler'.io.pops = handler.io.pops ∧ handler'.io.clock = handler.io.clock) ∧
      ((client.sendRequest serviceName actions arguments suppressResponse).1 =
            .ok handler.requestCounter ∧
          handler'.transport.requestsOutstanding = handler.transport.requestsOutstanding+1 ∨
        ∃ e, (client.sendRequest serviceName actions arguments suppressResponse).1 = .error e ∧
          handler'.transport.requestsOutstanding = handler.transport.requestsOutstanding) := by
  unfold sendRequest
  dsimp only
  cases hhandler : client.handlers serviceName with
  | none => exact Or.inl ⟨⟨_, rfl⟩, rfl⟩
  | some handler =>
    obtain ⟨handler', hout, hcases⟩ := handler.sendRequest_cases _ _
    refine Or.inr ⟨handler, handler', rfl, ?_, hcases⟩
    simp only [handlers_setHandler, handlers_makeContextHeader]
    rw [← hout]

/-- A request that is sent has a new id and is outstanding afterwards. -/
theorem Outstanding.sendRequest (h : client.Outstanding serviceName core clock requestIds)
    (name : String)
    (actions : List ActionRequest) (arguments : RequestArguments) (suppressResponse : Bool) :
    match client.sendRequest name actions arguments suppressResponse with
    | (.ok requestId, _, client') => client'.Outstanding serviceName core clock
        (if name = serviceName then requestIds ++ [requestId] else requestIds)
    | (.error _, _, client') => client'.Outstanding serviceName core clock requestIds := by
  have hcases := client.handlers_sendRequest name actions arguments suppressResponse
  obtain ⟨handler, hhandler, hcore, hio, hcount, hnodup, hbelow⟩ := h
  revert hcases
  generalize client.sendRequest name actions arguments suppressResponse = out
  obtain ⟨result, context, client'⟩ := out
  rintro (⟨⟨e, rfl⟩, rfl⟩ | ⟨handler₀, handler', hhandler₀, hhandlers, hcounter, hcore', hio', hsent⟩)
  · exact ⟨handler, hhandler, hcore, hio, hcount, hnodup, hbelow⟩
  dsimp only at hhandlers hsent ⊢
  by_cases hname : name = serviceName
  · subst hname
    cases hhandler.symm.trans hhandler₀
    have hquiet : handler'.io.pops = [] ∧ handler'.io.clock = clock :=
      ⟨hio'.1.trans hio.1, hio'.2.trans hio.2⟩
    have hother : ∀ requestId ∈ requestIds, requestId < handler'.requestCounter :=
      fun requestId hid => by have := hbelow requestId hid; omega
    obtain ⟨rfl, hcount'⟩ | ⟨e, rfl, hcount'⟩ := hsent
    · obtain ⟨hnodup', hbelow'⟩ := nodup_concat_of_lt hnodup hbelow
      rw [← hcounter] at hbelow'
      dsimp only
      rw [if_pos rfl]
      exact ⟨handler', by simp [hhandlers], hcore'.trans hcore, hquiet, by simp [hcount', hcount], hnodup',
        hbelow'⟩
    · exact ⟨handler', by simp [hhandlers], hcore'.trans hcore, hquiet, hcount'.trans hcount, hnodup, hother⟩
  · have hsame : client'.handlers serviceName = some handler := by
      rw [hhandlers, Function.update_of_ne (Ne.symm hname), hhandler]
    obtain ⟨rfl, -⟩ | ⟨e, rfl, -⟩ := hsent
    · simp only [hname, if_false]
      exact ⟨handler, hsame, hcore, hio, hcount, hnodup, hbelow⟩
    · exact ⟨handler, hsame, hcore, hio, hcount, hnodup, hbelow⟩

/-- The counters only go up, and the ids of requests are not negative. -/
theorem Counting.sendRequest (h : client.Counting) (name : String) (actions : List ActionRequest)
    (arguments : RequestArguments) (suppressResponse : Bool) :
    (client.sendRequest name actions arguments suppressResponse).2.2.Counting ∧
      ∀ requestId, (client.sendRequest name actions arguments suppressResponse).1 = .ok requestId →
        0 ≤ requestId := by
  obtain ⟨⟨e, he⟩, hsame⟩ | ⟨handler, handler', hhandler, hhandlers, hcounter, -, -, hsent⟩ :=
    client.handlers_sendRequest name actions arguments suppressResponse
  · rw [he, hsame]
    exact ⟨h, fun _ hid => by cases hid⟩
  have hpos := h name handler hhandler
  constructor
  · intro name' handler'' hhandler''
    rw [hhandlers] at hhandler''
    by_cases hname : name' = name
    · subst hname
      rw [Function.update_self] at hhandler''
      cases hhandler''
      omega
    · rw [Function.update_of_ne hname] at hhandler''
      exact h name' handler'' hhandler''
  · intro requestId hid
    obtain ⟨hok, -⟩ | ⟨e, he, -⟩ := hsent
    · rw [hok] at hid
      cases hid
      exact hpos
    · rw [he] at hid
      cases hid

end Client

/-- The ids of the requests to the service among the keys of the jobs; a negative number stands for
a request that was not sent. -/
def sentTo (serviceName : String) (keys : List (String × ℤ)) : List ℤ :=
  keys.filterMap fun key => if key.1 = serviceName ∧ 0 ≤ key.2 then some key.2 else none

@[simp] lemma sentTo_nil (serviceName : String) : sentTo serviceName [] = [] := rfl

lemma sentTo_cons (serviceName : String) (key : String × ℤ) (keys : List (String × ℤ)) :
    sentTo serviceName (key :: keys) =
      if key.1 = serviceName ∧ 0 ≤ key.2 then key.2 :: sentTo serviceName keys
      else sentTo serviceName keys := by
  by_cases h : key.1 = serviceName ∧ 0 ≤ key.2 <;> simp [sentTo, h]

@[simp] lemma sentTo_append (serviceName : String) (keys keys' : List (String × ℤ)) :
    sentTo serviceName (keys ++ keys') = sentTo serviceName keys ++ sentTo serviceName keys' :=
  List.filterMap_append

lemma mem_sentTo {serviceName : String} {keys : List (String × ℤ)} {requestId : ℤ} :
    requestId ∈ sentTo serviceName keys ↔ (serviceName, requestId) ∈ keys ∧ 0 ≤ requestId := by
  simp only [sentTo, List.mem_filterMap, Option.ite_none_right_eq_some, Option.some.injEq]
  constructor
  · rintro ⟨⟨name, id⟩, hmem, ⟨rfl, hpos⟩, rfl⟩
    exact ⟨hmem, hpos⟩
  · rintro ⟨hmem, hpos⟩
    exact ⟨_, hmem, ⟨rfl, hpos⟩, rfl⟩

/-- The request ids of a list of keys, service by service. -/
def requestIdsByService (keys : List (String × ℤ)) : List (String × List ℤ) :=
  keys.foldl (fun ids key => if key.2 < 0 then ids else Client.addRequestId key.1 key.2 ids) []

lemma requestIdsByService_append_singleton (keys : List (String × ℤ)) (key : String × ℤ) :
    requestIdsByService (keys ++ [key]) = if key.2 < 0 then requestIdsByService keys
      else Client.addRequestId key.1 key.2 (requestIdsByService keys) := by
  simp [requestIdsByService]

lemma addRequestId_map {names : List String} (hnodup : names.Nodup) (ids : String → List ℤ)
    (name : String) (requestId : ℤ) :
    Client.addRequestId name requestId (names.map fun n => (n, ids n)) =
      if name ∈ names then names.map fun n => (n, if n = name then ids n ++ [requestId] else ids n)
      else (names.map fun n => (n, ids n)) ++ [(name, [requestId])] := by
  induction names with
  | nil => rfl
  | cons n names ih =>
    rw [List.nodup_cons] at hnodup
    by_cases hname : n = name
    · subst hname
      have hothers : names.map (fun n' => (n', if n' = n then ids n' ++ [requestId] else ids n')) =
          names.map fun n' => (n', ids n') :=
        List.map_congr_left fun n' hn' => by rw [if_neg (ne_of_mem_of_not_mem hn' hnodup.1)]
      simp [Client.addRequestId, hothers]
    · simp only [List.map_cons, Client.addRequestId, hname, if_false, ih hnodup.2, List.mem_cons,
        Ne.symm hname, false_or]
      split_ifs <;> rfl

/-- The services of requests that were all sent, each with its request ids, in the order of their
first requests. -/
lemma requestIdsByService_eq {keys : List (String × ℤ)} (hsent : ∀ key ∈ keys, 0 ≤ key.2) :
    ∃ names : List String, names.Nodup ∧ (∀ name, name ∈ names ↔ name ∈ keys.map Prod.fst) ∧
      names.head? = (keys.map Prod.fst).head? ∧
      requestIdsByService keys = names.map fun name => (name, sentTo name keys) := by
  induction keys using List.reverseRecOn with
  | nil => exact ⟨[], by simp, by simp, rfl, rfl⟩
  | append_singleton keys key ih =>
    obtain ⟨names, hnodup, hmem, hhead, hids⟩ := ih fun key hkey => hsent key (by simp [hkey])
    have hpos : 0 ≤ key.2 := hsent key (by simp)
    have hgrown : ∀ n, sentTo n (keys ++ [key]) =
        if n = key.1 then sentTo n keys ++ [key.2] else sentTo n keys := by
      intro n
      by_cases hn : n = key.1
      · simp [sentTo_cons, hn, hpos]
      · simp [sentTo_cons, hn, Ne.symm hn]
    rw [requestIdsByService_append_singleton, if_neg (not_lt.mpr hpos), hids, addRequestId_map hnodup]
    by_cases hold : key.1 ∈ names
    · refine ⟨names, hnodup, fun n => ?_, ?_, ?_⟩
      · rw [hmem n, List.map_append, List.mem_append]
        refine ⟨Or.inl, fun h => h.elim id fun hn => ?_⟩
        rw [List.map_singleton, List.mem_singleton] at hn
        exact hn ▸ (hmem key.1).mp hold
      · cases keys with
        | nil => simp [(hmem key.1)] at hold
        | cons first keys => simpa using hhead
      · rw [if_pos hold]
        exact List.map_congr_left fun n _ => by rw [hgrown]
    · refine ⟨names ++ [key.1], ?_, fun n => by simp [hmem n], ?_, ?_⟩
      · simp only [List.nodup_append, hnodup, List.nodup_singleton, List.mem_singleton, true_and]
        exact fun n hn m hm => hm ▸ ne_of_mem_of_not_mem hn hold
      · cases keys with
        | nil =>
          have hnone : names = [] := List.eq_nil_iff_forall_not_mem.mpr fun n hn => by
            simpa using (hmem n).mp hn
          simp [hnone]
        | cons first keys => simp [List.head?_append, hhead]
      · rw [if_neg hold, List.map_append]
        congr 1
        · exact List.map_congr_left fun n hn => by
            rw [hgrown, if_neg (ne_of_mem_of_not_mem hn hold)]
        · have hnew : sentTo key.1 keys = [] := by
            rw [List.eq_nil_iff_forall_not_mem]
            intro id hid
            have hkey := List.mem_map_of_mem (f := Prod.fst) (mem_sentTo.mp hid).1
            exact hold ((hmem key.1).mpr hkey)
          simp [sentTo_cons, hpos, hnew]

/-- Only the requests that were sent count. -/
lemma requestIdsByService_filter (keys : List (String × ℤ)) :
    requestIdsByService keys = requestIdsByService (keys.filter fun key => 0 ≤ key.2) := by
  induction keys using List.reverseRecOn with
  | nil => rfl
  | append_singleton keys key ih =>
    rw [requestIdsByService_append_singleton, List.filter_append, ih]
    by_cases hneg : key.2 < 0
    · simp [hneg]
    · simp [hneg, not_lt.mp hneg, requestIdsByService_append_singleton]

lemma sentTo_filter (serviceName : String) (keys : List (String × ℤ)) :
    sentTo serviceName (keys.filter fun key => 0 ≤ key.2) = sentTo serviceName keys := by
  induction keys with
  | nil => rfl
  | cons key keys ih =>
    by_cases hpos : 0 ≤ key.2 <;> simp [sentTo_cons, hpos, ih]

lemma JobsFuture.lookup_cons {α : Type} (key : String × ℤ) (entry : (String × ℤ) × α)
    (entries : List ((String × ℤ) × α)) :
    lookup key (entry :: entries) = if entry.1 = key then some entry.2 else lookup key entries := by
  by_cases h : entry.1 = key <;> simp [lookup, h]

/-- What the variables of a parallel call hold once its jobs have been sent under these keys. -/
structure JobsState.Sent (state : JobsState) (keys : List (String × ℤ)) : Prop where
  requestIds : state.serviceRequestIds = requestIdsByService keys
  errors : ∀ entry ∈ state.transportErrors, entry.1.2 < 0
  kept : ∀ key ∈ keys, key.2 < 0 → ∃ e, JobsFuture.lookup key state.transportErrors = some e

namespace JobsState.Sent
variable {state : JobsState} {keys : List (String × ℤ)}

/-- A request that was sent is added under its id. -/
lemma addRequestId (h : state.Sent keys) (serviceName : String) {requestId : ℤ} (hid : 0 ≤ requestId) :
    Sent { state with
      serviceRequestIds := Client.addRequestId serviceName requestId state.serviceRequestIds }
      (keys ++ [(serviceName, requestId)]) := by
  refine ⟨?_, h.errors, fun key hkey hneg => ?_⟩
  · rw [requestIdsByService_append_singleton, if_neg (by simpa using hid), h.requestIds]
  · obtain hkey | hkey := List.mem_append.mp hkey
    · exact h.kept key hkey hneg
    · rw [List.mem_singleton.mp hkey] at hneg
      omega

/-- A request that was not sent is added under a negative number, with its error. -/
lemma addError (h : state.Sent keys) (serviceName : String) {number : ℤ} (hneg : number < 0) (e : Exc) :
    Sent { state with transportErrors := ((serviceName, number), e) :: state.transportErrors }
      (keys ++ [(serviceName, number)]) := by
  refine ⟨?_, fun entry hentry => ?_, fun key hkey hkeyneg => ?_⟩
  · rw [requestIdsByService_append_singleton, if_pos hneg]
    exact h.requestIds
  · obtain rfl | hentry := List.mem_cons.mp hentry
    · exact hneg
    · exact h.errors entry hentry
  · by_cases hsame : (serviceName, number) = key
    · exact ⟨e, by rw [JobsFuture.lookup_cons, if_pos hsame]⟩
    · obtain hkey | hkey := List.mem_append.mp hkey
      · rw [JobsFuture.lookup_cons, if_neg hsame]
        exact h.kept key hkey hkeyneg
      · exact absurd (List.mem_singleton.mp hkey).symm hsame

end JobsState.Sent

namespace Client

/-- The loop over the jobs, when it does not raise: one key for each job; those of the requests that
were sent are outstanding. -/
theorem sendJobs_ok {catchTransportErrors : Bool} {jobs : List Job} {arguments : RequestArguments}
    {errors : ℕ} {state state' : JobsState} {keys keys' : List (String × ℤ)}
    {client client' : Client} {context : Option Context} (hclient : client.Counting)
    (hstate : state.Sent keys)
    (h : sendJobs catchTransportErrors jobs arguments errors state keys client =
      (.ok (state', keys'), context, client')) :
    ∃ new, keys' = keys ++ new ∧ new.map Prod.fst = jobs.map Job.serviceName ∧ state'.Sent keys' ∧
      client'.Counting ∧ (catchTransportErrors = false → ∀ key ∈ new, 0 ≤ key.2) ∧
      ∀ serviceName core clock requestIds, client.Outstanding serviceName core clock requestIds →
        client'.Outstanding serviceName core clock (requestIds ++ sentTo serviceName new) := by
  induction jobs generalizing arguments errors state keys client with
  | nil =>
    cases h
    exact ⟨[], by simp, rfl, hstate, hclient, by simp, by simp⟩
  | cons job jobs ih =>
    have hcounting := hclient.sendRequest job.serviceName job.actions arguments false
    have houtstanding := fun serviceName core clock requestIds
      (h : client.Outstanding serviceName core clock requestIds) =>
      h.sendRequest job.serviceName job.actions arguments false
    unfold sendJobs at h
    revert hcounting houtstanding
    generalize client.sendRequest job.serviceName job.actions arguments false = out at h ⊢
    obtain ⟨result, context₁, client₁⟩ := out
    rintro ⟨hcounting, hpos⟩ houtstanding
    cases result with
    | ok requestId =>
      have hid := hpos requestId rfl
      have hstate₁ := hstate.addRequestId job.serviceName hid
      obtain ⟨new, rfl, hnames, hsent, hcounting', hnoerrors, hout⟩ := ih hcounting hstate₁ h
      refine ⟨(job.serviceName, requestId) :: new, by simp, by simp [hnames], by simpa using hsent,
        hcounting', fun hcatch => ?_, fun serviceName core clock requestIds hids => ?_⟩
      · simpa [hid] using hnoerrors hcatch
      · have := hout serviceName core clock _
          (houtstanding serviceName core clock requestIds hids)
        by_cases hname : job.serviceName = serviceName <;>
          simpa [sentTo_cons, hname, hid] using this
    | error e =>
      dsimp only at h
      split_ifs at h with hcaught
      swap
      · cases h
      have hneg : (-((errors : ℤ)+1)) < 0 := by omega
      have hstate₁ := hstate.addError job.serviceName hneg e
      obtain ⟨new, rfl, hnames, hsent, hcounting', hnoerrors, hout⟩ := ih hcounting hstate₁ h
      refine ⟨(job.serviceName, -((errors : ℤ)+1)) :: new, by simp, by simp [hnames],
        by simpa using hsent, hcounting', fun hcatch => ?_, fun serviceName core clock requestIds hids => ?_⟩
      · simp [hcatch] at hcaught
      · have := hout serviceName core clock requestIds
          (houtstanding serviceName core clock requestIds hids)
        rwa [sentTo_cons, if_neg (fun hkey => absurd hkey.2 (by simpa using hneg))]

end Client
end PySOA
