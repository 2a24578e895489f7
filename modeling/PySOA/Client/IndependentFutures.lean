import PySOA.Client.Futures

/-! Several futures of one client for one service, resolved one after the other once all responses
have reached the reply queue. -/
namespace PySOA

/-- The calls are made one after the other, until one raises. -/
def Client.callAll (client : Client) : List Call → Except Exc (List Future) × Client
  | [] => (.ok [], client)
  | call :: calls =>
    match client.call call with
    | (.error e, _, client) => (.error e, client)
    | (.ok future, _, client) =>
      let out := client.callAll calls
      (out.1.map (future :: ·), out.2)

/-- The caller resolves the futures in this order. -/
def Future.resolveAll : List Future → Client → List Outcome × Client
  | [], client => ([], client)
  | future :: futures, client =>
    let out := future.result client
    let rest := resolveAll futures out.2.2
    (out.1 :: rest.1, rest.2)

/-- The futures that a series of calls returns, and their requests, all outstanding. -/
theorem Client.callAll_ok {client client' : Client} {serviceName : String} {core : RedisTransportCore}
    {clock : ℕ → ℚ} {requestIds : List ℤ} {calls : List Call} {futures : List Future}
    (hclient : client.Counting) (hout : client.Outstanding serviceName core clock requestIds)
    (h : client.callAll calls = (.ok futures, client')) :
    (∀ future ∈ futures, future.Unresolved ∧ ∃ call ∈ calls, future.services = call.services) ∧
      client'.Outstanding serviceName core clock
        (requestIds ++ futures.flatMap (Future.requests serviceName)) := by
  induction calls generalizing client requestIds futures with
  | nil =>
    cases h
    exact ⟨by simp, by simpa using hout⟩
  | cons call calls ih =>
    unfold callAll at h
    generalize hcall : client.call call = out at h
    obtain ⟨result, context, client₁⟩ := out
    cases result with
    | error e => cases h
    | ok future =>
      obtain ⟨hunresolved, hservices, -, hcounting, hsent⟩ := call_ok hclient hcall
      dsimp only at h
      generalize hrest : client₁.callAll calls = rest at h
      obtain ⟨result, client₂⟩ := rest
      cases result with
      | error e => cases h
      | ok futures' =>
        cases h
        obtain ⟨hall, hout'⟩ := ih hcounting (hsent serviceName core clock requestIds hout) hrest
        refine ⟨fun f hf => ?_, by simpa using hout'⟩
        obtain rfl | hf := List.mem_cons.mp hf
        · exact ⟨hunresolved, call, List.mem_cons_self, hservices⟩
        · obtain ⟨hf', call', hcall', hsame⟩ := hall f hf
          exact ⟨hf', call', List.mem_cons_of_mem call hcall', hsame⟩

/-- The requests of a parallel call to one service are one entry, if there are any. -/
lemma requestIdsByService_of_forall {serviceName : String} {keys : List (String × ℤ)}
    (hkeys : ∀ key ∈ keys, key.1 = serviceName) :
    requestIdsByService keys =
      if sentTo serviceName keys = [] then [] else [(serviceName, sentTo serviceName keys)] := by
  induction keys using List.reverseRecOn with
  | nil => rfl
  | append_singleton keys key ih =>
    have hname : key.1 = serviceName := hkeys key (by simp)
    rw [requestIdsByService_append_singleton, ih fun key hkey => hkeys key (by simp [hkey]), sentTo_append,
      sentTo_cons, hname]
    by_cases hneg : key.2 < 0
    · simp [hneg, not_le.mpr hneg]
    · by_cases hnone : sentTo serviceName keys = [] <;>
        simp [hneg, not_lt.mp hneg, hnone, Client.addRequestId]

namespace JobsFuture
variable {future : JobsFuture} {client : Client} {serviceName : String} {core : RedisTransportCore}
  {k : ℕ} {arrivals later : List Arrival} {answers : String × ℤ → JobResponse}

/-- A future for which nothing was sent receives nothing. -/
lemma getResponse_idle (answers : String × ℤ → JobResponse) (client : Client)
    (hstate : future.state.Sent future.responseReassemblyKeys)
    (hkeys : ∀ key ∈ future.responseReassemblyKeys, key.1 = serviceName)
    (hidle : sentTo serviceName future.responseReassemblyKeys = []) :
    (future.getResponse (future.state, client)).1 = future.own answers ∧
      (future.getResponse (future.state, client)).2.2 = client := by
  have hids := hstate.requestIds.trans (requestIdsByService_of_forall hkeys)
  rw [if_pos hidle] at hids
  simp only [getResponse, hids, receiveAll]
  refine ⟨Results.mapM_congr fun key hkey => entry_eq_ownEntry fun hpos => ?_, trivial⟩
  have : key.2 ∈ sentTo serviceName future.responseReassemblyKeys :=
    mem_sentTo.mpr ⟨hkeys key hkey ▸ hkey, hpos⟩
  simp [hidle] at this

/-- All responses that the handler waits for are there and belong to the future. -/
lemma getResponse_eq (hstate : future.state.Sent future.responseReassemblyKeys)
    (hkeys : ∀ key ∈ future.responseReassemblyKeys, key.1 = serviceName)
    (hsent : sentTo serviceName future.responseReassemblyKeys ≠ [])
    (h : client.Awaits serviceName core k arrivals later) (hk : k = arrivals.length)
    (hnodup : (arrivals.map Arrival.requestId).Nodup)
    (hexpected : ∀ a ∈ arrivals, a.requestId ∈ sentTo serviceName future.responseReassemblyKeys) :
    ∃ state client', future.getResponse (future.state, client) =
        (future.responseReassemblyKeys.mapM (future.entry future.state.transportErrors
          (received serviceName arrivals)), state, client') ∧
      client'.Awaits serviceName core 0 [] later := by
  subst hk
  have hids := hstate.requestIds.trans (requestIdsByService_of_forall hkeys)
  rw [if_neg hsent] at hids
  obtain ⟨requestIds', -, hloop⟩ := foldlM_receive_ok future.catchTransportErrors serviceName []
    hnodup hexpected
  obtain ⟨client', hall, hawaits, -⟩ := h.getAllResponses_eq
    (receive future.catchTransportErrors serviceName) (by rw [List.take_length]; exact hloop)
  rw [if_pos le_rfl] at hall
  refine ⟨{ future.state with serviceRequestIds := [(serviceName, requestIds')] }, client', ?_,
    by simpa using hawaits⟩
  simp only [getResponse, hids, receiveAll, hall, List.append_nil, List.nil_append]

/-- A response to a request of another future is there. -/
lemma getResponse_foreign (hstate : future.state.Sent future.responseReassemblyKeys)
    (hkeys : ∀ key ∈ future.responseReassemblyKeys, key.1 = serviceName)
    (hsent : sentTo serviceName future.responseReassemblyKeys ≠ [])
    (h : client.Awaits serviceName core k arrivals later) (hk : k = arrivals.length)
    (hforeign : ∃ a ∈ arrivals, a.requestId ∉ sentTo serviceName future.responseReassemblyKeys) :
    ∃ e, (future.getResponse (future.state, client)).1 = .error e ∧ e.isUnexpected := by
  subst hk
  have hids := hstate.requestIds.trans (requestIdsByService_of_forall hkeys)
  rw [if_neg hsent] at hids
  obtain ⟨message, hloop⟩ := foldlM_receive_error future.catchTransportErrors serviceName []
    hforeign
  have hall := h.getAllResponses_error (receive future.catchTransportErrors serviceName)
    (s := (sentTo serviceName future.responseReassemblyKeys, []))
    (e := .exception "Exception" message) (by rw [List.take_length]; exact hloop)
  refine ⟨.exception "Exception" message, ?_, trivial⟩
  revert hall
  simp only [getResponse, hids, receiveAll]
  generalize client.getAllResponses serviceName _ _ = out
  obtain ⟨result, s, client'⟩ := out
  rintro rfl
  rfl

end JobsFuture

namespace Future
variable {future : Future} {client : Client} {serviceName : String} {core : RedisTransportCore}
  {k : ℕ} {arrivals later : List Arrival} {answers : String × ℤ → JobResponse}

/-- A future as a call to this one service returns it. -/
structure UnresolvedAt (future : Future) (serviceName : String) : Prop where
  unresolved : future.Unresolved
  services : ∀ name ∈ future.services, name = serviceName

lemma UnresolvedAt.keys {future : JobsFuture} (h : (Future.jobs future).UnresolvedAt serviceName) :
    ∀ key ∈ future.responseReassemblyKeys, key.1 = serviceName :=
  fun _ hkey => h.services _ (List.mem_map_of_mem hkey)

/-- A future for which no request was sent has its own outcome, and receives nothing. -/
theorem result_idle (answers : String × ℤ → JobResponse) (client : Client)
    (hfuture : future.UnresolvedAt serviceName) (hidle : future.requests serviceName = []) :
    (future.result client).1 = future.own answers ∧ (future.result client).2.2 = client := by
  cases future with
  | action future =>
    have hname := hfuture.services _ List.mem_cons_self
    simp [requests, hname] at hidle
  | actions future =>
    have hname := hfuture.services _ List.mem_cons_self
    simp [requests, hname] at hidle
  | jobs future =>
    obtain ⟨hcell, hstate, -⟩ := hfuture.unresolved
    obtain ⟨hresult, hclient⟩ := JobsFuture.result_fresh hcell client
    obtain ⟨hown, hsame⟩ := JobsFuture.getResponse_idle answers client hstate hfuture.keys hidle
    exact ⟨congrArg Outcome.jobs (hresult.trans hown), hclient.trans hsame⟩

/-- A future with requests that is resolved when no response is outstanding. -/
theorem result_drained (hfuture : future.UnresolvedAt serviceName)
    (hrequests : future.requests serviceName ≠ []) (h : client.Awaits serviceName core 0 [] later) :
    (future.result client).1.Unexpected ∧
      (future.result client).2.2.Awaits serviceName core 0 [] later := by
  cases future with
  | action future =>
    obtain ⟨hcell, hinner⟩ := hfuture.unresolved
    obtain rfl := hfuture.services _ List.mem_cons_self
    obtain ⟨hresult, hclient⟩ := ActionFuture.result_fresh hcell hinner client
    obtain ⟨client', hget, hawaits⟩ := ActionsFuture.getResponse_eq h le_rfl (fun _ => {})
      (by simp [Answers])
    rw [hget] at hresult hclient
    simp only [result, hresult, hclient]
    exact ⟨⟨_, rfl, trivial⟩, hawaits⟩
  | actions future =>
    have hcell : future.cell = {} := hfuture.unresolved
    obtain rfl := hfuture.services _ List.mem_cons_self
    obtain ⟨hresult, hclient⟩ := ActionsFuture.result_fresh hcell client
    obtain ⟨client', hget, hawaits⟩ := ActionsFuture.getResponse_eq h le_rfl (fun _ => {})
      (by simp [Answers])
    rw [hget] at hresult hclient
    simp only [result, hresult, hclient]
    exact ⟨⟨_, rfl, trivial⟩, hawaits⟩
  | jobs future =>
    obtain ⟨hcell, hstate, -⟩ := hfuture.unresolved
    obtain ⟨hresult, hclient⟩ := JobsFuture.result_fresh hcell client
    obtain ⟨state, client', hget, hawaits⟩ := JobsFuture.getResponse_eq hstate hfuture.keys hrequests h
      rfl (by simp) (by simp)
    rw [hget] at hresult hclient
    have hentry : ∀ key, 0 ≤ key.2 → future.entry future.state.transportErrors
        (JobsFuture.received serviceName []) key = .error (JobsFuture.noResponse key) :=
      fun key hpos => JobsFuture.entry_eq_noResponse hstate hpos rfl
    obtain ⟨requestId, hid⟩ := List.exists_mem_of_ne_nil _ hrequests
    obtain ⟨hmem, hpos⟩ := mem_sentTo.mp hid
    cases hout : future.responseReassemblyKeys.mapM (future.entry future.state.transportErrors
        (JobsFuture.received serviceName [])) with
    | ok ys =>
      obtain ⟨y, hy⟩ := Results.exists_ok_of_mapM hout _ hmem
      rw [hentry _ hpos] at hy
      cases hy
    | error e =>
      simp only [result, hresult, hclient, hout]
      refine ⟨⟨e, rfl, ?_⟩, hawaits⟩
      obtain ⟨key, hkey, herror⟩ := Results.exists_error_of_mapM hout
      by_cases hneg : key.2 < 0
      · obtain ⟨e', hkept⟩ := hstate.kept key hkey hneg
        simp only [JobsFuture.entry, hneg, if_true, hkept] at herror
        cases herror
      · rw [hentry key (not_lt.mp hneg)] at herror
        cases herror
        exact trivial

/-- A future with requests that is resolved when all outstanding responses are there, its own among
them, takes them all; the future of a parallel call raises if one of them is not its own. -/
theorem result_all (hfuture : future.UnresolvedAt serviceName)
    (hrequests : future.requests serviceName ≠ [])
    (h : client.Awaits serviceName core k arrivals later) (hk : k = arrivals.length)
    (hnodup : (arrivals.map Arrival.requestId).Nodup) (hanswers : Answers answers serviceName arrivals)
    (hown : ∀ requestId ∈ future.requests serviceName, requestId ∈ arrivals.map Arrival.requestId) :
    (future.result client).1 = future.own answers ∧
        (future.result client).2.2.Awaits serviceName core 0 [] later ∨
      (∃ a ∈ arrivals, a.requestId ∉ future.requests serviceName) ∧
        (future.result client).1.Unexpected := by
  cases future with
  | action future =>
    obtain ⟨hcell, hinner⟩ := hfuture.unresolved
    obtain rfl := hfuture.services _ List.mem_cons_self
    obtain ⟨hresult, hclient⟩ := ActionFuture.result_fresh hcell hinner client
    obtain ⟨client', hget, hawaits⟩ := ActionsFuture.getResponse_eq h hk.le answers hanswers
    rw [hk, List.take_length, if_pos (hown _ (by simp [requests]))] at hget
    rw [hk, List.drop_length] at hawaits
    rw [hget] at hresult hclient
    simp only [result, hresult, hclient]
    exact Or.inl ⟨rfl, hawaits⟩
  | actions future =>
    have hcell : future.cell = {} := hfuture.unresolved
    obtain rfl := hfuture.services _ List.mem_cons_self
    obtain ⟨hresult, hclient⟩ := ActionsFuture.result_fresh hcell client
    obtain ⟨client', hget, hawaits⟩ := ActionsFuture.getResponse_eq h hk.le answers hanswers
    rw [hk, List.take_length, if_pos (hown _ (by simp [requests]))] at hget
    rw [hk, List.drop_length] at hawaits
    rw [hget] at hresult hclient
    simp only [result, hresult, hclient]
    exact Or.inl ⟨rfl, hawaits⟩
  | jobs future =>
    obtain ⟨hcell, hstate, -⟩ := hfuture.unresolved
    obtain ⟨hresult, hclient⟩ := JobsFuture.result_fresh hcell client
    by_cases hforeign : ∃ a ∈ arrivals, a.requestId ∉ sentTo serviceName future.responseReassemblyKeys
    · obtain ⟨e, he, hbad⟩ := JobsFuture.getResponse_foreign hstate hfuture.keys hrequests h hk hforeign
      simp only [result, hresult, he]
      exact Or.inr ⟨hforeign, e, rfl, hbad⟩
    · push Not at hforeign
      obtain ⟨state, client', hget, hawaits⟩ := JobsFuture.getResponse_eq hstate hfuture.keys hrequests
        h hk hnodup hforeign
      rw [hget] at hresult hclient
      simp only [result, hresult, hclient]
      refine Or.inl ⟨congrArg Outcome.jobs ?_, hawaits⟩
      refine Results.mapM_congr fun key hkey => JobsFuture.entry_eq_ownEntry fun hpos => ?_
      have hname := hfuture.keys key hkey
      have hsent : key.2 ∈ sentTo serviceName future.responseReassemblyKeys := by
        rw [mem_sentTo, ← hname]
        exact ⟨hkey, hpos⟩
      rw [JobsFuture.lookup_received hanswers, if_pos ⟨hname, hown _ hsent⟩]

/-- Once all responses have been taken, only futures without requests have their own outcomes. -/
lemma resolveAll_drained (answers : String × ℤ → JobResponse) {futures : List Future}
    (hfutures : ∀ f ∈ futures, f.UnresolvedAt serviceName)
    (h : client.Awaits serviceName core 0 [] later) :
    (resolveAll futures client).1 = futures.map (own answers) ↔
      ∀ f ∈ futures, f.requests serviceName = [] := by
  induction futures generalizing client with
  | nil => simp [resolveAll]
  | cons f futures ih =>
    have hf := hfutures f List.mem_cons_self
    have hrest : ∀ g ∈ futures, g.UnresolvedAt serviceName :=
      fun g hg => hfutures g (List.mem_cons_of_mem f hg)
    by_cases hidle : f.requests serviceName = []
    · obtain ⟨hown, hsame⟩ := result_idle answers client hf hidle
      simp [resolveAll, hown, hsame, ih hrest h, hidle]
    · obtain ⟨hunexpected, -⟩ := result_drained hf hidle h
      simp [resolveAll, ne_own_of_unexpected hf.unresolved hunexpected, hidle]

/-- Futures are resolved one after the other, with all responses there: each has its own outcome
exactly if at most one of them has requests. -/
theorem resolveAll_eq_own {futures : List Future}
    (hfutures : ∀ f ∈ futures, f.UnresolvedAt serviceName)
    (h : client.Awaits serviceName core k arrivals later) (hk : k = arrivals.length)
    (hnodup : (arrivals.map Arrival.requestId).Nodup)
    (hanswers : Answers answers serviceName arrivals)
    (hresponses : (arrivals.map Arrival.requestId).Perm (futures.flatMap (requests serviceName))) :
    (resolveAll futures client).1 = futures.map (own answers) ↔
      futures.countP (fun f => !(f.requests serviceName).isEmpty) ≤ 1 := by
  induction futures with
  | nil => simp [resolveAll]
  | cons f futures ih =>
    have hf := hfutures f List.mem_cons_self
    have hrest : ∀ g ∈ futures, g.UnresolvedAt serviceName :=
      fun g hg => hfutures g (List.mem_cons_of_mem f hg)
    by_cases hidle : f.requests serviceName = []
    · have ih := ih hrest (by simpa [hidle] using hresponses)
      obtain ⟨hown, hsame⟩ := result_idle answers client hf hidle
      simpa [resolveAll, hown, hsame, hidle] using ih
    have hcount : (f :: futures).countP (fun f => !(f.requests serviceName).isEmpty) ≤ 1 ↔
        ∀ g ∈ futures, g.requests serviceName = [] := by
      rw [List.countP_cons_of_pos (by simpa using hidle)]
      simp
    rw [hcount]
    obtain ⟨hsame, hdrained⟩ | ⟨⟨a, ha, hforeign⟩, hunexpected⟩ := result_all hf hidle h hk hnodup hanswers
      fun requestId hid => hresponses.mem_iff.mpr (by simp [hid])
    · rw [← resolveAll_drained answers hrest hdrained]
      simp [resolveAll, hsame]
    · constructor
      · intro heq
        exact absurd (List.cons.inj heq).1 (ne_own_of_unexpected hf.unresolved hunexpected)
      · intro hnone
        have hmem := hresponses.mem_iff.mp (List.mem_map_of_mem ha)
        simp only [List.flatMap_cons, List.mem_append, hforeign, false_or, List.mem_flatMap] at hmem
        obtain ⟨g, hg, hid⟩ := hmem
        rw [hnone g hg] at hid
        cases hid

/-- The futures of a series of calls to one service, with no other response outstanding, resolved in
any order once all responses have arrived: each has its own outcome exactly if at most one of them
has requests. -/
theorem resolveAll_eq_own_iff {client client' : Client} {clock : ℕ → ℚ} {calls : List Call}
    {futures order : List Future} {responses : String → List Arrival} (hclient : client.Counting)
    (hidle : client.Outstanding serviceName core clock [])
    (hservice : ∀ call ∈ calls, ∀ name ∈ call.services, name = serviceName)
    (hcalls : client.callAll calls = (.ok futures, client'))
    (hexpects : client'.Expects serviceName (responses serviceName))
    (hanswers : Answers answers serviceName (responses serviceName))
    (hresponses : ((responses serviceName).map Arrival.requestId).Perm
      (futures.flatMap (requests serviceName)))
    (horder : order.Perm futures) :
    (resolveAll order (client'.deliver responses)).1 = order.map (own answers) ↔
      futures.countP (fun f => !(f.requests serviceName).isEmpty) ≤ 1 := by
  obtain ⟨hfutures, hout⟩ := Client.callAll_ok hclient hidle hcalls
  rw [List.nil_append] at hout
  have hunresolved : ∀ f ∈ order, f.UnresolvedAt serviceName := by
    intro f hf
    obtain ⟨hf', call, hcall, hservices⟩ := hfutures f (horder.mem_iff.mp hf)
    exact ⟨hf', hservices ▸ hservice call hcall⟩
  have hlength := hresponses.length_eq
  rw [List.length_map] at hlength
  have hnodup : ((responses serviceName).map Arrival.requestId).Nodup := by
    obtain ⟨handler, -, houtstanding⟩ := hout
    exact hresponses.nodup_iff.mpr houtstanding.nodup
  rw [← horder.countP_eq]
  exact resolveAll_eq_own hunresolved
    (hout.awaits_deliver responses [] (by simpa using hexpects)) hlength.symm hnodup hanswers
    (hresponses.trans (horder.flatMap_right _).symm)

/-- The requests of the futures that a series of calls returns. -/
def requestsOf (serviceName : String) (out : Except Exc (List Future) × Client) : Option (List (List ℤ)) :=
  out.1.toOption.map (List.map (requests serviceName))

lemma exists_of_requestsOf (client : Client) (serviceName : String) (calls : List Call)
    (ids : List (List ℤ))
    (h : requestsOf serviceName (client.callAll calls) = some ids) :
    ∃ futures client', client.callAll calls = (.ok futures, client') ∧
      futures.map (requests serviceName) = ids := by
  unfold requestsOf at h
  generalize client.callAll calls = out at h ⊢
  obtain ⟨result, client'⟩ := out
  cases result with
  | error e => cases h
  | ok futures => exact ⟨futures, client', rfl, Option.some.inj h⟩

/-- A parallel call with two jobs, whose responses arrive the other way round. -/
theorem resolveAll_eq_own_two_jobs :
    ∃ futures client', exampleClient.callAll
        [.jobs [⟨"example", [{ action := .text "read" }]⟩, ⟨"example", [{ action := .text "read" }]⟩]
          true true false {}] = (.ok futures, client') ∧
      (resolveAll futures (client'.deliver fun _ => [exampleArrival 1, exampleArrival 0])).1 =
        futures.map (own fun _ => exampleJobResponse) := by
  obtain ⟨futures, client', hcalls, hids⟩ := exists_of_requestsOf exampleClient "example"
    [.jobs [⟨"example", [{ action := .text "read" }]⟩, ⟨"example", [{ action := .text "read" }]⟩]
      true true false {}] [[0, 1]] (by decide +kernel)
  obtain ⟨-, hout⟩ := Client.callAll_ok exampleClient_counting (exampleClient_outstanding "example") hcalls
  refine ⟨futures, client', hcalls, (resolveAll_eq_own_iff exampleClient_counting
    (exampleClient_outstanding "example") ?_ hcalls (hout.expects ?_) ?_ ?_
    (List.Perm.refl futures)).mpr ?_⟩
  · simp [Call.services]
  · simp [liveAt_exampleArrival]
  · simp [Answers, exampleArrival]
  · rw [List.flatMap_def, hids]
    decide
  · have hcount := List.countP_map (p := fun ids : List ℤ => !ids.isEmpty)
      (f := requests "example") (l := futures)
    rw [hids] at hcount
    exact hcount.symm.le

/-- Of two futures the one that is resolved first takes both responses. -/
theorem resolveAll_ne_own_two_futures :
    ∃ futures client', exampleClient.callAll
        [.actions "example" [{ action := .text "read" }] true true {},
          .actions "example" [{ action := .text "read" }] true true {}] = (.ok futures, client') ∧
      futures.map (requests "example") = [[0], [1]] ∧
      (resolveAll futures (client'.deliver fun _ => [exampleArrival 0, exampleArrival 1])).1 ≠
        futures.map (own fun _ => exampleJobResponse) := by
  obtain ⟨futures, client', hcalls, hids⟩ := exists_of_requestsOf exampleClient "example"
    [.actions "example" [{ action := .text "read" }] true true {},
      .actions "example" [{ action := .text "read" }] true true {}] [[0], [1]] (by decide +kernel)
  obtain ⟨hfutures, hout⟩ := Client.callAll_ok exampleClient_counting
    (exampleClient_outstanding "example") hcalls
  have hunresolved : ∀ f ∈ futures, f.UnresolvedAt "example" := by
    intro f hf
    obtain ⟨hf', call, hcall, hservices⟩ := hfutures f hf
    refine ⟨hf', ?_⟩
    rw [hservices]
    simp only [List.mem_cons, List.not_mem_nil, or_false, or_self] at hcall
    subst hcall
    simp [Call.services]
  rw [List.nil_append, List.flatMap_def, hids] at hout
  refine ⟨futures, client', hcalls, hids, fun heq => ?_⟩
  have hawaits := hout.awaits_deliver (fun _ => [exampleArrival 0, exampleArrival 1]) []
    (hout.expects (by simp [liveAt_exampleArrival]))
  have hcount := (resolveAll_eq_own hunresolved hawaits rfl (by decide)
    (by simp [Answers, exampleArrival]) (by rw [List.flatMap_def, hids]; decide)).mp heq
  have hcount' := List.countP_map (p := fun ids : List ℤ => !ids.isEmpty)
    (f := requests "example") (l := futures)
  rw [hids] at hcount'
  exact absurd (hcount'.trans_le hcount) (by decide)

end Future
end PySOA
