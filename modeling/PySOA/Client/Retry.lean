import PySOA.Client.Futures

/-! A future whose result is asked for again after a receive timeout. -/
namespace PySOA

/-- The outcome of a second `result`, after one that may have timed out. The given responses arrive
before the first and between the two. -/
def Future.resultAgain (future : Future) (client : Client) (before after : String → List Arrival) :
    Outcome :=
  let first := future.result (client.deliver before)
  (first.2.1.result (first.2.2.deliver after)).1

namespace Client
variable {client client' : Client} {serviceName : String} {core : RedisTransportCore} {k : ℕ}
  {arrivals later : List Arrival}

lemma Awaits.congr (h : client.Awaits serviceName core k arrivals later)
    (hsame : client'.handlers serviceName = client.handlers serviceName) :
    client'.Awaits serviceName core k arrivals later := by
  obtain ⟨handler, hhandler, hawaits⟩ := h
  exact ⟨handler, hsame.trans hhandler, hawaits⟩

lemma hasProblem_congr (hsame : client'.handlers serviceName = client.handlers serviceName) :
    client'.hasProblem serviceName = client.hasProblem serviceName := by
  simp only [hasProblem, hsame]

@[simp] lemma hasProblem_deliver (client : Client) (responses : String → List Arrival)
    (serviceName : String) :
    (client.deliver responses).hasProblem serviceName = client.hasProblem serviceName := by
  simp only [hasProblem, deliver]
  cases client.handlers serviceName <;> rfl

end Client

namespace JobsFuture
variable {client : Client} {names : List String} {ids : String → List ℤ} {k : String → ℕ}
  {arrivals later : String → List Arrival} {core : String → RedisTransportCore}
  {answers : String × ℤ → JobResponse}

/-- The responses that arrive for a service belong to the expected requests, each to another one. -/
structure Belong (arrivals : List Arrival) (requestIds : List ℤ) : Prop where
  nodup : (arrivals.map Arrival.requestId).Nodup
  expected : ∀ a ∈ arrivals, a.requestId ∈ requestIds

lemma Belong.take {arrivals : List Arrival} {requestIds : List ℤ} (h : Belong arrivals requestIds)
    (n : ℕ) : Belong (arrivals.take n) requestIds where
  nodup := by
    rw [List.map_take]
    exact h.nodup.sublist (List.take_sublist _ _)
  expected a ha := h.expected a (List.mem_of_mem_take ha)

/-- One service: the handler's answer to the loop over its responses, errors not being caught. -/
lemma getAllResponses_receive {name : String} {core : RedisTransportCore} {k : ℕ}
    {arrivals later : List Arrival} {requestIds : List ℤ} (responses : ServiceResponses)
    (h : client.Awaits name core k arrivals later) (hbelong : Belong arrivals requestIds) :
    ∃ client', client.getAllResponses name (receive false name) (requestIds, responses) =
        (if k ≤ arrivals.length then .ok () else .error core.receiveTimeout,
          (requestIds, received name (arrivals.take k) ++ responses), client') ∧
      client'.Awaits name core (if client.hasProblem name then 0 else k-arrivals.length)
        (arrivals.drop k) later ∧
      ∀ n, n ≠ name → client'.handlers n = client.handlers n := by
  obtain ⟨requestIds', hsame, hloop⟩ := foldlM_receive_ok false name responses
    (hbelong.take k).nodup (hbelong.take k).expected
  rw [hsame rfl] at hloop
  exact h.getAllResponses_eq (receive false name) hloop

/-- The loop over the services when each has as many responses as its handler waits for. -/
theorem receiveAll_ok (hnodup : names.Nodup)
    (hawaits : ∀ n ∈ names, client.Awaits n (core n) (k n) (arrivals n) (later n))
    (hk : ∀ n ∈ names, k n ≤ (arrivals n).length) (hbelong : ∀ n ∈ names, Belong (arrivals n) (ids n))
    (hanswers : ∀ n ∈ names, Answers answers n (arrivals n)) (state : JobsState)
    (responses : ServiceResponses) :
    ∃ responses' client', receiveAll false (names.map fun n => (n, ids n)) state responses client =
        (.ok responses', { state with
          serviceRequestIds := state.serviceRequestIds ++ names.map fun n => (n, ids n) }, client') ∧
      ∀ key : String × ℤ, lookup key responses' =
        if key.1 ∈ names ∧ key.2 ∈ ((arrivals key.1).take (k key.1)).map Arrival.requestId then
          some (answers key)
        else lookup key responses := by
  induction names generalizing client state responses with
  | nil => exact ⟨responses, client, by simp [receiveAll], by simp⟩
  | cons name names ih =>
    rw [List.nodup_cons] at hnodup
    obtain ⟨client₁, hloop, -, hothers⟩ := getAllResponses_receive responses
      (hawaits name List.mem_cons_self) (hbelong name List.mem_cons_self)
    rw [if_pos (hk name List.mem_cons_self)] at hloop
    obtain ⟨responses', client', hrest, hlookup⟩ := ih hnodup.2
      (fun n hn => (hawaits n (List.mem_cons_of_mem name hn)).congr
        (hothers n (ne_of_mem_of_not_mem hn hnodup.1)))
      (fun n hn => hk n (List.mem_cons_of_mem name hn))
      (fun n hn => hbelong n (List.mem_cons_of_mem name hn))
      (fun n hn => hanswers n (List.mem_cons_of_mem name hn))
      { state with serviceRequestIds := state.serviceRequestIds ++ [(name, ids name)] }
      (received name ((arrivals name).take (k name)) ++ responses)
    refine ⟨responses', client', ?_, fun key => ?_⟩
    · simp only [List.map_cons, receiveAll, hloop, hrest, List.append_assoc, List.singleton_append]
    · have htaken : Answers answers name ((arrivals name).take (k name)) :=
        fun a ha => hanswers name List.mem_cons_self a (List.mem_of_mem_take ha)
      rw [hlookup, lookup_append, lookup_received htaken]
      by_cases hname : key.1 = name
      · simp only [hname, hnodup.1, false_and, if_false, List.mem_cons, true_or, true_and]
        split_ifs <;> simp
      · simp [hname]

/-- The loop over the services when it raises: a first service has too few responses. Those before
it have been received completely, those after it not at all, and the request ids are as before. -/
theorem receiveAll_error (hnodup : names.Nodup)
    (hawaits : ∀ n ∈ names, client.Awaits n (core n) (ids n).length (arrivals n) (later n))
    (hk : ∀ n ∈ names, (arrivals n).length ≤ (ids n).length)
    (hbelong : ∀ n ∈ names, Belong (arrivals n) (ids n)) {state : JobsState}
    {responses : ServiceResponses} {e : Exc}
    (h : (receiveAll false (names.map fun n => (n, ids n)) state responses client).1 = .error e) :
    ∃ pre m post client', names = pre ++ m :: post ∧
      (∀ n ∈ pre, (arrivals n).length = (ids n).length) ∧ (arrivals m).length < (ids m).length ∧
      receiveAll false (names.map fun n => (n, ids n)) state responses client =
        (.error (core m).receiveTimeout, { state with
          serviceRequestIds := state.serviceRequestIds ++ names.map fun n => (n, ids n) }, client') ∧
      (∀ n ∈ pre, client'.Awaits n (core n) 0 [] (later n)) ∧
      client'.Awaits m (core m)
        (if client.hasProblem m then 0 else (ids m).length - (arrivals m).length) [] (later m) ∧
      ∀ n, n ∉ pre → n ≠ m → client'.handlers n = client.handlers n := by
  induction names generalizing client state responses with
  | nil => cases h
  | cons name names ih =>
    rw [List.nodup_cons] at hnodup
    have hlength := hk name List.mem_cons_self
    obtain ⟨client₁, hloop, hawaits₁, hothers⟩ := getAllResponses_receive responses
      (hawaits name List.mem_cons_self) (hbelong name List.mem_cons_self)
    rw [List.drop_eq_nil_of_le hlength] at hawaits₁
    by_cases hshort : (arrivals name).length < (ids name).length
    · rw [if_neg (not_le.mpr hshort)] at hloop
      refine ⟨[], name, names, client₁, rfl, by simp, hshort, ?_, by simp, hawaits₁,
        fun n _ hn => hothers n hn⟩
      simp only [List.map_cons, receiveAll, hloop, Bool.and_false, Bool.false_eq_true, if_false,
        List.append_assoc, List.singleton_append]
    · rw [if_pos (not_lt.mp hshort)] at hloop
      have hrest : ∀ n ∈ names, client₁.handlers n = client.handlers n :=
        fun n hn => hothers n (ne_of_mem_of_not_mem hn hnodup.1)
      simp only [List.map_cons, receiveAll, hloop] at h
      obtain ⟨pre, m, post, client', rfl, hpre, hm, hall, hpreAwaits, hmAwaits, hothers'⟩ := ih hnodup.2
        (fun n hn => (hawaits n (List.mem_cons_of_mem name hn)).congr (hrest n hn))
        (fun n hn => hk n (List.mem_cons_of_mem name hn))
        (fun n hn => hbelong n (List.mem_cons_of_mem name hn)) h
      have hnew : name ∉ pre ∧ name ≠ m := by
        have := hnodup.1
        simp only [List.mem_append, List.mem_cons, not_or] at this
        exact ⟨this.1, this.2.1⟩
      rw [Client.hasProblem_congr (hrest m (by simp))] at hmAwaits
      refine ⟨name :: pre, m, post, client', rfl, ?_, hm, ?_, ?_, hmAwaits, ?_⟩
      · exact List.forall_mem_cons.mpr ⟨le_antisymm hlength (not_lt.mp hshort), hpre⟩
      · simp only [List.map_cons, receiveAll, hloop]
        rw [hall]
        simp
      · refine List.forall_mem_cons.mpr ⟨?_, hpreAwaits⟩
        have hdone : (if client.hasProblem name then 0 else
            (ids name).length - (arrivals name).length) = 0 := by
          split_ifs <;> omega
        rw [hdone] at hawaits₁
        exact hawaits₁.congr (hothers' name hnew.1 hnew.2)
      · intro n hn hnm
        rw [List.mem_cons, not_or] at hn
        exact (hothers' n hn.2 hnm).trans (hothers n hn.1)

variable {future : JobsFuture}

lemma entry_error {transportErrors : List ((String × ℤ) × Exc)} {responses : ServiceResponses}
    {key : String × ℤ} {e : Exc} (h : future.entry transportErrors responses key = .error e) :
    e.isReceiveTimeout = false := by
  unfold entry at h
  split_ifs at h
  · split at h <;> cases h
    rfl
  · split at h
    · next response _ =>
      cases hchecked : checkErrors future.raiseJobErrors future.raiseActionErrors response with
      | ok response =>
        rw [hchecked] at h
        cases h
      | error e' =>
        rw [hchecked] at h
        cases h
        have := checkErrors_error hchecked
        cases e <;> first | rfl | cases this
    · split at h <;> cases h
      rfl

/-- The result when every service has as many responses as its handler waits for. -/
lemma getResponse_eq_mapM (hcatch : future.catchTransportErrors = false)
    (hids : future.state.serviceRequestIds = names.map fun n => (n, ids n)) (hnodup : names.Nodup)
    (hawaits : ∀ n ∈ names, client.Awaits n (core n) (k n) (arrivals n) (later n))
    (hk : ∀ n ∈ names, k n ≤ (arrivals n).length) (hbelong : ∀ n ∈ names, Belong (arrivals n) (ids n))
    (hanswers : ∀ n ∈ names, Answers answers n (arrivals n)) :
    ∃ responses, (future.getResponse (future.state, client)).1 =
        future.responseReassemblyKeys.mapM (future.entry future.state.transportErrors responses) ∧
      ∀ key : String × ℤ, lookup key responses =
        if key.1 ∈ names ∧ key.2 ∈ ((arrivals key.1).take (k key.1)).map Arrival.requestId then
          some (answers key)
        else none := by
  obtain ⟨responses, client', hall, hlookup⟩ := receiveAll_ok hnodup hawaits hk hbelong hanswers
    { future.state with serviceRequestIds := [] } []
  refine ⟨responses, ?_, hlookup⟩
  simp only [getResponse, hids, hcatch, hall]

/-- Every job finds the response to its request. -/
lemma mapM_entry_eq_own {responses : ServiceResponses}
    (hfound : ∀ key ∈ future.responseReassemblyKeys, lookup key responses = some (answers key)) :
    future.responseReassemblyKeys.mapM (future.entry future.state.transportErrors responses) =
      future.own answers :=
  Results.mapM_congr fun key hkey => entry_eq_ownEntry fun _ => hfound key hkey

/-- Some job does not find a response. -/
lemma mapM_entry_ne_ok (hstate : future.state.Sent future.responseReassemblyKeys)
    {responses : ServiceResponses} {key : String × ℤ} (hkey : key ∈ future.responseReassemblyKeys)
    (hpos : 0 ≤ key.2) (hmissing : lookup key responses = none)
    (results : List (Except Exc JobResponse)) :
    future.responseReassemblyKeys.mapM (future.entry future.state.transportErrors responses) ≠
      .ok results := by
  intro hok
  obtain ⟨y, hy⟩ := Results.exists_ok_of_mapM hok key hkey
  rw [entry_eq_noResponse hstate hpos hmissing] at hy
  cases hy

/-- A result that times out leaves the future as it was. -/
lemma result_timeout (client : Client) (hcell : future.cell = {}) {e : Exc}
    (h : (future.getResponse (future.state, client)).1 = .error e) (he : e.isReceiveTimeout = true)
    (hstate : (future.getResponse (future.state, client)).2.1 = future.state) :
    future.result client = (.error e, future, (future.getResponse (future.state, client)).2.2) := by
  unfold result
  rw [hcell, FutureCell.result_timeout h he]
  simp only [hstate]
  cases future
  cases hcell
  rfl

/-- The state of affairs between the sending of the requests of a parallel call and its results: each
service is going to answer each request once. -/
structure Pending (future : JobsFuture) (client : Client) (core : String → RedisTransportCore)
    (clock : String → ℕ → ℚ) (before after : String → List Arrival)
    (answers : String × ℤ → JobResponse) : Prop where
  sent : future.state.Sent future.responseReassemblyKeys
  catches : future.catchTransportErrors = false
  nonneg : ∀ key ∈ future.responseReassemblyKeys, 0 ≤ key.2
  outstanding : ∀ n ∈ future.responseReassemblyKeys.map Prod.fst,
    client.Outstanding n (core n) (clock n) (sentTo n future.responseReassemblyKeys)
  expects : ∀ n ∈ future.responseReassemblyKeys.map Prod.fst, client.Expects n (before n ++ after n)
  answers : ∀ n ∈ future.responseReassemblyKeys.map Prod.fst, Answers answers n (before n ++ after n)
  responses : ∀ n ∈ future.responseReassemblyKeys.map Prod.fst,
    ((before n ++ after n).map Arrival.requestId).Perm (sentTo n future.responseReassemblyKeys)

namespace Pending
variable {clock : String → ℕ → ℚ} {before after : String → List Arrival}

lemma belong (h : Pending future client core clock before after answers) {n : String}
    (hn : n ∈ future.responseReassemblyKeys.map Prod.fst) :
    Belong (before n ++ after n) (sentTo n future.responseReassemblyKeys) where
  nodup := by
    obtain ⟨handler, -, hout⟩ := h.outstanding n hn
    exact (h.responses n hn).nodup_iff.mpr hout.nodup
  expected a ha := (h.responses n hn).mem_iff.mp (List.mem_map_of_mem ha)

lemma length_eq (h : Pending future client core clock before after answers) {n : String}
    (hn : n ∈ future.responseReassemblyKeys.map Prod.fst) :
    (before n ++ after n).length = (sentTo n future.responseReassemblyKeys).length := by
  simpa using (h.responses n hn).length_eq

lemma mem_arrivals (h : Pending future client core clock before after answers) {key : String × ℤ}
    (hkey : key ∈ future.responseReassemblyKeys) :
    key.2 ∈ (before key.1 ++ after key.1).map Arrival.requestId :=
  (h.responses key.1 (List.mem_map_of_mem hkey)).mem_iff.mpr
    (mem_sentTo.mpr ⟨hkey, h.nonneg key hkey⟩)

/-- A single result, with all responses there. -/
theorem result_all (h : Pending future client core clock before after answers)
    (hcell : future.cell = {}) :
    (future.result (client.deliver fun n => before n ++ after n)).1 = future.own answers := by
  obtain ⟨names, hnodup, hmem, -, hids⟩ := requestIdsByService_eq h.nonneg
  have hawaits : ∀ n ∈ names, (client.deliver fun n => before n ++ after n).Awaits n (core n)
      (sentTo n future.responseReassemblyKeys).length (before n ++ after n) [] := fun n hn =>
    (h.outstanding n ((hmem n).mp hn)).awaits_deliver (fun n => before n ++ after n) []
      (by simpa using h.expects n ((hmem n).mp hn))
  obtain ⟨responses, hresult, hlookup⟩ := getResponse_eq_mapM h.catches (h.sent.requestIds.trans hids)
    hnodup hawaits
    (fun n hn => (h.length_eq ((hmem n).mp hn)).ge) (fun n hn => h.belong ((hmem n).mp hn))
    (fun n hn => h.answers n ((hmem n).mp hn))
  rw [(result_fresh hcell _).1, hresult]
  refine mapM_entry_eq_own fun key hkey => ?_
  have hname : key.1 ∈ names := (hmem key.1).mpr (List.mem_map_of_mem hkey)
  rw [hlookup, ← h.length_eq ((hmem _).mp hname), List.take_length,
    if_pos ⟨hname, h.mem_arrivals hkey⟩]

lemma belong_before (h : Pending future client core clock before after answers) {n : String}
    (hn : n ∈ future.responseReassemblyKeys.map Prod.fst) :
    Belong (before n) (sentTo n future.responseReassemblyKeys) := by
  simpa using (h.belong hn).take (before n).length

lemma belong_after (h : Pending future client core clock before after answers) {n : String}
    (hn : n ∈ future.responseReassemblyKeys.map Prod.fst) :
    Belong (after n) (sentTo n future.responseReassemblyKeys) := by
  refine ⟨?_, fun a ha => (h.belong hn).expected a (List.mem_append_right _ ha)⟩
  have hnodup := (h.belong hn).nodup
  rw [List.map_append, List.nodup_append] at hnodup
  exact hnodup.2.1

/-- How a result that times out leaves the handlers of the services. The services before the given
one have been received, those after it have not. -/
structure Stopped (client client' : Client) (core : String → RedisTransportCore)
    (before after : String → List Arrival) (ids : String → List ℤ) (pre : List String) (m : String)
    (post : List String) : Prop where
  full : ∀ n ∈ pre, (before n).length = (ids n).length
  short : (before m).length < (ids m).length
  received : ∀ n ∈ pre, client'.Awaits n (core n) 0 [] (after n)
  stopped : client'.Awaits m (core m)
    (if client.hasProblem m then 0 else (ids m).length - (before m).length) [] (after m)
  untouched : ∀ n ∈ post, client'.Awaits n (core n) (ids n).length (before n) (after n)

/-- A first result that times out leaves the future as it was. -/
lemma result_stopped (h : Pending future client core clock before after answers)
    (hcell : future.cell = {}) {e : Exc} (he : e.isReceiveTimeout = true)
    (hfirst : (future.result (client.deliver before)).1 = .error e)
    (hids : future.state.serviceRequestIds =
      names.map fun n => (n, sentTo n future.responseReassemblyKeys)) (hnodup : names.Nodup)
    (hmem : ∀ n, n ∈ names ↔ n ∈ future.responseReassemblyKeys.map Prod.fst) :
    ∃ client' pre m post, future.result (client.deliver before) = (.error e, future, client') ∧
      names = pre ++ m :: post ∧ Stopped client client' core before after
        (fun n => sentTo n future.responseReassemblyKeys) pre m post := by
  rw [(result_fresh hcell _).1] at hfirst
  have hawaits : ∀ n ∈ names, (client.deliver before).Awaits n (core n)
      (sentTo n future.responseReassemblyKeys).length (before n) (after n) := fun n hn =>
    (h.outstanding n ((hmem n).mp hn)).awaits_deliver before (after n) (h.expects n ((hmem n).mp hn))
  have hshort : ∀ n ∈ names, (before n).length ≤ (sentTo n future.responseReassemblyKeys).length :=
    fun n hn => by rw [← h.length_eq ((hmem n).mp hn), List.length_append]; omega
  cases hall : (receiveAll false (names.map fun n => (n, sentTo n future.responseReassemblyKeys))
      { future.state with serviceRequestIds := [] } [] (client.deliver before)).1 with
  | ok responses =>
    simp only [getResponse, hids, h.catches, hall] at hfirst
    obtain ⟨key, -, herror⟩ := Results.exists_error_of_mapM hfirst
    rw [entry_error herror] at he
    cases he
  | error e' =>
    obtain ⟨pre, m, post, client', rfl, hfull, hm, hout, hreceived, hstopped, hothers⟩ :=
      receiveAll_error hnodup hawaits hshort (fun n hn => h.belong_before ((hmem n).mp hn)) hall
    have hget : future.getResponse (future.state, client.deliver before) =
        (.error (core m).receiveTimeout, future.state, client') := by
      simp only [getResponse, hids, h.catches, hout, List.nil_append]
      rw [← hids]
    rw [hget] at hfirst
    cases hfirst
    have hresult := result_timeout (client.deliver before) hcell (by rw [hget]) he
      (by rw [hget])
    rw [hget] at hresult
    refine ⟨client', pre, m, post, hresult, rfl, hfull, hm, hreceived, by simpa using hstopped, ?_⟩
    intro n hn
    rw [List.nodup_append, List.nodup_cons] at hnodup
    exact (hawaits n (by simp [hn])).congr (hothers n
      (fun hpre => hnodup.2.2 n hpre n (List.mem_cons_of_mem m hn) rfl)
      (ne_of_mem_of_not_mem hn hnodup.2.1.1))

/-- What the second loop finds of a service when the first one has stopped at the given service. -/
def foundAgain (before after : String → List Arrival) (pre : List String) (m n : String) :
    List Arrival :=
  if n ∈ pre ∨ n = m then after n else before n ++ after n

/-- How many responses of a service the second loop waits for. -/
def awaitedAgain (client : Client) (before after : String → List Arrival) (pre : List String)
    (m n : String) : ℕ :=
  if n ∈ pre then 0
  else if n = m then if client.hasProblem m then 0 else (after m).length
  else (before n ++ after n).length

lemma awaitedAgain_le (client : Client) (before after : String → List Arrival) (pre : List String)
    (m n : String) :
    awaitedAgain client before after pre m n ≤ (foundAgain before after pre m n).length := by
  unfold awaitedAgain foundAgain
  by_cases hpre : n ∈ pre
  · simp [hpre]
  · by_cases hnm : n = m
    · subst hnm
      simp only [hpre, if_false, if_true, or_true]
      split_ifs <;> simp
    · simp [hpre, hnm]

/-- The second loop starts with these responses in the queues. -/
lemma Stopped.awaits_again {client' : Client} {ids : String → List ℤ} {pre post : List String}
    {m n : String} (h : Stopped client client' core before after ids pre m post)
    (hlength : ∀ n ∈ pre ++ m :: post, (before n ++ after n).length = (ids n).length)
    (hn : n ∈ pre ++ m :: post) :
    (client'.deliver after).Awaits n (core n) (awaitedAgain client before after pre m n)
      (foundAgain before after pre m n) [] := by
  unfold awaitedAgain foundAgain
  by_cases hpre : n ∈ pre
  · have hreceived := h.received n hpre
    rw [← List.append_nil (after n)] at hreceived
    simpa [hpre] using hreceived.deliver
  · by_cases hnm : n = m
    · subst hnm
      have hrest : (ids n).length - (before n).length = (after n).length := by
        have := hlength n hn
        rw [List.length_append] at this
        omega
      have hstopped := h.stopped
      rw [← List.append_nil (after n), hrest] at hstopped
      simpa [hpre] using hstopped.deliver
    · have huntouched := h.untouched n (by simpa [hpre, hnm] using hn)
      rw [← List.append_nil (after n), ← hlength n hn] at huntouched
      simpa [hpre, hnm] using huntouched.deliver

lemma belong_again (h : Pending future client core clock before after answers) (pre : List String)
    (m : String) {n : String} (hn : n ∈ future.responseReassemblyKeys.map Prod.fst) :
    Belong (foundAgain before after pre m n) (sentTo n future.responseReassemblyKeys) := by
  unfold foundAgain
  split_ifs
  · exact h.belong_after hn
  · exact h.belong hn

lemma answers_again (h : Pending future client core clock before after answers) (pre : List String)
    (m : String) {n : String} (hn : n ∈ future.responseReassemblyKeys.map Prod.fst) :
    Answers answers n (foundAgain before after pre m n) := by
  have hall := h.answers n hn
  unfold foundAgain
  split_ifs
  · exact fun a ha => hall a (List.mem_append_right _ ha)
  · exact hall

/-- The second result: responses that the first one received are missing. -/
lemma getResponse_stopped (h : Pending future client core clock before after answers)
    {client' : Client} {pre post : List String} {m : String}
    (hids : future.state.serviceRequestIds =
      (pre ++ m :: post).map fun n => (n, sentTo n future.responseReassemblyKeys))
    (hnodup : (pre ++ m :: post).Nodup)
    (hmem : ∀ n, n ∈ pre ++ m :: post ↔ n ∈ future.responseReassemblyKeys.map Prod.fst)
    (hstopped : Stopped client client' core before after
      (fun n => sentTo n future.responseReassemblyKeys) pre m post) :
    ∃ responses, (future.getResponse (future.state, client'.deliver after)).1 =
        future.responseReassemblyKeys.mapM (future.entry future.state.transportErrors responses) ∧
      ∀ key ∈ future.responseReassemblyKeys, lookup key responses =
        if key.1 ∈ pre ∨ key.1 = m ∧ (client.hasProblem m = true ∨
          key.2 ∉ (after m).map Arrival.requestId) then none else some (answers key) := by
  have hm : m ∉ pre := fun hpre =>
    (List.nodup_append.mp hnodup).2.2 m hpre m List.mem_cons_self rfl
  obtain ⟨responses, hresult, hlookup⟩ := getResponse_eq_mapM h.catches hids hnodup
    (fun n hn => hstopped.awaits_again (fun n hn => h.length_eq ((hmem n).mp hn)) hn)
    (fun n _ => awaitedAgain_le client before after pre m n)
    (fun n hn => h.belong_again pre m ((hmem n).mp hn))
    (fun n hn => h.answers_again pre m ((hmem n).mp hn))
  refine ⟨responses, hresult, fun key hkey => ?_⟩
  have hname := (hmem key.1).mpr (List.mem_map_of_mem hkey)
  have hthere := h.mem_arrivals hkey
  rw [hlookup]
  unfold awaitedAgain foundAgain
  by_cases hpre : key.1 ∈ pre
  · simp [hpre]
  · by_cases hnm : key.1 = m
    · by_cases hproblem : client.hasProblem m = true
      · simp [hnm, hproblem]
      · by_cases hlater : key.2 ∈ (after m).map Arrival.requestId <;>
          simp [hm, hnm, hproblem, hlater]
    · simp only [hpre, hnm, if_false, or_self, List.take_length, hname, hthere, and_self,
        if_true, false_and]

/-- A result for which no response is lost: no response of the first service had arrived, and its
handler did not give up. -/
lemma first_of_found (h : Pending future client core clock before after answers) {pre post : List String}
    {m : String} (hmem : ∀ n, n ∈ pre ++ m :: post ↔ n ∈ future.responseReassemblyKeys.map Prod.fst)
    (hfound : ∀ key ∈ future.responseReassemblyKeys, ¬ (key.1 ∈ pre ∨ key.1 = m ∧
      (client.hasProblem m = true ∨ key.2 ∉ (after m).map Arrival.requestId))) {name : String}
    (hname : (pre ++ m :: post).head? = some name) :
    before name = [] ∧ client.hasProblem name = false := by
  -- every service has a job
  have hjob : ∀ n ∈ pre ++ m :: post, ∃ key ∈ future.responseReassemblyKeys, key.1 = n :=
    fun n hn => List.mem_map.mp ((hmem n).mp hn)
  cases pre with
  | cons p pre =>
    obtain ⟨key, hkey, rfl⟩ := hjob p (by simp)
    exact absurd (Or.inl List.mem_cons_self) (hfound key hkey)
  | nil =>
    cases hname
    constructor
    · rw [List.eq_nil_iff_forall_not_mem]
      intro a ha
      have hbelong := h.belong ((hmem m).mp (by simp))
      have hkey := (mem_sentTo.mp (hbelong.expected a (List.mem_append_left _ ha))).1
      refine hfound _ hkey (Or.inr ⟨rfl, Or.inr fun hlater => ?_⟩)
      have hnodup := hbelong.nodup
      rw [List.map_append, List.nodup_append] at hnodup
      exact hnodup.2.2 _ (List.mem_map_of_mem ha) _ hlater rfl
    · obtain ⟨key, hkey, rfl⟩ := hjob m (by simp)
      by_contra hproblem
      exact hfound key hkey (Or.inr ⟨rfl, Or.inl (by simpa using hproblem)⟩)

/-- If no response of the first service had arrived, the loop has stopped at this service, and all
responses are still to come. -/
lemma found_of_first (h : Pending future client core clock before after answers) {client' : Client}
    {pre post : List String} {m : String}
    (hmem : ∀ n, n ∈ pre ++ m :: post ↔ n ∈ future.responseReassemblyKeys.map Prod.fst)
    (hstopped : Stopped client client' core before after
      (fun n => sentTo n future.responseReassemblyKeys) pre m post)
    (hfirst : ∀ name, (pre ++ m :: post).head? = some name →
      before name = [] ∧ client.hasProblem name = false) {key : String × ℤ}
    (hkey : key ∈ future.responseReassemblyKeys) :
    ¬ (key.1 ∈ pre ∨ key.1 = m ∧
      (client.hasProblem m = true ∨ key.2 ∉ (after m).map Arrival.requestId)) := by
  cases pre with
  | cons p pre =>
    obtain ⟨hnone, -⟩ := hfirst p rfl
    have hfull := hstopped.full p List.mem_cons_self
    obtain ⟨key, hkey, rfl⟩ := List.mem_map.mp ((hmem p).mp (by simp))
    have hsent := mem_sentTo.mpr ⟨hkey, h.nonneg key hkey⟩
    rw [hnone, List.length_nil] at hfull
    simp [List.length_eq_zero_iff.mp hfull.symm] at hsent
  | nil =>
    obtain ⟨hnone, hproblem⟩ := hfirst m rfl
    rintro (hpre | ⟨hm, hgave | hlost⟩)
    · cases hpre
    · rw [hproblem] at hgave
      cases hgave
    · have hthere := h.mem_arrivals hkey
      rw [hm, hnone, List.nil_append] at hthere
      exact hlost hthere

/-- A first result that times out leaves the future as it was; the second one is the same as a single
one exactly if no response of the first service had arrived and its handler did not give up. -/
theorem result_again (h : Pending future client core clock before after answers)
    (hcell : future.cell = {}) {e : Exc} (he : e.isReceiveTimeout = true)
    (hfirst : (future.result (client.deliver before)).1 = .error e)
    {results : List (Except Exc JobResponse)} (hown : future.own answers = .ok results) :
    ∃ client', future.result (client.deliver before) = (.error e, future, client') ∧
      ((future.result (client'.deliver after)).1 = .ok results ↔
        ∀ name, (future.responseReassemblyKeys.map Prod.fst).head? = some name →
          before name = [] ∧ client.hasProblem name = false) := by
  obtain ⟨names, hnodup, hmem, hhead, hids⟩ := requestIdsByService_eq h.nonneg
  have hids := h.sent.requestIds.trans hids
  obtain ⟨client', pre, m, post, hresult, rfl, hstopped⟩ := h.result_stopped hcell he hfirst hids hnodup
    hmem
  obtain ⟨responses, hagain, hlookup⟩ := h.getResponse_stopped hids hnodup hmem hstopped
  refine ⟨client', hresult, ?_⟩
  rw [(result_fresh hcell _).1, hagain, ← hhead]
  constructor
  · intro hok name hname
    refine h.first_of_found hmem (fun key hkey hlost => ?_) hname
    refine mapM_entry_ne_ok h.sent hkey (h.nonneg key hkey) ?_ results hok
    rw [hlookup key hkey, if_pos hlost]
  · intro hfirst
    rw [← hown]
    refine mapM_entry_eq_own fun key hkey => ?_
    rw [hlookup key hkey, if_neg (h.found_of_first hmem hstopped hfirst hkey)]

end Pending
end JobsFuture

namespace ActionsFuture
variable {future : ActionsFuture} {client : Client} {core : RedisTransportCore}
  {before : List Arrival} {responses : String → List Arrival} {answers : String × ℤ → JobResponse}

lemma own_error {e : Exc} (h : future.own answers = .error e) : e.isReceiveTimeout = false := by
  have := checkErrors_error h
  cases e <;> first | rfl | cases this

/-- A first attempt that times out found no response. The second one finds it, unless the handler
gave up. -/
lemma getResponse_again
    (h : client.Awaits future.serviceName core 1 before (responses future.serviceName))
    (hids : (before ++ responses future.serviceName).map Arrival.requestId = [future.expectedRequestId])
    (hanswers : Answers answers future.serviceName (before ++ responses future.serviceName)) {e : Exc}
    (he : e.isReceiveTimeout = true) (hfirst : (future.getResponse client).1 = .error e) :
    before = [] ∧ ∃ client', future.getResponse client = (.error e, client') ∧
      (future.getResponse (client'.deliver responses)).1 =
        if client.hasProblem future.serviceName then .error (future.unexpected []) else future.own answers := by
  have hlength : before.length + (responses future.serviceName).length = 1 := by
    simpa using congrArg List.length hids
  cases before with
  | cons a before =>
    obtain ⟨rfl, hnone⟩ : before = [] ∧ responses future.serviceName = [] := by
      simpa using congrArg List.tail hids
    have hid : a.requestId = future.expectedRequestId := by simpa [hnone] using hids
    obtain ⟨client', hget, -⟩ := getResponse_eq h (by simp) answers
      fun b hb => hanswers b (List.mem_append_left _ hb)
    rw [hget] at hfirst
    simp only [List.take_succ_cons, List.take_zero, List.map_cons, List.map_nil, hid, List.mem_singleton,
      if_true] at hfirst
    rw [own_error hfirst] at he
    cases he
  | nil =>
    obtain ⟨client', hget, hawaits⟩ := getResponse_timeout h
    have hcore : e = core.receiveTimeout := by
      rw [hget] at hfirst
      cases hfirst
      rfl
    refine ⟨rfl, client', by rw [hget, hcore], ?_⟩
    rw [← List.append_nil (responses future.serviceName)] at hawaits
    simp only [List.nil_append, List.length_nil, Nat.zero_add] at hids hanswers hlength
    cases hproblem : client.hasProblem future.serviceName with
    | true =>
      rw [if_pos hproblem] at hawaits
      obtain ⟨client'', hagain, -⟩ := getResponse_eq hawaits.deliver (by simp)
        answers hanswers
      rw [hagain]
      simp
    | false =>
      rw [if_neg (by simp [hproblem])] at hawaits
      obtain ⟨client'', hagain, -⟩ := getResponse_eq hawaits.deliver
        (by simp [hlength]) answers hanswers
      rw [hagain, List.nil_append, List.take_of_length_le (by omega), hids]
      simp

/-- A single attempt when the response is there, and two attempts, the first of which times out. -/
lemma getResponse_single_and_again {clock : ℕ → ℚ} {before after : String → List Arrival}
    (hout : client.Outstanding future.serviceName core clock [future.expectedRequestId])
    (hexpects : client.Expects future.serviceName
      (before future.serviceName ++ after future.serviceName))
    (hids : (before future.serviceName ++ after future.serviceName).map Arrival.requestId =
      [future.expectedRequestId])
    (hanswers : Answers answers future.serviceName
      (before future.serviceName ++ after future.serviceName)) :
    (future.getResponse (client.deliver fun n => before n ++ after n)).1 = future.own answers ∧
      ∀ e : Exc, e.isReceiveTimeout = true →
        (future.getResponse (client.deliver before)).1 = .error e →
        before future.serviceName = [] ∧
          ∃ client', future.getResponse (client.deliver before) = (.error e, client') ∧
            (future.getResponse (client'.deliver after)).1 =
              if client.hasProblem future.serviceName then .error (future.unexpected [])
              else future.own answers := by
  have hlength : (before future.serviceName ++ after future.serviceName).length = 1 := by
    simpa using congrArg List.length hids
  constructor
  · obtain ⟨client', hget, -⟩ := getResponse_eq
      (hout.awaits_deliver (fun n => before n ++ after n) [] (by simpa using hexpects))
      (by simp only [hlength, List.length_singleton, le_refl]) answers hanswers
    rw [hget, List.take_of_length_le (by simp only [hlength, List.length_singleton, le_refl]), hids]
    simp
  · intro e he hfirst
    have := getResponse_again (hout.awaits_deliver before _ hexpects) hids hanswers he hfirst
    rwa [Client.hasProblem_deliver] at this

lemma result_timeout (hcell : future.cell = {}) {e : Exc} (he : e.isReceiveTimeout = true)
    {client' : Client} (h : future.getResponse client = (.error e, client')) :
    future.result client = (.error e, future, client') := by
  unfold result
  rw [hcell, FutureCell.result_timeout (by rw [h]) he, h]
  cases future
  cases hcell
  rfl

end ActionsFuture

lemma ActionFuture.result_timeout {future : ActionFuture} {client client' : Client}
    (hcell : future.cell = {}) (hinner : future.future.cell = {}) {e : Exc}
    (he : e.isReceiveTimeout = true) (h : future.future.getResponse client = (.error e, client')) :
    future.result client = (.error e, future, client') := by
  have hget : getResult (future.future, client) = (.error e, future.future, client') := by
    simp only [getResult, ActionsFuture.result_timeout hinner he h]
    rfl
  unfold result
  rw [hcell, FutureCell.result_timeout (by rw [hget]) he, hget]
  cases future
  cases hcell
  rfl

lemma ActionFuture.outcome_error {response : JobResponse} {e : Exc} (h : outcome response = .error e) :
    e.isReceiveTimeout = false := by
  unfold outcome at h
  split at h
  · split at h <;> cases h
    rfl
  · cases h

namespace Future
variable {future : Future} {client : Client} {answers : String × ℤ → JobResponse}
  {core : String → RedisTransportCore} {clock : String → ℕ → ℚ} {before after : String → List Arrival}

/-- The state of affairs between a call and the results of its future: each service is going to
answer each request once. -/
structure Pending (future : Future) (client : Client) (core : String → RedisTransportCore)
    (clock : String → ℕ → ℚ) (before after : String → List Arrival)
    (answers : String × ℤ → JobResponse) : Prop where
  unresolved : future.Unresolved
  catches : future.catchesTransportErrors = false
  outstanding : ∀ n ∈ future.services, client.Outstanding n (core n) (clock n) (future.requests n)
  expects : ∀ n ∈ future.services, client.Expects n (before n ++ after n)
  answers : ∀ n ∈ future.services, Answers answers n (before n ++ after n)
  responses : ∀ n ∈ future.services,
    ((before n ++ after n).map Arrival.requestId).Perm (future.requests n)

/-- A second attempt that raises differs from a result that does not. -/
lemma ite_error_eq_iff {α : Type} {b : Bool} {e : Exc} {x : Except Exc α} (hx : ∀ e, x ≠ .error e) :
    (if b then .error e else x) = x ↔ b = false := by
  cases b with
  | false => simp
  | true => simpa using fun h => hx e h.symm

lemma Pending.resultAgain_eq_action {future : ActionFuture}
    (h : (Future.action future).Pending client core clock before after answers)
    (hreturns : ((Future.action future).result (client.deliver fun n => before n ++ after n)).1.error? = none)
    {e : Exc} (hfirst : ((Future.action future).result (client.deliver before)).1.error? = some e)
    (he : e.isReceiveTimeout = true) :
    (Future.action future).resultAgain client before after =
        ((Future.action future).result (client.deliver fun n => before n ++ after n)).1 ↔
      before future.future.serviceName = [] ∧ client.hasProblem future.future.serviceName = false := by
  obtain ⟨hcell, hinner⟩ := h.unresolved
  have hout := h.outstanding _ List.mem_cons_self
  have hids := h.responses _ List.mem_cons_self
  simp only [requests, if_true] at hout hids
  obtain ⟨hsingle, hagain⟩ := ActionsFuture.getResponse_single_and_again hout
    (h.expects _ List.mem_cons_self) (List.perm_singleton.mp hids) (h.answers _ List.mem_cons_self)
  have hall := (ActionFuture.result_fresh hcell hinner
    (client.deliver fun n => before n ++ after n)).1.trans (congrArg (· >>= ActionFuture.outcome) hsingle)
  have hfirst' : (future.future.getResponse (client.deliver before)).1 = .error e := by
    have hresult := Outcome.error?_action.mp hfirst
    rw [(ActionFuture.result_fresh hcell hinner (client.deliver before)).1] at hresult
    cases hget : (future.future.getResponse (client.deliver before)).1 with
    | error e' =>
      rw [hget] at hresult
      cases hresult
      rfl
    | ok response =>
      rw [hget] at hresult
      rw [ActionFuture.outcome_error hresult] at he
      cases he
  obtain ⟨hnone, client', hget, hagain⟩ := hagain e he hfirst'
  have hresult := ActionFuture.result_timeout hcell hinner he hget
  have hfresh := (ActionFuture.result_fresh hcell hinner (client'.deliver after)).1
  simp only [result, hall] at hreturns
  simp only [resultAgain, result, hresult, hall, hfresh, hagain, hnone, true_and, Outcome.action.injEq]
  rw [apply_ite (· >>= ActionFuture.outcome)]
  exact ite_error_eq_iff fun e' he' => by simp [he', Outcome.error?] at hreturns

lemma Pending.resultAgain_eq_actions {future : ActionsFuture}
    (h : (Future.actions future).Pending client core clock before after answers)
    (hreturns : ((Future.actions future).result (client.deliver fun n => before n ++ after n)).1.error? = none)
    {e : Exc} (hfirst : ((Future.actions future).result (client.deliver before)).1.error? = some e)
    (he : e.isReceiveTimeout = true) :
    (Future.actions future).resultAgain client before after =
        ((Future.actions future).result (client.deliver fun n => before n ++ after n)).1 ↔
      before future.serviceName = [] ∧ client.hasProblem future.serviceName = false := by
  have hcell : future.cell = {} := h.unresolved
  have hout := h.outstanding _ List.mem_cons_self
  have hids := h.responses _ List.mem_cons_self
  simp only [requests, if_true] at hout hids
  obtain ⟨hsingle, hagain⟩ := ActionsFuture.getResponse_single_and_again hout
    (h.expects _ List.mem_cons_self) (List.perm_singleton.mp hids) (h.answers _ List.mem_cons_self)
  have hall := (ActionsFuture.result_fresh hcell
    (client.deliver fun n => before n ++ after n)).1.trans hsingle
  have hfirst' : (future.getResponse (client.deliver before)).1 = .error e := by
    rw [← (ActionsFuture.result_fresh hcell (client.deliver before)).1]
    exact Outcome.error?_actions.mp hfirst
  obtain ⟨hnone, client', hget, hagain⟩ := hagain e he hfirst'
  have hresult := ActionsFuture.result_timeout hcell he hget
  have hfresh := (ActionsFuture.result_fresh hcell (client'.deliver after)).1
  simp only [result, hall] at hreturns
  simp only [resultAgain, result, hresult, hall, hfresh, hagain, hnone, true_and, Outcome.actions.injEq]
  exact ite_error_eq_iff fun e' he' => by simp [he', Outcome.error?] at hreturns

theorem Pending.resultAgain_eq (h : future.Pending client core clock before after answers)
    (hreturns : (future.result (client.deliver fun n => before n ++ after n)).1.error? = none)
    {e : Exc} (hfirst : (future.result (client.deliver before)).1.error? = some e)
    (he : e.isReceiveTimeout = true) :
    future.resultAgain client before after =
        (future.result (client.deliver fun n => before n ++ after n)).1 ↔
      ∀ name, future.services.head? = some name → before name = [] ∧ client.hasProblem name = false := by
  cases future with
  | action future => simpa [services] using h.resultAgain_eq_action hreturns hfirst he
  | actions future => simpa [services] using h.resultAgain_eq_actions hreturns hfirst he
  | jobs future =>
    obtain ⟨hcell, hsent, hnonneg⟩ := h.unresolved
    have hpending : future.Pending client core clock before after answers :=
      ⟨hsent, h.catches, hnonneg h.catches, h.outstanding, h.expects, h.answers, h.responses⟩
    have hsingle := hpending.result_all hcell
    simp only [result, hsingle] at hreturns hfirst ⊢
    obtain ⟨results, hown⟩ : ∃ results, future.own answers = .ok results := by
      cases hown : future.own answers with
      | ok results => exact ⟨results, rfl⟩
      | error e => simp [hown, Outcome.error?] at hreturns
    obtain ⟨client', hresult, hiff⟩ := hpending.result_again hcell he
      (Outcome.error?_jobs.mp hfirst) hown
    simp only [resultAgain, result, hresult, hown, Outcome.jobs.injEq]
    exact hiff

/-- A first result that times out and a second one once all responses have arrived return what a
single result would have returned exactly if, at the time of the first one, no response of the first
service had arrived and the handler of this service had no transport problem. -/
theorem resultAgain_eq_iff {client client' : Client} {call : Call} {context : Option Context}
    (hclient : client.Counting)
    (hidle : ∀ n ∈ call.services, client.Outstanding n (core n) (clock n) [])
    (hcatch : call.catchesTransportErrors = false)
    (hcall : client.call call = (.ok future, context, client'))
    (hexpects : ∀ n ∈ call.services, client'.Expects n (before n ++ after n))
    (hanswers : ∀ n ∈ call.services, Answers answers n (before n ++ after n))
    (hresponses : ∀ n ∈ call.services,
      ((before n ++ after n).map Arrival.requestId).Perm (future.requests n))
    (hreturns : (future.result (client'.deliver fun n => before n ++ after n)).1.error? = none)
    {e : Exc} (hfirst : (future.result (client'.deliver before)).1.error? = some e)
    (he : e.isReceiveTimeout = true) :
    future.resultAgain client' before after =
        (future.result (client'.deliver fun n => before n ++ after n)).1 ↔
      ∀ name, call.services.head? = some name →
        before name = [] ∧ client'.hasProblem name = false := by
  obtain ⟨hunresolved, hservices, hcatches, -, hsent⟩ := Client.call_ok hclient hcall
  rw [← hservices] at hidle hexpects hanswers hresponses ⊢
  have hpending : future.Pending client' core clock before after answers :=
    ⟨hunresolved, hcatches.trans hcatch, fun n hn => hsent n (core n) (clock n) [] (hidle n hn), hexpects,
      hanswers, hresponses⟩
  exact hpending.resultAgain_eq hreturns hfirst he

lemma exists_of_call (client : Client) (call : Call) (check : Future → Client → Bool)
    (h : (match client.call call with
      | (.ok future, _, client') => check future client'
      | (.error _, _) => false) = true) :
    ∃ future context client', client.call call = (.ok future, context, client') ∧
      check future client' = true := by
  generalize client.call call = out at h ⊢
  obtain ⟨result, context, client'⟩ := out
  cases result with
  | error e => cases h
  | ok future => exact ⟨future, context, client', rfl, h⟩

/-- Two jobs for one service. -/
def exampleCall : Call :=
  .jobs [⟨"example", [{ action := .text "read" }]⟩, ⟨"example", [{ action := .text "read" }]⟩] true true
    false {}

/-- Whether a single result, or two results the first of which times out, return. -/
def returns (future : Future) (client : Client) (before after : List Arrival) : Bool × Bool × Bool :=
  ((future.result (client.deliver fun _ => before ++ after)).1.error?.isNone,
    (future.result (client.deliver fun _ => before)).1.error?.any Exc.isReceiveTimeout,
    (future.resultAgain client (fun _ => before) fun _ => after).error?.isNone)

/-- Both responses arrive after the first result. -/
theorem resultAgain_eq_both_later :
    ∃ future context client', exampleClient.call exampleCall = (.ok future, context, client') ∧
      future.resultAgain client' (fun _ => []) (fun _ => [exampleArrival 0, exampleArrival 1]) =
        (future.result (client'.deliver fun _ => [exampleArrival 0, exampleArrival 1])).1 := by
  obtain ⟨future, context, client', hcall, hcheck⟩ := exists_of_call exampleClient exampleCall
    (fun future client => future.requests "example" = [0, 1] ∧
      returns future client [] [exampleArrival 0, exampleArrival 1] = (true, true, true) ∧
      client.hasProblem "example" = false) (by decide +kernel)
  obtain ⟨hids, hreturns, hproblem⟩ := of_decide_eq_true hcheck
  simp only [returns, List.nil_append, Prod.mk.injEq, Option.isNone_iff_eq_none] at hreturns
  obtain ⟨e, hfirst, he⟩ := (Option.any_eq_true _ _).mp hreturns.2.1
  obtain ⟨-, -, -, -, hsent⟩ := Client.call_ok exampleClient_counting hcall
  have hout := hsent "example" _ _ _ (exampleClient_outstanding "example")
  have hanswers : ∀ n ∈ exampleCall.services, Answers (fun _ => exampleJobResponse) n
      ([] ++ [exampleArrival 0, exampleArrival 1]) := by
    simp [Answers, exampleArrival]
  refine ⟨future, context, client', hcall, (resultAgain_eq_iff exampleClient_counting
    (fun n _ => exampleClient_outstanding n) rfl hcall ?_ hanswers ?_ hreturns.1 hfirst he).mpr ?_⟩
  · simp only [exampleCall, Call.services, List.map_cons, List.map_nil, List.mem_cons, List.not_mem_nil,
      or_false, or_self, forall_eq]
    exact hout.expects (by simp [liveAt_exampleArrival])
  · simp only [exampleCall, Call.services, List.map_cons, List.map_nil, List.mem_cons, List.not_mem_nil,
      or_false, or_self, forall_eq, hids]
    decide
  · simp [exampleCall, Call.services, hproblem]

/-- The response that the first result received is not there for the second one. -/
theorem resultAgain_ne_one_earlier :
    ∃ future context client', exampleClient.call exampleCall = (.ok future, context, client') ∧
      future.requests "example" = [0, 1] ∧
      (∃ e, (future.result (client'.deliver fun _ => [exampleArrival 0])).1.error? = some e ∧
        e.isReceiveTimeout = true) ∧
      future.resultAgain client' (fun _ => [exampleArrival 0]) (fun _ => [exampleArrival 1]) ≠
        (future.result (client'.deliver fun _ => [exampleArrival 0, exampleArrival 1])).1 := by
  obtain ⟨future, context, client', hcall, hcheck⟩ := exists_of_call exampleClient exampleCall
    (fun future client => future.requests "example" = [0, 1] ∧
      returns future client [exampleArrival 0] [exampleArrival 1] = (true, true, false))
    (by decide +kernel)
  obtain ⟨hids, hreturns⟩ := of_decide_eq_true hcheck
  simp only [returns, List.singleton_append, Prod.mk.injEq] at hreturns
  refine ⟨future, context, client', hcall, hids, (Option.any_eq_true _ _).mp hreturns.2.1, fun heq => ?_⟩
  rw [heq, hreturns.1] at hreturns
  cases hreturns.2.2

end Future
end PySOA
