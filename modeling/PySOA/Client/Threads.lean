import Mathlib.Algebra.Order.BigOperators.Group.Finset
import PySOA.Client.Resolving
import PySOA.RedisGateway.Accounting

/-! The loop over all responses of one thread, while other threads use the same transport. -/
namespace PySOA
open RedisTransportCore

/-- The frames of a live response are taken in one piece. -/
lemma Arrival.LiveAt.whole {core : RedisTransportCore} {now : ℚ} {a : Arrival}
    (h : a.LiveAt core now) : core.Whole a.frames := by
  obtain ⟨r, -, -, htaken, -⟩ := h
  exact ⟨.ok r, htaken⟩

namespace Ledger
variable {τ : Type*} [DecidableEq τ] (threadId : τ → String)

/-- The handler as one thread meets it: the transport is shared, the reply queue is its own. -/
def handlerOf (handler : ServiceHandler) (s : Ledger τ) (thread : τ) : ServiceHandler :=
  { handler with threadId := threadId thread, transport := s.transport, io := s.io thread }

/-- `get_all_responses` of one thread: how the loop ends, and what it yields. Each list holds what
the other threads do before the next receive; the loop has not ended when there is no list left. -/
def getAllResponsesAmong (handler : ServiceHandler) (thread : τ) :
    Ledger τ → List (List (ClientOp τ)) → Option (Except Exc Unit) × List (Value × JobResponse)
  | _, [] => (none, [])
  | s, ops :: meanwhile =>
    let s := Runs.run (step threadId) s ops
    match (handlerOf threadId handler s thread).baseGetResponse.1 with
    | .error e => (some (.error e), [])
    | .ok none => (some (.ok ()), [])
    | .ok (some (requestId, response)) =>
      if requestId.isNone then (some (.ok ()), [])
      else
        let out := getAllResponsesAmong handler thread (s.step threadId (.receive thread)) meanwhile
        (out.1, (requestId, response) :: out.2)

/-- The states in which the loop receives, as long as it has not ended. -/
def receiveStates (thread : τ) : Ledger τ → List (List (ClientOp τ)) → List (Ledger τ)
  | _, [] => []
  | s, ops :: meanwhile =>
    let s := Runs.run (step threadId) s ops
    s :: receiveStates thread (s.step threadId (.receive thread)) meanwhile

/-- The responses that a thread still has to come are the given ones: they are all in its reply
queue and live, and its connection works. -/
structure Delivered (s : Ledger τ) (thread : τ) (arrivals : List Arrival) : Prop where
  owed : s.owed thread = arrivals.length
  connections : (s.io thread).connections = []
  pops : (s.io thread).pops = Arrival.pops arrivals
  live : Arrival.AllLive s.transport.core (s.io thread).clock (s.io thread).ticks arrivals

variable {threadId}

variable (threadId) in
/-- The receive of the handler is the receive of its thread. -/
lemma handlerOf_step_receive (handler : ServiceHandler) (s : Ledger τ) (thread : τ) :
    (handlerOf threadId handler s thread).baseGetResponse.2 =
      handlerOf threadId handler (s.step threadId (.receive thread)) thread := by
  have hio : (s.step threadId (.receive thread)).io thread =
      (s.transport.receiveResponseMessage (s.io thread)).2.2 := by simp [step, received]
  have htransport : (s.step threadId (.receive thread)).transport =
      (s.transport.receiveResponseMessage (s.io thread)).2.1 := rfl
  rw [handlerOf, handlerOf, hio, htransport, ServiceHandler.baseGetResponse]
  dsimp only
  split
  · rfl
  · split
    · rfl
    · split <;> rfl

/-- What another thread does leaves the responses of a thread alone. -/
lemma Delivered.step_other {s : Ledger τ} {thread : τ} {arrivals : List Arrival}
    (h : s.Delivered thread arrivals) {op : ClientOp τ} (hop : op.thread ≠ thread) :
    (s.step threadId op).Delivered thread arrivals := by
  have hcore : (s.step threadId op).transport.core = s.transport.core := core_step s op
  have hio : (s.step threadId op).io thread = s.io thread := io_step_of_ne s hop
  have howed : (s.step threadId op).owed thread = s.owed thread := owed_step_of_ne s hop
  obtain ⟨h₁, h₂, h₃, h₄⟩ := h
  exact ⟨howed.trans h₁, hio ▸ h₂, hio ▸ h₃, by rwa [hcore, hio]⟩

variable (threadId) in
lemma Delivered.run_others {s : Ledger τ} {thread : τ} {arrivals : List Arrival}
    (h : s.Delivered thread arrivals) {ops : List (ClientOp τ)} (hops : ∀ op ∈ ops, op.thread ≠ thread) :
    (Runs.run (step threadId) s ops).Delivered thread arrivals := by
  induction ops generalizing s with
  | nil => exact h
  | cons op ops ih =>
    rw [List.forall_mem_cons] at hops
    exact ih (h.step_other hops.1) hops.2

variable (threadId) in
omit [DecidableEq τ] in
/-- The handler of a thread whose responses are delivered waits for as many as the shared count
says. -/
lemma Delivered.awaits {s : Ledger τ} {thread : τ} {arrivals : List Arrival}
    (h : s.Delivered thread arrivals) (handler : ServiceHandler) :
    Awaits (handlerOf threadId handler s thread) s.transport.core s.transport.requestsOutstanding
      arrivals [] :=
  ⟨rfl, rfl, h.connections, h.pops, by simpa [handlerOf] using h.live⟩

variable (threadId) in
/-- The first response of a thread is received. -/
lemma Delivered.receive {s : Ledger τ} {thread : τ} {a : Arrival} {arrivals : List Arrival}
    (h : s.Delivered thread (a :: arrivals)) (hpos : 0 < s.transport.requestsOutstanding)
    (handler : ServiceHandler) :
    (handlerOf threadId handler s thread).baseGetResponse.1 =
        .ok (some (.int a.requestId, a.response)) ∧
      (s.step threadId (.receive thread)).Delivered thread arrivals := by
  obtain ⟨k, hk⟩ : ∃ k, s.transport.requestsOutstanding = k+1 := ⟨_, (Nat.succ_pred_eq_of_pos hpos).symm⟩
  have hawaits := h.awaits threadId handler
  rw [hk] at hawaits
  obtain ⟨handler', hget, hafter, -⟩ := hawaits.get_arrival
  have hstep := handlerOf_step_receive threadId handler s thread
  rw [hget] at hstep ⊢
  refine ⟨rfl, ?_⟩
  subst hstep
  have hframes := (Arrival.allLive_cons.mp h.live).1.whole.ne_nil
  have hio : (s.step threadId (.receive thread)).io thread = (s.received thread).2.2 := by simp [step]
  have hpops : (s.received thread).2.2.pops = Arrival.pops arrivals := hio ▸ hafter.pops
  obtain ⟨-, howed⟩ := owed_step_receive threadId hpops
  have hshorter : (Arrival.pops arrivals).length < (s.io thread).pops.length := by
    have := List.length_pos_iff.mpr hframes
    rw [h.pops, Arrival.pops_cons, List.length_append, List.length_map]
    omega
  rw [if_pos hshorter, h.owed] at howed
  refine ⟨?_, hafter.connections, hafter.pops, ?_⟩
  · simpa using howed
  · have hlive := hafter.live
    rw [List.append_nil] at hlive
    rw [core_step]
    exact hlive

/-- When all responses of a thread are delivered, the loop of the thread yields exactly these and ends
after them, whatever the other threads do, exactly when each of its receives finds the shared count
positive if and only if the thread has a response to come. -/
theorem getAllResponsesAmong_eq_iff (handler : ServiceHandler) {s : Ledger τ} {thread : τ}
    {arrivals : List Arrival} (h : s.Delivered thread arrivals) {meanwhile : List (List (ClientOp τ))}
    (hothers : ∀ ops ∈ meanwhile, ∀ op ∈ ops, op.thread ≠ thread)
    (hlength : meanwhile.length = arrivals.length+1) :
    getAllResponsesAmong threadId handler thread s meanwhile =
        (some (.ok ()), arrivals.map fun a => (.int a.requestId, a.response)) ↔
      ∀ s' ∈ receiveStates threadId thread s meanwhile,
        0 < s'.transport.requestsOutstanding ↔ 0 < s'.owed thread := by
  induction arrivals generalizing s meanwhile with
  | nil =>
    obtain ⟨ops, rfl⟩ := List.length_eq_one_iff.mp hlength
    have hrun := h.run_others threadId (hothers ops List.mem_cons_self)
    have howed := hrun.owed
    have hawaits := hrun.awaits threadId handler
    simp only [getAllResponsesAmong, receiveStates, List.map_nil, List.mem_singleton, forall_eq]
    generalize Runs.run (step threadId) s ops = s at *
    rw [howed]
    cases hcount : s.transport.requestsOutstanding with
    | zero =>
      rw [hcount] at hawaits
      obtain ⟨handler', hget, -⟩ := hawaits.get_none
      simp [hget]
    | succ k =>
      rw [hcount] at hawaits
      obtain ⟨handler', hget, -⟩ := hawaits.get_timeout
      simp [hget]
  | cons a arrivals ih =>
    obtain ⟨ops, meanwhile, rfl⟩ := List.exists_cons_of_length_eq_add_one hlength
    rw [List.forall_mem_cons] at hothers
    have hrun := h.run_others threadId hothers.1
    have howed := hrun.owed
    simp only [getAllResponsesAmong, receiveStates, List.map_cons, List.forall_mem_cons]
    generalize Runs.run (step threadId) s ops = s at *
    rw [howed]
    rcases Nat.eq_zero_or_pos s.transport.requestsOutstanding with hzero | hpos
    · have hawaits := hrun.awaits threadId handler
      rw [hzero] at hawaits
      obtain ⟨handler', hget, -⟩ := hawaits.get_none
      simp only [hget, hzero, List.length_cons]
      constructor
      · intro heq
        simp at heq
      · rintro ⟨hfirst, -⟩
        exact absurd (hfirst.mpr (by omega)) (lt_irrefl 0)
    · obtain ⟨hget, hafter⟩ := hrun.receive threadId hpos handler
      have hrest := ih hafter hothers.2 (by simpa using hlength)
      rw [← hrest]
      simp [hget, Value.isNone, hpos, Prod.ext_iff]

/-- Two threads have sent a request each, and both responses have arrived. -/
def exampleHistory : List (ClientOp Bool) :=
  [.send true (.int 0) {} (exampleRequest false) none, .send false (.int 1) {} (exampleRequest false) none,
    .deliver true (exampleArrival 0).frames, .deliver false (exampleArrival 1).frames]

def exampleLedger : Ledger Bool :=
  Runs.run (step fun t => if t then "1" else "2") (fresh (exampleHandler "example").transport fun _ => {})
    exampleHistory

lemma delivered_exampleLedger : exampleLedger.Delivered true [exampleArrival 0] := by
  have hpops : (exampleLedger.io true).pops = Arrival.pops [exampleArrival 0] := by
    simp [exampleLedger, exampleHistory, step, sent, fresh]
  have hclock : (exampleLedger.io true).clock = fun _ => 0 := clock_run ..
  refine ⟨by decide +kernel, by decide +kernel, hpops, ?_⟩
  have hcore : exampleLedger.transport.core = exampleCore "example" := core_run ..
  rw [hcore, hclock]
  rintro i a ha
  cases i with
  | zero =>
    cases ha
    exact liveAt_exampleArrival (Or.inl rfl) "example"
  | succ i => cases ha

/-- The other thread receives its response before the loop would wait for it. -/
theorem getAllResponsesAmong_exampleLedger :
    getAllResponsesAmong (fun t => if t then "1" else "2") (exampleHandler "example") true exampleLedger
        [[], [.receive false]] =
      (some (.ok ()), [exampleArrival 0].map fun a => (.int a.requestId, a.response)) := by
  refine (getAllResponsesAmong_eq_iff (exampleHandler "example") delivered_exampleLedger
    (by decide +kernel) rfl).mpr ?_
  decide +kernel

/-- The thread that has received its only response goes on waiting, since the other thread has not
received its own. -/
theorem getAllResponsesAmong_ne_waiting :
    exampleLedger.Delivered true [exampleArrival 0] ∧
      getAllResponsesAmong (fun t => if t then "1" else "2") (exampleHandler "example") true exampleLedger
          [[], []] ≠
        (some (.ok ()), [exampleArrival 0].map fun a => (.int a.requestId, a.response)) := by
  refine ⟨delivered_exampleLedger, fun heq => ?_⟩
  have hends : (getAllResponsesAmong (fun t => if t then "1" else "2") (exampleHandler "example") true
      exampleLedger [[], []]).1.any Except.isOk = false := by decide +kernel
  rw [heq] at hends
  cases hends

/-- The states in which the loop receives are states of the run of all threads. -/
lemma exists_run_of_mem_receiveStates {thread : τ} {s s' : Ledger τ}
    {meanwhile : List (List (ClientOp τ))} (h : s' ∈ receiveStates threadId thread s meanwhile) :
    ∃ ops rest, meanwhile.flatMap (fun ops => ops ++ [.receive thread]) = ops ++ rest ∧
      Runs.run (step threadId) s ops = s' := by
  induction meanwhile generalizing s with
  | nil => cases h
  | cons ops meanwhile ih =>
    rcases List.mem_cons.mp h with rfl | h
    · exact ⟨ops, _, by rw [List.flatMap_cons, List.append_assoc], rfl⟩
    · obtain ⟨ops', rest, hsplit, hrun⟩ := ih h
      refine ⟨ops ++ [.receive thread] ++ ops', rest, ?_, ?_⟩
      · rw [List.flatMap_cons, hsplit, List.append_assoc, List.append_assoc, List.append_assoc]
      · rw [Runs.run_append, Runs.run_append]
        exact hrun

/-- In a run of a new client in which no step leaks and no thread takes more than it has asked for, the
loop is undisturbed exactly when no other thread has a response to come when the thread itself
has none left. -/
theorem getAllResponsesAmong_eq_iff_of_leakFree [Fintype τ] (handler : ServiceHandler)
    (transport : RedisClientTransport) (io : τ → RedisIo) {history : List (ClientOp τ)} {thread : τ}
    {arrivals : List Arrival} {meanwhile : List (List (ClientOp τ))}
    (h : (Runs.run (step threadId) (fresh transport io) history).Delivered thread arrivals)
    (hothers : ∀ ops ∈ meanwhile, ∀ op ∈ ops, op.thread ≠ thread)
    (hlength : meanwhile.length = arrivals.length+1)
    (hrun : Runs.Along (step threadId)
      (fun s op => s.Quiet threadId op ∧ s.LeakFree threadId op) (fresh transport io)
      (history ++ meanwhile.flatMap fun ops => ops ++ [.receive thread]))
    (hasked : ∀ s' ∈ receiveStates threadId thread
      (Runs.run (step threadId) (fresh transport io) history) meanwhile, ∀ u, s'.taken u ≤ s'.asked u) :
    getAllResponsesAmong threadId handler thread
        (Runs.run (step threadId) (fresh transport io) history) meanwhile =
        (some (.ok ()), arrivals.map fun a => (.int a.requestId, a.response)) ↔
      ∀ s' ∈ receiveStates threadId thread
        (Runs.run (step threadId) (fresh transport io) history) meanwhile,
        s'.owed thread = 0 → ∀ u, s'.owed u = 0 := by
  rw [getAllResponsesAmong_eq_iff handler h hothers hlength]
  refine forall₂_congr fun s' hs' => ?_
  have hnonneg : ∀ u, 0 ≤ s'.owed u := fun u => by
    have := hasked s' hs' u
    unfold owed
    omega
  have hbalanced : s'.Balanced := by
    obtain ⟨ops, rest, hsplit, rfl⟩ := exists_run_of_mem_receiveStates hs'
    rw [hsplit, ← List.append_assoc, Runs.along_append] at hrun
    have hexcess := excess_run transport io (hrun.1.imp fun _ _ h => h.1)
    rw [(Runs.tally_eq_zero_iff _ _ _).mpr (hrun.1.imp fun _ _ h => leak_eq_zero_iff.mpr h.2)]
      at hexcess
    rw [← Runs.run_append]
    exact balanced_iff_excess_eq_zero.mpr hexcess
  have hself : s'.owed thread ≤ ∑ u, s'.owed u :=
    Finset.single_le_sum (fun u _ => hnonneg u) (Finset.mem_univ thread)
  have hnone : ∑ u, s'.owed u = 0 ↔ ∀ u, s'.owed u = 0 := by
    rw [Finset.sum_eq_zero_iff_of_nonneg fun u _ => hnonneg u]
    simp
  have := hnonneg thread
  unfold Balanced at hbalanced
  rw [← hnone]
  omega

end Ledger
end PySOA
