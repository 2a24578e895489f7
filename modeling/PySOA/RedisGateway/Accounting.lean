import Mathlib.Algebra.BigOperators.Group.Finset.Basic
import Mathlib.Algebra.BigOperators.Ring.Finset
import Mathlib.Data.Fintype.Basic
import PySOA.Lib.Runs
import PySOA.RedisGateway.Client

/-! What the count of outstanding requests says about the responses that are still to come. -/
namespace PySOA
open RedisTransportCore

/-- Whether a server sends no response to this request. -/
def suppressesResponse (body : Value) : Bool :=
  match body with
  | .dict jobRequest =>
    match (Dict.get? jobRequest "control").getD (.dict []) with
    | .dict control => ((Dict.get? control "suppress_response").getD (.bool false)).truthy
    | _ => false
  | _ => false

/-- A client transport and the threads that use it, each with its own reply queue. The two counts
say how many responses the servers have been asked for on behalf of a thread, and how many the
thread has taken off its queue. -/
structure Ledger (τ : Type*) where
  transport : RedisClientTransport
  io : τ → RedisIo
  asked : τ → ℕ
  taken : τ → ℕ

/-- A thread sends a request, the frames of a response reach its reply queue, or it receives. -/
inductive ClientOp (τ : Type*)
  | send (thread : τ) (requestId : Value) (metaDict : Meta) (body : Value) (expiry : Option ℤ)
  | deliver (thread : τ) (frames : List Bytes)
  | receive (thread : τ)

/-- The thread that sends or receives, or that the response is for. -/
@[simp] def ClientOp.thread {τ : Type*} : ClientOp τ → τ
  | .send thread .. => thread
  | .deliver thread _ => thread
  | .receive thread => thread

namespace Ledger
variable {τ : Type*}

/-- The number of responses that are still to come for a thread. -/
def owed (s : Ledger τ) (thread : τ) : ℤ := s.asked thread - s.taken thread

section transitions
variable [DecidableEq τ] (threadId : τ → String)

/-- The call of `send_request_message`. -/
def sent (s : Ledger τ) (thread : τ) (requestId : Value) (metaDict : Meta) (body : Value)
    (expiry : Option ℤ) : Except Exc Unit × RedisClientTransport × RedisIo :=
  s.transport.sendRequestMessage (threadId thread) requestId metaDict body expiry (s.io thread)

/-- The call of `receive_response_message`. -/
def received (s : Ledger τ) (thread : τ) : Except Exc ReceivedMessage × RedisClientTransport × RedisIo :=
  s.transport.receiveResponseMessage (s.io thread)

def step (s : Ledger τ) : ClientOp τ → Ledger τ
  | .send thread requestId metaDict body expiry =>
    let out := s.sent threadId thread requestId metaDict body expiry
    let asks := if out.1.isOk && !suppressesResponse body then 1 else 0
    { s with
      transport := out.2.1
      io := Function.update s.io thread out.2.2
      asked := Function.update s.asked thread (s.asked thread + asks) }
  | .deliver thread frames =>
    let io := { s.io thread with pops := (s.io thread).pops ++ frames.map .message }
    { s with io := Function.update s.io thread io }
  | .receive thread =>
    let out := s.received thread
    let takes := if out.2.2.pops.length < (s.io thread).pops.length then 1 else 0
    { s with
      transport := out.2.1
      io := Function.update s.io thread out.2.2
      taken := Function.update s.taken thread (s.taken thread + takes) }

end transitions

section balance
variable [Fintype τ]

/-- The count of outstanding requests is the number of responses that are still to come. -/
def Balanced (s : Ledger τ) : Prop := (s.transport.requestsOutstanding : ℤ) = ∑ t, s.owed t

/-- What the count is too high by. -/
def excess (s : Ledger τ) : ℤ := s.transport.requestsOutstanding - ∑ t, s.owed t

end balance

section conditions
variable (threadId : τ → String)

/-- No step meets a transient transport error other than a timeout of a receive, and the frames of
a response are not torn apart. -/
def Quiet (s : Ledger τ) : ClientOp τ → Prop
  | .send thread requestId metaDict body expiry => ∀ e,
      (s.sent threadId thread requestId metaDict body expiry).1 = .error e → e.isTransient = false
  | .deliver _ frames => s.transport.core.Whole frames
  | .receive thread => ∀ e, (s.received thread).1 = .error e →
      e.isTransient = false ∨ e.isReceiveTimeout = true

/-- A request that is sent asks for a response, and what is taken off a queue is live. -/
def LeakFree (s : Ledger τ) : ClientOp τ → Prop
  | .send thread requestId metaDict body expiry => suppressesResponse body = true →
      ∃ e, (s.sent threadId thread requestId metaDict body expiry).1 = .error e
  | .deliver _ _ => True
  | .receive thread => 0 < s.transport.requestsOutstanding → (s.io thread).pops ≠ [] →
      s.transport.core.Live (s.io thread).pops (s.io thread).now

open scoped Classical in
/-- What a step adds to the excess. -/
noncomputable def leak (s : Ledger τ) (op : ClientOp τ) : ℕ := if s.LeakFree threadId op then 0 else 1

/-- The reply queues hold whole responses, and no transport problem is remembered. -/
structure Calm (s : Ledger τ) : Prop where
  no_problem : s.transport.previousErrorWasTransportProblem = false
  whole : ∀ t, ∃ responses : List (List Bytes), (s.io t).pops = responses.flatten.map .message ∧
    ∀ frames ∈ responses, s.transport.core.Whole frames

end conditions

variable {threadId : τ → String}

lemma leak_eq_zero_iff {s : Ledger τ} {op : ClientOp τ} :
    s.leak threadId op = 0 ↔ s.LeakFree threadId op := by
  unfold leak
  split <;> simp_all

variable [DecidableEq τ]

lemma sum_eq_add [Fintype τ] {f f' : τ → ℤ} {t : τ} {d : ℤ} (hother : ∀ u, u ≠ t → f' u = f u)
    (hself : f' t = f t + d) : ∑ u, f' u = ∑ u, f u + d := by
  rw [← Finset.add_sum_erase _ f' (Finset.mem_univ t), ← Finset.add_sum_erase _ f (Finset.mem_univ t),
    hself, Finset.sum_congr rfl fun u hu => hother u (Finset.ne_of_mem_erase hu)]
  ring

/-- A step changes neither the core of the transport nor the clocks. -/
lemma core_step (s : Ledger τ) (op : ClientOp τ) :
    (s.step threadId op).transport.core = s.transport.core := by
  cases op with
  | send => exact RedisClientTransport.core_sendRequestMessage ..
  | deliver => rfl
  | receive => exact RedisClientTransport.core_receiveResponseMessage ..

lemma clock_step (s : Ledger τ) (op : ClientOp τ) (t : τ) :
    ((s.step threadId op).io t).clock = (s.io t).clock := by
  cases op with
  | send u =>
    by_cases htu : t = u
    · subst htu
      simp [step, sent]
    · simp [step, htu]
  | deliver u =>
    by_cases htu : t = u
    · subst htu
      simp [step]
    · simp [step, htu]
  | receive u =>
    by_cases htu : t = u
    · subst htu
      simp [step, received]
    · simp [step, htu]

/-- A step concerns no thread but its own. -/
lemma io_step_of_ne (s : Ledger τ) {op : ClientOp τ} {t : τ} (hop : op.thread ≠ t) :
    (s.step threadId op).io t = s.io t := by
  cases op <;> exact Function.update_of_ne hop.symm _ _

lemma owed_step_of_ne (s : Ledger τ) {op : ClientOp τ} {t : τ} (hop : op.thread ≠ t) :
    (s.step threadId op).owed t = s.owed t := by
  cases op with
  | send u =>
    have hne : t ≠ u := hop.symm
    simp [step, owed, hne]
  | deliver u => rfl
  | receive u =>
    have hne : t ≠ u := hop.symm
    simp [step, owed, hne]

lemma core_run (s : Ledger τ) (ops : List (ClientOp τ)) :
    (Runs.run (step threadId) s ops).transport.core = s.transport.core := by
  induction ops generalizing s with
  | nil => rfl
  | cons op ops ih => exact (ih _).trans (core_step s op)

lemma clock_run (s : Ledger τ) (ops : List (ClientOp τ)) (t : τ) :
    ((Runs.run (step threadId) s ops).io t).clock = (s.io t).clock := by
  induction ops generalizing s with
  | nil => rfl
  | cons op ops ih => exact (ih _).trans (clock_step s op t)

omit [DecidableEq τ] in
lemma balanced_iff_excess_eq_zero [Fintype τ] {s : Ledger τ} : s.Balanced ↔ s.excess = 0 := by
  unfold Balanced excess
  omega

/-- A step on behalf of one thread that changes the count and what the thread is owed by the given
amounts, and concerns no other thread. -/
structure Moves (s s' : Ledger τ) (t : τ) (a d : ℤ) : Prop where
  core : s'.transport.core = s.transport.core
  no_problem : s'.transport.previousErrorWasTransportProblem = false
  count : (s'.transport.requestsOutstanding : ℤ) = s.transport.requestsOutstanding + a
  io_other : ∀ u, u ≠ t → s'.io u = s.io u
  owed_other : ∀ u, u ≠ t → s'.owed u = s.owed u
  owed_self : s'.owed t = s.owed t + d
  whole : ∃ responses : List (List Bytes), (s'.io t).pops = responses.flatten.map .message ∧
    ∀ frames ∈ responses, s.transport.core.Whole frames

omit [DecidableEq τ] in
lemma Moves.calm {s s' : Ledger τ} {t : τ} {a d : ℤ} (h : Moves s s' t a d) (hs : s.Calm) : s'.Calm := by
  refine ⟨h.no_problem, fun u => ?_⟩
  rw [h.core]
  by_cases hu : u = t
  · subst hu
    exact h.whole
  · rw [h.io_other u hu]
    exact hs.whole u

lemma Moves.excess_eq [Fintype τ] {s s' : Ledger τ} {t : τ} {a d : ℤ} (h : Moves s s' t a d) :
    s'.excess = s.excess + (a-d) := by
  rw [excess, excess, h.count, sum_eq_add h.owed_other h.owed_self]
  ring

/-- What a step has to do to its own thread's books in order to move them. -/
lemma moves_step {s : Ledger τ} {op : ClientOp τ} {a d : ℤ}
    (hproblem : (s.step threadId op).transport.previousErrorWasTransportProblem = false)
    (hcount : ((s.step threadId op).transport.requestsOutstanding : ℤ) =
      s.transport.requestsOutstanding + a)
    (hself : (s.step threadId op).owed op.thread = s.owed op.thread + d)
    (hwhole : ∃ responses : List (List Bytes),
      ((s.step threadId op).io op.thread).pops = responses.flatten.map .message ∧
      ∀ frames ∈ responses, s.transport.core.Whole frames) :
    Moves s (s.step threadId op) op.thread a d :=
  ⟨core_step s op, hproblem, hcount, fun _ hu => io_step_of_ne s hu.symm,
    fun _ hu => owed_step_of_ne s hu.symm, hself, hwhole⟩

/-- A request that is sent raises the count by one, and what the thread is owed if it asks for a
response; a request that is not sent changes nothing. -/
lemma moves_send {s : Ledger τ} (hs : s.Calm) {t : τ} {requestId : Value} {metaDict : Meta}
    {body : Value} {expiry : Option ℤ}
    (hquiet : s.Quiet threadId (.send t requestId metaDict body expiry)) :
    ∃ a d : ℤ, Moves s (s.step threadId (.send t requestId metaDict body expiry)) t a d ∧
      a-d = s.leak threadId (.send t requestId metaDict body expiry) := by
  obtain ⟨⟨hpops, -⟩, ⟨hok, ht⟩ | ⟨e, he, ht⟩⟩ :=
    s.transport.sendRequestMessage_cases (threadId t) requestId metaDict body expiry (s.io t)
  · refine ⟨1, if suppressesResponse body then 0 else 1, moves_step ?_ ?_ ?_ ?_, ?_⟩
    · simpa [step, sent, ht] using hs.no_problem
    · simp [step, sent, ht]
    · cases hsup : suppressesResponse body
      · simp [step, owed, sent, hok, hsup, Except.isOk, Except.toBool]
        ring
      · simp [step, owed, sent, hsup, Except.isOk, Except.toBool]
    · simpa [step, sent, hpops] using hs.whole t
    · cases hsup : suppressesResponse body <;> simp [leak, LeakFree, sent, hok, hsup]
  · have htransient := hquiet e he
    rw [htransient] at ht
    refine ⟨0, 0, moves_step ?_ ?_ ?_ ?_, ?_⟩
    · simpa [step, sent, ht] using hs.no_problem
    · simp [step, sent, ht]
    · simp [step, owed, sent, he, Except.isOk, Except.toBool]
    · simpa [step, sent, hpops] using hs.whole t
    · simp [leak, LeakFree, sent, he]

lemma moves_deliver {s : Ledger τ} (hs : s.Calm) {t : τ} {frames : List Bytes}
    (hframes : s.transport.core.Whole frames) :
    Moves s (s.step threadId (.deliver t frames)) t 0 0 := by
  obtain ⟨responses, hpops, hwhole⟩ := hs.whole t
  refine moves_step hs.no_problem (by simp [step]) (by simp [step, owed])
    ⟨responses ++ [frames], by simp [step, hpops], fun r hr => ?_⟩
  obtain hr | hr := List.mem_append.mp hr
  · exact hwhole r hr
  · rw [List.mem_singleton.mp hr]
    exact hframes

lemma live_nil_iff {core : RedisTransportCore} {now : ℚ} : ¬ core.Live [] now := by
  rintro ⟨r, rest, _, _, hr, -⟩
  cases hr

/-- A receive while a response is outstanding takes what `receiveFrames` takes, and lowers the count
if the response is live. -/
lemma step_receive_of_pos {s : Ledger τ} (hs : s.Calm) {t : τ} (hquiet : s.Quiet threadId (.receive t))
    (hpos : 0 < s.transport.requestsOutstanding) :
    (s.received t).2.2.pops = (s.transport.core.receiveFrames (s.io t).pops).2 ∧
      (s.step threadId (.receive t)).transport.previousErrorWasTransportProblem = false ∧
      (s.transport.core.Live (s.io t).pops (s.io t).now ∧
          (s.step threadId (.receive t)).transport.requestsOutstanding+1 =
            s.transport.requestsOutstanding ∨
        ¬ s.transport.core.Live (s.io t).pops (s.io t).now ∧
          (s.step threadId (.receive t)).transport.requestsOutstanding =
            s.transport.requestsOutstanding) := by
  obtain ⟨hresult, hio, htransport⟩ :=
    RedisClientTransport.receiveResponseMessage_of_pos hpos hs.no_problem hquiet
  obtain ⟨e, he, htransient, htimeout⟩ | ⟨hpops, hlive⟩ :=
    s.transport.core.receiveMessage_cases (s.io t)
  · obtain h | h := hquiet e (hresult.trans he)
    · rw [htransient] at h
      cases h
    · rw [htimeout] at h
      cases h
  refine ⟨(congrArg RedisIo.pops hio).trans hpops, ?_, ?_⟩
  · simp only [step, received, htransport]
    split <;> exact hs.no_problem
  · rw [← hlive]
    simp only [step, received, htransport]
    cases (s.transport.core.receiveMessage (s.io t)).1 with
    | ok m => exact Or.inl ⟨⟨m, rfl⟩, Nat.sub_add_cancel hpos⟩
    | error e => exact Or.inr ⟨by simp, rfl⟩

variable (threadId) in
/-- What a receive does to the thread's own queue and books. -/
lemma owed_step_receive {s : Ledger τ} {t : τ} {rest : List Blpop} (hrest : (s.received t).2.2.pops = rest) :
    ((s.step threadId (.receive t)).io t).pops = rest ∧
      (s.step threadId (.receive t)).owed t =
        s.owed t + if rest.length < (s.io t).pops.length then -1 else 0 := by
  subst hrest
  refine ⟨by simp [step], ?_⟩
  simp only [step, owed, Function.update_self]
  split_ifs
  · push_cast
    ring
  · simp

/-- A response that is taken lowers what the thread is owed, and the count if it is live. -/
lemma moves_receive {s : Ledger τ} (hs : s.Calm) {t : τ} (hquiet : s.Quiet threadId (.receive t)) :
    ∃ a d : ℤ, Moves s (s.step threadId (.receive t)) t a d ∧
      a-d = s.leak threadId (.receive t) := by
  obtain ⟨responses, hqueue, hwhole⟩ := hs.whole t
  obtain hzero | hpos := Nat.eq_zero_or_pos s.transport.requestsOutstanding
  · have hnone : s.received t = (.ok .empty,
        { s.transport with previousErrorWasTransportProblem := false }, s.io t) := by
      simp [received, RedisClientTransport.receiveResponseMessage, hzero]
    obtain ⟨hself, howed⟩ := owed_step_receive threadId (congrArg (fun out => out.2.2.pops) hnone)
    refine ⟨0, 0, moves_step (by simp [step, hnone]) (by simp [step, hnone]) ?_
      ⟨responses, hself.trans hqueue, hwhole⟩, by simp [leak, LeakFree, hzero]⟩
    simpa using howed
  · obtain ⟨hpops, hproblem, hcount⟩ := step_receive_of_pos hs hquiet hpos
    obtain ⟨hself, howed⟩ := owed_step_receive threadId hpops
    cases responses with
    | nil =>
      have hempty : (s.io t).pops = [] := by simpa using hqueue
      rw [hempty] at hself howed hcount
      obtain ⟨hlive, -⟩ | ⟨-, hcount⟩ := hcount
      · exact absurd hlive live_nil_iff
      · refine ⟨0, 0, moves_step hproblem (by simp [hcount]) (by simpa using howed)
          ⟨[], hself, hwhole⟩, by simp [leak, LeakFree, hempty]⟩
    | cons frames responses =>
      obtain ⟨result, hresult⟩ := hwhole frames List.mem_cons_self
      have hne : frames ≠ [] := (hwhole frames List.mem_cons_self).ne_nil
      rw [List.flatten_cons, List.map_append] at hqueue
      rw [hqueue, hresult] at hself howed
      have hshorter : (responses.flatten.map Blpop.message).length <
          (frames.map Blpop.message ++ responses.flatten.map Blpop.message).length := by
        have := List.length_pos_iff.mpr hne
        simp only [List.length_append, List.length_map]
        omega
      rw [if_pos hshorter] at howed
      have hwhole' : ∃ rest : List (List Bytes),
          ((s.step threadId (.receive t)).io t).pops = rest.flatten.map .message ∧
          ∀ r ∈ rest, s.transport.core.Whole r :=
        ⟨responses, hself, fun r hr => hwhole r (List.mem_cons_of_mem frames hr)⟩
      have hqueue' : (s.io t).pops ≠ [] := by
        rw [hqueue]
        exact List.ne_nil_of_length_pos (Nat.zero_lt_of_lt hshorter)
      obtain ⟨hlive, hcount⟩ | ⟨hdead, hcount⟩ := hcount
      · refine ⟨-1, -1, moves_step hproblem (by omega) howed hwhole', ?_⟩
        simp [leak, LeakFree, hlive]
      · refine ⟨0, -1, moves_step hproblem (by omega) howed hwhole', ?_⟩
        simp [leak, LeakFree, hdead, hpos, hqueue']

/-- A step keeps the queues in order and raises the excess by what it leaks. -/
theorem step_excess [Fintype τ] (s : Ledger τ) (op : ClientOp τ) (hquiet : s.Quiet threadId op)
    (hs : s.Calm) :
    (s.step threadId op).Calm ∧ (s.step threadId op).excess = s.excess + s.leak threadId op := by
  obtain ⟨t, a, d, hmoves, hleak⟩ : ∃ (t : τ) (a d : ℤ), Moves s (s.step threadId op) t a d ∧
      a-d = s.leak threadId op := by
    cases op with
    | send t requestId metaDict body expiry => exact ⟨t, moves_send hs hquiet⟩
    | deliver t frames => exact ⟨t, 0, 0, moves_deliver hs hquiet, by simp [leak, LeakFree]⟩
    | receive t => exact ⟨t, moves_receive hs hquiet⟩
  exact ⟨hmoves.calm hs, by rw [hmoves.excess_eq, hleak]⟩

/-- The books of a client that has just been created. -/
def fresh (transport : RedisClientTransport) (io : τ → RedisIo) : Ledger τ where
  transport := { transport with requestsOutstanding := 0, previousErrorWasTransportProblem := false }
  io t := { io t with pops := [] }
  asked _ := 0
  taken _ := 0

omit [DecidableEq τ] in
lemma calm_fresh (transport : RedisClientTransport) (io : τ → RedisIo) : (fresh transport io).Calm :=
  ⟨rfl, fun _ => ⟨[], rfl, fun _ h => by cases h⟩⟩

omit [DecidableEq τ] in
lemma excess_fresh [Fintype τ] (transport : RedisClientTransport) (io : τ → RedisIo) :
    (fresh transport io).excess = 0 := by
  simp [excess, owed, fresh]

/-- After a run the count is too high by the number of its steps that leak. -/
theorem excess_run [Fintype τ] (transport : RedisClientTransport) (io : τ → RedisIo)
    {ops : List (ClientOp τ)}
    (hquiet : Runs.Along (step threadId) (Quiet threadId) (fresh transport io) ops) :
    (Runs.run (step threadId) (fresh transport io) ops).excess =
      Runs.tally (step threadId) (leak threadId) (fresh transport io) ops := by
  have h := hquiet.balance step_excess (calm_fresh transport io)
  rwa [excess_fresh, zero_add] at h

lemma along_balanced_iff [Fintype τ] (transport : RedisClientTransport) (io : τ → RedisIo)
    {ops : List (ClientOp τ)}
    (hquiet : Runs.Along (step threadId) (Quiet threadId) (fresh transport io) ops) :
    Runs.Along (step threadId) (fun s op => Balanced (step threadId s op)) (fresh transport io) ops ↔
      Runs.Along (step threadId) (LeakFree threadId) (fresh transport io) ops := by
  have h := hquiet.balanced_iff step_excess (calm_fresh transport io) (excess_fresh transport io)
  simpa only [balanced_iff_excess_eq_zero, leak_eq_zero_iff] using h

/-- From one thread: the count is the number of responses still to come after every step of a run
exactly when no step leaks. -/
theorem balanced_iff_leakFree (threadId : Unit → String) (transport : RedisClientTransport)
    (io : Unit → RedisIo) {ops : List (ClientOp Unit)}
    (hquiet : Runs.Along (step threadId) (Quiet threadId) (fresh transport io) ops) :
    Runs.Along (step threadId) (fun s op => Balanced (step threadId s op)) (fresh transport io) ops ↔
      Runs.Along (step threadId) (LeakFree threadId) (fresh transport io) ops :=
  along_balanced_iff transport io hquiet

/-- A request for one action. -/
def exampleRequest (suppress : Bool) : Value :=
  .dict [(.text "actions", .list [.dict [(.text "action", .text "read"), (.text "body", .dict [])]]),
    (.text "control", .dict [(.text "continue_on_error", .bool false),
      (.text "suppress_response", .bool suppress)]),
    (.text "context", .dict [(.text "switches", .list [])])]

def exampleResponse : Value :=
  .dict [(.text "request_id", .int 1), (.text "meta", .dict [(.text "__expiry__", .float 60)]),
    (.text "body", .dict [(.text "errors", .list []), (.text "context", .dict []),
      (.text "actions", .list [.dict [(.text "action", .text "read"), (.text "errors", .list []),
        (.text "body", .dict [])]])])]

/-- The frame in which the response travels. -/
def exampleFrame : Bytes :=
  ascii "pysoa-redis/3//content-type:application/json;" ++
    ascii "\x7b\"request_id\": 1, \"meta\": \x7b\"__expiry__\": 60.0\x7d, \"body\": \x7b\"errors\": [], " ++
    ascii "\"context\": \x7b\x7d, \"actions\": [\x7b\"action\": \"read\", \"errors\": [], " ++
    ascii "\"body\": \x7b\x7d\x7d]\x7d\x7d"

/-- A client of a service whose messages are JSON, and that has one response to read back. -/
def exampleClient : RedisClientTransport where
  core := defaultClient (PlainJson.serializer [exampleResponse]) "example"
  sendQueueName := "service.example"
  receiveQueueName := "service.example.0!"
  isClient := rfl

omit [DecidableEq τ] in
lemma quiet_send_of_isOk {s : Ledger τ} {t : τ} {requestId : Value} {metaDict : Meta} {body : Value}
    {expiry : Option ℤ} (h : (s.sent threadId t requestId metaDict body expiry).1.isOk = true) :
    s.Quiet threadId (.send t requestId metaDict body expiry) := by
  intro e he
  rw [he] at h
  cases h

omit [DecidableEq τ] in
lemma quiet_receive_of_isOk {s : Ledger τ} {t : τ} (h : (s.received t).1.isOk = true) :
    s.Quiet threadId (.receive t) := by
  intro e he
  rw [he] at h
  cases h

omit [DecidableEq τ] in
lemma leakFree_receive_of_isOk {s : Ledger τ} {t : τ}
    (h : (s.transport.core.receiveMessage (s.io t)).1.isOk = true) : s.LeakFree threadId (.receive t) := by
  intro _ _
  rcases s.transport.core.receiveMessage_cases (s.io t) with ⟨e, he, -⟩ | ⟨-, hlive⟩
  · rw [he] at h
    cases h
  · cases hm : (s.transport.core.receiveMessage (s.io t)).1 with
    | ok m => exact hlive.mp ⟨m, hm⟩
    | error e =>
      rw [hm] at h
      cases h

lemma whole_exampleFrame (core : RedisTransportCore) : core.Whole [exampleFrame] := by
  refine core.whole_unchunked ?_
  rintro ⟨v, b, hv, hcount⟩
  have hversion : ProtocolVersion.extractVersion exampleFrame = .ok (.version3, exampleFrame.drop 15) := rfl
  cases hversion.symm.trans hv
  exact hcount (by decide +kernel)

/-- A request whose response is received. -/
theorem balanced_request_and_response :
    Runs.Along (step fun _ => "1") (fun s op => Balanced (step (fun _ => "1") s op))
      (fresh exampleClient fun _ : Unit => {})
      [.send () (.int 1) {} (exampleRequest false) none, .deliver () [exampleFrame], .receive ()] := by
  have hquiet : Runs.Along (step fun _ => "1") (Quiet fun _ => "1")
      (fresh exampleClient fun _ : Unit => {})
      [.send () (.int 1) {} (exampleRequest false) none, .deliver () [exampleFrame], .receive ()] :=
    ⟨quiet_send_of_isOk (by decide +kernel), whole_exampleFrame _,
      quiet_receive_of_isOk (by decide +kernel), trivial⟩
  refine (balanced_iff_leakFree (fun _ => "1") exampleClient (fun _ => {}) hquiet).mpr
    ⟨?_, trivial, ?_, trivial⟩
  · intro hsuppressed
    cases hsuppressed
  · exact leakFree_receive_of_isOk (by decide +kernel)

/-- A request that asks for no response is counted as outstanding. -/
theorem not_balanced_suppressed_request :
    ¬ Runs.Along (step fun _ => "1") (fun s op => Balanced (step (fun _ => "1") s op))
      (fresh exampleClient fun _ : Unit => {})
      [.send () (.int 1) {} (exampleRequest true) none] := by
  rintro ⟨hbalanced, -⟩
  revert hbalanced
  unfold Balanced
  decide +kernel

end Ledger
end PySOA
