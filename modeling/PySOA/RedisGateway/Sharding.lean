import Mathlib.Data.Fin.Basic
import Mathlib.Logic.Equiv.Defs
import PySOA.Lib.RoundRobin
import PySOA.Lib.Runs

/-! The queues of a service on several Redis servers. A process goes round the servers, with each use of a request
queue to the next one, for receiving and for sending alike. -/
namespace PySOA

/-- What a Redis client chooses a server by: `random.sample` of all of them, of which `itertools.cycle` gives the
next one each time, and the hash of a key, which may be any function here. -/
structure BaseRedisClient (n : ℕ) where
  sample : Equiv.Perm (Fin n)
  position : ℕ := 0
  consistentHashIndex : String → Fin n

/-- `RESPONSE_QUEUE_SPECIFIER in queue_key`. -/
def isResponseQueue (queueKey : String) : Bool := queueKey.toList.contains '!'

/-- The servers, the client of the process, and how many messages have been taken from each queue. -/
structure Cluster (n : ℕ) (μ : Type*) where
  client : BaseRedisClient n
  queues : Fin n × String → List μ
  taken : Fin n × String → ℕ

/-- A service and what is sent while one of its messages is handled, the response included, in order. -/
structure ShardedService (μ : Type*) where
  queueKey : String
  sends : μ → List (String × μ)
  request : isResponseQueue queueKey = false

/-- What happens to the queues of the service: other processes push and take, a key that expires comes to taking
all there is, and the process receives. -/
inductive ClusterOp (n : ℕ) (μ : Type*)
  | push (i : Fin n) (queueKey : String) (message : μ)
  | take (i : Fin n) (queueKey : String)
  | receive

variable {n : ℕ} {μ : Type*}

namespace BaseRedisClient

/-- The slot of a server in the cycle. -/
def slot (client : BaseRedisClient n) (i : Fin n) : ℕ := (client.sample.symm i).val

lemma slot_lt (client : BaseRedisClient n) (i : Fin n) : client.slot i < n := (client.sample.symm i).isLt

variable [NeZero n]

/-- `next(self._connection_index_generator)`. -/
def next (client : BaseRedisClient n) : Fin n := client.sample (Fin.ofNat n client.position)

/-- `get_connection`: the index of the server. -/
def getConnection (client : BaseRedisClient n) (queueKey : String) : Fin n × BaseRedisClient n :=
  if isResponseQueue queueKey then (client.consistentHashIndex queueKey, client)
  else (client.next, { client with position := client.position+1 })

lemma next_eq_iff (client : BaseRedisClient n) (i : Fin n) :
    client.next = i ↔ client.position % n = client.slot i := by
  rw [next, slot, ← Equiv.eq_symm_apply, Fin.ext_iff, Fin.val_ofNat]

end BaseRedisClient

namespace Cluster

def push (s : Cluster n μ) (i : Fin n) (queueKey : String) (message : μ) : Cluster n μ :=
  { s with queues := Function.update s.queues (i,queueKey) (s.queues (i,queueKey) ++ [message]) }

/-- The first message of a queue leaves it, if there is one. -/
def take (s : Cluster n μ) (i : Fin n) (queueKey : String) : Cluster n μ :=
  match s.queues (i,queueKey) with
  | [] => s
  | _ :: messages =>
    { s with
      queues := Function.update s.queues (i,queueKey) messages
      taken := Function.update s.taken (i,queueKey) (s.taken (i,queueKey) + 1) }

variable [NeZero n]

/-- `send_message`, for what Redis gets to see. -/
def send (s : Cluster n μ) (sent : String × μ) : Cluster n μ :=
  let (i, client) := s.client.getConnection sent.1
  push { s with client } i sent.1 sent.2

/-- `receive_message`, and what is sent while the message is handled if there is one. -/
def receive (service : ShardedService μ) (s : Cluster n μ) : Cluster n μ :=
  let (i, client) := s.client.getConnection service.queueKey
  match s.queues (i,service.queueKey) with
  | [] => { s with client }
  | message :: _ => (service.sends message).foldl send (take { s with client } i service.queueKey)

def step (service : ShardedService μ) (s : Cluster n μ) : ClusterOp n μ → Cluster n μ
  | .push i queueKey message => s.push i queueKey message
  | .take i queueKey => s.take i queueKey
  | .receive => s.receive service

end Cluster

namespace ClusterOp

/-- The turns that an operation takes. -/
def turns : ClusterOp n μ → ℕ
  | .receive => 1
  | _ => 0

end ClusterOp

namespace ShardedService
variable (service : ShardedService μ)

/-- How many requests are sent while a message is handled. -/
def requests (message : μ) : ℕ := ((service.sends message).filter fun sent => !isResponseQueue sent.1).length

/-- Every message in the queue of the service on any server has been taken before the process has received as often
as there are servers, once for it and once for every message in front of it. -/
def Served (n : ℕ) [NeZero n] : Prop :=
  ∀ (s : Cluster n μ) (i : Fin n) (p : ℕ), p < (s.queues (i,service.queueKey)).length →
    ∀ ops : List (ClusterOp n μ), (p+1)*n ≤ (ops.map ClusterOp.turns).sum →
      s.taken (i,service.queueKey) + p < (Runs.run (Cluster.step service) s ops).taken (i,service.queueKey)

/-- A message waits on one of the servers, and the process may receive as often as one likes, with other processes
sending requests and taking none, without having taken a message from that server. -/
def Starves (n : ℕ) [NeZero n] : Prop :=
  ∃ (s : Cluster n μ) (i : Fin n), s.queues (i,service.queueKey) ≠ [] ∧
    ∀ turns : ℕ, ∃ ops : List (ClusterOp n μ), (ops.map ClusterOp.turns).sum = turns ∧
      (∀ op ∈ ops, ∀ j queueKey, op ≠ .take j queueKey) ∧
      (Runs.run (Cluster.step service) s ops).taken (i,service.queueKey) = s.taken (i,service.queueKey)

end ShardedService

namespace Cluster

/-- What taking a message from another queue leaves as it is. -/
lemma take_of_ne (s : Cluster n μ) {i : Fin n} {queueKey : String} {q : Fin n × String} (h : q ≠ (i,queueKey)) :
    (s.take i queueKey).queues q = s.queues q ∧ (s.take i queueKey).taken q = s.taken q := by
  unfold take
  split
  · exact ⟨rfl, rfl⟩
  · exact ⟨Function.update_of_ne h _ _, Function.update_of_ne h _ _⟩

lemma take_of_cons {s : Cluster n μ} {i : Fin n} {queueKey : String} {message : μ} {messages : List μ}
    (h : s.queues (i,queueKey) = message :: messages) :
    (s.take i queueKey).queues (i,queueKey) = messages ∧
      (s.take i queueKey).taken (i,queueKey) = s.taken (i,queueKey) + 1 := by
  unfold take
  rw [h]
  exact ⟨Function.update_self _ _ _, Function.update_self _ _ _⟩

lemma take_client (s : Cluster n μ) (i : Fin n) (queueKey : String) : (s.take i queueKey).client = s.client := by
  unfold take
  split
  · rfl
  · rfl

/-- Messages are added and the client is used so many times for request queues, but nothing is taken. -/
structure Added (s s' : Cluster n μ) (k : ℕ) : Prop where
  sample : s'.client.sample = s.client.sample
  position : s'.client.position = s.client.position + k
  taken : s'.taken = s.taken
  queues : ∀ q, s.queues q <+: s'.queues q

lemma Added.refl (s : Cluster n μ) : Added s s 0 := ⟨rfl, rfl, rfl, fun _ => List.prefix_rfl⟩

lemma Added.trans {s s' s'' : Cluster n μ} {k k' : ℕ} (h : Added s s' k) (h' : Added s' s'' k') :
    Added s s'' (k+k') := by
  constructor
  · rw [h'.sample, h.sample]
  · rw [h'.position, h.position, Nat.add_assoc]
  · rw [h'.taken, h.taken]
  · intro q
    exact (h.queues q).trans (h'.queues q)

lemma added_push (s : Cluster n μ) (i : Fin n) (queueKey : String) (message : μ) :
    Added s (s.push i queueKey message) 0 := by
  refine ⟨rfl, rfl, rfl, ?_⟩
  intro q
  unfold push
  dsimp only
  by_cases h : q = (i,queueKey)
  · rw [h, Function.update_self]
    exact List.prefix_append _ _
  · have hstays := Function.update_of_ne h (s.queues (i,queueKey) ++ [message]) s.queues
    exact hstays ▸ List.prefix_rfl

lemma taken_le_take (s : Cluster n μ) (i : Fin n) (queueKey : String) (q : Fin n × String) :
    s.taken q ≤ (s.take i queueKey).taken q := by
  by_cases h : q = (i,queueKey)
  · obtain rfl := h
    cases hqueue : s.queues (i,queueKey) with
    | nil =>
      unfold take
      rw [hqueue]
    | cons message messages =>
      rw [(take_of_cons hqueue).2]
      exact Nat.le_succ _
  · exact (s.take_of_ne h).2.ge

variable [NeZero n]

lemma added_send (s : Cluster n μ) (sent : String × μ) :
    Added s (s.send sent) (if isResponseQueue sent.1 then 0 else 1) := by
  have hclient : Added s { s with client := (s.client.getConnection sent.1).2 }
      (if isResponseQueue sent.1 then 0 else 1) := by
    unfold BaseRedisClient.getConnection
    split_ifs
    · exact Added.refl s
    · exact ⟨rfl, rfl, rfl, fun _ => List.prefix_rfl⟩
  exact hclient.trans (added_push _ _ _ _)

lemma added_sends (sends : List (String × μ)) (s : Cluster n μ) :
    Added s (sends.foldl send s) (sends.filter fun sent => !isResponseQueue sent.1).length := by
  induction sends generalizing s with
  | nil => exact Added.refl s
  | cons sent sends ih =>
    have hall := (s.added_send sent).trans (ih (s.send sent))
    rw [List.filter_cons]
    by_cases h : isResponseQueue sent.1 = true
    · rw [if_pos h, Nat.zero_add] at hall
      rw [h, if_neg (by simp)]
      exact hall
    · rw [if_neg h] at hall
      rw [if_pos (by simpa using h), List.length_cons, Nat.add_comm]
      exact hall

/-- What is sent to other services leaves the queues of a service as they are. -/
lemma queues_sends_of_ne {queueKey : String} {sends : List (String × μ)} (h : ∀ sent ∈ sends, sent.1 ≠ queueKey)
    (s : Cluster n μ) (i : Fin n) : (sends.foldl send s).queues (i,queueKey) = s.queues (i,queueKey) := by
  induction sends generalizing s with
  | nil => rfl
  | cons sent sends ih =>
    rw [List.foldl_cons, ih (fun sent' hmem => h sent' (List.mem_cons_of_mem _ hmem))]
    have hne : (i,queueKey) ≠ ((s.client.getConnection sent.1).1,sent.1) :=
      fun heq => h sent List.mem_cons_self (Prod.mk.inj heq).2.symm
    exact Function.update_of_ne hne _ _

lemma getConnection_request (service : ShardedService μ) (client : BaseRedisClient n) :
    client.getConnection service.queueKey = (client.next, { client with position := client.position+1 }) :=
  if_neg (by rw [service.request]; exact Bool.false_ne_true)

/-- The turn of the process is over. -/
def turned (s : Cluster n μ) : Cluster n μ :=
  { s with client := { s.client with position := s.client.position+1 } }

omit [NeZero n] in
lemma slot_turned (s : Cluster n μ) (i : Fin n) : s.turned.client.slot i = s.client.slot i := rfl

/-- With nothing in the queue at hand, the process goes on to the next server. -/
lemma receive_of_nil {service : ShardedService μ} {s : Cluster n μ}
    (h : s.queues (s.client.next,service.queueKey) = []) : s.receive service = s.turned := by
  unfold receive
  rw [getConnection_request]
  dsimp only
  rw [h]
  rfl

/-- With a message in the queue at hand, the process takes it and sends what its handling sends. -/
lemma receive_of_cons {service : ShardedService μ} {s : Cluster n μ} {message : μ} {messages : List μ}
    (h : s.queues (s.client.next,service.queueKey) = message :: messages) :
    s.receive service = (service.sends message).foldl send (s.turned.take s.client.next service.queueKey) := by
  unfold receive
  rw [getConnection_request]
  dsimp only
  rw [h]
  rfl

lemma taken_le_step (service : ShardedService μ) (s : Cluster n μ) (op : ClusterOp n μ) (q : Fin n × String) :
    s.taken q ≤ (s.step service op).taken q := by
  cases op with
  | push i queueKey message => exact le_rfl
  | take i queueKey => exact s.taken_le_take i queueKey q
  | receive =>
    cases hqueue : s.queues (s.client.next,service.queueKey) with
    | nil =>
      rw [step, receive_of_nil hqueue]
      exact le_rfl
    | cons message messages =>
      rw [step, receive_of_cons hqueue, (added_sends _ _).taken]
      exact s.turned.taken_le_take _ _ q

end Cluster

namespace ShardedService
variable (service : ShardedService μ)

/-- In so many turns of the process, as many messages will have been taken from the queue at a server as are taken
and wait in front of another one now. -/
def Waits (i : Fin n) (target turns : ℕ) (s : Cluster n μ) : Prop :=
  ∃ p, p < (s.queues (i,service.queueKey)).length ∧ s.taken (i,service.queueKey) + p = target ∧
    RoundRobin.turnsUntil n (s.client.slot i) s.client.position p = turns

variable {service}

/-- Adding messages in full rounds leaves the turns as they are. -/
lemma Waits.added {i : Fin n} {target turns k : ℕ} {s s' : Cluster n μ} (h : service.Waits i target turns s)
    (hadded : Cluster.Added s s' k) (hk : n ∣ k) : service.Waits i target turns s' := by
  obtain ⟨p, hp, htarget, hturns⟩ := h
  refine ⟨p, ?_, ?_, ?_⟩
  · exact hp.trans_le (hadded.queues _).length_le
  · rw [hadded.taken, htarget]
  · rw [hadded.position, RoundRobin.turnsUntil_add_of_dvd hk, BaseRedisClient.slot, hadded.sample]
    exact hturns

/-- Taking a message from the queue brings the one that waits nearer by a round. -/
lemma Waits.take {i : Fin n} {target turns : ℕ} {s : Cluster n μ} (h : service.Waits i target turns s)
    (j : Fin n) (queueKey : String) :
    target < (s.take j queueKey).taken (i,service.queueKey) ∨
      ∃ turns' ≤ turns, service.Waits i target turns' (s.take j queueKey) := by
  obtain ⟨p, hp, htarget, hturns⟩ := h
  by_cases hne : (i,service.queueKey) = (j,queueKey)
  · cases hqueue : s.queues (j,queueKey) with
    | nil =>
      rw [hne, hqueue] at hp
      exact absurd hp (Nat.not_lt_zero p)
    | cons message messages =>
      obtain ⟨hqueues, htaken⟩ := Cluster.take_of_cons hqueue
      rw [← hne] at hqueue hqueues htaken
      rw [hqueue, List.length_cons] at hp
      cases p with
      | zero =>
        left
        omega
      | succ p =>
        right
        refine ⟨RoundRobin.turnsUntil n (s.client.slot i) s.client.position p, ?_, p, ?_, ?_, ?_⟩
        · rw [← hturns, RoundRobin.turnsUntil, RoundRobin.turnsUntil, Nat.succ_mul]
          omega
        · rw [hqueues]
          omega
        · omega
        · rw [s.take_client]
  · obtain ⟨hqueues, htaken⟩ := s.take_of_ne hne
    right
    refine ⟨turns, le_rfl, p, ?_, ?_, ?_⟩
    · rwa [hqueues]
    · rwa [htaken]
    · rwa [s.take_client]

variable [NeZero n]

/-- The process goes on to the next server for the next turn, if it sends requests in full rounds only. -/
lemma Waits.receive {i : Fin n} {target turns : ℕ} {s : Cluster n μ} (h : service.Waits i target turns s)
    (hrounds : ∀ message, n ∣ service.requests message) :
    target < (s.receive service).taken (i,service.queueKey) ∨
      ∃ turns', service.Waits i target turns' (s.receive service) ∧ 1 + turns' ≤ turns := by
  obtain ⟨p, hp, htarget, hturns⟩ := h
  have hslot := s.client.slot_lt i
  cases hqueue : s.queues (s.client.next,service.queueKey) with
  | nil =>
    have hne : s.client.position % n ≠ s.client.slot i := by
      intro heq
      rw [(s.client.next_eq_iff i).mpr heq] at hqueue
      rw [hqueue] at hp
      exact absurd hp (Nat.not_lt_zero p)
    have hnext := RoundRobin.turnsUntil_succ_of_ne hslot hne p
    rw [Cluster.receive_of_nil hqueue]
    exact .inr ⟨_, ⟨p, hp, htarget, rfl⟩, by rw [← hturns, Nat.add_comm]; exact hnext.le⟩
  | cons message messages =>
    rw [Cluster.receive_of_cons hqueue]
    have hadded := (s.turned.take s.client.next service.queueKey).added_sends (service.sends message)
    have hwaits : target < (s.turned.take s.client.next service.queueKey).taken (i,service.queueKey) ∨
        ∃ turns', service.Waits i target turns' (s.turned.take s.client.next service.queueKey) ∧
          1 + turns' ≤ turns := by
      obtain ⟨hqueues, htaken⟩ := Cluster.take_of_cons (s := s.turned) hqueue
      have hclient := s.turned.take_client s.client.next service.queueKey
      by_cases heq : s.client.next = i
      · have hmod := (s.client.next_eq_iff i).mp heq
        rw [heq] at hqueue hqueues htaken hclient ⊢
        rw [hqueue, List.length_cons] at hp
        cases p with
        | zero =>
          left
          rw [htaken, ← htarget]
          exact Nat.lt_succ_self _
        | succ p =>
          have hnext := RoundRobin.turnsUntil_succ_of_eq hslot hmod p
          right
          refine ⟨_, ⟨p, ?_, ?_, rfl⟩, ?_⟩
          · rw [hqueues]
            exact Nat.lt_of_succ_lt_succ hp
          · rw [htaken, ← htarget]
            exact Nat.succ_add_eq_add_succ _ p
          · rw [hclient, s.slot_turned, ← hturns, ← hnext, Nat.add_comm]
            exact le_rfl
      · have hne : (i,service.queueKey) ≠ (s.client.next,service.queueKey) :=
          fun h => heq (Prod.mk.inj h).1.symm
        obtain ⟨hqueues, htaken⟩ := s.turned.take_of_ne hne
        have hnext := RoundRobin.turnsUntil_succ_of_ne hslot
          (fun hmod => heq ((s.client.next_eq_iff i).mpr hmod)) p
        right
        refine ⟨_, ⟨p, ?_, ?_, rfl⟩, ?_⟩
        · rw [hqueues]
          exact hp
        · rw [htaken]
          exact htarget
        · rw [hclient, s.slot_turned, ← hturns, ← hnext, Nat.add_comm]
          exact le_rfl
    rcases hwaits with hdone | ⟨turns', hwaits, hle⟩
    · left
      rwa [hadded.taken]
    · exact .inr ⟨turns', hwaits.added hadded (hrounds message), hle⟩

lemma Waits.step {i : Fin n} {target turns : ℕ} {s : Cluster n μ} (h : service.Waits i target turns s)
    (hrounds : ∀ message, n ∣ service.requests message) (op : ClusterOp n μ) :
    target < (s.step service op).taken (i,service.queueKey) ∨
      ∃ turns', service.Waits i target turns' (s.step service op) ∧ op.turns + turns' ≤ turns := by
  cases op with
  | push j queueKey message =>
    exact .inr ⟨turns, h.added (s.added_push j queueKey message) ⟨0, rfl⟩, (Nat.zero_add _).le⟩
  | take j queueKey =>
    rcases h.take j queueKey with hdone | ⟨turns', hle, hwaits⟩
    · exact .inl hdone
    · exact .inr ⟨turns', hwaits, (Nat.zero_add _).trans_le hle⟩
  | receive => exact h.receive hrounds

/-- A service that sends requests in full rounds only is served on all servers. -/
lemma served_of_dvd (hrounds : ∀ message, n ∣ service.requests message) : service.Served n := by
  intro s i p hp ops hops
  generalize htarget : s.taken (i,service.queueKey) + p = target
  have hpos : ∀ s : Cluster n μ, ¬service.Waits i target 0 s := by
    rintro s ⟨p, -, -, hzero⟩
    exact (RoundRobin.turnsUntil_pos p).ne' hzero
  have hkeep : ∀ (s : Cluster n μ) (op : ClusterOp n μ), target < s.taken (i,service.queueKey) →
      target < (s.step service op).taken (i,service.queueKey) :=
    fun s op h => h.trans_le (s.taken_le_step service op _)
  have hwaits : service.Waits i target (RoundRobin.turnsUntil n (s.client.slot i) s.client.position p) s :=
    ⟨p, hp, htarget, rfl⟩
  have hturns := RoundRobin.turnsUntil_le (s.client.slot_lt i) s.client.position p
  exact Runs.run_reaches hpos hkeep (fun _ _ op h => h.step hrounds op) hwaits (hturns.trans hops)

/-- The process has just passed by a server with messages; there are none on the others. -/
structure Passed (service : ShardedService μ) (i : Fin n) (s : Cluster n μ) : Prop where
  waits : s.queues (i,service.queueKey) ≠ []
  others : ∀ j ≠ i, s.queues (j,service.queueKey) = []
  next : s.client.next ≠ i

variable {i : Fin n} {s : Cluster n μ} {message : μ}

/-- With nothing to receive, the process goes on, unless the messages are at the next server. -/
lemma Passed.receive (h : service.Passed i s) (hnext : (s.client.position+1) % n ≠ s.client.slot i) :
    service.Passed i (s.receive service) ∧
      (s.receive service).taken (i,service.queueKey) = s.taken (i,service.queueKey) := by
  rw [Cluster.receive_of_nil (h.others _ h.next)]
  exact ⟨⟨h.waits, h.others, fun heq => hnext ((BaseRedisClient.next_eq_iff _ i).mp heq)⟩, rfl⟩

/-- With a message to receive just before the server with the messages, the process passes by that server. -/
lemma Passed.push (h : service.Passed i s) (hnext : (s.client.position+1) % n = s.client.slot i)
    (hother : ∀ sent ∈ service.sends message, sent.1 ≠ service.queueKey)
    (hrounds : ¬n ∣ service.requests message) :
    service.Passed i ((s.push s.client.next service.queueKey message).receive service) ∧
      ((s.push s.client.next service.queueKey message).receive service).taken (i,service.queueKey) =
        s.taken (i,service.queueKey) := by
  have hqueue : (s.push s.client.next service.queueKey message).queues (s.client.next,service.queueKey) =
      [message] := by
    have hempty := h.others _ h.next
    rw [Cluster.push, hempty]
    exact Function.update_self _ _ _
  have hqueue_of_ne (j : Fin n) (hne : j ≠ s.client.next) :
      (s.push s.client.next service.queueKey message).queues (j,service.queueKey) = s.queues (j,service.queueKey) :=
    Function.update_of_ne (fun heq => hne (Prod.mk.inj heq).1) _ _
  generalize hpushed : s.push s.client.next service.queueKey message = s₁ at hqueue hqueue_of_ne ⊢
  have hclient : s₁.client = s.client := by rw [← hpushed]; rfl
  have htaken : s₁.taken = s.taken := by rw [← hpushed]; rfl
  rw [← hclient] at hqueue
  rw [Cluster.receive_of_cons hqueue]
  have hadded := (s₁.turned.take s₁.client.next service.queueKey).added_sends (service.sends message)
  have hsends := Cluster.queues_sends_of_ne hother (s₁.turned.take s₁.client.next service.queueKey)
  have hne : i ≠ s₁.client.next := hclient ▸ h.next.symm
  have hstays (j : Fin n) (hj : j ≠ s₁.client.next) := s₁.turned.take_of_ne
    (show (j,service.queueKey) ≠ (s₁.client.next,service.queueKey) from fun heq => hj (Prod.mk.inj heq).1)
  constructor
  · refine ⟨?_, ?_, ?_⟩
    · rw [hsends, (hstays i hne).1]
      exact (hqueue_of_ne i h.next.symm).trans_ne h.waits
    · intro j hj
      rw [hsends]
      by_cases hnext : j = s₁.client.next
      · rw [hnext]
        exact (Cluster.take_of_cons (s := s₁.turned) hqueue).1
      · rw [(hstays j hnext).1]
        exact (hqueue_of_ne j (hclient ▸ hnext)).trans (h.others j hj)
    · intro heq
      have hmod := (BaseRedisClient.next_eq_iff _ i).mp heq
      have hturned := s₁.turned.take_client s₁.client.next service.queueKey
      rw [hadded.position, BaseRedisClient.slot, hadded.sample, ← BaseRedisClient.slot, hturned, s₁.slot_turned,
        Cluster.turned, hclient, ← hnext] at hmod
      exact RoundRobin.add_mod_ne hrounds hmod
  · rw [hadded.taken, (hstays i hne).2]
    exact congrFun htaken _

/-- Whatever the process has received so far, it may go on and pass by the messages again. -/
lemma Passed.turn (h : service.Passed i s) (hother : ∀ sent ∈ service.sends message, sent.1 ≠ service.queueKey)
    (hrounds : ¬n ∣ service.requests message) : ∃ ops : List (ClusterOp n μ),
      (ops.map ClusterOp.turns).sum = 1 ∧ (∀ op ∈ ops, ∀ j queueKey, op ≠ .take j queueKey) ∧
      service.Passed i (Runs.run (Cluster.step service) s ops) ∧
      (Runs.run (Cluster.step service) s ops).taken (i,service.queueKey) = s.taken (i,service.queueKey) := by
  by_cases hnext : (s.client.position+1) % n = s.client.slot i
  · obtain ⟨hpassed, htaken⟩ := h.push hnext hother hrounds
    refine ⟨[.push s.client.next service.queueKey message, .receive], rfl, ?_, hpassed, htaken⟩
    simp
  · obtain ⟨hpassed, htaken⟩ := h.receive hnext
    exact ⟨[.receive], rfl, by simp, hpassed, htaken⟩

lemma Passed.turns (h : service.Passed i s) (hother : ∀ sent ∈ service.sends message, sent.1 ≠ service.queueKey)
    (hrounds : ¬n ∣ service.requests message) (turns : ℕ) : ∃ ops : List (ClusterOp n μ),
      (ops.map ClusterOp.turns).sum = turns ∧ (∀ op ∈ ops, ∀ j queueKey, op ≠ .take j queueKey) ∧
      (Runs.run (Cluster.step service) s ops).taken (i,service.queueKey) = s.taken (i,service.queueKey) := by
  induction turns generalizing s with
  | zero => exact ⟨[], rfl, nofun, rfl⟩
  | succ turns ih =>
    obtain ⟨ops, hsum, htakes, hpassed, htaken⟩ := h.turn hother hrounds
    obtain ⟨ops', hsum', htakes', htaken'⟩ := ih hpassed
    refine ⟨ops ++ ops', ?_, ?_, ?_⟩
    · rw [List.map_append, List.sum_append, hsum, hsum', Nat.add_comm]
    · intro op hop
      rcases List.mem_append.mp hop with hop | hop
      · exact htakes op hop
      · exact htakes' op hop
    · rw [Runs.run_append, htaken', htaken]

/-- The servers with a message on the first one, when the process has just had its turn there. -/
def passedCluster (service : ShardedService μ) (hash : String → Fin n) (message : μ) : Cluster n μ where
  client := { sample := Equiv.refl _, position := 1, consistentHashIndex := hash }
  queues q := if q = (0,service.queueKey) then [message] else []
  taken _ := 0

lemma passed_passedCluster (service : ShardedService μ) (hn : 1 < n) (hash : String → Fin n) (message : μ) :
    service.Passed 0 (service.passedCluster hash message) := by
  refine ⟨?_, ?_, ?_⟩
  · exact (if_pos rfl).trans_ne (List.cons_ne_nil message [])
  · intro j hj
    exact if_neg fun heq => hj (Prod.mk.inj heq).1
  · intro heq
    have hmod : 1 % n = (0 : Fin n).val := (BaseRedisClient.next_eq_iff _ _).mp heq
    rw [Nat.mod_eq_of_lt hn, Fin.val_zero] at hmod
    exact absurd hmod Nat.one_ne_zero

/-- A service that sends requests while it handles its messages is served on all servers, however many messages are
sent to it meanwhile, if it sends them in full rounds only. It may starve on one, if it does not for a message for
which it sends nothing to itself. -/
theorem served_or_starves :
    ((∀ message, n ∣ service.requests message) → service.Served n) ∧
    ((∃ message, ¬n ∣ service.requests message ∧ ∀ sent ∈ service.sends message, sent.1 ≠ service.queueKey) →
      service.Starves n) := by
  refine ⟨served_of_dvd, ?_⟩
  rintro ⟨message, hrounds, hother⟩
  have hn : 1 < n := by
    by_contra hle
    have hpos := NeZero.ne n
    obtain rfl : n = 1 := by omega
    exact hrounds (Nat.one_dvd _)
  have hpassed := service.passed_passedCluster hn (fun _ => 0) message
  exact ⟨_, 0, hpassed.waits, hpassed.turns hother hrounds⟩

/-- A service that asks another one before it responds. -/
def askingService : ShardedService Unit where
  queueKey := "pysoa:service.orders"
  sends message := [("pysoa:service.users",message), ("pysoa:service.orders.client!",message)]
  request := by decide

/-- On one server it is served, and on two it may starve on one of them. -/
theorem served_or_starves_askingService : askingService.Served 1 ∧ askingService.Starves 2 := by
  have hother : ∀ sent ∈ askingService.sends (), sent.1 ≠ askingService.queueKey := by
    intro sent hsent
    have hcases : sent = ("pysoa:service.users",()) ∨ sent = ("pysoa:service.orders.client!",()) := by
      simpa [askingService] using hsent
    rcases hcases with rfl | rfl
    · exact show "pysoa:service.users" ≠ "pysoa:service.orders" by decide
    · exact show "pysoa:service.orders.client!" ≠ "pysoa:service.orders" by decide
  have hone : ∃ message, ¬2 ∣ askingService.requests message ∧
      ∀ sent ∈ askingService.sends message, sent.1 ≠ askingService.queueKey := ⟨(), by decide, hother⟩
  exact ⟨served_or_starves.1 fun message => Nat.one_dvd _, served_or_starves.2 hone⟩

end ShardedService
end PySOA
