import PySOA.RedisGateway.Framing
import PySOA.RedisGateway.ListKey

/-! Sending and the capacity of the queue: when a message goes out as a whole or not at all. -/
namespace PySOA

namespace ListKey

/-- No message fits into the list. -/
def Full (capacity : ℤ) (key : ListKey) : Prop := capacity ≤ key.messages.length

instance (capacity : ℤ) (key : ListKey) : Decidable (key.Full capacity) :=
  inferInstanceAs (Decidable (_ ≤ _))

/-- What the script answers to a push that meets the key in this state. -/
def answer (capacity : ℤ) (key : ListKey) : PushResult :=
  if key.Full capacity then .queueFull else .appended

theorem sendMessageToQueue_fst (key : ListKey) (message : QueuedMessage) (expiry capacity : ℤ) (now : ℚ) :
    (key.sendMessageToQueue message expiry capacity now).1 = key.answer capacity := by
  by_cases h : key.Full capacity
  · rw [answer, if_pos h, sendMessageToQueue, if_pos (by exact h)]
  · rw [answer, if_neg h, sendMessageToQueue, if_neg (by exact h)]

end ListKey

namespace RedisTransportCore
variable (core : RedisTransportCore)

/-- The number of attempts that a frame has. -/
def attempts : ℕ := (core.queueFullRetries+1).toNat

/-- What the attempts of one call are answered. The others may change the queue in any way between
two attempts, so each meets the key in a state of its own. -/
def answers (keys : List ListKey) : List PushResult := keys.map (·.answer core.queueCapacity)

/-- In the states that the attempts of a call meet, k frames find room, each at one of its attempts,
and the next finds the queue full at every attempt that it has. -/
def BlockedAfter : ℕ → List ListKey → Prop
  | 0, keys => ∃ full rest, keys = full ++ rest ∧ full.length = core.attempts ∧
      ∀ key ∈ full, key.Full core.queueCapacity
  | k+1, keys => ∃ full key rest, keys = full ++ key :: rest ∧ full.length < core.attempts ∧
      (∀ key ∈ full, key.Full core.queueCapacity) ∧ ¬ key.Full core.queueCapacity ∧
      BlockedAfter k rest

variable {core}

lemma pushAttempts_full (queueName : String) {full : List ListKey}
    (hfull : ∀ key ∈ full, key.Full core.queueCapacity) (n : ℕ) (pushes : List PushResult) :
    core.pushAttempts queueName (full.length+n) (core.answers full ++ pushes) =
      core.pushAttempts queueName n pushes := by
  induction full with
  | nil => simp [answers]
  | cons key full ih =>
    have hkey : key.answer core.queueCapacity = .queueFull := if_pos (hfull key List.mem_cons_self)
    have ih := ih fun key hkey => hfull key (List.mem_cons_of_mem _ hkey)
    simp only [answers] at ih
    simp only [answers, List.map_cons, hkey, List.cons_append, List.length_cons,
      Nat.add_right_comm _ 1 n, pushAttempts, ih]

lemma pushAttempts_room (queueName : String) {full : List ListKey} {key : ListKey}
    (hfull : ∀ key ∈ full, key.Full core.queueCapacity) (hkey : ¬ key.Full core.queueCapacity)
    {n : ℕ} (hn : full.length < n) (rest : List ListKey) :
    core.pushAttempts queueName n (core.answers (full ++ key :: rest)) = (.ok (), core.answers rest) := by
  have hroom : key.answer core.queueCapacity = .appended := if_neg hkey
  obtain ⟨m, rfl⟩ : ∃ m, n = full.length+(m+1) := ⟨n-full.length-1, by omega⟩
  have h := pushAttempts_full queueName hfull (m+1) (core.answers (key :: rest))
  rw [answers, answers, ← List.map_append] at h
  rw [answers, h]
  simp only [List.map_cons, hroom, pushAttempts, answers]

/-- The states that the attempts of one frame meet: full at all of them, with room at one of them,
or full until no more is known of them. -/
lemma attempts_cases (capacity : ℤ) (n : ℕ) (keys : List ListKey) :
    (∃ full rest, keys = full ++ rest ∧ full.length = n ∧ ∀ key ∈ full, key.Full capacity) ∨
      (∃ full key rest, keys = full ++ key :: rest ∧ full.length < n ∧
        (∀ key ∈ full, key.Full capacity) ∧ ¬ key.Full capacity) ∨
      (keys.length < n ∧ ∀ key ∈ keys, key.Full capacity) := by
  induction n generalizing keys with
  | zero => exact .inl ⟨[], keys, rfl, rfl, by simp⟩
  | succ n ih =>
    cases keys with
    | nil => exact .inr (.inr ⟨Nat.succ_pos n, by simp⟩)
    | cons key keys =>
      by_cases hkey : key.Full capacity
      · rcases ih keys with ⟨full, rest, rfl, hlen, hfull⟩ | ⟨full, key', rest, rfl, hlen, hfull, hroom⟩ |
          ⟨hlen, hfull⟩
        · exact .inl ⟨key :: full, rest, rfl, by simp [hlen], by simpa [hkey] using hfull⟩
        · exact .inr (.inl ⟨key :: full, key', rest, rfl, by simpa using hlen, by simpa [hkey] using hfull, hroom⟩)
        · exact .inr (.inr ⟨by simpa using hlen, by simpa [hkey] using hfull⟩)
      · exact .inr (.inl ⟨[], key, keys, rfl, Nat.succ_pos n, by simp, hkey⟩)

/-- A call that meets the queue only in states with room is blocked at no frame. -/
lemma not_blockedAfter_of_room (hattempts : 0 < core.attempts) {k : ℕ} {keys : List ListKey}
    (hroom : ∀ key ∈ keys, ¬ key.Full core.queueCapacity) : ¬ core.BlockedAfter k keys := by
  induction k generalizing keys with
  | zero =>
    rintro ⟨full, rest, rfl, hlen, hfull⟩
    obtain ⟨key, hkey⟩ := List.exists_mem_of_length_pos (hlen ▸ hattempts)
    exact hroom key (List.mem_append_left _ hkey) (hfull key hkey)
  | succ k ih =>
    rintro ⟨full, key, rest, rfl, -, -, -, hblocked⟩
    refine ih (fun key hkey => hroom key ?_) hblocked
    exact List.mem_append_right _ (List.mem_cons_of_mem _ hkey)

lemma pushFrames_of_blockedAfter (queueName : String) {k : ℕ} {frames : List PushedFrame}
    (hk : k < frames.length) {keys : List ListKey} (hblocked : core.BlockedAfter k keys) {io : RedisIo}
    (hpushes : io.pushes = core.answers keys) :
    (∃ e, (core.pushFrames queueName frames io).1 = .error e) ∧
      (core.pushFrames queueName frames io).2.pushed = io.pushed ++ frames.take k := by
  induction k generalizing frames keys io with
  | zero =>
    obtain ⟨full, rest, rfl, hlen, hfull⟩ := hblocked
    obtain ⟨frame, frames, rfl⟩ := List.exists_cons_of_length_pos hk
    have hattempts := pushAttempts_full queueName hfull 0 (core.answers rest)
    rw [answers, answers, ← List.map_append, Nat.add_zero, hlen] at hattempts
    simp only [pushFrames, hpushes, answers]
    rw [show (core.queueFullRetries+1).toNat = core.attempts from rfl, hattempts]
    simp [pushAttempts]
  | succ k ih =>
    obtain ⟨full, key, rest, rfl, hlen, hfull, hroom, hblocked⟩ := hblocked
    obtain ⟨frame, frames, rfl⟩ := List.exists_cons_of_length_pos (Nat.zero_lt_of_lt hk)
    have hattempts := pushAttempts_room queueName hfull hroom hlen rest
    have hio : { io with pushes := core.answers rest, pushed := io.pushed ++ [frame] }.pushes =
        core.answers rest := rfl
    have hrest := ih (Nat.lt_of_succ_lt_succ hk) hblocked hio
    simp only [pushFrames, hpushes]
    rw [show (core.queueFullRetries+1).toNat = core.attempts from rfl, hattempts]
    refine ⟨hrest.1, ?_⟩
    rw [hrest.2, List.take_succ_cons, List.append_assoc]
    rfl

lemma pushFrames_of_not_blockedAfter (queueName : String) {frames : List PushedFrame}
    {keys : List ListKey} (hfree : ∀ k < frames.length, ¬ core.BlockedAfter k keys) {io : RedisIo}
    (hpushes : io.pushes = core.answers keys) :
    (core.pushFrames queueName frames io).1 = .ok () ∧
      (core.pushFrames queueName frames io).2.pushed = io.pushed ++ frames := by
  induction frames generalizing keys io with
  | nil => simp [pushFrames]
  | cons frame frames ih =>
    obtain ⟨rest, hattempts, hrest⟩ : ∃ rest,
        core.pushAttempts queueName core.attempts (core.answers keys) = (.ok (), core.answers rest) ∧
          ∀ k < frames.length, ¬ core.BlockedAfter k rest := by
      rcases attempts_cases core.queueCapacity core.attempts keys with
        ⟨full, rest, hkeys, hlen, hfull⟩ | ⟨full, key, rest, rfl, hlen, hfull, hroom⟩ | ⟨hlen, hfull⟩
      · exact absurd ⟨full, rest, hkeys, hlen, hfull⟩ (hfree 0 (Nat.succ_pos _))
      · refine ⟨rest, pushAttempts_room queueName hfull hroom hlen rest, ?_⟩
        intro k hk hblocked
        exact hfree (k+1) (Nat.succ_lt_succ hk) ⟨full, key, rest, rfl, hlen, hfull, hroom, hblocked⟩
      · -- no more is known of the queue: the push succeeds, and so do those after it
        obtain ⟨m, hm⟩ : ∃ m, core.attempts = keys.length+(m+1) := ⟨core.attempts-keys.length-1, by omega⟩
        have h := pushAttempts_full queueName hfull (m+1) []
        rw [List.append_nil, ← hm] at h
        refine ⟨[], h, ?_⟩
        intro k hk hblocked
        cases k with
        | zero =>
          obtain ⟨full, rest, hnil, hattempts, -⟩ := hblocked
          rw [(List.append_eq_nil_iff.mp hnil.symm).1, List.length_nil] at hattempts
          omega
        | succ k =>
          obtain ⟨full, key, rest, hnil, -⟩ := hblocked
          exact List.cons_ne_nil _ _ (List.append_eq_nil_iff.mp hnil.symm).2
    have hio : { io with pushes := core.answers rest, pushed := io.pushed ++ [frame] }.pushes =
        core.answers rest := rfl
    have hpushed := ih hrest hio
    simp only [pushFrames, hpushes]
    rw [show (core.queueFullRetries+1).toNat = core.attempts from rfl, hattempts]
    refine ⟨hpushed.1, ?_⟩
    rw [hpushed.2, List.append_assoc]
    rfl

variable (core) in
/-- The message is appended as a whole and the call returns, or the call raises and has appended
nothing. -/
def AllOrNothing (queueName : String) (requestId : Value) (metaDict : Meta) (body : Value)
    (expiry : Option ℤ) (io : RedisIo) : Prop :=
  ((core.sendMessage queueName requestId metaDict body expiry io).1 = .ok () ∧
      ∃ frames, core.framesToSend queueName requestId metaDict body expiry io.now = .ok frames ∧
        (core.sendMessage queueName requestId metaDict body expiry io).2.2.pushed = io.pushed ++ frames) ∨
    ((∃ e, (core.sendMessage queueName requestId metaDict body expiry io).1 = .error e) ∧
      (core.sendMessage queueName requestId metaDict body expiry io).2.2.pushed = io.pushed)

/-- The frames of a message go out as a whole or not at all exactly if no frame but the first is
blocked. -/
lemma allOrNothing_iff_of_frames {queueName : String} {requestId : Value}
    (hid : requestId.isNone = false) {metaDict : Meta} {body : Value} {expiry : Option ℤ} {io : RedisIo}
    (hconnections : io.connections = []) {frames : List PushedFrame}
    (hframes : core.framesToSend queueName requestId metaDict body expiry io.now = .ok frames)
    {keys : List ListKey} (hpushes : io.pushes = core.answers keys) :
    core.AllOrNothing queueName requestId metaDict body expiry io ↔
      ∀ k, 0 < k → k < frames.length → ¬ core.BlockedAfter k keys := by
  have hconnect : io.tick.getRedisConnection true = (.ok (), io.tick) := by
    simp [RedisIo.getRedisConnection, RedisIo.tick, hconnections]
  have htick : io.tick.pushes = core.answers keys := hpushes
  have hpushed : io.tick.pushed = io.pushed := rfl
  unfold AllOrNothing
  rw [core.sendMessage_eq queueName hid]
  simp only [hframes, hconnect, Except.ok.injEq, exists_eq_left']
  by_cases hfree : ∀ k < frames.length, ¬ core.BlockedAfter k keys
  · obtain ⟨hok, hall⟩ := pushFrames_of_not_blockedAfter queueName hfree htick
    exact ⟨fun _ k _ hk => hfree k hk, fun _ => .inl ⟨hok, hall⟩⟩
  · push Not at hfree
    obtain ⟨k, hk, hblocked⟩ := hfree
    obtain ⟨⟨e, he⟩, hsome⟩ := pushFrames_of_blockedAfter queueName hk hblocked htick
    constructor
    · rintro (⟨hok, -⟩ | ⟨-, hnothing⟩) j hpos hj hblockedj
      · rw [he] at hok
        cases hok
      · -- some frame has been appended, so the log has grown
        rw [(pushFrames_of_blockedAfter queueName hj hblockedj htick).2, hpushed] at hnothing
        have hlen := congrArg List.length hnothing
        rw [List.length_append, List.length_take_of_le hj.le] at hlen
        omega
    · intro hnone
      have hzero : k = 0 := by
        by_contra hne
        exact hnone k (Nat.pos_of_ne_zero hne) hk hblocked
      right
      refine ⟨⟨e, he⟩, ?_⟩
      rw [hsome, hzero, List.take_zero, List.append_nil, hpushed]

/-- A message goes out as a whole or not at all, unless the queue is found full at every attempt of
a frame after some frame of the message has been appended. -/
theorem allOrNothing_iff (core : RedisTransportCore) (queueName : String) (requestId : Value)
    (metaDict : Meta) (body : Value) (expiry : Option ℤ) {io : RedisIo} (hconnections : io.connections = [])
    {keys : List ListKey} (hpushes : io.pushes = core.answers keys) :
    core.AllOrNothing queueName requestId metaDict body expiry io ↔
      ¬ (requestId.isNone = false ∧ ∃ frames k,
        core.framesToSend queueName requestId metaDict body expiry io.now = .ok frames ∧
          0 < k ∧ k < frames.length ∧ core.BlockedAfter k keys) := by
  cases hid : requestId.isNone with
  | true => simp [AllOrNothing, sendMessage, hid]
  | false =>
    cases hframes : core.framesToSend queueName requestId metaDict body expiry io.now with
    | error e =>
      unfold AllOrNothing
      rw [core.sendMessage_eq queueName hid]
      simp [hframes, RedisIo.tick]
    | ok frames =>
      rw [allOrNothing_iff_of_frames hid hconnections hframes hpushes]
      constructor
      · rintro h ⟨-, _, k, heq, hpos, hk, hblocked⟩
        cases heq
        exact h k hpos hk hblocked
      · exact fun h k hpos hk hblocked => h ⟨rfl, frames, k, rfl, hpos, hk, hblocked⟩

/-- A server whose reply queues hold one message. -/
def narrowServer : RedisTransportCore :=
  { chunkingServer (PlainJson.serializer []) "example" with queueCapacity := 1 }

/-- The body of a response with the given content. -/
def filledBody (content : String) : Value :=
  .dict [(.text "errors", .list []), (.text "context", .dict []),
    (.text "actions", .list [.dict [(.text "action", .text "read"), (.text "errors", .list []),
      (.text "body", .dict [(.text "content", .text content)])]])]

lemma framesToSend_filledBody : ∃ frames,
    narrowServer.framesToSend "example.client!" (.int 1) {} (filledBody (filledText 102248 "x")) none 0 =
      .ok frames ∧ 1 < frames.length := by
  have hlen : ((filledBlob 102248 "x").length : ℤ) = 102407 := by
    rw [length_filledBlob]
    rfl
  have hentries : Dict.set [] "__expiry__" (.float (narrowServer.messageExpiry none 0)) =
      [(.text "__expiry__", .float 60)] := by
    rw [messageExpiry_none, zero_add]
    rfl
  have hmessage : ∀ content, (.dict [(.text "request_id", .int 1),
      (.text "meta", .dict [(.text "__expiry__", .float 60)]), (.text "body", filledBody content)] : Value) =
        filledResponse content := fun _ => rfl
  have hchunked := serializeCheckAndChunkMessage_chunked narrowServer rfl (by decide)
    (dictToBlob_filledResponse [] 102248 "x" (by decide)) (by rw [hlen]; decide) (by rw [hlen]; decide)
  rw [← hmessage, ← hentries] at hchunked
  refine ⟨_, narrowServer.framesToSend_of_ok "example.client!" (.int 1) {} _ none 0 hchunked, ?_⟩
  have hthreshold : (narrowServer.chunkMessagesLargerThanBytes.toNat : ℤ) = 102400 := rfl
  rw [List.length_map, chunkFrames, List.length_map, List.length_range]
  exact Slices.two_le_count (by decide) (by omega)

/-- A push into the queue of that server, which holds the frame for a minute. -/
def narrowPush (key : ListKey) : PushResult × ListKey :=
  key.sendMessageToQueue ⟨ascii "first", 60⟩ 60 narrowServer.queueCapacity 0

/-- Redis finds room for both frames: the client has read the first when the server pushes the second. -/
theorem allOrNothing_with_room :
    narrowServer.AllOrNothing "example.client!" (.int 1) {} (filledBody (filledText 102248 "x")) none
      { pushes := [(narrowPush {}).1, (narrowPush (narrowPush {}).2.pop).1] } := by
  have hpushes : [(narrowPush {}).1, (narrowPush (narrowPush {}).2.pop).1] =
      narrowServer.answers [{}, (narrowPush {}).2.pop] := by
    simp only [answers, narrowPush, ListKey.sendMessageToQueue_fst, List.map_cons, List.map_nil]
  refine (allOrNothing_iff narrowServer _ _ _ _ _ rfl hpushes).mpr ?_
  rintro ⟨-, frames, k, -, -, -, hblocked⟩
  exact not_blockedAfter_of_room (by decide) (by decide) hblocked

/-- The first frame fills the queue, and the client does not read it while the server tries to push
the second. -/
theorem not_allOrNothing_full :
    ¬ narrowServer.AllOrNothing "example.client!" (.int 1) {} (filledBody (filledText 102248 "x")) none
      { pushes := narrowServer.answers
          ({} :: List.replicate 11 { messages := [⟨ascii "first", 60⟩] }) } := by
  obtain ⟨frames, hframes, hlen⟩ := framesToSend_filledBody
  have hblocked : narrowServer.BlockedAfter 1
      ({} :: List.replicate 11 { messages := [⟨ascii "first", 60⟩] }) := by
    refine ⟨[], {}, _, rfl, by decide, by simp, by decide, _, [], (List.append_nil _).symm, rfl, ?_⟩
    intro key hkey
    rw [List.eq_of_mem_replicate hkey]
    decide
  rw [allOrNothing_iff_of_frames rfl rfl hframes rfl]
  exact fun h => h 1 Nat.one_pos hlen hblocked

end RedisTransportCore
end PySOA
