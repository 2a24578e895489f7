import Mathlib.Tactic.NormNum
import Mathlib.Tactic.Linarith
import PySOA.Lib.Runs
import PySOA.RedisGateway.Client

/-! The list key of a queue: the script that pushes a frame, pops, and the expiry of the key. -/
namespace PySOA

namespace RedisTransportCore
variable (core : RedisTransportCore)

/-- The expiry instant that `send_message` writes into the meta. -/
def messageExpiry (messageExpiryInSeconds : Option ℤ) (now : ℚ) : ℚ :=
  now + ((messageExpiryInSeconds.filter (· ≠ 0)).getD core.messageExpiryInSeconds : ℤ)

/-- The time to live that `send_message` passes to the script. -/
def redisExpiry (messageExpiryInSeconds : Option ℤ) : ℤ :=
  ((messageExpiryInSeconds.filter (· ≠ 0)).map (· + 10)).getD core.messageExpiryInSeconds

@[simp] lemma messageExpiry_none (now : ℚ) :
    core.messageExpiry none now = now + core.messageExpiryInSeconds := rfl

@[simp] lemma redisExpiry_none : core.redisExpiry none = core.messageExpiryInSeconds := rfl

lemma messageExpiry_some {seconds : ℤ} (h : seconds ≠ 0) (now : ℚ) :
    core.messageExpiry (some seconds) now = now + seconds := by
  simp [messageExpiry, Option.filter_some_pos, h]

lemma redisExpiry_some {seconds : ℤ} (h : seconds ≠ 0) : core.redisExpiry (some seconds) = seconds + 10 := by
  simp [redisExpiry, Option.filter_some_pos, h]

lemma pushFrames_pushed (queueName : String) (frames : List PushedFrame) (io : RedisIo) :
    ∃ n ≤ frames.length,
      (core.pushFrames queueName frames io).2.pushed = io.pushed ++ frames.take n ∧
        ((core.pushFrames queueName frames io).1 = .ok () → n = frames.length) := by
  induction frames generalizing io with
  | nil => exact ⟨0, le_rfl, by simp [pushFrames], fun _ => rfl⟩
  | cons frame frames ih =>
    unfold pushFrames
    split
    · exact ⟨0, Nat.zero_le _, by simp, by simp⟩
    · next pushes _ =>
      obtain ⟨n, hn, hpushed, hok⟩ := ih { io with pushes, pushed := io.pushed ++ [frame] }
      refine ⟨n+1, Nat.succ_le_succ hn, by simp [hpushed], ?_⟩
      intro h
      rw [hok h, List.length_cons]

/-- What `send_message` makes of its arguments before it connects to Redis: the frames to push. -/
def framesToSend (queueName : String) (requestId : Value) (metaDict : Meta) (body : Value)
    (expiry : Option ℤ) (now : ℚ) : Except Exc (List PushedFrame) :=
  let entries := metaDict.entries.set "__expiry__" (.float (core.messageExpiry expiry now))
  let protocolVersion := metaDict.protocolVersion.getD core.protocolVersion
  let serializer := metaDict.serializer.getD core.defaultSerializer
  match core.serializeCheckAndChunkMessage protocolVersion
    (.dict [(.text "request_id", requestId), (.text "meta", .dict entries), (.text "body", body)])
    serializer with
  | .error e => .error e
  | .ok messagesToSend => .ok (messagesToSend.map (fun frame =>
      ⟨"pysoa:" ++ queueName, frame, core.redisExpiry expiry, protocolVersion, serializer⟩))

lemma framesToSend_of_ok (queueName : String) (requestId : Value) (metaDict : Meta) (body : Value)
    (expiry : Option ℤ) (now : ℚ) {messages : List Bytes}
    (h : core.serializeCheckAndChunkMessage (metaDict.protocolVersion.getD core.protocolVersion)
      (.dict [(.text "request_id", requestId), (.text "meta", .dict
        (metaDict.entries.set "__expiry__" (.float (core.messageExpiry expiry now)))),
        (.text "body", body)]) (metaDict.serializer.getD core.defaultSerializer) = .ok messages) :
    core.framesToSend queueName requestId metaDict body expiry now =
      .ok (messages.map (fun frame => ⟨"pysoa:" ++ queueName, frame, core.redisExpiry expiry,
        metaDict.protocolVersion.getD core.protocolVersion,
        metaDict.serializer.getD core.defaultSerializer⟩)) := by
  simp only [framesToSend, h]

/-- All frames of a message have the same expiry and framing. -/
lemma of_mem_framesToSend {queueName : String} {requestId : Value} {metaDict : Meta}
    {body : Value} {expiry : Option ℤ} {now : ℚ} {frames : List PushedFrame}
    (h : core.framesToSend queueName requestId metaDict body expiry now = .ok frames) :
    ∀ frame ∈ frames, frame.redisExpiry = core.redisExpiry expiry ∧
      frame.protocolVersion = metaDict.protocolVersion.getD core.protocolVersion ∧
      frame.serializer = metaDict.serializer.getD core.defaultSerializer := by
  unfold framesToSend at h
  dsimp only at h
  split at h
  · cases h
  · cases h
    intro frame hframe
    obtain ⟨_, -, rfl⟩ := List.mem_map.mp hframe
    exact ⟨rfl, rfl, rfl⟩

/-- Sending in terms of the frames: once they are made, a connection is taken and they are pushed. -/
theorem sendMessage_eq (queueName : String) {requestId : Value} (hid : requestId.isNone = false)
    (metaDict : Meta) (body : Value) (expiry : Option ℤ) (io : RedisIo) :
    core.sendMessage queueName requestId metaDict body expiry io =
      let entries := metaDict.entries.set "__expiry__" (.float (core.messageExpiry expiry io.now))
      match core.framesToSend queueName requestId metaDict body expiry io.now with
      | .error e => (.error e, { entries }, io.tick)
      | .ok frames =>
        match io.tick.getRedisConnection true with
        | (.error e, io) => (.error e, { entries }, io)
        | (.ok (), io) =>
          let out := core.pushFrames queueName frames io
          (out.1, { entries }, out.2) := by
  unfold sendMessage framesToSend
  simp only [hid, Bool.false_eq_true, if_false]
  split
  · next h =>
    simp only [messageExpiry, h]
  · next h =>
    simp only [messageExpiry, h]
    rfl

/-- Every frame that `send_message` pushes carries the time to live of its call, and the meta dict
that goes into the message the expiry instant. -/
theorem sendMessage_expiry (queueName : String) {requestId : Value} (hid : requestId.isNone = false)
    (metaDict : Meta) (body : Value) (expiry : Option ℤ) (io : RedisIo) :
    (core.sendMessage queueName requestId metaDict body expiry io).2.1.entries =
        metaDict.entries.set "__expiry__" (.float (core.messageExpiry expiry io.now)) ∧
      ∃ frames, (core.sendMessage queueName requestId metaDict body expiry io).2.2.pushed =
        io.pushed ++ frames ∧ ∀ frame ∈ frames, frame.redisExpiry = core.redisExpiry expiry := by
  rw [core.sendMessage_eq queueName hid]
  dsimp only
  cases hframes : core.framesToSend queueName requestId metaDict body expiry io.now with
  | error e => exact ⟨rfl, [], by simp [RedisIo.tick], by simp⟩
  | ok frames =>
    obtain ⟨connections, hio, -⟩ := getRedisConnection_cases true io.tick
    generalize io.tick.getRedisConnection true = out at hio ⊢
    obtain ⟨result, io'⟩ := out
    dsimp only at hio
    subst hio
    cases result with
    | error e => exact ⟨rfl, [], by simp [RedisIo.tick], by simp⟩
    | ok u =>
      obtain ⟨n, -, hpushed, -⟩ := core.pushFrames_pushed queueName frames { io.tick with connections }
      refine ⟨rfl, frames.take n, hpushed, ?_⟩
      intro frame hframe
      exact (core.of_mem_framesToSend hframes frame (List.mem_of_mem_take hframe)).1

end RedisTransportCore

/-- A message in a queue and the expiry instant in its meta. -/
structure QueuedMessage where
  frame : Bytes
  expiry : ℚ
  deriving DecidableEq

/-- A list key of Redis. The log `dropped` holds the messages that the expiry of the key removed,
each with the instant at which it did. -/
structure ListKey where
  messages : List QueuedMessage := []
  expireAt : Option ℚ := none
  dropped : List (QueuedMessage × ℚ) := []

namespace ListKey

/-- The key is deleted by its expiry. -/
def delete (key : ListKey) (now : ℚ) : ListKey :=
  { dropped := key.dropped ++ key.messages.map (·, now) }

/-- What has happened to the key by the given time. -/
def expireBy (key : ListKey) (now : ℚ) : ListKey :=
  match key.expireAt with
  | none => key
  | some expireAt => if expireAt ≤ now then key.delete expireAt else key

lemma expireBy_of_le {key : ListKey} {expireAt now : ℚ} (h : key.expireAt = some expireAt)
    (hle : expireAt ≤ now) : key.expireBy now = key.delete expireAt := by
  simp only [expireBy, h, hle, if_true]

lemma expireBy_of_lt {key : ListKey} {expireAt now : ℚ} (h : key.expireAt = some expireAt)
    (hlt : now < expireAt) : key.expireBy now = key := by
  simp only [expireBy, h, not_le.mpr hlt, if_false]

/-- The command `EXPIRE`: it replaces the time to live, and one that is not positive deletes the
key at once. -/
def expire (key : ListKey) (seconds : ℤ) (now : ℚ) : ListKey :=
  if seconds ≤ 0 then key.delete now else { key with expireAt := some (now + seconds) }

/-- The script of `SendMessageToQueueCommand`. -/
def sendMessageToQueue (key : ListKey) (message : QueuedMessage) (expiry capacity : ℤ) (now : ℚ) :
    PushResult × ListKey :=
  if capacity ≤ key.messages.length then (.queueFull, key)
  else (.appended, { key with messages := key.messages ++ [message] }.expire expiry now)

/-- A pop takes the message at the head. A list that becomes empty takes its key with it. -/
def pop (key : ListKey) : ListKey :=
  match key.messages with
  | [] | [_] => { key with messages := [], expireAt := none }
  | _ :: messages => { key with messages }

/-- What clients do to a queue: one of them, with the given settings, pushes a frame of a message
for which it read the clock before, or one of them pops. Time passes in between, and also without
either. -/
inductive Event
  | push (core : RedisTransportCore) (messageExpiryInSeconds : Option ℤ) (sent now : ℚ) (frame : Bytes)
  | pop (now : ℚ)
  | wait (now : ℚ)

namespace Event

def now : Event → ℚ
  | push _ _ _ now _ => now
  | pop now => now
  | wait now => now

/-- A frame is pushed after `send_message` has read the clock. -/
def InOrder : Event → Prop
  | push _ _ sent now _ => sent ≤ now
  | _ => True

end Event

def step (key : ListKey) (event : Event) : ListKey :=
  match event with
  | .push core messageExpiryInSeconds sent now frame =>
    ((key.expireBy now).sendMessageToQueue ⟨frame, core.messageExpiry messageExpiryInSeconds sent⟩
      (core.redisExpiry messageExpiryInSeconds) core.queueCapacity now).2
  | .pop now => (key.expireBy now).pop
  | .wait now => key.expireBy now

/-- The time to live that a push sets covers the messages that it finds in the list. -/
def Covers (key : ListKey) : Event → Prop
  | .push core messageExpiryInSeconds _ now _ =>
    (key.expireBy now).messages.length < core.queueCapacity →
      ∀ message ∈ (key.expireBy now).messages,
        message.expiry ≤ now + max 0 (core.redisExpiry messageExpiryInSeconds : ℚ)
  | _ => True

/-- No message was dropped while it was live, and none will be when the key expires. -/
structure Safe (key : ListKey) : Prop where
  dropped : ∀ entry ∈ key.dropped, entry.1.expiry ≤ entry.2
  covered : ∀ expireAt, key.expireAt = some expireAt → ∀ message ∈ key.messages, message.expiry ≤ expireAt

lemma safe_delete {key : ListKey} {now : ℚ} (h : ∀ entry ∈ key.dropped, entry.1.expiry ≤ entry.2)
    (hnow : ∀ message ∈ key.messages, message.expiry ≤ now) : (key.delete now).Safe := by
  constructor
  · intro entry hentry
    rcases List.mem_append.mp hentry with hentry | hentry
    · exact h entry hentry
    · obtain ⟨message, hmessage, rfl⟩ := List.mem_map.mp hentry
      exact hnow message hmessage
  · intro expireAt hexpire
    cases hexpire

lemma Safe.expireBy {key : ListKey} (h : key.Safe) (now : ℚ) : (key.expireBy now).Safe := by
  unfold ListKey.expireBy
  split
  · exact h
  · next expireAt hexpire =>
    split_ifs
    · exact safe_delete h.dropped (h.covered expireAt hexpire)
    · exact h

lemma Safe.pop {key : ListKey} (h : key.Safe) : key.pop.Safe := by
  unfold ListKey.pop
  split
  · exact ⟨h.dropped, by simp⟩
  · exact ⟨h.dropped, by simp⟩
  · next head messages heq =>
    refine ⟨h.dropped, fun expireAt hexpire message hmessage => ?_⟩
    exact h.covered expireAt hexpire message (by rw [heq]; exact List.mem_cons_of_mem _ hmessage)

/-- A message never outlives the time to live that its own push sets, on either path. -/
lemma messageExpiry_le (core : RedisTransportCore) (messageExpiryInSeconds : Option ℤ) {sent now : ℚ}
    (h : sent ≤ now) : core.messageExpiry messageExpiryInSeconds sent ≤
      now + max 0 (core.redisExpiry messageExpiryInSeconds : ℚ) := by
  unfold RedisTransportCore.messageExpiry RedisTransportCore.redisExpiry
  cases messageExpiryInSeconds.filter (· ≠ 0) with
  | none =>
    -- the default path: the time to live is the expiry, and it starts later
    have hmax := le_max_right (0 : ℚ) (core.messageExpiryInSeconds : ℚ)
    simp only [Option.map_none, Option.getD_none]
    linarith
  | some seconds =>
    have hmax := le_max_right (0 : ℚ) ((seconds + 10 : ℤ) : ℚ)
    simp only [Option.map_some, Option.getD_some]
    push_cast at hmax ⊢
    linarith

lemma Safe.push {key : ListKey} (h : key.Safe) {core : RedisTransportCore}
    {messageExpiryInSeconds : Option ℤ} {sent now : ℚ} {frame : Bytes} (hsent : sent ≤ now)
    (hcovers : key.messages.length < core.queueCapacity → ∀ message ∈ key.messages,
      message.expiry ≤ now + max 0 (core.redisExpiry messageExpiryInSeconds : ℚ)) :
    (key.sendMessageToQueue ⟨frame, core.messageExpiry messageExpiryInSeconds sent⟩
      (core.redisExpiry messageExpiryInSeconds) core.queueCapacity now).2.Safe := by
  unfold sendMessageToQueue
  split_ifs with hfull
  · exact h
  · have hall : ∀ message ∈ key.messages ++
        [⟨frame, core.messageExpiry messageExpiryInSeconds sent⟩],
        message.expiry ≤ now + max 0 (core.redisExpiry messageExpiryInSeconds : ℚ) := by
      intro message hmessage
      rcases List.mem_append.mp hmessage with hmessage | hmessage
      · exact hcovers (not_le.mp hfull) message hmessage
      · rw [List.mem_singleton.mp hmessage]
        exact messageExpiry_le core messageExpiryInSeconds hsent
    unfold ListKey.expire
    split_ifs with hneg
    · have hcast : (core.redisExpiry messageExpiryInSeconds : ℚ) ≤ 0 := by exact_mod_cast hneg
      rw [max_eq_left hcast, add_zero] at hall
      exact safe_delete h.dropped hall
    · have hcast : (0 : ℚ) ≤ (core.redisExpiry messageExpiryInSeconds : ℚ) := by
        exact_mod_cast (not_le.mp hneg).le
      rw [max_eq_right hcast] at hall
      refine ⟨h.dropped, ?_⟩
      rintro expireAt hexpire message hmessage
      cases hexpire
      exact hall message hmessage

lemma Safe.step {key : ListKey} (h : key.Safe) {event : Event} (horder : event.InOrder)
    (hcovers : key.Covers event) : (key.step event).Safe := by
  cases event with
  | push core messageExpiryInSeconds sent now frame => exact (h.expireBy now).push horder hcovers
  | pop now => exact (h.expireBy now).pop
  | wait now => exact h.expireBy now

/-- In a run in which every push covers the messages that it finds in the list, the expiry of the
key removes no message before the instant in its meta. -/
theorem expiry_le_of_dropped {events : List Event} (horder : ∀ event ∈ events, event.InOrder)
    (hcovers : Runs.Along step Covers {} events) :
    ∀ entry ∈ (Runs.run step {} events).dropped, entry.1.expiry ≤ entry.2 := by
  have hstart : Safe {} := ⟨by simp, by simp⟩
  suffices h : ∀ key : ListKey, key.Safe → Runs.Along step Covers key events →
      (Runs.run step key events).Safe from (h {} hstart hcovers).dropped
  clear hcovers
  induction events with
  | nil => exact fun key h _ => h
  | cons event events ih =>
    intro key h hrun
    have hevent := h.step (horder event List.mem_cons_self) hrun.1
    exact ih (fun e he => horder e (List.mem_cons_of_mem _ he)) _ hevent hrun.2

/-- A push that finds room in a list whose time has not come. -/
lemma step_push {key : ListKey} {core : RedisTransportCore} {messageExpiryInSeconds : Option ℤ}
    {sent now : ℚ} {frame : Bytes} (hexpire : key.expireBy now = key)
    (hroom : key.messages.length < core.queueCapacity) (hpos : 0 < core.redisExpiry messageExpiryInSeconds) :
    key.step (.push core messageExpiryInSeconds sent now frame) =
      { key with
        messages := key.messages ++ [⟨frame, core.messageExpiry messageExpiryInSeconds sent⟩]
        expireAt := some (now + core.redisExpiry messageExpiryInSeconds) } := by
  simp only [ListKey.step, hexpire, sendMessageToQueue, not_le.mpr hroom, if_false, ListKey.expire,
    not_le.mpr hpos]

/-- A client with the default settings. -/
def exampleCore : RedisTransportCore := .defaultClient (PlainJson.serializer []) "example"

/-- Two messages with the default expiry of a minute: each push covers the messages before it. -/
theorem expiry_le_of_dropped_defaults :
    exampleCore.messageExpiryInSeconds = 60 ∧
    ∀ entry ∈ (Runs.run step {} [.push exampleCore none 0 0 [1], .push exampleCore none 1 1 [2],
      .wait 100]).dropped, entry.1.expiry ≤ entry.2 := by
  have hexpiry : exampleCore.messageExpiryInSeconds = 60 := rfl
  refine ⟨hexpiry, expiry_le_of_dropped (by simp [Event.InOrder]) ⟨?_, ?_, trivial, trivial⟩⟩
  · simp [Covers, expireBy]
  · rw [step_push rfl (by decide) (by decide)]
    simp only [Covers, RedisTransportCore.messageExpiry_none, RedisTransportCore.redisExpiry_none, hexpiry]
    rw [expireBy_of_lt rfl (by norm_num)]
    intro _ message hmessage
    rw [List.mem_singleton.mp hmessage]
    norm_num

/-- A message that may wait for an hour is dropped after a minute when a message with the default
expiry is pushed behind it. -/
theorem not_expiry_le_of_dropped_hour :
    ¬ ∀ entry ∈ (Runs.run step {} [.push exampleCore (some 3600) 0 0 [1],
      .push exampleCore none 1 1 [2], .wait 100]).dropped, entry.1.expiry ≤ entry.2 := by
  have hexpiry : exampleCore.messageExpiryInSeconds = 60 := rfl
  have hhour := exampleCore.messageExpiry_some (show (3600 : ℤ) ≠ 0 by decide) 0
  have hkey := exampleCore.redisExpiry_some (show (3600 : ℤ) ≠ 0 by decide)
  intro h
  rw [Runs.run_cons, step_push rfl (by decide) (by decide), hhour, hkey, Runs.run_cons,
    step_push (expireBy_of_lt rfl (by norm_num)) (by decide) (by decide), Runs.run_cons, step,
    expireBy_of_le rfl (by simp [hexpiry]; norm_num)] at h
  have hle := h (⟨[1], 0+(3600 : ℤ)⟩, 1 + (exampleCore.redisExpiry none : ℤ)) (by simp [delete])
  rw [RedisTransportCore.redisExpiry_none, hexpiry] at hle
  norm_num at hle

end ListKey
end PySOA
