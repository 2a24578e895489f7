import Mathlib.Logic.Function.Basic
import PySOA.Lib.Runs
import PySOA.RedisGateway.Framing

/-! Several servers push the frames of their chunked responses onto one reply queue, one frame
at a time, while a client receives from it. -/
namespace PySOA
open RedisTransportCore

/-- A version 3 response that its server cuts into chunks. -/
structure ChunkedResponse where
  server : RedisTransportCore
  serializer : Serializer
  message : Value
  blob : Bytes
  isServer : server.isServer = true
  enabled : 0 < server.chunkMessagesLargerThanBytes
  serialized : serializer.dictToBlob message = .ok blob
  long : server.chunkMessagesLargerThanBytes < blob.length
  fits : blob.length ≤ server.maximumMessageSizeInBytes

namespace ChunkedResponse
variable (response : ChunkedResponse)

/-- The length of a slice. -/
def size : ℕ := response.server.chunkMessagesLargerThanBytes.toNat

def chunkCount : ℕ := Slices.count response.blob.length response.size

def frame (i : ℕ) : Bytes :=
  chunkFrame .version3 response.serializer response.size response.chunkCount response.blob i

def chunk (i : ℕ) : Chunk :=
  chunkOf response.serializer response.size response.chunkCount response.blob i

/-- The frames from the one with the given index on. -/
def framesFrom (k : ℕ) : List Bytes :=
  (List.range' k (response.chunkCount-k)).map response.frame

def frames : List Bytes := response.framesFrom 0

/-- Every frame is read as the chunk that was put into it. -/
def Readable : Prop :=
  HeaderReadable response.serializer ∧
    ∀ i < response.chunkCount, matchHeader (Slices.slice response.size i response.blob) = none

lemma size_pos : 0 < response.size := by
  have := response.enabled
  unfold size
  omega

lemma two_le_chunkCount : 2 ≤ response.chunkCount := by
  have := response.long
  have := response.enabled
  exact Slices.two_le_count response.size_pos (by unfold size; omega)

/-- These are the frames that the server sends. -/
theorem serializeCheckAndChunkMessage_eq :
    response.server.serializeCheckAndChunkMessage .version3 response.message response.serializer =
      .ok response.frames := by
  rw [serializeCheckAndChunkMessage_chunked _ response.isServer response.enabled response.serialized
    response.long response.fits, frames, framesFrom, Nat.sub_zero, ← List.range_eq_range']
  rfl

lemma framesFrom_of_lt {k : ℕ} (h : k < response.chunkCount) :
    response.framesFrom k = response.frame k :: response.framesFrom (k+1) := by
  rw [framesFrom, show response.chunkCount-k = response.chunkCount-(k+1)+1 by omega,
    List.range'_succ, List.map_cons]
  rfl

lemma framesFrom_of_le {k : ℕ} (h : response.chunkCount ≤ k) : response.framesFrom k = [] := by
  rw [framesFrom, Nat.sub_eq_zero_of_le h]
  rfl

@[simp] theorem length_framesFrom (k : ℕ) :
    (response.framesFrom k).length = response.chunkCount-k := by
  simp [framesFrom]

/-- What a receiver has collected after the first frames. -/
def after (client : RedisTransportCore) (k : ℕ) : Reassembly where
  protocolVersion := .version3
  serializer := client.serializerFor (response.chunk 0).headers
  serializedMessage := (Slices.slices response.size k response.blob).flatten
  chunk := some (k, response.chunkCount)

lemma incomplete_after (client : RedisTransportCore) {k : ℕ} :
    (response.after client k).incomplete = decide (k < response.chunkCount) := by
  simp [Reassembly.incomplete, after]

lemma serializedMessage_after (client : RedisTransportCore) :
    (response.after client response.chunkCount).serializedMessage = response.blob :=
  Slices.flatten_slices response.size_pos response.blob

variable {response}

lemma firstFrame_eq {client : RedisTransportCore} (hclient : client.isServer = false)
    (hread : response.Readable) : client.firstFrame (response.frame 0) = .ok (response.after client 1) := by
  have hn := response.two_le_chunkCount
  have hc := read?_chunkFrame hread.1 (n := response.chunkCount) (hread.2 0 (by omega))
  obtain ⟨v, b, hv, hcount⟩ := hasChunkCount_of_read? hc
  refine (client.firstFrame_eq_ok hclient hv hcount).mpr ⟨_, hc, ?_⟩
  simp [after, Reassembly.ofChunk, chunkOf, chunk, Slices.slices]

lemma nextFrame_eq {client : RedisTransportCore} (hread : response.Readable) {k : ℕ}
    (hk : k < response.chunkCount) : client.nextFrame (response.after client k) (response.frame k) =
      .ok (response.after client (k+1)) := by
  have hc := read?_chunkFrame hread.1 (n := response.chunkCount) (hread.2 k hk)
  refine (client.nextFrame_eq_ok rfl).mpr ⟨_, hc, rfl, rfl, ?_⟩
  simp [after, Reassembly.add, chunkOf, Slices.slices, List.range_succ]

end ChunkedResponse

/-- The servers, the reply queue and the client. The receiver is the message that a call has
begun to collect; the delivered blobs are those that were passed to `blob_to_dict`. -/
structure Exchange (ι : Type*) where
  unsent : ι → List Bytes
  queue : List Bytes := []
  receiver : Option Reassembly := none
  delivered : List Bytes := []

/-- A server pushes its next frame, the client pops one, or the call of the client ends without
one, by a timeout or an error of Redis. -/
inductive ExchangeOp (ι : Type*)
  | push (i : ι)
  | pop
  | abort

namespace Exchange
variable {ι : Type*} [DecidableEq ι]

def initial (responses : ι → ChunkedResponse) : Exchange ι where
  unsent i := (responses i).frames

/-- What a call makes of the frame that it pops. -/
def received (client : RedisTransportCore) : Option Reassembly → Bytes → Except Exc Reassembly
  | none, frame => client.firstFrame frame
  | some r, frame => client.nextFrame r frame

def step (client : RedisTransportCore) (s : Exchange ι) : ExchangeOp ι → Exchange ι
  | .push i =>
    match s.unsent i with
    | [] => s
    | frame :: frames =>
      { s with unsent := Function.update s.unsent i frames, queue := s.queue ++ [frame] }
  | .pop =>
    match s.queue with
    | [] => s
    | frame :: queue =>
      match received client s.receiver frame with
      | .error _ => { s with queue, receiver := none }
      | .ok r =>
        if r.incomplete then { s with queue, receiver := some r }
        else { s with queue, receiver := none, delivered := s.delivered ++ [r.serializedMessage] }
  | .abort => { s with receiver := none }

section calls
variable (client : RedisTransportCore)

/-- The step that corresponds to an answer of Redis to a call. -/
def opOf : Blpop → ExchangeOp ι
  | .message _ => .pop
  | _ => .abort

/-- The frames among the answers of Redis. -/
def framesOf (pops : List Blpop) : List Bytes :=
  pops.filterMap fun
    | .message frame => some frame
    | _ => none

/-- A call from the point where it has collected what the receiver holds. -/
def resume : Option Reassembly → List Blpop → Except Exc Reassembly × List Blpop
  | none, pops => client.receiveFrames pops
  | some r, pops => client.collectChunks r pops

/-- The blob that a call delivers, if it delivers one. -/
def blobOf : Except Exc Reassembly → List Bytes
  | .ok r => [r.serializedMessage]
  | .error _ => []

lemma resume_nil {receiver : Option Reassembly} (h : ∀ r ∈ receiver, r.incomplete = true) :
    resume client receiver [] = (.error client.receiveTimeout, []) := by
  cases receiver with
  | none => rfl
  | some r => exact client.collectChunks_nil_of_incomplete (h r rfl)

lemma resume_message {receiver : Option Reassembly} (h : ∀ r ∈ receiver, r.incomplete = true)
    (frame : Bytes) (pops : List Blpop) : resume client receiver (.message frame :: pops) =
      match received client receiver frame with
      | .error e => (.error e, pops)
      | .ok r => client.collectChunks r pops := by
  cases receiver with
  | none =>
    cases hfirst : client.firstFrame frame <;>
      simp [resume, receiveFrames, popResult, bind, Except.bind, received, hfirst]
  | some r =>
    cases hnext : client.nextFrame r frame <;>
      simp [resume, collectChunks, h r rfl, popResult, received, hnext]

lemma resume_of_not_message {receiver : Option Reassembly} (h : ∀ r ∈ receiver, r.incomplete = true)
    {p : Blpop} (hp : ∀ frame, p ≠ .message frame) (pops : List Blpop) :
    ∃ e, resume client receiver (p :: pops) = (.error e, pops) := by
  cases receiver with
  | none => cases p <;> simp [resume, receiveFrames, popResult, bind, Except.bind] at hp ⊢
  | some r => cases p <;> simp [resume, collectChunks, h r rfl, popResult] at hp ⊢

/-- A call takes some answers of Redis; as steps of the exchange these have the effect that the
blob of the call is delivered. -/
theorem run_call (pops : List Blpop) {receiver : Option Reassembly}
    (h : ∀ r ∈ receiver, r.incomplete = true) : ∃ used, pops = used ++ (resume client receiver pops).2 ∧
      ∀ (unsent : ι → List Bytes) (queue delivered : List Bytes),
        Runs.run (step client) ⟨unsent, framesOf used ++ queue, receiver, delivered⟩
            (used.map opOf ++ [.abort]) =
          ⟨unsent, queue, none, delivered ++ blobOf (resume client receiver pops).1⟩ := by
  induction pops generalizing receiver with
  | nil =>
    rw [resume_nil client h]
    exact ⟨[], rfl, by simp [framesOf, step, blobOf]⟩
  | cons p pops ih =>
    by_cases hp : ∃ frame, p = .message frame
    · obtain ⟨frame, rfl⟩ := hp
      rw [resume_message client h]
      cases hr : received client receiver frame with
      | error e =>
        simp only
        refine ⟨[.message frame], rfl, fun unsent queue delivered => ?_⟩
        simp [framesOf, opOf, step, hr, blobOf]
      | ok r =>
        by_cases hinc : r.incomplete = true
        · have hmore : ∀ r' ∈ some r, r'.incomplete = true := by simpa using hinc
          obtain ⟨used, hused, hrun⟩ := ih hmore
          refine ⟨.message frame :: used, congrArg _ hused, fun unsent queue delivered => ?_⟩
          simpa [framesOf, opOf, step, hr, hinc, resume] using hrun unsent queue delivered
        · have hwhole : r.incomplete = false := by simpa using hinc
          simp only [client.collectChunks_of_complete hwhole]
          refine ⟨[.message frame], rfl, fun unsent queue delivered => ?_⟩
          simp [framesOf, opOf, step, hr, hwhole, blobOf]
    · push Not at hp
      obtain ⟨e, he⟩ := resume_of_not_message client h hp pops
      refine ⟨[p], by rw [he]; rfl, fun unsent queue delivered => ?_⟩
      rw [he]
      cases p with
      | message frame => exact absurd rfl (hp frame)
      | nothing => simp [framesOf, opOf, step, blobOf]
      | failure cls => simp [framesOf, opOf, step, blobOf]

end calls

variable (responses : ι → ChunkedResponse) (client : RedisTransportCore)

/-- A server has pushed some of its frames, but not all. -/
def Underway (s : Exchange ι) (i : ι) : Prop :=
  s.unsent i ≠ [] ∧ s.unsent i ≠ (responses i).frames

/-- Nothing disturbs the order of the queue: a server only pushes while no other server has a
response under way, and no call ends in the middle of a message. -/
def Undisturbed (s : Exchange ι) : ExchangeOp ι → Prop
  | .push i => ∀ j, j ≠ i → ¬ Underway responses s j
  | .pop => True
  | .abort => s.receiver = none

/-- The frames that the receiver still waits for. -/
def Awaited : Option Reassembly → List Bytes → Prop
  | none, frames => frames = []
  | some r, frames => ∃ i k, 0 < k ∧ k < (responses i).chunkCount ∧
      r = (responses i).after client k ∧ frames = (responses i).framesFrom k

/-- The frames that the server with a response under way has not pushed yet. -/
def Outstanding (s : Exchange ι) (frames : List Bytes) : Prop :=
  (frames = [] ∧ ∀ i, ¬ Underway responses s i) ∨
    ∃ i, Underway responses s i ∧ frames = s.unsent i ∧ ∀ j, j ≠ i → ¬ Underway responses s j

/-- The queue, completed by what is under way, is what the receiver waits for and then whole
responses. -/
structure InOrder (s : Exchange ι) : Prop where
  unsent : ∀ i, ∃ k, s.unsent i = (responses i).framesFrom k
  line : ∃ (awaited : List Bytes) (order : List ι) (outstanding : List Bytes),
    s.queue ++ outstanding = awaited ++ order.flatMap (fun i => (responses i).frames) ∧
    Awaited responses client s.receiver awaited ∧ Outstanding responses s outstanding
  delivered : ∀ b ∈ s.delivered, ∃ i, b = (responses i).blob

variable {responses client}

omit [DecidableEq ι] in
lemma underway_iff {s : Exchange ι} {i : ι} {k : ℕ} (h : s.unsent i = (responses i).framesFrom k) :
    Underway responses s i ↔ 0 < k ∧ k < (responses i).chunkCount := by
  have hn := (responses i).two_le_chunkCount
  rw [Underway, h]
  constructor
  · rintro ⟨hne, hall⟩
    refine ⟨?_, ?_⟩
    · by_contra hk
      exact hall (by rw [Nat.eq_zero_of_not_pos hk]; rfl)
    · by_contra hk
      exact hne ((responses i).framesFrom_of_le (by omega))
  · rintro ⟨hpos, hlt⟩
    refine ⟨fun hnil => ?_, fun hall => ?_⟩
    · have := congrArg List.length hnil
      simp only [ChunkedResponse.length_framesFrom, List.length_nil] at this
      omega
    · have := congrArg List.length hall
      simp only [ChunkedResponse.frames, ChunkedResponse.length_framesFrom] at this
      omega

omit [DecidableEq ι] in
lemma inOrder_initial : InOrder responses client (initial responses) := by
  refine ⟨fun i => ⟨0, rfl⟩, ⟨[], [], [], rfl, rfl, Or.inl ⟨rfl, fun i h => h.2 rfl⟩⟩, ?_⟩
  intro b hb
  cases hb

lemma outstanding_eq {s : Exchange ι} {i : ι} {frames : List Bytes}
    (h : Outstanding responses s frames) (halone : ∀ j, j ≠ i → ¬ Underway responses s j) :
    (Underway responses s i → frames = s.unsent i) ∧ (¬ Underway responses s i → frames = []) := by
  rcases h with ⟨hnil, hnone⟩ | ⟨j, hj, hframes, -⟩
  · exact ⟨fun hi => absurd hi (hnone i), fun _ => hnil⟩
  · have hji : j = i := by
      by_contra hne
      exact halone j hne hj
    subst hji
    exact ⟨fun _ => hframes, fun hi => absurd hj hi⟩

/-- A push by the only server with a response under way moves a frame from the outstanding ones
to the queue, or begins a new response. -/
lemma InOrder.push {s : Exchange ι} (hs : InOrder responses client s) {i : ι}
    (halone : ∀ j, j ≠ i → ¬ Underway responses s j) :
    InOrder responses client (step client s (.push i)) := by
  obtain ⟨k, hk⟩ := hs.unsent i
  have hn := (responses i).two_le_chunkCount
  by_cases hlt : k < (responses i).chunkCount
  · have hcons := hk.trans ((responses i).framesFrom_of_lt hlt)
    simp only [step, hcons]
    obtain ⟨awaited, order, outstanding, hline, hrec, hout⟩ := hs.line
    obtain ⟨hunder, hnot⟩ := outstanding_eq hout halone
    let s' : Exchange ι := { s with
      unsent := Function.update s.unsent i ((responses i).framesFrom (k+1))
      queue := s.queue ++ [(responses i).frame k] }
    have hself : s'.unsent i = (responses i).framesFrom (k+1) := Function.update_self ..
    have hother : ∀ j, j ≠ i → s'.unsent j = s.unsent j := fun j hj => Function.update_of_ne hj ..
    have halone' : ∀ j, j ≠ i → ¬ Underway responses s' j := by
      intro j hj hu
      rw [Underway, hother j hj] at hu
      exact halone j hj hu
    have hout' : Outstanding responses s' ((responses i).framesFrom (k+1)) := by
      by_cases hlast : k+1 < (responses i).chunkCount
      · exact Or.inr ⟨i, (underway_iff hself).mpr ⟨by omega, hlast⟩, hself.symm, halone'⟩
      · refine Or.inl ⟨(responses i).framesFrom_of_le (by omega), fun j hu => ?_⟩
        by_cases hj : j = i
        · subst hj
          exact hlast ((underway_iff hself).mp hu).2
        · exact halone' j hj hu
    refine ⟨fun j => ?_, ?_, hs.delivered⟩
    · by_cases hj : j = i
      · subst hj
        exact ⟨k+1, hself⟩
      · obtain ⟨m, hm⟩ := hs.unsent j
        exact ⟨m, (hother j hj).trans hm⟩
    · rcases Nat.eq_zero_or_pos k with rfl | hpos
      · -- the response begins: nothing was outstanding, and it joins the end of the line
        have hnil := hnot fun hu => absurd ((underway_iff hk).mp hu).1 (by omega)
        refine ⟨awaited, order ++ [i], _, ?_, hrec, hout'⟩
        rw [hnil, List.append_nil] at hline
        rw [List.append_assoc, List.singleton_append, ← (responses i).framesFrom_of_lt hlt, hline]
        simp [ChunkedResponse.frames]
      · refine ⟨awaited, order, _, ?_, hrec, hout'⟩
        rw [hunder ((underway_iff hk).mpr ⟨hpos, hlt⟩), hcons] at hline
        rw [List.append_assoc, List.singleton_append, hline]
  · have hnil := hk.trans ((responses i).framesFrom_of_le (by omega))
    simp only [step, hnil]
    exact hs

omit [DecidableEq ι] in
/-- The frame at the head of the queue continues what the receiver has collected. -/
lemma received_of_line (hclient : client.isServer = false) (hread : ∀ i, (responses i).Readable)
    {s : Exchange ι} {frame : Bytes} {rest awaited : List Bytes} {order : List ι}
    (hline : frame :: rest = awaited ++ order.flatMap (fun i => (responses i).frames))
    (hrec : Awaited responses client s.receiver awaited) :
    ∃ (i : ι) (k : ℕ) (order' : List ι), k < (responses i).chunkCount ∧
      received client s.receiver frame = .ok ((responses i).after client (k+1)) ∧
      rest = (responses i).framesFrom (k+1) ++ order'.flatMap (fun i => (responses i).frames) := by
  cases hr : s.receiver with
  | none =>
    rw [hr] at hrec
    obtain rfl : awaited = [] := hrec
    cases order with
    | nil => cases hline
    | cons i order =>
      have hn := (responses i).two_le_chunkCount
      rw [List.nil_append, List.flatMap_cons, ChunkedResponse.frames,
        (responses i).framesFrom_of_lt (by omega), List.cons_append] at hline
      obtain ⟨rfl, rfl⟩ := List.cons.inj hline
      exact ⟨i, 0, order, by omega, ChunkedResponse.firstFrame_eq hclient (hread i), rfl⟩
  | some r =>
    rw [hr] at hrec
    obtain ⟨i, k, -, hlt, rfl, rfl⟩ := hrec
    rw [(responses i).framesFrom_of_lt hlt, List.cons_append] at hline
    obtain ⟨rfl, rfl⟩ := List.cons.inj hline
    exact ⟨i, k, order, hlt, ChunkedResponse.nextFrame_eq (hread i) hlt, rfl⟩

lemma InOrder.pop (hclient : client.isServer = false) (hread : ∀ i, (responses i).Readable)
    {s : Exchange ι} (hs : InOrder responses client s) :
    InOrder responses client (step client s .pop) := by
  cases hq : s.queue with
  | nil =>
    simp only [step, hq]
    exact hs
  | cons frame queue =>
    obtain ⟨awaited, order, outstanding, hline, hrec, hout⟩ := hs.line
    rw [hq, List.cons_append] at hline
    obtain ⟨i, k, order', hlt, hreceived, hrest⟩ := received_of_line hclient hread hline hrec
    simp only [step, hq, hreceived, ChunkedResponse.incomplete_after]
    by_cases hlast : k+1 < (responses i).chunkCount
    · simp only [hlast, decide_true, if_true]
      exact ⟨hs.unsent, ⟨_, order', outstanding, hrest, ⟨i, k+1, by omega, hlast, rfl, rfl⟩, hout⟩,
        hs.delivered⟩
    · simp only [hlast, decide_false, Bool.false_eq_true, if_false]
      rw [(responses i).framesFrom_of_le (by omega)] at hrest
      refine ⟨hs.unsent, ⟨_, order', outstanding, hrest, rfl, hout⟩, fun b hb => ?_⟩
      rcases List.mem_append.mp hb with hb | hb
      · exact hs.delivered b hb
      · refine ⟨i, ?_⟩
        rw [List.mem_singleton.mp hb, show k+1 = (responses i).chunkCount by omega,
          ChunkedResponse.serializedMessage_after]

lemma InOrder.step (hclient : client.isServer = false) (hread : ∀ i, (responses i).Readable)
    (s : Exchange ι) (op : ExchangeOp ι) (hop : Undisturbed responses s op)
    (hs : InOrder responses client s) : InOrder responses client (step client s op) := by
  cases op with
  | push i => exact hs.push hop
  | pop => exact hs.pop hclient hread
  | abort =>
    have hsame : Exchange.step client s .abort = s := by
      simp only [Exchange.step, ← (show s.receiver = none from hop)]
    rw [hsame]
    exact hs

/-- While the queue is undisturbed, every byte string that is passed to `blob_to_dict` is the
whole message of one server. -/
theorem delivered_of_undisturbed (responses : ι → ChunkedResponse) {client : RedisTransportCore}
    (hclient : client.isServer = false) (hread : ∀ i, (responses i).Readable)
    {ops : List (ExchangeOp ι)}
    (hops : Runs.Along (step client) (Undisturbed responses) (initial responses) ops) :
    ∀ b ∈ (Runs.run (step client) (initial responses) ops).delivered,
      ∃ i, b = (responses i).blob :=
  (hops.invariant (InOrder.step hclient hread) inOrder_initial).delivered

lemma frames_of_two {response : ChunkedResponse} (h : response.chunkCount = 2) :
    response.frames = [response.frame 0, response.frame 1] := by
  rw [ChunkedResponse.frames, response.framesFrom_of_lt (by omega),
    response.framesFrom_of_lt (by omega), response.framesFrom_of_le (by omega)]

lemma undisturbed_one_after_the_other {responses : Bool → ChunkedResponse}
    (h : ∀ b, (responses b).chunkCount = 2) (client : RedisTransportCore) :
    Runs.Along (step client) (Undisturbed responses) (initial responses)
      [.push true, .push true, .push false, .push false, .pop, .pop, .pop, .pop] := by
  have hframes := fun b => frames_of_two (h b)
  simp [Runs.Along, Undisturbed, Underway, initial, step, hframes]

/-- Two servers push their two frames alternately: the first call fails on the second frame, and
the next call takes the third frame, which carries the last id, for a whole message. -/
lemma delivered_alternately {responses : Bool → ChunkedResponse}
    (h : ∀ b, (responses b).chunkCount = 2) (hread : ∀ b, (responses b).Readable)
    (hclient : client.isServer = false) :
    (Runs.run (step client) (initial responses)
      [.push true, .push false, .push true, .push false, .pop, .pop, .pop]).delivered =
      [Slices.slice (responses true).size 1 (responses true).blob] := by
  have hframes := fun b => frames_of_two (h b)
  have hfirst : client.firstFrame ((responses true).frame 0) = .ok ((responses true).after client 1) :=
    ChunkedResponse.firstFrame_eq hclient (hread true)
  have hinc : ((responses true).after client 1).incomplete = true := by
    simp [ChunkedResponse.incomplete_after, h]
  obtain ⟨e, herror⟩ : ∃ e, client.nextFrame ((responses true).after client 1)
      ((responses false).frame 0) = .error e := by
    cases hn : client.nextFrame ((responses true).after client 1) ((responses false).frame 0) with
    | error e => exact ⟨e, rfl⟩
    | ok r =>
      obtain ⟨c, hc, hid, -⟩ := (client.nextFrame_eq_ok rfl).mp hn
      have hzero := read?_chunkFrame (hread false).1 (n := (responses false).chunkCount)
        ((hread false).2 0 (by rw [h]; decide))
      cases hc.symm.trans hzero
      exact absurd hid (by simp [chunkOf])
  have hone := read?_chunkFrame (hread true).1 (n := (responses true).chunkCount)
    ((hread true).2 1 (by rw [h]; decide))
  have hlast : client.firstFrame ((responses true).frame 1) =
      .ok (.ofChunk (client.serializerFor ((responses true).chunk 1).headers) ((responses true).chunk 1)) := by
    obtain ⟨v, b, hv, hcount⟩ := hasChunkCount_of_read? hone
    exact (client.firstFrame_eq_ok hclient hv hcount).mpr ⟨_, hone, rfl⟩
  have hwhole : (Reassembly.ofChunk (client.serializerFor ((responses true).chunk 1).headers)
      ((responses true).chunk 1)).incomplete = false := by
    simp [Reassembly.incomplete, Reassembly.ofChunk, ChunkedResponse.chunk, chunkOf, h]
  simp [initial, step, hframes, received, hfirst, hinc, herror, hlast, hwhole]
  rfl

/-- The response of a server that just needs a second chunk for its tail. -/
def filled (tail : String) (hplain : tail.toList.all PlainJson.plain = true)
    (hshort : (ascii tail).length ≤ 146) : ChunkedResponse where
  server := chunkingServer (PlainJson.serializer []) "example"
  serializer := PlainJson.serializer []
  message := filledResponse (filledText 102248 tail)
  blob := filledBlob 102248 tail
  isServer := rfl
  enabled := by decide
  serialized := dictToBlob_filledResponse [] 102248 tail hplain
  long := by
    rw [length_filledBlob]
    change (102400 : ℤ) < _
    omega
  fits := by
    rw [length_filledBlob]
    change _ ≤ (512000 : ℤ)
    omega

lemma chunkCount_filled {tail : String} (hplain : tail.toList.all PlainJson.plain = true)
    (hshort : (ascii tail).length ≤ 146) : (filled tail hplain hshort).chunkCount = 2 := by
  have hn := (filled tail hplain hshort).two_le_chunkCount
  have hlt : (filled tail hplain hshort).chunkCount < 3 := by
    change Slices.count (filledBlob 102248 tail).length (152+102248) < 3
    rw [Slices.count, length_filledBlob]
    exact Nat.div_lt_of_lt_mul (by omega)
  omega

lemma readable_filled {tail : String} (hplain : tail.toList.all PlainJson.plain = true)
    (hshort : (ascii tail).length ≤ 146)
    (hnone : matchHeader (ascii tail ++ ascii "\"\x7d\x7d]\x7d\x7d") = none) :
    (filled tail hplain hshort).Readable := by
  have hread : (defaultClient (PlainJson.serializer []) "example").ReadsSerializer
      (PlainJson.serializer []) := readsSerializer_of_resolve? _ (by decide) (by decide +kernel) rfl
  exact ⟨hread.1, matchHeader_slice_filledBlob 102248 hshort hnone⟩

/-- Two servers with two frames each. -/
def twoFilled : Bool → ChunkedResponse
  | true => filled "x" (by decide) (by decide)
  | false => filled "y" (by decide) (by decide)

lemma chunkCount_twoFilled (b : Bool) : (twoFilled b).chunkCount = 2 := by
  cases b <;> exact chunkCount_filled (by decide) (by decide)

lemma readable_twoFilled (b : Bool) : (twoFilled b).Readable := by
  cases b <;> exact readable_filled (by decide) (by decide) (matchHeader_eq_none_of_head (by decide) (by decide) _)

/-- Two responses, one after the other. -/
theorem delivered_one_after_the_other :
    {b | b ∈ (Runs.run (step (defaultClient (PlainJson.serializer []) "example")) (initial twoFilled)
      [.push true, .push true, .push false, .push false, .pop, .pop, .pop, .pop]).delivered} ⊆
      Set.range fun i => (twoFilled i).blob := by
  have hdelivered := delivered_of_undisturbed twoFilled
    (rfl : (defaultClient (PlainJson.serializer []) "example").isServer = false) readable_twoFilled
    (undisturbed_one_after_the_other chunkCount_twoFilled _)
  intro b hb
  rw [Set.mem_ofPred_eq] at hb
  obtain ⟨i, hi⟩ := hdelivered b hb
  exact ⟨i, hi.symm⟩

/-- Of two responses whose frames alternate, the last slice of one is delivered alone. -/
theorem delivered_alternately_last_slice :
    ∃ b ∈ (Runs.run (step (defaultClient (PlainJson.serializer []) "example")) (initial twoFilled)
      [.push true, .push false, .push true, .push false, .pop, .pop, .pop]).delivered,
      ∀ i, b ≠ (twoFilled i).blob := by
  rw [delivered_alternately chunkCount_twoFilled readable_twoFilled rfl]
  refine ⟨_, List.mem_singleton_self _, fun i heq => ?_⟩
  have hle := Slices.slice_length_le (twoFilled true).size 1 (twoFilled true).blob
  have hlong : (102400 : ℤ) < (twoFilled i).blob.length := by
    cases i <;> exact (twoFilled _).long
  rw [heq] at hle
  have hsize : (twoFilled true).size = 102400 := rfl
  omega

end Exchange
end PySOA
