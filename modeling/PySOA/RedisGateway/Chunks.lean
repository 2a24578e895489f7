import PySOA.RedisGateway.Core

/-! What the receiver makes of a sequence of chunk frames: which frames one call takes off the
queue, and which chunks it puts together. -/
namespace PySOA

/-- What a frame with both chunk headers carries. -/
structure Chunk where
  protocolVersion : ProtocolVersion
  headers : Headers
  chunkId : ℤ
  chunkCount : ℤ
  payload : Bytes

namespace Chunk

/-- The chunk of a frame; there is none when a chunk header is missing or is no integer. -/
def read? (frame : Bytes) : Option Chunk :=
  match ProtocolVersion.extractVersion frame with
  | .error _ => none
  | .ok (protocolVersion, b) => do
    let headers := (extractSupportedHeaders b).1
    let chunkId ← headers.chunkId.bind Bytes.int?
    let chunkCount ← headers.chunkCount.bind Bytes.int?
    return ⟨protocolVersion, headers, chunkId, chunkCount, (extractSupportedHeaders b).2⟩

/-- The chunks carry consecutive ids from the given one on, and all the same count. -/
def Consecutive (chunkCount : ℤ) : ℤ → List Chunk → Prop
  | _, [] => True
  | chunkId, c :: chunks =>
    c.chunkId = chunkId ∧ c.chunkCount = chunkCount ∧ Consecutive chunkCount (chunkId+1) chunks

/-- The payloads put together. -/
def payloads (chunks : List Chunk) : Bytes := (chunks.map payload).flatten

/-- A whole message: the ids are 1 to the number of chunks, and every chunk carries that number
as its count. -/
def CompleteRun (chunks : List Chunk) : Prop :=
  chunks ≠ [] ∧ Consecutive chunks.length 1 chunks

end Chunk

namespace RedisTransportCore
variable (core : RedisTransportCore)

namespace Reassembly

/-- The state after the first chunk. -/
def ofChunk (serializer : Serializer) (c : Chunk) : Reassembly :=
  ⟨c.protocolVersion, serializer, c.payload, some (c.chunkId, c.chunkCount)⟩

/-- The state after one more chunk. -/
def add (r : Reassembly) (c : Chunk) : Reassembly :=
  ⟨c.protocolVersion, r.serializer, r.serializedMessage ++ c.payload, some (c.chunkId, c.chunkCount)⟩

@[simp] theorem foldl_add_serializer (r : Reassembly) (chunks : List Chunk) :
    (chunks.foldl add r).serializer = r.serializer := by
  induction chunks generalizing r with
  | nil => rfl
  | cons c chunks ih => exact ih (r.add c)

@[simp] theorem foldl_add_serializedMessage (r : Reassembly) (chunks : List Chunk) :
    (chunks.foldl add r).serializedMessage = r.serializedMessage ++ Chunk.payloads chunks := by
  induction chunks generalizing r with
  | nil => simp [Chunk.payloads]
  | cons c chunks ih =>
    rw [List.foldl_cons, ih]
    simp [add, Chunk.payloads]

lemma add_chunk (r : Reassembly) {c : Chunk} {chunkId chunkCount : ℤ} (hid : c.chunkId = chunkId)
    (hcount : c.chunkCount = chunkCount) : (r.add c).chunk = some (chunkId, chunkCount) := by
  simp [add, hid, hcount]

lemma incomplete_of_lt {r : Reassembly} {chunkId chunkCount : ℤ}
    (h : r.chunk = some (chunkId, chunkCount)) (hlt : chunkId < chunkCount) : r.incomplete = true := by
  simp [incomplete, h, hlt]

lemma complete_of_le {r : Reassembly} {chunkId chunkCount : ℤ}
    (h : r.chunk = some (chunkId, chunkCount)) (hle : chunkCount ≤ chunkId) : r.incomplete = false := by
  simp [incomplete, h, hle]

end Reassembly

/-- The first frame, when it carries a chunk count: a client accepts it if both chunk headers
are there and are integers. -/
theorem firstFrame_eq_ok (hclient : core.isServer = false) {frame b : Bytes} {v : ProtocolVersion}
    {r : Reassembly} (hframe : ProtocolVersion.extractVersion frame = .ok (v, b))
    (hcount : (extractSupportedHeaders b).1.chunkCount ≠ none) :
    core.firstFrame frame = .ok r ↔
      ∃ c, Chunk.read? frame = some c ∧ r = .ofChunk (core.serializerFor c.headers) c := by
  obtain ⟨count, hcount⟩ := Option.ne_none_iff_exists'.mp hcount
  simp only [firstFrame, hframe, hcount, hclient, Bool.false_eq_true, if_false, Chunk.read?]
  cases hid : (extractSupportedHeaders b).1.chunkId with
  | none => simp
  | some id =>
    cases hi : Bytes.int? id with
    | none => simp [readInt, hi]
    | some i =>
      cases hn : Bytes.int? count with
      | none => simp [readInt, hi, hn]
      | some n => simp [readInt, hi, hn, Reassembly.ofChunk, eq_comm]

/-- A further frame is accepted exactly when it carries the next id and the same count. -/
theorem nextFrame_eq_ok {r r' : Reassembly} {chunkId chunkCount : ℤ} {frame : Bytes}
    (hr : r.chunk = some (chunkId, chunkCount)) :
    core.nextFrame r frame = .ok r' ↔ ∃ c, Chunk.read? frame = some c ∧ c.chunkId = chunkId+1 ∧
      c.chunkCount = chunkCount ∧ r' = r.add c := by
  simp only [nextFrame, hr, Chunk.read?]
  cases hv : ProtocolVersion.extractVersion frame with
  | error e => simp
  | ok out =>
    obtain ⟨v, b⟩ := out
    cases hcount : (extractSupportedHeaders b).1.chunkCount with
    | none => simp [hcount]
    | some count =>
      cases hid : (extractSupportedHeaders b).1.chunkId with
      | none => simp [hcount, hid]
      | some id =>
        cases hn : Bytes.int? count with
        | none => simp [hcount, hid, readInt, hn]
        | some n =>
          cases hi : Bytes.int? id with
          | none => by_cases hne : n = chunkCount <;> simp [hcount, hid, readInt, hn, hi, hne]
          | some i =>
            by_cases hne : n = chunkCount
            · by_cases hie : i = chunkId+1 <;>
                simp [hcount, hid, readInt, hn, hi, hne, hie, Reassembly.add, eq_comm]
            · simp [hcount, hid, readInt, hn, hi, hne]

/-- The frames at the front of the answers of Redis that carry the given chunks. -/
def Carries (frames : List Bytes) (chunks : List Chunk) : Prop :=
  frames.map Chunk.read? = chunks.map some

lemma Carries.length_eq {frames : List Bytes} {chunks : List Chunk} (h : Carries frames chunks) :
    frames.length = chunks.length := by
  simpa [Carries] using congrArg List.length h

lemma carries_cons {frame : Bytes} {frames : List Bytes} {c : Chunk} {chunks : List Chunk} :
    Carries (frame :: frames) (c :: chunks) ↔ Chunk.read? frame = some c ∧ Carries frames chunks := by
  simp [Carries]

/-- The answers of Redis go on with the chunks that complete a message of the given count after
the given id; these take the given frames, and the rest is left. -/
structure Completes (chunkId chunkCount : ℤ) (pops rest : List Blpop) (frames : List Bytes)
    (chunks : List Chunk) : Prop where
  pops_eq : pops = frames.map .message ++ rest
  carries : Carries frames chunks
  consecutive : Chunk.Consecutive chunkCount (chunkId+1) chunks
  length_eq : chunks.length = (chunkCount-chunkId).toNat

lemma completes_of_le {chunkId chunkCount : ℤ} (hle : chunkCount ≤ chunkId) {pops rest : List Blpop}
    {frames : List Bytes} {chunks : List Chunk} :
    Completes chunkId chunkCount pops rest frames chunks ↔ frames = [] ∧ chunks = [] ∧ pops = rest := by
  constructor
  · intro h
    have hchunks : chunks = [] := List.eq_nil_of_length_eq_zero (by rw [h.length_eq]; omega)
    have hframes : frames = [] := List.eq_nil_of_length_eq_zero (by rw [h.carries.length_eq, hchunks]; rfl)
    exact ⟨hframes, hchunks, by simpa [hframes] using h.pops_eq⟩
  · rintro ⟨rfl, rfl, rfl⟩
    exact ⟨rfl, rfl, trivial, by simp; omega⟩

lemma completes_of_lt {chunkId chunkCount : ℤ} (hlt : chunkId < chunkCount) {pops rest : List Blpop}
    {frames : List Bytes} {chunks : List Chunk} :
    Completes chunkId chunkCount pops rest frames chunks ↔
      ∃ frame frames' c chunks' pops', frames = frame :: frames' ∧ chunks = c :: chunks' ∧
        pops = .message frame :: pops' ∧ Chunk.read? frame = some c ∧ c.chunkId = chunkId+1 ∧
        c.chunkCount = chunkCount ∧ Completes (chunkId+1) chunkCount pops' rest frames' chunks' := by
  constructor
  · intro h
    have hlen := h.length_eq
    match chunks, frames, h.carries.length_eq with
    | [], _, _ => simp only [List.length_nil] at hlen; omega
    | c :: chunks, frame :: frames, _ =>
      obtain ⟨hc, hcar⟩ := carries_cons.mp h.carries
      obtain ⟨hid, hcount, hcon⟩ := h.consecutive
      rw [List.length_cons] at hlen
      exact ⟨frame, frames, c, chunks, _, rfl, rfl, h.pops_eq, hc, hid, hcount, rfl, hcar, hcon, by omega⟩
  · rintro ⟨frame, frames, c, chunks, pops, rfl, rfl, rfl, hc, hid, hcount, h⟩
    refine ⟨by simp [h.pops_eq], carries_cons.mpr ⟨hc, h.carries⟩, ⟨hid, hcount, h.consecutive⟩, ?_⟩
    rw [List.length_cons, h.length_eq]
    omega

lemma collectChunks_of_complete {r : Reassembly} (h : r.incomplete = false) (pops : List Blpop) :
    core.collectChunks r pops = (.ok r, pops) := by
  cases pops <;> simp [collectChunks, h]

lemma collectChunks_nil_of_incomplete {r : Reassembly} (h : r.incomplete = true) :
    core.collectChunks r [] = (.error core.receiveTimeout, []) := by
  simp [collectChunks, h]

lemma collectChunks_cons_eq_ok {r r' : Reassembly} {p : Blpop} {pops rest : List Blpop}
    (h : r.incomplete = true) :
    core.collectChunks r (p :: pops) = (.ok r', rest) ↔ ∃ frame r₁, p = .message frame ∧
      core.nextFrame r frame = .ok r₁ ∧ core.collectChunks r₁ pops = (.ok r', rest) := by
  simp only [collectChunks, h, if_true]
  cases p with
  | message frame => cases hn : core.nextFrame r frame <;> simp [popResult, hn]
  | nothing => simp [popResult]
  | failure cls => simp [popResult]

lemma collectChunks_eq_ok_of_le {r r' : Reassembly} {chunkId chunkCount : ℤ} {pops rest : List Blpop}
    (hr : r.chunk = some (chunkId, chunkCount)) (hle : chunkCount ≤ chunkId) :
    core.collectChunks r pops = (.ok r', rest) ↔ ∃ frames chunks,
      Completes chunkId chunkCount pops rest frames chunks ∧ r' = chunks.foldl .add r := by
  simp only [completes_of_le hle, core.collectChunks_of_complete (Reassembly.complete_of_le hr hle),
    Prod.mk.injEq, Except.ok.injEq]
  constructor
  · rintro ⟨rfl, rfl⟩
    exact ⟨[], [], ⟨rfl, rfl, rfl⟩, rfl⟩
  · rintro ⟨_, _, ⟨rfl, rfl, rfl⟩, rfl⟩
    exact ⟨rfl, rfl⟩

/-- The loop succeeds exactly on the frames that carry the missing chunks in order, and it takes
these frames and no others. -/
theorem collectChunks_eq_ok {r r' : Reassembly} {chunkId chunkCount : ℤ} {pops rest : List Blpop}
    (hr : r.chunk = some (chunkId, chunkCount)) :
    core.collectChunks r pops = (.ok r', rest) ↔ ∃ frames chunks,
      Completes chunkId chunkCount pops rest frames chunks ∧ r' = chunks.foldl .add r := by
  induction pops generalizing r chunkId with
  | nil =>
    rcases lt_or_ge chunkId chunkCount with hlt | hle
    · simp [core.collectChunks_nil_of_incomplete (Reassembly.incomplete_of_lt hr hlt),
        completes_of_lt hlt]
    · exact core.collectChunks_eq_ok_of_le hr hle
  | cons p pops ih =>
    rcases lt_or_ge chunkId chunkCount with hlt | hle
    · rw [core.collectChunks_cons_eq_ok (Reassembly.incomplete_of_lt hr hlt)]
      simp only [completes_of_lt hlt]
      constructor
      · rintro ⟨frame, r₁, rfl, hn, hrun⟩
        obtain ⟨c, hc, hid, hcount, rfl⟩ := (core.nextFrame_eq_ok hr).mp hn
        obtain ⟨frames, chunks, hrest, rfl⟩ := (ih (Reassembly.add_chunk r hid hcount)).mp hrun
        exact ⟨_, _, ⟨frame, frames, c, chunks, pops, rfl, rfl, rfl, hc, hid, hcount, hrest⟩, rfl⟩
      · rintro ⟨_, _, ⟨frame, frames, c, chunks, pops, rfl, rfl, hp, hc, hid, hcount, hrest⟩, rfl⟩
        obtain ⟨rfl, rfl⟩ := List.cons.inj hp
        exact ⟨frame, r.add c, rfl, (core.nextFrame_eq_ok hr).mpr ⟨c, hc, hid, hcount, rfl⟩,
          (ih (Reassembly.add_chunk r hid hcount)).mpr ⟨frames, chunks, hrest, rfl⟩⟩
    · exact core.collectChunks_eq_ok_of_le hr hle

/-- The frame carries a chunk count. -/
def HasChunkCount (frame : Bytes) : Prop :=
  ∃ v b, ProtocolVersion.extractVersion frame = .ok (v, b) ∧
    (extractSupportedHeaders b).1.chunkCount ≠ none

lemma hasChunkCount_of_read? {frame : Bytes} {c : Chunk} (h : Chunk.read? frame = some c) :
    HasChunkCount frame := by
  unfold Chunk.read? at h
  cases hv : ProtocolVersion.extractVersion frame with
  | error e => simp [hv] at h
  | ok out =>
    refine ⟨out.1, out.2, hv, ?_⟩
    intro hnone
    simp [hv, hnone] at h

lemma receiveFrames_message_eq_ok {frame : Bytes} {pops rest : List Blpop} {r : Reassembly} :
    core.receiveFrames (.message frame :: pops) = (.ok r, rest) ↔ ∃ r₀,
      core.firstFrame frame = .ok r₀ ∧ core.collectChunks r₀ pops = (.ok r, rest) := by
  simp only [receiveFrames, popResult, bind, Except.bind]
  cases core.firstFrame frame <;> simp

lemma firstFrame_unchunked_eq_ok {frame : Bytes} (hframe : ¬ HasChunkCount frame) {r : Reassembly} :
    core.firstFrame frame = .ok r ↔ ∃ v b, ProtocolVersion.extractVersion frame = .ok (v, b) ∧
      r = ⟨v, core.serializerFor (extractSupportedHeaders b).1, (extractSupportedHeaders b).2, none⟩ := by
  cases hv : ProtocolVersion.extractVersion frame with
  | error e => simp [firstFrame, hv]
  | ok out =>
    obtain ⟨v, b⟩ := out
    have hcount : (extractSupportedHeaders b).1.chunkCount = none := by
      by_contra hne
      exact hframe ⟨v, b, hv, hne⟩
    simp [firstFrame, hv, hcount, eq_comm]

/-- A first frame without chunk count is a whole message, whatever comes after it. -/
theorem receiveFrames_unchunked {frame : Bytes} (hframe : ¬ HasChunkCount frame)
    (pops : List Blpop) :
    core.receiveFrames (.message frame :: pops) = (core.firstFrame frame, pops) := by
  simp only [receiveFrames, popResult, bind, Except.bind]
  cases hfirst : core.firstFrame frame with
  | error e => rfl
  | ok r =>
    obtain ⟨v, b, -, rfl⟩ := (core.firstFrame_unchunked_eq_ok hframe).mp hfirst
    exact core.collectChunks_of_complete rfl pops

/-- A call whose first frame carries a chunk count succeeds exactly when that frame is a chunk and
the frames behind it complete its message. -/
theorem receiveFrames_eq_ok (hclient : core.isServer = false) {frame : Bytes}
    (hframe : HasChunkCount frame) {pops rest : List Blpop} {r : Reassembly} :
    core.receiveFrames (.message frame :: pops) = (.ok r, rest) ↔ ∃ c frames chunks,
      Chunk.read? frame = some c ∧ Completes c.chunkId c.chunkCount pops rest frames chunks ∧
      r = chunks.foldl .add (.ofChunk (core.serializerFor c.headers) c) := by
  obtain ⟨v, b, hv, hcount⟩ := hframe
  rw [receiveFrames_message_eq_ok]
  constructor
  · rintro ⟨r₀, hfirst, hrun⟩
    obtain ⟨c, hc, rfl⟩ := (core.firstFrame_eq_ok hclient hv hcount).mp hfirst
    obtain ⟨frames, chunks, hrest, rfl⟩ := (core.collectChunks_eq_ok rfl).mp hrun
    exact ⟨c, frames, chunks, hc, hrest, rfl⟩
  · rintro ⟨c, frames, chunks, hc, hrest, rfl⟩
    exact ⟨_, (core.firstFrame_eq_ok hclient hv hcount).mpr ⟨c, hc, rfl⟩,
      (core.collectChunks_eq_ok rfl).mpr ⟨frames, chunks, hrest, rfl⟩⟩

/-- Whatever byte string a call on these answers passes to `blob_to_dict` is put together from a
whole message, chunk by chunk. -/
def AcceptsOnlyCompleteRuns (pops : List Blpop) : Prop :=
  ∀ r rest, core.receiveFrames pops = (.ok r, rest) → ∃ frames chunks,
    pops = frames.map .message ++ rest ∧ Carries frames chunks ∧ Chunk.CompleteRun chunks ∧
    r.serializedMessage = Chunk.payloads chunks

lemma acceptsOnlyCompleteRuns_of_first (hclient : core.isServer = false) {frame : Bytes}
    (hframe : HasChunkCount frame) {pops : List Blpop}
    (h : ∀ c, Chunk.read? frame = some c →
      (∃ rest frames chunks, Completes c.chunkId c.chunkCount pops rest frames chunks) →
      c.chunkId = 1 ∧ 1 ≤ c.chunkCount) :
    core.AcceptsOnlyCompleteRuns (.message frame :: pops) := by
  intro r rest hr
  obtain ⟨c, frames, chunks, hc, hrest, rfl⟩ := (core.receiveFrames_eq_ok hclient hframe).mp hr
  obtain ⟨hid, hcount⟩ := h c hc ⟨rest, frames, chunks, hrest⟩
  have hlen : ((c :: chunks).length : ℤ) = c.chunkCount := by
    rw [List.length_cons, hrest.length_eq]
    omega
  have hcon := hrest.consecutive
  rw [hid] at hcon
  refine ⟨frame :: frames, c :: chunks, by simp [hrest.pops_eq], carries_cons.mpr ⟨hc, hrest.carries⟩,
    ⟨by simp, hid, hlen.symm, ?_⟩, by simp [Reassembly.ofChunk, Chunk.payloads]⟩
  rw [hlen]
  exact hcon

lemma first_of_acceptsOnlyCompleteRuns (hclient : core.isServer = false) {frame : Bytes}
    (hframe : HasChunkCount frame) {pops : List Blpop}
    (h : core.AcceptsOnlyCompleteRuns (.message frame :: pops)) {c : Chunk}
    (hc : Chunk.read? frame = some c)
    (hrest : ∃ rest frames chunks, Completes c.chunkId c.chunkCount pops rest frames chunks) :
    c.chunkId = 1 ∧ 1 ≤ c.chunkCount := by
  obtain ⟨rest, frames, chunks, hrest⟩ := hrest
  obtain ⟨frames', chunks', hpops, hcar, ⟨hne, hcon⟩, -⟩ :=
    h _ rest ((core.receiveFrames_eq_ok hclient hframe).mpr ⟨c, frames, chunks, hc, hrest, rfl⟩)
  match chunks', frames', hcar.length_eq with
  | [], _, _ => exact absurd rfl hne
  | c' :: chunks', frame' :: frames', _ =>
    obtain ⟨hframe', -⟩ := List.cons.inj hpops
    obtain ⟨hc', -⟩ := carries_cons.mp hcar
    cases hframe'
    rw [hc] at hc'
    cases hc'
    obtain ⟨hid, hcount, -⟩ := hcon
    refine ⟨hid, ?_⟩
    rw [hcount, List.length_cons]
    omega

/-- The receiver accepts whole messages only, unless the first frame does not carry the id 1 (or
carries a count below 1) and the frames behind it go on from there to the count. -/
theorem acceptsOnlyCompleteRuns_iff (hclient : core.isServer = false) {frame : Bytes}
    (hframe : HasChunkCount frame) (pops : List Blpop) :
    core.AcceptsOnlyCompleteRuns (.message frame :: pops) ↔ ∀ c, Chunk.read? frame = some c →
      (∃ rest frames chunks, Completes c.chunkId c.chunkCount pops rest frames chunks) →
      c.chunkId = 1 ∧ 1 ≤ c.chunkCount :=
  ⟨fun h _ hc hrest => core.first_of_acceptsOnlyCompleteRuns hclient hframe h hc hrest,
    core.acceptsOnlyCompleteRuns_of_first hclient hframe⟩

/-- Two frames in the right order. -/
theorem acceptsOnlyCompleteRuns_two_chunks :
    (defaultClient (PlainJson.serializer []) "example").AcceptsOnlyCompleteRuns
      [.message (ascii "pysoa-redis/3//content-type:application/json;chunk-count:2;chunk-id:1;\x7b\"a"),
        .message (ascii "pysoa-redis/3//chunk-count:2;chunk-id:2;\": 1\x7d")] := by
  refine (acceptsOnlyCompleteRuns_iff _ rfl (hasChunkCount_of_read? rfl) _).mpr ?_
  intro c hc _
  cases hc
  decide

/-- The last of three chunks is taken for a whole message. -/
theorem not_acceptsOnlyCompleteRuns_last_chunk :
    ¬ (defaultClient (PlainJson.serializer []) "example").AcceptsOnlyCompleteRuns
      [.message (ascii "pysoa-redis/3//chunk-count:3;chunk-id:3;xyz")] := by
  intro h
  have hfirst := first_of_acceptsOnlyCompleteRuns _ rfl (hasChunkCount_of_read? rfl) h rfl
    ⟨[], [], [], rfl, rfl, trivial, rfl⟩
  exact absurd hfirst.1 (by decide)

end RedisTransportCore
end PySOA
