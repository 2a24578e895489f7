import PySOA.RedisGateway.Chunks

/-! Chunking and reassembly: when the frames of a chunked message give the message back. -/
namespace PySOA

section headers

lemma isHeader_of_value {name : HeaderName} {value : Bytes} (hne : value ≠ [])
    (h : ∀ b ∈ value, Bytes.isHeaderValue b = true) :
    IsHeader name value (name.text ++ ascii ":" ++ value ++ ascii ";") :=
  ⟨[], [], [], [], by simp, hne, h, by simp [ascii]⟩

lemma isHeader_decimal (name : HeaderName) (n : ℕ) :
    IsHeader name (Bytes.decimal n) (name.text ++ ascii ":" ++ Bytes.decimal n ++ ascii ";") :=
  isHeader_of_value (Bytes.decimal_ne_nil n) fun _ hb =>
    Bytes.isHeaderValue_of_isDigit (Bytes.isDigit_of_mem_decimal hb)

lemma scan_header {name : HeaderName} {value text : Bytes} (h : IsHeader name value text)
    (x : Bytes) : headerReader.scan (text ++ x) =
      ((name, value) :: (headerReader.scan x).1, (headerReader.scan x).2) :=
  headerReader.scan_of_some (matchHeader_eq_some.mpr ⟨text, h, rfl⟩)

end headers

namespace RedisTransportCore
open DelimitedScan
variable (core : RedisTransportCore)

/-- The chunk headers are read as they were written, and the text behind them after them. -/
lemma scan_chunkHeaders (n i : ℕ) (x : Bytes) :
    headerReader.scan (chunkCountHeader n ++ (chunkIdHeader i ++ x)) =
      ((.chunkCount, Bytes.decimal n) :: (.chunkId, Bytes.decimal i) :: (headerReader.scan x).1,
        (headerReader.scan x).2) := by
  have hcount : IsHeader .chunkCount (Bytes.decimal n) (chunkCountHeader n) :=
    isHeader_decimal .chunkCount n
  have hid : IsHeader .chunkId (Bytes.decimal i) (chunkIdHeader i) := isHeader_decimal .chunkId i
  rw [scan_header hcount, scan_header hid]

/-- The content type header of a serializer is read completely. -/
def HeaderReadable (serializer : Serializer) : Prop :=
  (extractSupportedHeaders (contentTypeHeader serializer)).2 = []

/-- The content type header of a serializer leads this receiver to the serializer. -/
def ReadsSerializer (serializer : Serializer) : Prop :=
  HeaderReadable serializer ∧
    core.serializerFor (extractSupportedHeaders (contentTypeHeader serializer)).1 = serializer

lemma extractSupportedHeaders_contentTypeHeader {serializer : Serializer}
    (hne : serializer.mimeType ≠ [])
    (h : ∀ b ∈ serializer.mimeType, Bytes.isHeaderValue b = true) {x : Bytes}
    (hx : matchHeader x = none) :
    extractSupportedHeaders (contentTypeHeader serializer ++ x) =
      ({ contentType := some serializer.mimeType }, x) := by
  have htext : IsHeader .contentType serializer.mimeType (contentTypeHeader serializer) :=
    isHeader_of_value hne h
  have hscan := scan_header htext x
  rw [headerReader.scan_of_none hx] at hscan
  simp [extractSupportedHeaders, hscan, Headers.ofTokens, Headers.set]

/-- A serializer that the receiver knows under a MIME type of header characters. -/
theorem readsSerializer_of_resolve? {serializer : Serializer} (hne : serializer.mimeType ≠ [])
    (h : ∀ b ∈ serializer.mimeType, Bytes.isHeaderValue b = true)
    (hknown : core.serializers.resolve? serializer.mimeType = some serializer) :
    core.ReadsSerializer serializer := by
  have hx := extractSupportedHeaders_contentTypeHeader hne h (x := []) rfl
  rw [List.append_nil] at hx
  constructor
  · rw [HeaderReadable, hx]
  · simp [hx, serializerFor, hknown]

/-- The frame of a version 3 message that is not chunked. -/
def unchunkedFrame (serializer : Serializer) (serializedMessage : Bytes) : Bytes :=
  ProtocolVersion.version3.prefixBytes ++ (contentTypeHeader serializer ++ serializedMessage)

/-- A frame that is not chunked is read as the message in it when this does not begin with a
header. -/
theorem receiveFrames_unchunkedFrame {serializer : Serializer} (hne : serializer.mimeType ≠ [])
    (hmime : ∀ b ∈ serializer.mimeType, Bytes.isHeaderValue b = true)
    (hknown : core.serializers.resolve? serializer.mimeType = some serializer) {blob : Bytes}
    (hblob : matchHeader blob = none) (rest : List Blpop) :
    core.receiveFrames (.message (unchunkedFrame serializer blob) :: rest) =
      (.ok ⟨.version3, serializer, blob, none⟩, rest) := by
  have hx := extractSupportedHeaders_contentTypeHeader hne hmime hblob
  have hversion : ProtocolVersion.extractVersion (unchunkedFrame serializer blob) =
      .ok (.version3, contentTypeHeader serializer ++ blob) :=
    ProtocolVersion.extractVersion_prefixBytes .version3 _
  have hunchunked : ¬ HasChunkCount (unchunkedFrame serializer blob) := by
    rintro ⟨v, b, hv, hcount⟩
    cases hversion.symm.trans hv
    rw [hx] at hcount
    exact hcount rfl
  rw [core.receiveFrames_unchunked hunchunked]
  simp only [firstFrame, hversion, hx, serializerFor, Option.bind_some, hknown, Option.getD_some]

lemma suffix_contentTypeHeader (serializer : Serializer) :
    [headerReader.delimiter] <:+ contentTypeHeader serializer :=
  ⟨ascii "content-type:" ++ serializer.mimeType, rfl⟩

lemma extractVersion_chunkFrame (serializer : Serializer) (c n : ℕ) (blob : Bytes) (i : ℕ) :
    ProtocolVersion.extractVersion (chunkFrame .version3 serializer c n blob i) =
      .ok (.version3, contentTypeHeader serializer ++ (chunkCountHeader n ++ (chunkIdHeader (i+1) ++
        Slices.slice c i blob))) := by
  rw [chunkFrame]
  simp only [List.append_assoc]
  exact ProtocolVersion.extractVersion_prefixBytes .version3 _

/-- The payload of a frame whose content type header is read completely. -/
lemma payload_of_headerReadable {serializer : Serializer} (h : HeaderReadable serializer)
    (n i : ℕ) (x : Bytes) :
    (extractSupportedHeaders (contentTypeHeader serializer ++
      (chunkCountHeader n ++ (chunkIdHeader i ++ x)))).2 = (headerReader.scan x).2 := by
  simp only [extractSupportedHeaders]
  rw [headerReader.scan_append_of_consumed _ _ h, scan_chunkHeaders]

/-- The payload of a frame whose content type header is not read completely begins with the
rest of that header. -/
lemma payload_of_not_headerReadable {serializer : Serializer} (h : ¬ HeaderReadable serializer)
    (x : Bytes) : (extractSupportedHeaders (contentTypeHeader serializer ++ x)).2 =
      (headerReader.scan (contentTypeHeader serializer)).2 ++ x := by
  simp only [extractSupportedHeaders]
  rw [headerReader.scan_append_of_rest _ _ (suffix_contentTypeHeader serializer) h]

/-- The chunk that the sender puts into the frame with the given index. -/
def chunkOf (serializer : Serializer) (c n : ℕ) (blob : Bytes) (i : ℕ) : Chunk where
  protocolVersion := .version3
  headers := { (extractSupportedHeaders (contentTypeHeader serializer)).1 with
    chunkCount := some (Bytes.decimal n), chunkId := some (Bytes.decimal (i+1)) }
  chunkId := i+1
  chunkCount := n
  payload := Slices.slice c i blob

/-- A frame is read as the chunk that was put into it when its slice does not begin with a
header. -/
theorem read?_chunkFrame {serializer : Serializer} (h : HeaderReadable serializer) {c n i : ℕ}
    {blob : Bytes} (hslice : matchHeader (Slices.slice c i blob) = none) :
    Chunk.read? (chunkFrame .version3 serializer c n blob i) = some (chunkOf serializer c n blob i) := by
  have hx : headerReader.scan (Slices.slice c i blob) = ([], Slices.slice c i blob) :=
    headerReader.scan_of_none hslice
  have hscan := scan_chunkHeaders n (i+1) (Slices.slice c i blob)
  rw [hx] at hscan
  simp only [Chunk.read?, extractVersion_chunkFrame, extractSupportedHeaders,
    headerReader.scan_append_of_consumed _ _ h, hscan]
  simp [chunkOf, extractSupportedHeaders, Headers.ofTokens, Headers.set, Bytes.int?_decimal]

lemma consecutive_chunkOf (serializer : Serializer) (c n : ℕ) (blob : Bytes) (k m : ℕ) :
    Chunk.Consecutive n (k+1) ((List.range' k m).map (chunkOf serializer c n blob)) := by
  induction m generalizing k with
  | zero => trivial
  | succ m ih =>
    rw [List.range'_succ, List.map_cons]
    exact ⟨rfl, rfl, by exact_mod_cast ih (k+1)⟩

lemma range_eq_cons {n : ℕ} (hn : 2 ≤ n) : List.range n = 0 :: List.range' 1 (n-1) := by
  rw [List.range_eq_range', show n = n-1+1 by omega, List.range'_succ]
  rfl

/-- The frames of a blob that is cut in slices of length c. -/
def chunkFrames (serializer : Serializer) (c : ℕ) (blob : Bytes) : List Bytes :=
  (List.range (Slices.count blob.length c)).map
    (chunkFrame .version3 serializer c (Slices.count blob.length c) blob)

/-- The frames of a blob are read as one message, by any client that reads the serializer, when
no slice begins with a header. -/
theorem receiveFrames_chunkFrames (hclient : core.isServer = false) {serializer : Serializer}
    (hreads : core.ReadsSerializer serializer) {c : ℕ} (hc : 0 < c) {blob : Bytes}
    (hlong : c < blob.length)
    (hslices : ∀ i < Slices.count blob.length c, matchHeader (Slices.slice c i blob) = none)
    (rest : List Blpop) :
    ∃ r, core.receiveFrames ((chunkFrames serializer c blob).map .message ++ rest) = (.ok r, rest) ∧
      r.serializer = serializer ∧ r.serializedMessage = blob := by
  have hn := Slices.two_le_count hc hlong
  have hflat := Slices.flatten_slices hc blob
  unfold chunkFrames
  generalize Slices.count blob.length c = n at *
  have hread : ∀ i < n, Chunk.read? (chunkFrame .version3 serializer c n blob i) =
      some (chunkOf serializer c n blob i) := fun i hi => read?_chunkFrame hreads.1 (hslices i hi)
  have hfirst := hread 0 (by omega)
  have hcompletes : Completes (chunkOf serializer c n blob 0).chunkId n
      (((List.range' 1 (n-1)).map (chunkFrame .version3 serializer c n blob)).map .message ++ rest)
      rest ((List.range' 1 (n-1)).map (chunkFrame .version3 serializer c n blob))
      ((List.range' 1 (n-1)).map (chunkOf serializer c n blob)) := by
    refine ⟨rfl, ?_, consecutive_chunkOf serializer c n blob 1 (n-1), by simp [chunkOf]⟩
    rw [Carries, List.map_map, List.map_map]
    refine List.map_congr_left fun i hi => hread i ?_
    rw [List.mem_range'_1] at hi
    omega
  rw [range_eq_cons hn, List.map_cons, List.map_cons, List.cons_append]
  refine ⟨_, (core.receiveFrames_eq_ok hclient (hasChunkCount_of_read? hfirst)).mpr
    ⟨_, _, _, hfirst, hcompletes, rfl⟩, ?_, ?_⟩
  · rw [Reassembly.foldl_add_serializer]
    exact hreads.2
  · rw [Reassembly.foldl_add_serializedMessage]
    calc (chunkOf serializer c n blob 0).payload ++
          Chunk.payloads ((List.range' 1 (n-1)).map (chunkOf serializer c n blob))
        = (Slices.slices c n blob).flatten := by
          rw [Slices.slices, range_eq_cons hn]
          simp [chunkOf, Chunk.payloads, Function.comp_def]
      _ = blob := hflat

/-- What the receiver takes for the payload of a frame. -/
def framePayload (frame : Bytes) : Bytes :=
  match ProtocolVersion.extractVersion frame with
  | .error _ => []
  | .ok (_, b) => (extractSupportedHeaders b).2

lemma payload_of_read? {frame : Bytes} {c : Chunk} (h : Chunk.read? frame = some c) :
    c.payload = framePayload frame := by
  unfold Chunk.read? at h
  unfold framePayload
  cases hv : ProtocolVersion.extractVersion frame with
  | error e => simp [hv] at h
  | ok out =>
    simp only [hv, bind, Option.bind_eq_some_iff, pure, Option.some.injEq] at h
    obtain ⟨_, _, _, _, rfl⟩ := h
    rfl

lemma Carries.payloads_eq {frames : List Bytes} {chunks : List Chunk} (h : Carries frames chunks) :
    Chunk.payloads chunks = (frames.map framePayload).flatten := by
  induction chunks generalizing frames with
  | nil =>
    rw [List.eq_nil_of_length_eq_zero h.length_eq]
    rfl
  | cons c chunks ih =>
    obtain ⟨frame, frames, rfl⟩ := List.exists_cons_of_length_eq_add_one h.length_eq
    obtain ⟨hc, hcar⟩ := carries_cons.mp h
    rw [List.map_cons, List.flatten_cons, ← ih hcar, ← payload_of_read? hc]
    rfl

lemma framePayload_chunkFrame (serializer : Serializer) (c n : ℕ) (blob : Bytes) (i : ℕ) :
    framePayload (chunkFrame .version3 serializer c n blob i) =
      (extractSupportedHeaders (contentTypeHeader serializer ++ (chunkCountHeader n ++
        (chunkIdHeader (i+1) ++ Slices.slice c i blob)))).2 := by
  rw [framePayload, extractVersion_chunkFrame]

/-- When the frames of a blob are taken for one message that is as long as the blob, every frame
is taken and every payload is as long as its slice. -/
lemma payload_length_of_received (hclient : core.isServer = false) {serializer : Serializer} {c : ℕ}
    (hc : 0 < c) {blob : Bytes} (hlong : c < blob.length) {rest : List Blpop} {r : Reassembly}
    (h : core.receiveFrames ((chunkFrames serializer c blob).map .message ++ rest) = (.ok r, rest))
    (hlen : r.serializedMessage.length = blob.length) :
    ((chunkFrames serializer c blob).map framePayload).flatten.length = blob.length ∧
      ∀ ch, Chunk.read? (chunkFrame .version3 serializer c (Slices.count blob.length c) blob 0) =
        some ch → r.serializer = core.serializerFor ch.headers := by
  have hn := Slices.two_le_count hc hlong
  unfold chunkFrames at *
  generalize Slices.count blob.length c = n at *
  rw [range_eq_cons hn] at *
  simp only [List.map_cons, List.cons_append] at *
  have hcount : HasChunkCount (chunkFrame .version3 serializer c n blob 0) := by
    by_contra hno
    rw [core.receiveFrames_unchunked hno] at h
    have hrest := congrArg List.length (Prod.mk.inj h).2
    simp only [List.length_append, List.length_map, List.length_range'] at hrest
    omega
  obtain ⟨ch, frames, chunks, hch, hrest, rfl⟩ := (core.receiveFrames_eq_ok hclient hcount).mp h
  have hframes := (List.map_injective_iff.mpr (fun _ _ hm => Blpop.message.inj hm))
    (List.append_cancel_right hrest.pops_eq)
  have hcar := carries_cons.mpr ⟨hch, hrest.carries⟩
  constructor
  · rw [← hlen, Reassembly.foldl_add_serializedMessage, ← List.map_cons, hframes,
      ← hcar.payloads_eq]
    rfl
  · intro ch' hch'
    rw [hch] at hch'
    cases hch'
    exact Reassembly.foldl_add_serializer _ _

lemma length_flatten_framePayload (serializer : Serializer) {c : ℕ} (hc : 0 < c) {blob : Bytes}
    (h : ((chunkFrames serializer c blob).map framePayload).flatten.length = blob.length) :
    ((List.range (Slices.count blob.length c)).map fun i => framePayload
        (chunkFrame .version3 serializer c (Slices.count blob.length c) blob i)).flatten.length =
      ((List.range (Slices.count blob.length c)).map fun i => Slices.slice c i blob).flatten.length := by
  have hflat := congrArg List.length (Slices.flatten_slices hc blob)
  rw [chunkFrames, List.map_map] at h
  exact h.trans hflat.symm

/-- A message of the length of the blob is only received when the content type header is read
completely. -/
lemma headerReadable_of_length {serializer : Serializer} {c : ℕ} (hc : 0 < c) {blob : Bytes}
    (hlong : c < blob.length)
    (h : ((chunkFrames serializer c blob).map framePayload).flatten.length = blob.length) :
    HeaderReadable serializer := by
  by_contra hno
  have hlt : ∀ i, (Slices.slice c i blob).length < (framePayload
      (chunkFrame .version3 serializer c (Slices.count blob.length c) blob i)).length := by
    intro i
    have hpos := List.length_pos_iff.mpr hno
    rw [framePayload_chunkFrame, payload_of_not_headerReadable hno]
    simp only [extractSupportedHeaders] at hpos
    simp only [List.length_append]
    omega
  have hn := Slices.two_le_count hc hlong
  have heq := Slices.length_eq_of_flatten (fun i _ => (hlt i).le)
    (length_flatten_framePayload serializer hc h).symm 0 (by omega)
  exact absurd heq (hlt 0).ne

/-- A message of the length of the blob is only received when no slice begins with a header. -/
lemma slices_of_length {serializer : Serializer} (hread : HeaderReadable serializer) {c : ℕ}
    (hc : 0 < c) {blob : Bytes}
    (h : ((chunkFrames serializer c blob).map framePayload).flatten.length = blob.length) :
    ∀ i < Slices.count blob.length c, matchHeader (Slices.slice c i blob) = none := by
  have hpayload : ∀ i, framePayload
      (chunkFrame .version3 serializer c (Slices.count blob.length c) blob i) =
        (headerReader.scan (Slices.slice c i blob)).2 := by
    intro i
    rw [framePayload_chunkFrame, payload_of_headerReadable hread]
  intro i hi
  have heq := Slices.length_eq_of_flatten
    (fun j _ => (congrArg List.length (hpayload j)).trans_le (headerReader.scan_length_le _))
    (length_flatten_framePayload serializer hc h) i hi
  rw [hpayload] at heq
  exact (headerReader.scan_length_eq_iff _).mp heq

/-- When a client gets the blob back, and for the sender's serializer, it reads that serializer
and no slice begins with a header. -/
theorem conditions_of_received (hclient : core.isServer = false) {serializer : Serializer} {c : ℕ}
    (hc : 0 < c) {blob : Bytes} (hlong : c < blob.length) {rest : List Blpop} {r : Reassembly}
    (h : core.receiveFrames ((chunkFrames serializer c blob).map .message ++ rest) = (.ok r, rest))
    (hserializer : r.serializer = serializer) (hblob : r.serializedMessage = blob) :
    core.ReadsSerializer serializer ∧
      ∀ i < Slices.count blob.length c, matchHeader (Slices.slice c i blob) = none := by
  obtain ⟨hlen, hser⟩ := core.payload_length_of_received hclient hc hlong h (congrArg List.length hblob)
  have hread := headerReadable_of_length hc hlong hlen
  have hslices := slices_of_length hread hc hlen
  have hn := Slices.two_le_count hc hlong
  have hfirst := hser _ (read?_chunkFrame hread (hslices 0 (by omega)))
  exact ⟨⟨hread, hfirst.symm.trans hserializer⟩, hslices⟩

/-- A version 3 response above the threshold is cut into frames. -/
theorem serializeCheckAndChunkMessage_chunked (hserver : core.isServer = true)
    (hchunk : 0 < core.chunkMessagesLargerThanBytes) {serializer : Serializer} {message : Value}
    {blob : Bytes} (hblob : serializer.dictToBlob message = .ok blob)
    (hlong : core.chunkMessagesLargerThanBytes < blob.length)
    (hmax : blob.length ≤ core.maximumMessageSizeInBytes) :
    core.serializeCheckAndChunkMessage .version3 message serializer =
      .ok (chunkFrames serializer core.chunkMessagesLargerThanBytes.toNat blob) := by
  have hfeature : ProtocolFeature.chunkedResponses.supportedIn .version3 = true := rfl
  simp [serializeCheckAndChunkMessage, hblob, hserver, hchunk, hlong, hmax, hfeature, chunkFrames]

lemma chunkFrames_eq_mapIdx (serializer : Serializer) (c : ℕ) (blob : Bytes) :
    chunkFrames serializer c blob =
      (Slices.slices c (Slices.count blob.length c) blob).mapIdx fun i piece =>
        ProtocolVersion.version3.prefixBytes ++ contentTypeHeader serializer ++
          chunkCountHeader (chunkFrames serializer c blob).length ++ chunkIdHeader (i+1) ++ piece := by
  have hlength : (chunkFrames serializer c blob).length = Slices.count blob.length c := by
    simp [chunkFrames]
  rw [hlength]
  apply List.ext_getElem
  · simp [chunkFrames]
  · intro i hi hi'
    simp [chunkFrames, chunkFrame, Slices.slices]

/-- The frames of a blob above the threshold: as many as the quotient, rounded up, each with this number
as its count and the next id, and the blob in pieces within the threshold, none of them empty. -/
theorem chunkFrames_partition (serializer : Serializer) {c : ℕ} (hc : 1 ≤ c) {blob : Bytes}
    (hlong : c < blob.length) :
    (∀ (core : RedisTransportCore) (message : Value), core.isServer = true →
      core.chunkMessagesLargerThanBytes = c → serializer.dictToBlob message = .ok blob →
      blob.length ≤ core.maximumMessageSizeInBytes →
      core.serializeCheckAndChunkMessage .version3 message serializer =
        .ok (chunkFrames serializer c blob)) ∧
    (chunkFrames serializer c blob).length = ⌈(blob.length : ℚ)/c⌉₊ ∧
    ∃ pieces : List Bytes, chunkFrames serializer c blob = (pieces.mapIdx fun i piece =>
        ProtocolVersion.version3.prefixBytes ++ contentTypeHeader serializer ++
          chunkCountHeader (chunkFrames serializer c blob).length ++ chunkIdHeader (i+1) ++ piece) ∧
      (∀ piece ∈ pieces, piece ≠ [] ∧ piece.length ≤ c) ∧ pieces.flatten = blob := by
  refine ⟨?_, ?_, _, chunkFrames_eq_mapIdx serializer c blob, ?_, Slices.flatten_slices hc blob⟩
  · intro core message hserver hthreshold hblob hmax
    have hchunk : 0 < core.chunkMessagesLargerThanBytes := by omega
    rw [core.serializeCheckAndChunkMessage_chunked hserver hchunk hblob (by omega) hmax, hthreshold,
      Int.toNat_natCast]
  · rw [← Slices.count_eq_ceil _ hc]
    simp [chunkFrames]
  · intro piece hpiece
    exact ⟨Slices.ne_nil_of_mem_slices hpiece, Slices.length_le_of_mem_slices hpiece⟩

/-- A blob whose length is an exact multiple of the threshold. -/
theorem chunkFrames_partition_multiple :
    (chunkFrames (PlainJson.serializer []) 3 (ascii "\x7b\"a\"1\x7d")).length = ⌈(6 : ℚ)/3⌉₊ :=
  (@chunkFrames_partition (PlainJson.serializer []) 3 (by decide) (ascii "\x7b\"a\"1\x7d") (by decide)).2.1

/-! A response whose text is filled up so that its tail stands at the beginning of the second
slice. -/

def filledText (n : ℕ) (tail : String) : String := String.ofList (List.replicate n 'x' ++ tail.toList)

def filledResponse (content : String) : Value :=
  .dict [(.text "request_id", .int 1), (.text "meta", .dict [(.text "__expiry__", .float 60)]),
    (.text "body", .dict [(.text "errors", .list []), (.text "context", .dict []),
      (.text "actions", .list [.dict [(.text "action", .text "read"), (.text "errors", .list []),
        (.text "body", .dict [(.text "content", .text content)])]])])]

def filledStart : Bytes :=
  ascii "\x7b\"request_id\": 1, \"meta\": \x7b\"__expiry__\": 60.0\x7d, \"body\": " ++
    ascii "\x7b\"errors\": [], \"context\": \x7b\x7d, \"actions\": [\x7b\"action\": \"read\", " ++
    ascii "\"errors\": [], \"body\": \x7b\"content\": \""

def filledBlob (n : ℕ) (tail : String) : Bytes :=
  filledStart ++ List.replicate n 120 ++ (ascii tail ++ ascii "\"\x7d\x7d]\x7d\x7d")

set_option maxRecDepth 8000 in
lemma dumps_filledResponse {s : String} (h : s.toList.all PlainJson.plain = true) :
    PlainJson.dumps (filledResponse s) =
      some (filledStart ++ (ascii s ++ ascii "\"\x7d\x7d]\x7d\x7d")) := by
  simp only [filledResponse, PlainJson.dumps, PlainJson.entries, PlainJson.items,
    PlainJson.text_of_plain h]
  generalize ascii s = t
  simp (disch := decide) only [Rat.den_ofNat, Rat.num_ofNat, if_true, Key.toText,
    PlainJson.text_of_plain, bind, Option.bind_some, pure, List.append_assoc, List.append_nil,
    List.cons_append, List.nil_append]
  rfl

lemma dictToBlob_filledResponse (messages : List Value) (n : ℕ) (tail : String)
    (h : tail.toList.all PlainJson.plain = true) :
    (PlainJson.serializer messages).dictToBlob (filledResponse (filledText n tail)) =
      .ok (filledBlob n tail) := by
  have hplain : (filledText n tail).toList.all PlainJson.plain = true := by
    rw [filledText, String.toList_ofList, List.all_append, h, Bool.and_true, List.all_eq_true]
    intro c hc
    rw [List.eq_of_mem_replicate hc]
    decide
  have hascii : ascii (filledText n tail) = List.replicate n 120 ++ ascii tail := by
    rw [ascii, filledText, String.toList_ofList, List.map_append, List.map_replicate]
    rfl
  simp only [PlainJson.serializer, dumps_filledResponse hplain, hascii, filledBlob,
    List.append_assoc]

lemma length_filledStart (n : ℕ) : (filledStart ++ List.replicate n (120 : UInt8)).length = 152+n := by
  rw [List.length_append, List.length_replicate]
  rfl

lemma length_filledBlob (n : ℕ) (tail : String) :
    (filledBlob n tail).length = 152+n+((ascii tail).length+6) := by
  rw [filledBlob, List.length_append, length_filledStart, List.length_append]
  rfl

/-- The second slice is the tail and the end of the blob. -/
lemma slice_filledBlob_one (n : ℕ) {tail : String} (h : (ascii tail).length ≤ 146) :
    Slices.slice (152+n) 1 (filledBlob n tail) = ascii tail ++ ascii "\"\x7d\x7d]\x7d\x7d" := by
  rw [Slices.slice, filledBlob, one_mul, List.drop_left' (length_filledStart n)]
  refine List.take_of_length_le ?_
  have h6 : (ascii "\"\x7d\x7d]\x7d\x7d").length = 6 := rfl
  rw [List.length_append, h6]
  omega

lemma matchHeader_eq_none_of_head {b : UInt8} (hspace : Bytes.isSpace b = false) (hb : b ≠ 99)
    (r : Bytes) : matchHeader (b :: r) = none := by
  cases h : matchHeader (b :: r) with
  | none => rfl
  | some out =>
    obtain ⟨text, ⟨w₁, _, _, _, hw, _, _, rfl⟩, heq⟩ := matchHeader_eq_some.mp h
    obtain ⟨t, ht⟩ := out.1.1.exists_cons
    rw [ht] at heq
    cases w₁ with
    | nil => exact absurd (List.cons.inj heq).1 hb
    | cons w w₁ =>
      obtain ⟨rfl, -⟩ := List.cons.inj heq
      rw [hw (b :: w₁) (by simp) b List.mem_cons_self] at hspace
      cases hspace

lemma matchHeader_slice_filledBlob_zero (n : ℕ) (tail : String) :
    matchHeader (Slices.slice (152+n) 0 (filledBlob n tail)) = none := by
  obtain ⟨t, ht⟩ : ∃ t, filledStart = 123 :: t := ⟨_, rfl⟩
  rw [Slices.slice, filledBlob, ht, zero_mul, List.drop_zero, List.cons_append, List.cons_append,
    show 152+n = 151+n+1 by omega, List.take_succ_cons]
  exact matchHeader_eq_none_of_head (by decide) (by decide) _

lemma matchHeader_slice_filledBlob (n : ℕ) {tail : String} (h : (ascii tail).length ≤ 146)
    (hnone : matchHeader (ascii tail ++ ascii "\"\x7d\x7d]\x7d\x7d") = none) :
    ∀ i < Slices.count (filledBlob n tail).length (152+n),
      matchHeader (Slices.slice (152+n) i (filledBlob n tail)) = none := by
  intro i hi
  have hcount : Slices.count (filledBlob n tail).length (152+n) < 3 := by
    rw [Slices.count, length_filledBlob]
    exact Nat.div_lt_of_lt_mul (by omega)
  obtain rfl | rfl : i = 0 ∨ i = 1 := by omega
  · exact matchHeader_slice_filledBlob_zero n tail
  · rw [slice_filledBlob_one n h, hnone]

/-- The frames that a server makes of a blob give a client the blob and the serializer back
exactly when the client reads the serializer's MIME type and no slice of the blob begins with
what looks like a header. -/
theorem chunked_round_trip_iff {server client : RedisTransportCore} (hserver : server.isServer = true)
    (hchunk : minimumChunkedMessageBytes ≤ server.chunkMessagesLargerThanBytes)
    (hclient : client.isServer = false) {serializer : Serializer} {message : Value} {blob : Bytes}
    (hblob : serializer.dictToBlob message = .ok blob)
    (hlong : server.chunkMessagesLargerThanBytes < blob.length)
    (hmax : blob.length ≤ server.maximumMessageSizeInBytes) (rest : List Blpop) :
    ∃ frames, server.serializeCheckAndChunkMessage .version3 message serializer = .ok frames ∧
      ((∃ r, client.receiveFrames (frames.map .message ++ rest) = (.ok r, rest) ∧
          r.serializer = serializer ∧ r.serializedMessage = blob) ↔
        client.ReadsSerializer serializer ∧
          ∀ i < Slices.count blob.length server.chunkMessagesLargerThanBytes.toNat,
            matchHeader (Slices.slice server.chunkMessagesLargerThanBytes.toNat i blob) = none) := by
  have hpos : 0 < server.chunkMessagesLargerThanBytes := lt_of_lt_of_le (by decide) hchunk
  have hc : 0 < server.chunkMessagesLargerThanBytes.toNat := by omega
  have hlong' : server.chunkMessagesLargerThanBytes.toNat < blob.length := by omega
  refine ⟨_, server.serializeCheckAndChunkMessage_chunked hserver hpos hblob hlong hmax, ?_, ?_⟩
  · rintro ⟨r, hr, hser, hmsg⟩
    exact client.conditions_of_received hclient hc hlong' hr hser hmsg
  · rintro ⟨hreads, hslices⟩
    exact client.receiveFrames_chunkFrames hclient hreads hc hlong' hslices rest

/-- A response that is cut in two slices and comes back whole. -/
theorem chunked_round_trip_two_slices :
    ∃ frames, (chunkingServer (PlainJson.serializer []) "example").serializeCheckAndChunkMessage
        .version3 (filledResponse (filledText 102248 "x")) (PlainJson.serializer []) = .ok frames ∧
      ∃ r, (defaultClient (PlainJson.serializer []) "example").receiveFrames
          (frames.map .message ++ []) = (.ok r, []) ∧
        r.serializer = PlainJson.serializer [] ∧ r.serializedMessage = filledBlob 102248 "x" := by
  have hlen : ((filledBlob 102248 "x").length : ℤ) = 102407 := by
    rw [length_filledBlob]
    rfl
  have hserver : (chunkingServer (PlainJson.serializer []) "example").isServer = true := rfl
  have hclient : (defaultClient (PlainJson.serializer []) "example").isServer = false := rfl
  obtain ⟨frames, hframes, hiff⟩ := chunked_round_trip_iff hserver (by decide) hclient
    (dictToBlob_filledResponse [] 102248 "x" (by decide))
    (by rw [hlen]; decide) (by rw [hlen]; decide) []
  refine ⟨frames, hframes, hiff.mpr ⟨readsSerializer_of_resolve? _ (by decide) (by decide +kernel) rfl, ?_⟩⟩
  exact matchHeader_slice_filledBlob 102248 (by decide) (matchHeader_eq_none_of_head (by decide) (by decide) _)

/-- A response whose second slice begins with the text of a header does not come back. -/
theorem not_chunked_round_trip_header_text :
    ∃ frames, (chunkingServer (PlainJson.serializer []) "example").serializeCheckAndChunkMessage
        .version3 (filledResponse (filledText 102248 "content-type:a;"))
        (PlainJson.serializer []) = .ok frames ∧
      ¬ ∃ r, (defaultClient (PlainJson.serializer []) "example").receiveFrames
          (frames.map .message ++ []) = (.ok r, []) ∧
        r.serializer = PlainJson.serializer [] ∧
        r.serializedMessage = filledBlob 102248 "content-type:a;" := by
  have hlen : ((filledBlob 102248 "content-type:a;").length : ℤ) = 102421 := by
    rw [length_filledBlob]
    rfl
  have hlong : 152+102248 < (filledBlob 102248 "content-type:a;").length := by omega
  refine ⟨_, serializeCheckAndChunkMessage_chunked _ rfl (by decide)
    (dictToBlob_filledResponse [] 102248 "content-type:a;" (by decide))
    (by rw [hlen]; decide) (by rw [hlen]; decide), ?_⟩
  rintro ⟨r, hr, hser, hmsg⟩
  have hslices := (conditions_of_received _ rfl (c := 152+102248) (by decide) hlong hr hser hmsg).2
  have hone := hslices 1 (Slices.two_le_count (by decide) hlong)
  rw [slice_filledBlob_one 102248 (by decide)] at hone
  exact absurd hone (by decide)

end RedisTransportCore
end PySOA
