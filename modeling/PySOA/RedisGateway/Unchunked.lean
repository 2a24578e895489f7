import PySOA.RedisGateway.Framing

/-! The single frame of a message that is not chunked: every version reads back what it wrote. -/
namespace PySOA

/-- The first byte of an encoded dict: `\x7b` of JSON or a map byte of msgpack. -/
def isDictByte (b : UInt8) : Bool :=
  b.toNat = 123 || (128 ≤ b.toNat && b.toNat ≤ 143) || b.toNat = 222 || b.toNat = 223

/-- The blob of a dict, in one of the two formats. -/
def IsDictBlob (blob : Bytes) : Prop := ∃ b r, blob = b :: r ∧ isDictByte b = true

lemma isDictByte_bounds {b : UInt8} (h : isDictByte b = true) : 122 < b.toNat := by
  simp only [isDictByte, Bool.or_eq_true, Bool.and_eq_true, decide_eq_true_eq] at h
  omega

namespace IsDictBlob

/-- No header begins at the first byte of a dict. -/
lemma matchHeader_eq_none {blob : Bytes} (h : IsDictBlob blob) : matchHeader blob = none := by
  obtain ⟨b, r, rfl, hb⟩ := h
  have hlarge := isDictByte_bounds hb
  apply RedisTransportCore.matchHeader_eq_none_of_head
  · simp only [Bytes.isSpace, Bool.or_eq_false_iff, Bool.and_eq_false_iff, decide_eq_false_iff_not]
    omega
  · rintro rfl
    exact absurd hlarge (by decide)

/-- A dict is neither a marker nor a header that the second version would begin with. -/
lemma extractVersion_eq {blob : Bytes} (h : IsDictBlob blob) :
    ProtocolVersion.extractVersion blob = .ok (.version1, blob) := by
  obtain ⟨b, r, rfl, hb⟩ := h
  have hlarge := isDictByte_bounds hb
  have hne : ∀ c : UInt8, c.toNat ≤ 122 → c ≠ b := by
    rintro c hc rfl
    omega
  obtain ⟨t, ht⟩ : ∃ t, ascii "pysoa-redis/" = 112 :: t := ⟨_, rfl⟩
  have hmarker : (b :: r).dropPrefix? (ascii "pysoa-redis/") = none := by
    rw [Option.eq_none_iff_forall_ne_some]
    intro s hs
    rw [dropPrefix?_eq_some, ht] at hs
    exact hne 112 (by decide) (List.cons.inj hs).1.symm
  have hversion : ProtocolVersion.matchVersion (b :: r) = none := by
    simp only [ProtocolVersion.matchVersion, hmarker, bind, Option.bind_none]
  obtain ⟨t, ht⟩ : ∃ t, ascii "content-type" = 99 :: t := ⟨_, rfl⟩
  have hheader : (ascii "content-type").isPrefixOf (b :: r) = false := by
    rw [ht, List.isPrefixOf_cons_cons, Bool.and_eq_false_iff]
    exact .inl (beq_false_of_ne (hne 99 (by decide)))
  simp only [ProtocolVersion.extractVersion, hversion, hheader]
  rfl

end IsDictBlob

/-- The text of the content type header is what marks the second version. -/
lemma ProtocolVersion.extractVersion_contentTypeHeader (serializer : Serializer) (b : Bytes) :
    extractVersion (RedisTransportCore.contentTypeHeader serializer ++ b) =
      .ok (.version2, RedisTransportCore.contentTypeHeader serializer ++ b) := by
  obtain ⟨t, ht⟩ : ∃ t, ascii "content-type:" = ascii "content-type" ++ t := ⟨_, rfl⟩
  obtain ⟨u, hu⟩ : ∃ u, ascii "content-type" = 99 :: u := ⟨_, rfl⟩
  obtain ⟨w, hw⟩ : ∃ w, ascii "pysoa-redis/" = 112 :: w := ⟨_, rfl⟩
  have htext : RedisTransportCore.contentTypeHeader serializer ++ b =
      ascii "content-type" ++ (t ++ serializer.mimeType ++ ascii ";" ++ b) := by
    simp only [RedisTransportCore.contentTypeHeader, ht, List.append_assoc]
  have hmarker : (ascii "content-type" ++ (t ++ serializer.mimeType ++ ascii ";" ++ b)).dropPrefix?
      (ascii "pysoa-redis/") = none := by
    rw [Option.eq_none_iff_forall_ne_some]
    intro s hs
    rw [dropPrefix?_eq_some, hw, hu] at hs
    exact absurd (List.cons.inj hs).1 (by decide)
  have hversion : matchVersion (ascii "content-type" ++
      (t ++ serializer.mimeType ++ ascii ";" ++ b)) = none := by
    simp only [matchVersion, hmarker, bind, Option.bind_none]
  have hheader : (ascii "content-type").isPrefixOf (ascii "content-type" ++
      (t ++ serializer.mimeType ++ ascii ";" ++ b)) = true := by
    rw [List.isPrefixOf_iff_prefix]
    exact List.prefix_append _ _
  rw [htext]
  simp only [extractVersion, hversion, hheader, if_true]

namespace RedisTransportCore
variable (core : RedisTransportCore)

/-- What a version puts in front of a blob. -/
def framePrelude (protocolVersion : ProtocolVersion) (serializer : Serializer) : Bytes :=
  (if ProtocolFeature.versionMarker.supportedIn protocolVersion then protocolVersion.prefixBytes else []) ++
    (if ProtocolFeature.contentTypeHeader.supportedIn protocolVersion then contentTypeHeader serializer
      else [])

/-- A message that becomes one frame is not cut, so its frame is the blob behind the prelude. -/
lemma eq_framePrelude_of_single {protocolVersion : ProtocolVersion} {serializer : Serializer}
    {message : Value} {blob frame : Bytes} (hblob : serializer.dictToBlob message = .ok blob)
    (hframe : core.serializeCheckAndChunkMessage protocolVersion message serializer = .ok [frame]) :
    frame = framePrelude protocolVersion serializer ++ blob := by
  simp only [serializeCheckAndChunkMessage, hblob] at hframe
  split_ifs at hframe with hmax hchunk hsupported hheader hmarker hmarker
  · -- a blob above the threshold makes at least two frames
    obtain ⟨-, hpos, hlong⟩ := hchunk
    have htwo := Slices.two_le_count (c := core.chunkMessagesLargerThanBytes.toNat) (by omega)
      (show core.chunkMessagesLargerThanBytes.toNat < blob.length by omega)
    have hone := congrArg List.length (Except.ok.inj hframe)
    rw [List.length_map, List.length_range, List.length_singleton] at hone
    omega
  all_goals
    have hframe := List.singleton_inj.mp (Except.ok.inj hframe)
    simp [framePrelude, *]

/-- The frame of a message that is not chunked is read as the version, the MIME type and the blob
that were written, in every version. -/
theorem unchunked_round_trip {protocolVersion : ProtocolVersion} {serializer : Serializer}
    {message : Value} {blob frame : Bytes} (hne : serializer.mimeType ≠ [])
    (hmime : ∀ b ∈ serializer.mimeType, Bytes.isHeaderValue b = true)
    (hblob : serializer.dictToBlob message = .ok blob) (hdict : IsDictBlob blob)
    (hframe : core.serializeCheckAndChunkMessage protocolVersion message serializer = .ok [frame]) :
    ∃ b, ProtocolVersion.extractVersion frame = .ok (protocolVersion, b) ∧
      extractSupportedHeaders b =
        ({ contentType := if ProtocolFeature.contentTypeHeader.supportedIn protocolVersion then
            some serializer.mimeType else none }, blob) := by
  have hheaders := extractSupportedHeaders_contentTypeHeader hne hmime hdict.matchHeader_eq_none
  rw [core.eq_framePrelude_of_single hblob hframe]
  cases protocolVersion with
  | version1 =>
    refine ⟨blob, hdict.extractVersion_eq, ?_⟩
    rw [extractSupportedHeaders, headerReader.scan_of_none hdict.matchHeader_eq_none]
    rfl
  | version2 =>
    exact ⟨_, ProtocolVersion.extractVersion_contentTypeHeader serializer blob, hheaders⟩
  | version3 =>
    refine ⟨_, ?_, hheaders⟩
    have hprelude : framePrelude .version3 serializer ++ blob =
        ProtocolVersion.version3.prefixBytes ++ (contentTypeHeader serializer ++ blob) :=
      List.append_assoc _ _ _
    rw [hprelude]
    exact ProtocolVersion.extractVersion_prefixBytes .version3 _

/-- A request of the second version. -/
theorem unchunked_round_trip_version2 :
    ∃ b, ProtocolVersion.extractVersion
        (ascii "content-type:application/json;\x7b\"request_id\": 1\x7d") = .ok (.version2, b) ∧
      extractSupportedHeaders b =
        ({ contentType := if ProtocolFeature.contentTypeHeader.supportedIn .version2 then
            some (PlainJson.serializer []).mimeType else none }, ascii "\x7b\"request_id\": 1\x7d") :=
  unchunked_round_trip (defaultClient (PlainJson.serializer []) "example") (by decide)
    (by decide +kernel)
    (rfl : (PlainJson.serializer []).dictToBlob (.dict [(.text "request_id", .int 1)]) =
      .ok (ascii "\x7b\"request_id\": 1\x7d"))
    ⟨_, _, rfl, rfl⟩ rfl

end RedisTransportCore
end PySOA
