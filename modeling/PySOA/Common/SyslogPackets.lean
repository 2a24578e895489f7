import PySOA.Common.SyslogFragments

/-! What `emit` sends for a record: packets that are not too long and whose text can be decoded, and
fragments from which the message can be put together. -/
namespace PySOA
open Utf8 (Text)

namespace Syslog

/-- The bytes are those of a text. -/
def Encoded (b : Bytes) : Prop := ∃ t : Text, t.any Utf8.isSurrogate = false ∧ b = Utf8.encode t

lemma Encoded.append {b c : Bytes} (hb : Encoded b) (hc : Encoded c) : Encoded (b ++ c) := by
  obtain ⟨t, ht, rfl⟩ := hb
  obtain ⟨u, hu, rfl⟩ := hc
  refine ⟨t ++ u, ?_, (Utf8.encode_append t u).symm⟩
  rw [List.any_append, ht, hu]
  rfl

lemma Encoded.decode {b : Bytes} (hb : Encoded b) : (Utf8.decode b).isSome = true := by
  obtain ⟨t, ht, rfl⟩ := hb
  rw [decode_encode_of_any ht]
  rfl

namespace Frame
variable (frame : Frame)

/-- What is left of packet `i` without the priority, the prefix, the start of the message, the suffix and
the marks of continuation. -/
def strip (i : ℕ) (last : Bool) (packet : Bytes) : Bytes :=
  let body := packet.drop (frame.head.length + frame.startOfMessage.length + (continuation i).length)
  body.take (body.length - ((if last then 0 else continued.length) + frame.suffix.length))

/-- The limit for the chunks leaves room for all the rest of a packet. -/
def Within (maximumLength : ℕ) : Prop :=
  frame.head.length + frame.startOfMessage.length + frame.suffix.length + 12 + frame.chunkLengthLimit ≤
    (maximumLength : ℤ)

variable {frame}

end Frame
end Syslog

namespace SyslogHandler
open Syslog
variable {handler : SyslogHandler} {record : LogRecord}

lemma encoded_of_encodeUtf8 {t : Text} {b : Bytes} (h : encodeUtf8 t = .ok b) : Encoded b := by
  unfold encodeUtf8 at h
  split_ifs at h with ht
  cases h
  rw [Bool.not_eq_true] at ht
  exact ⟨t, ht, rfl⟩

/-- What a plan is made of. -/
def PlanIsFor (handler : SyslogHandler) (record : LogRecord) : SyslogPlan → Prop
  | .whole packet => ∃ ident encodedMessage, handler.identBytes = .ok ident ∧ Encoded encodedMessage ∧
      packet = priorityBytes record ++ ident ++ (encodedMessage ++ handler.suffixBytes) ∧
      packet.length ≤ handler.maximumLength
  | .truncated limit packet => ∃ ident encodedMessage, handler.identBytes = .ok ident ∧
      Encoded encodedMessage ∧
      packet = priorityBytes record ++ ident ++
        ((cleanlySliceEncodedString encodedMessage limit).1 ++ handler.suffixBytes) ∧
      limit = handler.maximumLength - (priorityBytes record ++ ident).length - handler.suffixBytes.length
  | .fragments frame toChunk => ∃ ident, handler.identBytes = .ok ident ∧
      frame.head = priorityBytes record ++ ident ∧ frame.suffix = handler.suffixBytes ∧
      Encoded frame.startOfMessage ∧ Encoded toChunk ∧ frame.Within handler.maximumLength

/-- The plan for a record. -/
lemma plan_isFor {plan : SyslogPlan} (h : handler.plan record = .ok plan) :
    PlanIsFor handler record plan := by
  unfold SyslogHandler.plan at h
  cases hformatted : record.formatted with
  | error e =>
    rw [hformatted] at h
    cases h
  | ok formattedMessage =>
    rw [hformatted] at h
    cases hencoded : encodeUtf8 formattedMessage with
    | error e =>
      simp only [hencoded, bind, Except.bind] at h
      cases h
    | ok encodedMessage =>
      cases hident : handler.identBytes with
      | error e =>
        simp only [hencoded, hident, bind, Except.bind] at h
        cases h
      | ok ident =>
        simp only [hencoded, hident, bind, Except.bind, pure, Except.pure] at h
        have hmessage := encoded_of_encodeUtf8 hencoded
        split_ifs at h with hshort
        · cases h
          refine ⟨ident, encodedMessage, hident, hmessage, rfl, ?_⟩
          simp only [List.length_append] at hshort ⊢
          omega
        · cases hoverflow : handler.overflow with
          | truncate =>
            rw [hoverflow] at h
            cases h
            exact ⟨ident, encodedMessage, hident, hmessage, rfl, rfl⟩
          | fragment =>
            rw [hoverflow] at h
            cases hsplit : splitRecord formattedMessage record.getMessage with
            | error e =>
              simp only [hsplit] at h
              cases h
            | ok parts =>
              obtain ⟨startOfMessage, toChunk⟩ := parts
              cases hstart : encodeUtf8 startOfMessage with
              | error e =>
                simp only [hsplit, hstart] at h
                cases h
              | ok startOfMessageBytes =>
                cases hchunk : encodeUtf8 toChunk with
                | error e =>
                  simp only [hsplit, hstart, hchunk] at h
                  cases h
                | ok toChunkBytes =>
                  simp only [hsplit, hstart, hchunk] at h
                  cases h
                  refine ⟨ident, hident, rfl, rfl, encoded_of_encodeUtf8 hstart, encoded_of_encodeUtf8 hchunk, ?_⟩
                  unfold Frame.Within
                  dsimp only
                  omega

/-- The packet is not too long, and its text can be decoded. -/
def Fits (handler : SyslogHandler) (record : LogRecord) (packet : Bytes) : Prop :=
  packet.length ≤ handler.maximumLength ∧ ∃ ident text, handler.identBytes = .ok ident ∧
    packet = priorityBytes record ++ ident ++ (text ++ handler.suffixBytes) ∧
    (Utf8.decode text).isSome = true

/-- The content can be cut between its characters into pieces for which the fragments have space. -/
def CanCut (frame : Frame) (toChunk : Bytes) : Prop :=
  ∃ pieces : List Text, Utf8.encode pieces.flatten = toChunk ∧
    ∀ j piece, pieces[j]? = some piece → ((Utf8.encode piece).length : ℤ) ≤ frame.space (1+j)

lemma canCut_iff {frame : Frame} {t : Text} (ht : t.any Utf8.isSurrogate = false) :
    CanCut frame (Utf8.encode t) ↔ GreedyCuts.Cuttable width (fun j => frame.space (1+j)) t := by
  unfold CanCut GreedyCuts.Cuttable
  constructor
  · intro ⟨pieces, hpieces, hspace⟩
    refine ⟨pieces, ?_, ?_⟩
    · have hdecode := decode_encode_of_any ht
      rw [← hpieces, Utf8.decode_encode] at hdecode
      split_ifs at hdecode
      exact Option.some.inj hdecode
    · intro j piece hj
      rw [weight_width]
      exact hspace j piece hj
  · intro ⟨pieces, hpieces, hspace⟩
    refine ⟨pieces, by rw [hpieces], ?_⟩
    intro j piece hj
    rw [← weight_width]
    exact hspace j piece hj

/-- **When `emit` ends.** It does exactly if the record is not to be split, or its content can be cut into
pieces for which there is space. -/
theorem emit_ends_iff :
    (∃ fuel, (handler.emit fuel record).isSome = true) ↔
      ∀ frame toChunk, handler.plan record = .ok (.fragments frame toChunk) → CanCut frame toChunk := by
  cases hplan : handler.plan record with
  | error e =>
    constructor
    · intro _ frame toChunk h
      cases h
    · intro _
      exact ⟨0, by unfold emit; rw [hplan]; rfl⟩
  | ok plan =>
    cases plan with
    | whole packet =>
      constructor
      · intro _ frame toChunk h
        cases h
      · intro _
        exact ⟨0, by unfold emit; rw [hplan]; rfl⟩
    | truncated limit packet =>
      constructor
      · intro _ frame toChunk h
        cases h
      · intro _
        exact ⟨0, by unfold emit; rw [hplan]; rfl⟩
    | fragments frame toChunk =>
      obtain ⟨ident, -, -, -, -, ⟨t, ht, rfl⟩, -⟩ := plan_isFor hplan
      have hemit : ∀ fuel, (handler.emit fuel record).isSome = true ↔
          ∃ n ≤ fuel, frame.remainingAfter 1 n (Utf8.encode t) = [] := by
        intro fuel
        unfold emit
        rw [hplan]
        dsimp only
        rw [Option.isSome_map, Frame.loop_isSome_iff]
      have hends : (∃ fuel, (handler.emit fuel record).isSome = true) ↔
          ∃ n, frame.remainingAfter 1 n (Utf8.encode t) = [] := by
        constructor
        · intro ⟨fuel, h⟩
          obtain ⟨n, -, hn⟩ := (hemit fuel).mp h
          exact ⟨n, hn⟩
        · intro ⟨n, hn⟩
          exact ⟨n, (hemit n).mpr ⟨n, le_refl n, hn⟩⟩
      rw [hends, frame.exists_remainingAfter_iff ht, ← canCut_iff ht]
      constructor
      · intro h frame' toChunk' hsame
        cases hsame
        exact h
      · intro h
        exact h frame _ rfl

/-- A handler for the smallest packets that are sent, with a long identifier. -/
def identHandler : SyslogHandler where
  maximumLength := 548
  overflow := .fragment
  ident := some (.bytes (List.replicate 500 105))

/-- A record with forty characters in front of its message. -/
def preambleRecord : LogRecord where
  formatted := .ok (List.replicate 40 97 ++ List.replicate 10 98)
  priority := 14
  getMessage := .ok (List.replicate 10 98)

set_option maxRecDepth 20000 in
/-- The limit for the message is positive, but with what stands in front of the message it leaves no
space for a chunk: the loop does not end. -/
theorem emit_never_ends :
    (0 : ℤ) < identHandler.maximumLength - (priorityBytes preambleRecord).length - 500 -
        identHandler.suffixBytes.length ∧
      ¬∃ fuel, (identHandler.emit fuel preambleRecord).isSome = true := by
  have hplan : identHandler.plan preambleRecord = .ok (.fragments {
      head := ascii "<14>" ++ List.replicate 500 105
      startOfMessage := List.replicate 40 97
      suffix := [0]
      chunkLengthLimit := -9 } (List.replicate 10 98)) := by
    rfl
  refine ⟨by decide +kernel, ?_⟩
  intro ⟨fuel, h⟩
  unfold emit at h
  rw [hplan] at h
  dsimp only at h
  rw [Option.isSome_map, Frame.loop_isSome_iff] at h
  obtain ⟨n, -, hn⟩ := h
  refine Frame.remainingAfter_ne_nil _ ?_ ?_ n hn
  · decide
  · decide

end SyslogHandler
end PySOA
