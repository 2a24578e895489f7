import Mathlib.Data.Nat.Find
import PySOA.Common.Syslog

/-! The fragments of a record: they are within their limits, they come together again, and when there is
an end of them. -/
namespace PySOA
open Utf8 (Text)

namespace Syslog

/-- The decoder fails where it has read whole characters and no character starts. -/
theorem errorStart_eq_some_iff {b : Bytes} {k : ℕ} :
    errorStart b = some k ↔ k < b.length ∧ (Utf8.decode (b.take k)).isSome = true ∧
      ∀ j, 0 < j → (Utf8.decode ((b.drop k).take j)).isSome = false := by
  have hbehind (hk : (Utf8.decode (b.take k)).isSome = true) (j : ℕ) :
      (Utf8.decode (b.take (k+j))).isSome = (Utf8.decode ((b.drop k).take j)).isSome := by
    rw [List.take_add, Utf8.isSome_decode_append hk]
  unfold errorStart
  constructor
  · intro h
    split_ifs at h with hb
    obtain ⟨hle, hfound, hgreatest⟩ := Nat.findGreatest_eq_iff.mp (Option.some.inj h)
    have hk : (Utf8.decode (b.take k)).isSome = true := by
      obtain rfl | hne := Nat.eq_zero_or_pos k
      · rfl
      · exact hfound (by omega)
    refine ⟨?_, hk, ?_⟩
    · apply Nat.lt_of_le_of_ne hle
      rintro rfl
      rw [List.take_length] at hk
      exact hb hk
    · intro j hj
      rw [← hbehind hk, Bool.eq_false_iff]
      obtain hout | hin := Nat.lt_or_ge b.length (k+j)
      · rwa [List.take_of_length_le (by omega)]
      · exact hgreatest (by omega) hin
  · rintro ⟨hlt, hk, hnone⟩
    have hb : ¬(Utf8.decode b).isSome = true := by
      have hall := hbehind hk (b.length - k)
      rw [hnone _ (by omega), Nat.add_sub_cancel' (Nat.le_of_lt hlt), List.take_length] at hall
      rw [hall]
      exact Bool.false_ne_true
    rw [if_neg hb, Option.some.injEq, Nat.findGreatest_eq_iff]
    refine ⟨Nat.le_of_lt hlt, fun _ => hk, ?_⟩
    intro m hm _ hdecode
    have hplace : k + (m-k) = m := by omega
    have hm := hbehind hk (m-k)
    rw [hnone _ (by omega), hplace, hdecode] at hm
    cases hm

lemma errorStart_eq_none_iff {b : Bytes} : errorStart b = none ↔ (Utf8.decode b).isSome = true := by
  unfold errorStart
  split_ifs with h <;> simp [h]

section cut
variable (b : Bytes) (k : ℤ)

lemma append_cleanlySlice :
    (cleanlySliceEncodedString b k).1 ++ (cleanlySliceEncodedString b k).2 = b := by
  unfold cleanlySliceEncodedString
  dsimp only
  cases errorStart (b.take (cutPlace b k)) with
  | none => exact List.take_append_drop _ b
  | some start =>
    dsimp only
    rw [← List.append_assoc, List.take_append_drop, List.take_append_drop]

lemma length_cleanlySlice_le : (cleanlySliceEncodedString b k).1.length ≤ cutPlace b k := by
  unfold cleanlySliceEncodedString
  dsimp only
  cases errorStart (b.take (cutPlace b k)) with
  | none => exact List.length_take_le _ _
  | some start => exact (List.length_take_le' _ _).trans (List.length_take_le _ _)

/-- A limit that is not positive leaves something over. -/
lemma cleanlySlice_ne_nil {b : Bytes} {k : ℤ} (hb : b ≠ []) (hk : k ≤ 0) :
    (cleanlySliceEncodedString b k).2 ≠ [] := by
  intro h
  have hall := append_cleanlySlice b k
  have hle := length_cleanlySlice_le b k
  rw [h, List.append_nil] at hall
  rw [hall] at hle
  have hpos := List.length_pos_iff.mpr hb
  unfold cutPlace at hle
  split_ifs at hle <;> omega

/-- The slice can be decoded. -/
lemma decode_cleanlySlice : (Utf8.decode (cleanlySliceEncodedString b k).1).isSome = true := by
  unfold cleanlySliceEncodedString
  dsimp only
  cases hstart : errorStart (b.take (cutPlace b k)) with
  | none => exact errorStart_eq_none_iff.mp hstart
  | some start => exact (errorStart_eq_some_iff.mp hstart).2.1

/-- The slice is the longest one that can be decoded. -/
lemma le_length_cleanlySlice {m : ℕ} (hm : m ≤ (b.take (cutPlace b k)).length)
    (hdecode : (Utf8.decode (b.take m)).isSome = true) : m ≤ (cleanlySliceEncodedString b k).1.length := by
  have hplace : m ≤ cutPlace b k := hm.trans (List.length_take_le _ _)
  have htake : (b.take (cutPlace b k)).take m = b.take m := by
    rw [List.take_take, Nat.min_eq_left hplace]
  unfold cleanlySliceEncodedString
  dsimp only
  rw [← htake] at hdecode
  generalize b.take (cutPlace b k) = sliced at hm hdecode ⊢
  cases hstart : errorStart sliced with
  | none => exact hm
  | some start =>
    obtain ⟨hlt, hread, hbehind⟩ := errorStart_eq_some_iff.mp hstart
    dsimp only
    rw [List.length_take, Nat.min_eq_left (Nat.le_of_lt hlt)]
    -- no character starts where the decoder fails
    by_contra hpast
    have hsum : start + (m-start) = m := by omega
    rw [← hsum, List.take_add, Utf8.isSome_decode_append hread, hbehind _ (by omega)] at hdecode
    cases hdecode

end cut

/-- Valid UTF-8 is cut in two valid parts, and no longer first part within the limit would do. -/
theorem cleanlySlice_valid {b : Bytes} (hb : (Utf8.decode b).isSome = true) (limit : ℕ) :
    (cleanlySliceEncodedString b limit).1 ++ (cleanlySliceEncodedString b limit).2 = b ∧
    (cleanlySliceEncodedString b limit).1.length ≤ limit ∧
    (Utf8.decode (cleanlySliceEncodedString b limit).1).isSome = true ∧
    (Utf8.decode (cleanlySliceEncodedString b limit).2).isSome = true ∧
    ∀ slice remaining, slice ++ remaining = b → slice.length ≤ limit →
      (Utf8.decode slice).isSome = true → (Utf8.decode remaining).isSome = true →
      slice.length ≤ (cleanlySliceEncodedString b limit).1.length := by
  have happend := append_cleanlySlice b limit
  have hdecode := decode_cleanlySlice b limit
  have hplace : cutPlace b limit = limit := by
    rw [cutPlace, if_pos (Int.natCast_nonneg limit), Int.toNat_natCast]
  refine ⟨happend, ?_, hdecode, ?_, ?_⟩
  · have hle := length_cleanlySlice_le b limit
    rwa [hplace] at hle
  · rw [← happend, Utf8.isSome_decode_append hdecode] at hb
    exact hb
  · rintro slice remaining rfl hlimit hslice -
    apply le_length_cleanlySlice
    · rw [hplace, List.length_take, List.length_append]
      omega
    · rwa [List.take_left]

/-- A limit within the second character. -/
theorem cleanlySlice_valid_inside :
    (Utf8.decode (cleanlySliceEncodedString [97, 195, 169] 2).1).isSome = true ∧
      (Utf8.decode (cleanlySliceEncodedString [97, 195, 169] 2).2).isSome = true := by
  obtain ⟨-, -, hslice, hremaining, -⟩ := cleanlySlice_valid (b := [97, 195, 169]) (by decide) 2
  exact ⟨hslice, hremaining⟩

/-- The bytes of a code point. -/
def width (c : Utf8.CodePoint) : ℕ := (Utf8.encodePoint c).length

lemma weight_width (t : Text) : GreedyCuts.weight width t = (Utf8.encode t).length := by
  induction t with
  | nil => rfl
  | cons c t ih => rw [GreedyCuts.weight_cons, ih, Utf8.encode_cons, List.length_append, width]

lemma eq_nil_of_length_encode {t : Text} (h : (Utf8.encode t).length = 0) : t = [] := by
  cases t with
  | nil => rfl
  | cons c t =>
    have hpos := Utf8.length_encodePoint_pos c
    rw [Utf8.encode_cons, List.length_append] at h
    omega

lemma any_of_front {t u : Text} (ht : t.any Utf8.isSurrogate = false) (hu : u <+: t) :
    u.any Utf8.isSurrogate = false := by
  obtain ⟨v, rfl⟩ := hu
  rw [List.any_append, Bool.or_eq_false_iff] at ht
  exact ht.1

lemma any_of_drop {t : Text} (ht : t.any Utf8.isSurrogate = false) (n : ℕ) :
    (t.drop n).any Utf8.isSurrogate = false := by
  rw [← List.take_append_drop n t, List.any_append, Bool.or_eq_false_iff] at ht
  exact ht.2

lemma decode_encode_of_any {t : Text} (ht : t.any Utf8.isSurrogate = false) :
    Utf8.decode (Utf8.encode t) = some t := by
  rw [Utf8.decode_encode, ht]
  rfl

/-- The slice of an encoded text is the longest part from its front that fits. -/
theorem cleanlySlice_encode {t : Text} (ht : t.any Utf8.isSurrogate = false) {k : ℤ} (hk : 0 ≤ k) :
    cleanlySliceEncodedString (Utf8.encode t) k =
      (Utf8.encode (GreedyCuts.fit width k t),
        Utf8.encode (t.drop (GreedyCuts.fit width k t).length)) := by
  have happend := append_cleanlySlice (Utf8.encode t) k
  have hle := length_cleanlySlice_le (Utf8.encode t) k
  have hdecode := decode_cleanlySlice (Utf8.encode t) k
  have hplace : cutPlace (Utf8.encode t) k = k.toNat := if_pos hk
  rw [hplace] at hle
  set slice := (cleanlySliceEncodedString (Utf8.encode t) k).1 with hslice
  set rest := (cleanlySliceEncodedString (Utf8.encode t) k).2 with hrest
  set part := GreedyCuts.fit width k t with hpart
  -- the slice is a part from the front, and it is within the limit
  have htake : (Utf8.encode t).take slice.length = slice := by
    conv_lhs => rw [← happend, List.take_left]
  rw [← htake] at hdecode
  obtain ⟨u, hu, hencode⟩ := Utf8.exists_prefix_of_decode_take ht hdecode
  rw [htake] at hencode
  have hweight : (GreedyCuts.weight width u : ℤ) ≤ k := by
    rw [weight_width, ← hencode]
    omega
  obtain ⟨v, hv⟩ := GreedyCuts.prefix_fit width hu hweight
  -- the part that fits can be decoded, so the slice is not shorter
  have hprefix : part <+: t := GreedyCuts.fit_front width k t
  have hfits : ((Utf8.encode part).length : ℤ) ≤ k := by
    rw [← weight_width]
    exact GreedyCuts.weight_fit_le width hk t
  have hfront : (Utf8.encode t).take (Utf8.encode part).length = Utf8.encode part := by
    obtain ⟨rest, hall⟩ := hprefix
    rw [← hall, Utf8.encode_append, List.take_left]
  have hlength : (Utf8.encode part).length ≤ slice.length := by
    apply le_length_cleanlySlice
    · obtain ⟨rest, hall⟩ := hprefix
      rw [hplace, List.length_take]
      have hshorter : (Utf8.encode part).length ≤ (Utf8.encode t).length := by
        rw [← hall, Utf8.encode_append, List.length_append]
        omega
      omega
    · rw [hfront, decode_encode_of_any (any_of_front ht hprefix)]
      rfl
  have hpartu : part = u := by
    rw [← hpart] at hv
    rw [← hv, Utf8.encode_append, List.length_append, hencode] at hlength
    have hnil := eq_nil_of_length_encode (t := v) (by omega)
    rw [← hv, hnil, List.append_nil]
  have hslicePart : slice = Utf8.encode part := by rw [hencode, hpartu]
  apply Prod.ext
  · exact hslicePart
  · have hall := GreedyCuts.fit_append_drop width k t
    have hbytes : Utf8.encode part ++ rest = Utf8.encode part ++ Utf8.encode (t.drop part.length) := by
      rw [← Utf8.encode_append, hall, ← hslicePart, happend]
    exact List.append_cancel_left hbytes

lemma length_decimal_le {i j : ℕ} (hi : i ≠ 0) (h : i ≤ j) :
    (Bytes.decimal i).length ≤ (Bytes.decimal j).length := by
  have hj : j ≠ 0 := by omega
  unfold Bytes.decimal
  rw [if_neg hi, if_neg hj, List.length_map, List.length_map, List.length_reverse, List.length_reverse]
  exact Nat.le_length_digits_le 10 i j h

lemma subtractor_mono {i j : ℕ} (h : i ≤ j) : subtractor i ≤ subtractor j := by
  unfold subtractor
  split_ifs with hi hj hj
  · have hlength := length_decimal_le (by omega) h
    omega
  · omega
  · omega
  · omega

namespace Frame
variable (frame : Frame)

/-- The space for the chunk of packet `i`. -/
def space (i : ℕ) : ℤ := frame.chunkLengthLimit - subtractor i

/-- The message that remains after `n` packets, the first of them with number `i`. -/
def remainingAfter : ℕ → ℕ → Bytes → Bytes
  | _, 0, remainingMessage => remainingMessage
  | i, n+1, remainingMessage => remainingAfter (i+1) n (frame.fragment i remainingMessage).2

lemma space_anti {i j : ℕ} (h : i ≤ j) : frame.space j ≤ frame.space i := by
  have hmono := subtractor_mono h
  unfold space
  omega

lemma remainingAfter_add (i m n : ℕ) (r : Bytes) :
    frame.remainingAfter i (m+n) r = frame.remainingAfter (i+m) n (frame.remainingAfter i m r) := by
  induction m generalizing i r with
  | zero => rw [Nat.zero_add]; rfl
  | succ m ih =>
    rw [Nat.add_right_comm, remainingAfter, ih, remainingAfter, Nat.add_assoc, Nat.add_comm 1 m]

/-- The loop ends where the message is used up. -/
lemma loop_isSome_iff (fuel i : ℕ) (r : Bytes) :
    (frame.loop fuel i r).isSome = true ↔ ∃ n ≤ fuel, frame.remainingAfter i n r = [] := by
  induction fuel generalizing i r with
  | zero =>
    cases r with
    | nil => simp [loop, remainingAfter]
    | cons b r => simp [loop, remainingAfter]
  | succ fuel ih =>
    cases r with
    | nil =>
      constructor
      · intro _
        exact ⟨0, Nat.zero_le _, rfl⟩
      · intro _
        rfl
    | cons b r =>
      have hloop : frame.loop (fuel+1) i (b :: r) =
          (frame.loop fuel (i+1) (frame.fragment i (b :: r)).2).map ((frame.fragment i (b :: r)).1 :: ·) := rfl
      rw [hloop, Option.isSome_map, ih]
      constructor
      · intro ⟨n, hn, h⟩
        exact ⟨n+1, by omega, h⟩
      · intro ⟨n, hn, h⟩
        cases n with
        | zero => cases h
        | succ n => exact ⟨n, by omega, h⟩

/-- Without space nothing is used up any more, so the loop does not end. -/
lemma remainingAfter_ne_nil {i : ℕ} {r : Bytes} (hr : r ≠ []) (hspace : frame.space i ≤ 0) (n : ℕ) :
    frame.remainingAfter i n r ≠ [] := by
  induction n generalizing i r with
  | zero => exact hr
  | succ n ih =>
    apply ih
    · exact cleanlySlice_ne_nil hr hspace
    · exact (frame.space_anti (Nat.le_succ i)).trans hspace

/-- With space the chunks are the greedy cuts of the text. -/
lemma remainingAfter_encode {t : Text} (ht : t.any Utf8.isSurrogate = false) {i n : ℕ}
    (hspace : ∀ j < n, 0 ≤ frame.space (i+j)) :
    frame.remainingAfter i n (Utf8.encode t) =
      Utf8.encode (GreedyCuts.rest width (fun j => frame.space (i+j)) n t) := by
  induction n generalizing i t with
  | zero => rfl
  | succ n ih =>
    have hshift : (fun j => frame.space (i+(j+1))) = fun j => frame.space (i+1+j) := by
      funext j
      rw [Nat.add_assoc, Nat.add_comm 1 j]
    have hrest := any_of_drop ht (GreedyCuts.fit width (frame.space i) t).length
    have hcut : (frame.fragment i (Utf8.encode t)).2 =
        Utf8.encode (t.drop (GreedyCuts.fit width (frame.space i) t).length) :=
      congrArg Prod.snd (cleanlySlice_encode ht (hspace 0 (Nat.succ_pos n)))
    have hlater : ∀ j < n, 0 ≤ frame.space (i+1+j) := by
      intro j hj
      rw [Nat.add_assoc, Nat.add_comm 1 j]
      exact hspace (j+1) (by omega)
    rw [remainingAfter, hcut, ih hrest hlater, GreedyCuts.rest, hshift]
    rfl

/-- The loop ends for a text exactly if the text can be cut into pieces for which there is space. -/
theorem exists_remainingAfter_iff {t : Text} (ht : t.any Utf8.isSurrogate = false) (i : ℕ) :
    (∃ n, frame.remainingAfter i n (Utf8.encode t) = []) ↔
      GreedyCuts.Cuttable width (fun j => frame.space (i+j)) t := by
  constructor
  · intro hends
    classical
    let n := Nat.find hends
    have hspace : ∀ j < n, 0 ≤ frame.space (i+j) := by
      intro j hj
      by_contra hneg
      have hne := frame.remainingAfter_ne_nil (i := i+j) (Nat.find_min hends hj) (by omega) (n-j)
      rw [← remainingAfter_add, Nat.add_sub_cancel' (Nat.le_of_lt hj)] at hne
      exact hne (Nat.find_spec hends)
    have hnil : frame.remainingAfter i n (Utf8.encode t) = [] := Nat.find_spec hends
    rw [frame.remainingAfter_encode ht hspace] at hnil
    apply GreedyCuts.cuttable_of_rest width _ hspace
    exact eq_nil_of_length_encode (by rw [hnil]; rfl)
  · intro hcuttable
    obtain ⟨n, hrest, hspace⟩ := GreedyCuts.rest_of_cuttable width hcuttable
    refine ⟨n, ?_⟩
    rw [frame.remainingAfter_encode ht hspace, hrest]
    rfl

end Frame
end Syslog
end PySOA
