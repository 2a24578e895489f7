import Mathlib.Data.List.Basic

/-! UTF-8 over all code points: an encoder that lets surrogates pass, and the strict decoder. -/
namespace Utf8

/-- A Unicode code point; the surrogates are among them. -/
abbrev CodePoint := Fin 0x110000

instance neZero_codePoints : @NeZero ℕ Zero.ofOfNat0 0x110000 := ⟨by decide⟩

abbrev Text := List CodePoint

def isSurrogate (c : CodePoint) : Bool := 0xD800 ≤ c.val && c.val < 0xE000

/-- The bytes of one code point; a surrogate has three, like its neighbours. -/
def encodePoint (c : CodePoint) : List UInt8 :=
  let n := c.val
  if n < 0x80 then [UInt8.ofNat n]
  else if n < 0x800 then [UInt8.ofNat (0xC0 + n/64), UInt8.ofNat (0x80 + n%64)]
  else if n < 0x10000 then
    [UInt8.ofNat (0xE0 + n/4096), UInt8.ofNat (0x80 + n/64%64), UInt8.ofNat (0x80 + n%64)]
  else [UInt8.ofNat (0xF0 + n/262144), UInt8.ofNat (0x80 + n/4096%64),
    UInt8.ofNat (0x80 + n/64%64), UInt8.ofNat (0x80 + n%64)]

def encode (t : Text) : List UInt8 := t.flatMap encodePoint

/-- The six bits of a continuation byte. -/
def continuation? (b : UInt8) : Option ℕ :=
  if 0x80 ≤ b.toNat ∧ b.toNat < 0xC0 then some (b.toNat - 0x80) else none

/-- The code point with a value that takes as many bytes as were read; surrogates are refused. -/
def point? (least n : ℕ) : Option CodePoint :=
  if least ≤ n ∧ n < 0x110000 ∧ ¬(0xD800 ≤ n ∧ n < 0xE000) then some (Fin.ofNat _ n) else none

def decode : List UInt8 → Option Text
  | [] => some []
  | a :: bs =>
    if a.toNat < 0x80 then (decode bs).map (Fin.ofNat _ a.toNat :: ·)
    else
      match bs with
      | [] => none
      | b :: cs => (continuation? b).bind fun y =>
        if a.toNat < 0xC0 then none
        else if a.toNat < 0xE0 then
          (point? 0x80 ((a.toNat-0xC0)*64 + y)).bind fun p => (decode cs).map (p :: ·)
        else
          match cs with
          | [] => none
          | c :: ds => (continuation? c).bind fun z =>
            if a.toNat < 0xF0 then
              (point? 0x800 (((a.toNat-0xE0)*64 + y)*64 + z)).bind fun p => (decode ds).map (p :: ·)
            else
              match ds with
              | [] => none
              | d :: es => (continuation? d).bind fun w =>
                (point? 0x10000 ((((a.toNat-0xF0)*64 + y)*64 + z)*64 + w)).bind fun p =>
                  (decode es).map (p :: ·)

lemma toNat_ofNat {n : ℕ} (h : n < 256) : (UInt8.ofNat n).toNat = n := by
  rw [UInt8.toNat_ofNat', Nat.mod_eq_of_lt h]

lemma continuation?_ofNat {n : ℕ} (h : n < 64) : continuation? (UInt8.ofNat (0x80+n)) = some n := by
  rw [continuation?, toNat_ofNat (by omega), if_pos (by omega), Nat.add_sub_cancel_left]

/-- The value of a code point gives the code point, unless that is a surrogate. -/
lemma point?_val {least : ℕ} {c : CodePoint} (h : least ≤ c.val) :
    point? least c.val = if isSurrogate c then none else some c := by
  have hc : Fin.ofNat 0x110000 c.val = c := Fin.ofNat_val_eq_self c
  have hlt := c.isLt
  by_cases hs : 0xD800 ≤ c.val ∧ c.val < 0xE000
  · have hsurrogate : isSurrogate c = true := by simpa [isSurrogate] using hs
    rw [if_pos hsurrogate, point?, if_neg fun h => h.2.2 hs]
  · have hsurrogate : ¬isSurrogate c = true := by simpa [isSurrogate] using hs
    rw [if_neg hsurrogate, point?, if_pos ⟨h, hlt, hs⟩, hc]

section bytes
variable {a b c : UInt8}

lemma decode_of_lt (h : a.toNat < 0x80) (bs : List UInt8) :
    decode (a :: bs) = (decode bs).map (Fin.ofNat _ a.toNat :: ·) := by
  rw [decode.eq_def]
  dsimp only
  rw [if_pos h]

/-- A byte that is not ASCII, with one more behind it. -/
lemma decode_of_le (h : 0x80 ≤ a.toNat) (b : UInt8) (cs : List UInt8) :
    decode (a :: b :: cs) = (continuation? b).bind fun y =>
      if a.toNat < 0xC0 then none
      else if a.toNat < 0xE0 then
        (point? 0x80 ((a.toNat-0xC0)*64 + y)).bind fun p => (decode cs).map (p :: ·)
      else
        match cs with
        | [] => none
        | c :: ds => (continuation? c).bind fun z =>
          if a.toNat < 0xF0 then
            (point? 0x800 (((a.toNat-0xE0)*64 + y)*64 + z)).bind fun p => (decode ds).map (p :: ·)
          else
            match ds with
            | [] => none
            | d :: es => (continuation? d).bind fun w =>
              (point? 0x10000 ((((a.toNat-0xF0)*64 + y)*64 + z)*64 + w)).bind fun p =>
                (decode es).map (p :: ·) := by
  rw [decode.eq_def]
  dsimp only
  rw [if_neg (by omega)]

lemma decode_singleton (h : 0x80 ≤ a.toNat) : decode [a] = none := by
  rw [decode.eq_def]
  dsimp only
  rw [if_neg (by omega)]

lemma decode_pair (h : 0xE0 ≤ a.toNat) : decode [a, b] = none := by
  rw [decode_of_le (by omega)]
  cases continuation? b with
  | none => rfl
  | some y => rw [Option.bind_some, if_neg (by omega), if_neg (by omega)]

lemma decode_triple (h : 0xF0 ≤ a.toNat) : decode [a, b, c] = none := by
  rw [decode_of_le (by omega)]
  cases continuation? b with
  | none => rfl
  | some y =>
    rw [Option.bind_some, if_neg (by omega), if_neg (by omega)]
    dsimp only
    cases continuation? c with
    | none => rfl
    | some z => rw [Option.bind_some, if_neg (by omega)]

end bytes

section lengths
variable {c : CodePoint} (rest : List UInt8)

lemma decode_encodePoint_one (h : c.val < 0x80) :
    decode (encodePoint c ++ rest) = (decode rest).map (c :: ·) := by
  have hlead := toNat_ofNat (show c.val < 256 by omega)
  rw [encodePoint, if_pos h, List.singleton_append, decode_of_lt (by omega), hlead, Fin.ofNat_val_eq_self]

lemma decode_encodePoint_two (h : 0x80 ≤ c.val) (h' : c.val < 0x800) :
    decode (encodePoint c ++ rest) = (point? 0x80 c.val).bind fun p => (decode rest).map (p :: ·) := by
  have hlead := toNat_ofNat (show 0xC0 + c.val/64 < 256 by omega)
  have hvalue : (0xC0 + c.val/64 - 0xC0)*64 + c.val%64 = c.val := by omega
  rw [encodePoint, if_neg (by omega), if_pos h', List.cons_append, List.singleton_append,
    decode_of_le (by omega), hlead, continuation?_ofNat (by omega), Option.bind_some, if_neg (by omega),
    if_pos (by omega), hvalue]

lemma decode_encodePoint_three (h : 0x800 ≤ c.val) (h' : c.val < 0x10000) :
    decode (encodePoint c ++ rest) = (point? 0x800 c.val).bind fun p => (decode rest).map (p :: ·) := by
  have hlead := toNat_ofNat (show 0xE0 + c.val/4096 < 256 by omega)
  have hvalue : ((0xE0 + c.val/4096 - 0xE0)*64 + c.val/64%64)*64 + c.val%64 = c.val := by omega
  rw [encodePoint, if_neg (by omega), if_neg (by omega), if_pos h', List.cons_append, List.cons_append,
    List.singleton_append, decode_of_le (by omega)]
  dsimp only
  rw [hlead, continuation?_ofNat (by omega), Option.bind_some, if_neg (by omega),
    if_neg (by omega), continuation?_ofNat (by omega), Option.bind_some, if_pos (by omega), hvalue]

lemma decode_encodePoint_four (h : 0x10000 ≤ c.val) :
    decode (encodePoint c ++ rest) = (point? 0x10000 c.val).bind fun p => (decode rest).map (p :: ·) := by
  have hlt := c.isLt
  have hlead := toNat_ofNat (show 0xF0 + c.val/262144 < 256 by omega)
  have hvalue : (((0xF0 + c.val/262144 - 0xF0)*64 + c.val/4096%64)*64 + c.val/64%64)*64 + c.val%64 =
      c.val := by omega
  rw [encodePoint, if_neg (by omega), if_neg (by omega), if_neg (by omega), List.cons_append,
    List.cons_append, List.cons_append, List.singleton_append, decode_of_le (by omega)]
  dsimp only
  rw [hlead, continuation?_ofNat (by omega), Option.bind_some, if_neg (by omega),
    if_neg (by omega), continuation?_ofNat (by omega), Option.bind_some, if_neg (by omega),
    continuation?_ofNat (by omega), Option.bind_some, hvalue]

end lengths

/-- The decoder reads back the bytes of a code point, unless that is a surrogate. -/
theorem decode_encodePoint_append (c : CodePoint) (rest : List UInt8) :
    decode (encodePoint c ++ rest) = if isSurrogate c then none else (decode rest).map (c :: ·) := by
  have hpoint : ∀ {least : ℕ}, least ≤ c.val →
      (point? least c.val).bind (fun p => (decode rest).map (p :: ·)) =
        if isSurrogate c then none else (decode rest).map (c :: ·) := by
    intro least h
    rw [point?_val h]
    split_ifs <;> rfl
  by_cases h1 : c.val < 0x80
  · have hs : ¬isSurrogate c = true := by simp [isSurrogate]; omega
    rw [decode_encodePoint_one rest h1, if_neg hs]
  · by_cases h2 : c.val < 0x800
    · rw [decode_encodePoint_two rest (by omega) h2, hpoint (by omega)]
    · by_cases h3 : c.val < 0x10000
      · rw [decode_encodePoint_three rest (by omega) h3, hpoint (by omega)]
      · rw [decode_encodePoint_four rest (by omega), hpoint (by omega)]

/-- The decoder reads back a text exactly if the text has no surrogates. -/
theorem decode_encode (t : Text) : decode (encode t) = if t.any isSurrogate then none else some t := by
  induction t with
  | nil => rfl
  | cons c t ih =>
    rw [encode, List.flatMap_cons, decode_encodePoint_append, List.any_cons]
    by_cases hc : isSurrogate c = true
    · simp only [hc, Bool.true_or, if_true]
    · rw [if_neg hc, show decode (t.flatMap encodePoint) = _ from ih, Bool.eq_false_iff.mpr hc,
        Bool.false_or]
      split_ifs <;> rfl

lemma length_encodePoint_pos (c : CodePoint) : 0 < (encodePoint c).length := by
  unfold encodePoint
  dsimp only
  split_ifs <;> simp

/-- The first bytes of a code point alone cannot be decoded. -/
theorem decode_take_encodePoint {c : CodePoint} {k : ℕ} (hk : 0 < k) (hlength : k < (encodePoint c).length) :
    decode ((encodePoint c).take k) = none := by
  have hlt := c.isLt
  unfold encodePoint at hlength ⊢
  dsimp only at hlength ⊢
  split_ifs at hlength ⊢ with h1 h2 h3
  · simp only [List.length_cons, List.length_nil] at hlength
    omega
  · have hone : k = 1 := by
      simp only [List.length_cons, List.length_nil] at hlength
      omega
    subst hone
    apply decode_singleton
    rw [toNat_ofNat (by omega)]
    omega
  · have hlead := toNat_ofNat (show 0xE0 + c.val/4096 < 256 by omega)
    obtain rfl | rfl : k = 1 ∨ k = 2 := by
      simp only [List.length_cons, List.length_nil] at hlength
      omega
    · exact decode_singleton (by omega)
    · exact decode_pair (by omega)
  · have hlead := toNat_ofNat (show 0xF0 + c.val/262144 < 256 by omega)
    obtain rfl | rfl | rfl : k = 1 ∨ k = 2 ∨ k = 3 := by
      simp only [List.length_cons, List.length_nil] at hlength
      omega
    · exact decode_singleton (by omega)
    · exact decode_pair (by omega)
    · exact decode_triple (by omega)

section append
variable {rest : List UInt8}

/-- One more code point in front of what is decoded in front of the rest. -/
lemma decode_append_step {b : List UInt8} (p? : Option CodePoint) {t : Text}
    (ih : ∀ {t}, decode b = some t → decode (b ++ rest) = (decode rest).map (t ++ ·))
    (h : (p?.bind fun p => (decode b).map (p :: ·)) = some t) :
    (p?.bind fun p => (decode (b ++ rest)).map (p :: ·)) = (decode rest).map (t ++ ·) := by
  obtain ⟨p, rfl, h⟩ := Option.bind_eq_some_iff.mp h
  obtain ⟨t, ht, rfl⟩ := Option.map_eq_some_iff.mp h
  rw [Option.bind_some, ih ht, Option.map_map]
  rfl

/-- What decodes is decoded in front of anything else. -/
theorem decode_append {b : List UInt8} {t : Text} (h : decode b = some t) (rest : List UInt8) :
    decode (b ++ rest) = (decode rest).map (t ++ ·) := by
  induction b using decode.induct generalizing t with
  | case1 =>
    cases h
    simp
  | case2 a b ha ih =>
    rw [decode_of_lt ha] at h
    rw [List.cons_append, decode_of_lt ha]
    exact decode_append_step (some _) ih h
  | case3 a ha =>
    rw [decode_singleton (by omega)] at h
    cases h
  | case4 a ha b cs ih ihs =>
    rw [decode_of_le (by omega)] at h
    rw [List.cons_append, List.cons_append, decode_of_le (by omega)]
    obtain ⟨y, hy, h⟩ := Option.bind_eq_some_iff.mp h
    rw [hy, Option.bind_some]
    by_cases hlead : a.toNat < 0xC0
    · rw [if_pos hlead] at h
      cases h
    rw [if_neg hlead] at h ⊢
    by_cases htwo : a.toNat < 0xE0
    · rw [if_pos htwo] at h ⊢
      exact decode_append_step _ ih h
    rw [if_neg htwo] at h ⊢
    cases cs with
    | nil => cases h
    | cons c ds =>
      rw [List.cons_append]
      dsimp only at h ihs ⊢
      obtain ⟨z, hz, h⟩ := Option.bind_eq_some_iff.mp h
      rw [hz, Option.bind_some]
      by_cases hthree : a.toNat < 0xF0
      · rw [if_pos hthree] at h ⊢
        exact decode_append_step _ ihs.1 h
      rw [if_neg hthree] at h ⊢
      cases ds with
      | nil => cases h
      | cons d es =>
        rw [List.cons_append]
        dsimp only at h ihs ⊢
        obtain ⟨w, hw, h⟩ := Option.bind_eq_some_iff.mp h
        rw [hw, Option.bind_some]
        exact decode_append_step _ ihs.2 h

/-- Behind what decodes, the rest decides. -/
lemma isSome_decode_append {b : List UInt8} (h : (decode b).isSome = true) (rest : List UInt8) :
    (decode (b ++ rest)).isSome = (decode rest).isSome := by
  obtain ⟨t, ht⟩ := Option.isSome_iff_exists.mp h
  rw [decode_append ht, Option.isSome_map]

end append

lemma encode_append (t u : Text) : encode (t ++ u) = encode t ++ encode u := List.flatMap_append

lemma encode_cons (c : CodePoint) (t : Text) : encode (c :: t) = encodePoint c ++ encode t := rfl

/-- A text is cut between its bytes at the end of a code point, if the front can be decoded. -/
theorem exists_prefix_of_decode_take {t : Text} {k : ℕ} (ht : t.any isSurrogate = false)
    (h : (decode ((encode t).take k)).isSome = true) : ∃ u, u <+: t ∧ (encode t).take k = encode u := by
  induction t generalizing k with
  | nil => exact ⟨[], List.prefix_rfl, by simp [encode]⟩
  | cons c t ih =>
    rw [List.any_cons, Bool.or_eq_false_iff] at ht
    rw [encode_cons] at h ⊢
    obtain hk | hk := Nat.lt_or_ge k (encodePoint c).length
    · rw [List.take_append_of_le_length (Nat.le_of_lt hk)] at h ⊢
      obtain rfl | hpos := Nat.eq_zero_or_pos k
      · exact ⟨[], List.nil_prefix, rfl⟩
      · rw [decode_take_encodePoint hpos hk] at h
        cases h
    · have htake : (encodePoint c ++ encode t).take k =
          encodePoint c ++ (encode t).take (k - (encodePoint c).length) := by
        rw [List.take_append, List.take_of_length_le hk]
      rw [htake, decode_encodePoint_append, if_neg (by rw [ht.1]; exact Bool.false_ne_true),
        Option.isSome_map] at h
      obtain ⟨u, hu, hencode⟩ := ih ht.2 h
      rw [htake, hencode]
      exact ⟨c :: u, List.cons_prefix_cons.mpr ⟨rfl, hu⟩, rfl⟩

end Utf8
