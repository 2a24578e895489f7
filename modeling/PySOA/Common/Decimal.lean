import PySOA.Common.Bytes

/-! Decimal numbers and their texts, which are kept as ASCII bytes. -/
namespace PySOA

/-- A finite `decimal.Decimal`: the sign, the coefficient and the exponent. -/
structure Decimal where
  negative : Bool
  coefficient : ℕ
  exponent : ℤ
  deriving DecidableEq

namespace Decimal

/-- The exponent of a text, if there is one; `capitals` is that of the context. -/
def exponentBytes (capitals : Bool) (n : ℤ) : Bytes :=
  if n = 0 then []
  else (if capitals then 69 else 101) :: (if n < 0 then 45 else 43) :: Bytes.decimal n.natAbs

/-- The digits with a point at the given place, and zeros where digits are missing. -/
def withPoint (digits : Bytes) (dotPlace : ℤ) : Bytes :=
  if dotPlace ≤ 0 then 48 :: 46 :: (List.replicate (-dotPlace).toNat 48 ++ digits)
  else if digits.length ≤ dotPlace then digits ++ List.replicate (dotPlace - digits.length).toNat 48
  else digits.take dotPlace.toNat ++ 46 :: digits.drop dotPlace.toNat

/-- The number of digits left of the point, if there is no exponent. -/
def leftDigits (d : Decimal) : ℤ := d.exponent + (Bytes.decimal d.coefficient).length

/-- The place of the point: behind the first digit, where an exponent is needed. -/
def dotPlace (d : Decimal) : ℤ :=
  if d.exponent ≤ 0 ∧ -6 < d.leftDigits then d.leftDigits else 1

/-- `str` of a decimal, by the rules for the scientific notation. -/
def toBytes (capitals : Bool) (d : Decimal) : Bytes :=
  (if d.negative then [45] else []) ++ withPoint (Bytes.decimal d.coefficient) d.dotPlace ++
    exponentBytes capitals (d.leftDigits - d.dotPlace)

/-- The number that a part of digits denotes; there has to be a digit. -/
def unsigned? (ds : Bytes) : Option ℕ :=
  if ds ≠ [] ∧ ds.all Bytes.isDigit then some (Bytes.digitsValue ds) else none

/-- The exponent at the end of a text, zero if there is none. -/
def exponent? : Bytes → Option ℤ
  | [] => some 0
  | e :: ds =>
    if e = 69 ∨ e = 101 then
      match ds with
      | 43 :: ds => (unsigned? ds).map fun n : ℕ => (n : ℤ)
      | 45 :: ds => (unsigned? ds).map fun n : ℕ => -(n : ℤ)
      | ds => (unsigned? ds).map fun n : ℕ => (n : ℤ)
    else none

/-- The digits at the start of a text, and what follows them. -/
def digits (b : Bytes) : Bytes × Bytes := (b.takeWhile Bytes.isDigit, b.dropWhile Bytes.isDigit)

/-- A number without sign. -/
def ofUnsigned (negative : Bool) (b : Bytes) : Option Decimal :=
  let (whole, rest) := digits b
  let (fraction, rest) :=
    match rest with
    | 46 :: rest => digits rest
    | _ => ([], rest)
  if whole ++ fraction = [] then none
  else (exponent? rest).map fun exponent =>
    ⟨negative, Bytes.digitsValue (whole ++ fraction), exponent - fraction.length⟩

/-- `decimal.Decimal(text)` for texts of finite numbers; digits outside of ASCII, underscores and
white space around the number are not read. -/
def ofBytes : Bytes → Option Decimal
  | 45 :: b => ofUnsigned true b
  | 43 :: b => ofUnsigned false b
  | b => ofUnsigned false b

lemma unsigned?_decimal (n : ℕ) : unsigned? (Bytes.decimal n) = some n := by
  have hdigits : (Bytes.decimal n).all Bytes.isDigit = true :=
    List.all_eq_true.mpr fun _ hb => Bytes.isDigit_of_mem_decimal hb
  rw [unsigned?, if_pos ⟨Bytes.decimal_ne_nil n, hdigits⟩, Bytes.digitsValue_decimal]

lemma exponent?_exponentBytes (capitals : Bool) (n : ℤ) :
    exponent? (exponentBytes capitals n) = some n := by
  have hletter : (if capitals then (69 : UInt8) else 101) = 69 ∨
      (if capitals then (69 : UInt8) else 101) = 101 := by cases capitals <;> simp
  unfold exponentBytes
  by_cases h0 : n = 0
  · rw [if_pos h0, h0]
    rfl
  · rw [if_neg h0]
    by_cases hn : n < 0
    · have hread : exponent? ((if capitals then 69 else 101) :: 45 :: Bytes.decimal n.natAbs) =
          some (-(n.natAbs : ℤ)) := by
        unfold exponent?
        dsimp only
        rw [if_pos hletter]
        change (unsigned? (Bytes.decimal n.natAbs)).map (fun n : ℕ => -(n : ℤ)) = _
        rw [unsigned?_decimal, Option.map_some]
      rw [if_pos hn, hread]
      congr 1
      omega
    · have hread : exponent? ((if capitals then 69 else 101) :: 43 :: Bytes.decimal n.natAbs) =
          some (n.natAbs : ℤ) := by
        unfold exponent?
        dsimp only
        rw [if_pos hletter]
        change (unsigned? (Bytes.decimal n.natAbs)).map (fun n : ℕ => (n : ℤ)) = _
        rw [unsigned?_decimal, Option.map_some]
      rw [if_neg hn, hread]
      congr 1
      omega

/-- A text that does not go on with a digit. -/
def EndsDigits (rest : Bytes) : Prop := ∀ b ∈ rest.head?, Bytes.isDigit b = false

lemma endsDigits_exponentBytes (capitals : Bool) (n : ℤ) :
    EndsDigits (exponentBytes capitals n) ∧ 46 ∉ (exponentBytes capitals n).head? := by
  have hletter (b : UInt8) (hb : b = 69 ∨ b = 101) (ds : Bytes) :
      EndsDigits (b :: ds) ∧ 46 ∉ (b :: ds).head? := by
    obtain rfl | rfl := hb
    · exact ⟨fun b hb => (Option.some.inj hb) ▸ rfl, fun h => absurd (Option.some.inj h) (by decide)⟩
    · exact ⟨fun b hb => (Option.some.inj hb) ▸ rfl, fun h => absurd (Option.some.inj h) (by decide)⟩
  unfold exponentBytes
  by_cases h0 : n = 0
  · rw [if_pos h0]
    exact ⟨(fun b hb => nomatch hb), (fun h => nomatch h)⟩
  · rw [if_neg h0]
    apply hletter
    cases capitals
    · exact .inr rfl
    · exact .inl rfl

lemma digits_append {ds rest : Bytes} (hds : ∀ b ∈ ds, Bytes.isDigit b = true) (hrest : EndsDigits rest) :
    digits (ds ++ rest) = (ds, rest) := by
  have hrest' : rest.takeWhile Bytes.isDigit = [] ∧ rest.dropWhile Bytes.isDigit = rest := by
    cases rest with
    | nil => exact ⟨rfl, rfl⟩
    | cons b rest =>
      have hb : ¬Bytes.isDigit b = true := by rw [hrest b rfl]; exact Bool.false_ne_true
      exact ⟨List.takeWhile_cons_of_neg hb, List.dropWhile_cons_of_neg hb⟩
  rw [digits, List.takeWhile_append_of_pos hds, List.dropWhile_append_of_pos hds, hrest'.1, hrest'.2,
    List.append_nil]

lemma ofUnsigned_whole {whole rest : Bytes} (negative : Bool) (hne : whole ≠ [])
    (hwhole : ∀ b ∈ whole, Bytes.isDigit b = true) (hrest : EndsDigits rest) (hdot : 46 ∉ rest.head?) :
    ofUnsigned negative (whole ++ rest) = (exponent? rest).map fun exponent =>
      ⟨negative, Bytes.digitsValue whole, exponent⟩ := by
  have hmatch : (match rest with
      | 46 :: rest => digits rest
      | _ => ([], rest)) = ([], rest) := by
    split
    · exact absurd rfl hdot
    · rfl
  unfold ofUnsigned
  simp only [digits_append hwhole hrest, hmatch, List.append_nil, if_neg hne, List.length_nil,
    Nat.cast_zero, Int.sub_zero]

lemma ofUnsigned_fraction {whole fraction rest : Bytes} (negative : Bool) (hne : whole ≠ [])
    (hwhole : ∀ b ∈ whole, Bytes.isDigit b = true) (hfraction : ∀ b ∈ fraction, Bytes.isDigit b = true)
    (hrest : EndsDigits rest) :
    ofUnsigned negative (whole ++ 46 :: (fraction ++ rest)) = (exponent? rest).map fun exponent =>
      ⟨negative, Bytes.digitsValue (whole ++ fraction), exponent - fraction.length⟩ := by
  have hdot : EndsDigits (46 :: (fraction ++ rest)) := by
    intro b hb
    obtain rfl : 46 = b := Option.some.inj hb
    rfl
  unfold ofUnsigned
  simp only [digits_append hwhole hdot, digits_append hfraction hrest]
  rw [if_neg fun h => hne (List.append_eq_nil_iff.mp h).1]

lemma digitsValue_zeros (n : ℕ) (ds : Bytes) :
    Bytes.digitsValue (List.replicate n 48 ++ ds) = Bytes.digitsValue ds := by
  induction n with
  | zero => rfl
  | succ n ih => rw [← ih]; rfl

/-- A number with a point is read as its digits; the exponent makes up for those right of it. -/
lemma ofUnsigned_withPoint (negative : Bool) (n : ℕ) {place : ℤ} {rest : Bytes}
    (hplace : (Bytes.decimal n).length ≤ place → place = (Bytes.decimal n).length)
    (hrest : EndsDigits rest) (hdot : 46 ∉ rest.head?) :
    ofUnsigned negative (withPoint (Bytes.decimal n) place ++ rest) = (exponent? rest).map fun exponent =>
      ⟨negative, n, exponent + place - (Bytes.decimal n).length⟩ := by
  have hdigits : ∀ b ∈ Bytes.decimal n, Bytes.isDigit b = true := fun b hb =>
    Bytes.isDigit_of_mem_decimal hb
  have hne := Bytes.decimal_ne_nil n
  have hvalue := Bytes.digitsValue_decimal n
  generalize Bytes.decimal n = ds at *
  have hlength := List.length_pos_iff.mpr hne
  unfold withPoint
  by_cases h0 : place ≤ 0
  · have hzeros : ∀ b ∈ List.replicate (-place).toNat 48 ++ ds, Bytes.isDigit b = true := by
      intro b hb
      obtain hb | hb := List.mem_append.mp hb
      · rw [List.eq_of_mem_replicate hb]
        rfl
      · exact hdigits b hb
    have hread := ofUnsigned_fraction negative (List.cons_ne_nil 48 [])
      (fun b hb => List.mem_singleton.mp hb ▸ rfl) hzeros hrest
    rw [if_pos h0, List.cons_append, List.cons_append]
    rw [List.singleton_append] at hread
    rw [hread]
    congr 1
    funext exponent
    congr 1
    · exact (digitsValue_zeros ((-place).toNat + 1) ds).trans hvalue
    · simp only [List.length_append, List.length_replicate]
      omega
  · by_cases hle : (ds.length : ℤ) ≤ place
    · have hzeros : (place - ds.length).toNat = 0 := by
        rw [hplace hle]
        omega
      rw [if_neg h0, if_pos hle, hzeros, List.replicate_zero, List.append_nil,
        ofUnsigned_whole negative hne hdigits hrest hdot]
      congr 1
      funext exponent
      rw [hvalue, hplace hle, Int.add_sub_cancel]
    · have htake : ds.take place.toNat ≠ [] := by
        rw [Ne, List.take_eq_nil_iff]
        rintro (h | h)
        · omega
        · exact hne h
      rw [if_neg h0, if_neg hle, List.append_assoc, List.cons_append,
        ofUnsigned_fraction negative htake (fun b hb => hdigits b (List.mem_of_mem_take hb))
          (fun b hb => hdigits b (List.mem_of_mem_drop hb)) hrest, List.take_append_drop, hvalue]
      congr 1
      funext exponent
      congr 1
      rw [List.length_drop]
      omega

lemma ofBytes_of_isDigit {b : UInt8} (h : Bytes.isDigit b = true) (rest : Bytes) :
    ofBytes (b :: rest) = ofUnsigned false (b :: rest) := by
  unfold ofBytes
  split
  · next heq =>
    cases heq
    cases h
  · next heq =>
    cases heq
    cases h
  · rfl

lemma exists_withPoint_eq_cons (n : ℕ) (place : ℤ) :
    ∃ b rest, withPoint (Bytes.decimal n) place = b :: rest ∧ Bytes.isDigit b = true := by
  obtain ⟨b, ds, hds⟩ := List.exists_cons_of_ne_nil (Bytes.decimal_ne_nil n)
  have hb : Bytes.isDigit b = true := Bytes.isDigit_of_mem_decimal (hds ▸ List.mem_cons_self)
  unfold withPoint
  by_cases h0 : place ≤ 0
  · exact ⟨48, _, if_pos h0, rfl⟩
  · obtain ⟨k, hk⟩ : ∃ k, place.toNat = k+1 := ⟨place.toNat - 1, by omega⟩
    rw [if_neg h0, hds, hk]
    split_ifs
    · exact ⟨b, _, rfl, hb⟩
    · exact ⟨b, _, rfl, hb⟩

/-- The text of a decimal denotes the decimal. -/
theorem ofBytes_toBytes (capitals : Bool) (d : Decimal) : ofBytes (d.toBytes capitals) = some d := by
  have hpos := List.length_pos_iff.mpr (Bytes.decimal_ne_nil d.coefficient)
  have hleft : d.leftDigits = d.exponent + (Bytes.decimal d.coefficient).length := rfl
  have hplace : (Bytes.decimal d.coefficient).length ≤ d.dotPlace →
      d.dotPlace = (Bytes.decimal d.coefficient).length := by
    unfold dotPlace
    split_ifs <;> omega
  obtain ⟨hends, hdot⟩ := endsDigits_exponentBytes capitals (d.leftDigits - d.dotPlace)
  have hread := ofUnsigned_withPoint d.negative d.coefficient hplace hends hdot
  have hexponent : d.leftDigits - d.dotPlace + d.dotPlace - (Bytes.decimal d.coefficient).length =
      d.exponent := by omega
  rw [exponent?_exponentBytes, Option.map_some, hexponent] at hread
  unfold toBytes
  cases hnegative : d.negative with
  | true =>
    rw [hnegative] at hread
    rw [if_pos rfl, List.append_assoc, List.singleton_append, ofBytes, hread, ← hnegative]
  | false =>
    rw [hnegative] at hread
    obtain ⟨b, rest, hcons, hb⟩ := exists_withPoint_eq_cons d.coefficient d.dotPlace
    rw [if_neg Bool.false_ne_true, List.nil_append, hcons, List.cons_append, ofBytes_of_isDigit hb,
      ← List.cons_append, ← hcons, hread, ← hnegative]

end Decimal
end PySOA
