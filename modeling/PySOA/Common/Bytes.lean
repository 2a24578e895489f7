import Mathlib.Data.Nat.Digits.Defs
import Mathlib.Data.Nat.Digits.Lemmas
import Mathlib.Data.List.Basic
import Mathlib.Tactic.IntervalCases

/-! Byte strings, decimal numerals in them and the integers that `int` reads. -/
namespace PySOA

/-- A byte string. -/
abbrev Bytes := List UInt8

/-- The bytes of an ASCII literal. -/
def ascii (s : String) : Bytes := s.toList.map (fun c => UInt8.ofNat c.toNat)

namespace Bytes

/-- `b.decode('utf-8')` of ASCII bytes. -/
def decode (b : Bytes) : String := String.ofList (b.map (fun c => Char.ofNat c.toNat))

/-- The class `[0-9]`. -/
def isDigit (b : UInt8) : Bool := 48 ≤ b.toNat && b.toNat ≤ 57

/-- The class `\s` of a pattern over bytes: space, tab, newline, carriage return, form feed
and vertical tab. -/
def isSpace (b : UInt8) : Bool := b.toNat = 32 || (9 ≤ b.toNat && b.toNat ≤ 13)

/-- The class `[a-zA-Z0-9_/.-]`. -/
def isHeaderValue (b : UInt8) : Bool :=
  (97 ≤ b.toNat && b.toNat ≤ 122) || (65 ≤ b.toNat && b.toNat ≤ 90) || isDigit b ||
    b.toNat = 95 || b.toNat = 47 || b.toNat = 46 || b.toNat = 45

/-- The number that a string of digits denotes. -/
def digitsValue (ds : Bytes) : ℕ := ds.foldl (fun acc d => acc*10 + (d.toNat-48)) 0

/-- `%d` of a natural number. -/
def decimal (n : ℕ) : Bytes :=
  if n = 0 then [48] else (Nat.digits 10 n).reverse.map (fun d => UInt8.ofNat (48+d))

/-- The digits that `int` accepts: groups of digits with single underscores between them. -/
def unsigned? (ds : Bytes) : Option ℕ :=
  if (ds.splitOn 95).all (fun g => !g.isEmpty && g.all isDigit) then
    some (digitsValue (ds.filter isDigit))
  else none

/-- `int` of a text over the header value characters, which contain no plus sign and no
white space; `none` is a `ValueError`. -/
def int? : Bytes → Option ℤ
  | 45 :: ds => (unsigned? ds).map (fun n => -(n : ℤ))
  | ds => (unsigned? ds).map (fun n => (n : ℤ))

lemma digit_byte {d : ℕ} (h : d < 10) :
    (UInt8.ofNat (48+d)).toNat = 48+d ∧ isDigit (UInt8.ofNat (48+d)) = true := by
  interval_cases d <;> decide

lemma isDigit_of_mem_decimal {n : ℕ} {b : UInt8} (h : b ∈ decimal n) : isDigit b = true := by
  unfold decimal at h
  split_ifs at h
  · simp only [List.mem_singleton] at h
    subst h
    decide
  · obtain ⟨d, hd, rfl⟩ := List.mem_map.mp h
    exact (digit_byte (Nat.digits_lt_base (by decide) (List.mem_reverse.mp hd))).2

lemma decimal_ne_nil (n : ℕ) : decimal n ≠ [] := by
  unfold decimal
  split_ifs with h
  · simp
  · simpa using Nat.digits_ne_nil_iff_ne_zero.mpr h

lemma digitsValue_digits (ds : List ℕ) (h : ∀ d ∈ ds, d < 10) :
    digitsValue (ds.reverse.map (fun d => UInt8.ofNat (48+d))) = Nat.ofDigits 10 ds := by
  induction ds with
  | nil => rfl
  | cons d ds ih =>
    have hd := (digit_byte (h d List.mem_cons_self)).1
    have ht := ih (fun x hx => h x (List.mem_cons_of_mem d hx))
    simp only [digitsValue] at ht
    simp only [digitsValue, List.reverse_cons, List.map_append, List.map_cons, List.map_nil,
      List.foldl_append, List.foldl_cons, List.foldl_nil, ht, hd, Nat.ofDigits_cons]
    omega

/-- A printed number has the value that was printed. -/
theorem digitsValue_decimal (n : ℕ) : digitsValue (decimal n) = n := by
  unfold decimal
  split_ifs with h
  · subst h
    rfl
  · rw [digitsValue_digits _ (fun d hd => Nat.digits_lt_base (by decide) hd)]
    exact Nat.ofDigits_digits 10 n

lemma unsigned?_of_digits {ds : Bytes} (hne : ds ≠ []) (h : ∀ b ∈ ds, isDigit b = true) :
    unsigned? ds = some (digitsValue ds) := by
  have hu : (95 : UInt8) ∉ ds := fun hm => absurd (h 95 hm) (by decide)
  have hsplit : ds.splitOn 95 = [ds] := by
    rw [List.splitOn, List.splitOnP_eq_singleton]
    intro b hb
    have : b ≠ 95 := fun he => hu (he ▸ hb)
    simpa using this
  have hfilter : ds.filter isDigit = ds := List.filter_eq_self.mpr h
  have hall : ds.all isDigit = true := List.all_eq_true.mpr h
  simp [unsigned?, hsplit, hfilter, hall, hne]

/-- `int` undoes `%d`. -/
theorem int?_decimal (n : ℕ) : int? (decimal n) = some (n : ℤ) := by
  have hu := unsigned?_of_digits (decimal_ne_nil n) (fun b hb => isDigit_of_mem_decimal hb)
  rw [digitsValue_decimal] at hu
  cases hd : decimal n with
  | nil => exact absurd hd (decimal_ne_nil n)
  | cons b bs =>
    have hb : isDigit b = true := isDigit_of_mem_decimal (n := n) (by simp [hd])
    have h45 : b ≠ 45 := by
      rintro rfl
      simp [isDigit] at hb
    rw [hd] at hu
    unfold int?
    split
    · next he => exact absurd (List.cons.inj he).1 h45
    · simp [hu]

lemma isHeaderValue_of_isDigit {b : UInt8} (h : isDigit b = true) : isHeaderValue b = true := by
  simp [isHeaderValue, h]

lemma not_isSpace_of_isHeaderValue {b : UInt8} (h : isHeaderValue b = true) : isSpace b = false := by
  simp only [isHeaderValue, isDigit, isSpace, Bool.or_eq_true, Bool.and_eq_true,
    decide_eq_true_eq, Bool.or_eq_false_iff, Bool.and_eq_false_iff, decide_eq_false_iff_not] at h ⊢
  omega

end Bytes
end PySOA
