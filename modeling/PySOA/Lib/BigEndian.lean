import Mathlib.Data.List.Basic
import Mathlib.Data.Nat.Basic
import Mathlib.Algebra.Order.Ring.Nat

/-! Big-endian fields of fixed width: unsigned numbers, and signed ones in two's complement. -/
namespace BigEndian

/-- The lowest `width` bytes of a number. -/
def bytes : ℕ → ℕ → List UInt8
  | 0, _ => []
  | width+1, n => bytes width (n/256) ++ [UInt8.ofNat n]

def number (b : List UInt8) : ℕ := b.foldl (fun acc x => acc*256 + x.toNat) 0

@[simp] theorem length_bytes (width n : ℕ) : (bytes width n).length = width := by
  induction width generalizing n with
  | zero => rfl
  | succ width ih => rw [bytes, List.length_append, ih, List.length_singleton]

theorem number_bytes {width n : ℕ} (h : n < 256^width) : number (bytes width n) = n := by
  induction width generalizing n with
  | zero => rw [Nat.pow_zero, Nat.lt_one_iff] at h; rw [h]; rfl
  | succ width ih =>
    have hlast : (UInt8.ofNat n).toNat = n%256 := UInt8.toNat_ofNat'
    have hrest : number (bytes width (n/256)) = n/256 :=
      ih (Nat.div_lt_of_lt_mul (by rwa [Nat.pow_succ, Nat.mul_comm] at h))
    rw [bytes, number, List.foldl_append, List.foldl_cons, List.foldl_nil, hlast]
    calc number (bytes width (n/256)) * 256 + n%256 = n/256*256 + n%256 := by rw [hrest]
      _ = n := Nat.div_add_mod' n 256

/-- The residue that stands for a signed number. -/
def residue (width : ℕ) (n : ℤ) : ℕ := (n % (256^width : ℕ)).toNat

def signed (width m : ℕ) : ℤ := if 2*m < 256^width then m else (m : ℤ) - (256^width : ℕ)

/-- The signed numbers that a field of the width holds. -/
def Fits (width : ℕ) (n : ℤ) : Prop := -(256^width : ℕ) ≤ 2*n ∧ 2*n < (256^width : ℕ)

instance (width : ℕ) (n : ℤ) : Decidable (Fits width n) :=
  inferInstanceAs (Decidable (_ ∧ _))

theorem residue_lt (width : ℕ) (n : ℤ) : residue width n < 256^width := by
  have hpos : (0 : ℤ) < (256^width : ℕ) := by exact_mod_cast Nat.pow_pos (show 0 < 256 by decide)
  have hmod := Int.emod_lt_of_pos n hpos
  have hnonneg := Int.emod_nonneg n hpos.ne'
  unfold residue
  omega

theorem signed_residue {width : ℕ} {n : ℤ} (h : Fits width n) : signed width (residue width n) = n := by
  obtain ⟨hlow, hhigh⟩ := h
  unfold signed residue
  generalize 256^width = m at *
  by_cases hn : 0 ≤ n
  · rw [Int.emod_eq_of_lt hn (by omega), if_pos (by omega)]
    exact Int.toNat_of_nonneg hn
  · have hmod : n % (m : ℤ) = n + m := by
      rw [← Int.add_emod_right, Int.emod_eq_of_lt (by omega) (by omega)]
    rw [hmod, if_neg (by omega)]
    omega

end BigEndian
