import Mathlib.Algebra.Order.BigOperators.Group.Finset
import Mathlib.Data.Rat.Floor
import Mathlib.Tactic.Ring

/-! Cutting a list in consecutive slices of one length, the last of which may be shorter. -/
namespace Slices
variable {α : Type*}

/-- The slice with the given index, counted from zero. -/
def slice (c i : ℕ) (l : List α) : List α := (l.drop (i*c)).take c

/-- The first slices of a list, in order. -/
def slices (c k : ℕ) (l : List α) : List (List α) := (List.range k).map (fun i => slice c i l)

/-- The number of slices that a list needs. -/
def count (n c : ℕ) : ℕ := (n+c-1)/c

@[simp] theorem length_slices (c k : ℕ) (l : List α) : (slices c k l).length = k := by
  simp [slices]

lemma flatten_slices_eq_take (c k : ℕ) (l : List α) : (slices c k l).flatten = l.take (k*c) := by
  induction k with
  | zero => simp [slices]
  | succ k ih =>
    have hsplit : slices c (k+1) l = slices c k l ++ [slice c k l] := by
      simp [slices, List.range_succ]
    rw [hsplit, List.flatten_append, ih, Nat.succ_mul, List.take_add]
    simp [slice]

lemma le_count_mul (n : ℕ) {c : ℕ} (hc : 0 < c) : n ≤ count n c * c := by
  have h := Nat.lt_div_mul_add (a := n+c-1) hc
  unfold count
  omega

/-- The number of slices is the quotient, rounded up. -/
theorem count_eq_ceil (n : ℕ) {c : ℕ} (hc : 0 < c) : count n c = ⌈(n : ℚ)/c⌉₊ := by
  apply eq_of_forall_ge_iff
  intro k
  have hpos : (0 : ℚ) < c := by exact_mod_cast hc
  rw [Nat.ceil_le, div_le_iff₀ hpos, count, ← Nat.lt_succ_iff, Nat.div_lt_iff_lt_mul hc, Nat.succ_mul]
  norm_cast
  omega

/-- Every index below the count starts inside the list. -/
lemma mul_lt_of_lt_count {n c i : ℕ} (hi : i < count n c) : i*c < n := by
  have hc : 0 < c := by
    by_contra h
    simp [count, Nat.eq_zero_of_not_pos h] at hi
  have h := (Nat.le_div_iff_mul_le hc).mp (show i+1 ≤ (n+c-1)/c from hi)
  rw [Nat.succ_mul] at h
  omega

/-- The slices of a list put together give the list back. -/
theorem flatten_slices {c : ℕ} (hc : 0 < c) (l : List α) :
    (slices c (count l.length c) l).flatten = l := by
  rw [flatten_slices_eq_take]
  exact List.take_of_length_le (le_count_mul l.length hc)

theorem slice_length_le (c i : ℕ) (l : List α) : (slice c i l).length ≤ c := by
  simp [slice]

theorem slice_ne_nil {c i : ℕ} {l : List α} (hi : i < count l.length c) : slice c i l ≠ [] := by
  have hlt := mul_lt_of_lt_count hi
  have hc : 0 < c := by
    by_contra h
    simp [count, Nat.eq_zero_of_not_pos h] at hi
  intro h
  have hlen := congrArg List.length h
  simp only [slice, List.length_take, List.length_drop, List.length_nil] at hlen
  omega

/-- No slice is empty. -/
lemma ne_nil_of_mem_slices {c : ℕ} {l piece : List α} (h : piece ∈ slices c (count l.length c) l) :
    piece ≠ [] := by
  obtain ⟨i, hi, rfl⟩ := List.mem_map.mp h
  exact slice_ne_nil (List.mem_range.mp hi)

lemma length_le_of_mem_slices {c k : ℕ} {l piece : List α} (h : piece ∈ slices c k l) : piece.length ≤ c := by
  obtain ⟨i, -, rfl⟩ := List.mem_map.mp h
  exact slice_length_le c i l

/-- A list longer than a slice needs at least two of them. -/
theorem two_le_count {n c : ℕ} (hc : 0 < c) (h : c < n) : 2 ≤ count n c := by
  rw [count, Nat.le_div_iff_mul_le hc]
  omega

lemma length_flatten_range (f : ℕ → List α) (k : ℕ) :
    ((List.range k).map f).flatten.length = ∑ i ∈ Finset.range k, (f i).length := by
  induction k with
  | zero => rfl
  | succ k ih => simp [List.range_succ, Finset.sum_range_succ, ih]

/-- Pieces that are no longer than others and together as long have the same lengths. -/
theorem length_eq_of_flatten {f g : ℕ → List α} {k : ℕ}
    (hle : ∀ i < k, (f i).length ≤ (g i).length)
    (h : ((List.range k).map f).flatten.length = ((List.range k).map g).flatten.length) :
    ∀ i < k, (f i).length = (g i).length := by
  rw [length_flatten_range, length_flatten_range] at h
  have hall := (Finset.sum_eq_sum_iff_of_le fun i hi => hle i (Finset.mem_range.mp hi)).mp h
  exact fun i hi => hall i (Finset.mem_range.mpr hi)

end Slices
