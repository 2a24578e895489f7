import Mathlib.Data.List.Perm.Basic
import Mathlib.Data.List.Forall2

/-! Lists that are rearrangements of each other, up to an equivalence `==` of their items. -/
namespace Rearrangement
variable {α : Type*} [BEq α]

/-- The items of the first list are those of the second in some order. -/
def IsRearrangement (xs ys : List α) : Prop :=
  ∃ l, List.Forall₂ (fun x y => (x == y) = true) xs l ∧ l.Perm ys

variable {xs ys : List α}

lemma IsRearrangement.length_eq (h : IsRearrangement xs ys) : xs.length = ys.length := by
  obtain ⟨l, hl, hperm⟩ := h
  exact hl.length_eq.trans hperm.length_eq

lemma count_eq_of_forall₂ [PartialEquivBEq α] (h : List.Forall₂ (fun x y => (x == y) = true) xs ys) (z : α) :
    xs.count z = ys.count z := by
  induction h with
  | nil => rfl
  | cons hxy _ ih => rw [List.count_cons, List.count_cons, ih, BEq.congr_left hxy]

lemma IsRearrangement.count_eq [PartialEquivBEq α] (h : IsRearrangement xs ys) (z : α) :
    xs.count z = ys.count z := by
  obtain ⟨l, hl, hperm⟩ := h
  rw [count_eq_of_forall₂ hl, List.count_eq_countP, List.count_eq_countP]
  exact hperm.countP_eq _

/-- An item that occurs can be brought to the front. -/
lemma exists_perm_cons {z : α} (h : 0 < ys.count z) : ∃ y ys', (y == z) = true ∧ ys.Perm (y :: ys') := by
  rw [List.count_eq_countP, List.countP_pos_iff] at h
  obtain ⟨y, hy, hyz⟩ := h
  obtain ⟨front, back, rfl⟩ := List.append_of_mem hy
  exact ⟨y, front ++ back, hyz, List.perm_middle⟩

/-- Items that occur often enough can all be matched. -/
lemma exists_match [EquivBEq α] (h : ∀ x ∈ xs, xs.count x ≤ ys.count x) :
    ∃ l rest, List.Forall₂ (fun x y => (x == y) = true) xs l ∧ (l ++ rest).Perm ys := by
  induction xs generalizing ys with
  | nil => exact ⟨[], ys, .nil, .refl _⟩
  | cons x xs ih =>
    have hpos : 0 < ys.count x := by
      have hle := h x List.mem_cons_self
      rw [List.count_cons, BEq.rfl, if_pos rfl] at hle
      omega
    obtain ⟨y, ys', hyx, hperm⟩ := exists_perm_cons hpos
    have hrest : ∀ z ∈ xs, xs.count z ≤ ys'.count z := by
      intro z hz
      have hle := h z (List.mem_cons_of_mem _ hz)
      rw [List.count_eq_countP, List.count_eq_countP, hperm.countP_eq, ← List.count_eq_countP,
        ← List.count_eq_countP, List.count_cons, List.count_cons, BEq.congr_left hyx] at hle
      omega
    obtain ⟨l, rest, hl, hsplit⟩ := ih hrest
    refine ⟨y :: l, rest, .cons (BEq.symm hyx) hl, ?_⟩
    exact (hsplit.cons y).trans hperm.symm

theorem isRearrangement_iff [EquivBEq α] :
    IsRearrangement xs ys ↔ xs.length = ys.length ∧ ∀ x ∈ xs, xs.count x ≤ ys.count x := by
  constructor
  · intro h
    exact ⟨h.length_eq, fun x _ => Nat.le_of_eq (h.count_eq x)⟩
  · rintro ⟨hlength, hcount⟩
    obtain ⟨l, rest, hl, hperm⟩ := exists_match hcount
    have hsum := hperm.length_eq
    rw [List.length_append, ← hl.length_eq] at hsum
    have hnil : rest = [] := List.length_eq_zero_iff.mp (by omega)
    rw [hnil, List.append_nil] at hperm
    exact ⟨l, hl, hperm⟩

end Rearrangement
