import Mathlib.Algebra.BigOperators.Group.List.Basic
import Mathlib.Algebra.Order.Ring.Int
import Mathlib.Data.List.Infix
import Mathlib.Tactic.Linarith

/-! A list of indivisible items with weights, cut off piece by piece from the front, where each piece
has a limit of its own. Taking as much as fits is the best that can be done. -/
namespace GreedyCuts
variable {α : Type*} (w : α → ℕ)

def weight (l : List α) : ℕ := (l.map w).sum

@[simp] lemma weight_nil : weight w [] = 0 := rfl

@[simp] lemma weight_cons (a : α) (l : List α) : weight w (a :: l) = w a + weight w l := by
  simp [weight]

@[simp] lemma weight_append (l l' : List α) : weight w (l ++ l') = weight w l + weight w l' := by
  simp [weight]

/-- The longest part from the front that is within a limit. -/
def fit : ℤ → List α → List α
  | _, [] => []
  | k, a :: l => if (w a : ℤ) ≤ k then a :: fit (k - w a) l else []

lemma fit_front (k : ℤ) (l : List α) : fit w k l <+: l := by
  induction l generalizing k with
  | nil => exact List.prefix_rfl
  | cons a l ih =>
    rw [fit]
    split_ifs
    · exact List.cons_prefix_cons.mpr ⟨rfl, ih _⟩
    · exact List.nil_prefix

lemma fit_append_drop (k : ℤ) (l : List α) : fit w k l ++ l.drop (fit w k l).length = l :=
  List.prefix_iff_eq_append.mp (fit_front w k l)

lemma weight_fit_le {k : ℤ} (hk : 0 ≤ k) (l : List α) : (weight w (fit w k l) : ℤ) ≤ k := by
  induction l generalizing k with
  | nil => simpa [fit] using hk
  | cons a l ih =>
    rw [fit]
    split_ifs with h
    · have htail := ih (k := k - w a) (by omega)
      rw [weight_cons, Nat.cast_add]
      omega
    · simpa using hk

/-- Every part from the front that is within the limit is within the longest one. -/
lemma prefix_fit {k : ℤ} {p l : List α} (hp : p <+: l) (hk : (weight w p : ℤ) ≤ k) : p <+: fit w k l := by
  induction l generalizing k p with
  | nil =>
    rw [List.prefix_nil.mp hp]
    exact List.nil_prefix
  | cons a l ih =>
    cases p with
    | nil => exact List.nil_prefix
    | cons b p =>
      obtain ⟨rfl, htail⟩ := List.cons_prefix_cons.mp hp
      rw [weight_cons, Nat.cast_add] at hk
      rw [fit, if_pos (by omega)]
      apply List.cons_prefix_cons.mpr
      exact ⟨rfl, ih htail (by omega)⟩

/-- What is left after a number of cuts, each of which takes as much as fits. -/
def rest (limit : ℕ → ℤ) : ℕ → List α → List α
  | 0, l => l
  | n+1, l => rest (fun j => limit (j+1)) n (l.drop (fit w (limit 0) l).length)

/-- The list can be cut into pieces within their limits. -/
def Cuttable (limit : ℕ → ℤ) (l : List α) : Prop :=
  ∃ pieces : List (List α), pieces.flatten = l ∧
    ∀ j piece, pieces[j]? = some piece → (weight w piece : ℤ) ≤ limit j

/-- The greedy cuts are never behind other ones. -/
lemma rest_of_suffix {limit : ℕ → ℤ} {pieces : List (List α)} {l : List α} (hl : l <:+ pieces.flatten)
    (hpieces : ∀ j piece, pieces[j]? = some piece → (weight w piece : ℤ) ≤ limit j) :
    rest w limit pieces.length l = [] := by
  induction pieces generalizing limit l with
  | nil => exact List.suffix_nil.mp hl
  | cons piece pieces ih =>
    rw [List.length_cons, rest]
    apply ih
    · obtain hbehind | ⟨p, rfl⟩ := List.suffix_or_suffix_of_suffix hl (List.suffix_append piece pieces.flatten)
      · exact (List.drop_suffix _ _).trans hbehind
      · obtain ⟨q, rfl⟩ := List.suffix_append_self_iff.mp hl
        have hweight : (weight w p : ℤ) ≤ limit 0 := by
          have hpiece := hpieces 0 (q ++ p) rfl
          rw [weight_append, Nat.cast_add] at hpiece
          omega
        have hfit := prefix_fit w (List.prefix_append p pieces.flatten) hweight
        have hdrop := List.drop_suffix_drop_left (p ++ pieces.flatten) hfit.length_le
        rwa [List.drop_left] at hdrop
    · intro j piece hj
      exact hpieces (j+1) piece hj

/-- The greedy cuts are pieces within their limits, if these are not negative. -/
theorem cuttable_of_rest {limit : ℕ → ℤ} {n : ℕ} {l : List α} (hrest : rest w limit n l = [])
    (hlimit : ∀ j < n, 0 ≤ limit j) : Cuttable w limit l := by
  induction n generalizing limit l with
  | zero =>
    refine ⟨[], hrest.symm, ?_⟩
    intro j piece hj
    cases hj
  | succ n ih =>
    have hlater : ∀ j < n, 0 ≤ limit (j+1) := by
      intro j hj
      exact hlimit (j+1) (by omega)
    obtain ⟨pieces, hflatten, hpieces⟩ := ih hrest hlater
    refine ⟨fit w (limit 0) l :: pieces, ?_, ?_⟩
    · rw [List.flatten_cons, hflatten, fit_append_drop]
    · intro j piece hj
      cases j with
      | zero =>
        cases hj
        exact weight_fit_le w (hlimit 0 (by omega)) l
      | succ j => exact hpieces j piece hj

/-- A list that can be cut is used up by the greedy cuts, before a limit is negative. -/
theorem rest_of_cuttable {limit : ℕ → ℤ} {l : List α} (h : Cuttable w limit l) :
    ∃ n, rest w limit n l = [] ∧ ∀ j < n, 0 ≤ limit j := by
  obtain ⟨pieces, hflatten, hpieces⟩ := h
  refine ⟨pieces.length, rest_of_suffix w (hflatten ▸ List.suffix_rfl) hpieces, ?_⟩
  intro j hj
  exact le_trans (Nat.cast_nonneg _) (hpieces j (pieces.get ⟨j, hj⟩) (List.getElem?_eq_getElem hj))

end GreedyCuts
