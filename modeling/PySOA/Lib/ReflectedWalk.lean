import Mathlib.Data.List.Infix
import Mathlib.Data.Int.Basic
import Mathlib.Tactic.Ring

/-! Counts that go up and down by one but never below zero. -/
namespace ReflectedWalk

/-- The count after the given steps; `true` is a step up. -/
def levelFrom (n : ℕ) (steps : List Bool) : ℕ := steps.foldl (fun n up => if up then n+1 else n-1) n

abbrev level (steps : List Bool) : ℕ := levelFrom 0 steps

/-- By how much the steps up outnumber the steps down. -/
def excess (steps : List Bool) : ℤ := steps.count true - steps.count false

lemma level_concat (steps : List Bool) (up : Bool) :
    level (steps ++ [up]) = if up then level steps + 1 else level steps - 1 := List.foldl_append

lemma excess_concat (steps : List Bool) (up : Bool) :
    excess (steps ++ [up]) = excess steps + if up then 1 else -1 := by
  unfold excess
  cases up <;> simp <;> ring

/-- The count is the excess of the last steps, for the best choice of how many. -/
theorem le_level_iff {k : ℕ} {steps : List Bool} :
    k ≤ level steps ↔ ∃ last, last <:+ steps ∧ (k : ℤ) ≤ excess last := by
  induction steps using List.reverseRecOn generalizing k with
  | nil => simp [levelFrom, excess]
  | append_singleton steps up ih =>
    have hshift : (∃ last, last <:+ steps ++ [up] ∧ (k : ℤ) ≤ excess last) ↔
        k = 0 ∨ ∃ last, last <:+ steps ∧ (k : ℤ) ≤ excess last + if up then 1 else -1 := by
      constructor
      · rintro ⟨last, hlast, hk⟩
        obtain rfl | ⟨before, rfl, hbefore⟩ := List.suffix_concat_iff.mp hlast
        · exact .inl (by simpa [excess] using hk)
        · exact .inr ⟨before, hbefore, excess_concat before up ▸ hk⟩
      · rintro (rfl | ⟨last, hlast, hk⟩)
        · exact ⟨[], List.nil_suffix, by simp [excess]⟩
        · exact ⟨last ++ [up], List.suffix_concat_iff.mpr (.inr ⟨last, rfl, hlast⟩),
            (excess_concat last up).symm ▸ hk⟩
    rw [hshift, level_concat]
    cases up with
    | true =>
      have hle : k ≤ level steps + 1 ↔ k = 0 ∨ k-1 ≤ level steps := by omega
      simp only [if_true, hle, ih]
      apply or_congr_right'
      intro hk
      apply exists_congr
      intro last
      apply and_congr_right
      intro _
      omega
    | false =>
      have hle : k ≤ level steps - 1 ↔ k = 0 ∨ k+1 ≤ level steps := by omega
      simp only [Bool.false_eq_true, if_false, hle, ih]
      apply or_congr_right
      apply exists_congr
      intro last
      apply and_congr_right
      intro _
      push_cast
      omega

lemma forall_levelFrom_cons {n k : ℕ} {up : Bool} {steps : List Bool} :
    (∀ first, first <+: up :: steps → levelFrom n first ≤ k) ↔
      n ≤ k ∧ ∀ first, first <+: steps → levelFrom (if up then n+1 else n-1) first ≤ k := by
  constructor
  · intro h
    refine ⟨h [] List.nil_prefix, ?_⟩
    intro first hfirst
    exact h (up :: first) (List.cons_prefix_cons.mpr ⟨rfl, hfirst⟩)
  · rintro ⟨hn, h⟩ first hfirst
    cases first with
    | nil => exact hn
    | cons up' first =>
      obtain ⟨rfl, hrest⟩ := List.cons_prefix_cons.mp hfirst
      exact h first hrest

/-- The count stays within a bound exactly if in no stretch the steps up outnumber the others by more. -/
theorem forall_level_le_iff {k : ℕ} {steps : List Bool} :
    (∀ first, first <+: steps → level first ≤ k) ↔ ∀ stretch, stretch <:+: steps → excess stretch ≤ k := by
  have hgt (first : List Bool) : ¬level first ≤ k ↔ ∃ last, last <:+ first ∧ (k : ℤ) < excess last := by
    rw [not_le]
    exact le_level_iff
  constructor
  · intro h stretch hstretch
    obtain ⟨first, hlast, hfirst⟩ := List.infix_iff_suffix_prefix.mp hstretch
    by_contra hexcess
    exact (hgt first).mpr ⟨stretch, hlast, not_le.mp hexcess⟩ (h first hfirst)
  · intro h first hfirst
    by_contra hlevel
    obtain ⟨last, hlast, hexcess⟩ := (hgt first).mp hlevel
    exact absurd (h last (List.infix_iff_suffix_prefix.mpr ⟨first, hlast, hfirst⟩)) (not_le.mpr hexcess)

end ReflectedWalk
