import Mathlib.Data.Nat.ModEq
import Mathlib.Tactic.SplitIfs

/-! Turns that go round a cycle of slots, and how many of them pass before a slot has had as many as it needs. -/
namespace RoundRobin
variable {n slot position k : ℕ}

/-- The turns that pass before the slot has its next one. -/
def turnsBefore (n slot position : ℕ) : ℕ :=
  if position % n ≤ slot then slot - position % n else n + slot - position % n

/-- The turns until the slot has had as many as given and one more. -/
def turnsUntil (n slot position p : ℕ) : ℕ := p*n + turnsBefore n slot position + 1

lemma turnsBefore_lt (h : slot < n) (position : ℕ) : turnsBefore n slot position < n := by
  have hlt := Nat.mod_lt position (Nat.zero_lt_of_lt h)
  unfold turnsBefore
  split_ifs
  · omega
  · omega

/-- Full rounds change nothing. -/
lemma turnsBefore_add_of_dvd (h : n ∣ k) : turnsBefore n slot (position+k) = turnsBefore n slot position := by
  have hmod : (position+k) % n = position % n := by
    rw [Nat.add_mod, Nat.mod_eq_zero_of_dvd h, Nat.add_zero, Nat.mod_mod]
  unfold turnsBefore
  rw [hmod]

/-- Other turns than full rounds lead to another slot. -/
lemma add_mod_ne (h : ¬n ∣ k) : (position+k) % n ≠ position % n := by
  intro heq
  have hmod : position + k ≡ position + 0 [MOD n] := heq
  exact h ((Nat.modEq_zero_iff_dvd).mp hmod.add_left_cancel')

lemma turnsUntil_add_of_dvd (h : n ∣ k) (p : ℕ) :
    turnsUntil n slot (position+k) p = turnsUntil n slot position p := by
  rw [turnsUntil, turnsBefore_add_of_dvd h, turnsUntil]

lemma turnsUntil_pos (p : ℕ) : 0 < turnsUntil n slot position p := Nat.succ_pos _

/-- In as many rounds the slot has had its turns. -/
lemma turnsUntil_le (h : slot < n) (position p : ℕ) : turnsUntil n slot position p ≤ (p+1)*n := by
  have hlt := turnsBefore_lt h position
  rw [turnsUntil, Nat.succ_mul]
  omega

lemma succ_mod (h : 0 < n) (position : ℕ) :
    (position+1) % n = if position % n + 1 = n then 0 else position % n + 1 := by
  have hlt := Nat.mod_lt position h
  rw [← Nat.mod_add_mod]
  split_ifs with heq
  · rw [heq, Nat.mod_self]
  · exact Nat.mod_eq_of_lt (by omega)

/-- A turn of another slot. -/
lemma turnsUntil_succ_of_ne (h : slot < n) (hne : position % n ≠ slot) (p : ℕ) :
    turnsUntil n slot (position+1) p + 1 = turnsUntil n slot position p := by
  have hlt := Nat.mod_lt position (Nat.zero_lt_of_lt h)
  unfold turnsUntil turnsBefore
  rw [succ_mod (Nat.zero_lt_of_lt h)]
  split_ifs
  all_goals omega

/-- The slot's own turn. -/
lemma turnsUntil_succ_of_eq (h : slot < n) (heq : position % n = slot) (p : ℕ) :
    turnsUntil n slot (position+1) p + 1 = turnsUntil n slot position (p+1) := by
  unfold turnsUntil turnsBefore
  rw [succ_mod (Nat.zero_lt_of_lt h), heq, Nat.succ_mul]
  split_ifs
  all_goals omega

end RoundRobin
