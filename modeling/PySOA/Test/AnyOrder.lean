import PySOA.Lib.Rearrangement
import PySOA.Test.Assertions

/-! When `assert_lists_match_any_order` is right about lists that are rearrangements of each other. -/
namespace PySOA
open Utf8 (Text)
open Document (NamedDocument)
open Rearrangement (IsRearrangement)

namespace Assertions
variable {α : Type} [BEq α] (py : AssertionBuiltins α)

/-- A value without placeholders, nested to any depth. -/
abbrev PlainValue (α : Type) := NamedDocument Text SequenceKind α

/-- A list of plain values. -/
def listOf (values : List (PlainValue α)) : Data α := .seq .list (values.map Subtype.val)

variable (expected actual : List (PlainValue α))

/-- The lists are of one length and each expected value is in the actual list, but one of them not as often
as it is expected. -/
def LacksRepetition : Prop :=
  expected.length = actual.length ∧ (∀ x ∈ expected, 0 < actual.count x) ∧
    ∃ x ∈ expected, actual.count x < expected.count x

lemma isIn_iff (x : PlainValue α) : isIn x.val (actual.map Subtype.val) = true ↔ 0 < actual.count x := by
  rw [isIn, List.any_map, List.any_eq_true, List.count_eq_countP, List.countP_pos_iff]
  rfl

/-- The assertion compares by membership and length. -/
lemma assertListsMatchAnyOrder_eq_ok (msg : Option Text) :
    assertListsMatchAnyOrder py (listOf expected) (listOf actual) false msg = .ok () ↔
      expected.length = actual.length ∧ ∀ x ∈ expected, 0 < actual.count x := by
  have hmissing : (expected.map Subtype.val).filter (fun value => !isIn value (actual.map Subtype.val)) = [] ↔
      ∀ x ∈ expected, 0 < actual.count x := by
    rw [List.filter_eq_nil_iff, List.forall_mem_map]
    apply forall₂_congr
    intro x _
    rw [← isIn_iff]
    simp
  unfold assertListsMatchAnyOrder listOf
  dsimp only
  rw [← hmissing]
  split_ifs with h
  · simp only [false_iff]
    rintro ⟨hlength, hnil⟩
    obtain hne | ⟨-, hne⟩ := h
    · exact hne hnil
    · simp [hlength] at hne
  · push Not at h
    simp only [true_iff]
    exact ⟨by simpa using h.2 rfl, h.1⟩

/-- `assert_lists_match_any_order` passes exactly on rearrangements, unless the actual list lacks a
repetition only. -/
theorem assertListsMatchAnyOrder_eq_iff [EquivBEq α] (msg : Option Text) :
    (assertListsMatchAnyOrder py (listOf expected) (listOf actual) false msg = .ok () ↔
        IsRearrangement expected actual) ↔ ¬LacksRepetition expected actual := by
  rw [assertListsMatchAnyOrder_eq_ok, Rearrangement.isRearrangement_iff, LacksRepetition]
  constructor
  · rintro h ⟨hlength, hin, x, hx, hlt⟩
    have hle := (h.mp ⟨hlength, hin⟩).2 x hx
    omega
  · intro h
    constructor
    · rintro ⟨hlength, hin⟩
      refine ⟨hlength, ?_⟩
      intro x hx
      by_contra hlt
      exact h ⟨hlength, hin, x, hx, by omega⟩
    · rintro ⟨hlength, hcount⟩
      refine ⟨hlength, ?_⟩
      intro x hx
      have hle := hcount x hx
      have hpos : 0 < expected.count x := by
        rw [List.count_eq_countP, List.countP_pos_iff]
        exact ⟨x, hx, BEq.rfl⟩
      omega

/-- A number as a plain value. -/
def number (n : ℕ) : PlainValue (Option ℕ) := ⟨.leaf (some n), .intro List.nodup_nil nofun⟩

/-- Two lists without repetitions. -/
theorem assertListsMatchAnyOrder_swapped :
    assertListsMatchAnyOrder numberBuiltins (listOf [number 1, number 2]) (listOf [number 2, number 1]) false
        none = .ok () ↔ IsRearrangement [number 1, number 2] [number 2, number 1] := by
  apply (assertListsMatchAnyOrder_eq_iff numberBuiltins _ _ none).mpr
  rintro ⟨-, -, x, hx, hlt⟩
  revert x
  decide

/-- A value that is expected twice is found twice in a list that has it once. -/
theorem not_assertListsMatchAnyOrder_repeated :
    ¬(assertListsMatchAnyOrder numberBuiltins (listOf [number 1, number 1]) (listOf [number 1, number 2])
        false none = .ok () ↔ IsRearrangement [number 1, number 1] [number 1, number 2]) := by
  intro h
  have hcount := (h.mp rfl).count_eq (number 1)
  exact absurd hcount (by decide)

end Assertions
end PySOA
