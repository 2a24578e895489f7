import Mathlib.Data.List.Basic
import Mathlib.Data.List.Infix

/-! Repeated reading of delimited tokens from the front of a word. A reader takes one
token, which ends at the first delimiter, and the scan reads until no token is left.
The results say what the scan does on a concatenation. -/
namespace DelimitedScan
variable {α τ : Type*}

/-- A reader of single tokens. A token ends with the first delimiter of its text, and
whether a text is a token does not depend on what follows it. -/
structure Reader (α τ : Type*) where
  delimiter : α
  read : List α → Option (τ × List α)
  shape : ∀ {s t r}, read s = some (t,r) → ∃ q, delimiter ∉ q ∧ s = q ++ delimiter :: r ∧
    ∀ r', read (q ++ delimiter :: r') = some (t,r')

namespace Reader
variable (R : Reader α τ)

/-- At most the given number of tokens are read. -/
def scanFuel : ℕ → List α → List τ × List α
  | 0, s => ([],s)
  | n+1, s =>
    match R.read s with
    | none => ([],s)
    | some (t,r) => (t :: (scanFuel n r).1, (scanFuel n r).2)

/-- Read tokens until none is left; the length of the text bounds their number. -/
def scan (s : List α) : List τ × List α := R.scanFuel s.length s

lemma read_length {s r : List α} {t : τ} (h : R.read s = some (t,r)) :
    r.length < s.length := by
  obtain ⟨q, _, rfl, _⟩ := R.shape h
  simp only [List.length_append, List.length_cons]
  omega

lemma scanFuel_eq_scan {n : ℕ} {s : List α} (h : s.length ≤ n) : R.scanFuel n s = R.scan s := by
  unfold scan
  generalize hm : s.length = m at h
  induction m using Nat.strong_induction_on generalizing n s with
  | _ m ih =>
    cases hr : R.read s with
    | none => cases n <;> cases m <;> simp [scanFuel, hr]
    | some out =>
      obtain ⟨t, r⟩ := out
      have hlt := R.read_length hr
      obtain ⟨n, rfl⟩ : ∃ k, n = k+1 := ⟨n-1, by omega⟩
      obtain ⟨m, rfl⟩ : ∃ k, m = k+1 := ⟨m-1, by omega⟩
      have hn := ih r.length (by omega) (n := n) rfl (by omega)
      have hm' := ih r.length (by omega) (n := m) rfl (by omega)
      simp only [scanFuel, hr, hn, hm']

lemma scan_of_none {s : List α} (h : R.read s = none) : R.scan s = ([],s) := by
  unfold scan
  cases s.length <;> simp [scanFuel, h]

lemma scan_of_some {s r : List α} {t : τ} (h : R.read s = some (t,r)) :
    R.scan s = (t :: (R.scan r).1, (R.scan r).2) := by
  have hlt := R.read_length h
  have hs : R.scan s = R.scanFuel (s.length-1+1) s := by
    rw [Nat.sub_add_cancel (by omega)]; rfl
  rw [hs]
  simp only [scanFuel, h, R.scanFuel_eq_scan (show r.length ≤ s.length-1 by omega)]

/-- Induction along the tokens that a scan reads. -/
theorem scan_induction {P : List α → Prop} (stop : ∀ s, R.read s = none → P s)
    (token : ∀ s t r, R.read s = some (t,r) → P r → P s) (s : List α) : P s := by
  generalize hm : s.length = m
  induction m using Nat.strong_induction_on generalizing s with
  | _ m ih =>
    cases hr : R.read s with
    | none => exact stop s hr
    | some out => exact token s _ _ hr (ih _ (hm ▸ R.read_length hr) _ rfl)

theorem scan_suffix (s : List α) : (R.scan s).2 <:+ s := by
  induction s using R.scan_induction with
  | stop s h => rw [R.scan_of_none h]
  | token s t r h ih =>
    rw [R.scan_of_some h]
    obtain ⟨q, _, hs, _⟩ := R.shape h
    exact ih.trans ⟨q ++ [R.delimiter], by simp [hs]⟩

lemma scan_length_le (s : List α) : (R.scan s).2.length ≤ s.length :=
  (R.scan_suffix s).length_le

/-- A scan that takes nothing away is one that finds no token at the front. -/
theorem scan_length_eq_iff (s : List α) : (R.scan s).2.length = s.length ↔ R.read s = none := by
  constructor
  · intro h
    cases hr : R.read s with
    | none => rfl
    | some out =>
      have hlt := R.read_length hr
      have hle := R.scan_length_le out.2
      rw [R.scan_of_some hr] at h
      simp only at h
      omega
  · intro h
    rw [R.scan_of_none h]

/-- A text that holds a delimiter and does not begin with a token still does not begin
with one when more text follows. -/
lemma read_append_none {s : List α} (x : List α) (hd : R.delimiter ∈ s) (h : R.read s = none) :
    R.read (s ++ x) = none := by
  cases hr : R.read (s ++ x) with
  | none => rfl
  | some out =>
    obtain ⟨q, hq, heq, hlocal⟩ := R.shape hr
    rcases List.append_eq_append_iff.mp heq with ⟨a, rfl, _⟩ | ⟨a, rfl, ha⟩
    · exact absurd (List.mem_append_left a hd) hq
    · cases a with
      | nil => exact absurd (by simpa using hd) hq
      | cons b a =>
        obtain ⟨rfl, _⟩ := List.cons.inj ha
        simp [hlocal a] at h

/-- The tokens of a text that is read completely come before those of what follows. -/
theorem scan_append_of_consumed (s x : List α) (h : (R.scan s).2 = []) :
    R.scan (s ++ x) = ((R.scan s).1 ++ (R.scan x).1, (R.scan x).2) := by
  induction s using R.scan_induction with
  | stop s hr =>
    rw [R.scan_of_none hr] at h ⊢
    simp only at h
    simp [h]
  | token s t r hr ih =>
    rw [R.scan_of_some hr] at h ⊢
    obtain ⟨q, _, hs, hlocal⟩ := R.shape hr
    have hx : R.read (s ++ x) = some (t, r ++ x) := by
      rw [hs, List.append_assoc, List.cons_append]
      exact hlocal _
    rw [R.scan_of_some hx, ih h]
    simp

/-- A text that ends with a delimiter and is not read completely stops the scan, whatever
follows it. -/
theorem scan_append_of_rest (s x : List α) (hd : [R.delimiter] <:+ s) (h : (R.scan s).2 ≠ []) :
    R.scan (s ++ x) = ((R.scan s).1, (R.scan s).2 ++ x) := by
  induction s using R.scan_induction with
  | stop s hr =>
    have hm : R.delimiter ∈ s := hd.subset (List.mem_singleton_self _)
    rw [R.scan_of_none hr, R.scan_of_none (R.read_append_none x hm hr)]
  | token s t r hr ih =>
    rw [R.scan_of_some hr] at h ⊢
    obtain ⟨q, _, hs, hlocal⟩ := R.shape hr
    have hx : R.read (s ++ x) = some (t, r ++ x) := by
      rw [hs, List.append_assoc, List.cons_append]
      exact hlocal _
    have hne : r ≠ [] := by
      rintro rfl
      exact h (List.suffix_nil.mp (R.scan_suffix []))
    have hr' : [R.delimiter] <:+ r := by
      rw [hs] at hd
      have hsuf : r <:+ q ++ R.delimiter :: r := ⟨q ++ [R.delimiter], by simp⟩
      exact List.suffix_of_suffix_length_le hd hsuf
        (List.length_pos_iff.mpr hne)
    rw [R.scan_of_some hx, ih hr' h]

end Reader
end DelimitedScan
