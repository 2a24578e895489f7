import Mathlib.Algebra.Ring.Nat
import Mathlib.Data.Int.Basic
import Mathlib.Data.List.Basic

/-! Runs of a machine whose labelled steps are a function: conditions that every step of a
run meets, invariants, and quantities that a run changes step by step. -/
namespace Runs
variable {σ α : Type*} (step : σ → α → σ)

/-- The state after a list of steps. -/
def run (s : σ) (ops : List α) : σ := ops.foldl step s

@[simp] theorem run_nil (s : σ) : run step s [] = s := rfl

@[simp] theorem run_cons (s : σ) (a : α) (ops : List α) :
    run step s (a :: ops) = run step (step s a) ops := rfl

theorem run_append (s : σ) (ops ops' : List α) :
    run step s (ops ++ ops') = run step (run step s ops) ops' := List.foldl_append

variable {step} in
/-- What every step preserves holds at the end of every run. -/
theorem run_invariant {P : σ → Prop} (hstep : ∀ s a, P s → P (step s a)) {s : σ} (hs : P s) (ops : List α) :
    P (run step s ops) := by
  induction ops generalizing s with
  | nil => exact hs
  | cons a ops ih => exact ih (hstep s a hs)

/-- Every step of the run meets the condition in the state in which it is taken. -/
def Along (ok : σ → α → Prop) : σ → List α → Prop
  | _, [] => True
  | s, a :: ops => ok s a ∧ Along ok (step s a) ops

variable {step}

theorem Along.imp {ok ok' : σ → α → Prop} (h : ∀ s a, ok s a → ok' s a) {s : σ} {ops : List α}
    (hrun : Along step ok s ops) : Along step ok' s ops := by
  induction ops generalizing s with
  | nil => trivial
  | cons a ops ih => exact ⟨h s a hrun.1, ih hrun.2⟩

theorem along_append {ok : σ → α → Prop} {s : σ} {ops ops' : List α} :
    Along step ok s (ops ++ ops') ↔ Along step ok s ops ∧ Along step ok (run step s ops) ops' := by
  induction ops generalizing s with
  | nil => simp [Along]
  | cons a ops ih => simp only [List.cons_append, Along, ih, run_cons, and_assoc]

/-- What holds at the start and is preserved by every step that meets the condition holds at
the end of every run whose steps meet it. -/
theorem Along.invariant {ok : σ → α → Prop} {P : σ → Prop}
    (hstep : ∀ s a, ok s a → P s → P (step s a)) {s : σ} {ops : List α}
    (hrun : Along step ok s ops) (hs : P s) : P (run step s ops) := by
  induction ops generalizing s with
  | nil => exact hs
  | cons a ops ih => exact ih hrun.2 (hstep s a hrun.1 hs)

/-- What every step brings nearer by its weight has come when the weights sum to what was waited for. -/
theorem run_reaches {P : σ → Prop} {Waits : ℕ → σ → Prop} {w : α → ℕ} (hpos : ∀ s, ¬Waits 0 s)
    (hkeep : ∀ s a, P s → P (step s a))
    (hstep : ∀ k s a, Waits k s → P (step s a) ∨ ∃ k', Waits k' (step s a) ∧ w a + k' ≤ k)
    {k : ℕ} {s : σ} (hs : Waits k s) {ops : List α} (hops : k ≤ (ops.map w).sum) : P (run step s ops) := by
  induction ops generalizing k s with
  | nil =>
    obtain rfl := Nat.le_zero.mp hops
    exact absurd hs (hpos s)
  | cons a ops ih =>
    rw [List.map_cons, List.sum_cons] at hops
    rcases hstep k s a hs with hdone | ⟨k', hk', hle⟩
    · exact run_invariant hkeep hdone ops
    · exact ih hk' (by omega)

variable (step) in
/-- The sum of what the steps of a run contribute. -/
def tally (w : σ → α → ℕ) : σ → List α → ℕ
  | _, [] => 0
  | s, a :: ops => w s a + tally w (step s a) ops

/-- What every step contributes is taken from a quantity that bounds the whole. -/
theorem tally_add_le {P : σ → Prop} {w : σ → α → ℕ} {f : σ → ℕ}
    (hstep : ∀ s a, P s → P (step s a) ∧ w s a + f (step s a) ≤ f s) {s : σ} (hs : P s) (ops : List α) :
    tally step w s ops + f (run step s ops) ≤ f s := by
  induction ops generalizing s with
  | nil => simp [tally]
  | cons a ops ih =>
    obtain ⟨hP, hf⟩ := hstep s a hs
    have hrest := ih hP
    rw [tally, run_cons]
    omega

/-- A run contributes nothing exactly when none of its steps does. -/
theorem tally_eq_zero_iff (w : σ → α → ℕ) (s : σ) (ops : List α) :
    tally step w s ops = 0 ↔ Along step (fun s a => w s a = 0) s ops := by
  induction ops generalizing s with
  | nil => simp [tally, Along]
  | cons a ops ih => simp only [tally, Along, Nat.add_eq_zero_iff, ih]

/-- A quantity that each step changes by its contribution has changed by their sum after a
run. The invariant may be used to establish the change of one step. -/
theorem Along.balance {ok : σ → α → Prop} {P : σ → Prop} {f : σ → ℤ} {w : σ → α → ℕ}
    (hstep : ∀ s a, ok s a → P s → P (step s a) ∧ f (step s a) = f s + w s a)
    {s : σ} {ops : List α} (hrun : Along step ok s ops) (hs : P s) :
    f (run step s ops) = f s + tally step w s ops := by
  induction ops generalizing s with
  | nil => simp [tally]
  | cons a ops ih =>
    obtain ⟨hP, hf⟩ := hstep s a hrun.1 hs
    rw [run_cons, ih hrun.2 hP, hf, tally]
    omega

/-- A quantity that starts at zero and that each step raises by its contribution stays zero in
every state of a run exactly when no step contributes. -/
theorem Along.balanced_iff {ok : σ → α → Prop} {P : σ → Prop} {f : σ → ℤ} {w : σ → α → ℕ}
    (hstep : ∀ s a, ok s a → P s → P (step s a) ∧ f (step s a) = f s + w s a)
    {s : σ} {ops : List α} (hrun : Along step ok s ops) (hs : P s) (h0 : f s = 0) :
    Along step (fun s a => f (step s a) = 0) s ops ↔ Along step (fun s a => w s a = 0) s ops := by
  induction ops generalizing s with
  | nil => rfl
  | cons a ops ih =>
    obtain ⟨hP, hf⟩ := hstep s a hrun.1 hs
    have hone : f (step s a) = 0 ↔ w s a = 0 := by rw [hf, h0]; omega
    simp only [Along, hone]
    exact and_congr_right fun hw => ih hrun.2 hP (hone.mpr hw)

section outputs
variable {ω τ : Type*}

/-- The outputs of a run, and the state after it, of a machine that gives an output at each step. -/
def outputs (step : σ → α → ω × σ) : σ → List α → List ω × σ
  | s, [] => ([], s)
  | s, a :: ops =>
    let out := step s a
    let rest := outputs step out.2 ops
    (out.1 :: rest.1, rest.2)

variable {step : σ → α → ω × σ} {step' : τ → α → ω × τ} {R : σ → τ → Prop} {ok : τ → Prop}

lemma ok_of_outputs (hok : ∀ t a, ok (step' t a).2 → ok t) {t : τ} {ops : List α}
    (h : ok (outputs step' t ops).2) : ok t := by
  induction ops generalizing t with
  | nil => exact h
  | cons a ops ih => exact hok t a (ih h)

/-- A machine that simulates another as long as this is all right gives the same outputs in every run after which
the other still is; what has gone wrong stays wrong. -/
theorem outputs_eq_of_simulation (hok : ∀ t a, ok (step' t a).2 → ok t)
    (hstep : ∀ s t a, R s t → ok (step' t a).2 → (step s a).1 = (step' t a).1 ∧ R (step s a).2 (step' t a).2)
    {s : σ} {t : τ} (h : R s t) {ops : List α} (hend : ok (outputs step' t ops).2) :
    (outputs step s ops).1 = (outputs step' t ops).1 ∧ R (outputs step s ops).2 (outputs step' t ops).2 := by
  induction ops generalizing s t with
  | nil => exact ⟨rfl, h⟩
  | cons a ops ih =>
    obtain ⟨hout, hnext⟩ := hstep s t a h (ok_of_outputs hok hend)
    obtain ⟨houts, hlast⟩ := ih hnext hend
    exact ⟨congrArg₂ List.cons hout houts, hlast⟩

/-- What a run takes is in order among what waited at its start and what it gives, if it is so of each step, with
what waits after it. -/
theorem sublist_of_outputs {β : Type*} {P : τ → Prop} (taken given : α × ω → List β) (waits : τ → List β)
    (hok : ∀ t a, ok (step' t a).2 → ok t)
    (hstep : ∀ t a, P t → ok (step' t a).2 → P (step' t a).2 ∧
      (taken (a, (step' t a).1) ++ waits (step' t a).2).Sublist (waits t ++ given (a, (step' t a).1)))
    {t : τ} (h : P t) {ops : List α} (hend : ok (outputs step' t ops).2) :
    ((ops.zip (outputs step' t ops).1).flatMap taken).Sublist
      (waits t ++ (ops.zip (outputs step' t ops).1).flatMap given) := by
  induction ops generalizing t with
  | nil => exact List.nil_sublist _
  | cons a ops ih =>
    obtain ⟨hnext, hone⟩ := hstep t a h (ok_of_outputs hok hend)
    have hrest := (ih hnext hend).append_left (taken (a, (step' t a).1))
    have hfirst := hone.append_right ((ops.zip (outputs step' (step' t a).2 ops).1).flatMap given)
    simp only [List.append_assoc] at hrest hfirst
    simp only [outputs, List.zip_cons_cons, List.flatMap_cons]
    exact hrest.trans hfirst

end outputs
end Runs
