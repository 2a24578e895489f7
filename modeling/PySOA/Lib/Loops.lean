import Mathlib.Data.List.Basic

/-! Loops over a list whose body can break or raise: the passes they make and what they give. -/
namespace Loops
variable {σ α β ε : Type*}

/-- How one pass of a loop ends: the loop goes on, it is left by a break, or an exception
leaves it. -/
inductive Pass (ε β : Type*)
  | next (b : β)
  | last (b : β)
  | raised (e : ε)

namespace Pass

/-- What the pass gives. -/
def value? : Pass ε β → Option β
  | next b | last b => some b
  | raised _ => none

/-- The loop makes no further pass. -/
def Ends : Pass ε β → Prop
  | next _ => False
  | last _ | raised _ => True

end Pass

/-- The values of the passes in order, or the exception that left the loop. -/
def run (body : α → σ → Pass ε β × σ) : List α → σ → Except ε (List β) × σ
  | [], s => (.ok [], s)
  | a :: as, s =>
    match body a s with
    | (.next b, s) => ((run body as s).1.map (b :: ·), (run body as s).2)
    | (.last b, s) => (.ok [b], s)
    | (.raised e, s) => (.error e, s)

variable (body : α → σ → Pass ε β × σ)

/-- The state after a pass for each element. -/
def after (as : List α) (s : σ) : σ := as.foldl (fun s a => (body a s).2) s

/-- The passes for all elements, as if none of them ended the loop. -/
def passes : List α → σ → List (Pass ε β)
  | [], _ => []
  | a :: as, s => (body a s).1 :: passes as (body a s).2

@[simp] theorem after_cons (a : α) (as : List α) (s : σ) :
    after body (a :: as) s = after body as (body a s).2 := rfl

@[simp] theorem length_passes (as : List α) (s : σ) : (passes body as s).length = as.length := by
  induction as generalizing s with
  | nil => rfl
  | cons a as ih => simp [passes, ih]

/-- The loop has given the values of its first `n` passes and made no others. -/
def GivesFirst (as : List α) (s : σ) (n : ℕ) (out : Except ε (List β) × σ) : Prop :=
  (∃ bs, out.1 = .ok bs ∧ bs.map some = ((passes body as s).take n).map Pass.value?) ∧
    out.2 = after body (as.take n) s

variable {body}

lemma exists_next {a : α} {s : σ} (h : ¬(body a s).1.Ends) :
    ∃ b, body a s = (.next b, (body a s).2) := by
  cases hbody : body a s with
  | mk p s' =>
    rw [hbody] at h
    cases p with
    | next b => exact ⟨b, rfl⟩
    | last b => exact absurd trivial h
    | raised e => exact absurd trivial h

/-- One more pass in front, after which the loop goes on. -/
lemma GivesFirst.cons {a : α} {b : β} {as : List α} {s s' : σ} {n : ℕ}
    (hbody : body a s = (.next b, s')) (h : GivesFirst body as s' n (run body as s')) :
    GivesFirst body (a :: as) s (n+1) (run body (a :: as) s) := by
  obtain ⟨⟨bs, hrun, hbs⟩, hafter⟩ := h
  constructor
  · refine ⟨b :: bs, ?_, ?_⟩
    · simp only [run, hbody, hrun, Except.map]
    · simp only [passes, hbody, List.take_succ_cons, List.map_cons, hbs, Pass.value?]
  · simp only [run, hbody, hafter, List.take_succ_cons, after_cons]

/-- A loop that no pass ends makes all of them. -/
theorem run_of_next {as : List α} {s : σ} (h : ∀ p ∈ passes body as s, ¬p.Ends) :
    GivesFirst body as s as.length (run body as s) := by
  induction as generalizing s with
  | nil => exact ⟨⟨[], rfl, rfl⟩, rfl⟩
  | cons a as ih =>
    obtain ⟨b, hbody⟩ := exists_next (h _ List.mem_cons_self)
    apply GivesFirst.cons hbody
    exact ih fun p hp => h p (List.mem_cons_of_mem _ hp)

/-- A loop whose first ending pass is left by a break makes the passes up to that one. -/
theorem run_of_last {as : List α} {s : σ} {i : ℕ} {b : β}
    (hlast : (passes body as s)[i]? = some (.last b))
    (hbefore : ∀ p ∈ (passes body as s).take i, ¬p.Ends) :
    GivesFirst body as s (i+1) (run body as s) := by
  induction as generalizing s i with
  | nil => cases hlast
  | cons a as ih =>
    cases i with
    | zero =>
      have hbody : body a s = (.last b, (body a s).2) := Prod.ext (Option.some.inj hlast) rfl
      constructor
      · refine ⟨[b], by rw [run, hbody], ?_⟩
        simp [passes, Option.some.inj hlast, Pass.value?]
      · rw [run, hbody]
        rfl
    | succ i =>
      obtain ⟨b', hbody⟩ := exists_next (hbefore _ List.mem_cons_self)
      apply GivesFirst.cons hbody
      exact ih hlast fun p hp => hbefore p (List.mem_cons_of_mem _ hp)

/-- An exception in the first ending pass leaves the loop. -/
theorem run_of_raised {as : List α} {s : σ} {i : ℕ} {e : ε}
    (hraised : (passes body as s)[i]? = some (.raised e))
    (hbefore : ∀ p ∈ (passes body as s).take i, ¬p.Ends) :
    run body as s = (.error e, after body (as.take (i+1)) s) := by
  induction as generalizing s i with
  | nil => cases hraised
  | cons a as ih =>
    cases i with
    | zero =>
      have hbody : body a s = (.raised e, (body a s).2) := Prod.ext (Option.some.inj hraised) rfl
      rw [run, hbody]
      rfl
    | succ i =>
      obtain ⟨b, hbody⟩ := exists_next (hbefore _ List.mem_cons_self)
      have hrest := ih hraised fun p hp => hbefore p (List.mem_cons_of_mem _ hp)
      rw [run, hbody]
      simp only [hrest, Except.map, List.take_succ_cons, after_cons]

/-- What every pass keeps of the state, the loop keeps. -/
theorem run_invariant {P : σ → Prop} (h : ∀ a s, P s → P (body a s).2) (as : List α) {s : σ} (hs : P s) :
    P (run body as s).2 := by
  induction as generalizing s with
  | nil => exact hs
  | cons a as ih =>
    have hpass := h a s hs
    rw [run]
    generalize body a s = out at hpass
    obtain ⟨pass, s'⟩ := out
    cases pass with
    | next b => exact ih hpass
    | last b => exact hpass
    | raised e => exact hpass

/-- What every pass keeps of the state, it keeps over any number of passes. -/
theorem after_invariant {P : σ → Prop} (h : ∀ a s, P s → P (body a s).2) (as : List α) {s : σ} (hs : P s) :
    P (after body as s) := by
  induction as generalizing s with
  | nil => exact hs
  | cons a as ih => exact ih (h a s hs)

/-- Each value that the loop gives is that of the pass for its element, in the state after the passes in
front of it. -/
theorem value_of_run {as : List α} {s : σ} {bs : List β} (hrun : (run body as s).1 = .ok bs) {i : ℕ} {b : β}
    (hb : bs[i]? = some b) :
    ∃ a, as[i]? = some a ∧ (body a (after body (as.take i) s)).1.value? = some b := by
  induction as generalizing s bs i with
  | nil =>
    cases hrun
    cases hb
  | cons a as ih =>
    rw [run] at hrun
    cases hbody : body a s with
    | mk pass s' =>
      rw [hbody] at hrun
      cases pass with
      | raised e => cases hrun
      | last b' =>
        cases hrun
        cases i with
        | zero => exact ⟨a, rfl, by rw [List.take_zero, after, List.foldl_nil, hbody]; exact hb⟩
        | succ i => cases hb
      | next b' =>
        dsimp only at hrun
        cases hrest : (run body as s').1 with
        | error e =>
          rw [hrest] at hrun
          cases hrun
        | ok bs' =>
          rw [hrest] at hrun
          cases hrun
          cases i with
          | zero => exact ⟨a, rfl, by rw [List.take_zero, after, List.foldl_nil, hbody]; exact hb⟩
          | succ i =>
            obtain ⟨a', ha', hvalue⟩ := ih hrest hb
            refine ⟨a', ha', ?_⟩
            rwa [List.take_succ_cons, after_cons, hbody]

end Loops
