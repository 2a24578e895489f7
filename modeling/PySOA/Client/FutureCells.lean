import PySOA.Client.Client
import PySOA.Lib.Runs

/-! The methods of a future that can be called in any order, and a cell that asks for its outcome
until it has one. -/
namespace PySOA

inductive FutureCall
  | result
  | exception
  | running
  | done

/-- What a call returns or raises. -/
inductive FutureReply (α : Type)
  | result (result : Except Exc α)
  | exception (result : Except Exc (Option Exc))
  | flag (flag : Bool)

namespace FutureCell
variable {α ω : Type}

def done (truthy : α → Bool) (cell : FutureCell α) : Bool :=
  cell.response.any truthy || cell.raised.isSome

def running (truthy : α → Bool) (cell : FutureCell α) : Bool := !cell.done truthy

/-- How `exception` ends when `result` ends as given. -/
def reported : Except Exc α → Except Exc (Option Exc)
  | .ok _ => .ok none
  | .error e => if e.isReceiveTimeout || !e.isException then .error e else .ok (some e)

def exception (truthy : α → Bool) (getResponse : ω → Except Exc α × ω) (cell : FutureCell α) (w : ω) :
    Except Exc (Option Exc) × FutureCell α × ω :=
  if cell.running truthy then
    let out := cell.result truthy getResponse w
    (reported out.1, out.2)
  else (.ok cell.raised, cell, w)

def perform (truthy : α → Bool) (getResponse : ω → Except Exc α × ω) (call : FutureCall)
    (s : FutureCell α × ω) : FutureReply α × FutureCell α × ω :=
  match call with
  | .result =>
    let out := s.1.result truthy getResponse s.2
    (.result out.1, out.2)
  | .exception =>
    let out := s.1.exception truthy getResponse s.2
    (.exception out.1, out.2)
  | .running => (.flag (s.1.running truthy), s)
  | .done => (.flag (s.1.done truthy), s)

end FutureCell

/-! The abstract cell. Its state is the number of times that the outcome has been asked for. -/
namespace OneShot
variable {α : Type} (outcomes : ℕ → Except Exc α)

def isTimeout : Except Exc α → Bool
  | .ok _ => false
  | .error e => e.isReceiveTimeout

/-- The outcome that has been obtained. A timeout is none. -/
def settled : ℕ → Option (Except Exc α)
  | 0 => none
  | n+1 => if isTimeout (outcomes n) then none else some (outcomes n)

variable {outcomes} in
lemma settled_succ {n : ℕ} {outcome : Except Exc α} (h : outcomes n = outcome) :
    settled outcomes (n+1) = if isTimeout outcome then none else some outcome := by
  rw [settled, h]

variable {outcomes} in
lemma isTimeout_of_settled {n : ℕ} {outcome : Except Exc α} (h : settled outcomes n = some outcome) :
    isTimeout outcome = false := by
  cases n with
  | zero => cases h
  | succ n =>
    rw [settled] at h
    split_ifs at h with htimeout
    rw [Bool.not_eq_true] at htimeout
    rwa [← Option.some.inj h]

/-- The outcome that is reported, and how often it has been asked for then. -/
def attempt (n : ℕ) : Except Exc α × ℕ :=
  match settled outcomes n with
  | some outcome => (outcome, n)
  | none => (outcomes n, n+1)

def perform (call : FutureCall) (n : ℕ) : FutureReply α × ℕ :=
  match call with
  | .result => (.result (attempt outcomes n).1, (attempt outcomes n).2)
  | .exception => (.exception (FutureCell.reported (attempt outcomes n).1), (attempt outcomes n).2)
  | .running => (.flag (settled outcomes n).isNone, n)
  | .done => (.flag (settled outcomes n).isSome, n)

end OneShot

/-- What is seen of a series of calls: each reply, and the number of times that the outcome has been
asked for by then. -/
def transcript {α σ : Type} (perform : FutureCall → σ → FutureReply α × σ) (asked : σ → ℕ) :
    List FutureCall → σ → List (FutureReply α × ℕ)
  | [], _ => []
  | call :: calls, s =>
    let out := perform call s
    (out.1, asked out.2) :: transcript perform asked calls out.2

namespace FutureCell
variable {α : Type} (truthy : α → Bool) (outcomes : ℕ → Except Exc α)

/-- `get_response`, by what it does each time. -/
def getOutcome (n : ℕ) : Except Exc α × ℕ := (outcomes n, n+1)

/-- The outcome is recognized as one again: a truthy response or an `Exception`. -/
def Kept : Except Exc α → Prop
  | .ok response => truthy response = true
  | .error e => e.isException = true

/-- What the cell holds when the outcome has been asked for so many times. -/
def Represents (cell : FutureCell α) (n : ℕ) : Prop :=
  match OneShot.settled outcomes n with
  | none => cell = {}
  | some (.ok response) => cell = { response := some response }
  | some (.error e) => cell = if e.isException then { raised := some e } else {}

variable {truthy outcomes} {cell : FutureCell α} {n : ℕ}

/-- The first attempt after timeouts. -/
lemma result_unsettled (truthy : α → Bool) (outcomes : ℕ → Except Exc α) (n : ℕ) :
    ∃ cell', FutureCell.result truthy (getOutcome outcomes) {} n = (outcomes n, cell', n+1) ∧
      Represents outcomes cell' (n+1) := by
  unfold Represents
  cases houtcome : outcomes n with
  | ok response =>
    refine ⟨{ response := some response }, ?_, ?_⟩
    · simp [result, getOutcome, houtcome]
    · simp [OneShot.settled_succ houtcome, OneShot.isTimeout]
  | error e =>
    rw [OneShot.settled_succ houtcome, OneShot.isTimeout]
    cases htimeout : e.isReceiveTimeout with
    | true => exact ⟨{}, by simp [result, getOutcome, houtcome, htimeout], rfl⟩
    | false =>
      cases hexception : e.isException with
      | true =>
        exact ⟨{ raised := some e }, by simp [result, getOutcome, houtcome, htimeout, hexception],
          by simp [hexception]⟩
      | false => exact ⟨{}, by simp [result, getOutcome, houtcome, hexception], by simp [hexception]⟩

/-- A settled outcome that the cell recognizes is reported by it. -/
lemma result_kept {outcome : Except Exc α} (h : Represents outcomes cell n)
    (hsettled : OneShot.settled outcomes n = some outcome) (hkept : Kept truthy outcome) :
    cell.done truthy = true ∧ cell.result truthy (getOutcome outcomes) n = (outcome, cell, n) ∧
      reported outcome = .ok cell.raised := by
  unfold Represents at h
  rw [hsettled] at h
  cases outcome with
  | ok response =>
    have hkept : truthy response = true := hkept
    subst h
    simp [done, result, reported, hkept, Option.filter_some_pos hkept]
  | error e =>
    have hkept : e.isException = true := hkept
    have htimeout : e.isReceiveTimeout = false := OneShot.isTimeout_of_settled hsettled
    dsimp only at h
    rw [hkept, if_pos rfl] at h
    subst h
    simp [done, result, reported, hkept, htimeout]

/-- A cell that has no outcome that it recognizes asks for one. -/
lemma asks_of_unrecognized (outcomes : ℕ → Except Exc α) (n : ℕ) (hraised : cell.raised = none)
    (hresponse : cell.response.filter truthy = none) :
    cell.done truthy = false ∧ (cell.result truthy (getOutcome outcomes) n).2.2 = n+1 := by
  constructor
  · rw [done, hraised]
    cases hcell : cell.response with
    | none => rfl
    | some response =>
      rw [hcell, Option.filter_eq_none_iff] at hresponse
      simpa using hresponse
  · rw [result, hraised]
    dsimp only
    rw [hresponse, getOutcome]
    cases outcomes n with
    | ok response => rfl
    | error e =>
      dsimp only
      split_ifs <;> rfl

/-- While the outcome is not settled, or is one that the cell recognizes, the cell does what the
abstract one does. -/
lemma perform_eq (h : Represents outcomes cell n)
    (hkept : ∀ outcome, OneShot.settled outcomes n = some outcome → Kept truthy outcome)
    (call : FutureCall) : ∃ cell', perform truthy (getOutcome outcomes) call (cell, n) =
        ((OneShot.perform outcomes call n).1, cell', (OneShot.perform outcomes call n).2) ∧
      Represents outcomes cell' (OneShot.perform outcomes call n).2 := by
  cases hsettled : OneShot.settled outcomes n with
  | none =>
    obtain rfl : cell = {} := by simpa only [Represents, hsettled] using h
    obtain ⟨cell', hresult, h'⟩ := result_unsettled truthy outcomes n
    have hattempt : OneShot.attempt outcomes n = (outcomes n, n+1) := by
      rw [OneShot.attempt, hsettled]
    cases call with
    | result =>
      refine ⟨cell', ?_, ?_⟩
      · simp only [perform, OneShot.perform, hattempt, hresult]
      · simpa only [OneShot.perform, hattempt] using h'
    | exception =>
      refine ⟨cell', ?_, ?_⟩
      · simp [perform, exception, running, done, OneShot.perform, hattempt, hresult]
      · simpa only [OneShot.perform, hattempt] using h'
    | running => exact ⟨{}, by simp [perform, running, done, OneShot.perform, hsettled], h⟩
    | done => exact ⟨{}, by simp [perform, done, OneShot.perform, hsettled], h⟩
  | some outcome =>
    obtain ⟨hdone, hresult, hreported⟩ := result_kept h hsettled (hkept outcome hsettled)
    have hattempt : OneShot.attempt outcomes n = (outcome, n) := by
      rw [OneShot.attempt, hsettled]
    cases call with
    | result =>
      refine ⟨cell, ?_, ?_⟩
      · simp only [perform, OneShot.perform, hattempt, hresult]
      · simpa only [OneShot.perform, hattempt] using h
    | exception =>
      refine ⟨cell, ?_, ?_⟩
      · simp [perform, exception, running, hdone, OneShot.perform, hattempt, hreported]
      · simpa only [OneShot.perform, hattempt] using h
    | running => exact ⟨cell, by simp [perform, running, hdone, OneShot.perform, hsettled], h⟩
    | done => exact ⟨cell, by simp [perform, hdone, OneShot.perform, hsettled], h⟩

/-- A settled outcome that the cell does not recognize is asked for again by the next call that wants
it, and the flags are wrong. -/
lemma perform_ne {outcome : Except Exc α} (h : Represents outcomes cell n)
    (hsettled : OneShot.settled outcomes n = some outcome) (hkept : ¬Kept truthy outcome)
    (call : FutureCall) :
    ((perform truthy (getOutcome outcomes) call (cell, n)).1,
        (perform truthy (getOutcome outcomes) call (cell, n)).2.2) ≠ OneShot.perform outcomes call n := by
  obtain ⟨hraised, hresponse⟩ : cell.raised = none ∧ cell.response.filter truthy = none := by
    unfold Represents at h
    rw [hsettled] at h
    cases outcome with
    | ok response =>
      have hfalsy : truthy response = false := Bool.not_eq_true _ ▸ hkept
      subst h
      exact ⟨rfl, Option.filter_some_neg hfalsy⟩
    | error e =>
      have hbase : ¬e.isException = true := hkept
      dsimp only at h
      rw [if_neg hbase] at h
      subst h
      exact ⟨rfl, rfl⟩
  obtain ⟨hdone, hasked⟩ := asks_of_unrecognized outcomes n hraised hresponse
  have hattempt : OneShot.attempt outcomes n = (outcome, n) := by
    rw [OneShot.attempt, hsettled]
  intro heq
  cases call with
  | result =>
    have hcount := congrArg Prod.snd heq
    simp only [perform, OneShot.perform, hattempt, hasked] at hcount
    omega
  | exception =>
    have hcount := congrArg Prod.snd heq
    simp only [perform, exception, running, hdone, Bool.not_false, if_true, OneShot.perform, hattempt,
      hasked] at hcount
    omega
  | running =>
    have hflag := congrArg Prod.fst heq
    simp [perform, running, hdone, OneShot.perform, hsettled] at hflag
  | done =>
    have hflag := congrArg Prod.fst heq
    simp [perform, hdone, OneShot.perform, hsettled] at hflag

lemma transcript_eq_iff_of_represents (calls : List FutureCall) (h : Represents outcomes cell n) :
    transcript (perform truthy (getOutcome outcomes)) Prod.snd calls (cell, n) =
        transcript (OneShot.perform outcomes) id calls n ↔
      Runs.Along (fun n call => (OneShot.perform outcomes call n).2)
        (fun n _ => ∀ outcome, OneShot.settled outcomes n = some outcome → Kept truthy outcome) n calls := by
  induction calls generalizing cell n with
  | nil => exact iff_of_true rfl trivial
  | cons call calls ih =>
    unfold transcript Runs.Along
    dsimp only
    rw [List.cons.injEq]
    by_cases hkept : ∀ outcome, OneShot.settled outcomes n = some outcome → Kept truthy outcome
    · obtain ⟨cell', hperform, h'⟩ := perform_eq h hkept call
      rw [hperform]
      exact and_congr (iff_of_true rfl hkept) (ih h')
    · push Not at hkept
      obtain ⟨outcome, hsettled, hkept⟩ := hkept
      refine iff_of_false (fun heq => ?_) fun hall => ?_
      · exact perform_ne h hsettled hkept call heq.1
      · exact hkept (hall.1 outcome hsettled)

/-- A future asks for its outcome until it has one, and reports this one from then on, exactly if it is
not called again after an outcome that is a falsy response or no `Exception`. -/
theorem transcript_eq_iff (truthy : α → Bool) (outcomes : ℕ → Except Exc α) (calls : List FutureCall) :
    transcript (perform truthy (getOutcome outcomes)) Prod.snd calls ({}, 0) =
        transcript (OneShot.perform outcomes) id calls 0 ↔
      Runs.Along (fun n call => (OneShot.perform outcomes call n).2)
        (fun n _ => ∀ outcome, OneShot.settled outcomes n = some outcome → Kept truthy outcome) 0 calls :=
  transcript_eq_iff_of_represents calls rfl

/-- The empty list of responses to no jobs: after it has been returned the future is not done, and it
asks for it again. -/
theorem transcript_ne_no_jobs :
    transcript (perform (fun responses : List (Except Exc JobResponse) => !responses.isEmpty)
        (getOutcome fun _ => .ok [])) Prod.snd [.result, .done, .result] ({}, 0) ≠
      transcript (OneShot.perform fun _ => .ok []) id [.result, .done, .result] 0 := by
  intro heq
  have hcounts := congrArg (List.map Prod.snd) heq
  revert hcounts
  decide +kernel

end FutureCell
end PySOA
