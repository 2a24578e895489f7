import Mathlib.Data.List.Chain
import Mathlib.Data.Rat.Defs
import PySOA.Lib.Runs

/-! The signals on which a server shuts down: which of them it takes for duplicates, and which ones force it
to exit. -/
namespace PySOA

abbrev sigint : ℕ := 2
abbrev sigalrm : ℕ := 14
abbrev sigterm : ℕ := 15

/-- A signal for which the server has set a handler, what `time.time()` gives at the test of the handler, and
what it gives at the end of it. -/
structure SignalEvent where
  number : ℕ
  tested : ℚ
  received : ℚ
  registered : number = sigint ∨ number = sigterm ∨ number = sigalrm := by decide

namespace SignalEvent

/-- The signal is one for which `handle_shutdown_signal` is the handler. -/
abbrev IsShutdown (number : ℕ) : Prop := number = sigint ∨ number = sigterm

/-- A signal that is taken for a duplicate of the one before. -/
def Duplicates (earlier later : SignalEvent) : Prop :=
  IsShutdown earlier.number ∧ IsShutdown later.number ∧ earlier.number ≠ later.number ∧
    later.tested - earlier.received < 1

end SignalEvent

/-- What the handler of a signal does with the server. -/
inductive SignalEffect
  | initiatesShutdown
  | ignored
  | raisesHarakiriInterrupt
  | exits (status : ℕ)

/-- The attributes of a server that its signal handlers read and set, and whether it has exited. -/
structure ShutdownState where
  shuttingDown : Bool := false
  locked : Bool := false
  lastSignal : ℕ := 0
  lastSignalReceived : ℚ := 0
  exited : Option ℕ := none

inductive ShutdownOp
  | signal (event : SignalEvent)
  | handlerReturns

namespace ShutdownState
open SignalEvent
variable (s : ShutdownState) (event : SignalEvent)

/-- `handle_shutdown_signal` behind the lock. -/
def handleShutdownSignal : SignalEffect × ShutdownState :=
  let received := { s with shuttingDown := true, lastSignal := event.number, lastSignalReceived := event.received }
  if s.shuttingDown then
    if (s.lastSignal = sigint ∨ s.lastSignal = sigterm) ∧ s.lastSignal ≠ event.number ∧
        event.tested - s.lastSignalReceived < 1 then (.ignored, received)
    else (.exits 1, s)
  else (.initiatesShutdown, received)

/-- `harakiri` behind the lock. -/
def harakiri : SignalEffect × ShutdownState :=
  let received := { s with lastSignal := event.number, lastSignalReceived := event.received }
  if s.shuttingDown then (.exits 1, received)
  else (.raisesHarakiriInterrupt, { received with shuttingDown := true })

/-- The handler of the signal behind the lock. -/
def handler : SignalEffect × ShutdownState :=
  if event.number = sigalrm then s.harakiri event else s.handleShutdownSignal event

/-- A signal that comes while a handler holds the lock is dropped. -/
def step : ShutdownOp → ShutdownState
  | .signal event =>
    if s.locked then s
    else
      match s.handler event with
      | (.exits status, s) => { s with locked := true, exited := some status }
      | (_, s) => { s with locked := true }
  | .handlerReturns => { s with locked := false }

/-- The signals that are handled: those that come while no handler holds the lock. -/
def handled : Bool → List ShutdownOp → List SignalEvent
  | _, [] => []
  | locked, .signal event :: ops => if locked then handled true ops else event :: handled true ops
  | _, .handlerReturns :: ops => handled false ops

/-- The attributes hold the last signal. -/
structure Last (s : ShutdownState) (event : SignalEvent) : Prop where
  shuttingDown : s.shuttingDown = true
  lastSignal : s.lastSignal = event.number
  lastSignalReceived : s.lastSignalReceived = event.received

variable {s event}

lemma exited_step {status : ℕ} (h : s.exited = some status) (op : ShutdownOp) :
    ∃ status', (s.step op).exited = some status' := by
  cases op with
  | handlerReturns => exact ⟨status, h⟩
  | signal event =>
    unfold step
    dsimp only
    split_ifs
    · exact ⟨status, h⟩
    · split
      · exact ⟨_, rfl⟩
      · next heffect =>
        refine ⟨status, ?_⟩
        unfold handler harakiri handleShutdownSignal at heffect
        split_ifs at heffect <;> cases heffect <;> exact h

lemma exited_run {status : ℕ} (h : s.exited = some status) (ops : List ShutdownOp) :
    (Runs.run step s ops).exited ≠ none := by
  obtain ⟨status', hrun⟩ := Runs.run_invariant (P := fun s : ShutdownState => ∃ status, s.exited = some status)
    (fun s op ⟨_, h⟩ => exited_step h op) ⟨status, h⟩ ops
  rw [hrun]
  nofun

/-- The first signal shuts the server down. -/
lemma step_first (hfree : s.locked = false) (hrunning : s.shuttingDown = false) (hexited : s.exited = none) :
    (s.step (.signal event)).Last event ∧ (s.step (.signal event)).locked = true ∧
      (s.step (.signal event)).exited = none := by
  unfold step handler
  simp only [hfree, Bool.false_eq_true, if_false]
  by_cases halarm : event.number = sigalrm
  · simp only [halarm, if_true, harakiri, hrunning, Bool.false_eq_true, if_false]
    exact ⟨⟨rfl, halarm.symm, rfl⟩, trivial, hexited⟩
  · simp only [halarm, if_false, handleShutdownSignal, hrunning, Bool.false_eq_true]
    exact ⟨⟨rfl, rfl, rfl⟩, trivial, hexited⟩

/-- Every other signal is a duplicate of the one before, or the server exits. -/
lemma step_later {earlier : SignalEvent} (h : s.Last earlier) (hfree : s.locked = false)
    (hexited : s.exited = none) :
    (earlier.Duplicates event ∧ (s.step (.signal event)).Last event ∧
      (s.step (.signal event)).locked = true ∧ (s.step (.signal event)).exited = none) ∨
    ¬earlier.Duplicates event ∧ (s.step (.signal event)).exited = some 1 := by
  obtain ⟨hshutting, hsignal, hreceived⟩ := h
  unfold step handler
  simp only [hfree, Bool.false_eq_true, if_false]
  by_cases halarm : event.number = sigalrm
  · right
    simp only [halarm, if_true, harakiri, hshutting]
    refine ⟨?_, trivial⟩
    rintro ⟨-, hshutdown | hshutdown, -⟩
    · exact absurd (halarm.symm.trans hshutdown) (by decide)
    · exact absurd (halarm.symm.trans hshutdown) (by decide)
  · simp only [halarm, if_false, handleShutdownSignal, hshutting, if_true, hsignal, hreceived]
    by_cases hduplicate : (earlier.number = sigint ∨ earlier.number = sigterm) ∧
        earlier.number ≠ event.number ∧ event.tested - earlier.received < 1
    · left
      have hshutdown : IsShutdown event.number := by
        obtain h | h | h := event.registered
        · exact .inl h
        · exact .inr h
        · exact absurd h halarm
      rw [if_pos hduplicate]
      exact ⟨⟨hduplicate.1, hshutdown, hduplicate.2⟩, ⟨rfl, rfl, rfl⟩, rfl, hexited⟩
    · right
      rw [if_neg hduplicate]
      refine ⟨?_, rfl⟩
      rintro ⟨hearlier, -, hne, hsoon⟩
      exact hduplicate ⟨hearlier, hne, hsoon⟩

lemma run_of_last {earlier : SignalEvent} (h : s.Last earlier) (hexited : s.exited = none)
    (ops : List ShutdownOp) :
    (Runs.run step s ops).exited = none ↔ (earlier :: handled s.locked ops).IsChain Duplicates := by
  induction ops generalizing s earlier with
  | nil => exact iff_of_true hexited (.singleton _)
  | cons op ops ih =>
    rw [Runs.run_cons]
    cases op with
    | handlerReturns => exact ih ⟨h.shuttingDown, h.lastSignal, h.lastSignalReceived⟩ hexited
    | signal event =>
      by_cases hlocked : s.locked = true
      · have hsame : s.step (.signal event) = s := by
          unfold step
          exact if_pos hlocked
        rw [hsame, ih h hexited, handled, hlocked, if_pos rfl]
      · rw [Bool.not_eq_true] at hlocked
        rw [handled, hlocked, if_neg Bool.false_ne_true, List.isChain_cons_cons]
        obtain ⟨hduplicates, hlast, hlocked', hexited'⟩ | ⟨hnot, hexit⟩ := step_later h hlocked hexited
        · rw [ih hlast hexited', hlocked']
          exact (and_iff_right hduplicates).symm
        · exact iff_of_false (exited_run hexit ops) fun hchain => hnot hchain.1

/-- The server does not exit at once exactly as long as each signal that is handled, but for the first, is
`SIGINT` after `SIGTERM` or `SIGTERM` after `SIGINT` and comes within a second of it. So it does exit on the same
signal twice in a row, on any signal after a harakiri, and on a harakiri after any other signal. -/
theorem exited_eq_none_iff (ops : List ShutdownOp) :
    (Runs.run step {} ops).exited = none ↔ (handled false ops).IsChain Duplicates := by
  have hfirst : ∀ {s : ShutdownState}, s.shuttingDown = false → s.exited = none →
      ((Runs.run step s ops).exited = none ↔ (handled s.locked ops).IsChain Duplicates) := by
    induction ops with
    | nil => exact fun _ hexited => iff_of_true hexited .nil
    | cons op ops ih =>
      intro s hrunning hexited
      rw [Runs.run_cons]
      cases op with
      | handlerReturns => exact @ih { s with locked := false } hrunning hexited
      | signal event =>
        by_cases hlocked : s.locked = true
        · have hsame : s.step (.signal event) = s := by
            unfold step
            exact if_pos hlocked
          rw [hsame, ih hrunning hexited, handled, hlocked, if_pos rfl]
        · rw [Bool.not_eq_true] at hlocked
          obtain ⟨hlast, hlocked', hexited'⟩ := @step_first s event hlocked hrunning hexited
          rw [handled, hlocked, if_neg Bool.false_ne_true, run_of_last hlast hexited', hlocked']
  exact hfirst rfl rfl

end ShutdownState
end PySOA
