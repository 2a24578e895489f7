import Mathlib.Tactic.Linarith
import PySOA.Lib.BoundedDeque

/-! The monitor of a forked server process, which starts it again when it has died. -/
namespace PySOA

/-- The state of the thread that watches one process. -/
structure ProcessMonitor where
  index : ℤ
  respawn : Bool
  oneMinuteRestartTimes : BoundedDeque ℚ 8 := .empty
  fifteenSecondRestartTimes : BoundedDeque ℚ 3 := .empty

/-- What the monitor does about a process that has died, and what it writes to the output. -/
inductive Reaction
  | stopped
  | gaveUp (notice : String)
  | respawned (notice : String)

namespace ProcessMonitor
variable (monitor : ProcessMonitor)

/-- As many restarts as the queue holds have been within the given number of seconds. -/
def tooMany {maxlen : ℕ} (restartTimes : BoundedDeque ℚ maxlen) (seconds t : ℚ) : Bool :=
  match restartTimes.oldest? with
  | some oldest => t-oldest < seconds
  | none => false

def crashedTooOften (limit : ℕ) (period : String) : String :=
  "Server process #" ++ toString monitor.index ++ " has crashed too many times (" ++ toString limit ++
    ") in the last " ++ period ++ "; not respawning.\n"

/-- The body of the loop from the end of the process on: whether a signal has been received, and what
`time.time()` gives. -/
def react (signaled : Bool) (t : ℚ) : Reaction × ProcessMonitor :=
  if signaled || !monitor.respawn then (.stopped, monitor)
  else if tooMany monitor.oneMinuteRestartTimes 60 t then
    (.gaveUp (monitor.crashedTooOften 8 "minute"), monitor)
  else if tooMany monitor.fifteenSecondRestartTimes 15 t then
    (.gaveUp (monitor.crashedTooOften 3 "15 seconds"), monitor)
  else
    (.respawned ("Re-spawning failed server process #" ++ toString monitor.index ++ "\n"),
      { monitor with
        oneMinuteRestartTimes := monitor.oneMinuteRestartTimes.append t
        fifteenSecondRestartTimes := monitor.fifteenSecondRestartTimes.append t })

/-- The loop of `run` over the ends of the process, which gives the times at which it has been
respawned. The process lives on to its next end only if it has been. -/
def run (monitor : ProcessMonitor) : List (Bool × ℚ) → List ℚ
  | [] => []
  | (signaled, t) :: ends =>
    match monitor.react signaled t with
    | (.respawned _, monitor) => t :: monitor.run ends
    | _ => []

/-- The queues hold the last of the given restart times. -/
structure Remembers (restarts : List ℚ) : Prop where
  respawn : monitor.respawn = true
  oneMinute : monitor.oneMinuteRestartTimes.Holds restarts
  fifteenSecond : monitor.fifteenSecondRestartTimes.Holds restarts

/-- The number of restarts within less than the given number of seconds before a time. -/
def recent (seconds : ℚ) (restarts : List ℚ) (t : ℚ) : ℕ := restarts.countP (t - · < seconds)

/-- Neither limit has been reached. -/
def MayRespawn (restarts : List ℚ) (t : ℚ) : Prop := recent 15 restarts t < 3 ∧ recent 60 restarts t < 8

variable {monitor}

lemma tooMany_iff {maxlen : ℕ} {restartTimes : BoundedDeque ℚ maxlen} {restarts : List ℚ}
    (h : restartTimes.Holds restarts) (hpos : 0 < maxlen) (hsorted : restarts.Pairwise (· ≤ ·))
    (seconds t : ℚ) : tooMany restartTimes seconds t = true ↔ maxlen ≤ recent seconds restarts t := by
  have hlater : restarts.Pairwise fun a b =>
      decide (t-a < seconds) = true → decide (t-b < seconds) = true := by
    apply hsorted.imp
    intro a b hab ha
    rw [decide_eq_true_eq] at ha ⊢
    linarith
  rw [recent, h.le_countP_iff hlater hpos, tooMany]
  cases restartTimes.oldest? with
  | none => simp
  | some oldest => simp

/-- A process that dies without a signal is respawned exactly if neither limit has been reached. -/
lemma Remembers.react {restarts : List ℚ} (h : monitor.Remembers restarts)
    (hsorted : restarts.Pairwise (· ≤ ·)) (t : ℚ) :
    (MayRespawn restarts t ∧ ∃ notice monitor', monitor.react false t = (.respawned notice, monitor') ∧
      monitor'.Remembers (restarts ++ [t])) ∨
    ¬MayRespawn restarts t ∧ ∃ notice, monitor.react false t = (.gaveUp notice, monitor) := by
  have hminute := tooMany_iff h.oneMinute (by omega) hsorted 60 t
  have hseconds := tooMany_iff h.fifteenSecond (by omega) hsorted 15 t
  have hlive : (false || !monitor.respawn) = false := by
    rw [h.respawn]
    rfl
  unfold ProcessMonitor.react MayRespawn
  rw [hlive, if_neg Bool.false_ne_true]
  by_cases hslow : tooMany monitor.oneMinuteRestartTimes 60 t = true
  · have hmany := hminute.mp hslow
    rw [if_pos hslow]
    exact .inr ⟨by omega, _, rfl⟩
  · rw [if_neg hslow]
    by_cases hquick : tooMany monitor.fifteenSecondRestartTimes 15 t = true
    · have hmany := hseconds.mp hquick
      rw [if_pos hquick]
      exact .inr ⟨by omega, _, rfl⟩
    · rw [if_neg hquick]
      rw [hminute] at hslow
      rw [hseconds] at hquick
      exact .inl ⟨by omega, _, _, rfl, h.respawn, h.oneMinute.append t, h.fifteenSecond.append t⟩

/-- The times at which a process that dies at the given times is respawned; no signal is received. -/
def respawns (monitor : ProcessMonitor) (times : List ℚ) : List ℚ := monitor.run (times.map (false, ·))

lemma respawns_cons (t : ℚ) (times : List ℚ) : monitor.respawns (t :: times) =
    match monitor.react false t with
    | (.respawned _, monitor) => t :: monitor.respawns times
    | _ => [] := rfl

/-- The respawns of a monitor that remembers earlier ones: the process is respawned from each end that
it lives to see, as long as the limits allow it. -/
lemma Remembers.respawns {restarts times : List ℚ} (h : monitor.Remembers restarts)
    (hsorted : (restarts ++ times).Pairwise (· ≤ ·)) :
    monitor.respawns times <+: times ∧ ∀ earlier t later, times = earlier ++ t :: later →
      (earlier ++ [t] <+: monitor.respawns times ↔
        earlier <+: monitor.respawns times ∧ MayRespawn (restarts ++ earlier) t) := by
  induction times generalizing monitor restarts with
  | nil =>
    refine ⟨List.nil_prefix, ?_⟩
    rintro earlier t later heq
    simp at heq
  | cons t₀ times ih =>
    obtain ⟨hmay, notice, monitor', hreact, h'⟩ | ⟨hmay, notice, hreact⟩ :=
      h.react (List.pairwise_append.mp hsorted).1 t₀
    · rw [← List.singleton_append, ← List.append_assoc] at hsorted
      obtain ⟨hdone, hall⟩ := ih h' hsorted
      rw [respawns_cons, hreact]
      dsimp only
      refine ⟨List.cons_prefix_cons.mpr ⟨rfl, hdone⟩, ?_⟩
      rintro (_ | ⟨t₁, earlier⟩) t later heq
      · cases heq
        rw [List.append_nil]
        exact iff_of_true (List.cons_prefix_cons.mpr ⟨rfl, List.nil_prefix⟩) ⟨List.nil_prefix, hmay⟩
      · cases heq
        rw [List.cons_append, List.cons_prefix_cons, List.cons_prefix_cons, hall earlier t later rfl,
          List.append_assoc, List.singleton_append]
        simp
    · rw [respawns_cons, hreact]
      refine ⟨List.nil_prefix, ?_⟩
      intro earlier t later heq
      refine iff_of_false ?_ ?_
      · intro hnil
        have := List.prefix_nil.mp hnil
        simp at this
      · rintro ⟨hnil, hagain⟩
        obtain rfl := List.prefix_nil.mp hnil
        cases heq
        rw [List.append_nil] at hagain
        exact hmay hagain

/-- How often a process is respawned in a half-open window of time. -/
lemma countP_window_le {respawned : List ℚ} {seconds : ℚ} {n : ℕ}
    (hfew : ∀ earlier t, earlier ++ [t] <+: respawned → recent seconds earlier t < n) (a : ℚ) :
    respawned.countP (fun r => a ≤ r ∧ r < a+seconds) ≤ n ∧
      respawned.countP (fun r => a < r ∧ r ≤ a+seconds) ≤ n := by
  have hwindow : ∀ p : ℚ → Bool, (∀ r t, p r = true → p t = true → t-r < seconds) →
      respawned.countP p ≤ n := by
    intro p hp
    apply List.countP_le_of_few_near hfew
    intro earlier t _ ht r _ hr
    exact decide_eq_true (hp r t hr ht)
  constructor
  · apply hwindow
    intro r t hr ht
    rw [decide_eq_true_eq] at hr ht
    linarith
  · apply hwindow
    intro r t hr ht
    rw [decide_eq_true_eq] at hr ht
    linarith

/-- A process that is respawned from every end before some time is respawned then exactly if neither
limit has been reached, and it is respawned no more after an end from which it has not been. So at most
3 respawns are in any window of 15 seconds, and at most 8 in any window of 60 seconds. -/
theorem respawn_limits (index : ℤ) {times : List ℚ} (htimes : times.Pairwise (· ≤ ·)) :
    (∀ earlier t later, times = earlier ++ t :: later →
      (earlier ++ [t] <+: respawns { index, respawn := true } times ↔
        earlier <+: respawns { index, respawn := true } times ∧ MayRespawn earlier t) ∧
      (¬earlier ++ [t] <+: respawns { index, respawn := true } times →
        respawns { index, respawn := true } times <+: earlier)) ∧
    ∀ a, ((respawns { index, respawn := true } times).countP (fun r => a ≤ r ∧ r < a+15) ≤ 3 ∧
        (respawns { index, respawn := true } times).countP (fun r => a < r ∧ r ≤ a+15) ≤ 3) ∧
      (respawns { index, respawn := true } times).countP (fun r => a ≤ r ∧ r < a+60) ≤ 8 ∧
        (respawns { index, respawn := true } times).countP (fun r => a < r ∧ r ≤ a+60) ≤ 8 := by
  have hnew : Remembers { index, respawn := true } [] :=
    ⟨rfl, BoundedDeque.holds_empty, BoundedDeque.holds_empty⟩
  obtain ⟨hdone, hall⟩ := hnew.respawns htimes
  generalize respawns { index, respawn := true } times = respawned at hdone hall ⊢
  have hmay : ∀ earlier t, earlier ++ [t] <+: respawned → MayRespawn earlier t := by
    intro earlier t h
    obtain ⟨later, hlater⟩ := h.trans hdone
    rw [List.append_assoc, List.singleton_append] at hlater
    exact ((hall earlier t later hlater.symm).mp h).2
  refine ⟨?_, fun a => ⟨?_, ?_⟩⟩
  · intro earlier t later heq
    refine ⟨hall earlier t later heq, fun hnot => ?_⟩
    have hend : earlier ++ [t] <+: times := ⟨later, by rw [heq, List.append_assoc, List.singleton_append]⟩
    obtain h | h := List.prefix_or_prefix_of_prefix hend hdone
    · exact absurd h hnot
    · obtain h | h := List.prefix_concat_iff.mp h
      · exact absurd (h ▸ List.prefix_rfl) hnot
      · exact h
  · exact countP_window_le (fun earlier t h => (hmay earlier t h).1) a
  · exact countP_window_le (fun earlier t h => (hmay earlier t h).2) a

/-- Of four ends within 15 seconds the last one is not followed by a respawn; one that comes exactly
15 seconds after the first would be. -/
theorem respawn_limits_four_ends :
    (¬[0, 1, 2] ++ [3] <+: respawns { index := 2, respawn := true } [0, 1, 2, 3]) ∧
      ([0, 1, 2] ++ [15] <+: respawns { index := 2, respawn := true } [0, 1, 2, 15] ↔
        [0, 1, 2] <+: respawns { index := 2, respawn := true } [0, 1, 2, 15] ∧ MayRespawn [0, 1, 2] 15) := by
  have hfour : ([0, 1, 2, 3] : List ℚ).Pairwise (· ≤ ·) := by decide +kernel
  have hfifteen : ([0, 1, 2, 15] : List ℚ).Pairwise (· ≤ ·) := by decide +kernel
  have hquick := (respawn_limits 2 hfour).1 [0, 1, 2] 3 [] rfl
  have hedge := (respawn_limits 2 hfifteen).1 [0, 1, 2] 15 [] rfl
  refine ⟨fun h => ?_, hedge.1⟩
  have hmany := (hquick.1.mp h).2.1
  revert hmany
  decide +kernel

end ProcessMonitor
end PySOA
