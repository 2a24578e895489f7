import PySOA.Lib.ReflectedWalk
import PySOA.Server.Answering

/-! The loop of a server over the requests: which errors of the transport it waits out, for how long, and
which ones end it. -/
namespace PySOA

/-- How the loop of `run` is left. -/
inductive RunEnd
  | shuttingDown
  | tooManyErrors (e : Exc)
  | harakiriInterrupt
  | unhandled (e : Exc)

/-- What a pass of the loop finds: whether the server is shutting down, and what `random.random()` gives. -/
structure PassInput where
  shuttingDown : Bool := false
  random : ℚ

namespace Server
variable {σ : Type} (server : Server σ) (transport : ServerTransport σ)

/-- The body of the loop: the number of transient failures afterwards, and how long it has slept. -/
def runPass (random : ℚ) (transientFailures : ℕ) (w : σ) : Except RunEnd (ℕ × Option ℚ) × σ :=
  let handled := server.handleNextRequest transport w
  match handled.result with
  | .ok () => (.ok (if transientFailures > 0 then transientFailures - 1 else transientFailures, none), handled.world)
  | .error e =>
    if e.isTransient then
      if transientFailures > 5 then (.error (.tooManyErrors e), handled.world)
      else (.ok (transientFailures+1, some ((2^transientFailures + random) / 4)), handled.world)
    else if e.isException then (.error (.unhandled e), handled.world)
    else (.error .harakiriInterrupt, handled.world)

/-- The loop, one pass for each input: how it is left, unless it goes on, and its sleeps. -/
def runLoop : List PassInput → ℕ → σ → Option RunEnd × List ℚ × σ
  | [], _, w => (none, [], w)
  | input :: inputs, transientFailures, w =>
    if input.shuttingDown then (some .shuttingDown, [], w)
    else
      match server.runPass transport input.random transientFailures w with
      | (.error runEnd, w) => (some runEnd, [], w)
      | (.ok (transientFailures, sleep), w) =>
        let out := runLoop inputs transientFailures w
        (out.1, sleep.toList ++ out.2.1, out.2.2)

/-- What handling so many requests, one after the other, returns or raises. -/
def results : ℕ → σ → List (Except Exc Unit)
  | 0, _ => []
  | n+1, w =>
    let handled := server.handleNextRequest transport w
    handled.result :: results n handled.world

/-- The loop waits such errors out. -/
def Endures : Except Exc Unit → Prop
  | .ok () => True
  | .error e => e.isTransient = true

def failed : Except Exc Unit → Bool
  | .ok () => false
  | .error _ => true

variable {server transport}

/-- One pass: the loop goes on after what it endures, unless there have been too many failures. -/
lemma runPass_cases (random : ℚ) {transientFailures : ℕ} (h : transientFailures ≤ 6) (w : σ) :
    let handled := server.handleNextRequest transport w
    let after := if failed handled.result then transientFailures+1 else transientFailures-1
    (Endures handled.result ∧ after ≤ 6 ∧ ∃ sleep : Option ℚ,
      server.runPass transport random transientFailures w = (.ok (after, sleep), handled.world) ∧
        ∀ s ∈ sleep, ∃ k ≤ 5, s = (2^k + random) / 4) ∨
    ¬(Endures handled.result ∧ after ≤ 6) ∧
      ∃ runEnd, server.runPass transport random transientFailures w = (.error runEnd, handled.world) := by
  unfold runPass
  generalize server.handleNextRequest transport w = handled
  obtain ⟨result, sent, w'⟩ := handled
  obtain e | u := result
  · by_cases htransient : e.isTransient = true
    · by_cases hmany : transientFailures > 5
      · refine .inr ⟨?_, .tooManyErrors e, by simp [htransient, hmany]⟩
        simp only [failed, if_true]
        omega
      · refine .inl ⟨htransient, ?_, some ((2^transientFailures + random) / 4), ?_, ?_⟩
        · simp only [failed, if_true]
          omega
        · simp [htransient, hmany, failed]
        · intro s hs
          cases hs
          exact ⟨transientFailures, by omega, rfl⟩
    · refine .inr ⟨fun h => htransient h.1, ?_⟩
      by_cases hexception : e.isException = true
      · exact ⟨.unhandled e, by simp [htransient, hexception]⟩
      · exact ⟨.harakiriInterrupt, by simp [htransient, hexception]⟩
  · refine .inl ⟨trivial, ?_, none, ?_, nofun⟩
    · simp only [failed, Bool.false_eq_true, if_false]
      omega
    · have hpred : (if transientFailures > 0 then transientFailures - 1 else transientFailures) =
          transientFailures - 1 := by
        split_ifs
        · rfl
        · omega
      simp only [hpred, failed, Bool.false_eq_true, if_false]

lemma runLoop_eq_none_iff {inputs : List PassInput} {transientFailures : ℕ} (h : transientFailures ≤ 6) (w : σ) :
    (server.runLoop transport inputs transientFailures w).1 = none ↔
      (∀ input ∈ inputs, input.shuttingDown = false) ∧
      (∀ r ∈ server.results transport inputs.length w, Endures r) ∧
      ∀ first, first <+: (server.results transport inputs.length w).map failed →
        ReflectedWalk.levelFrom transientFailures first ≤ 6 := by
  induction inputs generalizing transientFailures w with
  | nil =>
    refine iff_of_true rfl ⟨nofun, nofun, ?_⟩
    intro first hfirst
    obtain rfl := List.prefix_nil.mp hfirst
    exact h
  | cons input inputs ih =>
    rw [List.length_cons, results, List.map_cons, ReflectedWalk.forall_levelFrom_cons, List.forall_mem_cons,
      List.forall_mem_cons, runLoop]
    by_cases hshutting : input.shuttingDown = true
    · rw [if_pos hshutting]
      refine iff_of_false nofun ?_
      rintro ⟨⟨hfalse, -⟩, -⟩
      exact absurd (hshutting.symm.trans hfalse) nofun
    · rw [if_neg hshutting]
      obtain ⟨hendures, hle, sleep, hpass, -⟩ | ⟨hends, runEnd, hpass⟩ :=
        @runPass_cases _ server transport input.random _ h w
      · rw [hpass]
        simp only [ih hle, hendures, hshutting, h, true_and]
      · rw [hpass]
        refine iff_of_false nofun ?_
        rintro ⟨-, ⟨hendures, -⟩, -, hlevels⟩
        exact hends ⟨hendures, hlevels [] List.nil_prefix⟩

lemma sleeps_runLoop {inputs : List PassInput} (hrandom : ∀ input ∈ inputs, 0 ≤ input.random ∧ input.random < 1)
    {transientFailures : ℕ} (h : transientFailures ≤ 6) (w : σ) :
    ∀ sleep ∈ (server.runLoop transport inputs transientFailures w).2.1, 1/4 ≤ sleep ∧ sleep < 33/4 := by
  induction inputs generalizing transientFailures w with
  | nil => exact nofun
  | cons input inputs ih =>
    rw [runLoop]
    split_ifs
    · exact nofun
    · obtain ⟨-, hle, sleep, hpass, hsleep⟩ | ⟨-, runEnd, hpass⟩ :=
        @runPass_cases _ server transport input.random _ h w
      · rw [hpass]
        intro s hs
        obtain hs | hs := List.mem_append.mp hs
        · obtain ⟨k, hk, rfl⟩ := hsleep s (Option.mem_toList.mp hs)
          obtain ⟨hlow, hhigh⟩ := hrandom input List.mem_cons_self
          have hone : (1 : ℚ) ≤ 2^k := one_le_pow₀ (by norm_num)
          have hmost : (2 : ℚ)^k ≤ 2^5 := pow_le_pow_right₀ (by norm_num) hk
          constructor
          · linarith
          · linarith
        · exact ih (fun input hinput => hrandom input (List.mem_cons_of_mem _ hinput)) hle _ s hs
      · rw [hpass]
        exact nofun

/-- The loop goes on exactly as long as the server is not told to shut down, nothing is raised but transient
errors of the transport, and in no stretch of passes these outnumber the passes that return normally, those
that find no request among them, by more than six. Each time it sleeps for less than 33/4 seconds. -/
theorem runLoop_goes_on_iff {inputs : List PassInput}
    (hrandom : ∀ input ∈ inputs, 0 ≤ input.random ∧ input.random < 1) (w : σ) :
    ((server.runLoop transport inputs 0 w).1 = none ↔
      (∀ input ∈ inputs, input.shuttingDown = false) ∧
      (∀ r ∈ server.results transport inputs.length w, Endures r) ∧
      ∀ stretch, stretch <:+: (server.results transport inputs.length w).map failed →
        ReflectedWalk.excess stretch ≤ 6) ∧
    ∀ sleep ∈ (server.runLoop transport inputs 0 w).2.1, 1/4 ≤ sleep ∧ sleep < 33/4 := by
  refine ⟨?_, sleeps_runLoop hrandom (Nat.zero_le 6) w⟩
  rw [runLoop_eq_none_iff (Nat.zero_le 6)]
  exact and_congr_right' (and_congr_right' ReflectedWalk.forall_level_le_iff)

/-- A transport whose connection is lost. -/
def lostTransport : ServerTransport (List String) where
  receiveRequestMessage w := (.error (.messageReceiveError "connection lost"), w)
  sendResponseMessage _ metaDict _ w := (.error (.messageSendError "connection lost"), metaDict, w)

/-- Of failures in a row the seventh ends the loop. -/
theorem runLoop_goes_on_iff_lostTransport :
    (exampleServer.runLoop lostTransport (List.replicate 6 { random := 1/2 }) 0 []).1 = none ∧
      (exampleServer.runLoop lostTransport (List.replicate 7 { random := 1/2 }) 0 []).1 ≠ none := by
  have hrandom (n : ℕ) : ∀ input ∈ List.replicate n ({ random := 1/2 } : PassInput),
      0 ≤ input.random ∧ input.random < 1 := by
    intro input hinput
    rw [List.eq_of_mem_replicate hinput]
    norm_num
  have hresults (n : ℕ) : exampleServer.results lostTransport n [] =
      List.replicate n (.error (.messageReceiveError "connection lost")) := by
    induction n with
    | zero => rfl
    | succ n ih =>
      rw [results, List.replicate_succ, ← ih]
      rfl
  constructor
  · apply (runLoop_goes_on_iff (hrandom 6) []).1.mpr
    rw [List.length_replicate, hresults, List.map_replicate]
    refine ⟨?_, ?_, ?_⟩
    · intro input hinput
      rw [List.eq_of_mem_replicate hinput]
    · intro r hr
      rw [List.eq_of_mem_replicate hr]
      rfl
    · intro stretch hstretch
      have hlength := hstretch.length_le
      have hcount := List.count_le_length (a := true) (l := stretch)
      rw [List.length_replicate] at hlength
      unfold ReflectedWalk.excess
      omega
  · intro hnone
    have hall := ((runLoop_goes_on_iff (hrandom 7) []).1.mp hnone).2.2 _ List.infix_rfl
    rw [List.length_replicate, hresults] at hall
    exact absurd hall (by decide)

end Server
end PySOA
