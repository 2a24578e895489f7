import PySOA.Lib.Runs
import PySOA.Server.Standalone

/-! Shutting forked server processes down. The handler of the signal runs in the main thread while the
threads of the monitors and the processes themselves go on, their steps in any order. -/
namespace PySOA

/-- The process that a monitor has made last. -/
inductive WorkerProcess
  | none
  | created
  | running (terminated : Bool)
  | dead
  deriving DecidableEq

/-- What the thread of a monitor does next in `run`. -/
inductive MonitorStep
  | createProcess
  | startProcess
  | testLoop
  | joinProcess
  | testSignaled
  | testLimits
  | clearProcess
  | ended
  deriving DecidableEq

/-- The thread of a monitor. Its process attribute refers to the worker if it has a process. -/
structure MonitorThread where
  monitor : ProcessMonitor
  next : MonitorStep := .createProcess
  hasProcess : Bool := false
  worker : WorkerProcess := .none

namespace MonitorThread
variable (thread : MonitorThread)

/-- The next step of `run`, with `signal_context.signaled` and what `time.time()` gives. A thread that
joins its process waits for the end of it. -/
def advance (signaled : Bool) (t : ℚ) : MonitorThread :=
  match thread.next with
  | .createProcess => { thread with next := .startProcess, hasProcess := true, worker := .created }
  | .startProcess => { thread with next := .testLoop, worker := .running false }
  | .testLoop => { thread with next := if signaled then .clearProcess else .joinProcess }
  | .joinProcess => if thread.worker = .dead then { thread with next := .testSignaled } else thread
  | .testSignaled =>
    { thread with next := if signaled || !thread.monitor.respawn then .clearProcess else .testLimits }
  | .testLimits =>
    match thread.monitor.react false t with
    | (.respawned _, monitor) => { thread with next := .createProcess, monitor }
    | (_, monitor) => { thread with next := .clearProcess, monitor }
  | .clearProcess => { thread with next := .ended, hasProcess := false }
  | .ended => thread

/-- The worker ends, for whatever reason. -/
def exit : MonitorThread :=
  match thread.worker with
  | .running _ => { thread with worker := .dead }
  | _ => thread

/-- `self.process.terminate()`, which fails if there is no process or it has not been started. -/
def terminateProcess : Option MonitorThread :=
  if thread.hasProcess then
    match thread.worker with
    | .running _ => some { thread with worker := .running true }
    | .dead => some thread
    | _ => none
  else none

end MonitorThread

/-- What the handler of the shutdown signal does next. The loop over the monitors tests whether the one
at the index has a process, and then terminates it. -/
inductive HandlerStep
  | idle
  | setSignaled
  | testProcess (i : ℕ)
  | terminate (i : ℕ)
  | returned
  | raised (i : ℕ)
  deriving DecidableEq

/-- The process that has forked the workers, once its handlers are set. -/
structure ForkingParent where
  threads : List MonitorThread
  signaled : Bool := false
  locked : Bool := false
  handler : HandlerStep := .idle

inductive ForkOp
  | signal
  | handle
  | advance (i : ℕ) (t : ℚ)
  | exit (i : ℕ)

namespace ForkingParent

def start (noRespawn : Bool) (numProcesses : ℕ) : ForkingParent where
  threads := (List.range' 1 numProcesses).map fun index => { monitor := { index, respawn := !noRespawn } }

variable (parent : ForkingParent)

/-- The entry of `signaled`. If the signal has been handled then the lock is not released. -/
def receiveSignal : ForkingParent :=
  if parent.locked then parent
  else if parent.signaled then { parent with locked := true }
  else { parent with locked := true, handler := .setSignaled }

/-- The next step of `signaled`. -/
def handle : ForkingParent :=
  match parent.handler with
  | .setSignaled => { parent with signaled := true, handler := .testProcess 0 }
  | .testProcess i =>
    match parent.threads[i]? with
    | none => { parent with locked := false, handler := .returned }
    | some thread => { parent with handler := if thread.hasProcess then .terminate i else .testProcess (i+1) }
  | .terminate i =>
    match parent.threads[i]?.bind MonitorThread.terminateProcess with
    | none => { parent with locked := false, handler := .raised i }
    | some thread => { parent with threads := parent.threads.set i thread, handler := .testProcess (i+1) }
  | _ => parent

def step : ForkOp → ForkingParent
  | .signal => parent.receiveSignal
  | .handle => parent.handle
  | .advance i t => { parent with threads := parent.threads.modify i (·.advance parent.signaled t) }
  | .exit i => { parent with threads := parent.threads.modify i (·.exit) }

end ForkingParent

/-! Before a signal is handled. -/

namespace MonitorThread
variable {thread : MonitorThread}

/-- What is known of a thread, by what it does next, as long as no signal is handled. A process is
replaced only after its end. -/
def Regular (thread : MonitorThread) : Prop :=
  match thread.next with
  | .createProcess => thread.worker = .none ∨ thread.worker = .dead
  | .startProcess => thread.hasProcess = true ∧ thread.worker = .created
  | .testLoop | .joinProcess => thread.hasProcess = true ∧ (thread.worker = .running false ∨ thread.worker = .dead)
  | .testSignaled | .clearProcess => thread.hasProcess = true ∧ thread.worker = .dead
  | .testLimits => thread.hasProcess = true ∧ thread.worker = .dead ∧ thread.monitor.respawn = true
  | .ended => thread.worker = .dead

lemma Regular.advance (h : thread.Regular) (t : ℚ) : (thread.advance false t).Regular := by
  obtain ⟨monitor, next, hasProcess, worker⟩ := thread
  cases next with
  | createProcess => exact ⟨rfl, rfl⟩
  | startProcess => exact ⟨h.1, .inl rfl⟩
  | testLoop => exact h
  | joinProcess =>
    unfold MonitorThread.advance
    dsimp only
    split_ifs with hdead
    · exact ⟨h.1, hdead⟩
    · exact h
  | testSignaled =>
    unfold MonitorThread.advance
    dsimp only
    split_ifs with hrespawn
    · exact h
    · exact ⟨h.1, h.2, by simpa using hrespawn⟩
  | testLimits =>
    unfold MonitorThread.advance
    dsimp only
    split
    · exact .inr h.2.1
    · exact ⟨h.1, h.2.1⟩
  | clearProcess => exact h.2
  | ended => exact h

lemma Regular.exit (h : thread.Regular) : thread.exit.Regular := by
  obtain ⟨monitor, next, hasProcess, worker⟩ := thread
  cases worker with
  | running terminated =>
    cases next with
    | testLoop => exact ⟨h.1, .inr rfl⟩
    | joinProcess => exact ⟨h.1, .inr rfl⟩
    | _ => simp [Regular] at h
  | _ => exact h

/-- The thread is starting its process, or is about to start it again, or it has not yet come to wait for
the end of the process that it has started. -/
def Starting (thread : MonitorThread) : Prop :=
  thread.next = .testLimits ∨ thread.next = .createProcess ∨ thread.next = .startProcess ∨
    thread.next = .testLoop ∧ thread.worker ≠ .dead

/-- The thread waits for the end of its process or has nothing more to do than to end. -/
def Waits (thread : MonitorThread) : Prop :=
  (thread.hasProcess = true ∧ thread.next = .joinProcess ∧ ∃ terminated, thread.worker = .running terminated) ∨
    thread.worker = .dead ∧ (thread.next = .ended ∨ thread.hasProcess = true ∧
      (thread.next = .testLoop ∨ thread.next = .joinProcess ∨ thread.next = .testSignaled ∨
        thread.next = .clearProcess))

lemma Regular.waits (h : thread.Regular) (hstarting : ¬thread.Starting) : thread.Waits := by
  obtain ⟨monitor, next, hasProcess, worker⟩ := thread
  cases next with
  | testLoop =>
    have hdead : worker = .dead := by simpa [Starting] using hstarting
    exact .inr ⟨hdead, .inr ⟨h.1, .inl rfl⟩⟩
  | joinProcess =>
    obtain ⟨hprocess, hrunning | hdead⟩ := h
    · exact .inl ⟨hprocess, rfl, false, hrunning⟩
    · exact .inr ⟨hdead, .inr ⟨hprocess, .inr (.inl rfl)⟩⟩
  | testSignaled => exact .inr ⟨h.2, .inr ⟨h.1, .inr (.inr (.inl rfl))⟩⟩
  | clearProcess => exact .inr ⟨h.2, .inr ⟨h.1, .inr (.inr (.inr rfl))⟩⟩
  | ended => exact .inr ⟨h, .inl rfl⟩
  | _ => simp [Starting] at hstarting

/-- After the signal such a thread only goes on to its end, and leaves its process alone. -/
lemma Waits.advance (h : thread.Waits) (t : ℚ) :
    (thread.advance true t).Waits ∧ (thread.advance true t).worker = thread.worker ∧
      (thread.next ≠ .clearProcess → (thread.advance true t).hasProcess = thread.hasProcess) := by
  obtain ⟨monitor, next, hasProcess, worker⟩ := thread
  obtain ⟨hprocess, hnext, terminated, hworker⟩ | ⟨hworker, hnext | ⟨hprocess, hnext⟩⟩ := h
  · cases hnext
    cases hworker
    exact ⟨.inl ⟨hprocess, rfl, terminated, rfl⟩, rfl, fun _ => rfl⟩
  · cases hnext
    exact ⟨.inr ⟨hworker, .inl rfl⟩, rfl, fun _ => rfl⟩
  · cases hworker
    obtain h | h | h | h := hnext <;> cases h <;> simp_all [MonitorThread.advance, Waits]

lemma Waits.exit (h : thread.Waits) :
    thread.exit.Waits ∧ thread.exit.hasProcess = thread.hasProcess ∧
      (thread.worker ≠ .running false → thread.exit.worker ≠ .running false) := by
  obtain ⟨monitor, next, hasProcess, worker⟩ := thread
  obtain ⟨hprocess, hnext, terminated, hworker⟩ | ⟨hworker, hrest⟩ := h
  · cases hworker
    exact ⟨.inr ⟨rfl, .inr ⟨hprocess, .inr (.inl hnext)⟩⟩, rfl, fun _ => nofun⟩
  · cases hworker
    exact ⟨.inr ⟨rfl, hrest⟩, rfl, fun _ => nofun⟩

lemma Waits.terminateProcess (h : thread.Waits) (hprocess : thread.hasProcess = true) :
    ∃ thread', thread.terminateProcess = some thread' ∧ thread'.Waits ∧ thread'.worker ≠ .running false ∧
      thread'.hasProcess = true := by
  obtain ⟨monitor, next, hasProcess, worker⟩ := thread
  cases hprocess
  obtain ⟨-, hnext, terminated, hworker⟩ | ⟨hworker, hrest⟩ := h
  · cases hworker
    exact ⟨_, rfl, .inl ⟨rfl, hnext, true, rfl⟩, nofun, rfl⟩
  · cases hworker
    exact ⟨_, rfl, .inr ⟨rfl, hrest⟩, nofun, rfl⟩

end MonitorThread

/-- The handler has been at the monitor with the index. -/
def HandlerStep.Passed (i : ℕ) : HandlerStep → Prop
  | .testProcess j | .terminate j | .raised j => i < j
  | .returned => True
  | .idle | .setSignaled => False

namespace ForkingParent
variable {parent : ForkingParent}

/-- The handler has not failed, and of the monitors at which it has been none is left with a process that
runs and has not been terminated. -/
def Terminates (parent : ForkingParent) : Prop :=
  (∀ i, parent.handler ≠ .raised i) ∧ ∀ i thread, parent.threads[i]? = some thread →
    parent.handler.Passed i → thread.worker ≠ .running false

/-- No monitor lets go of its process between the test of the handler and its call of `terminate`. -/
def Undisturbed (parent : ForkingParent) (op : ForkOp) : Prop :=
  ∀ i t thread, op = .advance i t → parent.threads[i]? = some thread → thread.next = .clearProcess →
    parent.handler ≠ .terminate i

/-- A signal is handled, and it can still terminate all processes. -/
structure Covered (parent : ForkingParent) : Prop where
  signaled : parent.signaled = true
  handling : parent.handler ≠ .idle ∧ parent.handler ≠ .setSignaled ∧ ∀ i, parent.handler ≠ .raised i
  waits : ∀ (i : ℕ) (thread : MonitorThread), parent.threads[i]? = some thread → thread.Waits
  passed : ∀ (i : ℕ) (thread : MonitorThread), parent.threads[i]? = some thread → parent.handler.Passed i →
    thread.worker ≠ .running false
  tested : ∀ i, parent.handler = .terminate i → ∃ thread : MonitorThread, parent.threads[i]? = some thread ∧
    thread.hasProcess = true

section handle
variable {i : ℕ} {thread : MonitorThread}

lemma handle_of_end (h : parent.handler = .testProcess i) (hthread : parent.threads[i]? = none) :
    parent.handle = { parent with locked := false, handler := .returned } := by
  rw [handle, h]
  dsimp only
  rw [hthread]

lemma handle_of_testProcess (h : parent.handler = .testProcess i) (hthread : parent.threads[i]? = some thread) :
    parent.handle =
      { parent with handler := if thread.hasProcess then .terminate i else .testProcess (i+1) } := by
  rw [handle, h]
  dsimp only
  rw [hthread]

lemma handle_of_failed (h : parent.handler = .terminate i)
    (hterminate : parent.threads[i]?.bind MonitorThread.terminateProcess = none) :
    parent.handle = { parent with locked := false, handler := .raised i } := by
  rw [handle, h]
  dsimp only
  rw [hterminate]

lemma handle_of_terminate (h : parent.handler = .terminate i)
    (hterminate : parent.threads[i]?.bind MonitorThread.terminateProcess = some thread) :
    parent.handle =
      { parent with threads := parent.threads.set i thread, handler := .testProcess (i+1) } := by
  rw [handle, h]
  dsimp only
  rw [hterminate]

end handle

lemma exists_of_getElem?_modify {α : Type*} {l : List α} {f : α → α} {i j : ℕ} {b : α}
    (h : (l.modify i f)[j]? = some b) : ∃ a, l[j]? = some a ∧ (i = j ∧ b = f a ∨ i ≠ j ∧ b = a) := by
  rw [List.getElem?_modify] at h
  obtain ⟨a, ha, rfl⟩ := Option.map_eq_some_iff.mp h
  refine ⟨a, ha, ?_⟩
  by_cases hij : i = j
  · exact .inl ⟨hij, if_pos hij⟩
  · exact .inr ⟨hij, if_neg hij⟩

/-- Changing one thread keeps what the handler needs if it does so for this thread. -/
lemma Covered.modify (h : parent.Covered) {i : ℕ} {f : MonitorThread → MonitorThread}
    (hf : ∀ thread, parent.threads[i]? = some thread → thread.Waits → (f thread).Waits ∧
      (thread.worker ≠ .running false → (f thread).worker ≠ .running false) ∧
      (parent.handler = .terminate i → (f thread).hasProcess = thread.hasProcess)) :
    Covered { parent with threads := parent.threads.modify i f } := by
  obtain ⟨hsignaled, hhandling, hwaits, hpassed, htested⟩ := h
  refine ⟨hsignaled, hhandling, ?_, ?_, ?_⟩
  · intro j thread hthread
    obtain ⟨before, hbefore, ⟨rfl, rfl⟩ | ⟨-, rfl⟩⟩ := exists_of_getElem?_modify hthread
    · exact (hf before hbefore (hwaits _ _ hbefore)).1
    · exact hwaits j _ hbefore
  · intro j thread hthread hpass
    obtain ⟨before, hbefore, ⟨rfl, rfl⟩ | ⟨-, rfl⟩⟩ := exists_of_getElem?_modify hthread
    · exact (hf before hbefore (hwaits _ _ hbefore)).2.1 (hpassed _ _ hbefore hpass)
    · exact hpassed j _ hbefore hpass
  · intro j hj
    obtain ⟨before, hbefore, hprocess⟩ := htested j hj
    by_cases hij : i = j
    · subst hij
      refine ⟨f before, by rw [List.getElem?_modify, hbefore]; simp, ?_⟩
      rw [(hf before hbefore (hwaits _ _ hbefore)).2.2 hj, hprocess]
    · exact ⟨before, by rw [List.getElem?_modify, hbefore]; simp [hij], hprocess⟩

lemma Covered.handle (h : parent.Covered) : parent.handle.Covered := by
  have hall := h
  obtain ⟨hsignaled, hhandling, hwaits, hpassed, htested⟩ := h
  cases hhandler : parent.handler with
  | idle => exact absurd hhandler hhandling.1
  | setSignaled => exact absurd hhandler hhandling.2.1
  | raised i => exact absurd hhandler (hhandling.2.2 i)
  | returned =>
    rw [ForkingParent.handle, hhandler]
    exact hall
  | testProcess i =>
    rw [hhandler] at hpassed
    cases hthread : parent.threads[i]? with
    | none =>
      rw [handle_of_end hhandler hthread]
      refine ⟨hsignaled, ⟨nofun, nofun, nofun⟩, hwaits, ?_, nofun⟩
      intro j thread hj _
      apply hpassed j thread hj
      obtain ⟨hlt, -⟩ := List.getElem?_eq_some_iff.mp hj
      exact lt_of_lt_of_le hlt (List.getElem?_eq_none_iff.mp hthread)
    | some thread =>
      rw [handle_of_testProcess hhandler hthread]
      by_cases hprocess : thread.hasProcess = true
      · rw [if_pos hprocess]
        refine ⟨hsignaled, ⟨nofun, nofun, nofun⟩, hwaits, hpassed, ?_⟩
        intro j hj
        cases hj
        exact ⟨thread, hthread, hprocess⟩
      · rw [if_neg hprocess]
        refine ⟨hsignaled, ⟨nofun, nofun, nofun⟩, hwaits, ?_, nofun⟩
        intro j thread' hj hpass
        obtain hlt | rfl := Nat.lt_succ_iff_lt_or_eq.mp hpass
        · exact hpassed j thread' hj hlt
        · obtain rfl := Option.some.inj (hthread.symm.trans hj)
          obtain ⟨htrue, -⟩ | ⟨hdead, -⟩ := hwaits _ _ hj
          · exact absurd htrue hprocess
          · rw [hdead]
            nofun
  | terminate i =>
    rw [hhandler] at hpassed
    obtain ⟨thread, hthread, hprocess⟩ := htested i hhandler
    obtain ⟨thread', hterminate, hwaits', hworker, -⟩ := (hwaits i thread hthread).terminateProcess hprocess
    have hbind : parent.threads[i]?.bind MonitorThread.terminateProcess = some thread' := by
      rw [hthread]
      exact hterminate
    rw [handle_of_terminate hhandler hbind]
    refine ⟨hsignaled, ⟨nofun, nofun, nofun⟩, ?_, ?_, nofun⟩
    · intro j thread'' hj
      rw [List.getElem?_set] at hj
      split_ifs at hj with hij
      · cases hj
        exact hwaits'
      · exact hwaits j thread'' hj
    · intro j thread'' hj hpass
      rw [List.getElem?_set] at hj
      split_ifs at hj with hij
      · cases hj
        exact hworker
      · apply hpassed j thread'' hj
        exact lt_of_le_of_ne (Nat.lt_succ_iff.mp hpass) (Ne.symm hij)

theorem Covered.step (h : parent.Covered) {op : ForkOp} (hop : parent.Undisturbed op) :
    (parent.step op).Covered := by
  cases op with
  | signal =>
    unfold ForkingParent.step receiveSignal
    split_ifs with hlocked hsignaled
    · exact h
    · exact ⟨h.signaled, h.handling, h.waits, h.passed, h.tested⟩
    · exact absurd h.signaled hsignaled
  | handle => exact h.handle
  | advance i t =>
    apply h.modify
    intro thread hthread hwaits
    rw [h.signaled]
    obtain ⟨hafter, hworker, hprocess⟩ := hwaits.advance t
    refine ⟨hafter, fun hne => hworker ▸ hne, ?_⟩
    intro hhandler
    apply hprocess
    intro hclear
    exact hop i t thread rfl hthread hclear hhandler
  | exit i =>
    apply h.modify
    intro thread _ hwaits
    obtain ⟨hafter, hprocess, hworker⟩ := hwaits.exit
    exact ⟨hafter, hworker, fun _ => hprocess⟩

end ForkingParent

namespace ProcessMonitor

lemma tooMany_of_le {maxlen : ℕ} {restartTimes : BoundedDeque ℚ maxlen} {seconds t : ℚ}
    (h : (restartTimes.oldest?.getD 0) + seconds ≤ t) : tooMany restartTimes seconds t = false := by
  unfold tooMany
  cases holdest : restartTimes.oldest? with
  | none => rfl
  | some oldest =>
    rw [holdest, Option.getD_some] at h
    dsimp only
    rw [decide_eq_false_iff_not]
    linarith

/-- A process that dies late enough is respawned. -/
lemma exists_respawned {monitor : ProcessMonitor} (h : monitor.respawn = true) :
    ∃ t notice monitor', monitor.react false t = (.respawned notice, monitor') := by
  let t : ℚ := max (monitor.oneMinuteRestartTimes.oldest?.getD 0)
    (monitor.fifteenSecondRestartTimes.oldest?.getD 0) + 60
  have hminute : tooMany monitor.oneMinuteRestartTimes 60 t = false := by
    apply tooMany_of_le
    have := le_max_left (monitor.oneMinuteRestartTimes.oldest?.getD 0)
      (monitor.fifteenSecondRestartTimes.oldest?.getD 0)
    linarith
  have hseconds : tooMany monitor.fifteenSecondRestartTimes 15 t = false := by
    apply tooMany_of_le
    have := le_max_right (monitor.oneMinuteRestartTimes.oldest?.getD 0)
      (monitor.fifteenSecondRestartTimes.oldest?.getD 0)
    linarith
  refine ⟨t, ?_⟩
  unfold react
  rw [h, hminute, hseconds]
  exact ⟨_, _, rfl⟩

end ProcessMonitor

namespace ForkingParent
variable {parent : ForkingParent}

/-- Until a signal is handled the threads are regular. -/
def Sound (parent : ForkingParent) : Prop :=
  (parent.signaled = false ∧ (parent.handler = .idle ∨ parent.handler = .setSignaled) ∧
      ∀ thread ∈ parent.threads, thread.Regular) ∨
    parent.signaled = true ∧ parent.handler ≠ .idle ∧ parent.handler ≠ .setSignaled

lemma sound_start (noRespawn : Bool) (numProcesses : ℕ) : (start noRespawn numProcesses).Sound := by
  refine .inl ⟨rfl, .inl rfl, ?_⟩
  intro thread hthread
  obtain ⟨index, -, rfl⟩ := List.mem_map.mp hthread
  exact .inl rfl

lemma Sound.modify (h : parent.Sound) (i : ℕ) {f : MonitorThread → MonitorThread}
    (hf : parent.signaled = false → ∀ thread, thread.Regular → (f thread).Regular) :
    Sound { parent with threads := parent.threads.modify i f } := by
  obtain ⟨hsignaled, hhandler, hregular⟩ | h := h
  · refine .inl ⟨hsignaled, hhandler, ?_⟩
    intro thread hthread
    obtain ⟨j, hj⟩ := List.mem_iff_getElem?.mp hthread
    obtain ⟨before, hbefore, ⟨-, rfl⟩ | ⟨-, rfl⟩⟩ := exists_of_getElem?_modify hj
    · exact hf hsignaled before (hregular before (List.mem_of_getElem? hbefore))
    · exact hregular _ (List.mem_of_getElem? hbefore)
  · exact .inr h

lemma handle_of_signaled (h : parent.handler ≠ .idle ∧ parent.handler ≠ .setSignaled) :
    parent.handle.signaled = parent.signaled ∧
      parent.handle.handler ≠ .idle ∧ parent.handle.handler ≠ .setSignaled := by
  unfold handle
  split
  · next hhandler => exact absurd hhandler h.2
  · split
    · exact ⟨rfl, nofun, nofun⟩
    · refine ⟨rfl, ?_⟩
      dsimp only
      split_ifs
      · exact ⟨nofun, nofun⟩
      · exact ⟨nofun, nofun⟩
  · split
    · exact ⟨rfl, nofun, nofun⟩
    · exact ⟨rfl, nofun, nofun⟩
  · exact ⟨rfl, h⟩

lemma Sound.step (h : parent.Sound) (op : ForkOp) : (parent.step op).Sound := by
  cases op with
  | signal =>
    change parent.receiveSignal.Sound
    unfold receiveSignal
    obtain ⟨hsignaled, hhandler, hregular⟩ | ⟨hsignaled, hhandler⟩ := h
    · split_ifs with hlocked htrue
      · exact .inl ⟨hsignaled, hhandler, hregular⟩
      · exact absurd (hsignaled.symm.trans htrue) Bool.false_ne_true
      · exact .inl ⟨hsignaled, .inr rfl, hregular⟩
    · split_ifs
      · exact .inr ⟨hsignaled, hhandler⟩
      · exact .inr ⟨hsignaled, hhandler⟩
  | handle =>
    obtain ⟨hsignaled, hhandler | hhandler, hregular⟩ | ⟨hsignaled, hhandler⟩ := h
    · rw [ForkingParent.step, handle, hhandler]
      exact .inl ⟨hsignaled, .inl hhandler, hregular⟩
    · rw [ForkingParent.step, handle, hhandler]
      exact .inr ⟨rfl, nofun, nofun⟩
    · obtain ⟨hsame, hafter⟩ := handle_of_signaled hhandler
      exact .inr ⟨hsame.trans hsignaled, hafter⟩
  | advance i t =>
    apply h.modify i
    intro hsignaled thread hthread
    rw [hsignaled]
    exact hthread.advance t
  | exit i => exact h.modify i fun _ thread hthread => hthread.exit

lemma handle_of_setSignaled (h : parent.handler = .setSignaled) :
    parent.handle = { parent with signaled := true, handler := .testProcess 0 } := by
  rw [handle, h]

/-- If all monitors wait when the signal is handled, then it can terminate their processes. -/
lemma Sound.covered (h : parent.Sound) (hhandler : parent.handler = .setSignaled)
    (hwaits : ∀ thread ∈ parent.threads, ¬thread.Starting) : parent.handle.Covered := by
  rw [handle_of_setSignaled hhandler]
  obtain ⟨-, -, hregular⟩ | ⟨-, -, hne⟩ := h
  · refine ⟨rfl, ⟨nofun, nofun, nofun⟩, ?_, ?_, nofun⟩
    · intro i thread hthread
      have hmem := List.mem_of_getElem? hthread
      exact (hregular thread hmem).waits (hwaits thread hmem)
    · intro i thread _ hpass
      exact absurd hpass (Nat.not_lt_zero i)
  · exact absurd hhandler hne

/-- Steps that disturb no call of `terminate` lead from one state to the other. -/
def Continues (parent parent' : ForkingParent) : Prop :=
  ∃ ops, Runs.Along step Undisturbed parent ops ∧ Runs.run step parent ops = parent'

lemma Continues.refl (parent : ForkingParent) : parent.Continues parent := ⟨[], trivial, rfl⟩

lemma Continues.step (parent : ForkingParent) {op : ForkOp} (h : parent.Undisturbed op) :
    parent.Continues (parent.step op) := ⟨[op], ⟨h, trivial⟩, rfl⟩

lemma Continues.trans {parent' parent'' : ForkingParent} (h : parent.Continues parent')
    (h' : parent'.Continues parent'') : parent.Continues parent'' := by
  obtain ⟨ops, hops, rfl⟩ := h
  obtain ⟨ops', hops', rfl⟩ := h'
  exact ⟨ops ++ ops', Runs.along_append.mpr ⟨hops, hops'⟩, Runs.run_append _ _ _ _⟩

lemma Continues.handle (parent : ForkingParent) : parent.Continues parent.handle :=
  @Continues.step parent .handle nofun

/-- A thread goes on while the handler is about to test another one. -/
lemma Continues.advance {i j : ℕ} {thread : MonitorThread} (hhandler : parent.handler = .testProcess j)
    (hthread : parent.threads[i]? = some thread) (t : ℚ) : ∃ parent', parent.Continues parent' ∧
      parent'.handler = .testProcess j ∧ parent'.signaled = parent.signaled ∧
        parent'.threads[i]? = some (thread.advance parent.signaled t) := by
  refine ⟨_, @Continues.step parent (.advance i t) ?_, hhandler, rfl, ?_⟩
  · intro _ _ _ _ _ _
    rw [hhandler]
    nofun
  · show (parent.threads.modify i _)[i]? = _
    rw [List.getElem?_modify_eq, hthread]
    rfl

/-- The handler comes past a monitor without a process that runs, unless it fails before. -/
lemma exists_passed {i j : ℕ} {thread : MonitorThread} (hhandler : parent.handler = .testProcess j)
    (hle : j ≤ i) (hthread : parent.threads[i]? = some thread)
    (hidle : thread.hasProcess = true → ∀ terminated, thread.worker ≠ .running terminated) :
    ∃ parent', parent.Continues parent' ∧ ((∃ m, parent'.handler = .raised m) ∨
      parent'.handler = .testProcess (i+1) ∧ parent'.signaled = parent.signaled ∧
        parent'.threads[i]? = some thread) := by
  obtain ⟨d, hd⟩ : ∃ d, i = j+d := ⟨i-j, by omega⟩
  induction d generalizing parent j with
  | zero =>
    obtain rfl : i = j := hd
    have htest := handle_of_testProcess hhandler hthread
    by_cases hprocess : thread.hasProcess = true
    · rw [if_pos hprocess] at htest
      have hcontinues := Continues.handle parent
      rw [htest] at hcontinues
      have hcalled := hcontinues.trans (.handle _)
      cases hterminate : thread.terminateProcess with
      | none =>
        rw [handle_of_failed rfl (by rw [hthread]; exact hterminate)] at hcalled
        exact ⟨_, hcalled, .inl ⟨i, rfl⟩⟩
      | some thread' =>
        have hsame : thread' = thread := by
          rw [MonitorThread.terminateProcess, if_pos hprocess] at hterminate
          cases hworker : thread.worker with
          | running terminated => exact absurd hworker (hidle hprocess terminated)
          | dead =>
            rw [hworker] at hterminate
            exact (Option.some.inj hterminate).symm
          | none =>
            rw [hworker] at hterminate
            cases hterminate
          | created =>
            rw [hworker] at hterminate
            cases hterminate
        rw [handle_of_terminate rfl (by rw [hthread]; exact hterminate)] at hcalled
        refine ⟨_, hcalled, .inr ⟨rfl, rfl, ?_⟩⟩
        obtain ⟨hlt, -⟩ := List.getElem?_eq_some_iff.mp hthread
        show (parent.threads.set i thread')[i]? = _
        rw [List.getElem?_set, if_pos rfl, if_pos hlt, hsame]
    · rw [if_neg hprocess] at htest
      have hcontinues := Continues.handle parent
      rw [htest] at hcontinues
      exact ⟨_, hcontinues, .inr ⟨rfl, rfl, hthread⟩⟩
  | succ d ih =>
    obtain ⟨hlt, -⟩ := List.getElem?_eq_some_iff.mp hthread
    have hother := List.getElem?_eq_getElem (l := parent.threads) (i := j) (by omega)
    generalize parent.threads[j] = other at hother
    have htest := handle_of_testProcess hhandler hother
    have hcontinues := Continues.handle parent
    rw [htest] at hcontinues
    by_cases hprocess : other.hasProcess = true
    · rw [if_pos hprocess] at hcontinues
      have hcalled := hcontinues.trans (.handle _)
      cases hterminate : other.terminateProcess with
      | none =>
        rw [handle_of_failed rfl (by rw [hother]; exact hterminate)] at hcalled
        exact ⟨_, hcalled, .inl ⟨j, rfl⟩⟩
      | some other' =>
        rw [handle_of_terminate rfl (by rw [hother]; exact hterminate)] at hcalled
        have hstill : (parent.threads.set j other')[i]? = some thread := by
          rw [List.getElem?_set, if_neg (by omega), hthread]
        obtain ⟨parent', hrest, h⟩ := @ih { parent with
          threads := parent.threads.set j other', handler := .testProcess (j+1) } _ rfl (by omega) hstill (by omega)
        exact ⟨parent', hcalled.trans hrest, h⟩
    · rw [if_neg hprocess] at hcontinues
      obtain ⟨parent', hrest, h⟩ := @ih { parent with handler := .testProcess (j+1) } _ rfl (by omega)
        hthread (by omega)
      exact ⟨parent', hcontinues.trans hrest, h⟩

end ForkingParent

namespace ForkingParent
variable {parent : ForkingParent}

/-- A thread that starts its process, or is about to do so, can still do it when the handler has passed. -/
lemma exists_running {i : ℕ} {thread : MonitorThread} (hhandler : parent.handler = .testProcess (i+1))
    (hthread : parent.threads[i]? = some thread) (hregular : thread.Regular)
    (hnext : thread.next = .testLimits ∨ thread.next = .createProcess ∨ thread.next = .startProcess) :
    ∃ parent', parent.Continues parent' ∧ ¬parent'.Terminates := by
  have hstart : ∀ {parent : ForkingParent} {thread : MonitorThread}, parent.handler = .testProcess (i+1) →
      parent.threads[i]? = some thread → thread.next = .startProcess →
      ∃ parent', parent.Continues parent' ∧ ¬parent'.Terminates := by
    intro parent thread hhandler hthread hnext
    obtain ⟨parent', hcontinues, hhandler', -, hthread'⟩ := Continues.advance hhandler hthread 0
    refine ⟨parent', hcontinues, ?_⟩
    intro hterminates
    apply hterminates.2 i _ hthread'
    · rw [hhandler']
      exact Nat.lt_succ_self i
    · rw [MonitorThread.advance, hnext]
  have hcreate : ∀ {parent : ForkingParent} {thread : MonitorThread}, parent.handler = .testProcess (i+1) →
      parent.threads[i]? = some thread → thread.next = .createProcess →
      ∃ parent', parent.Continues parent' ∧ ¬parent'.Terminates := by
    intro parent thread hhandler hthread hnext
    obtain ⟨created, hcontinues, hhandler', -, hthread'⟩ := Continues.advance hhandler hthread 0
    obtain ⟨parent', hrest, hnot⟩ := hstart hhandler' hthread' (by rw [MonitorThread.advance, hnext])
    exact ⟨parent', hcontinues.trans hrest, hnot⟩
  obtain hnext | hnext | hnext := hnext
  · have hrespawn : thread.monitor.respawn = true := by
      rw [MonitorThread.Regular, hnext] at hregular
      exact hregular.2.2
    obtain ⟨t, notice, monitor', hreact⟩ := ProcessMonitor.exists_respawned hrespawn
    obtain ⟨limited, hcontinues, hhandler', -, hthread'⟩ := Continues.advance hhandler hthread t
    obtain ⟨parent', hrest, hnot⟩ := hcreate hhandler' hthread' (by
      rw [MonitorThread.advance, hnext]
      dsimp only
      rw [hreact])
    exact ⟨parent', hcontinues.trans hrest, hnot⟩
  · exact hcreate hhandler hthread hnext
  · exact hstart hhandler hthread hnext

/-- A signal that finds a process being started can miss it. -/
lemma exists_not_terminates (h : parent.Sound) (hhandler : parent.handler = .setSignaled)
    {thread : MonitorThread} (hthread : thread ∈ parent.threads) (hstarting : thread.Starting) :
    ∃ parent', parent.handle.Continues parent' ∧ ¬parent'.Terminates := by
  obtain ⟨-, -, hregular⟩ | ⟨-, -, hne⟩ := h
  · have hregular := hregular thread hthread
    obtain ⟨i, hi⟩ := List.mem_iff_getElem?.mp hthread
    rw [handle_of_setSignaled hhandler]
    generalize hflagged : ({ parent with signaled := true, handler := .testProcess 0 } : ForkingParent) = flagged
    have hhandler : flagged.handler = .testProcess 0 := by rw [← hflagged]
    have hsignaled : flagged.signaled = true := by rw [← hflagged]
    have hi : flagged.threads[i]? = some thread := by rw [← hflagged, ← hi]
    have hraised : ∀ {parent' : ForkingParent} {m : ℕ}, parent'.handler = .raised m → ¬parent'.Terminates :=
      fun h hterminates => hterminates.1 _ h
    by_cases hloop : thread.next = .testLoop
    · -- The loop ends at its first test, so that the handler finds no process any more.
      have hnotDead : thread.worker ≠ .dead := by
        obtain h | h | h | h := hstarting
        · rw [hloop] at h
          cases h
        · rw [hloop] at h
          cases h
        · rw [hloop] at h
          cases h
        · exact h.2
      have hworker : thread.worker = .running false := by
        rw [MonitorThread.Regular, hloop] at hregular
        exact hregular.2.resolve_right hnotDead
      obtain ⟨left, hleft, hhandler₁, hsignaled₁, hthread₁⟩ := Continues.advance hhandler hi 0
      obtain ⟨cleared, hcleared, hhandler₂, -, hthread₂⟩ := Continues.advance hhandler₁ hthread₁ 0
      rw [hsignaled₁, hsignaled, MonitorThread.advance, MonitorThread.advance, hloop] at hthread₂
      obtain ⟨parent', hpassed, ⟨m, hm⟩ | ⟨hhandler', -, hthread'⟩⟩ :=
        exists_passed hhandler₂ (Nat.zero_le i) hthread₂ nofun
      · exact ⟨parent', (hleft.trans hcleared).trans hpassed, hraised hm⟩
      · refine ⟨parent', (hleft.trans hcleared).trans hpassed, ?_⟩
        intro hterminates
        apply hterminates.2 i _ hthread'
        · rw [hhandler']
          exact Nat.lt_succ_self i
        · exact hworker
    · have hnext : thread.next = .testLimits ∨ thread.next = .createProcess ∨ thread.next = .startProcess := by
        obtain h | h | h | h := hstarting
        · exact .inl h
        · exact .inr (.inl h)
        · exact .inr (.inr h)
        · exact absurd h.1 hloop
      have hidle : thread.hasProcess = true → ∀ terminated, thread.worker ≠ .running terminated := by
        intro _ terminated hworker
        obtain h | h | h := hnext <;> simp [MonitorThread.Regular, h, hworker] at hregular
      obtain ⟨passed, hpassed, ⟨m, hm⟩ | ⟨hhandler', -, hthread'⟩⟩ :=
        exists_passed hhandler (Nat.zero_le i) hi hidle
      · exact ⟨passed, hpassed, hraised hm⟩
      · obtain ⟨parent', hrest, hnot⟩ := exists_running hhandler' hthread' hregular hnext
        exact ⟨parent', hpassed.trans hrest, hnot⟩
  · exact absurd hhandler hne

/-- How many processes the monitor starts with a step. -/
def started (i : ℕ) (parent : ForkingParent) : ForkOp → ℕ
  | .advance j _ => if j = i ∧ parent.threads[i]?.map (·.next) = some .startProcess then 1 else 0
  | _ => 0

/-- How many processes a thread can still start once a signal is handled. -/
def startsLeft : MonitorStep → ℕ
  | .testLimits | .createProcess | .startProcess => 1
  | _ => 0

lemma startsLeft_le_one (next : MonitorStep) : startsLeft next ≤ 1 := by
  cases next <;> decide

lemma startsLeft_advance (thread : MonitorThread) (t : ℚ) :
    (if thread.next = .startProcess then 1 else 0) + startsLeft (thread.advance true t).next ≤
      startsLeft thread.next := by
  obtain ⟨monitor, next, hasProcess, worker⟩ := thread
  cases next with
  | joinProcess => by_cases hdead : worker = .dead <;> simp [MonitorThread.advance, startsLeft, hdead]
  | testLimits =>
    rw [if_neg nofun, Nat.zero_add]
    exact startsLeft_le_one _
  | _ => exact Nat.le_refl _

lemma next_terminateProcess {thread thread' : MonitorThread} (h : thread.terminateProcess = some thread') :
    thread'.next = thread.next := by
  unfold MonitorThread.terminateProcess at h
  split_ifs at h
  split at h
  · cases h
    rfl
  · cases h
    rfl
  · cases h

lemma next_exit (thread : MonitorThread) : thread.exit.next = thread.next := by
  unfold MonitorThread.exit
  split
  · rfl
  · rfl

/-- The handler leaves the threads where they are. -/
lemma next_handle (parent : ForkingParent) (i : ℕ) :
    parent.handle.threads[i]?.map (·.next) = parent.threads[i]?.map (·.next) := by
  unfold handle
  split
  · rfl
  · split
    · rfl
    · rfl
  · split
    · rfl
    · next j thread' hterminate =>
      obtain ⟨thread, hthread, hterminate⟩ := Option.bind_eq_some_iff.mp hterminate
      dsimp only
      rw [List.getElem?_set]
      split_ifs with hij hlt
      · rw [← hij, hthread, Option.map_some, Option.map_some, next_terminateProcess hterminate]
      · rw [← hij, List.getElem?_eq_none (by omega)]
      · rfl
  · rfl

lemma started_add_le (hsignaled : parent.signaled = true) (i : ℕ) (op : ForkOp) :
    (parent.step op).signaled = true ∧ parent.started i op +
      (((parent.step op).threads[i]?.map (·.next)).elim 0 startsLeft) ≤
        (parent.threads[i]?.map (·.next)).elim 0 startsLeft := by
  cases op with
  | signal =>
    change parent.receiveSignal.signaled = true ∧ 0 + _ ≤ _
    rw [ForkingParent.step, receiveSignal]
    split_ifs
    · exact ⟨hsignaled, by simp⟩
    · exact ⟨hsignaled, by simp⟩
  | handle =>
    have hflag : parent.handle.signaled = true := by
      unfold handle
      split
      · rfl
      · split
        · exact hsignaled
        · exact hsignaled
      · split
        · exact hsignaled
        · exact hsignaled
      · exact hsignaled
    refine ⟨hflag, ?_⟩
    change 0 + (parent.handle.threads[i]?.map (·.next)).elim 0 startsLeft ≤ _
    rw [next_handle, Nat.zero_add]
  | advance j t =>
    refine ⟨hsignaled, ?_⟩
    simp only [ForkingParent.step, started, List.getElem?_modify, hsignaled]
    cases hthread : parent.threads[i]? with
    | none => simp
    | some thread =>
      by_cases hji : j = i
      · simpa [hji] using startsLeft_advance thread t
      · simp [hji]
  | exit j =>
    refine ⟨hsignaled, ?_⟩
    simp only [ForkingParent.step, started, List.getElem?_modify]
    cases hthread : parent.threads[i]? with
    | none => simp
    | some thread =>
      by_cases hji : j = i
      · simp [hji, next_exit]
      · simp [hji]

/-- Once a signal is handled, no monitor starts more than one process. -/
lemma started_le_one (hsignaled : parent.signaled = true) (i : ℕ) (ops : List ForkOp) :
    Runs.tally step (started i) parent ops ≤ 1 := by
  let left (parent : ForkingParent) : ℕ := (parent.threads[i]?.map (·.next)).elim 0 startsLeft
  have hle : Runs.tally step (started i) parent ops + left (Runs.run step parent ops) ≤ left parent :=
    Runs.tally_add_le (P := fun parent => parent.signaled = true)
      (fun parent op h => started_add_le h i op) hsignaled ops
  have hbound : left parent ≤ 1 := by
    unfold left
    cases parent.threads[i]?.map (·.next) with
    | none => exact Nat.zero_le 1
    | some next => exact startsLeft_le_one next
  omega

/-- A signal terminates all processes, whatever the order in which the handler, the monitors and the
processes go on, if and only if it finds no process being started. It is left open that a monitor lets go of
its process just when the handler is to terminate it. In any case no monitor starts more than one process
after the signal. -/
theorem terminates_iff {noRespawn : Bool} {numProcesses : ℕ} {ops : List ForkOp}
    (hparent : Runs.run step (start noRespawn numProcesses) ops = parent) (h : parent.handler = .setSignaled) :
    ((∀ ops', Runs.Along step Undisturbed parent.handle ops' → (Runs.run step parent.handle ops').Terminates) ↔
      ∀ thread ∈ parent.threads, ¬thread.Starting) ∧
    ∀ i ops', Runs.tally step (started i) parent.handle ops' ≤ 1 := by
  have hsound : parent.Sound := hparent ▸ Runs.run_invariant (fun parent op (h : Sound parent) => h.step op)
    (sound_start noRespawn numProcesses) ops
  refine ⟨⟨?_, ?_⟩, ?_⟩
  · intro hall thread hthread hstarting
    obtain ⟨_, ⟨ops', hops', rfl⟩, hnot⟩ := exists_not_terminates hsound h hthread hstarting
    exact hnot (hall ops' hops')
  · intro hwaits ops' hops'
    have hcovered : (Runs.run step parent.handle ops').Covered :=
      hops'.invariant (fun parent op hop (h : Covered parent) => h.step hop) (hsound.covered h hwaits)
    exact ⟨hcovered.handling.2.2, hcovered.passed⟩
  · intro i ops'
    apply started_le_one
    rw [handle_of_setSignaled h]

/-- The first monitor waits for its process; the second one has gone as far as its given number of steps. -/
def exampleOps (steps : ℕ) : List ForkOp :=
  List.replicate 3 (.advance 0 0) ++ List.replicate steps (.advance 1 0) ++ [.signal]

/-- A signal may come too early for the second of two processes, which has not been started, but not once
both monitors wait. -/
theorem terminates_iff_exampleOps :
    (∀ ops, Runs.Along step Undisturbed (Runs.run step (start false 2) (exampleOps 3)).handle ops →
      (Runs.run step (Runs.run step (start false 2) (exampleOps 3)).handle ops).Terminates) ∧
    ¬∀ ops, Runs.Along step Undisturbed (Runs.run step (start false 2) (exampleOps 1)).handle ops →
      (Runs.run step (Runs.run step (start false 2) (exampleOps 1)).handle ops).Terminates := by
  constructor
  · apply (terminates_iff rfl rfl).1.mpr
    have hthreads : (Runs.run step (start false 2) (exampleOps 3)).threads.map (·.next) =
        [.joinProcess, .joinProcess] := rfl
    intro thread hthread
    have hnext := List.mem_map_of_mem (f := fun thread : MonitorThread => thread.next) hthread
    rw [hthreads] at hnext
    have hjoin : thread.next = .joinProcess := by simpa using hnext
    simp [MonitorThread.Starting, hjoin]
  · intro hall
    apply (terminates_iff rfl rfl).1.mp hall _ (List.mem_cons_of_mem _ (List.mem_singleton_self _))
    exact .inr (.inr (.inl rfl))

end ForkingParent
end PySOA
