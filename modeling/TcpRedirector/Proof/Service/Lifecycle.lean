import TcpRedirector.Impl.Service.Lifecycle
import TcpRedirector.Proof.Framework.Run

/-!
# Whether a stop stops the service

A stop whose test of `m_running` comes before `Run` has set it is lost: the
service reports that it has stopped and runs on (`stop_lost_iff`). One that
comes later takes down everything but a capture that a `capture_start` opens
again before the pipe is stopped (`stop_shuts_down_iff`).
-/

namespace TR.Impl.Service

/-- `Run` is yet to set `m_running`. -/
def ServiceMainAt.BeforeRun : ServiceMainAt → Prop
  | .registered | .startLogger | .startEngine | .startRelay | .openCapture | .startPipe | .setInitialized | .reportRunning
  | .setRunning => True
  | .shutdownLogger | .loop | .reportStopped | .reportFailed | .ended => False

/-- No other stop comes. -/
def NoStop (is : List LifecycleInput) : Prop := ∀ i ∈ is, i ≠ .stop

namespace Lifecycle

variable {s : Lifecycle}

/-- `m_running` is set in `Run` only. -/
def RunsInLoop (s : Lifecycle) : Prop := s.running = true → s.main = .loop

theorem RunsInLoop.mainStep (h : s.RunsInLoop) (ok : Bool) : (s.mainStep ok).1.RunsInLoop := by
  intro hr
  unfold Lifecycle.mainStep at hr ⊢
  cases hm : s.main with
  | setRunning => rfl
  | loop =>
    simp only [hm] at hr ⊢
    rw [if_pos hr]
  | registered | startLogger | startEngine | startRelay | openCapture | shutdownLogger | startPipe | setInitialized
  | reportRunning | reportStopped | reportFailed | ended =>
    simp only [hm] at hr
    cases hm.symm.trans (h hr)

/-- The handler and the pipe's thread do not set `m_running`, and leave
`ServiceMain` where it is. -/
theorem lifecycleStep_others (i : LifecycleInput) (hi : ∀ ok, i ≠ .main ok) (s : Lifecycle) :
    ((lifecycleStep i s).1.running = true → s.running = true) ∧ (lifecycleStep i s).1.main = s.main := by
  cases i with
  | main ok => exact absurd rfl (hi ok)
  | stop =>
    simp only [lifecycleStep]
    split <;> exact ⟨id, rfl⟩
  | interrogate =>
    simp only [lifecycleStep]
    split <;> exact ⟨id, rfl⟩
  | control =>
    simp only [lifecycleStep, controlStep]
    cases s.control <;> first | exact ⟨id, rfl⟩ | exact ⟨Bool.noConfusion, rfl⟩
  | captureStart opened =>
    simp only [lifecycleStep]
    split <;> exact ⟨id, rfl⟩
  | captureStop =>
    simp only [lifecycleStep]
    split <;> exact ⟨id, rfl⟩

theorem RunsInLoop.step (i : LifecycleInput) (s : Lifecycle) (h : s.RunsInLoop) : (lifecycleStep i s).1.RunsInLoop := by
  by_cases hi : ∃ ok, i = .main ok
  · obtain ⟨ok, rfl⟩ := hi
    exact h.mainStep ok
  · intro hr
    obtain ⟨hrunning, hmain⟩ := lifecycleStep_others i (not_exists.mp hi) s
    exact hmain.trans (h (hrunning hr))

theorem runsInLoop_run (is : List LifecycleInput) : (run lifecycleStep is registered).RunsInLoop :=
  run_induct RunsInLoop.step is (fun h => by cases h)

/-! ## A stop that is lost -/

/-- The service does not run and will not, or the handler is about to stop it. -/
structure Ending (s : Lifecycle) : Prop where
  main : ¬ s.main.BeforeRun
  control : s.running = true → s.control = .testRunning ∨ s.control = .clearRunning

theorem mainStep_notBefore (h : ¬ s.main.BeforeRun) (ok : Bool) :
    ¬ (s.mainStep ok).1.main.BeforeRun ∧ (s.mainStep ok).1.running = s.running ∧
      (s.mainStep ok).1.control = s.control := by
  unfold Lifecycle.mainStep
  cases hm : s.main with
  | loop =>
    refine ⟨?_, rfl, rfl⟩
    dsimp only
    split <;> exact id
  | shutdownLogger | reportStopped | reportFailed => exact ⟨id, rfl, rfl⟩
  | ended => exact ⟨by dsimp only; exact h, rfl, rfl⟩
  | registered | startLogger | startEngine | startRelay | openCapture | startPipe | setInitialized | reportRunning
  | setRunning => exact absurd (hm ▸ trivial) h

theorem Ending.step (h : s.Ending) {i : LifecycleInput} (hi : i ≠ .stop) : (lifecycleStep i s).1.Ending := by
  obtain ⟨hmain, hcontrol⟩ := h
  cases i with
  | stop => exact absurd rfl hi
  | main ok =>
    obtain ⟨hmain', hr, hc⟩ := mainStep_notBefore hmain ok
    refine ⟨hmain', ?_⟩
    simp only [lifecycleStep, hr, hc]
    exact hcontrol
  | control =>
    simp only [lifecycleStep, controlStep]
    cases hc : s.control with
    | testRunning =>
      refine ⟨hmain, fun hr => ?_⟩
      have hr : s.running = true := hr
      exact .inr (if_pos hr)
    | clearRunning => exact ⟨hmain, Bool.noConfusion⟩
    | idle =>
      refine ⟨hmain, fun hr => ?_⟩
      rw [hc] at hcontrol
      exact absurd (hcontrol hr) (by simp)
    | reportPending | closeCapture | stopPipe | stopRelay | clearTable | shutdownEngine | shutdownLogger | clearInitialized
    | reportStopped =>
      refine ⟨hmain, fun hr => ?_⟩
      rw [hc] at hcontrol
      exact absurd (hcontrol hr) (by simp)
  | interrogate | captureStart | captureStop =>
    simp only [lifecycleStep]
    split <;> exact ⟨hmain, hcontrol⟩

theorem Ending.run (is : List LifecycleInput) (his : NoStop is) (h : s.Ending) : (run lifecycleStep is s).Ending := by
  induction is generalizing s with
  | nil => exact h
  | cons i is ih =>
    obtain ⟨hi, his⟩ := List.forall_mem_cons.mp his
    exact ih his (h.step hi)

/-- `ServiceMain` sets `m_running` in at most nine steps, if all can be
started. -/
theorem runs_in_nine (h : s.main.BeforeRun) :
    (run lifecycleStep (List.replicate 9 (.main true)) s).running = true ∧
      (run lifecycleStep (List.replicate 9 (.main true)) s).control = s.control := by
  obtain ⟨running, initialized, logger, engine, relay, capture, pipe, main, control⟩ := s
  cases main with
  | registered | startLogger | startEngine | startRelay | openCapture | startPipe | setInitialized | reportRunning
  | setRunning => exact ⟨rfl, rfl⟩
  | shutdownLogger | loop | reportStopped | reportFailed | ended => exact h.elim

/-! ## A stop that is not -/

/-- What the handler has stopped, from where it stands. -/
def StoppedUpTo (s : Lifecycle) : ControlHandlerAt → Prop
  | .testRunning | .clearRunning => s.running = true
  | .closeCapture => s.running = false
  | .stopPipe => s.running = false ∧ s.capture = false
  | .stopRelay => s.running = false ∧ s.capture = false ∧ s.pipe = false
  | .clearTable | .shutdownEngine => s.running = false ∧ s.capture = false ∧ s.pipe = false ∧ s.relay = false
  | .shutdownLogger => s.running = false ∧ s.capture = false ∧ s.pipe = false ∧ s.relay = false ∧ s.engine = false
  | .clearInitialized =>
    s.running = false ∧ s.capture = false ∧ s.pipe = false ∧ s.relay = false ∧ s.engine = false ∧ s.logger = false
  | .reportStopped | .idle =>
    s.running = false ∧ s.capture = false ∧ s.pipe = false ∧ s.relay = false ∧ s.engine = false ∧ s.logger = false ∧
      s.initialized = false
  | .reportPending => False

/-- Nothing of the service is left. -/
def AllDown (s : Lifecycle) : Prop := s.StoppedUpTo .idle

/-- `capture_start` opens the capture again: it was closed, the pipe still takes
requests. -/
def Reopens (st : StepOf Lifecycle LifecycleInput (Option ServiceState)) : Prop :=
  st.pre.control = .stopPipe ∧ st.input = .captureStart true

/-- `ServiceMain` is past what it starts. -/
def Started (s : Lifecycle) : Prop := s.main = .loop ∨ s.main = .reportStopped ∨ s.main = .ended

structure Stopping (s : Lifecycle) : Prop where
  main : s.Started
  stopped : s.StoppedUpTo s.control

theorem Started.mainStep (h : s.Started) (ok : Bool) :
    (s.mainStep ok).1.Started ∧ ∃ m, (s.mainStep ok).1 = { s with main := m } := by
  rcases h with h | h | h <;> simp only [Lifecycle.mainStep, h]
  · cases hr : s.running with
    | true => exact ⟨.inl rfl, _, rfl⟩
    | false => exact ⟨.inr (.inl rfl), _, rfl⟩
  · exact ⟨.inr (.inr rfl), _, rfl⟩
  · exact ⟨.inr (.inr h), s.main, rfl⟩

theorem Stopping.step (i : LifecycleInput) (s : Lifecycle) (h : s.Stopping)
    (hC : i ≠ .stop ∧ ¬ Reopens (stepOf lifecycleStep i s)) : (lifecycleStep i s).1.Stopping := by
  obtain ⟨hmain, hstopped⟩ := h
  cases i with
  | stop => exact absurd rfl hC.1
  | main ok =>
    obtain ⟨hstarted, m, hm⟩ := hmain.mainStep ok
    refine ⟨hstarted, ?_⟩
    simp only [lifecycleStep, hm]
    cases hc : s.control <;> exact hc ▸ hstopped
  | interrogate =>
    simp only [lifecycleStep]
    split <;> exact ⟨hmain, hstopped⟩
  | control =>
    simp only [lifecycleStep, controlStep]
    cases hc : s.control <;> rw [hc] at hstopped <;> refine ⟨hmain, ?_⟩
    case idle => rw [hc]; exact hstopped
    case reportPending => exact hstopped.elim
    case testRunning =>
      have hr : s.running = true := hstopped
      simp only [hr, if_true]
      exact rfl
    case clearRunning => exact rfl
    case closeCapture => exact ⟨hstopped, rfl⟩
    case stopPipe => exact ⟨hstopped.1, hstopped.2, rfl⟩
    case stopRelay => exact ⟨hstopped.1, hstopped.2.1, hstopped.2.2, rfl⟩
    case clearTable => exact hstopped
    case shutdownEngine => exact ⟨hstopped.1, hstopped.2.1, hstopped.2.2.1, hstopped.2.2.2, rfl⟩
    case shutdownLogger =>
      exact ⟨hstopped.1, hstopped.2.1, hstopped.2.2.1, hstopped.2.2.2.1, hstopped.2.2.2.2, rfl⟩
    case clearInitialized =>
      exact ⟨hstopped.1, hstopped.2.1, hstopped.2.2.1, hstopped.2.2.2.1, hstopped.2.2.2.2.1, hstopped.2.2.2.2.2, rfl⟩
    case reportStopped => exact hstopped
  | captureStart opened =>
    simp only [lifecycleStep]
    split
    · rename_i hp
      refine ⟨hmain, ?_⟩
      have hpipe (hf : s.pipe = false) : False := by rw [hp] at hf; cases hf
      cases hc : s.control <;> rw [hc] at hstopped
      case testRunning | clearRunning | closeCapture => exact hstopped
      case stopPipe =>
        cases opened with
        | false => exact ⟨hstopped.1, by rw [Bool.or_false]; exact hstopped.2⟩
        | true => exact absurd ⟨hc, rfl⟩ hC.2
      case stopRelay => exact (hpipe hstopped.2.2).elim
      case reportPending => exact hstopped.elim
      all_goals exact (hpipe hstopped.2.2.1).elim
    · exact ⟨hmain, hstopped⟩
  | captureStop =>
    simp only [lifecycleStep]
    split
    · refine ⟨hmain, ?_⟩
      cases hc : s.control <;> rw [hc] at hstopped
      case testRunning | clearRunning | closeCapture | reportPending => exact hstopped
      case stopPipe => exact ⟨hstopped.1, rfl⟩
      all_goals exact ⟨hstopped.1, rfl, hstopped.2.2⟩
    · exact ⟨hmain, hstopped⟩

/-- A stop that has found `m_running` set, while no other comes and the capture
is not opened again. -/
theorem Stopping.run (is : List LifecycleInput) (his : NoStop is) (h : s.Stopping)
    (hC : ∀ st ∈ trace lifecycleStep is s, ¬ Reopens st) : (run lifecycleStep is s).Stopping := by
  induction is generalizing s with
  | nil => exact h
  | cons i is ih =>
    obtain ⟨hi, his⟩ := List.forall_mem_cons.mp his
    obtain ⟨hr, hC⟩ := List.forall_mem_cons.mp hC
    exact ih his (h.step i s ⟨hi, hr⟩) hC

end Lifecycle

open Lifecycle

/-- Of a stop whose test of `m_running` is next: without another stop the
service can still run after the handler has reported that it stopped, exactly
if `Run` has yet to set `m_running`. -/
theorem stop_lost_iff (is : List LifecycleInput) (hs : (run lifecycleStep is registered).control = .testRunning) :
    (∃ is', NoStop is' ∧ (run lifecycleStep is' (run lifecycleStep is registered)).control = .idle ∧
      (run lifecycleStep is' (run lifecycleStep is registered)).running = true) ↔
      (run lifecycleStep is registered).main.BeforeRun := by
  have hloop := runsInLoop_run is
  generalize run lifecycleStep is registered = s at hs hloop
  constructor
  · rintro ⟨is', his', hidle, hrunning⟩
    by_contra hmain
    have hending : s.Ending := ⟨hmain, fun _ => .inl hs⟩
    rcases (hending.run is' his').control hrunning with hc | hc <;> cases hidle.symm.trans hc
  · intro hmain
    have hr : s.running = false := by
      rw [← Bool.not_eq_true]
      intro hr
      rw [hloop hr] at hmain
      exact hmain
    -- The handler reports and returns, then `ServiceMain` goes on.
    have hreport : run lifecycleStep [.control, .control] s = { s with control := .idle } := by
      simp [run, lifecycleStep, controlStep, hs, hr]
    refine ⟨[.control, .control] ++ List.replicate 9 (.main true), ?_, ?_⟩
    · intro i hi
      rcases List.mem_append.mp hi with hi | hi
      · intro hstop
        simp [hstop] at hi
      · rw [List.eq_of_mem_replicate hi]
        exact LifecycleInput.noConfusion
    · rw [run_append, hreport]
      have hnine := runs_in_nine (s := { s with control := .idle }) hmain
      exact ⟨hnine.2, hnine.1⟩

/-- The stop comes while the service starts. -/
theorem stop_lost_iff_starting :
    let is : List LifecycleInput := [.main true, .main true, .stop, .control]
    (∃ is', NoStop is' ∧ (run lifecycleStep is' (run lifecycleStep is registered)).control = .idle ∧
      (run lifecycleStep is' (run lifecycleStep is registered)).running = true) ↔ ServiceMainAt.startEngine.BeforeRun := by
  intro is
  exact stop_lost_iff is rfl

/-- Of a stop that finds `m_running` set, with no other stop: when the handler
has returned all is down, in every run, exactly if no `capture_start` opens
the capture between its `Close` and the end of the pipe. -/
theorem stop_shuts_down_iff (reopens : Bool) :
    (∀ is is', NoStop is' → (run lifecycleStep is registered).control = .testRunning →
      (run lifecycleStep is registered).running = true →
      (reopens = false → ∀ st ∈ trace lifecycleStep is' (run lifecycleStep is registered), ¬ Reopens st) →
      (run lifecycleStep is' (run lifecycleStep is registered)).control = .idle →
      (run lifecycleStep is' (run lifecycleStep is registered)).AllDown) ↔ reopens = false := by
  constructor
  · intro hall
    rw [← Bool.not_eq_true]
    rintro rfl
    have hdown := hall (List.replicate 10 (.main true) ++ [.stop, .control])
      ([.control, .control, .control, .captureStart true] ++ List.replicate 8 .control) (by simp [NoStop]) rfl rfl
      (fun h => by cases h) rfl
    cases hdown.2.1
  · rintro rfl is is' his' hs hr hC hidle
    have hloop := runsInLoop_run is
    have hstopping : (run lifecycleStep is registered).Stopping := ⟨.inl (hloop hr), by rw [hs]; exact hr⟩
    have hend := (hstopping.run is' his' (hC rfl)).stopped
    rw [hidle] at hend
    exact hend

end TR.Impl.Service
