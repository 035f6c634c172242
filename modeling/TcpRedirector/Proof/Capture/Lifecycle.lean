import TcpRedirector.Impl.Capture.Lifecycle
import TcpRedirector.Proof.Framework.Run

/-!
# One caller at a time

While no two callers open or close the capture at once, no function of the
library is called that is not there, no handle used that is not open and no
joinable thread replaced; with two at once a handle can be closed twice
(`capture_safe_iff`). `Close` then returns whatever the client packets are, and
leaves the capture as it was constructed (`close_returns`).
-/

namespace TR.Impl

namespace CaptureThreads

/-- The one open handle is the capture's. -/
def Holding (s : CaptureThreads) : Prop := ∃ h, s.handle = some h ∧ s.openHandles = [h] ∧ s.api = true

def Empty (s : CaptureThreads) : Prop := s.handle = none ∧ s.openHandles = [] ∧ s.api = false ∧ s.thread = none

/-- Closed, or open and running. -/
def Settled (s : CaptureThreads) : Prop :=
  s.running = false ∧ s.initialized = false ∧ s.Empty ∨ s.running = true ∧ s.initialized = true ∧ s.Holding

/-- What the capture is like while its one caller stands there. -/
def Shape (s : CaptureThreads) : CallerAt → Prop
  | .idle | .isInitialized _ | .isRunning _ | .testRunning | .clearRunning => s.Settled
  | .loadApi => s.running = false ∧ s.initialized = false ∧ s.Empty
  | .openHandle =>
    s.running = false ∧ s.initialized = false ∧ s.handle = none ∧ s.openHandles = [] ∧ s.api = true ∧ s.thread = none
  | .setParam | .storeRunning => s.running = false ∧ s.initialized = false ∧ s.Holding ∧ s.thread = none
  | .storeInitialized => s.running = true ∧ s.initialized = false ∧ s.Holding ∧ s.thread = none
  | .startThread => s.running = true ∧ s.initialized = true ∧ s.Holding ∧ s.thread = none
  | .shutdownHandle => s.running = false ∧ (s.Holding ∨ s.Empty)
  | .joinThread => s.running = false ∧ (s.Holding ∧ s.isShutdown = true ∨ s.Empty)
  | .closeHandle => s.running = false ∧ s.thread = none ∧ (s.Holding ∨ s.Empty)
  | .resetHandle => s.running = false ∧ s.thread = none ∧ s.openHandles = []
  | .unloadApi => s.running = false ∧ s.thread = none ∧ s.openHandles = [] ∧ s.handle = none
  | .clearInitialized => s.running = false ∧ s.Empty

/-- All callers but `t` are idle. -/
def Alone (s : CaptureThreads) (t : Nat) : Prop := ∀ t', t' ≠ t → s.callers t' = .idle

structure Inv (s : CaptureThreads) : Prop where
  noFault : s.fault = false
  shape : ∃ t, s.Alone t ∧ s.Shape (s.callers t)

theorem inv_constructed : Inv .constructed :=
  ⟨rfl, 0, fun _ _ => rfl, .inl ⟨rfl, rfl, rfl, rfl, rfl, rfl⟩⟩

section

variable {s : CaptureThreads} {c : CallerAt} {t : Nat}

/-- The shape does not depend on where the callers stand. -/
@[simp] theorem shape_goto (c' : CallerAt) : (s.goto t c').Shape c ↔ s.Shape c := by cases c <;> exact Iff.rfl

@[simp] theorem goto_fault (c' : CallerAt) : (s.goto t c').fault = s.fault := rfl

@[simp] theorem callers_goto (c' : CallerAt) : (s.goto t c').callers t = c' := Function.update_self ..

theorem Holding.use (h : s.Holding) : s.use = s := by
  obtain ⟨h, hh, ho, ha⟩ := h
  cases s
  simp_all [CaptureThreads.use]

theorem Empty.congr {s' : CaptureThreads} (h : s.Empty) (hh : s'.handle = s.handle) (ho : s'.openHandles = s.openHandles)
    (ha : s'.api = s.api) (ht : s'.thread = s.thread) : s'.Empty := by
  rw [Empty, hh, ho, ha, ht]
  exact h

theorem Holding.congr {s' : CaptureThreads} (h : s.Holding) (hh : s'.handle = s.handle)
    (ho : s'.openHandles = s.openHandles) (ha : s'.api = s.api) : s'.Holding := by
  rw [Holding, hh, ho, ha]
  exact h

/-! ## The capture thread -/

/-- Where there is a thread, there is a handle, and the shape does not say
where the thread stands. -/
theorem Shape.thread (h : s.Shape c) {p : CaptureThreadAt} (hp : s.thread = some p) :
    s.Holding ∧ ∀ p', ({ s with thread := some p' } : CaptureThreads).Shape c := by
  have hempty (he : s.Empty) : False := by cases hp.symm.trans he.2.2.2
  have hnone (hn : s.thread = none) : False := by cases hp.symm.trans hn
  cases c with
  | idle | isInitialized | isRunning | testRunning | clearRunning =>
    rcases h with h | h
    · exact absurd h.2.2 hempty
    · exact ⟨h.2.2, fun _ => .inr h⟩
  | loadApi => exact absurd h.2.2 hempty
  | openHandle => exact absurd h.2.2.2.2.2 hnone
  | setParam | storeRunning | storeInitialized | startThread => exact absurd h.2.2.2 hnone
  | shutdownHandle =>
    rcases h.2 with hh | hh
    · exact ⟨hh, fun _ => ⟨h.1, .inl hh⟩⟩
    · exact absurd hh hempty
  | joinThread =>
    rcases h.2 with hh | hh
    · exact ⟨hh.1, fun _ => ⟨h.1, .inl hh⟩⟩
    · exact absurd hh hempty
  | closeHandle | resetHandle => exact absurd h.2.1 hnone
  | unloadApi => exact absurd h.2.1 hnone
  | clearInitialized => exact absurd h.2 hempty

/-- A step of the thread moves the thread, and nothing else changes. -/
theorem threadStep_eq (h : s.Shape c) (buffer : Bool) (r : RecvResult) :
    s.threadStep buffer r = s ∨
      ∃ p p', s.thread = some p ∧ s.threadStep buffer r = { s with thread := some p' } := by
  unfold CaptureThreads.threadStep
  split
  · exact .inl rfl
  · exact .inl rfl
  · rename_i hp
    exact .inr ⟨_, _, hp, rfl⟩
  · rename_i hp
    exact .inr ⟨_, _, hp, by rw [(h.thread hp).1.use]⟩
  · rename_i hp
    cases r with
    | waits =>
      dsimp only
      split
      · exact .inr ⟨_, _, hp, rfl⟩
      · exact .inl rfl
    | packet | failed | noMoreItems => exact .inr ⟨_, _, hp, rfl⟩
  · rename_i hp
    exact .inr ⟨_, _, hp, by rw [(h.thread hp).1.use]⟩

theorem Inv.threadStep (h : Inv s) (buffer : Bool) (r : RecvResult) : Inv (s.threadStep buffer r) := by
  obtain ⟨t, ht, hshape⟩ := h.shape
  rcases threadStep_eq hshape buffer r with he | ⟨p, p', hp, he⟩
  · rw [he]
    exact h
  · rw [he]
    exact ⟨h.noFault, t, ht, (hshape.thread hp).2 p'⟩

/-! ## The caller -/

/-- A step of the one caller: where it goes, and what the capture is like then. -/
theorem Shape.callerStep (h : s.Shape (s.callers t)) (hf : s.fault = false) (call : CaptureCall) (o : OpenOutcome) :
    (s.callerStep t call o).fault = false ∧ (s.callerStep t call o).Shape ((s.callerStep t call o).callers t) := by
  have goes {s' : CaptureThreads} {c' : CallerAt} (hf' : s'.fault = false) (hs' : s'.Shape c') :
      (s'.goto t c').fault = false ∧ (s'.goto t c').Shape ((s'.goto t c').callers t) :=
    ⟨hf', by rw [callers_goto, shape_goto]; exact hs'⟩
  rw [CaptureThreads.callerStep]
  cases hc : s.callers t with
  | idle =>
    rw [hc] at h
    cases call <;> exact goes hf h
  | isInitialized start =>
    rw [hc] at h
    dsimp only
    split
    · exact goes hf h
    · cases start <;> exact goes hf h
  | isRunning start =>
    rw [hc] at h
    cases start <;> cases hr : s.running <;> simp only [afterIsOpen] <;> exact goes hf h
  | testRunning =>
    rw [hc] at h
    dsimp only
    split
    · exact goes hf h
    · rename_i hr
      rcases h with h | h
      · exact goes hf h
      · exact absurd h.1 hr
  | loadApi =>
    rw [hc] at h
    obtain ⟨hr, hi, hh, ho, ha, ht⟩ := h
    simp only [ha, Bool.false_eq_true, if_false]
    split
    · exact goes hf ⟨hr, hi, hh, ho, rfl, ht⟩
    · exact goes hf (.inl ⟨hr, hi, hh, ho, ha, ht⟩)
  | openHandle =>
    rw [hc] at h
    obtain ⟨hr, hi, hh, ho, ha, ht⟩ := h
    have hf' : (s.fault || !s.api) = false := by simp [hf, ha]
    cases o.handle with
    | some h =>
      simp only [ho, List.not_mem_nil, if_false]
      exact goes hf' ⟨hr, hi, ⟨h, rfl, rfl, ha⟩, ht⟩
    | none => exact goes hf' (.inl ⟨hr, hi, rfl, ho, rfl, ht⟩)
  | setParam =>
    rw [hc] at h
    dsimp only
    rw [h.2.2.1.use, ite_self]
    exact goes hf h
  | storeRunning =>
    rw [hc] at h
    exact goes hf ⟨rfl, h.2.1, h.2.2.1, h.2.2.2⟩
  | storeInitialized =>
    rw [hc] at h
    exact goes hf ⟨h.1, rfl, h.2.2.1, h.2.2.2⟩
  | startThread =>
    rw [hc] at h
    obtain ⟨hr, hi, hh, ht⟩ := h
    dsimp only
    split
    · exact goes (by simp [hf, ht]) (.inr ⟨hr, hi, hh⟩)
    · exact goes hf (.inr ⟨hr, hi, hh⟩)
  | clearRunning =>
    rw [hc] at h
    exact goes hf ⟨rfl, h.elim (fun h => .inr h.2.2) fun h => .inl h.2.2⟩
  | shutdownHandle =>
    rw [hc] at h
    obtain ⟨hr, hh | he⟩ := h
    · have huse := hh.use
      obtain ⟨x, hx, ho, ha⟩ := hh
      simp only [hx, ha, Option.isSome_some, and_self, if_true, huse]
      exact goes hf ⟨hr, .inl ⟨⟨x, rfl, ho, rfl⟩, rfl⟩⟩
    · simp only [he.1, Option.isSome_none, Bool.false_eq_true, false_and, if_false]
      exact goes hf ⟨hr, .inr he⟩
  | joinThread =>
    rw [hc] at h
    obtain ⟨hr, h⟩ := h
    dsimp only
    split
    · rename_i ht
      exact goes hf ⟨hr, ht, h.imp (·.1) id⟩
    · rename_i ht
      rcases h with h | h
      · exact goes hf ⟨hr, rfl, .inl h.1⟩
      · cases ht.symm.trans h.2.2.2
    · exact ⟨hf, by rw [hc]; exact ⟨hr, h⟩⟩
  | closeHandle =>
    rw [hc] at h
    obtain ⟨hr, ht, hh | he⟩ := h
    · have huse := hh.use
      obtain ⟨x, hx, ho, ha⟩ := hh
      simp only [hx, ha, Option.isSome_some, and_self, if_true, huse]
      exact goes hf ⟨hr, ht, by simp [ho]⟩
    · simp only [he.1, Option.isSome_none, Bool.false_eq_true, false_and, if_false]
      exact goes hf ⟨hr, ht, he.2.1⟩
  | resetHandle =>
    rw [hc] at h
    exact goes hf ⟨h.1, h.2.1, h.2.2, rfl⟩
  | unloadApi =>
    rw [hc] at h
    exact goes hf ⟨h.1, h.2.2.2, h.2.2.1, rfl, h.2.1⟩
  | clearInitialized =>
    rw [hc] at h
    exact goes hf (.inl ⟨h.1, rfl, h.2⟩)

/-- Another caller than the one begins only when that one is idle. -/
theorem Inv.caller (h : Inv s) (t : Nat) (hidle : s.Alone t) : s.Shape (s.callers t) := by
  obtain ⟨t', ht', hshape⟩ := h.shape
  by_cases ht : t = t'
  · exact ht ▸ hshape
  · rw [ht' t ht]
    rw [hidle t' (Ne.symm ht)] at hshape
    exact hshape

/-- At most `n` callers open or close the capture. -/
def AtMost (n : Nat) (s : CaptureThreads) : Prop := ∃ l : List Nat, l.length ≤ n ∧ ∀ t, s.callers t ≠ .idle → t ∈ l

/-- A step of a caller leaves the others where they are. -/
theorem callerStep_other (call : CaptureCall) (o : OpenOutcome) {t' : Nat} (ht : t' ≠ t) :
    (s.callerStep t call o).callers t' = s.callers t' := by
  have hgoto (s' : CaptureThreads) (c' : CallerAt) (hs : s'.callers = s.callers) : (s'.goto t c').callers t' = s.callers t' :=
    (Function.update_of_ne ht ..).trans (by rw [hs])
  unfold CaptureThreads.callerStep
  dsimp only
  (repeat' split) <;> first | rfl | exact hgoto _ _ rfl

theorem threadStep_callers (buffer : Bool) (r : RecvResult) : (s.threadStep buffer r).callers = s.callers := by
  unfold CaptureThreads.threadStep
  (repeat' split) <;> rfl

/-- If another caller was under way, there are two after the step. -/
theorem alone_of_atMost {call : CaptureCall} {o : OpenOutcome} (h : (s.callerStep t call o).AtMost 1)
    (hbusy : (s.callerStep t call o).callers t ≠ .idle) : s.Alone t := by
  intro t' ht
  obtain ⟨l, hl, hmem⟩ := h
  by_contra hne
  rw [← callerStep_other call o ht] at hne
  have h1 := hmem t hbusy
  have h2 := hmem t' hne
  match l, hl with
  | [x], _ => exact ht ((List.mem_singleton.mp h2).trans (List.mem_singleton.mp h1).symm)

theorem callerStep_idle (call : CaptureCall) (o : OpenOutcome) (hi : s.callers t = .idle) :
    (s.callerStep t call o).callers t ≠ .idle := by
  rw [CaptureThreads.callerStep, hi]
  cases call <;> simp [begin]

theorem Inv.step (i : CaptureInput) (s : CaptureThreads) (h : Inv s) (hone : AtMost 1 (captureStep i s).1) :
    Inv (captureStep i s).1 := by
  cases i with
  | thread buffer r => exact h.threadStep buffer r
  | caller t call o =>
    have halone : s.Alone t := by
      by_cases hi : s.callers t = .idle
      · exact alone_of_atMost hone (callerStep_idle call o hi)
      · intro t' ht
        obtain ⟨u, hu, -⟩ := h.shape
        by_cases htu : t = u
        · exact hu t' (htu ▸ ht)
        · exact absurd (hu t htu) hi
    obtain ⟨hf, hs⟩ := (h.caller t halone).callerStep h.noFault call o
    exact ⟨hf, t, fun t' ht => (callerStep_other call o ht).trans (halone t' ht), hs⟩

theorem inv_run (is : List CaptureInput) (h : ∀ st ∈ trace captureStep is .constructed, AtMost 1 st.post) :
    Inv (run captureStep is .constructed) :=
  run_induct_of (C := fun st => AtMost 1 st.post) Inv.step is inv_constructed h

/-! ## The end of `Close` -/

/-- How many steps the thread takes at most once `m_running` is cleared and
the handle shut down. -/
def stepsLeft : Option CaptureThreadAt → Nat
  | none | some .ended => 0
  | some .test => 1
  | some .send => 2
  | some .receiving => 3
  | some .recv => 4

theorem joinThread_threadStep (h : s.Shape .joinThread) (buffer : Bool) (r : RecvResult) :
    (s.threadStep buffer r).Shape .joinThread ∧ stepsLeft (s.threadStep buffer r).thread ≤ stepsLeft s.thread - 1 := by
  refine ⟨?_, ?_⟩
  · rcases threadStep_eq h buffer r with he | ⟨p, p', hp, he⟩
    · rw [he]
      exact h
    · rw [he]
      exact (h.thread hp).2 p'
  · obtain ⟨hr, hh⟩ := h
    unfold CaptureThreads.threadStep
    split
    · rename_i ht
      simp [ht, stepsLeft]
    · rename_i ht
      simp [ht, stepsLeft]
    · rename_i ht
      simp [ht, hr, stepsLeft]
    · rename_i ht
      simp [ht, stepsLeft]
    · rename_i ht
      rcases hh with hh | hh
      · cases r <;> simp [ht, hh.2, stepsLeft]
      · cases ht.symm.trans hh.2.2.2
    · rename_i ht
      simp [ht, stepsLeft]

theorem joinThread_threadSteps (rs : List (Bool × RecvResult)) (h : s.Shape .joinThread) :
    let s' := run captureStep (rs.map fun br => .thread br.1 br.2) s
    s'.Shape .joinThread ∧ stepsLeft s'.thread ≤ stepsLeft s.thread - rs.length ∧ s'.callers = s.callers := by
  induction rs generalizing s with
  | nil => exact ⟨h, Nat.le_refl _, rfl⟩
  | cons br rs ih =>
    obtain ⟨hs, hle⟩ := joinThread_threadStep h br.1 br.2
    obtain ⟨hs', hle', hc⟩ := ih hs
    refine ⟨hs', ?_, hc.trans (threadStep_callers ..)⟩
    rw [List.length_cons]
    simp only [List.map_cons, run, captureStep] at hle' ⊢
    omega

/-- The last five steps of `Close`, once the thread has ended. -/
theorem closeSteps (h : s.Shape .joinThread) (ht : stepsLeft s.thread = 0) (hc : s.callers t = .joinThread)
    (call : CaptureCall) (o : OpenOutcome) :
    let s' := run captureStep (List.replicate 5 (.caller t call o)) s
    s'.callers t = .idle ∧ s'.running = false ∧ s'.initialized = false ∧ s'.Empty := by
  have hended : s.thread = none ∨ s.thread = some .ended := by
    cases hs : s.thread with
    | none => exact .inl rfl
    | some p => cases p <;> simp_all [stepsLeft]
  have hjoin : s.callerStep t call o = ({ s with thread := none }.goto t .closeHandle : CaptureThreads) := by
    rw [CaptureThreads.callerStep, hc]
    rcases hended with hn | hn <;> simp only [hn]
    cases s
    cases hn
    rfl
  have hopen : ∀ x, s.handle = some x → s.openHandles = [x] ∧ s.api = true := by
    intro x hx
    rcases h.2 with ⟨⟨y, hy, ho, ha⟩, -⟩ | he
    · obtain rfl := Option.some.inj (hx.symm.trans hy)
      exact ⟨ho, ha⟩
    · cases hx.symm.trans he.1
  have hempty : s.handle = none → s.openHandles = [] := by
    intro hn
    rcases h.2 with ⟨⟨y, hy, -, -⟩, -⟩ | he
    · cases hn.symm.trans hy
    · exact he.2.1
  simp only [List.replicate, run, captureStep, hjoin]
  cases hh : s.handle with
  | none =>
    have ho := hempty hh
    simp [CaptureThreads.callerStep, goto, ho, Empty, h.1]
  | some x =>
    obtain ⟨ho, ha⟩ := hopen x hh
    simp [CaptureThreads.callerStep, goto, ho, ha, Empty, h.1, CaptureThreads.use]

/-! ## Two callers -/

/-- Callers that never begin are idle. -/
theorem atMost_of_callers (l : List Nat) (is : List CaptureInput)
    (hmem : ∀ i ∈ is, ∀ t call o, i = .caller t call o → t ∈ l) (hs : ∀ t, s.callers t ≠ .idle → t ∈ l) :
    ∀ st ∈ trace captureStep is s, AtMost l.length st.post := by
  induction is generalizing s with
  | nil => exact fun _ hst => absurd hst List.not_mem_nil
  | cons i is ih =>
    obtain ⟨hi, his⟩ := List.forall_mem_cons.mp hmem
    have hs' : ∀ t, (captureStep i s).1.callers t ≠ .idle → t ∈ l := by
      intro t ht
      cases i with
      | thread buffer r =>
        refine hs t ?_
        rw [← threadStep_callers buffer r]
        exact ht
      | caller t' call o =>
        by_cases htt : t = t'
        · exact htt ▸ hi t' call o rfl
        · refine hs t ?_
          rw [← callerStep_other call o htt]
          exact ht
    exact List.forall_mem_cons.mpr ⟨⟨l, Nat.le_refl _, hs'⟩, ih his hs'⟩

/-- `capture_stop` and `Stop` close the capture at once. -/
def twoClosers : List CaptureInput :=
  let o : OpenOutcome := ⟨true, some 1, true⟩
  List.replicate 8 (.caller 0 .openCall o) ++ [.thread false .waits] ++ List.replicate 3 (.caller 1 .captureStop o) ++
    List.replicate 4 (.caller 0 .closeCall o) ++ List.replicate 3 (.caller 1 .captureStop o) ++
    [.caller 0 .closeCall o, .caller 1 .captureStop o]

theorem twoClosers_fault : (run captureStep twoClosers .constructed).fault = true := by decide

end

end CaptureThreads

open CaptureThreads

/-- With at most `n` callers at once no run has a fault, exactly if `n` is at
most one. -/
theorem capture_safe_iff (n : Nat) :
    (∀ is, (∀ st ∈ trace captureStep is .constructed, AtMost n st.post) →
      (run captureStep is .constructed).fault = false) ↔ n ≤ 1 := by
  constructor
  · intro hsafe
    by_contra hn
    have hcallers : ∀ st ∈ trace captureStep twoClosers .constructed, AtMost 2 st.post :=
      atMost_of_callers [0, 1] twoClosers (by simp [twoClosers]) fun t ht => absurd rfl ht
    have hfault := hsafe twoClosers fun st hst => by
      obtain ⟨l, hl, hmem⟩ := hcallers st hst
      exact ⟨l, by omega, hmem⟩
    rw [twoClosers_fault] at hfault
    cases hfault
  · intro hn is hmost
    refine (inv_run is fun st hst => ?_).noFault
    obtain ⟨l, hl, hmem⟩ := hmost st hst
    exact ⟨l, Nat.le_trans hl hn, hmem⟩

/-- When `Close` waits for the capture thread, with no other caller, four
steps of the thread are enough whatever it receives, and five more of the
caller leave the capture closed. -/
theorem close_returns (is : List CaptureInput) (hone : ∀ st ∈ trace captureStep is .constructed, AtMost 1 st.post) {t : Nat}
    (hs : (run captureStep is .constructed).callers t = .joinThread) (rs : List (Bool × RecvResult)) (hrs : rs.length = 4)
    (call : CaptureCall) (o : OpenOutcome) :
    let s := run captureStep ((rs.map fun br => .thread br.1 br.2) ++ List.replicate 5 (.caller t call o))
      (run captureStep is .constructed)
    s.callers t = .idle ∧ s.running = false ∧ s.initialized = false ∧ s.Empty := by
  have hinv := inv_run is hone
  have hshape : (run captureStep is .constructed).Shape .joinThread := by
    obtain ⟨u, hu, hshape⟩ := hinv.shape
    by_cases htu : t = u
    · rw [← htu, hs] at hshape
      exact hshape
    · cases hs.symm.trans (hu t htu)
  obtain ⟨hjoin, hleft, hcallers⟩ := joinThread_threadSteps rs hshape
  have hzero : stepsLeft (run captureStep (rs.map fun br => .thread br.1 br.2) (run captureStep is .constructed)).thread = 0 := by
    have hmax (p : Option CaptureThreadAt) : stepsLeft p ≤ 4 := by
      cases p with
      | none => simp [stepsLeft]
      | some p => cases p <;> simp [stepsLeft]
    have h4 := hmax (run captureStep is .constructed).thread
    omega
  rw [run_append]
  exact closeSteps hjoin hzero ((congrFun hcallers t).trans hs) call o

/-- The capture is closed while its thread waits for a packet. -/
theorem close_returns_receiving :
    let o : OpenOutcome := ⟨true, some 1, true⟩
    let is : List CaptureInput := List.replicate 8 (.caller 0 .openCall o) ++ [.thread true .waits, .thread true .waits] ++
      List.replicate 3 (.caller 0 .closeCall o)
    let packets : List (Bool × RecvResult) := List.replicate 4 (true, .packet)
    let s := run captureStep ((packets.map fun br => .thread br.1 br.2) ++ List.replicate 5 (.caller 0 .closeCall o))
      (run captureStep is .constructed)
    (run captureStep is .constructed).thread = some .receiving ∧ s.callers 0 = .idle ∧ s.running = false ∧
      s.initialized = false ∧ s.Empty := by
  intro o is packets
  have hone : ∀ st ∈ trace captureStep is .constructed, AtMost 1 st.post :=
    atMost_of_callers [0] is (by simp [is]) fun t ht => absurd rfl ht
  exact ⟨by decide, close_returns is hone (t := 0) (by decide) packets rfl .closeCall o⟩

end TR.Impl
