import TcpRedirector.Impl.Auth.LaunchLimit
import TcpRedirector.Proof.Framework.Run

/-!
# How often the agent is launched

The flag admits one thread at a time (`Exclusive`). The cooldown is checked
before and recorded after, so it counts only if nothing was recorded in
between and nothing is still to be recorded (`Current`): then two processes
are ten seconds apart (`launches_spaced`).
-/

namespace TR.Impl.LaunchLimit

/-- The thread has set the flag and not yet reset it. -/
def Point.inProgress : Point → Bool
  | .launching _ _ | .cleanup _ => true
  | _ => false

/-- A process was created whose time is not yet stored. -/
def Point.unrecorded : Point → Bool
  | .cleanup result => result
  | .launched | .storing _ => true
  | _ => false

section

variable (s : State) (t : Nat) (p : Point)

@[simp] theorem goto_clock : (s.goto t p).clock = s.clock := rfl
@[simp] theorem goto_lastLaunchTime : (s.goto t p).lastLaunchTime = s.lastLaunchTime := rfl
@[simp] theorem goto_launchInProgress : (s.goto t p).launchInProgress = s.launchInProgress := rfl

theorem goto_threads (t' : Nat) : (s.goto t p).threads t' = if t' = t then p else s.threads t' :=
  Function.update_apply ..

end

/-! ## One launch at a time -/

/-- Only one thread has the flag, and only while it is set. -/
structure Exclusive (s : State) : Prop where
  flag : ∀ t, (s.threads t).inProgress = true → s.launchInProgress = true
  unique : ∀ t t', (s.threads t).inProgress = true → (s.threads t').inProgress = true → t = t'

section

variable {s : State} {t : Nat} {p : Point}

/-- A thread goes on without the flag, or keeps it. -/
theorem Exclusive.goto (h : Exclusive s) (hp : p.inProgress = true → (s.threads t).inProgress = true) :
    Exclusive (s.goto t p) := by
  have hkeep : ∀ t', ((s.goto t p).threads t').inProgress = true → (s.threads t').inProgress = true := by
    intro t' ht'
    rw [goto_threads] at ht'
    split at ht'
    next heq => exact heq ▸ hp ht'
    next => exact ht'
  exact ⟨fun t' ht' => h.flag t' (hkeep t' ht'), fun t₁ t₂ h₁ h₂ => h.unique t₁ t₂ (hkeep t₁ h₁) (hkeep t₂ h₂)⟩

/-- The compare-exchange succeeds only if no thread has the flag. -/
theorem Exclusive.acquire (h : Exclusive s) (hflag : s.launchInProgress = false) :
    Exclusive ({ s with launchInProgress := true }.goto t p) := by
  have honly : ∀ t', (({ s with launchInProgress := true }.goto t p).threads t').inProgress = true → t' = t := by
    intro t' ht'
    rw [goto_threads] at ht'
    split at ht'
    next heq => exact heq
    next => exact absurd (h.flag t' ht') (by simp [hflag])
  exact ⟨fun _ _ => rfl, fun t₁ t₂ h₁ h₂ => (honly t₁ h₁).trans (honly t₂ h₂).symm⟩

/-- The thread that resets the flag was the only one that had it. -/
theorem Exclusive.release (h : Exclusive s) (ht : (s.threads t).inProgress = true) (hp : p.inProgress = false) :
    Exclusive ({ s with launchInProgress := false }.goto t p) := by
  have hnone : ∀ t', ¬ (({ s with launchInProgress := false }.goto t p).threads t').inProgress = true := by
    intro t' ht'
    rw [goto_threads] at ht'
    split at ht'
    next => exact absurd ht' (by simp [hp])
    next hne => exact hne (h.unique t' t ht' ht)
  exact ⟨fun t' ht' => absurd ht' (hnone t'), fun t₁ _ h₁ _ => absurd h₁ (hnone t₁)⟩

theorem Exclusive.step (h : Exclusive s) (i : Input) : Exclusive (step i s).1 := by
  cases i with
  | tick ns => exact ⟨h.flag, h.unique⟩
  | step t created =>
    cases hpoint : s.threads t with
    | idle =>
      simp only [LaunchLimit.step, hpoint]
      exact h.goto (fun hp => absurd hp Bool.false_ne_true)
    | started nowNs =>
      simp only [LaunchLimit.step, hpoint]
      split
      · exact h.goto (fun hp => absurd hp Bool.false_ne_true)
      · exact h.goto (fun hp => absurd hp Bool.false_ne_true)
    | checked nowNs lastNs =>
      simp only [LaunchLimit.step, hpoint]
      split
      · exact h.goto (fun hp => absurd hp Bool.false_ne_true)
      next hflag => exact h.acquire (Bool.eq_false_iff.mpr hflag)
    | launching nowNs lastNs =>
      simp only [LaunchLimit.step, hpoint]
      exact h.goto (fun _ => by rw [hpoint]; rfl)
    | cleanup result =>
      simp only [LaunchLimit.step, hpoint]
      refine h.release (by rw [hpoint]; rfl) ?_
      cases result <;> rfl
    | launched =>
      simp only [LaunchLimit.step, hpoint]
      exact h.goto (fun hp => absurd hp Bool.false_ne_true)
    | storing ns =>
      simp only [LaunchLimit.step, hpoint]
      have hsame : Exclusive { s with lastLaunchTime := ns } := ⟨h.flag, h.unique⟩
      exact hsame.goto (fun hp => absurd hp Bool.false_ne_true)

end

theorem exclusive_start (clock : Int) : Exclusive (start clock) :=
  ⟨fun _ h => absurd h Bool.false_ne_true, fun _ _ h => absurd h Bool.false_ne_true⟩

/-! ## Ten seconds between two -/

/-- When a process is created, the time that the thread has checked is still
the stored one, and no launch is to be recorded. -/
def Current (st : StepOf State Input (Option Int)) : Prop :=
  ∀ t nowNs lastNs, st.input = .step t true → st.pre.threads t = .launching nowNs lastNs →
    st.pre.lastLaunchTime = lastNs ∧ ∀ t', (st.pre.threads t').unrecorded = false

/-- What a thread knows at its place. -/
def Point.Sound (clock : Int) (created : List Int) : Point → Prop
  | .started nowNs => nowNs ≤ clock
  | .checked nowNs lastNs | .launching nowNs lastNs => nowNs ≤ clock ∧ (0 < lastNs → COOLDOWN ≤ nowNs - lastNs)
  | .storing ns => ∀ T ∈ created, T ≤ ns
  | _ => True

/-- What a thread knows, it knows later. -/
theorem Point.Sound.later {p : Point} {clock clock' : Int} {created : List Int} (h : p.Sound clock created)
    (hle : clock ≤ clock') : p.Sound clock' created := by
  cases p with
  | started nowNs => exact Int.le_trans h hle
  | checked nowNs lastNs => exact ⟨Int.le_trans h.1 hle, h.2⟩
  | launching nowNs lastNs => exact ⟨Int.le_trans h.1 hle, h.2⟩
  | storing ns => exact h
  | _ => trivial

/-- What a thread knows of the creations matters only if it is to store. -/
theorem Point.Sound.created {p : Point} {clock : Int} {created : List Int} (h : p.Sound clock created)
    (hp : p.unrecorded = false) (created' : List Int) : p.Sound clock created' := by
  cases p with
  | storing ns => cases hp
  | _ => exact h

/-- The creations so far, each ten seconds after those before; they are before
the stored time, or a thread is still to store a later one. -/
structure Spaced (s : State) (created : List Int) : Prop where
  positive : 0 < s.clock
  past : ∀ T ∈ created, 0 < T ∧ T ≤ s.clock
  threads : ∀ t, (s.threads t).Sound s.clock created
  recorded : (∃ t, (s.threads t).unrecorded = true) ∨ ∀ T ∈ created, T ≤ s.lastLaunchTime
  spaced : created.Pairwise fun T T' => T + COOLDOWN ≤ T'

section

variable {s : State} {created : List Int} {t : Nat} {p : Point}

/-- A thread goes on without creating or storing. -/
theorem Spaced.goto (h : Spaced s created) (hp : p.Sound s.clock created)
    (hkeep : (s.threads t).unrecorded = true → p.unrecorded = true) : Spaced (s.goto t p) created where
  positive := h.positive
  past := h.past
  threads t' := by
    rw [goto_threads]
    split
    · exact hp
    · exact h.threads t'
  recorded := by
    refine h.recorded.imp_left fun ⟨t', ht'⟩ => ⟨t', ?_⟩
    rw [goto_threads]
    split
    next heq => exact hkeep (heq ▸ ht')
    next => exact ht'
  spaced := h.spaced

/-- A process is created ten seconds after the others, since the stored time,
which is not before them, was checked. -/
theorem Spaced.create (h : Spaced s created) {nowNs lastNs : Int} (hpoint : s.threads t = .launching nowNs lastNs)
    (hlast : s.lastLaunchTime = lastNs) (hnone : ∀ t', (s.threads t').unrecorded = false) :
    Spaced (s.goto t (.cleanup true)) (created ++ [s.clock]) := by
  have hrecorded : ∀ T ∈ created, T ≤ lastNs := by
    rcases h.recorded with ⟨t', ht'⟩ | hrecorded
    · exact absurd ht' (by simp [hnone t'])
    · exact hlast ▸ hrecorded
  have hchecked : nowNs ≤ s.clock ∧ (0 < lastNs → COOLDOWN ≤ nowNs - lastNs) := by
    have hsound := h.threads t
    rwa [hpoint] at hsound
  have hearlier : ∀ T ∈ created, T + COOLDOWN ≤ s.clock := by
    intro T hT
    have hle := hrecorded T hT
    have hcool := hchecked.2 (by have := (h.past T hT).1; omega)
    omega
  constructor
  · exact h.positive
  · intro T hT
    rcases List.mem_append.mp hT with hT | hT
    · exact h.past T hT
    · rw [List.mem_singleton.mp hT]
      exact ⟨h.positive, Int.le_refl _⟩
  · intro t'
    rw [goto_threads]
    split
    · trivial
    · exact (h.threads t').created (hnone t') _
  · exact .inl ⟨t, by rw [goto_threads, if_pos rfl]; rfl⟩
  · rw [List.pairwise_append]
    refine ⟨h.spaced, List.pairwise_singleton .., fun T hT T' hT' => ?_⟩
    rw [List.mem_singleton.mp hT']
    exact hearlier T hT

theorem Spaced.store (h : Spaced s created) {ns : Int} (hpoint : s.threads t = .storing ns) :
    Spaced ({ s with lastLaunchTime := ns }.goto t .idle) created where
  positive := h.positive
  past := h.past
  threads t' := by
    rw [goto_threads]
    split
    · trivial
    · exact h.threads t'
  recorded := by
    have hsound := h.threads t
    rw [hpoint] at hsound
    exact .inr hsound
  spaced := h.spaced

theorem Spaced.tick (h : Spaced s created) (ns : Nat) : Spaced { s with clock := s.clock + ns } created where
  positive := by
    have := h.positive
    show 0 < s.clock + ns
    omega
  past T hT := by
    obtain ⟨hpos, hle⟩ := h.past T hT
    refine ⟨hpos, ?_⟩
    show T ≤ s.clock + ns
    omega
  threads t := (h.threads t).later (by show s.clock ≤ s.clock + ns; omega)
  recorded := h.recorded
  spaced := h.spaced

theorem Spaced.step (h : Spaced s created) (i : Input) (hcurrent : Current (stepOf step i s)) :
    Spaced (step i s).1 (created ++ (step i s).2.toList) := by
  cases i with
  | tick ns =>
    simp only [LaunchLimit.step, Option.toList_none, List.append_nil]
    exact h.tick ns
  | step t result =>
    cases hpoint : s.threads t with
    | idle =>
      simp only [LaunchLimit.step, hpoint, Option.toList_none, List.append_nil]
      exact h.goto (Int.le_refl _) (by rw [hpoint]; exact id)
    | started nowNs =>
      simp only [LaunchLimit.step, hpoint]
      have hnow : nowNs ≤ s.clock := by
        have hsound := h.threads t
        rwa [hpoint] at hsound
      split
      · rw [Option.toList_none, List.append_nil]
        exact h.goto trivial (by rw [hpoint]; exact id)
      next hcool =>
        rw [Option.toList_none, List.append_nil]
        exact h.goto ⟨hnow, fun hlast => by omega⟩ (by rw [hpoint]; exact id)
    | checked nowNs lastNs =>
      have hsound := h.threads t
      rw [hpoint] at hsound
      simp only [LaunchLimit.step, hpoint]
      split
      · rw [Option.toList_none, List.append_nil]
        exact h.goto trivial (by rw [hpoint]; exact id)
      · rw [Option.toList_none, List.append_nil]
        have hset : Spaced { s with launchInProgress := true } created :=
          ⟨h.positive, h.past, h.threads, h.recorded, h.spaced⟩
        exact hset.goto hsound (by rw [hpoint]; exact id)
    | launching nowNs lastNs =>
      simp only [LaunchLimit.step, hpoint]
      cases result with
      | true =>
        obtain ⟨hlast, hnone⟩ := hcurrent t nowNs lastNs rfl hpoint
        exact h.create hpoint hlast hnone
      | false =>
        simp only [Bool.false_eq_true, if_false, Option.toList_none, List.append_nil]
        exact h.goto trivial (by rw [hpoint]; exact fun hp => absurd hp Bool.false_ne_true)
    | cleanup result =>
      simp only [LaunchLimit.step, hpoint, Option.toList_none, List.append_nil]
      have hreset : Spaced { s with launchInProgress := false } created :=
        ⟨h.positive, h.past, h.threads, h.recorded, h.spaced⟩
      refine hreset.goto ?_ ?_
      · cases result <;> trivial
      · rw [hpoint]
        cases result <;> exact id
    | launched =>
      simp only [LaunchLimit.step, hpoint, Option.toList_none, List.append_nil]
      exact h.goto (fun T hT => (h.past T hT).2) (fun _ => rfl)
    | storing ns =>
      simp only [LaunchLimit.step, hpoint, Option.toList_none, List.append_nil]
      exact h.store hpoint

end

theorem spaced_start {clock : Int} (hclock : 0 < clock) : Spaced (start clock) [] where
  positive := hclock
  past _ h := absurd h List.not_mem_nil
  threads _ := trivial
  recorded := .inr fun _ h => absurd h List.not_mem_nil
  spaced := List.Pairwise.nil

theorem launches_spaced {clock : Int} (hclock : 0 < clock) (is : List Input) :
    (∀ t t', ((run step is (start clock)).threads t).inProgress = true →
      ((run step is (start clock)).threads t').inProgress = true → t = t') ∧
    ((∀ st ∈ trace step is (start clock), Current st) →
      (creations (trace step is (start clock))).Pairwise fun T T' => T + COOLDOWN ≤ T') := by
  constructor
  · exact (run_induct (P := Exclusive) (fun i _ h => h.step i) is (exclusive_start clock)).unique
  · intro hcurrent
    refine (history_induct_of (P := fun s tr => Spaced s (creations tr)) ?_ is (spaced_start hclock) hcurrent).spaced
    intro i s tr h hC
    have hstep := h.step i hC
    rwa [show (step i s).2.toList = creations [stepOf step i s] by
      cases hout : (step i s).2 <;> simp [creations, stepOf, hout], creations, creations, ← List.filterMap_append] at hstep

/-- A step of a thread that is at another place. -/
theorem current_of {st : StepOf State Input (Option Int)} {t : Nat} {created : Bool} (hinput : st.input = .step t created)
    (hpoint : (st.pre.threads t).inProgress = false) : Current st := by
  intro t' nowNs lastNs hinput' hpoint'
  rw [hinput] at hinput'
  cases hinput'
  rw [hpoint'] at hpoint
  cases hpoint

/-- A launch, and after ten seconds another. -/
def twice : List Input :=
  [.step 0 true, .step 0 true, .step 0 true, .step 0 true, .step 0 true, .step 0 true, .step 0 true,
    .tick 10000000000,
    .step 1 true, .step 1 true, .step 1 true, .step 1 true]

theorem launches_spaced_twice : creations (trace step twice (start 1)) = [1, 10000000001] ∧
    (creations (trace step twice (start 1))).Pairwise fun T T' => T + COOLDOWN ≤ T' := by
  refine ⟨by decide, (launches_spaced (by decide) twice).2 ?_⟩
  intro st hst
  simp only [twice, trace, List.mem_cons, List.not_mem_nil, or_false] at hst
  rcases hst with rfl | rfl | rfl | rfl | rfl | rfl | rfl | rfl | rfl | rfl | rfl | rfl
  · exact current_of rfl rfl
  · exact current_of rfl rfl
  · exact current_of rfl rfl
  · intro t nowNs lastNs hinput hpoint
    cases hinput
    cases hpoint
    refine ⟨rfl, fun t' => ?_⟩
    rcases t' with _ | t' <;> rfl
  · intro t nowNs lastNs hinput hpoint
    cases hinput
    cases hpoint
  · exact current_of rfl rfl
  · exact current_of rfl rfl
  · intro t nowNs lastNs hinput
    cases hinput
  · exact current_of rfl rfl
  · exact current_of rfl rfl
  · exact current_of rfl rfl
  · intro t nowNs lastNs hinput hpoint
    cases hinput
    cases hpoint
    refine ⟨rfl, fun t' => ?_⟩
    rcases t' with _ | _ | t' <;> rfl

/-- Two threads have checked the cooldown before either launches. -/
def overlapping : List Input :=
  [.step 0 true, .step 1 true, .step 0 true, .step 1 true,
    .step 0 true, .step 0 true, .step 0 true,
    .step 1 true, .step 1 true]

theorem launches_overlap : creations (trace step overlapping (start 1)) = [1, 1] ∧
    ¬ (creations (trace step overlapping (start 1))).Pairwise fun T T' => T + COOLDOWN ≤ T' := by
  decide

end TR.Impl.LaunchLimit
