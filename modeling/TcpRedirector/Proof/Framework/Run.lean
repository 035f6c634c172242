import Mathlib.Data.List.Basic
import Mathlib.Data.List.Induction
import TcpRedirector.TCB.Run

/-!
# Invariants along a run

A run splits where its inputs do (`run_append`); a step of its trace is a
step from a state some of its inputs lead to (`mem_trace_iff`). What every
step preserves holds after every run (`run_induct`), before every step of its
trace (`trace_induct`), and with the steps so far (`history_induct`); what the
steps of one kind preserve holds after a run of that kind (`run_induct_of`).
-/

namespace TR

variable {σ ι ο : Type} {step : ι → σ → σ × ο}

theorem run_append (is₁ is₂ : List ι) (s : σ) : run step (is₁ ++ is₂) s = run step is₂ (run step is₁ s) := by
  induction is₁ generalizing s with
  | nil => rfl
  | cons i is ih => exact ih _

theorem run_concat (is : List ι) (i : ι) (s : σ) :
    run step (is ++ [i]) s = (step i (run step is s)).1 := run_append is [i] s

theorem trace_append (is₁ is₂ : List ι) (s : σ) :
    trace step (is₁ ++ is₂) s = trace step is₁ s ++ trace step is₂ (run step is₁ s) := by
  induction is₁ generalizing s with
  | nil => rfl
  | cons i is ih => rw [List.cons_append, trace, trace, ih, List.cons_append, run]

/-- The step on input `i` from state `s`. -/
def stepOf (step : ι → σ → σ × ο) (i : ι) (s : σ) : StepOf σ ι ο := ⟨s, i, (step i s).2, (step i s).1⟩

theorem trace_concat (is : List ι) (i : ι) (s : σ) :
    trace step (is ++ [i]) s = trace step is s ++ [stepOf step i (run step is s)] := trace_append is [i] s

/-- The steps of a trace: those from the states the run's prefixes lead to. -/
theorem mem_trace_iff {is : List ι} {s : σ} {st : StepOf σ ι ο} :
    st ∈ trace step is s ↔ ∃ is₁ i is₂, is = is₁ ++ i :: is₂ ∧ st = stepOf step i (run step is₁ s) := by
  constructor
  · intro h
    induction is generalizing s with
    | nil => cases h
    | cons i is ih =>
      rcases List.mem_cons.mp h with rfl | h
      · exact ⟨[], i, is, rfl, rfl⟩
      · obtain ⟨is₁, j, is₂, rfl, rfl⟩ := ih h
        exact ⟨i :: is₁, j, is₂, rfl, rfl⟩
  · rintro ⟨is₁, i, is₂, rfl, rfl⟩
    rw [trace_append]
    exact List.mem_append_right _ List.mem_cons_self

/-- What every step preserves holds after every run. -/
theorem run_induct {P : σ → Prop} (hp : ∀ i s, P s → P (step i s).1) (is : List ι) {s : σ} (h : P s) :
    P (run step is s) := by
  induction is generalizing s with
  | nil => exact h
  | cons i is ih => exact ih (hp i s h)

/-- What every step preserves holds before every step of a trace. -/
theorem trace_induct {P : σ → Prop} (hp : ∀ i s, P s → P (step i s).1) {is : List ι} {s : σ} (h : P s)
    {st : StepOf σ ι ο} (hst : st ∈ trace step is s) :
    P st.pre ∧ st = stepOf step st.input st.pre := by
  obtain ⟨is₁, i, is₂, -, rfl⟩ := mem_trace_iff.mp hst
  exact ⟨run_induct hp is₁ h, rfl⟩

/-- What the steps with property `C` preserve holds in every state of a run of such steps. -/
theorem run_induct_of {P : σ → Prop} {C : StepOf σ ι ο → Prop} (hp : ∀ i s, P s → C (stepOf step i s) → P (step i s).1)
    (is : List ι) {s : σ} (h : P s) (hC : ∀ st ∈ trace step is s, C st) : P (run step is s) := by
  induction is generalizing s with
  | nil => exact h
  | cons i is ih =>
    exact ih (hp i s h (hC _ List.mem_cons_self)) fun st hst => hC st (List.mem_cons_of_mem _ hst)

/-- What every step preserves of the state and the steps so far holds of every run and its trace. -/
theorem history_induct {P : σ → List (StepOf σ ι ο) → Prop}
    (hp : ∀ i s tr, P s tr → P (step i s).1 (tr ++ [stepOf step i s])) (is : List ι) {s : σ} (h : P s []) :
    P (run step is s) (trace step is s) := by
  induction is using List.reverseRecOn with
  | nil => exact h
  | append_singleton is i ih =>
    rw [run_concat, trace_concat]
    exact hp i _ _ ih

/-- What the steps with property `C` preserve of the state and the steps so
far holds of every run of such steps. -/
theorem history_induct_of {P : σ → List (StepOf σ ι ο) → Prop} {C : StepOf σ ι ο → Prop}
    (hp : ∀ i s tr, P s tr → C (stepOf step i s) → P (step i s).1 (tr ++ [stepOf step i s])) (is : List ι) {s : σ}
    (h : P s []) (hC : ∀ st ∈ trace step is s, C st) : P (run step is s) (trace step is s) := by
  induction is using List.reverseRecOn with
  | nil => exact h
  | append_singleton is i ih =>
    rw [trace_concat] at hC
    rw [run_concat, trace_concat]
    exact hp i _ _ (ih fun st hst => hC st (List.mem_append_left _ hst))
      (hC _ (List.mem_append_right _ (List.mem_singleton_self _)))

/-- The steps of a prefix are steps of the run. -/
theorem trace_prefix_subset {is₁ is : List ι} (h : is₁ <+: is) (s : σ) : trace step is₁ s ⊆ trace step is s := by
  obtain ⟨is₂, rfl⟩ := h
  rw [trace_append]
  exact List.subset_append_left _ _

/-- Two properties of steps agree on a whole trace if they agree on every step
from an invariant state, and a step that has the second keeps the invariant. -/
theorem forall_trace_iff {P : σ → Prop} {A B : StepOf σ ι ο → Prop}
    (hp : ∀ i s, P s → B (stepOf step i s) → P (step i s).1)
    (hAB : ∀ i s, P s → (A (stepOf step i s) ↔ B (stepOf step i s))) (is : List ι) {s : σ} (h : P s) :
    (∀ st ∈ trace step is s, A st) ↔ ∀ st ∈ trace step is s, B st := by
  induction is generalizing s with
  | nil => simp [trace]
  | cons i is ih =>
    simp only [trace, List.forall_mem_cons]
    constructor
    · rintro ⟨hA, hr⟩
      have hB := (hAB i s h).mp hA
      exact ⟨hB, (ih (hp i s h hB)).mp hr⟩
    · rintro ⟨hB, hr⟩
      exact ⟨(hAB i s h).mpr hB, (ih (hp i s h hB)).mpr hr⟩

/-- Two properties of steps that agree on every step from an invariant state
agree on every trace. -/
theorem forall_trace_congr {P : σ → Prop} (hp : ∀ i s, P s → P (step i s).1) {A B : StepOf σ ι ο → Prop}
    (hAB : ∀ i s, P s → (A (stepOf step i s) ↔ B (stepOf step i s))) (is : List ι) {s : σ} (h : P s) :
    (∀ st ∈ trace step is s, A st) ↔ ∀ st ∈ trace step is s, B st :=
  forall_trace_iff (fun i s hs _ => hp i s hs) hAB is h

/-- A property of the states that the prefixes of a run lead to is one of the
steps of its trace, and of the first state. -/
theorem forall_prefix_iff {P : σ → Prop} (is : List ι) {s : σ} (h : P s) :
    (∀ is', is' <+: is → P (run step is' s)) ↔ ∀ st ∈ trace step is s, P st.post := by
  constructor
  · intro hall st hst
    obtain ⟨is₁, i, is₂, rfl, rfl⟩ := mem_trace_iff.mp hst
    have hpost := hall (is₁ ++ [i]) ⟨is₂, by rw [List.append_assoc, List.singleton_append]⟩
    rw [run_concat] at hpost
    exact hpost
  · intro hall is' hsub
    rcases List.eq_nil_or_concat is' with rfl | ⟨is₁, i, rfl⟩
    · exact h
    · obtain ⟨is₂, rfl⟩ := hsub
      rw [List.concat_eq_append, run_concat]
      refine hall _ (mem_trace_iff.mpr ⟨is₁, i, is₂, ?_, rfl⟩)
      rw [List.concat_eq_append, List.append_assoc, List.singleton_append]

/-! ## Logs -/

/-- What a log has, a longer one has too. -/
theorem getElem?_of_prefix {α : Type} {l l' : List α} {k : Nat} {a : α} (h : l <+: l') (hk : l[k]? = some a) :
    l'[k]? = some a := by
  obtain ⟨m, rfl⟩ := h
  rw [List.getElem?_append_left (List.getElem?_eq_some_iff.mp hk).1]
  exact hk

/-- An entry of a log that has grown by one is the new one or was there before. -/
theorem concat_eq_append_cons {α : Type} {log pre post : List α} {x y : α} (h : log ++ [x] = pre ++ y :: post) :
    post = [] ∧ pre = log ∧ y = x ∨ ∃ post', post = post' ++ [x] ∧ log = pre ++ y :: post' := by
  rcases List.eq_nil_or_concat post with rfl | ⟨post', z, rfl⟩
  · obtain ⟨rfl, hy⟩ := List.append_inj' h rfl
    exact .inl ⟨rfl, rfl, (List.cons.inj hy).1.symm⟩
  · rw [List.concat_eq_append, ← List.cons_append, ← List.append_assoc] at h
    obtain ⟨hl, hz⟩ := List.append_inj' h rfl
    obtain rfl := (List.cons.inj hz).1
    exact .inr ⟨post', List.concat_eq_append, hl⟩

end TR
