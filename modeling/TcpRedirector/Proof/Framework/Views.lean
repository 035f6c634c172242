import TcpRedirector.Proof.Framework.Run

/-!
# A part of a run on its own

A component of a machine that many others share it with: of the state it is a
projection, of each step either nothing or an input and an output. If a step
it does not see leaves its projection alone, and one it sees does to the
projection what a smaller machine does with that input, then the run, seen
from there, is a run of the smaller machine (`run_view`, `outputs_view`).
-/

namespace TR

variable {σ ι ο σ' ι' ο' : Type} {step : ι → σ → σ × ο} {step' : ι' → σ' → σ' × ο'}

/-- The outputs of a run. -/
def outputs (step : ι → σ → σ × ο) (is : List ι) (s : σ) : List ο := (trace step is s).map (·.out)

@[simp] theorem outputs_nil (s : σ) : outputs step [] s = [] := rfl

@[simp] theorem outputs_cons (i : ι) (is : List ι) (s : σ) :
    outputs step (i :: is) s = (step i s).2 :: outputs step is (step i s).1 := rfl

/-- The steps of the machine are, for the component, nothing or steps of the
smaller machine. `P` is an invariant. -/
structure Views (P : σ → Prop) (step : ι → σ → σ × ο) (step' : ι' → σ' → σ' × ο') (proj : σ → σ')
    (view : StepOf σ ι ο → Option (ι' × ο')) : Prop where
  invariant : ∀ i s, P s → P (step i s).1
  unseen : ∀ i s, P s → view (stepOf step i s) = none → proj (step i s).1 = proj s
  seen : ∀ i s x o, P s → view (stepOf step i s) = some (x, o) → step' x (proj s) = (proj (step i s).1, o)

namespace Views

variable {P : σ → Prop} {proj : σ → σ'} {view : StepOf σ ι ο → Option (ι' × ο')}

theorem run_outputs (h : Views P step step' proj view) (is : List ι) {s : σ} (hs : P s) :
    proj (run step is s) = run step' (((trace step is s).filterMap view).map (·.1)) (proj s) ∧
      outputs step' (((trace step is s).filterMap view).map (·.1)) (proj s) =
        ((trace step is s).filterMap view).map (·.2) := by
  induction is generalizing s with
  | nil => exact ⟨rfl, rfl⟩
  | cons i is ih =>
    obtain ⟨hr, ho⟩ := ih (h.invariant i s hs)
    have htr : trace step (i :: is) s = stepOf step i s :: trace step is (step i s).1 := rfl
    rw [htr, run]
    cases hv : view (stepOf step i s) with
    | none =>
      rw [List.filterMap_cons_none hv, ← h.unseen i s hs hv]
      exact ⟨hr, ho⟩
    | some xo =>
      obtain ⟨x, o⟩ := xo
      have hstep := h.seen i s x o hs hv
      rw [List.filterMap_cons_some hv, List.map_cons, List.map_cons, run, outputs_cons, hstep]
      exact ⟨hr, congrArg (o :: ·) ho⟩

/-- The component's state after the run. -/
theorem run_view (h : Views P step step' proj view) (is : List ι) {s : σ} (hs : P s) :
    proj (run step is s) = run step' (((trace step is s).filterMap view).map (·.1)) (proj s) :=
  (h.run_outputs is hs).1

/-- The outputs it has seen. -/
theorem outputs_view (h : Views P step step' proj view) (is : List ι) {s : σ} (hs : P s) :
    outputs step' (((trace step is s).filterMap view).map (·.1)) (proj s) =
      ((trace step is s).filterMap view).map (·.2) :=
  (h.run_outputs is hs).2

end Views

end TR
