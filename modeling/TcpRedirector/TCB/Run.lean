/-!
# Runs of a step function

A deterministic component is a step function from an input and a state to a
state and an output. A run is a list of inputs; its trace lists the steps
taken, each with the state before and after it.
-/

namespace TR

/-- One step of a run. -/
structure StepOf (σ ι ο : Type) where
  pre : σ
  input : ι
  out : ο
  post : σ

variable {σ ι ο : Type} (step : ι → σ → σ × ο)

/-- The state after the inputs. -/
def run : List ι → σ → σ
  | [], s => s
  | i :: is, s => run is (step i s).1

/-- The steps taken. -/
def trace : List ι → σ → List (StepOf σ ι ο)
  | [], _ => []
  | i :: is, s => ⟨s, i, (step i s).2, (step i s).1⟩ :: trace is (step i s).1

end TR
