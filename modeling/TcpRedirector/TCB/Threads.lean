import Mathlib.Logic.Function.Basic
import TcpRedirector.TCB.Prog
import TcpRedirector.TCB.Run

/-!
# Threads over a shared state

Any number of threads run programs over a shared state. A step is one call of
one thread, or the start of an operation by a thread that has none under way.
-/

namespace TR

structure Threads (Call : Type) (Resp : Call → Type) (G α : Type) where
  shared : G
  threads : Nat → Prog Call Resp α

inductive ThreadsInput (Op ω : Type) where
  /-- The thread, if it is idle, starts an operation. -/
  | start (t : Nat) (op : Op)
  /-- The thread makes its next call; `o` is what the environment decides. -/
  | step (t : Nat) (o : ω)

/-- What a step is, unless it does nothing. -/
inductive ThreadsEvent (Call : Type) (Resp : Call → Type) where
  | started (t : Nat)
  | called (t : Nat) (x : Answered Call Resp)

namespace Threads

variable {Call : Type} {Resp : Call → Type} {G α Op ω : Type}

def step (program : Op → Prog Call Resp α) (answer : ω → (c : Call) → G → Resp c × G) (i : ThreadsInput Op ω)
    (s : Threads Call Resp G α) : Threads Call Resp G α × Option (ThreadsEvent Call Resp) :=
  match i with
  | .start t op =>
    match s.threads t with
    | .call _ _ => (s, none)
    | _ => ({ s with threads := Function.update s.threads t (program op) }, some (.started t))
  | .step t o =>
    match s.threads t with
    | .call c k =>
      let (r, g) := answer o c s.shared
      (⟨g, Function.update s.threads t (k r)⟩, some (.called t ⟨c, r⟩))
    | _ => (s, none)

/-- All threads idle. -/
def start (g : G) (idle : α) : Threads Call Resp G α := ⟨g, fun _ => .ret idle⟩

/-- The events of a trace, each with the shared state before it. -/
def events (tr : List (StepOf (Threads Call Resp G α) (ThreadsInput Op ω) (Option (ThreadsEvent Call Resp)))) :
    List (G × ThreadsEvent Call Resp) :=
  tr.filterMap fun st => st.out.map (st.pre.shared, ·)

end Threads

end TR
