import Mathlib.Logic.Function.Basic
import TcpRedirector.TCB.Prog

/-!
# Threads and a recursive mutex

Any number of threads run programs over a shared state. Besides its own calls
a program can lock and unlock the one mutex; a thread that holds it may lock
it again. A step is one call of one thread, or a move of the environment; a
thread whose call cannot be answered yet waits. The log lists the calls with
the threads that made them.
-/

namespace TR

inductive LockCall (Call : Type) where
  | lock
  | unlock
  | other (c : Call)

def LockCall.Resp {Call : Type} (Resp : Call → Type) : LockCall Call → Type
  | .other c => Resp c
  | _ => Unit

/-- A program of a thread. -/
abbrev LockProg (Call : Type) (Resp : Call → Type) := Prog (LockCall Call) (LockCall.Resp Resp)

structure Pool (Call : Type) (Resp : Call → Type) (G α : Type) where
  shared : G
  /-- The thread that holds the mutex, and how often it has locked it again. -/
  owner : Option (Nat × Nat)
  threads : Nat → LockProg Call Resp α
  log : List (Nat × Answered Call Resp)

inductive PoolInput (Op ω ε : Type) where
  /-- The thread, if it is idle, starts an operation. -/
  | start (t : Nat) (op : Op)
  /-- The thread makes its next call. -/
  | step (t : Nat) (o : ω)
  /-- The environment moves. -/
  | env (e : ε)

namespace Pool

variable {Call : Type} {Resp : Call → Type} {G α Op ω ε : Type}

/-- The mutex after the thread has locked it; none if another holds it. -/
def lock (t : Nat) : Option (Nat × Nat) → Option (Nat × Nat)
  | none => some (t, 0)
  | some (t', n) => if t' = t then some (t, n + 1) else none

/-- The mutex after the thread that holds it has unlocked it. -/
def unlock : Option (Nat × Nat) → Option (Nat × Nat)
  | some (t, n + 1) => some (t, n)
  | _ => none

/-- `start` gives the program of an operation; `answer` answers a call, or
none if it blocks. -/
def step (start : Op → LockProg Call Resp α) (answer : ω → (c : Call) → G → Option (Resp c × G)) (move : ε → G → G)
    (i : PoolInput Op ω ε) (s : Pool Call Resp G α) : Pool Call Resp G α × Unit :=
  match i with
  | .start t op =>
    match s.threads t with
    | .call _ _ => (s, ())
    | _ => ({ s with threads := Function.update s.threads t (start op) }, ())
  | .step t o =>
    match s.threads t with
    | .call .lock k =>
      match lock t s.owner with
      | none => (s, ())
      | some owner => ({ s with owner := some owner, threads := Function.update s.threads t (k ()) }, ())
    | .call .unlock k => ({ s with owner := unlock s.owner, threads := Function.update s.threads t (k ()) }, ())
    | .call (.other c) k =>
      match answer o c s.shared with
      | none => (s, ())
      | some (r, g) =>
        ({ s with shared := g, threads := Function.update s.threads t (k r), log := s.log ++ [(t, ⟨c, r⟩)] }, ())
    | _ => (s, ())
  | .env e => ({ s with shared := move e s.shared }, ())

/-- All threads idle. -/
def start (g : G) (idle : α) : Pool Call Resp G α := ⟨g, none, fun _ => .ret idle, []⟩

end Pool

end TR
