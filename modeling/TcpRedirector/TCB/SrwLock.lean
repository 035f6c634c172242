import Mathlib.Logic.Function.Basic
import TcpRedirector.TCB.Prog
import TcpRedirector.TCB.Run

/-!
# Slim reader/writer locks

Any number of threads call the operations of an object in shared memory. Any
number of them can hold the lock of the object in shared mode, or one in
exclusive mode. An operation may have loops: its program ends with a result or
at the head of a loop, from where its `body` goes on. A step is one call of
one thread; a thread that cannot have the lock waits. What the callers see is
the history: which operation was called and what it returned.

An atomic object has no memory and no lock: between its call and its return an
operation is applied in one step.
-/

namespace TR

inductive LockMode where
  | shared
  | exclusive
  deriving Repr, DecidableEq

inductive SrwCall (Call : Type) where
  /-- `AcquireSRWLockShared`, `AcquireSRWLockExclusive`. -/
  | acquire (mode : LockMode)
  /-- `ReleaseSRWLockShared`, `ReleaseSRWLockExclusive`. -/
  | release (mode : LockMode)
  | other (c : Call)

def SrwCall.Resp {Call : Type} (Resp : Call → Type) : SrwCall Call → Type
  | .other c => Resp c
  | _ => Unit

/-- What the callers of an object see. -/
inductive ObjectEvent (Op α : Type) where
  | called (t : Nat) (op : Op)
  | returned (t : Nat) (x : α)
  deriving Repr, DecidableEq

section

variable {σ ι Op α : Type}

/-- The states of an endless run. -/
def states (step : ι → σ → σ × Option (ObjectEvent Op α)) (f : Nat → ι) (s : σ) : Nat → σ
  | 0 => s
  | n + 1 => (step (f n) (states step f s n)).1

def history (tr : List (StepOf σ ι (Option (ObjectEvent Op α)))) : List (ObjectEvent Op α) := tr.filterMap (·.out)

end

/-- `S` are the heads of the loops. -/
abbrev SrwProg (Call : Type) (Resp : Call → Type) (S α : Type) := Prog (SrwCall Call) (SrwCall.Resp Resp) (S ⊕ α)

structure SrwPool (Call : Type) (Resp : Call → Type) (S G α : Type) where
  shared : G
  writer : Option Nat
  readers : List Nat
  threads : Nat → SrwProg Call Resp S α

inductive SrwInput (Op ω : Type) where
  /-- The thread, if it is idle, calls an operation. -/
  | call (t : Nat) (op : Op)
  /-- The thread makes its next call; `o` is what the environment decides. -/
  | step (t : Nat) (o : ω)

namespace SrwPool

variable {Call : Type} {Resp : Call → Type} {S G α Op ω : Type}

/-- The thread goes on with `p`; it has returned if that is a result. -/
def goto (s : SrwPool Call Resp S G α) (t : Nat) (p : SrwProg Call Resp S α) :
    SrwPool Call Resp S G α × Option (ObjectEvent Op α) :=
  ({ s with threads := Function.update s.threads t p },
    match p with
    | .ret (.inr x) => some (.returned t x)
    | _ => none)

/-- The lock after `t` has acquired it; none if it has to wait. -/
def acquire (s : SrwPool Call Resp S G α) (t : Nat) (mode : LockMode) : Option (SrwPool Call Resp S G α) :=
  match s.writer, mode with
  | none, .shared => some { s with readers := t :: s.readers }
  | none, .exclusive => if s.readers = [] then some { s with writer := some t } else none
  | some _, _ => none

def release (s : SrwPool Call Resp S G α) (t : Nat) : LockMode → SrwPool Call Resp S G α
  | .shared => { s with readers := s.readers.erase t }
  | .exclusive => { s with writer := none }

def step (enter : Op → S) (body : S → SrwProg Call Resp S α) (answer : ω → (c : Call) → G → Resp c × G)
    (i : SrwInput Op ω) (s : SrwPool Call Resp S G α) : SrwPool Call Resp S G α × Option (ObjectEvent Op α) :=
  match i with
  | .call t op =>
    match s.threads t with
    | .ret (.inr _) => ({ s with threads := Function.update s.threads t (.ret (.inl (enter op))) }, some (.called t op))
    | _ => (s, none)
  | .step t o =>
    match s.threads t with
    | .ret (.inl head) => s.goto t (body head)
    | .call (.acquire mode) k =>
      match s.acquire t mode with
      | none => (s, none)
      | some s => s.goto t (k ())
    | .call (.release mode) k => (s.release t mode).goto t (k ())
    | .call (.other c) k => { s with shared := (answer o c s.shared).2 }.goto t (k (answer o c s.shared).1)
    | _ => (s, none)

/-- All threads idle. -/
def start (g : G) (idle : α) : SrwPool Call Resp S G α := ⟨g, none, [], fun _ => .ret (.inr idle)⟩

end SrwPool

/-! ## Atomic objects -/

inductive AtomicThread (Op α : Type) where
  | idle
  | called (op : Op)
  /-- The operation has been applied and not yet returned. -/
  | applied (x : α)
  deriving Repr, DecidableEq

structure AtomicObject (A Op α : Type) where
  object : A
  threads : Nat → AtomicThread Op α

inductive AtomicInput (Op : Type) where
  | call (t : Nat) (op : Op)
  | apply (t : Nat)
  | return (t : Nat)

namespace AtomicObject

variable {A Op α : Type}

def step (apply : Op → A → α × A) (i : AtomicInput Op) (s : AtomicObject A Op α) :
    AtomicObject A Op α × Option (ObjectEvent Op α) :=
  match i with
  | .call t op =>
    match s.threads t with
    | .idle => ({ s with threads := Function.update s.threads t (.called op) }, some (.called t op))
    | _ => (s, none)
  | .apply t =>
    match s.threads t with
    | .called op =>
      (⟨(apply op s.object).2, Function.update s.threads t (.applied (apply op s.object).1)⟩, none)
    | _ => (s, none)
  | .return t =>
    match s.threads t with
    | .applied x => ({ s with threads := Function.update s.threads t .idle }, some (.returned t x))
    | _ => (s, none)

def start (a : A) : AtomicObject A Op α := ⟨a, fun _ => .idle⟩

end AtomicObject

end TR
