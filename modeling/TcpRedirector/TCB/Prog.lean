/-!
# Programs that call their environment

A program is a tree: it has returned, an exception has left it, or it makes a
call and goes on with the answer. The type of the answer depends on the call.
An environment with state answers the calls of a run; the run lists them with
their answers. A program that loops is given by its states and the call each
of them makes.
-/

namespace TR

inductive Prog (Call : Type) (Resp : Call → Type) (α : Type) : Type where
  | ret (a : α)
  | throw
  | call (c : Call) (k : Resp c → Prog Call Resp α)

/-- A call with its answer. -/
abbrev Answered (Call : Type) (Resp : Call → Type) : Type := (c : Call) × Resp c

/-- A finished run: its calls, its result (`none` if an exception left it) and
the state it left the environment in. -/
structure Ran (Call : Type) (Resp : Call → Type) (σ α : Type) where
  trace : List (Answered Call Resp)
  result : Option α
  state : σ

namespace Prog

variable {Call : Type} {Resp : Call → Type} {α β σ : Type}

def bind : Prog Call Resp α → (α → Prog Call Resp β) → Prog Call Resp β
  | ret a, f => f a
  | throw, _ => throw
  | call c k, f => call c fun r => (k r).bind f

instance : Monad (Prog Call Resp) where
  pure := ret
  bind := bind

/-- The run of a program in an environment. -/
def exec (answer : (c : Call) → σ → Resp c × σ) : Prog Call Resp α → σ → Ran Call Resp σ α
  | ret a, w => ⟨[], some a, w⟩
  | throw, w => ⟨[], none, w⟩
  | call c k, w =>
    let r := exec answer (k (answer c w).1) (answer c w).2
    ⟨⟨c, (answer c w).1⟩ :: r.trace, r.result, r.state⟩

end Prog

section

variable {Call : Type} {Resp : Call → Type} {S σ : Type}

/-- At most `n` calls of a program with loops. `next` gives the call of a
state and how the answer changes it, none at the end. -/
def advance (next : S → Option ((c : Call) × (Resp c → S))) (answer : (c : Call) → σ → Resp c × σ) :
    Nat → S × σ → S × σ
  | 0, x => x
  | n + 1, (s, w) =>
    match next s with
    | none => (s, w)
    | some ⟨c, k⟩ => advance next answer n (k (answer c w).1, (answer c w).2)

end

end TR
