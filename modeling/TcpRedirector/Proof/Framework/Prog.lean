import Mathlib.Logic.Basic
import TcpRedirector.TCB.Prog

/-!
# What every run of a program does

An observer follows the calls of a run and their answers; it refuses a call
that must not happen. `WP obs Q p s`: whatever the answers, the observer in
state `s` refuses no call of `p`, and its state and the result satisfy `Q` at
the end. It holds of a sequence if it holds of the first part with the
second's as its postcondition (`WP_bind`), and it speaks about the runs in
any environment (`WP.sound`). `Calls P p` is the simpler statement that every
call of `p` satisfies `P`. `Ends answer Q p w` is about the run in one
environment.
-/

namespace TR

variable {Call : Type} {Resp : Call → Type} {α β σ S : Type}

/-- The observer's state after the calls, unless it refuses one. -/
def observe (obs : S → (c : Call) → Resp c → Option S) : List (Answered Call Resp) → S → Option S
  | [], s => some s
  | e :: tr, s => (obs s e.1 e.2).bind (observe obs tr)

theorem observe_append {obs : S → (c : Call) → Resp c → Option S} (tr tr' : List (Answered Call Resp)) (s : S) :
    observe obs (tr ++ tr') s = (observe obs tr s).bind (observe obs tr') := by
  induction tr generalizing s with
  | nil => rfl
  | cons e tr ih =>
    simp only [List.cons_append, observe, Option.bind_assoc]
    congr 1
    funext s'
    exact ih s'

def WP (obs : S → (c : Call) → Resp c → Option S) (Q : S → Option α → Prop) : Prog Call Resp α → S → Prop
  | .ret a, s => Q s (some a)
  | .throw, s => Q s none
  | .call c k, s => ∀ r, ∃ s', obs s c r = some s' ∧ WP obs Q (k r) s'

section

variable {obs : S → (c : Call) → Resp c → Option S} {Q Q' : S → Option α → Prop}

theorem WP.mono {p : Prog Call Resp α} {s : S} (h : WP obs Q p s) (hQ : ∀ s r, Q s r → Q' s r) : WP obs Q' p s := by
  induction p generalizing s with
  | ret a => exact hQ _ _ h
  | throw => exact hQ _ _ h
  | call c k ih =>
    intro r
    obtain ⟨s', hs, hk⟩ := h r
    exact ⟨s', hs, ih r hk⟩

/-- A sequence: the second part follows the first unless that throws. -/
theorem WP_bind {p : Prog Call Resp β} {f : β → Prog Call Resp α} {s : S} :
    WP obs Q (p >>= f) s ↔ WP obs (fun s r => r.elim (Q s none) fun b => WP obs Q (f b) s) p s := by
  induction p generalizing s with
  | ret b => rfl
  | throw => rfl
  | call c k ih => exact forall_congr' fun r => exists_congr fun s' => and_congr_right fun _ => ih r

/-- What holds whatever the answers holds in every environment. -/
theorem WP.sound {p : Prog Call Resp α} {s : S} (h : WP obs Q p s) (answer : (c : Call) → σ → Resp c × σ) (w : σ) :
    ∃ s', observe obs (p.exec answer w).trace s = some s' ∧ Q s' (p.exec answer w).result := by
  induction p generalizing s w with
  | ret a => exact ⟨s, rfl, h⟩
  | throw => exact ⟨s, rfl, h⟩
  | call c k ih =>
    obtain ⟨s₁, hs, hk⟩ := h (answer c w).1
    obtain ⟨s', ho, hq⟩ := ih _ hk (answer c w).2
    refine ⟨s', ?_, hq⟩
    show (obs s c (answer c w).1).bind _ = _
    rw [hs]
    exact ho

end

/-! ## What a program may call -/

section

variable {P : Call → Prop}

/-- Whatever the answers, every call of the program satisfies `P`. -/
def Prog.Calls (P : Call → Prop) : Prog Call Resp α → Prop
  | .ret _ => True
  | .throw => True
  | .call c k => P c ∧ ∀ r, (k r).Calls P

theorem Prog.Calls.bind {p : Prog Call Resp α} {f : α → Prog Call Resp β} (hp : p.Calls P) (hf : ∀ a, (f a).Calls P) :
    (p >>= f).Calls P := by
  induction p with
  | ret a => exact hf a
  | throw => trivial
  | call c k ih => exact ⟨hp.1, fun r => ih r (hp.2 r)⟩

theorem Prog.Calls.sound {p : Prog Call Resp α} (h : p.Calls P) (answer : (c : Call) → σ → Resp c × σ) (w : σ) :
    ∀ e ∈ (p.exec answer w).trace, P e.1 := by
  induction p generalizing w with
  | ret a => exact fun e he => by cases he
  | throw => exact fun e he => by cases he
  | call c k ih => exact List.forall_mem_cons.mpr ⟨h.1, ih _ (h.2 _) _⟩

end

/-! ## The run in one environment -/

theorem exec_call {answer : (c : Call) → σ → Resp c × σ} {c : Call} {k : Resp c → Prog Call Resp α} {w w' : σ} {r : Resp c}
    (h : answer c w = (r, w')) :
    (Prog.call c k).exec answer w =
      let ran := (k r).exec answer w'
      ⟨⟨c, r⟩ :: ran.trace, ran.result, ran.state⟩ := by
  simp only [Prog.exec, h]

theorem exec_bind {answer : (c : Call) → σ → Resp c × σ} {p : Prog Call Resp β} {f : β → Prog Call Resp α} {w : σ} {b : β}
    (h : (p.exec answer w).result = some b) :
    (p >>= f).exec answer w =
      let r := (f b).exec answer (p.exec answer w).state
      ⟨(p.exec answer w).trace ++ r.trace, r.result, r.state⟩ := by
  induction p generalizing w with
  | ret a =>
    cases h
    rfl
  | throw => cases h
  | call c k ih =>
    have hk := ih (answer c w).1 h
    exact congrArg
      (fun r : Ran Call Resp σ α => (⟨⟨c, (answer c w).1⟩ :: r.trace, r.result, r.state⟩ : Ran Call Resp σ α)) hk

/-- The program returns, and its result and the state of the environment satisfy `Q`. -/
def Ends (answer : (c : Call) → σ → Resp c × σ) (Q : α → σ → Prop) : Prog Call Resp α → σ → Prop
  | .ret a, w => Q a w
  | .throw, _ => False
  | .call c k, w => Ends answer Q (k (answer c w).1) (answer c w).2

section

variable {answer : (c : Call) → σ → Resp c × σ} {Q Q' : α → σ → Prop}

theorem Ends.mono {p : Prog Call Resp α} {w : σ} (h : Ends answer Q p w) (hQ : ∀ a w, Q a w → Q' a w) :
    Ends answer Q' p w := by
  induction p generalizing w with
  | ret a => exact hQ _ _ h
  | throw => exact h
  | call c k ih => exact ih _ h

theorem Ends_bind {p : Prog Call Resp β} {f : β → Prog Call Resp α} {w : σ} :
    Ends answer Q (p >>= f) w ↔ Ends answer (fun b w => Ends answer Q (f b) w) p w := by
  induction p generalizing w with
  | ret b => rfl
  | throw => rfl
  | call c k ih => exact ih _

theorem Ends.exec {p : Prog Call Resp α} {w : σ} (h : Ends answer Q p w) :
    ∃ a, (p.exec answer w).result = some a ∧ Q a (p.exec answer w).state := by
  induction p generalizing w with
  | ret a => exact ⟨a, rfl, h⟩
  | throw => exact absurd h id
  | call c k ih => exact ih _ h

end

/-! ## Programs with loops -/

section

variable {next : S → Option ((c : Call) × (Resp c → S))} {answer : (c : Call) → σ → Resp c × σ}

theorem advance_stop {s : S} (h : next s = none) (n : Nat) (w : σ) : advance next answer n (s, w) = (s, w) := by
  cases n <;> simp [advance, h]

theorem advance_add (a b : Nat) (x : S × σ) :
    advance next answer (a + b) x = advance next answer b (advance next answer a x) := by
  induction a generalizing x with
  | zero => rw [Nat.zero_add]; rfl
  | succ a ih =>
    obtain ⟨s, w⟩ := x
    rw [Nat.succ_add_eq_add_succ, Nat.add_succ]
    cases hn : next s with
    | none => rw [advance_stop hn, advance_stop hn, advance_stop hn]
    | some c =>
      simp only [advance, hn]
      exact ih _

/-- A program that has ended has one end. -/
theorem advance_end_unique {x : S × σ} {a b : Nat} (ha : next (advance next answer a x).1 = none)
    (hb : next (advance next answer b x).1 = none) : advance next answer a x = advance next answer b x := by
  rcases Nat.le_total a b with h | h
  · obtain ⟨c, rfl⟩ := Nat.exists_eq_add_of_le h
    rw [advance_add]
    exact (advance_stop ha c _).symm
  · obtain ⟨c, rfl⟩ := Nat.exists_eq_add_of_le h
    rw [advance_add]
    exact advance_stop hb c _

end

end TR
