import TcpRedirector.Proof.Framework.Run
import TcpRedirector.TCB.Threads

/-!
# What threads know of their own

Each thread has a ghost `a : A`, what is its own of the shared state. `Keeps`
says of a program that it makes only calls that its ghost allows, and returns
only where `Q` holds of the ghost and the result; `next` relates the ghosts
before and after an answer. An invariant `I` of the events so far, the shared
state and the ghosts of all threads holds after a step if an allowed call keeps
it, and a start of an operation with a new ghost `a₀` (`ThreadsInv.step`).
-/

namespace TR

variable {Call : Type} {Resp : Call → Type} {G A α β Op ω : Type}

structure ThreadRules (Call : Type) (Resp : Call → Type) (A : Type) where
  allowed : A → Call → Prop
  /-- No ghost comes after an answer that there cannot be. -/
  next : A → (c : Call) → Resp c → A → Prop

def Keeps (R : ThreadRules Call Resp A) (Q : A → α → Prop) : Prog Call Resp α → A → Prop
  | .ret x, a => Q a x
  | .throw, _ => False
  | .call c k, a => R.allowed a c ∧ ∀ r a', R.next a c r a' → Keeps R Q (k r) a'

section

variable {R : ThreadRules Call Resp A}

theorem Keeps.mono {Q Q' : A → α → Prop} {p : Prog Call Resp α} {a : A} (h : Keeps R Q p a) (hQ : ∀ a x, Q a x → Q' a x) :
    Keeps R Q' p a := by
  induction p generalizing a with
  | ret x => exact hQ _ _ h
  | throw => exact h
  | call c k ih => exact ⟨h.1, fun r a' hr => ih r (h.2 r a' hr)⟩

theorem Keeps_bind {Q : A → α → Prop} {p : Prog Call Resp β} {f : β → Prog Call Resp α} {a : A} :
    Keeps R Q (p >>= f) a ↔ Keeps R (fun a x => Keeps R Q (f x) a) p a := by
  induction p generalizing a with
  | ret x => rfl
  | throw => rfl
  | call c k ih =>
    exact and_congr_right fun _ => forall_congr' fun r => forall_congr' fun a' => imp_congr_right fun _ => ih r

variable {Q : A → α → Prop} {I : List (G × ThreadsEvent Call Resp) → G → (Nat → A) → Prop}
  {log : List (G × ThreadsEvent Call Resp)} {s : Threads Call Resp G α}

/-- Every thread keeps to the rules with the ghosts of `I`. -/
def ThreadsInv (R : ThreadRules Call Resp A) (Q : A → α → Prop) (I : List (G × ThreadsEvent Call Resp) → G → (Nat → A) → Prop)
    (s : Threads Call Resp G α) (log : List (G × ThreadsEvent Call Resp)) : Prop :=
  ∃ ghosts : Nat → A, I log s.shared ghosts ∧ ∀ t, Keeps R Q (s.threads t) (ghosts t)

/-- A thread is about to make only calls that its ghost allows. -/
theorem ThreadsInv.allowed (h : ThreadsInv R Q I s log) {t : Nat} {c : Call} {k : Resp c → Prog Call Resp α}
    (ht : s.threads t = .call c k) : ∃ ghosts, I log s.shared ghosts ∧ R.allowed (ghosts t) c := by
  obtain ⟨ghosts, hI, hkeeps⟩ := h
  have hown := hkeeps t
  rw [ht] at hown
  exact ⟨ghosts, hI, hown.1⟩

/-- What a thread has returned is as `Q` says. -/
theorem ThreadsInv.returned (h : ThreadsInv R Q I s log) {t : Nat} {x : α} (ht : s.threads t = .ret x) :
    ∃ ghosts, I log s.shared ghosts ∧ Q (ghosts t) x := by
  obtain ⟨ghosts, hI, hkeeps⟩ := h
  have hown := hkeeps t
  rw [ht] at hown
  exact ⟨ghosts, hI, hown⟩

theorem ThreadsInv.start {g : G} {idle : α} {a₀ : A} (h : I [] g fun _ => a₀) (hQ : Q a₀ idle) :
    ThreadsInv R Q I (Threads.start g idle) [] :=
  ⟨fun _ => a₀, h, fun _ => hQ⟩

/-- One thread goes on with its ghost, the others stay as they are. -/
theorem Keeps.update {threads : Nat → Prog Call Resp α} {ghosts : Nat → A} {t : Nat} {p : Prog Call Resp α} {a : A}
    (hkeeps : ∀ t, Keeps R Q (threads t) (ghosts t)) (h : Keeps R Q p a) (t' : Nat) :
    Keeps R Q (Function.update threads t p t') (Function.update ghosts t a t') := by
  by_cases ht : t' = t
  · rw [ht, Function.update_self, Function.update_self]
    exact h
  · rw [Function.update_of_ne ht, Function.update_of_ne ht]
    exact hkeeps t'

theorem Keeps.idle {p : Prog Call Resp α} {a : A} (h : Keeps R Q p a) (hp : ∀ c k, p ≠ .call c k) : ∃ x, Q a x := by
  cases p with
  | ret x => exact ⟨x, h⟩
  | throw => exact absurd h id
  | call c k => exact absurd rfl (hp c k)

variable {program : Op → Prog Call Resp α} {answer : ω → (c : Call) → G → Resp c × G} {a₀ : A}

/-- What a step can be: a call of a thread, or the shared state stays as it is. -/
theorem Threads.step_cases (program : Op → Prog Call Resp α) (answer : ω → (c : Call) → G → Resp c × G) (i : ThreadsInput Op ω)
    (s : Threads Call Resp G α) :
    (∃ t o c k, i = .step t o ∧ s.threads t = .call c k ∧ Threads.step program answer i s =
      (⟨(answer o c s.shared).2, Function.update s.threads t (k (answer o c s.shared).1)⟩,
        some (.called t ⟨c, (answer o c s.shared).1⟩))) ∨
    (Threads.step program answer i s).1.shared = s.shared ∧ ∀ t x, (Threads.step program answer i s).2 ≠ some (.called t x) := by
  cases i with
  | start t op =>
    refine .inr ?_
    rw [Threads.step]
    split
    next => exact ⟨rfl, fun _ _ hout => by cases hout⟩
    next => exact ⟨rfl, fun _ _ hout => by cases hout⟩
  | step t o =>
    rw [Threads.step]
    split
    next c k ht => exact .inl ⟨t, o, c, k, rfl, ht, rfl⟩
    next => exact .inr ⟨rfl, fun _ _ hout => by cases hout⟩

theorem ThreadsInv.step (hprogram : ∀ op, Keeps R Q (program op) a₀)
    (hstart : ∀ g ghosts t x, I log g ghosts → Q (ghosts t) x → I (log ++ [(g, .started t)]) g (Function.update ghosts t a₀))
    (h : ThreadsInv R Q I s log) (i : ThreadsInput Op ω)
    (hcall : ∀ t o c k ghosts, i = .step t o → s.threads t = .call c k → I log s.shared ghosts → R.allowed (ghosts t) c →
      ∃ a', R.next (ghosts t) c (answer o c s.shared).1 a' ∧
        I (log ++ [(s.shared, .called t ⟨c, (answer o c s.shared).1⟩)]) (answer o c s.shared).2 (Function.update ghosts t a')) :
    ThreadsInv R Q I (Threads.step program answer i s).1
      (log ++ ((Threads.step program answer i s).2.map (s.shared, ·)).toList) := by
  have hsame : ThreadsInv R Q I s (log ++ []) := by rwa [List.append_nil]
  obtain ⟨ghosts, hI, hkeeps⟩ := h
  cases i with
  | start t op =>
    simp only [Threads.step]
    split
    next => exact hsame
    next hret =>
      obtain ⟨x, hx⟩ := (hkeeps t).idle hret
      exact ⟨_, hstart _ _ t x hI hx, Keeps.update hkeeps (hprogram op)⟩
  | step t o =>
    simp only [Threads.step]
    split
    next c k ht =>
      have hown := hkeeps t
      rw [ht] at hown
      obtain ⟨a', hnext, hI'⟩ := hcall t o c k ghosts rfl ht hI hown.1
      exact ⟨_, hI', Keeps.update hkeeps (hown.2 _ a' hnext)⟩
    next => exact hsame

theorem Threads.mem_events {tr : List (StepOf (Threads Call Resp G α) (ThreadsInput Op ω) (Option (ThreadsEvent Call Resp)))}
    {e : G × ThreadsEvent Call Resp} : e ∈ Threads.events tr ↔ ∃ st ∈ tr, st.pre.shared = e.1 ∧ st.out = some e.2 := by
  rw [Threads.events, List.mem_filterMap]
  refine exists_congr fun st => and_congr_right fun _ => ?_
  rw [Option.map_eq_some_iff]
  constructor
  · rintro ⟨ev, hev, rfl⟩
    exact ⟨rfl, hev⟩
  · rintro ⟨hpre, hout⟩
    exact ⟨e.2, hout, Prod.ext hpre rfl⟩

theorem Threads.events_concat (tr : List (StepOf (Threads Call Resp G α) (ThreadsInput Op ω) (Option (ThreadsEvent Call Resp))))
    (st : StepOf (Threads Call Resp G α) (ThreadsInput Op ω) (Option (ThreadsEvent Call Resp))) :
    Threads.events (tr ++ [st]) = Threads.events tr ++ (st.out.map (st.pre.shared, ·)).toList := by
  rw [Threads.events, List.filterMap_append, Threads.events, List.filterMap_cons]
  cases st.out with
  | none => rfl
  | some event => rfl

end

end TR
