import TcpRedirector.TCB.Locked

/-!
# What a mutex protects

What the threads of a pool share is seen as an `a : A` (`view`). A thread that
takes the mutex finds an `a` that satisfies the invariant `I`, sees it change
by its own calls alone, as `next` says, and has to leave one that satisfies
`I` when it gives the mutex back; without the mutex it makes only calls that
change nothing (`free`). `Guarded` says of a program that it keeps to this,
and that each of its calls passes `check`; it holds of a sequence if it holds
of the first part with the second's as its postcondition (`Guarded_bind`). If
every operation is guarded, then `I` holds whenever the mutex is free
(`PoolInv.step`) and every call passes (`PoolInv.checked`).
-/

namespace TR

variable {Call : Type} {Resp : Call → Type} {G A α β Op ω ε : Type}

/-- The rules of a mutex. -/
structure LockRules (Call : Type) (Resp : Call → Type) (A : Type) where
  I : A → Prop
  /-- The calls made without the mutex. -/
  free : Call → Prop
  /-- `next t n c a r a'`: the call `c` of thread `t`, which has locked the mutex
  again `n` times, may find `a`, be answered `r` and leave `a'`. -/
  next : Nat → Nat → (c : Call) → A → Resp c → A → Prop
  check : Nat → (c : Call) → A → Resp c → Prop
  check_free {t : Nat} {c : Call} {a : A} {r : Resp c} : free c → check t c a r

def Guarded (R : LockRules Call Resp A) (t : Nat) (Q : Option (Nat × A) → α → Prop) :
    LockProg Call Resp α → Option (Nat × A) → Prop
  | .ret x, s => Q s x
  | .throw, _ => False
  | .call .lock k, none => ∀ a, R.I a → Guarded R t Q (k ()) (some (0, a))
  | .call .lock k, some (n, a) => Guarded R t Q (k ()) (some (n + 1, a))
  | .call .unlock _, none => False
  | .call .unlock k, some (0, a) => R.I a ∧ Guarded R t Q (k ()) none
  | .call .unlock k, some (n + 1, a) => Guarded R t Q (k ()) (some (n, a))
  | .call (.other c) k, none => R.free c ∧ ∀ r, Guarded R t Q (k r) none
  | .call (.other c) k, some (n, a) => ∀ r a', R.next t n c a r a' → R.check t c a r ∧ Guarded R t Q (k r) (some (n, a'))

section

variable {R : LockRules Call Resp A} {t : Nat}

theorem Guarded.mono {Q Q' : Option (Nat × A) → α → Prop} {p : LockProg Call Resp α} {s : Option (Nat × A)}
    (h : Guarded R t Q p s) (hQ : ∀ s x, Q s x → Q' s x) : Guarded R t Q' p s := by
  induction p generalizing s with
  | ret x => exact hQ _ _ h
  | throw => exact h
  | call c k ih =>
    cases c with
    | lock =>
      cases s with
      | none => exact fun a ha => ih () (h a ha)
      | some s => exact ih () h
    | unlock =>
      match s with
      | none => exact h
      | some (0, a) => exact ⟨h.1, ih () h.2⟩
      | some (n + 1, a) => exact ih () (s := some (n, a)) h
    | other c =>
      cases s with
      | none => exact ⟨h.1, fun r => ih r (h.2 r)⟩
      | some s => exact fun r a' hn => ⟨(h r a' hn).1, ih r (h r a' hn).2⟩

/-- A sequence. -/
theorem Guarded_bind {Q : Option (Nat × A) → α → Prop} {p : LockProg Call Resp β} {f : β → LockProg Call Resp α}
    {s : Option (Nat × A)} : Guarded R t Q (p >>= f) s ↔ Guarded R t (fun s x => Guarded R t Q (f x) s) p s := by
  induction p generalizing s with
  | ret x => rfl
  | throw => rfl
  | call c k ih =>
    cases c with
    | lock =>
      cases s with
      | none => exact forall_congr' fun a => imp_congr_right fun _ => ih ()
      | some s => exact ih ()
    | unlock =>
      match s with
      | none => rfl
      | some (0, a) => exact and_congr_right fun _ => ih ()
      | some (n + 1, a) => exact ih () (s := some (n, a))
    | other c =>
      cases s with
      | none => exact and_congr_right fun _ => forall_congr' fun r => ih r
      | some s => exact forall_congr' fun r => forall_congr' fun a' => imp_congr_right fun _ => and_congr_right fun _ => ih r

end

/-- How often a thread that holds the mutex has locked it again. -/
def Pool.held (s : Pool Call Resp G α) (t : Nat) : Option Nat :=
  match s.owner with
  | some (t', n) => if t' = t then some n else none
  | none => none

section

variable {R : LockRules Call Resp A} {view : G → List (Nat × Answered Call Resp) → A} {s : Pool Call Resp G α}

/-- Every thread keeps to the rules, and `I` holds while the mutex is free. -/
structure PoolInv (R : LockRules Call Resp A) (view : G → List (Nat × Answered Call Resp) → A)
    (s : Pool Call Resp G α) : Prop where
  free : s.owner = none → R.I (view s.shared s.log)
  threads : ∀ t, Guarded R t (fun s _ => s = none) (s.threads t) ((s.held t).map (·, view s.shared s.log))

theorem PoolInv.start {g : G} {idle : α} (h : R.I (view g [])) : PoolInv R view (Pool.start g idle : Pool Call Resp G α) :=
  ⟨fun _ => h, fun _ => rfl⟩

variable {program : Op → LockProg Call Resp α} {answer : ω → (c : Call) → G → Option (Resp c × G)} {move : ε → G → G}

/-- The call a thread makes in this step, if it is answered, changes what the
threads share as the rules say. -/
def Follows (R : LockRules Call Resp A) (view : G → List (Nat × Answered Call Resp) → A)
    (answer : ω → (c : Call) → G → Option (Resp c × G)) (i : PoolInput Op ω ε) (s : Pool Call Resp G α) : Prop :=
  ∀ t o c k r g, i = .step t o → s.threads t = .call (.other c) k → answer o c s.shared = some (r, g) →
    (R.free c → view g (s.log ++ [(t, ⟨c, r⟩)]) = view s.shared s.log) ∧
    ∀ n, s.held t = some n → R.next t n c (view s.shared s.log) r (view g (s.log ++ [(t, ⟨c, r⟩)]))

/-- A call that is answered. -/
theorem Pool.step_other {t : Nat} {o : ω} {c : Call} {k : Resp c → LockProg Call Resp α} {r : Resp c} {g : G}
    (ht : s.threads t = .call (.other c) k) (ha : answer o c s.shared = some (r, g)) :
    (s.step program answer move (.step t o)).1 =
      { s with shared := g, threads := Function.update s.threads t (k r), log := s.log ++ [(t, ⟨c, r⟩)] } := by
  simp only [Pool.step, ht, ha]

/-- What every answer and every move of the environment keeps, a step keeps. -/
theorem Pool.step_shared {P : G → List (Nat × Answered Call Resp) → Prop}
    (hcall : ∀ t o c r g, answer o c s.shared = some (r, g) → P g (s.log ++ [(t, ⟨c, r⟩)]))
    (hmove : ∀ e, P (move e s.shared) s.log) (h : P s.shared s.log) (i : PoolInput Op ω ε) :
    P (s.step program answer move i).1.shared (s.step program answer move i).1.log := by
  cases i with
  | start t op =>
    simp only [Pool.step]
    split
    · exact h
    · exact h
  | env e => exact hmove e
  | step t o =>
    simp only [Pool.step]
    split
    next =>
      split
      · exact h
      · exact h
    next => exact h
    next c k _ =>
      split
      next => exact h
      next r g ha => exact hcall t o c r g ha
    next => exact h

theorem Pool.step_log_cases (i : PoolInput Op ω ε) :
    (s.step program answer move i).1.log = s.log ∨ ∃ y, (s.step program answer move i).1.log = s.log ++ [y] :=
  Pool.step_shared (P := fun _ log => log = s.log ∨ ∃ y, log = s.log ++ [y]) (fun _ _ _ _ _ _ => .inr ⟨_, rfl⟩)
    (fun _ => .inl rfl) (.inl rfl) i

/-- A step that adds to the log is such a call. -/
theorem Pool.step_log {i : PoolInput Op ω ε} {y : Nat × Answered Call Resp}
    (h : (s.step program answer move i).1.log = s.log ++ [y]) :
    ∃ t o c k r g, i = .step t o ∧ s.threads t = .call (.other c) k ∧ answer o c s.shared = some (r, g) ∧
      y = (t, ⟨c, r⟩) := by
  have hsame : ¬s.log = s.log ++ [y] := by simp
  cases i with
  | start t op =>
    simp only [Pool.step] at h
    split at h
    · exact absurd h hsame
    · exact absurd h hsame
  | env e => exact absurd h hsame
  | step t o =>
    simp only [Pool.step] at h
    split at h
    next =>
      split at h
      · exact absurd h hsame
      · exact absurd h hsame
    next => exact absurd h hsame
    next c k ht =>
      split at h
      next => exact absurd h hsame
      next r g ha =>
        obtain ⟨-, hy⟩ := List.append_inj' h rfl
        exact ⟨t, o, c, k, r, g, rfl, ht, ha, (List.cons.inj hy).1.symm⟩
    next => exact absurd h hsame

/-- A call that is made passes. -/
theorem PoolInv.checked (h : PoolInv R view s) {i : PoolInput Op ω ε} (hf : Follows R view answer i s) {t : Nat} {o : ω}
    {c : Call} {k : Resp c → LockProg Call Resp α} {r : Resp c} {g : G} (hi : i = .step t o)
    (ht : s.threads t = .call (.other c) k) (ha : answer o c s.shared = some (r, g)) :
    R.check t c (view s.shared s.log) r := by
  obtain ⟨-, hn⟩ := hf t o c k r g hi ht ha
  have hg := h.threads t
  rw [ht] at hg
  cases hh : s.held t with
  | none =>
    rw [hh] at hg
    exact R.check_free hg.1
  | some n =>
    rw [hh] at hg
    exact (hg r _ (hn n hh)).1

theorem Guarded.update {threads : Nat → LockProg Call Resp α} {t : Nat} {p : LockProg Call Resp α}
    {Q : Option (Nat × A) → α → Prop} {at' : Nat → Option (Nat × A)} (hp : Guarded R t Q p (at' t))
    (ht : ∀ t' ≠ t, Guarded R t' Q (threads t') (at' t')) (t' : Nat) :
    Guarded R t' Q (Function.update threads t p t') (at' t') := by
  by_cases h : t' = t
  · subst h
    rw [Function.update_self]
    exact hp
  · rw [Function.update_of_ne h]
    exact ht t' h

theorem Pool.held_of_owner {t n : Nat} (h : s.owner = some (t, n)) (t' : Nat) :
    s.held t' = if t = t' then some n else none := by
  simp [held, h]

theorem Pool.held_of_free (h : s.owner = none) (t : Nat) : s.held t = none := by
  simp [held, h]

theorem Pool.owner_of_held {t n : Nat} (h : s.held t = some n) : s.owner = some (t, n) := by
  unfold held at h
  split at h
  next t' n' ho =>
    split at h
    next ht =>
      cases h
      rw [ho, ht]
    next => cases h
  next => cases h

theorem Pool.lock_cases {t : Nat} {o : Option (Nat × Nat)} {o' : Nat × Nat} (h : Pool.lock t o = some o') :
    o = none ∧ o' = (t, 0) ∨ ∃ n, o = some (t, n) ∧ o' = (t, n + 1) := by
  cases o with
  | none =>
    cases h
    exact .inl ⟨rfl, rfl⟩
  | some x =>
    obtain ⟨t', n⟩ := x
    simp only [Pool.lock] at h
    split at h
    next heq =>
      cases h
      subst heq
      exact .inr ⟨n, rfl, rfl⟩
    next => cases h

/-- While the mutex is free or held by `t`, another thread does not hold it. -/
theorem Pool.held_other {t t' : Nat} (ht : t' ≠ t) (h : s.owner = none ∨ ∃ n, s.owner = some (t, n)) : s.held t' = none := by
  rcases h with h | ⟨n, h⟩
  · exact Pool.held_of_free h t'
  · rw [Pool.held_of_owner h, if_neg (Ne.symm ht)]

theorem PoolInv.lock (h : PoolInv R view s) {t : Nat} {k : Unit → LockProg Call Resp α}
    (ht : s.threads t = .call .lock k) {owner : Nat × Nat} (hl : Pool.lock t s.owner = some owner) :
    PoolInv R view { s with owner := some owner, threads := Function.update s.threads t (k ()) } := by
  have hg := h.threads t
  rw [ht] at hg
  have hothers : ∀ {n : Nat}, (s.owner = none ∨ ∃ n, s.owner = some (t, n)) → ∀ t' ≠ t,
      Guarded R t' (fun s _ => s = none) (s.threads t')
        ((Pool.held { s with owner := some (t, n), threads := Function.update s.threads t (k ()) } t').map
          (·, view s.shared s.log)) := by
    intro n ho t' hne
    have hg' := h.threads t'
    rw [Pool.held_other hne ho] at hg'
    rw [Pool.held_other hne (.inr ⟨n, rfl⟩)]
    exact hg'
  rcases Pool.lock_cases hl with ⟨ho, rfl⟩ | ⟨n, ho, rfl⟩
  · refine ⟨nofun, Guarded.update ?_ (hothers (.inl ho))⟩
    rw [Pool.held_of_free ho] at hg
    rw [Pool.held_of_owner rfl, if_pos rfl]
    exact hg _ (h.free ho)
  · refine ⟨nofun, Guarded.update ?_ (hothers (.inr ⟨n, ho⟩))⟩
    rw [Pool.held_of_owner ho, if_pos rfl] at hg
    rw [Pool.held_of_owner rfl, if_pos rfl]
    exact hg

theorem PoolInv.unlock (h : PoolInv R view s) {t : Nat} {k : Unit → LockProg Call Resp α}
    (ht : s.threads t = .call .unlock k) :
    PoolInv R view { s with owner := Pool.unlock s.owner, threads := Function.update s.threads t (k ()) } := by
  have hg := h.threads t
  rw [ht] at hg
  cases hh : s.held t with
  | none =>
    rw [hh] at hg
    exact absurd hg id
  | some n =>
    have ho := Pool.owner_of_held hh
    rw [hh] at hg
    rw [ho]
    have hothers : ∀ t' ≠ t, Guarded R t' (fun s _ => s = none) (s.threads t') none := by
      intro t' hne
      have hg' := h.threads t'
      rwa [Pool.held_other hne (.inr ⟨n, ho⟩)] at hg'
    cases n with
    | zero =>
      refine ⟨fun _ => hg.1, Guarded.update hg.2 fun t' hne => ?_⟩
      rw [Pool.held_of_free rfl]
      exact hothers t' hne
    | succ n =>
      refine ⟨nofun, Guarded.update ?_ fun t' hne => ?_⟩
      · rw [Pool.held_of_owner rfl, if_pos rfl]
        exact hg
      · rw [Pool.held_other hne (.inr ⟨n, rfl⟩)]
        exact hothers t' hne

theorem PoolInv.call (h : PoolInv R view s) {t : Nat} {c : Call} {k : Resp c → LockProg Call Resp α}
    (ht : s.threads t = .call (.other c) k) {r : Resp c} {g : G}
    (hfree : R.free c → view g (s.log ++ [(t, ⟨c, r⟩)]) = view s.shared s.log)
    (hn : ∀ n, s.held t = some n → R.next t n c (view s.shared s.log) r (view g (s.log ++ [(t, ⟨c, r⟩)]))) :
    PoolInv R view
      { s with shared := g, threads := Function.update s.threads t (k r), log := s.log ++ [(t, ⟨c, r⟩)] } := by
  have hg := h.threads t
  rw [ht] at hg
  cases hh : s.held t with
  | none =>
    rw [hh] at hg
    have hview := hfree hg.1
    refine ⟨fun ho => ?_, Guarded.update ?_ fun t' hne => ?_⟩
    · rw [hview]
      exact h.free ho
    · show Guarded R t _ (k r) ((s.held t).map (·, view g _))
      rw [hh]
      exact hg.2 r
    · show Guarded R t' _ (s.threads t') ((s.held t').map (·, view g _))
      rw [hview]
      exact h.threads t'
  | some n =>
    rw [hh] at hg
    have ho := Pool.owner_of_held hh
    refine ⟨fun ho' => ?_, Guarded.update ?_ fun t' hne => ?_⟩
    · exact absurd (ho.symm.trans ho') nofun
    · show Guarded R t _ (k r) ((s.held t).map (·, view g _))
      rw [hh]
      exact (hg r _ (hn n hh)).2
    · have hg' := h.threads t'
      rw [Pool.held_other hne (.inr ⟨n, ho⟩)] at hg'
      show Guarded R t' _ (s.threads t') ((s.held t').map (·, view g _))
      rw [Pool.held_other hne (.inr ⟨n, ho⟩)]
      exact hg'

/-- A step of the pool keeps the rules, if the call it makes does. -/
theorem PoolInv.step (hops : ∀ op t, Guarded R t (fun s _ => s = none) (program op) none)
    (hmove : ∀ e g log, view (move e g) log = view g log) (h : PoolInv R view s) {i : PoolInput Op ω ε}
    (hf : Follows R view answer i s) : PoolInv R view (Pool.step program answer move i s).1 := by
  cases i with
  | start t op =>
    have hstart : (∀ c k, s.threads t ≠ .call c k) →
        PoolInv R view { s with threads := Function.update s.threads t (program op) } := by
      intro hidle
      refine ⟨h.free, Guarded.update ?_ fun t' _ => h.threads t'⟩
      have hg := h.threads t
      cases ht : s.threads t with
      | ret x =>
        rw [ht] at hg
        have hnone : (s.held t).map (·, view s.shared s.log) = none := hg
        show Guarded R t _ (program op) ((s.held t).map (·, view s.shared s.log))
        rw [hnone]
        exact hops op t
      | throw =>
        rw [ht] at hg
        exact absurd hg id
      | call c k => exact absurd ht (hidle c k)
    simp only [Pool.step]
    split
    next => exact h
    next hidle => exact hstart hidle
  | step t o =>
    simp only [Pool.step]
    split
    next k ht =>
      split
      next => exact h
      next owner hl => exact h.lock ht hl
    next k ht => exact h.unlock ht
    next c k ht =>
      split
      next => exact h
      next r g ha =>
        obtain ⟨hfree, hn⟩ := hf t o c k r g rfl ht ha
        exact h.call ht hfree hn
    next => exact h
  | env e =>
    refine ⟨fun ho => ?_, fun t => ?_⟩
    · show R.I (view (move e s.shared) s.log)
      rw [hmove]
      exact h.free ho
    · show Guarded R t _ (s.threads t) ((s.held t).map (·, view (move e s.shared) s.log))
      rw [hmove]
      exact h.threads t

end

end TR
