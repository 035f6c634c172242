import TcpRedirector.Proof.Framework.Run
import TcpRedirector.TCB.SrwLock

/-!
# What a reader/writer lock makes atomic

An object in memory stands for an abstract value (`ObjectSpec.Rep`); part of
it may be read without the lock (`visible`). `Holding` says of a thread that
holds the lock what the rest of its operation does, alone: it ends after
finitely many calls, in memory that stands for the value after the operation,
with its result; in shared mode it writes nothing, and what is visible changes
once at most. `Waiting` says that an operation does so from every memory it
may find when it gets the lock. If all operations do, every run of the threads
has the history of an atomic object (`SrwSim.run`), and a thread that holds
the lock returns if it is run on (`SrwSim.states_return`).
-/

namespace TR

variable {Call : Type} {Resp : Call → Type} {S G A Op α ω V : Type}

structure ObjectSpec (G A Op α V : Type) where
  apply : Op → A → α × A
  Rep : G → A → Prop
  visible : G → V
  shown : A → V
  visible_of_rep {g : G} {a : A} : Rep g a → visible g = shown a

section

variable (R : ObjectSpec G A Op α V) (body : S → SrwProg Call Resp S α) (answer : ω → (c : Call) → G → Resp c × G)

/-- The rest of an operation that holds the lock in this mode, is to return `x`
and to leave `a`; the flag tells whether `a` is visible already. -/
inductive Holding (mode : LockMode) (x : α) (a : A) : Bool → SrwProg Call Resp S α → G → Prop
  | loop {done : Bool} {head : S} {g : G} : Holding mode x a done (body head) g → Holding mode x a done (.ret (.inl head)) g
  | call {done : Bool} {c : Call} {k : Resp c → SrwProg Call Resp S α} {g : G} :
      (∀ o, R.visible (answer o c g).2 = R.visible g) → (mode = .shared → ∀ o, (answer o c g).2 = g) →
      (∀ o, Holding mode x a done (k (answer o c g).1) (answer o c g).2) → Holding mode x a done (.call (.other c) k) g
  | commit {c : Call} {k : Resp c → SrwProg Call Resp S α} {g : G} :
      mode = .exclusive → (∀ o, R.visible (answer o c g).2 = R.shown a) →
      (∀ o, Holding mode x a true (k (answer o c g).1) (answer o c g).2) → Holding mode x a false (.call (.other c) k) g
  | release {done : Bool} {k : Unit → SrwProg Call Resp S α} {g : G} :
      R.Rep g a → k () = .ret (.inr x) → Holding mode x a done (.call (.release mode) k) g

/-- An operation that has not begun. -/
inductive Waiting (op : Op) : SrwProg Call Resp S α → Prop
  | loop {head : S} : Waiting op (body head) → Waiting op (.ret (.inl head))
  | acquire {mode : LockMode} {k : Unit → SrwProg Call Resp S α} :
      (∀ g a, R.Rep g a → Holding R body answer mode (R.apply op a).1 (R.apply op a).2 false (k ()) g) →
      (mode = .shared → ∀ a, (R.apply op a).2 = a) → Waiting op (.call (.acquire mode) k)
  /-- Without the lock it makes one call, which reads what is visible. -/
  | free {c : Call} {k : Resp c → SrwProg Call Resp S α} :
      (∀ o g, (answer o c g).2 = g) → (∀ a, (R.apply op a).2 = a) →
      (∀ o g a, R.visible g = R.shown a → k (answer o c g).1 = .ret (.inr (R.apply op a).1)) → Waiting op (.call (.other c) k)

/-- How a thread stands in the atomic object, by how it holds the lock. -/
def ThreadSim (g : G) (a : A) : Option LockMode → SrwProg Call Resp S α → AtomicThread Op α → Prop
  | none, p, .idle => ∃ x, p = .ret (.inr x)
  | none, p, .called op => Waiting R body answer op p
  | some mode, p, .called op =>
    Holding R body answer mode (R.apply op a).1 (R.apply op a).2 false p g ∧ (mode = .shared → (R.apply op a).2 = a)
  | some mode, p, .applied x => mode = .exclusive ∧ Holding R body answer mode x a true p g
  | _, _, _ => False

end

namespace SrwPool

variable {s : SrwPool Call Resp S G α} {t t' : Nat}

/-- How a thread holds the lock. -/
def mode (s : SrwPool Call Resp S G α) (t : Nat) : Option LockMode :=
  if s.writer = some t then some .exclusive else if t ∈ s.readers then some .shared else none

theorem mode_eq_exclusive_iff : s.mode t = some .exclusive ↔ s.writer = some t := by
  unfold mode
  split
  next h => simp [h]
  next h =>
    split
    next => simp [h]
    next => simp [h]

end SrwPool

section

variable (R : ObjectSpec G A Op α V) (body : S → SrwProg Call Resp S α) (answer : ω → (c : Call) → G → Resp c × G)

/-- The threads stand as in the atomic object, and while nobody writes the
memory stands for its value. -/
structure SrwSim (s : SrwPool Call Resp S G α) (m : AtomicObject A Op α) : Prop where
  visible : R.visible s.shared = R.shown m.object
  rep : s.writer = none → R.Rep s.shared m.object
  readers : s.writer ≠ none → s.readers = []
  once : s.readers.Nodup
  threads : ∀ t, ThreadSim R body answer s.shared m.object (s.mode t) (s.threads t) (m.threads t)

end

/-! ## What a thread is about to do -/

section

variable {R : ObjectSpec G A Op α V} {body : S → SrwProg Call Resp S α} {answer : ω → (c : Call) → G → Resp c × G}
  {mode : LockMode} {lock : Option LockMode} {x : α} {a a' : A} {g g' : G} {done : Bool} {p : SrwProg Call Resp S α} {op : Op}
  {w : AtomicThread Op α}

theorem Holding.ne_returned (h : Holding R body answer mode x a done p g) (y : α) : p ≠ .ret (.inr y) := by
  rintro rfl
  cases h

theorem Waiting.ne_returned (h : Waiting R body answer op p) (y : α) : p ≠ .ret (.inr y) := by
  rintro rfl
  cases h

/-- A thread without the lock does not depend on the memory. -/
theorem ThreadSim.unlocked (h : ThreadSim R body answer g a none p w) : ThreadSim R body answer g' a' none p w := by
  cases w with
  | idle => exact h
  | called op => exact h
  | applied x => exact h

theorem ThreadSim.of_returned (h : ThreadSim R body answer g a lock (.ret (.inr x)) w) : lock = none ∧ w = .idle := by
  cases lock with
  | none =>
    cases w with
    | idle => exact ⟨rfl, rfl⟩
    | called op => exact absurd rfl (Waiting.ne_returned h x)
    | applied y => exact absurd h id
  | some mode =>
    cases w with
    | idle => exact absurd h id
    | called op => exact absurd rfl (h.1.ne_returned x)
    | applied y => exact absurd rfl (h.2.ne_returned x)

theorem ThreadSim.loop {head : S} (h : ThreadSim R body answer g a lock (.ret (.inl head)) w) :
    ThreadSim R body answer g a lock (body head) w ∧ ∀ x, body head ≠ .ret (.inr x) := by
  cases lock with
  | none =>
    cases w with
    | idle =>
      obtain ⟨x, hx⟩ := h
      cases hx
    | called op =>
      have hbody : Waiting R body answer op (body head) := by cases h with | loop h => exact h
      exact ⟨hbody, hbody.ne_returned⟩
    | applied y => exact absurd h id
  | some mode =>
    cases w with
    | idle => exact absurd h id
    | called op =>
      have hbody : Holding R body answer mode (R.apply op a).1 (R.apply op a).2 false (body head) g := by
        cases h.1 with | loop h => exact h
      exact ⟨⟨hbody, h.2⟩, hbody.ne_returned⟩
    | applied y =>
      have hbody : Holding R body answer mode y a true (body head) g := by cases h.2 with | loop h => exact h
      exact ⟨⟨h.1, hbody⟩, hbody.ne_returned⟩

theorem ThreadSim.acquire {k : Unit → SrwProg Call Resp S α} (h : ThreadSim R body answer g a lock (.call (.acquire mode) k) w) :
    lock = none ∧ ∀ g a, R.Rep g a → ThreadSim R body answer g a (some mode) (k ()) w ∧ ∀ x, k () ≠ .ret (.inr x) := by
  cases lock with
  | none =>
    cases w with
    | idle =>
      obtain ⟨x, hx⟩ := h
      cases hx
    | called op =>
      cases h with
      | acquire hhold hread => exact ⟨rfl, fun g a hrep => ⟨⟨hhold g a hrep, fun hm => hread hm a⟩, (hhold g a hrep).ne_returned⟩⟩
    | applied y => exact absurd h id
  | some mode' =>
    cases w with
    | idle => exact absurd h id
    | called op => cases h.1
    | applied y => cases h.2

theorem ThreadSim.release {k : Unit → SrwProg Call Resp S α} (h : ThreadSim R body answer g a lock (.call (.release mode) k) w) :
    lock = some mode ∧ ∃ x, k () = .ret (.inr x) ∧
      ((∃ op, w = .called op ∧ x = (R.apply op a).1 ∧ R.Rep g (R.apply op a).2 ∧ (mode = .shared → (R.apply op a).2 = a)) ∨
        w = .applied x ∧ mode = .exclusive ∧ R.Rep g a) := by
  cases lock with
  | none =>
    cases w with
    | idle =>
      obtain ⟨x, hx⟩ := h
      cases hx
    | called op => cases h
    | applied y => exact absurd h id
  | some mode' =>
    cases w with
    | idle => exact absurd h id
    | called op =>
      obtain ⟨hhold, hread⟩ := h
      cases hhold with
      | release hrep hk => exact ⟨rfl, _, hk, .inl ⟨op, rfl, rfl, hrep, hread⟩⟩
    | applied y =>
      obtain ⟨hmode, hhold⟩ := h
      cases hhold with
      | release hrep hk => exact ⟨rfl, _, hk, .inr ⟨rfl, hmode, hrep⟩⟩

/-- A call of the operation itself: without the lock, or within it, with what
is visible as it was or as it is to be. -/
inductive OtherCall (R : ObjectSpec G A Op α V) (body : S → SrwProg Call Resp S α) (answer : ω → (c : Call) → G → Resp c × G)
    (g : G) (a : A) (c : Call) (k : Resp c → SrwProg Call Resp S α) (w : AtomicThread Op α) : Option LockMode → Prop
  | free (op : Op) : w = .called op → (∀ o, (answer o c g).2 = g) → (R.apply op a).2 = a →
      (R.visible g = R.shown a → ∀ o, k (answer o c g).1 = .ret (.inr (R.apply op a).1)) → OtherCall R body answer g a c k w none
  | keep (mode : LockMode) : (∀ o, R.visible (answer o c g).2 = R.visible g) → (mode = .shared → ∀ o, (answer o c g).2 = g) →
      (∀ o, ThreadSim R body answer (answer o c g).2 a (some mode) (k (answer o c g).1) w) →
      (∀ o x, k (answer o c g).1 ≠ .ret (.inr x)) → OtherCall R body answer g a c k w (some mode)
  | commit (op : Op) : w = .called op → (∀ o, R.visible (answer o c g).2 = R.shown (R.apply op a).2) →
      (∀ o, ThreadSim R body answer (answer o c g).2 (R.apply op a).2 (some .exclusive) (k (answer o c g).1)
        (.applied (R.apply op a).1)) →
      (∀ o x, k (answer o c g).1 ≠ .ret (.inr x)) → OtherCall R body answer g a c k w (some .exclusive)

theorem ThreadSim.other {c : Call} {k : Resp c → SrwProg Call Resp S α}
    (h : ThreadSim R body answer g a lock (.call (.other c) k) w) : OtherCall R body answer g a c k w lock := by
  cases lock with
  | none =>
    cases w with
    | idle =>
      obtain ⟨x, hx⟩ := h
      cases hx
    | called op =>
      cases h with
      | free hsame hkeep hret => exact .free op rfl (fun o => hsame o g) (hkeep a) fun hvis o => hret o g a hvis
    | applied y => exact absurd h id
  | some mode =>
    cases w with
    | idle => exact absurd h id
    | called op =>
      obtain ⟨hhold, hread⟩ := h
      cases hhold with
      | call hvis hsame hk => exact .keep mode hvis hsame (fun o => ⟨hk o, hread⟩) fun o => (hk o).ne_returned
      | commit hmode hvis hk =>
        subst hmode
        exact .commit op rfl hvis (fun o => ⟨rfl, hk o⟩) fun o => (hk o).ne_returned
    | applied y =>
      obtain ⟨hmode, hhold⟩ := h
      cases hhold with
      | call hvis hsame hk => exact .keep mode hvis hsame (fun o => ⟨hmode, hk o⟩) fun o => (hk o).ne_returned

end

/-! ## A step of the pool -/

namespace SrwPool

variable {s s' : SrwPool Call Resp S G α} {t t' : Nat} {p : SrwProg Call Resp S α} {x : α}

theorem goto_silent (h : ∀ x, p ≠ .ret (.inr x)) : (s.goto t p : _ × Option (ObjectEvent Op α)).2 = none := by
  unfold goto
  split
  next x => exact absurd rfl (h x)
  next => rfl

theorem mode_of_no_writer (h : s.writer = none) (t : Nat) : s.mode t = if t ∈ s.readers then some .shared else none := by
  rw [mode, h, if_neg (Option.some_ne_none t).symm]

/-- What a thread that gets the lock finds. -/
theorem acquire_cases {mode : LockMode} (h : s.acquire t mode = some s') :
    s.writer = none ∧ (mode = .shared ∧ s' = { s with readers := t :: s.readers } ∨
      mode = .exclusive ∧ s.readers = [] ∧ s' = { s with writer := some t }) := by
  unfold acquire at h
  split at h
  next hw => exact ⟨hw, .inl ⟨rfl, (Option.some.inj h).symm⟩⟩
  next hw =>
    split at h
    next hr => exact ⟨hw, .inr ⟨rfl, hr, (Option.some.inj h).symm⟩⟩
    next => cases h
  next => cases h

end SrwPool

section

variable {R : ObjectSpec G A Op α V} {body : S → SrwProg Call Resp S α} {answer : ω → (c : Call) → G → Resp c × G}
  {s s' : SrwPool Call Resp S G α} {m m' : AtomicObject A Op α} {t : Nat}

/-- The other threads stand as before if their locks are the same, and either
the memory is or they hold none. -/
theorem SrwSim.others (h : SrwSim R body answer s m) (hs : ∀ t' ≠ t, s'.threads t' = s.threads t')
    (hm : ∀ t' ≠ t, m'.threads t' = m.threads t') (hmode : ∀ t' ≠ t, s'.mode t' = s.mode t')
    (hsame : (s'.shared = s.shared ∧ m'.object = m.object) ∨ ∀ t' ≠ t, s.mode t' = none)
    (ht : ThreadSim R body answer s'.shared m'.object (s'.mode t) (s'.threads t) (m'.threads t)) (t' : Nat) :
    ThreadSim R body answer s'.shared m'.object (s'.mode t') (s'.threads t') (m'.threads t') := by
  by_cases hne : t' = t
  · rw [hne]
    exact ht
  · have hold := h.threads t'
    rw [hs t' hne, hm t' hne, hmode t' hne]
    rcases hsame with ⟨hg, ha⟩ | hnone
    · rwa [hg, ha]
    · rw [hnone t' hne] at hold ⊢
      exact hold.unlocked

theorem SrwSim.alone (h : SrwSim R body answer s m) (hw : s.writer = some t) : ∀ t' ≠ t, s.mode t' = none := by
  intro t' hne
  have hr := h.readers (by rw [hw]; exact Option.some_ne_none t)
  rw [SrwPool.mode, hw, hr, if_neg fun heq => hne (Option.some.inj heq).symm, if_neg List.not_mem_nil]

theorem SrwSim.writer_of_shared (h : SrwSim R body answer s m) (ht : s.mode t = some .shared) :
    s.writer = none ∧ t ∈ s.readers := by
  unfold SrwPool.mode at ht
  split at ht
  next => cases ht
  next =>
    split at ht
    next hr =>
      refine ⟨?_, hr⟩
      by_contra hw
      rw [h.readers hw] at hr
      exact List.not_mem_nil hr
    next => cases ht

variable (R body answer) in
/-- What a step leaves and shows, the atomic object does in some steps. -/
def Answers (y : SrwPool Call Resp S G α × Option (ObjectEvent Op α)) (m : AtomicObject A Op α) : Prop :=
  ∃ js, SrwSim R body answer y.1 (run (AtomicObject.step R.apply) js m) ∧
    history (trace (AtomicObject.step R.apply) js m) = y.2.toList

variable {y : SrwPool Call Resp S G α × Option (ObjectEvent Op α)} {x : α} {op : Op}

theorem Answers.none (h : SrwSim R body answer y.1 m) (hy : y.2 = .none) : Answers R body answer y m :=
  ⟨[], h, by rw [hy]; rfl⟩

theorem Answers.call (ht : m.threads t = .idle) (hy : y.2 = some (.called t op))
    (h : SrwSim R body answer y.1 { m with threads := Function.update m.threads t (.called op) }) :
    Answers R body answer y m := by
  have hstep : AtomicObject.step R.apply (.call t op) m =
      ({ m with threads := Function.update m.threads t (.called op) }, some (.called t op)) := by
    rw [AtomicObject.step, ht]
  refine ⟨[.call t op], ?_, ?_⟩
  · rw [run, hstep]
    exact h
  · rw [trace, hstep, hy]
    rfl

theorem Answers.return (ht : m.threads t = .applied x) (hy : y.2 = some (.returned t x))
    (h : SrwSim R body answer y.1 { m with threads := Function.update m.threads t .idle }) : Answers R body answer y m := by
  have hstep : AtomicObject.step R.apply (.return t) m =
      ({ m with threads := Function.update m.threads t .idle }, some (.returned t x)) := by
    rw [AtomicObject.step, ht]
  refine ⟨[.return t], ?_, ?_⟩
  · rw [run, hstep]
    exact h
  · rw [trace, hstep, hy]
    rfl

/-- First the operation of a thread is applied. -/
theorem Answers.apply (ht : m.threads t = .called op)
    (h : Answers R body answer y ⟨(R.apply op m.object).2, Function.update m.threads t (.applied (R.apply op m.object).1)⟩) :
    Answers R body answer y m := by
  have hstep : AtomicObject.step R.apply (.apply t) m =
      (⟨(R.apply op m.object).2, Function.update m.threads t (.applied (R.apply op m.object).1)⟩, .none) := by
    rw [AtomicObject.step, ht]
  obtain ⟨js, hsim, hhistory⟩ := h
  refine ⟨.apply t :: js, ?_, ?_⟩
  · rw [run, hstep]
    exact hsim
  · rw [trace, hstep]
    exact hhistory

/-- Applied and returned at once. -/
theorem Answers.apply_return (ht : m.threads t = .called op) (hy : y.2 = some (.returned t (R.apply op m.object).1))
    (h : SrwSim R body answer y.1 ⟨(R.apply op m.object).2, Function.update m.threads t .idle⟩) : Answers R body answer y m := by
  refine .apply ht (.return (Function.update_self ..) hy ?_)
  show SrwSim R body answer y.1 ⟨_, Function.update (Function.update m.threads t _) t .idle⟩
  rw [Function.update_idem]
  exact h

theorem SrwSim.callOp {enter : Op → S} (hops : ∀ op, Waiting R body answer op (.ret (.inl (enter op))))
    (h : SrwSim R body answer s m) (ht : s.threads t = .ret (.inr x)) :
    Answers R body answer
      ({ s with threads := Function.update s.threads t (.ret (.inl (enter op))) }, some (.called t op)) m := by
  have hold := h.threads t
  rw [ht] at hold
  obtain ⟨hmode, hidle⟩ := hold.of_returned
  refine .call hidle rfl ⟨h.visible, h.rep, h.readers, h.once, h.others (t := t) ?_ ?_ (fun _ _ => rfl) (.inl ⟨rfl, rfl⟩) ?_⟩
  · exact fun t' hne => Function.update_of_ne hne ..
  · exact fun t' hne => Function.update_of_ne hne ..
  · show ThreadSim R body answer s.shared m.object (s.mode t) (Function.update s.threads t _ t) (Function.update m.threads t _ t)
    rw [hmode, Function.update_self, Function.update_self]
    exact hops op

theorem SrwSim.loop (h : SrwSim R body answer s m) {head : S} (ht : s.threads t = .ret (.inl head)) :
    Answers R body answer (s.goto t (body head)) m := by
  have hold := h.threads t
  rw [ht] at hold
  obtain ⟨hbody, hne⟩ := hold.loop
  refine .none ⟨h.visible, h.rep, h.readers, h.once, h.others (t := t) ?_ (fun _ _ => rfl) (fun _ _ => rfl) (.inl ⟨rfl, rfl⟩) ?_⟩
    (SrwPool.goto_silent hne)
  · exact fun t' hne => Function.update_of_ne hne ..
  · show ThreadSim R body answer s.shared m.object (s.mode t) (Function.update s.threads t _ t) (m.threads t)
    rw [Function.update_self]
    exact hbody

theorem SrwSim.acquire (h : SrwSim R body answer s m) {mode : LockMode} {k : Unit → SrwProg Call Resp S α}
    (ht : s.threads t = .call (.acquire mode) k) (ha : s.acquire t mode = some s') :
    Answers R body answer (s'.goto t (k ())) m := by
  have hold := h.threads t
  rw [ht] at hold
  obtain ⟨hnone, hhold⟩ := hold.acquire
  obtain ⟨hw, hcases⟩ := SrwPool.acquire_cases ha
  obtain ⟨hsim, hne⟩ := hhold s.shared m.object (h.rep hw)
  have hnot : t ∉ s.readers := by
    intro hr
    rw [SrwPool.mode_of_no_writer hw, if_pos hr] at hnone
    cases hnone
  refine .none ?_ (SrwPool.goto_silent hne)
  rcases hcases with ⟨rfl, rfl⟩ | ⟨rfl, hr, rfl⟩
  · have hmode : ∀ t', SrwPool.mode { s with readers := t :: s.readers } t' = if t' = t then some .shared else s.mode t' := by
      intro t'
      rw [SrwPool.mode_of_no_writer hw, SrwPool.mode_of_no_writer (by exact hw)]
      by_cases heq : t' = t
      · rw [if_pos heq, if_pos (heq ▸ List.mem_cons_self)]
      · rw [if_neg heq]
        exact if_congr (by rw [List.mem_cons, or_iff_right heq]) rfl rfl
    refine ⟨h.visible, h.rep, fun hw' => absurd hw hw', List.nodup_cons.mpr ⟨hnot, h.once⟩,
      h.others (t := t) ?_ (fun _ _ => rfl) ?_ (.inl ⟨rfl, rfl⟩) ?_⟩
    · exact fun t' hne => Function.update_of_ne hne ..
    · exact fun t' hne => (hmode t').trans (if_neg hne)
    · show ThreadSim R body answer s.shared m.object (SrwPool.mode { s with readers := t :: s.readers } t)
        (Function.update s.threads t _ t) (m.threads t)
      rw [hmode, if_pos rfl, Function.update_self]
      exact hsim
  · refine ⟨h.visible, fun hw' => absurd hw' (Option.some_ne_none t), fun _ => hr, h.once,
      h.others (t := t) ?_ (fun _ _ => rfl) ?_ (.inl ⟨rfl, rfl⟩) ?_⟩
    · exact fun t' hne => Function.update_of_ne hne ..
    · intro t' hne
      show SrwPool.mode { s with writer := some t } t' = s.mode t'
      rw [SrwPool.mode, SrwPool.mode, hw, hr, if_neg fun heq => hne (Option.some.inj heq).symm,
        if_neg (Option.some_ne_none t').symm]
    · show ThreadSim R body answer s.shared m.object (SrwPool.mode { s with writer := some t } t)
        (Function.update s.threads t _ t) (m.threads t)
      rw [SrwPool.mode_eq_exclusive_iff.mpr rfl, Function.update_self]
      exact hsim

/-- The thread no longer holds the lock, and has returned. -/
theorem SrwSim.released (h : SrwSim R body answer s m) {mode : LockMode} (hmode : s.mode t = some mode)
    (hrep : R.Rep s.shared m'.object) (hsame : mode = .shared → m'.object = m.object)
    (hm : ∀ t' ≠ t, m'.threads t' = m.threads t') (hidle : m'.threads t = .idle) :
    SrwSim R body answer ((s.release t mode).goto t (.ret (.inr x)) : _ × Option (ObjectEvent Op α)).1 m' := by
  cases mode with
  | shared =>
    obtain ⟨hw, hr⟩ := h.writer_of_shared hmode
    have hmode' : ∀ t', SrwPool.mode { s with readers := s.readers.erase t } t' = if t' = t then none else s.mode t' := by
      intro t'
      rw [SrwPool.mode_of_no_writer hw, SrwPool.mode_of_no_writer (by exact hw)]
      by_cases heq : t' = t
      · rw [if_pos heq, if_neg (heq ▸ h.once.not_mem_erase)]
      · rw [if_neg heq]
        exact if_congr (List.mem_erase_of_ne heq) rfl rfl
    refine ⟨R.visible_of_rep hrep, fun _ => hrep, fun hw' => absurd hw hw', h.once.erase t,
      h.others (t := t) ?_ hm ?_ (.inl ⟨rfl, hsame rfl⟩) ?_⟩
    · exact fun t' hne => Function.update_of_ne hne ..
    · exact fun t' hne => (hmode' t').trans (if_neg hne)
    · show ThreadSim R body answer s.shared m'.object (SrwPool.mode { s with readers := s.readers.erase t } t)
        (Function.update s.threads t _ t) (m'.threads t)
      rw [hmode', if_pos rfl, Function.update_self, hidle]
      exact ⟨x, rfl⟩
  | exclusive =>
    have hw := SrwPool.mode_eq_exclusive_iff.mp hmode
    have hr := h.readers (by rw [hw]; exact Option.some_ne_none t)
    have hmode' : ∀ t', SrwPool.mode { s with writer := none } t' = none := by
      intro t'
      rw [SrwPool.mode_of_no_writer (by rfl), hr, if_neg List.not_mem_nil]
    refine ⟨R.visible_of_rep hrep, fun _ => hrep, fun hw' => absurd rfl hw', h.once,
      h.others (t := t) ?_ hm ?_ (.inr (h.alone hw)) ?_⟩
    · exact fun t' hne => Function.update_of_ne hne ..
    · exact fun t' hne => (hmode' t').trans (h.alone hw t' hne).symm
    · show ThreadSim R body answer s.shared m'.object (SrwPool.mode { s with writer := none } t)
        (Function.update s.threads t _ t) (m'.threads t)
      rw [hmode', Function.update_self, hidle]
      exact ⟨x, rfl⟩

theorem SrwSim.release (h : SrwSim R body answer s m) {mode : LockMode} {k : Unit → SrwProg Call Resp S α}
    (ht : s.threads t = .call (.release mode) k) : Answers R body answer ((s.release t mode).goto t (k ())) m := by
  have hold := h.threads t
  rw [ht] at hold
  obtain ⟨hmode, x, hk, hcases⟩ := hold.release
  rw [hk]
  rcases hcases with ⟨op, hw, rfl, hrep, hsame⟩ | ⟨hw, -, hrep⟩
  · refine .apply_return hw rfl (h.released hmode hrep hsame ?_ (Function.update_self ..))
    exact fun t' hne => Function.update_of_ne hne ..
  · refine .return hw rfl (h.released hmode hrep (fun _ => rfl) ?_ (Function.update_self ..))
    exact fun t' hne => Function.update_of_ne hne ..

theorem SrwSim.other (h : SrwSim R body answer s m) {c : Call} {k : Resp c → SrwProg Call Resp S α}
    (ht : s.threads t = .call (.other c) k) (o : ω) :
    Answers R body answer (SrwPool.goto { s with shared := (answer o c s.shared).2 } t (k (answer o c s.shared).1)) m := by
  have hold := h.threads t
  rw [ht] at hold
  have hcall := hold.other
  generalize hmode : s.mode t = lock at hcall
  cases hcall with
  | free op hw hsame happly hret =>
    have hreturn := hret h.visible o
    refine .apply_return hw (by rw [hreturn]; rfl) ?_
    have hg : SrwSim R body answer { s with threads := Function.update s.threads t (k (answer o c s.shared).1) }
        ⟨m.object, Function.update m.threads t .idle⟩ := by
      refine ⟨h.visible, h.rep, h.readers, h.once, h.others (t := t) ?_ ?_ (fun _ _ => rfl) (.inl ⟨rfl, rfl⟩) ?_⟩
      · exact fun t' hne => Function.update_of_ne hne ..
      · exact fun t' hne => Function.update_of_ne hne ..
      · show ThreadSim R body answer s.shared m.object (s.mode t) (Function.update s.threads t _ t)
          (Function.update m.threads t _ t)
        rw [hmode, Function.update_self, Function.update_self]
        exact ⟨_, hreturn⟩
    rw [happly]
    show SrwSim R body answer { s with
      shared := (answer o c s.shared).2, threads := Function.update s.threads t (k (answer o c s.shared).1) } _
    rw [hsame o]
    exact hg
  | keep mode hvis hsame hsim hne =>
    have halone : (mode = .shared ∧ s.writer = none) ∨ s.writer = some t := by
      cases mode with
      | shared => exact .inl ⟨rfl, (h.writer_of_shared hmode).1⟩
      | exclusive => exact .inr (SrwPool.mode_eq_exclusive_iff.mp hmode)
    refine .none ⟨(hvis o).trans h.visible, fun hw => ?_, h.readers, h.once,
      h.others (t := t) ?_ (fun _ _ => rfl) (fun _ _ => rfl) ?_ ?_⟩ (SrwPool.goto_silent (hne o))
    · rcases halone with ⟨hm, -⟩ | hw'
      · show R.Rep (answer o c s.shared).2 m.object
        rw [hsame hm o]
        exact h.rep hw
      · exact absurd (hw'.symm.trans hw) (Option.some_ne_none t)
    · exact fun t' hne => Function.update_of_ne hne ..
    · rcases halone with ⟨hm, -⟩ | hw'
      · exact .inl ⟨hsame hm o, rfl⟩
      · exact .inr (h.alone hw')
    · show ThreadSim R body answer (answer o c s.shared).2 m.object (s.mode t) (Function.update s.threads t _ t) (m.threads t)
      rw [hmode, Function.update_self]
      exact hsim o
  | commit op hw hvis hsim hne =>
    have hwriter := SrwPool.mode_eq_exclusive_iff.mp hmode
    refine .apply hw (.none ⟨hvis o, fun hw' => ?_, h.readers, h.once, h.others (t := t) ?_ ?_ (fun _ _ => rfl)
      (.inr (h.alone hwriter)) ?_⟩
      (SrwPool.goto_silent (hne o)))
    · exact absurd (hwriter.symm.trans hw') (Option.some_ne_none t)
    · exact fun t' hne => Function.update_of_ne hne ..
    · exact fun t' hne => Function.update_of_ne hne ..
    · show ThreadSim R body answer (answer o c s.shared).2 (R.apply op m.object).2 (s.mode t) (Function.update s.threads t _ t)
        (Function.update m.threads t _ t)
      rw [hmode, Function.update_self, Function.update_self]
      exact hsim o

variable {enter : Op → S}

theorem SrwSim.step (hops : ∀ op, Waiting R body answer op (.ret (.inl (enter op)))) (h : SrwSim R body answer s m)
    (i : SrwInput Op ω) : Answers R body answer (SrwPool.step enter body answer i s) m := by
  cases i with
  | call t op =>
    simp only [SrwPool.step]
    split
    next x ht => exact h.callOp hops ht
    next => exact .none h rfl
  | step t o =>
    simp only [SrwPool.step]
    split
    next head ht => exact h.loop ht
    next mode k ht =>
      split
      next => exact .none h rfl
      next s' ha => exact h.acquire ht ha
    next mode k ht => exact h.release ht
    next c k ht => exact h.other ht o
    next => exact .none h rfl

theorem SrwSim.start {g : G} {a : A} (h : R.Rep g a) (idle : α) : SrwSim R body answer (.start g idle) (.start a) where
  visible := R.visible_of_rep h
  rep := fun _ => h
  readers := fun _ => rfl
  once := List.nodup_nil
  threads t := by
    have hmode : (SrwPool.start g idle : SrwPool Call Resp S G α).mode t = none := SrwPool.mode_of_no_writer rfl t
    rw [hmode]
    exact ⟨idle, rfl⟩

/-- Every run has the history of an atomic object, and ends as it does. -/
theorem SrwSim.run (hops : ∀ op, Waiting R body answer op (.ret (.inl (enter op)))) (h : SrwSim R body answer s m)
    (is : List (SrwInput Op ω)) :
    ∃ js, SrwSim R body answer (TR.run (SrwPool.step enter body answer) is s) (TR.run (AtomicObject.step R.apply) js m) ∧
      history (trace (AtomicObject.step R.apply) js m) = history (trace (SrwPool.step enter body answer) is s) := by
  induction is generalizing s m with
  | nil => exact ⟨[], h, rfl⟩
  | cons i is ih =>
    obtain ⟨js₁, hsim, hhistory⟩ := h.step hops i
    obtain ⟨js₂, hsim₂, hhistory₂⟩ := ih hsim
    refine ⟨js₁ ++ js₂, ?_, ?_⟩
    · rw [run_append]
      exact hsim₂
    · rw [trace_append, history, List.filterMap_append]
      show history _ ++ history _ = _
      rw [hhistory, hhistory₂, trace, history, history, List.filterMap_cons]
      cases (SrwPool.step enter body answer i s).2 with
      | none => rfl
      | some event => rfl

/-! ## Holders of the lock return -/

theorem states_add {σ ι : Type} (step : ι → σ → σ × Option (ObjectEvent Op α)) (f : Nat → ι) (s : σ) (k n : Nat) :
    states step f s (k + n) = states step (fun j => f (k + j)) (states step f s k) n := by
  induction n with
  | zero => rfl
  | succ n ih => exact congrArg (fun s => (step (f (k + n)) s).1) ih

/-- What comes again and again does so from any point on. -/
theorem again_add {P : Nat → Prop} (h : ∀ n, ∃ k ≥ n, P k) (m n : Nat) : ∃ k ≥ n, P (m + k) := by
  obtain ⟨k, hkn, hk⟩ := h (m + n)
  refine ⟨k - m, by omega, ?_⟩
  rwa [Nat.add_sub_cancel' (by omega)]

/-- The other threads leave what a holder of the lock depends on. -/
theorem SrwSim.step_other (h : SrwSim R body answer s m) (enter : Op → S) {mode : LockMode} (ht : s.mode t = some mode)
    {i : SrwInput Op ω} (hi : ∀ o, i ≠ .step t o) :
    let s' := (SrwPool.step enter body answer i s).1
    s'.threads t = s.threads t ∧ s'.shared = s.shared ∧ s'.mode t = some mode := by
  have hreturned : ∀ x, s.threads t ≠ .ret (.inr x) := by
    intro x hx
    have hold := h.threads t
    rw [hx] at hold
    rw [hold.of_returned.1] at ht
    cases ht
  have halone : ∀ t' ≠ t, s.mode t' ≠ some .exclusive := by
    intro t' hne hmode
    rw [h.alone (SrwPool.mode_eq_exclusive_iff.mp hmode) t hne.symm] at ht
    cases ht
  cases i with
  | call t' op =>
    simp only [SrwPool.step]
    split
    next x hx =>
      have hne : t ≠ t' := fun heq => hreturned x (heq ▸ hx)
      exact ⟨Function.update_of_ne hne .., rfl, ht⟩
    next => exact ⟨rfl, rfl, ht⟩
  | step t' o =>
    have hne : t ≠ t' := fun heq => hi o (by rw [heq])
    have hold := h.threads t'
    simp only [SrwPool.step]
    split
    next => exact ⟨Function.update_of_ne hne .., rfl, ht⟩
    next mode' k hp =>
      split
      next => exact ⟨rfl, rfl, ht⟩
      next s' ha =>
        obtain ⟨hw, hcases⟩ := SrwPool.acquire_cases ha
        rw [SrwPool.mode_of_no_writer hw] at ht
        rcases hcases with ⟨-, rfl⟩ | ⟨-, hr, rfl⟩
        · refine ⟨Function.update_of_ne hne .., rfl, ?_⟩
          show SrwPool.mode { s with readers := t' :: s.readers } t = some mode
          rw [SrwPool.mode_of_no_writer (by exact hw), ← ht]
          exact if_congr (by rw [List.mem_cons, or_iff_right hne]) rfl rfl
        · rw [hr, if_neg List.not_mem_nil] at ht
          cases ht
    next mode' k hp =>
      rw [hp] at hold
      obtain ⟨hmode', -⟩ := hold.release
      cases mode' with
      | exclusive => exact absurd hmode' (halone t' hne.symm)
      | shared =>
        have hw := (h.writer_of_shared hmode').1
        rw [SrwPool.mode_of_no_writer hw] at ht
        refine ⟨Function.update_of_ne hne .., rfl, ?_⟩
        show SrwPool.mode { s with readers := s.readers.erase t' } t = some mode
        rw [SrwPool.mode_of_no_writer (by exact hw), ← ht]
        exact if_congr (List.mem_erase_of_ne hne) rfl rfl
    next c k hp =>
      rw [hp] at hold
      have hcall := hold.other
      have hsame : (answer o c s.shared).2 = s.shared := by
        generalize hmode' : s.mode t' = lock at hcall
        cases hcall with
        | free op hw hsame happly hret => exact hsame o
        | keep mode'' hvis hsame hsim hne' =>
          cases mode'' with
          | shared => exact hsame rfl o
          | exclusive => exact absurd hmode' (halone t' hne.symm)
        | commit op hw hvis hsim hne' => exact absurd hmode' (halone t' hne.symm)
      exact ⟨Function.update_of_ne hne .., hsame, ht⟩
    next => exact ⟨rfl, rfl, ht⟩

/-- A holder of the lock that is to be run on finds everything as it left it. -/
theorem SrwSim.next_step (hops : ∀ op, Waiting R body answer op (.ret (.inl (enter op)))) {mode : LockMode}
    {f : Nat → SrwInput Op ω} {k : Nat} {o : ω} (hk : f k = .step t o) (h : SrwSim R body answer s m)
    (ht : s.mode t = some mode) :
    ∃ n o m', f n = .step t o ∧
      let s' := states (SrwPool.step enter body answer) f s n
      SrwSim R body answer s' m' ∧ s'.threads t = s.threads t ∧ s'.shared = s.shared ∧ s'.mode t = some mode := by
  induction k generalizing s m f with
  | zero => exact ⟨0, o, m, hk, h, rfl, rfl, ht⟩
  | succ k ih =>
    by_cases hnow : ∃ o, f 0 = .step t o
    · obtain ⟨o, ho⟩ := hnow
      exact ⟨0, o, m, ho, h, rfl, rfl, ht⟩
    · obtain ⟨js, hsim, -⟩ := h.step hops (f 0)
      obtain ⟨hthreads, hshared, hmode⟩ := h.step_other enter ht fun o ho => hnow ⟨o, ho⟩
      obtain ⟨n, o, m', hn, hsim', hthreads', hshared', hmode'⟩ :=
        ih (f := fun j => f (1 + j)) (by rw [Nat.add_comm]; exact hk) hsim hmode
      refine ⟨1 + n, o, m', hn, ?_⟩
      rw [states_add]
      exact ⟨hsim', hthreads'.trans hthreads, hshared'.trans hshared, hmode'⟩

/-- A holder of the lock returns if it does so after its next step, which is to come. -/
theorem SrwSim.resume (hops : ∀ op, Waiting R body answer op (.ret (.inl (enter op)))) (h : SrwSim R body answer s m)
    {mode : LockMode} (ht : s.mode t = some mode) {f : Nat → SrwInput Op ω} (hfair : ∀ n, ∃ k ≥ n, ∃ o, f k = .step t o)
    (hown : ∀ s' m' o, SrwSim R body answer (SrwPool.step enter body answer (.step t o) s').1 m' →
      s'.threads t = s.threads t → s'.shared = s.shared → s'.mode t = some mode →
      ∀ f' : Nat → SrwInput Op ω, (∀ n, ∃ k ≥ n, ∃ o, f' k = .step t o) →
        ∃ n y, (states (SrwPool.step enter body answer) f' (SrwPool.step enter body answer (.step t o) s').1 n).threads t =
          .ret (.inr y)) :
    ∃ n y, (states (SrwPool.step enter body answer) f s n).threads t = .ret (.inr y) := by
  obtain ⟨k, -, o, hk⟩ := hfair 0
  obtain ⟨n, o, m', hn, hsim, hthreads, hshared, hmode⟩ := h.next_step hops hk ht
  obtain ⟨js, hsim', -⟩ := hsim.step hops (.step t o)
  obtain ⟨k, y, hy⟩ := hown _ _ o hsim' hthreads hshared hmode _ (again_add hfair (n + 1))
  refine ⟨n + 1 + k, y, ?_⟩
  rw [states_add, states, hn]
  exact hy

/-- A thread that holds the lock returns if it is run on, whatever the others do. -/
theorem Holding.returns (hops : ∀ op, Waiting R body answer op (.ret (.inl (enter op)))) {mode : LockMode} {a : A} {done : Bool}
    {p : SrwProg Call Resp S α} {g : G} (hh : Holding R body answer mode x a done p g) :
    ∀ {s : SrwPool Call Resp S G α} {m : AtomicObject A Op α} {f : Nat → SrwInput Op ω},
      SrwSim R body answer s m → s.threads t = p → s.shared = g → s.mode t = some mode →
      (∀ n, ∃ k ≥ n, ∃ o, f k = .step t o) →
      ∃ n y, (states (SrwPool.step enter body answer) f s n).threads t = .ret (.inr y) := by
  induction hh with
  | loop _ ih =>
    rintro s m f h hat rfl hmode hfair
    refine h.resume hops hmode hfair fun s' m' o hsim hthreads hshared hmode' f' hfair' => ?_
    have hp := hthreads.trans hat
    simp only [SrwPool.step, hp, SrwPool.goto] at hsim ⊢
    exact ih hsim (Function.update_self ..) hshared hmode' hfair'
  | call _ _ _ ih =>
    rintro s m f h hat rfl hmode hfair
    refine h.resume hops hmode hfair fun s' m' o hsim hthreads hshared hmode' f' hfair' => ?_
    have hp := hthreads.trans hat
    simp only [SrwPool.step, hp, SrwPool.goto, hshared] at hsim ⊢
    exact ih o hsim (Function.update_self ..) rfl hmode' hfair'
  | commit _ _ _ ih =>
    rintro s m f h hat rfl hmode hfair
    refine h.resume hops hmode hfair fun s' m' o hsim hthreads hshared hmode' f' hfair' => ?_
    have hp := hthreads.trans hat
    simp only [SrwPool.step, hp, SrwPool.goto, hshared] at hsim ⊢
    exact ih o hsim (Function.update_self ..) rfl hmode' hfair'
  | release _ hk =>
    rintro s m f h hat rfl hmode hfair
    refine h.resume hops hmode hfair fun s' m' o hsim hthreads hshared hmode' f' hfair' => ?_
    have hp := hthreads.trans hat
    simp only [SrwPool.step, hp, SrwPool.goto, hk]
    exact ⟨0, _, Function.update_self ..⟩

theorem SrwSim.returns (hops : ∀ op, Waiting R body answer op (.ret (.inl (enter op)))) (h : SrwSim R body answer s m)
    (ht : s.mode t ≠ none) {f : Nat → SrwInput Op ω} (hfair : ∀ n, ∃ k ≥ n, ∃ o, f k = .step t o) :
    ∃ n y, (states (SrwPool.step enter body answer) f s n).threads t = .ret (.inr y) := by
  have hold := h.threads t
  cases hmode : s.mode t with
  | none => exact absurd hmode ht
  | some mode =>
    rw [hmode] at hold
    cases hw : m.threads t with
    | idle =>
      rw [hw] at hold
      exact absurd hold id
    | called op =>
      rw [hw] at hold
      exact hold.1.returns hops h rfl rfl hmode hfair
    | applied y =>
      rw [hw] at hold
      exact hold.2.returns hops h rfl rfl hmode hfair

/-- The same from any state of an endless run. -/
theorem SrwSim.states_return (hops : ∀ op, Waiting R body answer op (.ret (.inl (enter op)))) (h : SrwSim R body answer s m)
    {f : Nat → SrwInput Op ω} (hfair : ∀ n, ∃ k ≥ n, ∃ o, f k = .step t o) {n : Nat}
    (ht : (states (SrwPool.step enter body answer) f s n).mode t ≠ none) :
    ∃ k ≥ n, ∃ y, (states (SrwPool.step enter body answer) f s k).threads t = .ret (.inr y) := by
  have hsim : ∀ n, ∃ m, SrwSim R body answer (states (SrwPool.step enter body answer) f s n) m := by
    intro n
    induction n with
    | zero => exact ⟨m, h⟩
    | succ n ih =>
      obtain ⟨m', hsim⟩ := ih
      obtain ⟨js, hsim', -⟩ := hsim.step hops (f n)
      exact ⟨_, hsim'⟩
  obtain ⟨m', hsim⟩ := hsim n
  obtain ⟨k, y, hy⟩ := hsim.returns hops ht (again_add hfair n)
  refine ⟨n + k, Nat.le_add_right n k, y, ?_⟩
  rw [states_add]
  exact hy

end

end TR
