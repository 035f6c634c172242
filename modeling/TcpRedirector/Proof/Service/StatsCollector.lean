import Mathlib.Algebra.BigOperators.Fin
import TcpRedirector.Impl.Service.StatsCollector
import TcpRedirector.Proof.Framework.Run

/-!
# The statistics count every packet

A counter and what the threads still have to add to it are the sum over the
packets reported (`Balanced`). The smallest size only goes down, so a thread
that leaves the loop has seen a value that its packet's size does not beat, and
the word does not beat it either (`Extreme`); the same holds of the largest,
with the order the other way. Once no thread is inside, both give the counts,
the sum and the extremes (`statistics_complete`).
-/

namespace TR.Impl.StatsCollector

variable {n : Nat}

/-! ## The counters -/

inductive Counter where
  | totalPackets | totalBytes | tcpPackets | redirectedPackets | errors

/-- The counter's word. -/
def Counter.word : Counter → State n → BitVec 64
  | .totalPackets, s => s.totalPackets
  | .totalBytes, s => s.totalBytes
  | .tcpPackets, s => s.tcpPackets
  | .redirectedPackets, s => s.redirectedPackets
  | .errors, s => s.errors

/-- What a packet adds. -/
def Counter.share : Counter → PacketInfo → Nat
  | .totalPackets, _ => 1
  | .totalBytes, info => info.packetSize.toNat
  | .tcpPackets, info => if info.protocol = 6 then 1 else 0
  | .redirectedPackets, info => if info.redirected then 1 else 0
  | .errors, info => if info.error then 1 else 0

/-- What a thread at this place has still to add. -/
def Counter.due (k : Counter) : Point → Nat
  | .idle | .loadMin _ | .whileMin _ _ | .loadMax _ | .whileMax _ _ => 0
  | .totalPackets info => k.share info
  | .totalBytes info =>
    match k with
    | .totalPackets => 0
    | _ => k.share info
  | .tcpPackets info =>
    match k with
    | .totalPackets | .totalBytes => 0
    | _ => k.share info
  | .redirectedPackets info =>
    match k with
    | .redirectedPackets | .errors => k.share info
    | _ => 0
  | .errors info =>
    match k with
    | .errors => k.share info
    | _ => 0

/-! ## The extremes -/

inductive Bound where
  | min | max

def Bound.word : Bound → State n → BitVec 32
  | .min, s => s.minPacketSize
  | .max, s => s.maxPacketSize

/-- The first is as good an extreme as the second. -/
def Bound.le : Bound → BitVec 32 → BitVec 32 → Prop
  | .min, x, y => x ≤ y
  | .max, x, y => y ≤ x

/-- The packet of a thread that has not yet left the loop. -/
def Bound.pending : Bound → Point → Option PacketInfo
  | _, .totalPackets info | _, .totalBytes info | _, .tcpPackets info | _, .redirectedPackets info | _, .errors info
  | _, .loadMin info | _, .whileMin info _ => some info
  | .max, .loadMax info | .max, .whileMax info _ => some info
  | _, _ => none

/-- The value that the thread has seen. -/
def Bound.expected : Bound → Point → Option (BitVec 32)
  | .min, .whileMin _ expectedMin => some expectedMin
  | .max, .whileMax _ expectedMax => some expectedMax
  | _, _ => none

/-- The packet of a thread inside. -/
def Point.info : Point → Option PacketInfo
  | .idle => none
  | .totalPackets info | .totalBytes info | .tcpPackets info | .redirectedPackets info | .errors info | .loadMin info
  | .whileMin info _ | .loadMax info | .whileMax info _ => some info

theorem Bound.le_refl (b : Bound) (x : BitVec 32) : b.le x x := by
  cases b <;> exact BitVec.le_refl x

theorem Bound.le_trans (b : Bound) {x y z : BitVec 32} (h : b.le x y) (h' : b.le y z) : b.le x z := by
  cases b with
  | min => exact BitVec.le_trans h h'
  | max => exact BitVec.le_trans h' h

/-! ## What a step does -/

/-- What a thread's step from `p` to `p'` does to the word of a bound. -/
structure BoundStep (b : Bound) (w w' : BitVec 32) (p p' : Point) : Prop where
  better : b.le w' w
  origin : w' = w ∨ ∃ x, p.info = some x ∧ w' = x.packetSize
  expected : ∀ e, b.expected p' = some e → b.le w' e
  /-- The loop is left when the word, or a value seen, is as good as the size. -/
  pending : ∀ x, b.pending p = some x →
    b.pending p' = some x ∨ b.le w' x.packetSize ∨ ∃ e, b.expected p = some e ∧ b.le e x.packetSize

/-- Outside of the loop nothing happens to the word. -/
theorem BoundStep.same {b : Bound} {w : BitVec 32} {p p' : Point} (hexpected : b.expected p' = none)
    (hpending : b.pending p = b.pending p') : BoundStep b w w p p' where
  better := b.le_refl w
  origin := .inl rfl
  expected e he := by
    rw [hexpected] at he
    cases he
  pending x hx := .inl (hpending ▸ hx)

/-- A thread's step. -/
structure ThreadStep (s s' : State n) (t : Fin n) (p : Point) : Prop where
  threads : s'.threads = Function.update s.threads t p
  info : ∀ x, p.info = some x → (s.threads t).info = some x
  counters : ∀ k : Counter, ∃ d, k.word s' = k.word s + BitVec.ofNat 64 d ∧ k.due (s.threads t) = d + k.due p
  bounds : ∀ b : Bound, BoundStep b (b.word s) (b.word s') (s.threads t) p

theorem Counter.word_goto (k : Counter) (s : State n) (t : Fin n) (p : Point) : k.word (s.goto t p) = k.word s := by
  cases k <;> rfl

theorem Bound.word_goto (b : Bound) (s : State n) (t : Fin n) (p : Point) : b.word (s.goto t p) = b.word s := by
  cases b <;> rfl

/-- The step of a thread that adds its packet's share to one counter. -/
theorem threadStep_add {s s₁ : State n} {t : Fin n} {p p' : Point} (k : Counter) (info : PacketInfo)
    (hpoint : s.threads t = p) (hthreads : s₁.threads = s.threads) (hinfo : p.info = p'.info)
    (hword : k.word s₁ = k.word s + BitVec.ofNat 64 (k.share info)) (hdue : k.due p = k.share info ∧ k.due p' = 0)
    (hothers : ∀ k', k' ≠ k → k'.word s₁ = k'.word s ∧ k'.due p = k'.due p')
    (hbounds : ∀ b : Bound, b.word s₁ = b.word s ∧ b.expected p' = none ∧ b.pending p = b.pending p') :
    ThreadStep s (s₁.goto t p') t p' where
  threads := by rw [State.goto, hthreads]
  info x hx := by rw [hpoint, hinfo, hx]
  counters k' := by
    rw [hpoint, k'.word_goto]
    by_cases hk : k' = k
    · subst hk
      exact ⟨k'.share info, hword, by rw [hdue.1, hdue.2]; rfl⟩
    · refine ⟨0, ?_, by rw [(hothers k' hk).2, Nat.zero_add]⟩
      rw [(hothers k' hk).1]
      exact (BitVec.add_zero _).symm
  bounds b := by
    obtain ⟨hb, hexpected, hpending⟩ := hbounds b
    rw [hpoint, b.word_goto, hb]
    exact .same hexpected hpending

/-- The step of a thread that counts its packet if a test holds. -/
theorem threadStep_count {s s₁ : State n} {t : Fin n} {p p' : Point} {test : Prop} [Decidable test] (k : Counter)
    (info : PacketInfo) (hpoint : s.threads t = p) (hthreads : s₁.threads = s.threads) (hinfo : p.info = p'.info)
    (hshare : k.share info = if test then 1 else 0) (hword : k.word s₁ = k.word s + 1)
    (hdue : k.due p = k.share info ∧ k.due p' = 0)
    (hothers : ∀ k', k' ≠ k → k'.word s₁ = k'.word s ∧ k'.due p = k'.due p')
    (hbounds : ∀ b : Bound, b.word s₁ = b.word s ∧ b.expected p' = none ∧ b.pending p = b.pending p') :
    ThreadStep s ((if test then s₁ else s).goto t p') t p' := by
  by_cases htest : test
  · rw [if_pos htest] at hshare ⊢
    exact threadStep_add k info hpoint hthreads hinfo (by rw [hshare, hword]; rfl) hdue hothers hbounds
  · rw [if_neg htest] at hshare ⊢
    refine threadStep_add k info hpoint rfl hinfo ?_ hdue (fun k' hk => ⟨rfl, (hothers k' hk).2⟩)
      fun b => ⟨rfl, (hbounds b).2⟩
    rw [hshare]
    exact (BitVec.add_zero _).symm

/-- The value of the word is read, before the loop or by an exchange that fails. -/
theorem BoundStep.load {b : Bound} {w : BitVec 32} {p p' : Point} (hexpected : b.expected p' = some w)
    (hpending : b.pending p = b.pending p') : BoundStep b w w p p' where
  better := b.le_refl w
  origin := .inl rfl
  expected e he := by
    rw [hexpected] at he
    cases he
    exact b.le_refl w
  pending x hx := .inl (hpending ▸ hx)

/-- An exchange succeeds. -/
theorem BoundStep.exchange {b : Bound} {w : BitVec 32} {p p' : Point} {info : PacketInfo} (hinfo : p.info = some info)
    (hpending : b.pending p = some info) (hbetter : b.le info.packetSize w) (hexpected : b.expected p' = none) :
    BoundStep b w info.packetSize p p' where
  better := hbetter
  origin := .inr ⟨info, hinfo, rfl⟩
  expected e he := by
    rw [hexpected] at he
    cases he
  pending x hx := by
    rw [hpending] at hx
    cases hx
    exact .inr (.inl (b.le_refl _))

/-- The loop is left because the value seen is as good. -/
theorem BoundStep.leave {b : Bound} {w e : BitVec 32} {p p' : Point} {info : PacketInfo}
    (hpending : b.pending p = some info) (hseen : b.expected p = some e) (hle : b.le e info.packetSize)
    (hexpected : b.expected p' = none) : BoundStep b w w p p' where
  better := b.le_refl w
  origin := .inl rfl
  expected e' he' := by
    rw [hexpected] at he'
    cases he'
  pending x hx := by
    rw [hpending] at hx
    cases hx
    exact .inr (.inr ⟨e, hseen, hle⟩)

/-- The step of a thread in one of the loops, which concerns one bound. -/
theorem threadStep_bound {s s₁ : State n} {t : Fin n} {p p' : Point} (hpoint : s.threads t = p)
    (hthreads : s₁.threads = s.threads) (hinfo : ∀ x, p'.info = some x → p.info = some x)
    (hword : ∀ k : Counter, k.word s₁ = k.word s) (hdue : ∀ k : Counter, k.due p = 0 ∧ k.due p' = 0)
    (hbounds : ∀ b : Bound, BoundStep b (b.word s) (b.word s₁) p p') : ThreadStep s (s₁.goto t p') t p' where
  threads := by rw [State.goto, hthreads]
  info x hx := by rw [hpoint, hinfo x hx]
  counters k := by
    rw [hpoint, k.word_goto, hword k, (hdue k).1, (hdue k).2]
    exact ⟨0, (BitVec.add_zero _).symm, rfl⟩
  bounds b := by
    rw [hpoint, b.word_goto]
    exact hbounds b

theorem threadStep_min {s : State n} {t : Fin n} {info : PacketInfo} {expectedMin : BitVec 32}
    (hpoint : s.threads t = .whileMin info expectedMin) (spurious : Bool) :
    ∃ p, ThreadStep s (step (.step t spurious) s).1 t p := by
  simp only [step, hpoint]
  split
  next hlt =>
    split
    next hexchange =>
      have hbetter : Bound.min.le info.packetSize s.minPacketSize := by
        rw [hexchange.1]
        exact BitVec.le_of_lt hlt
      refine ⟨_, threadStep_bound hpoint rfl (fun _ h => h) (fun k => ?_) (fun k => ⟨rfl, rfl⟩) fun b => ?_⟩
      · cases k <;> rfl
      · cases b with
        | min => exact .exchange rfl rfl hbetter rfl
        | max => exact .same rfl rfl
    next =>
      refine ⟨_, threadStep_bound hpoint rfl (fun _ h => h) (fun k => rfl) (fun k => ⟨rfl, rfl⟩) fun b => ?_⟩
      cases b with
      | min => exact .load rfl rfl
      | max => exact .same rfl rfl
  next hge =>
    refine ⟨_, threadStep_bound hpoint rfl (fun _ h => h) (fun k => rfl) (fun k => ⟨rfl, rfl⟩) fun b => ?_⟩
    cases b with
    | min => exact .leave rfl rfl (BitVec.not_lt.mp hge) rfl
    | max => exact .same rfl rfl

theorem threadStep_max {s : State n} {t : Fin n} {info : PacketInfo} {expectedMax : BitVec 32}
    (hpoint : s.threads t = .whileMax info expectedMax) (spurious : Bool) :
    ∃ p, ThreadStep s (step (.step t spurious) s).1 t p := by
  simp only [step, hpoint]
  split
  next hlt =>
    split
    next hexchange =>
      have hbetter : Bound.max.le info.packetSize s.maxPacketSize := by
        rw [hexchange.1]
        exact BitVec.le_of_lt hlt
      refine ⟨_, threadStep_bound hpoint rfl (fun _ h => by cases h) (fun k => ?_) (fun k => ⟨rfl, rfl⟩) fun b => ?_⟩
      · cases k <;> rfl
      · cases b with
        | min => exact .same rfl rfl
        | max => exact .exchange rfl rfl hbetter rfl
    next =>
      refine ⟨_, threadStep_bound hpoint rfl (fun _ h => h) (fun k => rfl) (fun k => ⟨rfl, rfl⟩) fun b => ?_⟩
      cases b with
      | min => exact .same rfl rfl
      | max => exact .load rfl rfl
  next hge =>
    refine ⟨_, threadStep_bound hpoint rfl (fun _ h => by cases h) (fun k => rfl) (fun k => ⟨rfl, rfl⟩) fun b => ?_⟩
    cases b with
    | min => exact .same rfl rfl
    | max => exact .leave rfl rfl (BitVec.not_lt.mp hge) rfl

/-- Every step of a thread inside. -/
theorem threadStep (s : State n) (t : Fin n) (spurious : Bool) (hinside : s.threads t ≠ .idle) :
    ∃ p, ThreadStep s (step (.step t spurious) s).1 t p := by
  cases hpoint : s.threads t with
  | idle => exact absurd hpoint hinside
  | totalPackets info =>
    simp only [step, hpoint]
    refine ⟨_, threadStep_add .totalPackets info hpoint rfl rfl rfl ⟨rfl, rfl⟩ (fun k hk => ?_) fun b => ?_⟩
    · cases k with
      | totalPackets => exact absurd rfl hk
      | _ => exact ⟨rfl, rfl⟩
    · cases b <;> exact ⟨rfl, rfl, rfl⟩
  | totalBytes info =>
    simp only [step, hpoint]
    refine ⟨_, threadStep_add .totalBytes info hpoint rfl rfl ?_ ⟨rfl, rfl⟩ (fun k hk => ?_) fun b => ?_⟩
    · show s.totalBytes + info.packetSize.setWidth 64 = s.totalBytes + BitVec.ofNat 64 info.packetSize.toNat
      rw [BitVec.ofNat_toNat]
    · cases k with
      | totalBytes => exact absurd rfl hk
      | _ => exact ⟨rfl, rfl⟩
    · cases b <;> exact ⟨rfl, rfl, rfl⟩
  | tcpPackets info =>
    simp only [step, hpoint]
    refine ⟨_, threadStep_count .tcpPackets info hpoint rfl rfl rfl rfl ⟨rfl, rfl⟩ (fun k hk => ?_) fun b => ?_⟩
    · cases k with
      | tcpPackets => exact absurd rfl hk
      | _ => exact ⟨rfl, rfl⟩
    · cases b <;> exact ⟨rfl, rfl, rfl⟩
  | redirectedPackets info =>
    simp only [step, hpoint]
    refine ⟨_, threadStep_count .redirectedPackets info hpoint rfl rfl rfl rfl ⟨rfl, rfl⟩ (fun k hk => ?_) fun b => ?_⟩
    · cases k with
      | redirectedPackets => exact absurd rfl hk
      | _ => exact ⟨rfl, rfl⟩
    · cases b <;> exact ⟨rfl, rfl, rfl⟩
  | errors info =>
    simp only [step, hpoint]
    refine ⟨_, threadStep_count .errors info hpoint rfl rfl rfl rfl ⟨rfl, rfl⟩ (fun k hk => ?_) fun b => ?_⟩
    · cases k with
      | errors => exact absurd rfl hk
      | _ => exact ⟨rfl, rfl⟩
    · cases b <;> exact ⟨rfl, rfl, rfl⟩
  | loadMin info =>
    simp only [step, hpoint]
    refine ⟨_, threadStep_bound hpoint rfl (fun _ h => h) (fun k => rfl) (fun k => ⟨rfl, rfl⟩) fun b => ?_⟩
    cases b with
    | min => exact .load rfl rfl
    | max => exact .same rfl rfl
  | whileMin info expectedMin => exact threadStep_min hpoint spurious
  | loadMax info =>
    simp only [step, hpoint]
    refine ⟨_, threadStep_bound hpoint rfl (fun _ h => h) (fun k => rfl) (fun k => ⟨rfl, rfl⟩) fun b => ?_⟩
    cases b with
    | min => exact .same rfl rfl
    | max => exact .load rfl rfl
  | whileMax info expectedMax => exact threadStep_max hpoint spurious

/-! ## What holds at any time -/

/-- A counter and what is still to be added to it. -/
def Balanced (s : State n) (packets : List PacketInfo) : Prop :=
  ∀ k : Counter, k.word s + BitVec.ofNat 64 (∑ t, k.due (s.threads t)) = BitVec.ofNat 64 (packets.map k.share).sum

/-- The word of a bound is the size of a packet reported, or as at the start;
it is as good as every size but those of packets whose threads are still at it. -/
structure Extreme (b : Bound) (s : State n) (packets : List PacketInfo) : Prop where
  reached : b.word s = b.word (n := n) {} ∨ ∃ x ∈ packets, x.packetSize = b.word s
  expected : ∀ t e, b.expected (s.threads t) = some e → b.le (b.word s) e
  bounded : ∀ x ∈ packets, b.le (b.word s) x.packetSize ∨ ∃ t, b.pending (s.threads t) = some x

structure Inv (s : State n) (packets : List PacketInfo) : Prop where
  balanced : Balanced s packets
  inside : ∀ t x, (s.threads t).info = some x → x ∈ packets
  extreme : ∀ b : Bound, Extreme b s packets

variable {s s' : State n} {t : Fin n} {p : Point} {packets : List PacketInfo}

/-- One thread moves on. -/
theorem sum_due_update (k : Counter) (threads : Fin n → Point) (t : Fin n) (p : Point) :
    ∑ i, k.due (Function.update threads t p i) + k.due (threads t) = ∑ i, k.due (threads i) + k.due p := by
  have hrest : ∀ i ∈ Finset.univ.erase t, k.due (Function.update threads t p i) = k.due (threads i) := by
    intro i hi
    rw [Function.update_of_ne (Finset.ne_of_mem_erase hi)]
  rw [← Finset.add_sum_erase _ (fun i => k.due (Function.update threads t p i)) (Finset.mem_univ t),
    ← Finset.add_sum_erase _ (fun i => k.due (threads i)) (Finset.mem_univ t), Finset.sum_congr rfl hrest,
    Function.update_self]
  omega

theorem Balanced.step (h : Balanced s packets) (hstep : ThreadStep s s' t p) : Balanced s' packets := by
  intro k
  obtain ⟨d, hword, hdue⟩ := hstep.counters k
  have hsum := sum_due_update k s.threads t p
  rw [← hstep.threads] at hsum
  have hmoved : ∑ i, k.due (s.threads i) = d + ∑ i, k.due (s'.threads i) := by omega
  rw [← h k, hword, hmoved, BitVec.ofNat_add, BitVec.add_assoc]

/-- What holds of all threads after the step: of the one that moves, and of the others as before. -/
theorem ThreadStep.forall_iff (hstep : ThreadStep s s' t p) (P : Fin n → Point → Prop) :
    (∀ i, P i (s'.threads i)) ↔ P t p ∧ ∀ i, i ≠ t → P i (s.threads i) := by
  rw [hstep.threads]
  exact Function.forall_update_iff s.threads P

theorem Extreme.step {b : Bound} (h : Extreme b s packets) (hinside : ∀ t x, (s.threads t).info = some x → x ∈ packets)
    (hstep : ThreadStep s s' t p) : Extreme b s' packets := by
  have hb := hstep.bounds b
  refine ⟨?_, ?_, fun x hx => ?_⟩
  · rcases hb.origin with hsame | ⟨x, hx, hword⟩
    · rw [hsame]
      exact h.reached
    · exact .inr ⟨x, hinside t x hx, hword.symm⟩
  · apply (hstep.forall_iff fun _ p => ∀ e, b.expected p = some e → b.le (b.word s') e).mpr
    exact ⟨hb.expected, fun i _ e he => b.le_trans hb.better (h.expected i e he)⟩
  · rcases h.bounded x hx with hle | ⟨i, hi⟩
    · exact .inl (b.le_trans hb.better hle)
    · by_cases hit : i = t
      · rw [hit] at hi
        rcases hb.pending x hi with hpending | hle | ⟨e, he, hle⟩
        · exact .inr ⟨t, by rw [hstep.threads, Function.update_self]; exact hpending⟩
        · exact .inl hle
        · exact .inl (b.le_trans hb.better (b.le_trans (h.expected t e he) hle))
      · exact .inr ⟨i, by rw [hstep.threads, Function.update_of_ne hit]; exact hi⟩

theorem Inv.step (h : Inv s packets) (hstep : ThreadStep s s' t p) : Inv s' packets := by
  refine ⟨h.balanced.step hstep, ?_, fun b => (h.extreme b).step h.inside hstep⟩
  apply (hstep.forall_iff fun _ p => ∀ x, p.info = some x → x ∈ packets).mpr
  exact ⟨fun x hx => h.inside t x (hstep.info x hx), fun i _ => h.inside i⟩

/-- A call, before its first step. -/
theorem Inv.call (h : Inv s packets) (hidle : s.threads t = .idle) (info : PacketInfo) :
    Inv (s.goto t (.totalPackets info)) (packets ++ [info]) := by
  have hself : (s.goto t (.totalPackets info)).threads t = .totalPackets info := Function.update_self ..
  have hall (P : Fin n → Point → Prop) : (∀ i, P i ((s.goto t (.totalPackets info)).threads i)) ↔
      P t (.totalPackets info) ∧ ∀ i, i ≠ t → P i (s.threads i) := Function.forall_update_iff s.threads P
  refine ⟨fun k => ?_, ?_, fun b => ⟨?_, ?_, fun x hx => ?_⟩⟩
  · have hsum := sum_due_update k s.threads t (.totalPackets info)
    have hmoved : ∑ i, k.due ((s.goto t (.totalPackets info)).threads i) = ∑ i, k.due (s.threads i) + k.share info := by
      rw [hidle] at hsum
      exact hsum
    rw [k.word_goto, hmoved, BitVec.ofNat_add, ← BitVec.add_assoc, h.balanced k, List.map_append, List.sum_append,
      List.map_singleton, List.sum_singleton, BitVec.ofNat_add]
  · apply (hall fun _ p => ∀ x, p.info = some x → x ∈ packets ++ [info]).mpr
    refine ⟨fun x hx => ?_, fun i _ x hx => List.mem_append_left _ (h.inside i x hx)⟩
    cases hx
    exact List.mem_append_right _ (List.mem_singleton_self _)
  · rw [b.word_goto]
    exact (h.extreme b).reached.imp_right fun ⟨x, hx, hword⟩ => ⟨x, List.mem_append_left _ hx, hword⟩
  · rw [b.word_goto]
    apply (hall fun _ p => ∀ e, b.expected p = some e → b.le (b.word s) e).mpr
    refine ⟨fun e he => ?_, fun i _ => (h.extreme b).expected i⟩
    cases b <;> cases he
  · rw [b.word_goto]
    rcases List.mem_append.mp hx with hx | hx
    · rcases (h.extreme b).bounded x hx with hle | ⟨i, hi⟩
      · exact .inl hle
      · have hit : i ≠ t := by
          rintro rfl
          rw [hidle] at hi
          cases b <;> cases hi
        have hsame : (s.goto t (.totalPackets info)).threads i = s.threads i := Function.update_of_ne hit ..
        exact .inr ⟨i, hsame ▸ hi⟩
    · rw [List.mem_singleton.mp hx]
      exact .inr ⟨t, by rw [hself]; cases b <;> rfl⟩

theorem inv_start : Inv ({} : State n) [] where
  balanced k := by
    have hdue : ∑ t : Fin n, k.due (({} : State n).threads t) = 0 := Finset.sum_eq_zero fun t _ => rfl
    rw [hdue]
    cases k <;> rfl
  inside t x hx := by cases hx
  extreme b := {
    reached := .inl rfl
    expected := fun t e he => by cases b <;> cases he
    bounded := fun x hx => by cases hx }

theorem reported_concat (tr : List (StepOf (State n) (Input n) (Option PacketInfo)))
    (st : StepOf (State n) (Input n) (Option PacketInfo)) : reported (tr ++ [st]) = reported tr ++ st.out.toList := by
  rw [reported, List.filterMap_append]
  cases hout : st.out with
  | none => rw [List.filterMap_cons_none hout]; rfl
  | some info => rw [List.filterMap_cons_some hout]; rfl

/-- Only a call reports. -/
theorem step_out (s : State n) (t : Fin n) (spurious : Bool) : (step (.step t spurious) s).2 = none := by
  simp only [step]
  repeat' split
  all_goals rfl

/-- What thread and environment do next keeps the invariant. -/
theorem Inv.next (h : Inv s packets) (i : Input n) :
    Inv (StatsCollector.step i s).1 (packets ++ (StatsCollector.step i s).2.toList) := by
  have hsame : Inv s (packets ++ (none : Option PacketInfo).toList) := by
    rw [Option.toList_none, List.append_nil]
    exact h
  cases i with
  | call t info =>
    by_cases hidle : s.threads t = .idle
    · simp only [StatsCollector.step, hidle]
      exact h.call hidle info
    · have hstep : StatsCollector.step (.call t info) s = (s, none) := by
        cases hpoint : s.threads t with
        | idle => exact absurd hpoint hidle
        | _ => simp only [StatsCollector.step, hpoint]
      rw [hstep]
      exact hsame
  | step t spurious =>
    rw [step_out]
    by_cases hidle : s.threads t = .idle
    · simp only [StatsCollector.step, hidle]
      exact hsame
    · obtain ⟨p, hstep⟩ := threadStep s t spurious hidle
      rw [Option.toList_none, List.append_nil]
      exact h.step hstep

theorem inv_run (is : List (Input n)) : Inv (run step is ({} : State n)) (reported (trace step is {})) := by
  refine history_induct (P := fun s tr => Inv s (reported tr)) (fun i s tr h => ?_) is inv_start
  rw [reported_concat]
  exact h.next i

/-! ## With nothing under way -/

section

variable (h : Inv s packets) (hidle : ∀ t, s.threads t = .idle)

include h hidle

theorem Inv.counted (k : Counter) : k.word s = BitVec.ofNat 64 (packets.map k.share).sum := by
  have hdue : ∑ t, k.due (s.threads t) = 0 := by
    refine Finset.sum_eq_zero fun t _ => ?_
    rw [hidle t]
    rfl
  rw [← h.balanced k, hdue]
  exact (BitVec.add_zero _).symm

theorem Inv.le_size (b : Bound) {x : PacketInfo} (hx : x ∈ packets) : b.le (b.word s) x.packetSize := by
  rcases (h.extreme b).bounded x hx with hle | ⟨t, ht⟩
  · exact hle
  · rw [hidle t] at ht
    cases b <;> cases ht

/-- The value at the start is no better than any size, so it can only be left
if it is the size of all packets. -/
theorem Inv.reached (b : Bound) (hne : packets ≠ []) : ∃ x ∈ packets, x.packetSize = b.word s := by
  rcases (h.extreme b).reached with hstart | hreached
  · obtain ⟨x, hx⟩ := List.exists_mem_of_ne_nil _ hne
    refine ⟨x, hx, ?_⟩
    have hle := h.le_size hidle b hx
    have hlt := x.packetSize.isLt
    rw [hstart] at hle ⊢
    apply BitVec.eq_of_toNat_eq
    cases b with
    | min =>
      have hmin : (0xFFFFFFFF#32).toNat ≤ x.packetSize.toNat := BitVec.le_def.mp hle
      have hinit : (0xFFFFFFFF#32).toNat = 4294967295 := by decide
      show x.packetSize.toNat = (0xFFFFFFFF#32).toNat
      omega
    | max =>
      have hmax : x.packetSize.toNat ≤ (0#32).toNat := BitVec.le_def.mp hle
      have hinit : (0#32).toNat = 0 := by decide
      show x.packetSize.toNat = (0#32).toNat
      omega
  · exact hreached

end

theorem sum_map_one (l : List PacketInfo) : (l.map fun _ => 1).sum = l.length := by
  rw [List.map_const', List.sum_replicate, smul_eq_mul, Nat.mul_one]

theorem sum_map_count (l : List PacketInfo) (test : PacketInfo → Bool) :
    (l.map fun x => if test x then 1 else 0).sum = l.countP test := by
  induction l with
  | nil => rfl
  | cons x l ih =>
    rw [List.map_cons, List.sum_cons, ih, List.countP_cons]
    omega

/-- Once all calls have returned, the counters are the counts and the sum, and
the extremes those of the sizes. -/
theorem statistics_complete {n : Nat} (is : List (Input n)) (hidle : ∀ t, (run step is {}).threads t = .idle) :
    let s := run step is ({} : State n)
    let packets := reported (trace step is ({} : State n))
    s.totalPackets = BitVec.ofNat 64 packets.length ∧
      s.tcpPackets = BitVec.ofNat 64 (packets.countP fun x => x.protocol = 6) ∧
      s.redirectedPackets = BitVec.ofNat 64 (packets.countP (·.redirected)) ∧
      s.errors = BitVec.ofNat 64 (packets.countP (·.error)) ∧
      s.totalBytes = BitVec.ofNat 64 (packets.map (·.packetSize.toNat)).sum ∧
      (packets ≠ [] →
        ((∃ x ∈ packets, x.packetSize = s.minPacketSize) ∧ ∀ x ∈ packets, s.minPacketSize ≤ x.packetSize) ∧
        (∃ x ∈ packets, x.packetSize = s.maxPacketSize) ∧ ∀ x ∈ packets, x.packetSize ≤ s.maxPacketSize) := by
  intro s packets
  have hinv : Inv s packets := inv_run is
  have hshare : (packets.map fun x => if decide (x.protocol = 6) = true then 1 else 0) =
      packets.map Counter.tcpPackets.share :=
    List.map_congr_left fun x _ => by simp only [decide_eq_true_eq, Counter.share]
  refine ⟨?_, ?_, ?_, ?_, hinv.counted hidle .totalBytes, fun hne => ⟨⟨?_, fun x hx => ?_⟩, ?_, fun x hx => ?_⟩⟩
  · rw [← sum_map_one]
    exact hinv.counted hidle .totalPackets
  · rw [← sum_map_count, hshare]
    exact hinv.counted hidle .tcpPackets
  · rw [← sum_map_count]
    exact hinv.counted hidle .redirectedPackets
  · rw [← sum_map_count]
    exact hinv.counted hidle .errors
  · exact hinv.reached hidle .min hne
  · exact hinv.le_size hidle .min hx
  · exact hinv.reached hidle .max hne
  · exact hinv.le_size hidle .max hx

namespace Demo

def packet : PacketInfo := { packetSize := 60, protocol := 6, redirected := true }

/-- Both threads read the smallest size before either stores its own; the
second one's exchange fails, since the first has been there. -/
def overtaken : List (Input 2) :=
  [.call 0 packet, .call 1 { packet with packetSize := 40, error := true }] ++
    List.replicate 6 (.step 0 false) ++ List.replicate 6 (.step 1 false) ++
    [.step 0 true, .step 0 false, .step 1 false] ++
    List.replicate 3 (.step 1 false) ++ List.replicate 2 (.step 0 false)

end Demo

theorem statistics_complete_overtaken :
    (run step Demo.overtaken {}).totalPackets = 2 ∧ (run step Demo.overtaken {}).totalBytes = 100 ∧
      (run step Demo.overtaken {}).errors = 1 := by
  have hidle : ∀ t, (run step Demo.overtaken {}).threads t = .idle := by decide
  obtain ⟨htotal, -, -, herrors, hbytes, -⟩ := statistics_complete Demo.overtaken hidle
  exact ⟨htotal, hbytes, herrors⟩

end TR.Impl.StatsCollector
