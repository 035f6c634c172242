import Mathlib.Data.Set.Insert
import TcpRedirector.Proof.Capture.Bitmap
import TcpRedirector.Proof.Framework.Run

/-!
# The bitmaps as two sets of ports

What the bitmaps are for is two sets, the ports with a cached decision and
those of them with the decision DIRECT (`PortSets`). Every operation on the
bitmaps does to their ports what it does to the sets (`holdSets_step`), so they
agree after any number of operations (`bitmaps_refine_sets`).
-/

namespace TR.Impl

/-- What the bitmaps stand for. -/
structure PortSets where
  decided : Set (BitVec 16)
  direct : Set (BitVec 16)

/-- The operations on the bitmaps. -/
inductive PortOp where
  | setPortDirect (port : BitVec 16)
  | setPortDecided (port : BitVec 16)
  | clearPort (port : BitVec 16)
  deriving Repr, DecidableEq

namespace PortOp

def port : PortOp → BitVec 16
  | setPortDirect port | setPortDecided port | clearPort port => port

/-- The operation on the bitmaps. -/
def step (op : PortOp) (c : Capture) : Capture × Unit :=
  match op with
  | setPortDirect port => (c.setPortDirect port, ())
  | setPortDecided port => (c.setPortDecided port, ())
  | clearPort port => (c.clearPort port, ())

/-- The operation on the sets. -/
def stepSets (op : PortOp) (s : PortSets) : PortSets × Unit :=
  match op with
  | setPortDirect port => (⟨insert port s.decided, insert port s.direct⟩, ())
  | setPortDecided port => (⟨insert port s.decided, s.direct⟩, ())
  | clearPort port => (⟨s.decided \ {port}, s.direct \ {port}⟩, ())

end PortOp

/-- The bitmaps hold the sets. -/
structure HoldSets (c : Capture) (s : PortSets) : Prop where
  decided : ∀ p, c.isPortDecided p = true ↔ p ∈ s.decided
  direct : ∀ p, c.isPortDirect p = true ↔ p ∈ s.direct

variable {c : Capture} {s : PortSets} {op : PortOp}

theorem holdSets_zero (c : Capture) : HoldSets { c with portDecided := .zero, portDirect := .zero } ⟨∅, ∅⟩ := by
  constructor
  · intro p
    exact iff_of_false (by rw [Capture.isPortDecided, Bitmap.test_zero]; exact Bool.false_ne_true) (Set.notMem_empty p)
  · intro p
    exact iff_of_false (by rw [Capture.isPortDirect, Bitmap.test_zero]; exact Bool.false_ne_true) (Set.notMem_empty p)

/-- A bit that is set adds its port. -/
theorem set_iff {b : Bool} {S : Set (BitVec 16)} {p q : BitVec 16} (h : b = true ↔ q ∈ S) :
    (decide (q = p) || b) = true ↔ q ∈ insert p S := by
  rw [Bool.or_eq_true, decide_eq_true_iff, h, Set.mem_insert_iff]

/-- A bit that is cleared takes its port away. -/
theorem clear_iff {b : Bool} {S : Set (BitVec 16)} {p q : BitVec 16} (h : b = true ↔ q ∈ S) :
    (!decide (q = p) && b) = true ↔ q ∈ S \ {p} := by
  rw [Bool.and_eq_true, Bool.not_eq_true', decide_eq_false_iff_not, h, Set.mem_sdiff, Set.mem_singleton_iff, and_comm]

theorem holdSets_step (op : PortOp) (h : HoldSets c s) : HoldSets (op.step c).1 (op.stepSets s).1 := by
  cases op with
  | setPortDirect port =>
    refine ⟨fun p => ?_, fun p => ?_⟩
    · show (c.setPortDirect port).isPortDecided p = true ↔ _
      rw [Capture.isPortDecided_setPortDirect]
      exact set_iff (h.decided p)
    · show (c.setPortDirect port).isPortDirect p = true ↔ _
      rw [Capture.isPortDirect_setPortDirect]
      exact set_iff (h.direct p)
  | setPortDecided port =>
    refine ⟨fun p => ?_, h.direct⟩
    show (c.setPortDecided port).isPortDecided p = true ↔ _
    rw [Capture.isPortDecided_setPortDecided]
    exact set_iff (h.decided p)
  | clearPort port =>
    refine ⟨fun p => ?_, fun p => ?_⟩
    · show (c.clearPort port).isPortDecided p = true ↔ _
      rw [Capture.isPortDecided_clearPort]
      exact clear_iff (h.decided p)
    · show (c.clearPort port).isPortDirect p = true ↔ _
      rw [Capture.isPortDirect_clearPort]
      exact clear_iff (h.direct p)

theorem holdSets_run (ops : List PortOp) (h : HoldSets c s) : HoldSets (run PortOp.step ops c) (run PortOp.stepSets ops s) := by
  induction ops generalizing c s with
  | nil => exact h
  | cons op ops ih => exact ih (holdSets_step op h)

/-- The sets are nested. -/
theorem direct_subset_step (op : PortOp) (s : PortSets) (h : s.direct ⊆ s.decided) :
    (op.stepSets s).1.direct ⊆ (op.stepSets s).1.decided := by
  cases op with
  | setPortDirect port => exact Set.insert_subset_insert h
  | setPortDecided port => exact h.trans (Set.subset_insert port s.decided)
  | clearPort port => exact fun p hp => ⟨h hp.1, hp.2⟩

/-- An operation leaves the bits of every other port, in the same word or not. -/
theorem other_port_step (op : PortOp) (c : Capture) {q : BitVec 16} (hq : q ≠ op.port) :
    (op.step c).1.isPortDecided q = c.isPortDecided q ∧ (op.step c).1.isPortDirect q = c.isPortDirect q := by
  cases op with
  | setPortDirect port =>
    have hne : decide (q = port) = false := decide_eq_false hq
    show (c.setPortDirect port).isPortDecided q = _ ∧ (c.setPortDirect port).isPortDirect q = _
    rw [Capture.isPortDecided_setPortDirect, Capture.isPortDirect_setPortDirect, hne, Bool.false_or, Bool.false_or]
    exact ⟨rfl, rfl⟩
  | setPortDecided port =>
    have hne : decide (q = port) = false := decide_eq_false hq
    show (c.setPortDecided port).isPortDecided q = _ ∧ _
    rw [Capture.isPortDecided_setPortDecided, hne, Bool.false_or]
    exact ⟨rfl, rfl⟩
  | clearPort port =>
    have hne : decide (q = port) = false := decide_eq_false hq
    show (c.clearPort port).isPortDecided q = _ ∧ (c.clearPort port).isPortDirect q = _
    rw [Capture.isPortDecided_clearPort, Capture.isPortDirect_clearPort, hne, Bool.not_false, Bool.true_and,
      Bool.true_and]
    exact ⟨rfl, rfl⟩

/-- From cleared bitmaps, after any operations: the tests are membership in the
sets, an operation changes no other port, and a direct port is decided. -/
theorem bitmaps_refine_sets (c : Capture) (ops : List PortOp) :
    let c' := run PortOp.step ops { c with portDecided := .zero, portDirect := .zero }
    let s' := run PortOp.stepSets ops ⟨∅, ∅⟩
    (∀ p, (c'.isPortDecided p = true ↔ p ∈ s'.decided) ∧ (c'.isPortDirect p = true ↔ p ∈ s'.direct)) ∧
      (∀ op : PortOp, ∀ q, q ≠ op.port →
        (op.step c').1.isPortDecided q = c'.isPortDecided q ∧ (op.step c').1.isPortDirect q = c'.isPortDirect q) ∧
      ∀ p, c'.isPortDirect p = true → c'.isPortDecided p = true := by
  intro c' s'
  have hhold : HoldSets c' s' := holdSets_run ops (holdSets_zero c)
  have hsubset : s'.direct ⊆ s'.decided :=
    run_induct (P := fun s : PortSets => s.direct ⊆ s.decided) direct_subset_step ops (Set.Subset.refl _)
  refine ⟨fun p => ⟨hhold.decided p, hhold.direct p⟩, fun op q hq => other_port_step op c' hq, fun p hp => ?_⟩
  exact (hhold.decided p).mpr (hsubset ((hhold.direct p).mp hp))

end TR.Impl
