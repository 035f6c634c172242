import Mathlib.Data.List.Basic
import Mathlib.Logic.Function.Basic
import TcpRedirector.TCB.Cells
import TcpRedirector.TCB.Chain

/-!
# What linked cells stand for

`Segment cells a l b`: from the link `a` the cells hold the items of `l` at its
addresses, and the link of the last is `b`. A segment depends on its own
cells only (`Segment.congr`); it splits where the list does
(`segment_append`).
-/

namespace TR

variable {κ α : Type} {cells cells' : κ → Option (Cell κ α)} {a b next : Option κ} {p : κ} {x y : α} {l l' : List (κ × α)}

def Segment (cells : κ → Option (Cell κ α)) : Option κ → List (κ × α) → Option κ → Prop
  | a, [], b => a = b
  | a, (p, x) :: l, b => a = some p ∧ ∃ next, cells p = some ⟨x, next⟩ ∧ Segment cells next l b

theorem segment_append : Segment cells a (l ++ l') b ↔ ∃ c, Segment cells a l c ∧ Segment cells c l' b := by
  induction l generalizing a with
  | nil => simp [Segment]
  | cons y l ih =>
    constructor
    · rintro ⟨rfl, next, hy, hrest⟩
      obtain ⟨c, hl, hl'⟩ := ih.mp hrest
      exact ⟨c, ⟨rfl, next, hy, hl⟩, hl'⟩
    · rintro ⟨c, ⟨rfl, next, hy, hl⟩, hl'⟩
      exact ⟨rfl, next, hy, ih.mpr ⟨c, hl, hl'⟩⟩

theorem Segment.congr (h : Segment cells a l b) (hsame : ∀ p ∈ l.map (·.1), cells' p = cells p) : Segment cells' a l b := by
  induction l generalizing a with
  | nil => exact h
  | cons y l ih =>
    obtain ⟨rfl, next, hy, hrest⟩ := h
    obtain ⟨hsame, hrest'⟩ := List.forall_mem_cons.mp hsame
    exact ⟨rfl, next, hsame.trans hy, ih hrest hrest'⟩

theorem Segment.isSome (h : Segment cells a l b) : ∀ p ∈ l.map (·.1), (cells p).isSome = true := by
  induction l generalizing a with
  | nil => exact fun p hp => absurd hp List.not_mem_nil
  | cons y l ih =>
    obtain ⟨rfl, next, hy, hrest⟩ := h
    refine List.forall_mem_cons.mpr ⟨?_, ih hrest⟩
    show (cells y.1).isSome = true
    rw [hy]
    rfl

/-- A cell outside of the segment is written. -/
theorem Segment.update_of_notMem [DecidableEq κ] (h : Segment cells a l b) (hp : p ∉ l.map (·.1)) (c : Option (Cell κ α)) :
    Segment (Function.update cells p c) a l b := by
  refine h.congr fun q hq => Function.update_of_ne ?_ ..
  rintro rfl
  exact hp hq

/-! ## The first match -/

section

variable {α : Type} {f : α → Bool} {l₁ l₂ : List α} {y : α}

theorem find?_first (h₁ : ∀ z ∈ l₁, f z = false) (hy : f y = true) : (l₁ ++ y :: l₂).find? f = some y := by
  have hnone : l₁.find? f = none := List.find?_eq_none.mpr fun z hz => by rw [h₁ z hz]; exact Bool.false_ne_true
  rw [List.find?_append, hnone, List.find?_cons_of_pos hy]
  rfl

theorem modifyFirst_first (h₁ : ∀ z ∈ l₁, f z = false) (hy : f y = true) (g : α → α) :
    modifyFirst f g (l₁ ++ y :: l₂) = l₁ ++ g y :: l₂ := by
  induction l₁ with
  | nil => exact if_pos hy
  | cons z l₁ ih =>
    obtain ⟨hz, h₁⟩ := List.forall_mem_cons.mp h₁
    rw [List.cons_append, modifyFirst, if_neg (by rw [hz]; exact Bool.false_ne_true), ih h₁, List.cons_append]

theorem modifyFirst_none (h₁ : ∀ z ∈ l₁, f z = false) (g : α → α) : modifyFirst f g l₁ = l₁ := by
  induction l₁ with
  | nil => rfl
  | cons z l₁ ih =>
    obtain ⟨hz, h₁⟩ := List.forall_mem_cons.mp h₁
    rw [modifyFirst, if_neg (by rw [hz]; exact Bool.false_ne_true), ih h₁]

theorem eraseP_first (h₁ : ∀ z ∈ l₁, f z = false) (hy : f y = true) : (l₁ ++ y :: l₂).eraseP f = l₁ ++ l₂ := by
  rw [List.eraseP_append_right _ fun z hz => by rw [h₁ z hz]; exact Bool.false_ne_true, List.eraseP_cons_of_pos hy]

end

end TR
