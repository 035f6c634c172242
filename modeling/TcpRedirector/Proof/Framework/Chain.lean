import Mathlib.Algebra.BigOperators.Group.List.Basic
import Mathlib.Data.List.Nodup
import TcpRedirector.TCB.Chain

/-!
# Searching, changing and shortening a chain

What `find?` sees, which elements there are and what they sum to, after the
first match was changed (`modifyFirst`) or unlinked (`eraseP`). Where the
chain's keys are distinct, the first match of a key is the only one.
-/

namespace TR

variable {α κ : Type} {p q : α → Bool} {f : α → α}

/-- A search that also stops at the elements looked for by the change finds the
image of what it found if the change was there. -/
theorem find?_modifyFirst_of_imp (hq : ∀ x, q x = true → p x = true) (hf : ∀ x, q x = true → p (f x) = true)
    (l : List α) : (modifyFirst q f l).find? p = (l.find? p).map fun x => if q x then f x else x := by
  induction l with
  | nil => rfl
  | cons x xs ih =>
    by_cases hx : q x = true
    · simp only [modifyFirst, hx, ite_true, List.find?_cons_of_pos (hf x hx), List.find?_cons_of_pos (hq x hx),
        Option.map_some]
    · simp only [modifyFirst, hx, Bool.false_eq_true, ite_false]
      by_cases hpx : p x = true
      · rw [List.find?_cons_of_pos hpx, List.find?_cons_of_pos hpx, Option.map_some, if_neg hx]
      · rw [List.find?_cons_of_neg hpx, List.find?_cons_of_neg hpx, ih]

/-- The search that found the changed element finds its image. -/
theorem find?_modifyFirst_self (hf : ∀ x, p x = true → p (f x) = true) (l : List α) :
    (modifyFirst p f l).find? p = (l.find? p).map f := by
  rw [find?_modifyFirst_of_imp (fun _ h => h) hf]
  cases h : l.find? p with
  | none => rfl
  | some x => simp [List.find?_some h]

/-- A search for something else does not see the change. -/
theorem find?_modifyFirst_of_disjoint (h : ∀ x, p x = true → q x = false ∧ q (f x) = false) (l : List α) :
    (modifyFirst p f l).find? q = l.find? q := by
  induction l with
  | nil => rfl
  | cons x xs ih =>
    by_cases hx : p x = true
    · obtain ⟨h₁, h₂⟩ := h x hx
      simp only [modifyFirst, hx, ite_true]
      rw [List.find?_cons_of_neg (by simp [h₂]), List.find?_cons_of_neg (by simp [h₁])]
    · simp only [modifyFirst, hx, Bool.false_eq_true, ite_false]
      by_cases hq : q x = true
      · rw [List.find?_cons_of_pos hq, List.find?_cons_of_pos hq]
      · rw [List.find?_cons_of_neg hq, List.find?_cons_of_neg hq, ih]

theorem find?_eraseP_of_disjoint (h : ∀ x, p x = true → q x = false) (l : List α) :
    (l.eraseP p).find? q = l.find? q := by
  induction l with
  | nil => rfl
  | cons x xs ih =>
    by_cases hx : p x = true
    · rw [List.eraseP_cons_of_pos hx, List.find?_cons_of_neg (by simp [h x hx])]
    · rw [List.eraseP_cons_of_neg hx]
      by_cases hq : q x = true
      · rw [List.find?_cons_of_pos hq, List.find?_cons_of_pos hq]
      · rw [List.find?_cons_of_neg hq, List.find?_cons_of_neg hq, ih]

theorem map_modifyFirst {key : α → κ} (hk : ∀ x, key (f x) = key x) (l : List α) :
    (modifyFirst p f l).map key = l.map key := by
  induction l with
  | nil => rfl
  | cons x xs ih =>
    by_cases hx : p x = true <;> simp [modifyFirst, hx, hk, ih]

theorem length_modifyFirst (l : List α) : (modifyFirst p f l).length = l.length := by
  induction l with
  | nil => rfl
  | cons x xs ih =>
    rw [modifyFirst]
    split
    · rfl
    · rw [List.length_cons, ih, List.length_cons]

theorem forall_modifyFirst {P : α → Prop} (hf : ∀ x, P x → P (f x)) {l : List α} (h : ∀ x ∈ l, P x) :
    ∀ x ∈ modifyFirst p f l, P x := by
  induction l with
  | nil => exact h
  | cons y ys ih =>
    rw [List.forall_mem_cons] at h
    by_cases hy : p y = true
    · simp only [modifyFirst, hy, ite_true, List.forall_mem_cons]
      exact ⟨hf y h.1, h.2⟩
    · simp only [modifyFirst, hy, Bool.false_eq_true, ite_false, List.forall_mem_cons]
      exact ⟨h.1, ih h.2⟩

/-- A chain with distinct keys holds a key no more once its first match is
unlinked. -/
theorem find?_eraseP_key [DecidableEq κ] {key : α → κ} {k : κ} {l : List α} (hn : (l.map key).Nodup) :
    (l.eraseP fun x => key x == k).find? (fun x => key x == k) = none := by
  induction l with
  | nil => rfl
  | cons x xs ih =>
    rw [List.map_cons, List.nodup_cons] at hn
    by_cases hx : key x = k
    · rw [List.eraseP_cons_of_pos (by simp [hx]), List.find?_eq_none]
      intro y hy
      simp only [beq_iff_eq]
      exact fun e => hn.1 (List.mem_map.mpr ⟨y, hy, e.trans hx.symm⟩)
    · rw [List.eraseP_cons_of_neg (by simp [hx]), List.find?_cons_of_neg (by simp [hx]), ih hn.2]

theorem map_eraseP_sublist {key : α → κ} (l : List α) : ((l.eraseP p).map key).Sublist (l.map key) :=
  (List.eraseP_sublist (p := p) (l := l)).map key

/-- Unlinking the first match leaves the other ones. -/
theorem filter_eraseP (l : List α) : (l.eraseP p).filter p = (l.filter p).tail := by
  induction l with
  | nil => rfl
  | cons x xs ih =>
    by_cases hx : p x = true
    · rw [List.eraseP_cons_of_pos hx, List.filter_cons_of_pos hx, List.tail_cons]
    · rw [List.eraseP_cons_of_neg hx, List.filter_cons_of_neg hx, List.filter_cons_of_neg hx, ih]

section Sum

variable {M : Type} [AddCommMonoid M] {g : α → M}

/-- The sum over a chain, after a change that adds `d` to the first match. -/
theorem sum_modifyFirst {d : M} (hd : ∀ x, p x = true → g (f x) = g x + d) (l : List α) :
    ((modifyFirst p f l).map g).sum = (l.map g).sum + if (l.find? p).isSome then d else 0 := by
  induction l with
  | nil => simp [modifyFirst]
  | cons x xs ih =>
    by_cases hx : p x = true
    · simp only [modifyFirst, hx, ite_true, List.map_cons, List.sum_cons, List.find?_cons_of_pos hx,
        Option.isSome_some, hd x hx]
      rw [add_right_comm]
    · simp only [modifyFirst, hx, Bool.false_eq_true, ite_false, List.map_cons, List.sum_cons]
      rw [List.find?_cons_of_neg hx, ih, add_assoc]

/-- The sum over a chain is the first match's share and the rest's. -/
theorem sum_eraseP (l : List α) :
    (l.map g).sum = ((l.find? p).map g).getD 0 + ((l.eraseP p).map g).sum := by
  induction l with
  | nil => simp
  | cons x xs ih =>
    by_cases hx : p x = true
    · rw [List.find?_cons_of_pos hx, List.eraseP_cons_of_pos hx]
      simp
    · rw [List.find?_cons_of_neg hx, List.eraseP_cons_of_neg hx, List.map_cons, List.sum_cons, ih,
        List.map_cons, List.sum_cons, add_left_comm]

end Sum

/-- One element is replaced: the count changes by what the two contribute. -/
theorem countP_set_add {α : Type} {p : α → Bool} {l : List α} {n : Nat} {x : α} (y : α) (h : l[n]? = some x) :
    (l.set n y).countP p + (if p x then 1 else 0) = l.countP p + if p y then 1 else 0 := by
  induction l generalizing n with
  | nil => cases h
  | cons z l ih =>
    cases n with
    | zero =>
      cases h
      simp only [List.set_cons_zero, List.countP_cons]
      omega
    | succ n =>
      have := ih (by simpa using h)
      simp only [List.set_cons_succ, List.countP_cons]
      omega

end TR
