import Mathlib.Data.List.Nodup
import Mathlib.Order.Lattice

/-!
# The first of a sorted list

In a list that is sorted by a key, the first element with a property has the
least key of all that have it (`find_least`). If no other of them has this
key, then it is determined by the elements alone (`find_perm`).
-/

namespace TR

variable {α κ : Type} {key : α → κ} {p q : α → Bool} {l l' : List α} {a b : α}

/-- The keys of the elements with the property are distinct. -/
def DistinctOn (key : α → κ) (p : α → Bool) (l : List α) : Prop := ((l.filter p).map key).Nodup

theorem DistinctOn.perm (h : DistinctOn key p l) (hp : l.Perm l') : DistinctOn key p l' :=
  ((hp.filter p).map key).nodup_iff.mp h

theorem DistinctOn.eq (h : DistinctOn key p l) (ha : a ∈ l) (hpa : p a = true) (hb : b ∈ l) (hpb : p b = true)
    (hk : key a = key b) : a = b :=
  List.inj_on_of_nodup_map h (List.mem_filter.mpr ⟨ha, hpa⟩) (List.mem_filter.mpr ⟨hb, hpb⟩) hk

theorem DistinctOn.mono (h : DistinctOn key q l) (hpq : ∀ a, p a = true → q a = true) : DistinctOn key p l := by
  have hfilter : l.filter p = (l.filter q).filter p := by
    rw [List.filter_filter]
    refine List.filter_congr fun a _ => ?_
    cases hp : p a with
    | true => simp [hpq a hp]
    | false => rfl
  have hsub : ((l.filter p).map key).Sublist ((l.filter q).map key) := by
    rw [hfilter]
    exact List.filter_sublist.map _
  exact h.sublist hsub

section

variable [LinearOrder κ]

/-- Sorted by a key. -/
def SortedBy (key : α → κ) (l : List α) : Prop := l.Pairwise fun a b => key a ≤ key b

theorem SortedBy.of_sublist (h : SortedBy key l) (hl : l'.Sublist l) : SortedBy key l' := List.Pairwise.sublist hl h

theorem SortedBy.find_least (h : SortedBy key l) (hf : l.find? p = some a) : ∀ b ∈ l, p b = true → key a ≤ key b := by
  induction l with
  | nil => cases hf
  | cons c l ih =>
    obtain ⟨hc, hl⟩ := List.pairwise_cons.mp h
    intro b hb hpb
    by_cases hpc : p c = true
    · rw [List.find?_cons_of_pos hpc] at hf
      obtain rfl := Option.some.inj hf
      rcases List.mem_cons.mp hb with rfl | hb
      · exact le_refl _
      · exact hc b hb
    · rw [List.find?_cons_of_neg hpc] at hf
      rcases List.mem_cons.mp hb with rfl | hb
      · exact absurd hpb hpc
      · exact ih hl hf b hb hpb

theorem SortedBy.find_perm (h : SortedBy key l) (h' : SortedBy key l') (hp : l.Perm l') (hd : DistinctOn key p l) :
    l.find? p = l'.find? p := by
  cases ha : l.find? p with
  | none =>
    refine Eq.symm (List.find?_eq_none.mpr fun b hb => ?_)
    exact List.find?_eq_none.mp ha b (hp.mem_iff.mpr hb)
  | some a =>
    have hpa := List.find?_some ha
    have hal := List.mem_of_find?_eq_some ha
    cases hb : l'.find? p with
    | none => exact absurd hpa (List.find?_eq_none.mp hb a (hp.mem_iff.mp hal))
    | some b =>
      have hpb := List.find?_some hb
      have hbl := hp.mem_iff.mpr (List.mem_of_find?_eq_some hb)
      have hle := h.find_least ha b hbl hpb
      have hge := h'.find_least hb a (hp.mem_iff.mp hal) hpa
      rw [hd.eq hal hpa hbl hpb (le_antisymm hle hge)]

end

end TR
