import Mathlib.Data.List.Nodup
import Mathlib.Data.List.Perm.Basic

/-!
# Who owns what

Each of some holders has a list of what is its own. `Owns holds live`: what is
live is with one holder, once, and nothing else is with any. It is kept when a
new element comes to a holder (`Owns.acquire`), when a holder gives one up
(`Owns.release`), and when elements go from one holder to another
(`Owns.move`). `Owns.act` is the rule for what a holder does with an element:
it opens, uses or closes it (`ResourceAct`).
-/

namespace TR

variable {ι κ : Type} {holds holds' : ι → List κ} {live live' : κ → Prop} {i j : ι} {b : κ}

structure Owns (holds : ι → List κ) (live : κ → Prop) : Prop where
  nodup : ∀ i, (holds i).Nodup
  unique : ∀ i j b, b ∈ holds i → b ∈ holds j → i = j
  live_iff : ∀ b, live b ↔ ∃ i, b ∈ holds i

theorem Owns.isLive (h : Owns holds live) (hb : b ∈ holds i) : live b := (h.live_iff b).mpr ⟨i, hb⟩

theorem Owns.not_mem (h : Owns holds live) (hb : b ∈ holds i) (hij : i ≠ j) : b ∉ holds j :=
  fun hj => hij (h.unique i j b hb hj)

theorem Owns.congr (h : Owns holds live) (hholds : ∀ k, (holds' k).Perm (holds k)) (hlive : ∀ c, live' c ↔ live c) :
    Owns holds' live' where
  nodup k := (hholds k).nodup_iff.mpr (h.nodup k)
  unique k l c hk hl := h.unique k l c ((hholds k).mem_iff.mp hk) ((hholds l).mem_iff.mp hl)
  live_iff c := by
    rw [hlive, h.live_iff]
    exact exists_congr fun k => (hholds k).mem_iff.symm

theorem Owns.acquire (h : Owns holds live) (hb : ¬live b) (hi : (holds' i).Perm (b :: holds i))
    (hsame : ∀ k, k ≠ i → holds' k = holds k) (hlive : ∀ c, live' c ↔ c = b ∨ live c) : Owns holds' live' := by
  have hnone : ∀ k, b ∉ holds k := fun k hk => hb (h.isLive hk)
  have hmem : ∀ k c, c ∈ holds' k ↔ k = i ∧ c = b ∨ c ∈ holds k := by
    intro k c
    by_cases hk : k = i
    · subst hk
      rw [hi.mem_iff, List.mem_cons]
      simp
    · rw [hsame k hk]
      simp [hk]
  refine ⟨fun k => ?_, fun k l c hk hl => ?_, fun c => ?_⟩
  · by_cases hk : k = i
    · subst hk
      rw [hi.nodup_iff, List.nodup_cons]
      exact ⟨hnone k, h.nodup k⟩
    · rw [hsame k hk]
      exact h.nodup k
  · rcases (hmem k c).mp hk with ⟨rfl, rfl⟩ | hk
    · rcases (hmem l c).mp hl with ⟨rfl, -⟩ | hl
      · rfl
      · exact absurd hl (hnone l)
    · rcases (hmem l c).mp hl with ⟨rfl, rfl⟩ | hl
      · exact absurd hk (hnone k)
      · exact h.unique k l c hk hl
  · rw [hlive, h.live_iff]
    constructor
    · rintro (rfl | ⟨k, hk⟩)
      · exact ⟨i, (hmem i c).mpr (.inl ⟨rfl, rfl⟩)⟩
      · exact ⟨k, (hmem k c).mpr (.inr hk)⟩
    · rintro ⟨k, hk⟩
      rcases (hmem k c).mp hk with ⟨-, rfl⟩ | hk
      · exact .inl rfl
      · exact .inr ⟨k, hk⟩

theorem Owns.release (h : Owns holds live) (hi : (holds i).Perm (b :: holds' i))
    (hsame : ∀ k, k ≠ i → holds' k = holds k) (hlive : ∀ c, live' c ↔ c ≠ b ∧ live c) : Owns holds' live' := by
  have hnodup : b ∉ holds' i ∧ (holds' i).Nodup := by
    have hall := h.nodup i
    rwa [hi.nodup_iff, List.nodup_cons] at hall
  have hbi : b ∈ holds i := hi.mem_iff.mpr List.mem_cons_self
  have hmem : ∀ k c, c ∈ holds' k ↔ c ≠ b ∧ c ∈ holds k := by
    intro k c
    by_cases hk : k = i
    · subst hk
      rw [hi.mem_iff, List.mem_cons]
      constructor
      · exact fun hc => ⟨fun heq => hnodup.1 (heq ▸ hc), .inr hc⟩
      · rintro ⟨hne, rfl | hc⟩
        · exact absurd rfl hne
        · exact hc
    · rw [hsame k hk]
      refine ⟨fun hc => ⟨?_, hc⟩, fun hc => hc.2⟩
      rintro rfl
      exact h.not_mem hbi (Ne.symm hk) hc
  refine ⟨fun k => ?_, fun k l c hk hl => ?_, fun c => ?_⟩
  · by_cases hk : k = i
    · exact hk ▸ hnodup.2
    · rw [hsame k hk]
      exact h.nodup k
  · exact h.unique k l c ((hmem k c).mp hk).2 ((hmem l c).mp hl).2
  · rw [hlive, h.live_iff]
    constructor
    · rintro ⟨hne, k, hk⟩
      exact ⟨k, (hmem k c).mpr ⟨hne, hk⟩⟩
    · rintro ⟨k, hk⟩
      obtain ⟨hne, hk⟩ := (hmem k c).mp hk
      exact ⟨hne, k, hk⟩

/-- An element is with one of two holders or with another. -/
theorem exists_mem_split {f : ι → List κ} (i j : ι) {c : κ} :
    (∃ k, c ∈ f k) ↔ (c ∈ f i ∨ c ∈ f j) ∨ ∃ k, k ≠ i ∧ k ≠ j ∧ c ∈ f k := by
  constructor
  · rintro ⟨k, hk⟩
    by_cases hki : k = i
    · exact .inl (.inl (hki ▸ hk))
    · by_cases hkj : k = j
      · exact .inl (.inr (hkj ▸ hk))
      · exact .inr ⟨k, hki, hkj, hk⟩
  · rintro ((hk | hk) | ⟨k, -, -, hk⟩)
    · exact ⟨i, hk⟩
    · exact ⟨j, hk⟩
    · exact ⟨k, hk⟩

theorem Owns.move (h : Owns holds live) (hij : i ≠ j) (hmove : (holds' i ++ holds' j).Perm (holds i ++ holds j))
    (hsame : ∀ k, k ≠ i → k ≠ j → holds' k = holds k) : Owns holds' live := by
  have hnodup : (holds' i ++ holds' j).Nodup := by
    rw [hmove.nodup_iff, List.nodup_append]
    refine ⟨h.nodup i, h.nodup j, fun c hc d hd => ?_⟩
    rintro rfl
    exact h.not_mem hc hij hd
  rw [List.nodup_append] at hnodup
  obtain ⟨hi, hj, hdisjoint⟩ := hnodup
  -- an element of a holder is with one of the two before and after, or stays where it is
  have hpair : ∀ c, c ∈ holds' i ∨ c ∈ holds' j ↔ c ∈ holds i ∨ c ∈ holds j := by
    intro c
    rw [← List.mem_append, hmove.mem_iff, List.mem_append]
  have hother : ∀ k c, k ≠ i → k ≠ j → (c ∈ holds' i ∨ c ∈ holds' j) → c ∉ holds' k := by
    intro k c hki hkj hc hk
    rw [hsame k hki hkj] at hk
    rcases (hpair c).mp hc with hc | hc
    · exact h.not_mem hc (Ne.symm hki) hk
    · exact h.not_mem hc (Ne.symm hkj) hk
  refine ⟨fun k => ?_, fun k l c hk hl => ?_, fun c => ?_⟩
  · by_cases hki : k = i
    · exact hki ▸ hi
    · by_cases hkj : k = j
      · exact hkj ▸ hj
      · rw [hsame k hki hkj]
        exact h.nodup k
  · have hcases : ∀ k, k = i ∨ k = j ∨ k ≠ i ∧ k ≠ j := by
      intro k
      by_cases hki : k = i
      · exact .inl hki
      · by_cases hkj : k = j
        · exact .inr (.inl hkj)
        · exact .inr (.inr ⟨hki, hkj⟩)
    rcases hcases k with rfl | rfl | ⟨hki, hkj⟩ <;> rcases hcases l with rfl | rfl | ⟨hli, hlj⟩
    · rfl
    · exact absurd rfl (hdisjoint c hk c hl)
    · exact absurd hl (hother l c hli hlj (.inl hk))
    · exact absurd rfl (hdisjoint c hl c hk)
    · rfl
    · exact absurd hl (hother l c hli hlj (.inr hk))
    · exact absurd hk (hother k c hki hkj (.inl hl))
    · exact absurd hk (hother k c hki hkj (.inr hl))
    · rw [hsame k hki hkj] at hk
      rw [hsame l hli hlj] at hl
      exact h.unique k l c hk hl
  · rw [h.live_iff, exists_mem_split i j, exists_mem_split i j, hpair]
    refine or_congr_right (exists_congr fun k => and_congr_right fun hki => and_congr_right fun hkj => ?_)
    rw [hsame k hki hkj]

/-! ## Opening, using and closing -/

inductive ResourceAct (κ : Type) where
  | opened (b : κ)
  | used (b : κ)
  | closed (b : κ)
  deriving DecidableEq

namespace ResourceAct

/-- What is left of a list of elements. -/
def after [DecidableEq κ] : ResourceAct κ → List κ → List κ
  | .opened b, l => b :: l
  | .used _, l => l
  | .closed b, l => l.erase b

/-- What is used or closed is in the list. -/
def Fits : ResourceAct κ → List κ → Prop
  | .opened _, _ => True
  | .used b, l | .closed b, l => b ∈ l

variable {a : ResourceAct κ} {l l' : List κ}

theorem Fits.perm (h : a.Fits l) (hl : l.Perm l') : a.Fits l' := by
  cases a with
  | opened b => trivial
  | used b => exact hl.mem_iff.mp h
  | closed b => exact hl.mem_iff.mp h

theorem after_perm [DecidableEq κ] (a : ResourceAct κ) (hl : l.Perm l') : (a.after l).Perm (a.after l') := by
  cases a with
  | opened b => exact hl.cons b
  | used b => exact hl
  | closed b => exact hl.erase b

theorem after_nodup [DecidableEq κ] (h : l.Nodup) (hfresh : ∀ b, a = .opened b → b ∉ l) : (a.after l).Nodup := by
  cases a with
  | opened b => exact List.nodup_cons.mpr ⟨hfresh b rfl, h⟩
  | used b => exact h
  | closed b => exact h.erase b

end ResourceAct

theorem Owns.act [DecidableEq κ] {l : List κ} {a : ResourceAct κ} (h : Owns holds (· ∈ l)) (hl : l.Nodup)
    (hfits : a.Fits (holds i)) (hfresh : ∀ b, a = .opened b → b ∉ l) (hi : (holds' i).Perm (a.after (holds i)))
    (hsame : ∀ k, k ≠ i → holds' k = holds k) : Owns holds' (· ∈ a.after l) := by
  cases a with
  | opened b => exact h.acquire (hfresh b rfl) hi hsame fun c => List.mem_cons
  | used b =>
    refine h.congr (fun k => ?_) fun c => Iff.rfl
    by_cases hk : k = i
    · exact hk ▸ hi
    · rw [hsame k hk]
  | closed b =>
    have hrest : (holds i).Perm (b :: holds' i) := (List.perm_cons_erase hfits).trans (hi.symm.cons b)
    exact h.release hrest hsame fun c => hl.mem_erase_iff

end TR
