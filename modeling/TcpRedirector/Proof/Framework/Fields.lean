import Mathlib.Data.List.Nodup

/-!
# Assignments to the fields of a state

`Fields` names the fields of a state, with what is read and written of each.
Assignments to different fields do not disturb each other, so after all of
them every field has the value it was assigned (`holds_applyAll`), and the
state is as it was exactly if each of them assigned what was there
(`applyAll_eq_self_iff`). A program that computes the values one by one stops
at the first that cannot be computed: `applied` is what it has assigned by
then, `fault` why it stopped.
-/

namespace TR

structure Fields (S ι : Type) where
  Value : ι → Type
  get : (f : ι) → S → Value f
  set : (f : ι) → Value f → S → S
  get_set : ∀ f v s, get f (set f v s) = v
  get_set_of_ne : ∀ f g v s, g ≠ f → get g (set f v s) = get g s
  set_get : ∀ f s, set f (get f s) s = s

namespace Fields

variable {S ι ε : Type} (F : Fields S ι)

/-- A field with the value assigned to it. -/
abbrev Assignment : Type := (f : ι) × F.Value f

/-- A field with the computation of its value. -/
abbrev Attempt (ε : Type) : Type := (f : ι) × Except ε (F.Value f)

/-- The field already has the value. -/
def Holds (a : F.Assignment) (s : S) : Prop := F.get a.1 s = a.2

def applyAll : List F.Assignment → S → S
  | [], s => s
  | a :: l, s => applyAll l (F.set a.1 a.2 s)

def applied : List (F.Attempt ε) → List F.Assignment
  | [] => []
  | ⟨f, .ok v⟩ :: l => ⟨f, v⟩ :: applied l
  | ⟨_, .error _⟩ :: _ => []

def fault : List (F.Attempt ε) → Option ε
  | [] => none
  | ⟨_, .ok _⟩ :: l => fault l
  | ⟨_, .error e⟩ :: _ => some e

variable {F} {l : List F.Assignment} {a : F.Assignment} {s : S} {f : ι}

theorem set_eq_self (h : F.Holds a s) : F.set a.1 a.2 s = s := by
  rw [← show F.get a.1 s = a.2 from h, F.set_get]

/-- A field that is not assigned keeps its value. -/
theorem get_applyAll_of_notMem (h : f ∉ l.map (·.1)) : F.get f (F.applyAll l s) = F.get f s := by
  induction l generalizing s with
  | nil => rfl
  | cons a l ih =>
    simp only [List.map_cons, List.mem_cons, not_or] at h
    rw [applyAll, ih h.2, F.get_set_of_ne _ _ _ _ h.1]

theorem holds_applyAll (hd : (l.map (·.1)).Nodup) (ha : a ∈ l) : F.Holds a (F.applyAll l s) := by
  induction l generalizing s with
  | nil => cases ha
  | cons b l ih =>
    rw [List.map_cons, List.nodup_cons] at hd
    rcases List.mem_cons.mp ha with rfl | ha
    · exact (get_applyAll_of_notMem hd.1).trans (F.get_set ..)
    · exact ih hd.2 ha

theorem applyAll_eq_self_iff (hd : (l.map (·.1)).Nodup) : F.applyAll l s = s ↔ ∀ a ∈ l, F.Holds a s := by
  constructor
  · intro h a ha
    have := holds_applyAll hd ha (s := s)
    rwa [h] at this
  · intro h
    induction l with
    | nil => rfl
    | cons a l ih =>
      rw [List.map_cons, List.nodup_cons] at hd
      rw [applyAll, set_eq_self (h a List.mem_cons_self), ih hd.2 fun b hb => h b (List.mem_cons_of_mem _ hb)]

variable {t : List (F.Attempt ε)}

theorem map_applied_prefix : (F.applied t).map (·.1) <+: t.map (·.1) := by
  induction t with
  | nil => exact List.prefix_rfl
  | cons a t ih =>
    obtain ⟨f, _ | v⟩ := a
    · exact List.nil_prefix
    · exact (List.prefix_cons_inj f).mpr ih

theorem nodup_applied (h : (t.map (·.1)).Nodup) : ((F.applied t).map (·.1)).Nodup :=
  h.sublist map_applied_prefix.sublist

/-- Without a fault every value is assigned. -/
theorem mem_applied {v : F.Value f} (hf : F.fault t = none) (h : ⟨f, .ok v⟩ ∈ t) : ⟨f, v⟩ ∈ F.applied t := by
  induction t with
  | nil => cases h
  | cons b t ih =>
    obtain ⟨g, _ | w⟩ := b
    · cases hf
    · rcases List.mem_cons.mp h with hb | h
      · cases hb
        exact List.mem_cons_self
      · exact List.mem_cons_of_mem _ (ih hf h)

theorem exists_ok_of_mem {r : Except ε (F.Value f)} (hf : F.fault t = none) (h : ⟨f, r⟩ ∈ t) : ∃ v, r = .ok v := by
  induction t with
  | nil => cases h
  | cons b t ih =>
    obtain ⟨g, _ | w⟩ := b
    · cases hf
    · rcases List.mem_cons.mp h with hb | h
      · cases hb
        exact ⟨w, rfl⟩
      · exact ih hf h

end Fields

end TR
