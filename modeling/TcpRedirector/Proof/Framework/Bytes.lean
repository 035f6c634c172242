import Mathlib.Data.List.TakeWhile
import TcpRedirector.TCB.Bytes

/-!
# Byte order and strings
-/

namespace TR

theorem ntohs_htons (x : BitVec 16) : ntohs (htons x) = x := by
  apply BitVec.eq_of_getLsbD_eq
  intro i hi
  simp only [ntohs, htons, BitVec.getLsbD_append, BitVec.getLsbD_extractLsb']
  grind

theorem htons_ntohs (x : BitVec 16) : htons (ntohs x) = x := ntohs_htons x

theorem ntohs_inj {x y : BitVec 16} : ntohs x = ntohs y ↔ x = y :=
  ⟨fun h => by rw [← htons_ntohs x, h, htons_ntohs], fun h => h ▸ rfl⟩

/-- `find` finds what occurs. -/
theorem find_isSome {α : Type} [DecidableEq α] {pat l : List α} : (find pat l).isSome = true ↔ pat <:+: l := by
  induction l with
  | nil =>
    rw [find, List.infix_nil]
    split <;> simp_all
  | cons x xs ih =>
    rw [find, List.infix_cons_iff, ← List.isPrefixOf_iff_prefix]
    split
    · rename_i h
      exact iff_of_true rfl (.inl h)
    · rename_i h
      rw [Option.isSome_map, ih]
      exact (or_iff_right h).symm

/-- `find` finds a prefix at the start. -/
theorem find_eq_zero {α : Type} [DecidableEq α] {pat l : List α} : find pat l = some 0 ↔ pat <+: l := by
  cases l with
  | nil =>
    rw [find, List.prefix_nil]
    split <;> simp_all
  | cons x xs =>
    rw [find, ← List.isPrefixOf_iff_prefix]
    split
    next h => simp [h]
    next h => simp [h]

/-- A pattern does not occur where its first two bytes do not. -/
theorem find_eq_none {a b : Byte} {pat l : Bytes} (h : ¬ [a, b] <:+: l) : find (a :: b :: pat) l = none := by
  rw [← Option.not_isSome_iff_eq_none, find_isSome]
  exact fun hp => h ((List.prefix_append [a, b] pat).isInfix.trans hp)

/-- Two texts with a separator are the same if the separator is the first one in both. -/
theorem append_cons_inj {α : Type} {x : α} {a b s t : List α} (ha : x ∉ a) (hb : x ∉ b) (h : a ++ x :: s = b ++ x :: t) :
    a = b ∧ s = t := by
  induction a generalizing b with
  | nil =>
    cases b with
    | nil => exact ⟨rfl, (List.cons.inj h).2⟩
    | cons y b => exact absurd ((List.cons.inj h).1 ▸ List.mem_cons_self) hb
  | cons z a ih =>
    cases b with
    | nil => exact absurd ((List.cons.inj h).1 ▸ List.mem_cons_self) ha
    | cons y b =>
      obtain ⟨rfl, htail⟩ := List.cons.inj h
      obtain ⟨rfl, rfl⟩ := ih (fun hm => ha (List.mem_cons_of_mem _ hm)) (fun hm => hb (List.mem_cons_of_mem _ hm)) htail
      exact ⟨rfl, rfl⟩

/-- The first occurrence is not after any other. -/
theorem find_le {α : Type} [DecidableEq α] {pat l a b : List α} {q : Nat} (hq : find pat l = some q)
    (hl : l = a ++ (pat ++ b)) : q ≤ a.length := by
  induction a generalizing l q with
  | nil =>
    rw [find_eq_zero.mpr ⟨b, hl.symm⟩] at hq
    cases hq
    exact Nat.le_refl 0
  | cons x a ih =>
    subst hl
    rw [List.cons_append, find] at hq
    split at hq
    · cases hq
      exact Nat.zero_le _
    · obtain ⟨q', hq', rfl⟩ := Option.map_eq_some_iff.mp hq
      exact Nat.succ_le_succ (ih hq' rfl)

/-- What is found stands there. -/
theorem find_prefix {α : Type} [DecidableEq α] {pat l : List α} {q : Nat} (hq : find pat l = some q) : pat <+: l.drop q := by
  induction l generalizing q with
  | nil =>
    rw [find] at hq
    split at hq
    · next h => exact h ▸ List.nil_prefix
    · cases hq
  | cons x l ih =>
    rw [find] at hq
    split at hq
    · next h =>
      cases hq
      exact List.isPrefixOf_iff_prefix.mp h
    · obtain ⟨q', hq', rfl⟩ := Option.map_eq_some_iff.mp hq
      exact ih hq'

/-- A pattern does not go on past a byte that it does not have. -/
theorem prefix_append_cons {α : Type} {pat l rest : List α} {x : α} (hx : x ∉ pat) : pat <+: l ++ x :: rest ↔ pat <+: l := by
  refine ⟨fun h => ?_, fun h => h.trans (List.prefix_append ..)⟩
  rcases Nat.lt_or_ge l.length pat.length with hlt | hle
  · have hpre : l ++ [x] <+: pat := by
      refine List.prefix_of_prefix_length_le ⟨rest, by simp⟩ h ?_
      rw [List.length_append, List.length_singleton]
      exact hlt
    exact absurd (hpre.subset (by simp)) hx
  · exact List.prefix_of_prefix_length_le h (List.prefix_append ..) hle

/-- A pattern that does not occur in a line is looked for behind it. -/
theorem find_append_cons {α : Type} [DecidableEq α] {pat l : List α} {x : α} (hx : x ∉ pat) (hl : find pat l = none)
    (rest : List α) : find pat (l ++ x :: rest) = (find pat rest).map (· + (l.length + 1)) := by
  have hpat : pat ≠ [] := by
    rintro rfl
    cases l <;> exact absurd hl (by simp [find])
  induction l with
  | nil =>
    have hhead : ¬ pat <+: x :: rest := by
      intro h
      exact hpat (List.prefix_nil.mp ((prefix_append_cons (l := []) hx).mp h))
    rw [List.nil_append, find, if_neg (by simpa using hhead)]
    rfl
  | cons y l ih =>
    rw [find] at hl
    split at hl
    · cases hl
    · next hhead =>
      have hnot : ¬ pat <+: y :: l ++ x :: rest := fun h => hhead (by simpa using (prefix_append_cons hx).mp h)
      rw [List.cons_append, find, if_neg (by simpa using hnot), ih (Option.map_eq_none_iff.mp hl), Option.map_map]
      congr 1

/-- A buffer without NUL is its C string. -/
theorem cstr_of_notMem {b : Bytes} (h : (0 : Byte) ∉ b) : cstr b = b :=
  List.takeWhile_eq_self_iff.mpr fun x hx => by
    rw [decide_eq_true_eq]
    rintro rfl
    exact h hx

theorem htons_inj {x y : BitVec 16} : htons x = htons y ↔ x = y := ntohs_inj

/-! ## Numbers -/

theorem digit_le {n : Nat} {c : Char} (h : c ∈ Nat.toDigits 10 n) : c.toNat ≤ 57 := by
  have hd := Nat.isDigit_of_mem_toDigits (by decide) (by decide) h
  simp only [Char.isDigit, Bool.and_eq_true, decide_eq_true_eq, UInt32.le_iff_toNat_le] at hd
  exact hd.2

/-- The digits are read back from their bytes. -/
theorem map_decimal (n : Nat) : (decimal n).map (fun b => Char.ofNat b.toNat) = Nat.toDigits 10 n := by
  rw [decimal, List.map_map]
  refine (List.map_congr_left fun c hc => ?_).trans (List.map_id _)
  have hle := digit_le hc
  show Char.ofNat (BitVec.ofNat 8 c.toNat).toNat = c
  rw [BitVec.toNat_ofNat, Nat.mod_eq_of_lt (by omega), Char.ofNat_toNat]

theorem decimal_inj {m n : Nat} : decimal m = decimal n ↔ m = n := by
  constructor
  · intro h
    have hdigits : Nat.toDigits 10 m = Nat.toDigits 10 n := by rw [← map_decimal, h, map_decimal]
    rw [← Nat.ofDigitChars_ten_toDigits (n := m), hdigits, Nat.ofDigitChars_ten_toDigits]
  · rintro rfl
    rfl

theorem decimal_ne_nil (n : Nat) : decimal n ≠ [] := fun h => Nat.toDigits_ne_nil (List.map_eq_nil_iff.mp h)

end TR
