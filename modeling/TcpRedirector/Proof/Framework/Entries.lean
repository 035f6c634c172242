import TcpRedirector.Proof.Framework.Json

/-!
# The entries of an object

What the access functions of a JSON value give, by the entry they look at
(`Json.entry`), and which entries the assignments leave. The text of a value
is read back with the same entries (`Json.entry_reread`).
-/

namespace TR.Json

variable {α : Type} {j v w : Json} {k k' o : String}

/-! ## Access -/

theorem contains_eq_isSome (j : Json) (k : String) : j.contains k = (j.entry k).isSome := by
  cases j <;> rfl

theorem contains_of_entry (h : j.entry k = some v) : j.contains k = true := by
  rw [contains_eq_isSome, h]
  rfl

theorem index_of_entry (h : j.entry k = some v) : j.index k = .ok v := by
  cases j with
  | object l =>
    have hl : lookup (ascii k) l = some v := h
    simp only [index, hl, Option.getD_some]
  | _ => cases h

theorem constIndex_of_entry (h : j.entry k = some v) : j.constIndex k = .ok v := by
  cases j with
  | object l =>
    have hl : lookup (ascii k) l = some v := h
    simp only [constIndex, hl]
  | _ => cases h

theorem value_of_entry {get : Json → Except JsonFault α} {d : α} (h : j.entry k = some v) : j.value get k d = get v := by
  cases j with
  | object l =>
    have hl : lookup (ascii k) l = some v := h
    simp only [value, hl]
  | _ => cases h

/-! ## Assignments -/

@[simp]
theorem entry_null (k : String) : null.entry k = none := rfl

@[simp]
theorem entry_set_self (j : Json) (k : String) (v : Json) : (j.set k v).entry k = some v := by
  cases j with
  | object l => exact lookup_insert_self _ _ _
  | _ => simp [set, entry, lookup]

theorem entry_set_of_ne (h : ascii k' ≠ ascii k) : (j.set k v).entry k' = j.entry k' := by
  cases j with
  | object l => exact lookup_insert_of_ne h v l
  | _ =>
    have hne : ¬ascii k = ascii k' := fun he => h he.symm
    simp [set, entry, lookup, hne]

theorem insert_insert_self (key : Bytes) (l : List (Bytes × Json)) : insert key w (insert key v l) = insert key w l := by
  induction l with
  | nil => simp [insert]
  | cons e l ih =>
    obtain ⟨k, u⟩ := e
    simp only [insert]
    split
    · simp [insert]
    · next hne =>
      split
      · simp [insert]
      · next hlt => simp only [insert, if_neg hne, if_neg hlt, ih]

/-- An assignment replaces an earlier one. -/
theorem set_set_self (j : Json) (k : String) (v w : Json) : (j.set k v).set k w = j.set k w := by
  cases j with
  | object l => exact congrArg object (insert_insert_self _ l)
  | _ => simp [set, insert]

theorem put_set_self (j : Json) (o k : String) (v w : Json) : (j.set o v).put o k w = j.set o (v.set k w) := by
  rw [put, index_of_entry (entry_set_self j o v)]
  exact set_set_self j o v (v.set k w)

/-- The first assignment within `j[o]` makes it an object. -/
theorem put_of_entry_none (h : (j.set k' v).entry o = none) :
    (j.set k' v).put o k w = (j.set k' v).set o (null.set k w) := by
  have hindex : (j.set k' v).index o = .ok null := by
    cases j with
    | object l =>
      have hl : lookup (ascii o) (insert (ascii k') v l) = none := h
      simp only [set, index, hl, Option.getD_none]
    | _ =>
      have hl : lookup (ascii o) [(ascii k', v)] = none := h
      simp only [set, index, hl, Option.getD_none]
  rw [put, hindex]
  rfl

/-! ## The text read back -/

theorem rereadElements_eq_map (l : List Json) : rereadElements l = l.map reread := by
  induction l with
  | nil => rfl
  | cons j l ih => rw [rereadElements, ih, List.map_cons]

theorem lookup_rereadEntries (key : Bytes) (l : List (Bytes × Json)) :
    lookup key (rereadEntries l) = (lookup key l).map reread := by
  induction l with
  | nil => rfl
  | cons e l ih =>
    obtain ⟨k, v⟩ := e
    rw [rereadEntries]
    by_cases hk : k = key
    · simp [lookup, hk]
    · simpa [lookup, hk] using ih

theorem entry_reread (j : Json) (k : String) : j.reread.entry k = (j.entry k).map reread := by
  cases j with
  | object l => exact lookup_rereadEntries _ l
  | integer n =>
    rw [reread]
    split <;> rfl
  | float bits =>
    rw [reread]
    split <;> rfl
  | _ => rfl

theorem entry_reread_of_entry (h : j.entry k = some v) : j.reread.entry k = some v.reread := by
  rw [entry_reread, h]
  rfl

theorem getString_reread (s : Bytes) : (string s).reread.getString = .ok s := rfl

theorem getBool_reread (b : Bool) : (boolean b).reread.getBool = .ok b := rfl

theorem getInt_reread_unsigned (cast : BitVec 64 → BitVec 32) (n : BitVec 64) :
    (unsigned n).reread.getInt cast = .ok (n.setWidth 32) := rfl

/-- A 32-bit number is read back, as a signed number or not. -/
theorem getInt_reread_integer (cast : BitVec 64 → BitVec 32) (n : BitVec 32) :
    (integer (n.signExtend 64)).reread.getInt cast = .ok n := by
  have hn : (n.signExtend 64).setWidth 32 = n := by
    ext i hi
    have hlt : i < 64 := by omega
    simp [BitVec.getElem_signExtend, hi, hlt]
  rw [reread]
  split <;> exact congrArg Except.ok hn

theorem getUInt16_reread_integer (cast : BitVec 64 → BitVec 16) (n : BitVec 32) :
    (integer (n.signExtend 64)).reread.getUInt16 cast = .ok (n.setWidth 16) := by
  have hn : (n.signExtend 64).setWidth 16 = n.setWidth 16 := by
    apply BitVec.eq_of_getLsbD_eq
    intro i hi
    have hlt : i < 64 := by omega
    have hlt' : i < 32 := by omega
    simp only [BitVec.getLsbD_setWidth, BitVec.getLsbD_signExtend, hlt, hlt', decide_true, if_true, Bool.true_and]
  rw [reread]
  split <;> exact congrArg Except.ok hn

/-! ## Strings -/

theorem Utf8.index (hj : j.Utf8) (h : j.index k = .ok v) : v.Utf8 := by
  cases j with
  | null =>
    cases h
    exact .null
  | object l =>
    cases hj with
    | object _ hvs =>
      have hv : (lookup (ascii k) l).getD .null = v := Except.ok.inj h
      cases hl : lookup (ascii k) l with
      | none =>
        rw [hl] at hv
        cases hv
        exact .null
      | some w =>
        rw [hl] at hv
        cases hv
        exact hvs _ (mem_of_lookup hl)
  | _ => cases h

theorem Utf8.of_entry (hj : j.Utf8) (h : j.entry k = some v) : v.Utf8 := hj.index (index_of_entry h)

theorem Utf8.constIndex (hj : j.Utf8) (h : j.constIndex k = .ok v) : v.Utf8 := by
  cases hj with
  | object _ hvs =>
    dsimp only [Json.constIndex] at h
    split at h
    next w hw =>
      cases h
      exact hvs _ (mem_of_lookup hw)
    next => cases h
  | _ => cases h

theorem Utf8.elements (hj : j.Utf8) : ∀ v ∈ j.elements, v.Utf8 := by
  intro v hv
  cases hj with
  | null => cases hv
  | array hl => exact hl v hv
  | object _ hvs =>
    obtain ⟨e, he, rfl⟩ := List.mem_map.mp hv
    exact hvs e he
  | string hs =>
    rw [List.mem_singleton.mp hv]
    exact .string hs
  | boolean | unsigned | integer | float =>
    rw [List.mem_singleton.mp hv]
    constructor

theorem Utf8.getString {s : Bytes} (hj : j.Utf8) (h : j.getString = .ok s) : TR.Utf8 s := by
  cases hj with
  | string hs =>
    cases h
    exact hs
  | _ => cases h

theorem Utf8.value_getString {s d : Bytes} (hj : j.Utf8) (hd : TR.Utf8 d) (h : j.value Json.getString k d = .ok s) :
    TR.Utf8 s := by
  cases j with
  | object l =>
    dsimp only [value] at h
    split at h
    next v hv => exact (hj.of_entry (k := k) hv).getString h
    next =>
      cases h
      exact hd
  | _ => cases h

/-- A computation that succeeds has done its first step. -/
theorem bind_eq_ok {α β : Type} {r : Except JsonFault α} {f : α → Except JsonFault β} {b : β} (h : (r >>= f) = .ok b) :
    ∃ a, r = .ok a ∧ f a = .ok b := by
  cases r with
  | error e => cases h
  | ok a => exact ⟨a, rfl, h⟩

/-- A list is read as it should be if and only if each of its elements is. -/
theorem mapM_eq_some_map_iff {α β : Type} {f : α → Option β} {h : α → β} {l : List α} :
    l.mapM f = some (l.map h) ↔ ∀ a ∈ l, f a = some (h a) := by
  induction l with
  | nil => simp
  | cons a l ih =>
    rw [List.mapM_cons, List.forall_mem_cons, ← ih]
    cases hf : f a with
    | none => simp
    | some b =>
      cases hl : l.mapM f with
      | none => simp
      | some l' => simp

/-! ## Texts for examples -/

/-- The text of `dump(4)`, for a value in which no string needs an escape. -/
def indented (ind : Nat) : Json → Bytes
  | .array [] => ascii "[]"
  | .array l => ascii "[\n" ++ elements (ind + 4) l ++ ascii "\n" ++ .replicate ind 32 ++ ascii "]"
  | .object [] => ascii "\x7b\x7d"
  | .object l => ascii "\x7b\n" ++ entries (ind + 4) l ++ ascii "\n" ++ .replicate ind 32 ++ ascii "\x7d"
  | .integer n => if n.msb then ascii "-" ++ decimal (-n).toNat else decimal n.toNat
  | j => j.compact
where
  elements (ind : Nat) : List Json → Bytes
    | [] => []
    | [v] => .replicate ind 32 ++ v.indented ind
    | v :: l => .replicate ind 32 ++ v.indented ind ++ ascii ",\n" ++ elements ind l
  entries (ind : Nat) : List (Bytes × Json) → Bytes
    | [] => []
    | [(k, v)] => .replicate ind 32 ++ ascii "\"" ++ k ++ ascii "\": " ++ v.indented ind
    | (k, v) :: l => .replicate ind 32 ++ ascii "\"" ++ k ++ ascii "\": " ++ v.indented ind ++ ascii ",\n" ++ entries ind l

end TR.Json
