import TcpRedirector.Proof.Framework.Bytes
import TcpRedirector.TCB.Json

/-!
# Strings and objects of JSON values

`dump` throws on a string that is not UTF-8, and `parse` gives none
(`JsonText.Lawful`); so a text can be written for every value made of parsed
strings and of ASCII (`Json.Utf8`). An entry that was set is found again, and
no other is touched (`Json.lookup_insert`).
-/

namespace TR

/-- The encoding of some characters. -/
def Utf8 (b : Bytes) : Prop := ∃ cs : List Char, b = cs.flatMap fun c => (String.utf8EncodeChar c).map (·.toBitVec)

theorem Utf8.append {a b : Bytes} (ha : Utf8 a) (hb : Utf8 b) : Utf8 (a ++ b) := by
  obtain ⟨cs, rfl⟩ := ha
  obtain ⟨ds, rfl⟩ := hb
  exact ⟨cs ++ ds, by rw [List.flatMap_append]⟩

/-- A byte below 128 is the encoding of its character. -/
theorem utf8_singleton {b : Byte} (hb : b.toNat < 128) : Utf8 [b] := by
  have hv : b.toNat.isValidChar := .inl (by omega)
  have hs : b.toNat < UInt32.size := Nat.lt_trans hb (by decide)
  refine ⟨[⟨UInt32.ofNatLT b.toNat hs, by simpa [UInt32.isValidChar] using hv⟩], ?_⟩
  have hle : b.toNat ≤ 127 := by omega
  simp only [String.utf8EncodeChar, List.flatMap_cons, List.flatMap_nil, List.append_nil]
  simp [UInt32.toNat_ofNatLT, hle]

/-- ASCII is UTF-8. -/
theorem utf8_of_lt {b : Bytes} (h : ∀ c ∈ b, c.toNat < 128) : Utf8 b := by
  induction b with
  | nil => exact ⟨[], rfl⟩
  | cons c b ih =>
    have hc := utf8_singleton (h c List.mem_cons_self)
    exact hc.append (ih fun c hc => h c (List.mem_cons_of_mem _ hc))

theorem utf8_ascii {s : String} (h : s.toList.all (·.toNat < 128) = true) : Utf8 (ascii s) := by
  refine utf8_of_lt fun b hb => ?_
  obtain ⟨c, hc, rfl⟩ := List.mem_map.mp hb
  have hlt : c.toNat < 128 := by simpa using List.all_eq_true.mp h c hc
  rw [BitVec.toNat_ofNat]
  omega

theorem utf8_decimal (n : Nat) : Utf8 (decimal n) := by
  refine utf8_of_lt fun b hb => ?_
  obtain ⟨c, hc, rfl⟩ := List.mem_map.mp hb
  have hle := digit_le hc
  rw [BitVec.toNat_ofNat]
  omega

/-- All strings in the value are UTF-8. -/
inductive Json.Utf8 : Json → Prop
  | null : Json.Utf8 .null
  | boolean {b : Bool} : Json.Utf8 (.boolean b)
  | unsigned {n : BitVec 64} : Json.Utf8 (.unsigned n)
  | integer {n : BitVec 64} : Json.Utf8 (.integer n)
  | float {n : BitVec 64} : Json.Utf8 (.float n)
  | string {s : Bytes} : TR.Utf8 s → Json.Utf8 (.string s)
  | array {l : List Json} : (∀ j ∈ l, Json.Utf8 j) → Json.Utf8 (.array l)
  | object {l : List (Bytes × Json)} : (∀ e ∈ l, TR.Utf8 e.1) → (∀ e ∈ l, Json.Utf8 e.2) → Json.Utf8 (.object l)

namespace Json

theorem mem_of_lookup {key : Bytes} {l : List (Bytes × Json)} {v : Json} (h : lookup key l = some v) : (key, v) ∈ l := by
  obtain ⟨e, he, rfl⟩ := Option.map_eq_some_iff.mp h
  have hk := List.find?_some he
  have hm := List.mem_of_find?_eq_some he
  obtain ⟨k, v⟩ := e
  have hkey : k = key := by simpa using hk
  rwa [hkey] at hm

theorem mem_insert {key : Bytes} {v : Json} {l : List (Bytes × Json)} {e : Bytes × Json} (h : e ∈ insert key v l) :
    e = (key, v) ∨ e ∈ l := by
  induction l with
  | nil => exact .inl (List.mem_singleton.mp h)
  | cons e' l ih =>
    obtain ⟨k, w⟩ := e'
    unfold insert at h
    split at h
    · rcases List.mem_cons.mp h with h | h
      · exact .inl h
      · exact .inr (List.mem_cons_of_mem _ h)
    · split at h
      · rcases List.mem_cons.mp h with h | h
        · exact .inl h
        · exact .inr h
      · rcases List.mem_cons.mp h with h | h
        · exact .inr (h ▸ List.mem_cons_self)
        · exact (ih h).imp_right (List.mem_cons_of_mem _)

theorem lookup_insert_self (key : Bytes) (v : Json) (l : List (Bytes × Json)) : lookup key (insert key v l) = some v := by
  induction l with
  | nil => simp [insert, lookup]
  | cons e l ih =>
    obtain ⟨k, w⟩ := e
    unfold insert
    split
    · simp [lookup]
    · next hk =>
      split
      · simp [lookup]
      · have hne : ¬k = key := fun h => hk h.symm
        simpa [lookup, hne] using ih

theorem lookup_insert_of_ne {key key' : Bytes} (h : key' ≠ key) (v : Json) (l : List (Bytes × Json)) :
    lookup key' (insert key v l) = lookup key' l := by
  have hne : ¬key = key' := fun he => h he.symm
  induction l with
  | nil => simp [insert, lookup, hne]
  | cons e l ih =>
    obtain ⟨k, w⟩ := e
    unfold insert
    split
    next hk =>
      subst hk
      simp [lookup, hne]
    next =>
      split
      · simp [lookup, hne]
      · by_cases hk : k = key'
        · simp [lookup, hk]
        · simpa [lookup, hk] using ih

theorem Utf8.set {j v : Json} {key : String} (hj : j.Utf8) (hk : key.toList.all (·.toNat < 128) = true) (hv : v.Utf8) :
    (j.set key v).Utf8 := by
  have hkey := utf8_ascii hk
  have hone : (Json.object [(ascii key, v)]).Utf8 := by
    refine .object (fun e he => ?_) (fun e he => ?_)
    · rw [List.mem_singleton.mp he]
      exact hkey
    · rw [List.mem_singleton.mp he]
      exact hv
  cases hj with
  | object hks hvs =>
    refine .object (fun e he => ?_) (fun e he => ?_)
    · rcases mem_insert he with rfl | he
      · exact hkey
      · exact hks e he
    · rcases mem_insert he with rfl | he
      · exact hv
      · exact hvs e he
  | _ => exact hone

/-- The text of an exception, if there is one, is UTF-8. -/
def ThrowsUtf8 {α : Type} (r : Except JsonFault α) : Prop := ∀ what, r = .error (.exception what) → TR.Utf8 what

section

variable {α β : Type}

theorem throwsUtf8_ok (a : α) : ThrowsUtf8 (.ok a : Except JsonFault α) := nofun

theorem ThrowsUtf8.bind {r : Except JsonFault α} {f : α → Except JsonFault β} (hr : ThrowsUtf8 r)
    (hf : ∀ a, ThrowsUtf8 (f a)) : ThrowsUtf8 (r >>= f) := by
  intro what h
  cases r with
  | error fault =>
    cases h
    exact hr what rfl
  | ok a => exact hf a what h

theorem utf8_typeName (j : Json) : TR.Utf8 j.typeName := by
  cases j <;> exact utf8_ascii (by decide)

theorem throwsUtf8_typeError {id : Nat} {text : Bytes} (h : TR.Utf8 text) :
    ThrowsUtf8 (.error (typeError id text) : Except JsonFault α) := by
  rintro what ⟨⟩
  exact (((utf8_ascii (by decide)).append (utf8_decimal id)).append (utf8_ascii (by decide))).append h

theorem throwsUtf8_mustBe {type : String} (h : type.toList.all (·.toNat < 128) = true) (j : Json) :
    ThrowsUtf8 (.error (mustBe type j) : Except JsonFault α) := by
  refine throwsUtf8_typeError ?_
  exact (((utf8_ascii (by decide)).append (utf8_ascii h)).append (utf8_ascii (by decide))).append (utf8_typeName j)

theorem throwsUtf8_constIndex (j : Json) (key : String) : ThrowsUtf8 (j.constIndex key) := by
  cases j with
  | object l =>
    dsimp only [constIndex]
    split
    · exact throwsUtf8_ok _
    · nofun
  | _ => exact throwsUtf8_typeError ((utf8_ascii (by decide)).append (utf8_typeName _))

theorem throwsUtf8_getString (j : Json) : ThrowsUtf8 j.getString := by
  cases j with
  | string s => exact throwsUtf8_ok _
  | _ => exact throwsUtf8_mustBe (by decide) _

theorem throwsUtf8_getInt (cast : BitVec 64 → BitVec 32) (j : Json) : ThrowsUtf8 (j.getInt cast) := by
  cases j with
  | null | string | array | object => exact throwsUtf8_mustBe (by decide) _
  | _ => exact throwsUtf8_ok _

theorem throwsUtf8_getUInt64 (cast : BitVec 64 → BitVec 64) (j : Json) : ThrowsUtf8 (j.getUInt64 cast) := by
  cases j with
  | unsigned | integer | float => exact throwsUtf8_ok _
  | _ => exact throwsUtf8_mustBe (by decide) _

theorem throwsUtf8_value {get : Json → Except JsonFault α} (hget : ∀ j, ThrowsUtf8 (get j)) (j : Json) (key : String)
    (d : α) :
    ThrowsUtf8 (j.value get key d) := by
  cases j with
  | object l =>
    dsimp only [value]
    split
    · exact hget _
    · exact throwsUtf8_ok _
  | _ => exact throwsUtf8_typeError ((utf8_ascii (by decide)).append (utf8_typeName _))

end

end Json

/-- What is used of `parse` and `dump`. -/
structure JsonText.Lawful (x : JsonText) : Prop where
  parse_utf8 : ∀ b j, x.parse b = .ok j → j.Utf8
  dump_utf8 : ∀ j, j.Utf8 → ∃ b, x.dump j = .ok b

/-! ## Texts for examples -/

/-- The compact text of a value in which no string needs an escape. -/
def Json.compact : Json → Bytes
  | .null => ascii "null"
  | .boolean b => ascii (if b then "true" else "false")
  | .unsigned n => decimal n.toNat
  | .integer n => decimal n.toNat
  | .float _ => ascii "0.0"
  | .string s => ascii "\"" ++ s ++ ascii "\""
  | .array l => ascii "[" ++ elements l ++ ascii "]"
  | .object l => ascii "\x7b" ++ entries l ++ ascii "\x7d"
where
  elements : List Json → Bytes
    | [] => []
    | [v] => v.compact
    | v :: l => v.compact ++ ascii "," ++ elements l
  entries : List (Bytes × Json) → Bytes
    | [] => []
    | [(k, v)] => ascii "\"" ++ k ++ ascii "\":" ++ v.compact
    | (k, v) :: l => ascii "\"" ++ k ++ ascii "\":" ++ v.compact ++ ascii "," ++ entries l

/-- Reads the texts of the given values. -/
def JsonText.reading (known : List Json) : JsonText where
  parse b :=
    match known.find? (·.compact = b) with
    | some j => .ok j
    | none => .error (ascii "[json.exception.parse_error.101] parse error")
  dump j := .ok j.compact
  toInt bits := bits.setWidth 32
  toUInt64 bits := bits

theorem JsonText.reading_lawful {known : List Json} (h : ∀ j ∈ known, j.Utf8) : (JsonText.reading known).Lawful where
  parse_utf8 := by
    intro b j hp
    simp only [JsonText.reading] at hp
    split at hp
    next j' hj =>
      cases hp
      exact h _ (List.mem_of_find?_eq_some hj)
    next => cases hp
  dump_utf8 := fun j _ => ⟨j.compact, rfl⟩

end TR
