import TcpRedirector.Proof.Framework.Unicode
import TcpRedirector.TCB.GetString

/-!
# Decoding in parts

A text in UTF-8 is decoded to itself (`utf8GetString_encodeUtf8`). Decoded in parts,
it stays the same exactly if each part is in UTF-8 (`flatMap_utf8GetString_iff`): a
character that lies across two parts becomes more replacement characters than
it was (`parts_of_char`, `count_le`).
-/

namespace TR

/-- The bytes of a character. -/
def encodeChar (c : Char) : Bytes := (String.utf8EncodeChar c).map (·.toBitVec)

theorem encodeUtf8_cons (c : Char) (cs : List Char) : encodeUtf8 (c :: cs) = encodeChar c ++ encodeUtf8 cs := rfl

theorem encodeUtf8_append (cs ds : List Char) : encodeUtf8 (cs ++ ds) = encodeUtf8 cs ++ encodeUtf8 ds := List.flatMap_append

theorem encodeUtf16_append (cs ds : List Char) : encodeUtf16 (cs ++ ds) = encodeUtf16 cs ++ encodeUtf16 ds :=
  List.flatMap_append

/-! ## One character -/

/-- A byte with this value. -/
def byteOf (n : Nat) : Byte := BitVec.ofNat 8 n

theorem toNat_byteOf {n : Nat} (h : n < 256) : (byteOf n).toNat = n := by
  rw [byteOf, BitVec.toNat_ofNat]
  omega

/-- The bytes of a character, by the number of them. -/
theorem encodeChar_cases (c : Char) :
    (c.toNat < 0x80 ∧ encodeChar c = [byteOf c.toNat]) ∨
    (0x80 ≤ c.toNat ∧ c.toNat < 0x800 ∧ encodeChar c = [byteOf (0xC0 + c.toNat / 64), byteOf (0x80 + c.toNat % 64)]) ∨
    (0x800 ≤ c.toNat ∧ c.toNat < 0x10000 ∧
      encodeChar c = [byteOf (0xE0 + c.toNat / 4096), byteOf (0x80 + c.toNat / 64 % 64), byteOf (0x80 + c.toNat % 64)]) ∨
    (0x10000 ≤ c.toNat ∧ c.toNat < 0x110000 ∧
      encodeChar c = [byteOf (0xF0 + c.toNat / 262144), byteOf (0x80 + c.toNat / 4096 % 64),
        byteOf (0x80 + c.toNat / 64 % 64), byteOf (0x80 + c.toNat % 64)]) := by
  have hv := char_toNat_valid c
  have hbyte (n : Nat) : (UInt8.ofNat n).toBitVec = byteOf n := rfl
  unfold encodeChar String.utf8EncodeChar
  simp only [Char.toNat_val]
  split
  next h => exact .inl ⟨by omega, by simp [hbyte]⟩
  next h =>
    split
    next h2 =>
      refine .inr (.inl ⟨by omega, by omega, ?_⟩)
      simp only [List.map_cons, List.map_nil, hbyte]
      rw [Nat.mod_eq_of_lt (by omega : c.toNat / 64 < 32), Nat.add_comm _ 0xC0, Nat.add_comm _ 0x80]
    next h2 =>
      split
      next h3 =>
        refine .inr (.inr (.inl ⟨by omega, by omega, ?_⟩))
        simp only [List.map_cons, List.map_nil, hbyte]
        rw [Nat.mod_eq_of_lt (by omega : c.toNat / 4096 < 16), Nat.add_comm _ 0xE0, Nat.add_comm _ 0x80, Nat.add_comm _ 0x80]
      next h3 =>
        refine .inr (.inr (.inr ⟨by omega, by omega, ?_⟩))
        simp only [List.map_cons, List.map_nil, hbyte]
        rw [Nat.mod_eq_of_lt (by omega : c.toNat / 262144 < 8), Nat.add_comm _ 0xF0, Nat.add_comm _ 0x80, Nat.add_comm _ 0x80,
          Nat.add_comm _ 0x80]

theorem leadByte_two {n : Nat} (h₁ : 2 ≤ n) (h₂ : n < 32) : leadByte (0xC0 + n) = some { needed := 1, bits := n } := by
  rw [leadByte, if_pos (by omega), Nat.add_sub_cancel_left]

theorem leadByte_three {n : Nat} (h : n < 16) :
    leadByte (0xE0 + n) =
      some { needed := 2, lower := if n = 0 then 0xA0 else 0x80, upper := if n = 13 then 0x9F else 0xBF, bits := n } := by
  have h₀ : (0xE0 + n = 0xE0) = (n = 0) := propext (by omega)
  have h₁₃ : (0xE0 + n = 0xED) = (n = 13) := propext (by omega)
  simp only [leadByte, h₀, h₁₃, Nat.add_sub_cancel_left]
  rw [if_neg (by omega), if_pos (by omega)]

theorem leadByte_four {n : Nat} (h : n < 5) :
    leadByte (0xF0 + n) =
      some { needed := 3, lower := if n = 0 then 0x90 else 0x80, upper := if n = 4 then 0x8F else 0xBF, bits := n } := by
  have h₀ : (0xF0 + n = 0xF0) = (n = 0) := propext (by omega)
  have h₄ : (0xF0 + n = 0xF4) = (n = 4) := propext (by omega)
  simp only [leadByte, h₀, h₄, Nat.add_sub_cancel_left]
  rw [if_neg (by omega), if_neg (by omega), if_pos (by omega)]

theorem decodeByte_lead {n : Nat} {s : Utf8Sequence} (hn : 0x80 ≤ n) (h : leadByte n = some s) :
    decodeByte none n = ([], some s) := by
  simp only [decodeByte, decodeFirst, h]
  rw [if_neg (by omega)]

/-- A byte within a character. -/
theorem decodeByte_more {needed lower upper v : Nat} (hneeded : needed ≠ 1) (hlower : lower ≤ 0x80 + v % 64)
    (hupper : 0x80 + v % 64 ≤ upper) :
    decodeByte (some ⟨needed, lower, upper, v / 64⟩) (0x80 + v % 64) = ([], some { needed := needed - 1, bits := v }) := by
  have hbits : v / 64 * 64 + (0x80 + v % 64 - 0x80) = v := by omega
  simp only [decodeByte, hbits, if_neg hneeded]
  rw [if_pos ⟨hlower, hupper⟩]

/-- The last byte of a character. -/
theorem decodeByte_last (c : Char) :
    decodeByte (some { needed := 1, bits := c.toNat / 64 }) (0x80 + c.toNat % 64) = (utf16Char c, none) := by
  have hbits : c.toNat / 64 * 64 + (0x80 + c.toNat % 64 - 0x80) = c.toNat := by omega
  simp only [decodeByte, hbits, if_true, Char.ofNat_toNat]
  rw [if_pos (by omega)]

/-- The character is complete after these bytes, and not before. -/
def Completes (c : Char) : Option Utf8Sequence → Bytes → Prop
  | _, [] => False
  | s, [b] => decodeByte s b.toNat = (utf16Char c, none)
  | s, b :: b' :: bytes => ∃ s', decodeByte s b.toNat = ([], some s') ∧ Completes c (some s') (b' :: bytes)

theorem completes_encodeChar (c : Char) : Completes c none (encodeChar c) := by
  have hv := char_toNat_valid c
  rcases encodeChar_cases c with ⟨h, hc⟩ | ⟨h₁, h₂, hc⟩ | ⟨h₁, h₂, hc⟩ | ⟨h₁, h₂, hc⟩
  · rw [hc, Completes, toNat_byteOf (by omega), decodeByte, decodeFirst, if_pos h, utf16Char, if_pos (by omega)]
  · rw [hc, Completes, toNat_byteOf (by omega)]
    refine ⟨_, decodeByte_lead (by omega) (leadByte_two (by omega) (by omega)), ?_⟩
    rw [Completes, toNat_byteOf (by omega)]
    exact decodeByte_last c
  · rw [hc, Completes, toNat_byteOf (by omega)]
    refine ⟨_, decodeByte_lead (by omega) (leadByte_three (by omega)), ?_⟩
    have hdiv : c.toNat / 4096 = c.toNat / 64 / 64 := by omega
    rw [Completes, toNat_byteOf (by omega), hdiv]
    refine ⟨_, decodeByte_more (by omega) ?_ ?_, ?_⟩
    · split <;> omega
    · split <;> omega
    · rw [Completes, toNat_byteOf (by omega)]
      exact decodeByte_last c
  · rw [hc, Completes, toNat_byteOf (by omega)]
    refine ⟨_, decodeByte_lead (by omega) (leadByte_four (by omega)), ?_⟩
    have hdiv : c.toNat / 262144 = c.toNat / 4096 / 64 := by omega
    rw [Completes, toNat_byteOf (by omega), hdiv]
    refine ⟨_, decodeByte_more (by omega) ?_ ?_, ?_⟩
    · split <;> omega
    · split <;> omega
    · have hdiv : c.toNat / 4096 = c.toNat / 64 / 64 := by omega
      rw [Completes, toNat_byteOf (by omega), hdiv]
      refine ⟨_, decodeByte_more (by omega) (by omega) (by omega), ?_⟩
      rw [Completes, toNat_byteOf (by omega)]
      exact decodeByte_last c

theorem Completes.utf8GetStringFrom {c : Char} {s : Option Utf8Sequence} {bytes : Bytes} (h : Completes c s bytes)
    (rest : Bytes) :
    utf8GetStringFrom s (bytes ++ rest) = utf16Char c ++ utf8GetStringFrom none rest := by
  induction bytes generalizing s with
  | nil => cases h
  | cons b bytes ih =>
    cases bytes with
    | nil =>
      rw [Completes] at h
      rw [List.cons_append, List.nil_append, TR.utf8GetStringFrom, h]
    | cons b' bytes =>
      obtain ⟨s', hs, h⟩ := h
      rw [List.cons_append, TR.utf8GetStringFrom, hs, ih h, List.nil_append]

/-- After the first bytes of a character the others are awaited. -/
theorem Completes.utf8GetStringFrom_head {c : Char} {s : Option Utf8Sequence} {head tail : Bytes}
    (h : Completes c s (head ++ tail))
    (hhead : head ≠ []) (htail : tail ≠ []) :
    ∃ s', ∀ rest, TR.utf8GetStringFrom s (head ++ rest) = TR.utf8GetStringFrom (some s') rest := by
  induction head generalizing s with
  | nil => exact absurd rfl hhead
  | cons b head ih =>
    obtain ⟨s', hs, h⟩ : ∃ s', decodeByte s b.toNat = ([], some s') ∧ Completes c (some s') (head ++ tail) := by
      cases hbytes : head ++ tail with
      | nil => exact absurd (List.append_eq_nil_iff.mp hbytes).2 htail
      | cons b' bytes => rwa [List.cons_append, hbytes] at h
    by_cases hempty : head = []
    · refine ⟨s', fun rest => ?_⟩
      rw [hempty, List.cons_append, TR.utf8GetStringFrom, hs]
      rfl
    · obtain ⟨s'', hrest⟩ := ih h hempty
      refine ⟨s'', fun rest => ?_⟩
      rw [List.cons_append, TR.utf8GetStringFrom, hs]
      exact hrest rest

theorem utf8GetString_encodeUtf8_append (cs : List Char) (rest : Bytes) :
    utf8GetString (encodeUtf8 cs ++ rest) = encodeUtf16 cs ++ utf8GetString rest := by
  induction cs with
  | nil => rfl
  | cons c cs ih =>
    rw [encodeUtf8_cons, List.append_assoc, utf8GetString, (completes_encodeChar c).utf8GetStringFrom]
    show utf16Char c ++ utf8GetString (encodeUtf8 cs ++ rest) = utf16Char c ++ encodeUtf16 cs ++ utf8GetString rest
    rw [ih, List.append_assoc]

/-- A text in UTF-8 is decoded to itself. -/
theorem utf8GetString_encodeUtf8 (cs : List Char) : utf8GetString (encodeUtf8 cs) = encodeUtf16 cs := by
  have h := utf8GetString_encodeUtf8_append cs []
  rwa [List.append_nil, show utf8GetString [] = [] from rfl, List.append_nil] at h

/-! ## Parts of characters -/

theorem encodeChar_ne_nil (c : Char) : encodeChar c ≠ [] := by
  rw [encodeChar, ne_eq, List.map_eq_nil_iff]
  exact String.utf8EncodeChar_ne_nil

/-- No character begins with any of these bytes. -/
def Trailing (bytes : Bytes) : Prop := ∀ b ∈ bytes, 0x80 ≤ b.toNat ∧ b.toNat < 0xC0

theorem trailing_byteOf (n : Nat) : 0x80 ≤ (byteOf (0x80 + n % 64)).toNat ∧ (byteOf (0x80 + n % 64)).toNat < 0xC0 := by
  rw [toNat_byteOf (by omega)]
  omega

theorem trailing_nil : Trailing [] := List.forall_mem_nil _

theorem trailing_byteOf_cons {n : Nat} {bytes : Bytes} (h : Trailing bytes) : Trailing (byteOf (0x80 + n % 64) :: bytes) :=
  List.forall_mem_cons.mpr ⟨trailing_byteOf n, h⟩

/-- All bytes of a character but the first. -/
theorem trailing_of_encodeChar {c : Char} {b : Byte} {bytes : Bytes} (h : encodeChar c = b :: bytes) : Trailing bytes := by
  rcases encodeChar_cases c with ⟨-, hc⟩ | ⟨-, -, hc⟩ | ⟨-, -, hc⟩ | ⟨-, -, hc⟩
  all_goals obtain ⟨-, rfl⟩ := List.cons.inj (h.symm.trans hc)
  · exact trailing_nil
  · exact trailing_byteOf_cons trailing_nil
  · exact trailing_byteOf_cons (trailing_byteOf_cons trailing_nil)
  · exact trailing_byteOf_cons (trailing_byteOf_cons (trailing_byteOf_cons trailing_nil))

/-- A character that is cut in two. -/
theorem parts_of_char {c : Char} {head tail : Bytes} (h : encodeChar c = head ++ tail) (hhead : head ≠ [])
    (htail : tail ≠ []) :
    utf8GetString head = [0xFFFD] ∧ Trailing tail := by
  constructor
  · have hc := completes_encodeChar c
    rw [h] at hc
    obtain ⟨s, hs⟩ := hc.utf8GetStringFrom_head hhead htail
    have hnil := hs []
    rw [List.append_nil] at hnil
    exact hnil
  · cases head with
    | nil => exact absurd rfl hhead
    | cons b head => exact fun b' hb' => trailing_of_encodeChar h b' (List.mem_append_right _ hb')

theorem utf8GetString_trailing {tail : Bytes} (h : Trailing tail) (rest : Bytes) :
    utf8GetString (tail ++ rest) = List.replicate tail.length 0xFFFD ++ utf8GetString rest := by
  induction tail with
  | nil => rfl
  | cons b tail ih =>
    obtain ⟨hlower, hupper⟩ := h b List.mem_cons_self
    have hb : decodeByte none b.toNat = ([0xFFFD], none) := by
      have hlead : leadByte b.toNat = none := by
        rw [leadByte, if_neg (by omega), if_neg (by omega), if_neg (by omega)]
      simp only [decodeByte, decodeFirst, hlead]
      rw [if_neg (by omega)]
    rw [List.cons_append, utf8GetString, utf8GetStringFrom, hb]
    show [0xFFFD] ++ utf8GetString (tail ++ rest) = _
    rw [ih fun b' hb' => h b' (List.mem_cons_of_mem _ hb')]
    rfl

/-- A cut of a text lies between two characters or within one. -/
theorem cut_cases {cs : List Char} {left right : Bytes} (h : encodeUtf8 cs = left ++ right) :
    (∃ pre post, cs = pre ++ post ∧ left = encodeUtf8 pre ∧ right = encodeUtf8 post) ∨
    ∃ pre c post head tail, cs = pre ++ c :: post ∧ encodeChar c = head ++ tail ∧ head ≠ [] ∧ tail ≠ [] ∧
      left = encodeUtf8 pre ++ head ∧ right = tail ++ encodeUtf8 post := by
  induction cs generalizing left with
  | nil =>
    obtain ⟨rfl, rfl⟩ := List.append_eq_nil_iff.mp h.symm
    exact .inl ⟨[], [], rfl, rfl, rfl⟩
  | cons c cs ih =>
    rw [encodeUtf8_cons] at h
    rcases List.append_eq_append_iff.mp h with ⟨left', rfl, h'⟩ | ⟨tail, hc, rfl⟩
    · rcases ih h' with ⟨pre, post, rfl, rfl, rfl⟩ | ⟨pre, c', post, head, tail, rfl, hc', hhead, htail, rfl, rfl⟩
      · exact .inl ⟨c :: pre, post, rfl, rfl, rfl⟩
      · exact .inr ⟨c :: pre, c', post, head, tail, rfl, hc', hhead, htail, by rw [encodeUtf8_cons, List.append_assoc], rfl⟩
    · by_cases hleft : left = []
      · subst hleft
        exact .inl ⟨[], c :: cs, rfl, rfl, by rw [encodeUtf8_cons, hc]; rfl⟩
      · by_cases htail : tail = []
        · subst htail
          rw [List.append_nil] at hc
          exact .inl ⟨[c], cs, rfl, by rw [← hc]; exact (List.append_nil _).symm, rfl⟩
        · exact .inr ⟨[], c, cs, left, tail, rfl, hc, hleft, htail, rfl, rfl⟩

/-! ## Decoding part by part -/

/-- How many replacement characters a string has. -/
def replacements (w : WString) : Nat := w.count 0xFFFD

@[simp]
theorem replacements_append (v w : WString) : replacements (v ++ w) = replacements v + replacements w := List.count_append

@[simp]
theorem replacements_replicate (n : Nat) : replacements (List.replicate n 0xFFFD) = n := List.count_replicate_self

theorem replacements_utf16Char (c : Char) : replacements (utf16Char c) ≤ 1 := by
  have hv := char_toNat_valid c
  rw [utf16Char]
  split
  next => exact List.count_le_length
  next h =>
    have hne {n : Nat} (h₁ : 0xD800 ≤ n) (h₂ : n < 0xE000) : (BitVec.ofNat 16 n == 0xFFFD) = false := by
      rw [beq_eq_false_iff_ne, ne_eq, ← BitVec.toNat_inj, BitVec.toNat_ofNat]
      show ¬n % 65536 = 65533
      omega
    rw [replacements, List.count_cons, List.count_cons, hne (by omega) (by omega), hne (by omega) (by omega)]
    simp

/-- The first part of a character adds a replacement character, the character
itself not more than one. -/
theorem replacements_cut (pre post : List Char) {c : Char} {head : Bytes} (hreplaced : utf8GetString head = [0xFFFD]) :
    replacements (encodeUtf16 (pre ++ c :: post)) ≤
      replacements (utf8GetString (encodeUtf8 pre ++ head)) + replacements (encodeUtf16 post) := by
  have hone := replacements_utf16Char c
  have hcs : encodeUtf16 (pre ++ c :: post) = encodeUtf16 pre ++ (utf16Char c ++ encodeUtf16 post) := encodeUtf16_append ..
  have hhead : replacements [0xFFFD] = 1 := rfl
  rw [utf8GetString_encodeUtf8_append, hreplaced, hcs]
  simp only [replacements_append, hhead]
  omega

/-- Decoding in parts loses no replacement character; the rest of a character has one for each of its bytes. -/
theorem count_le {parts : List Bytes} {tail : Bytes} {cs : List Char} (htail : Trailing tail)
    (h : parts.flatten = tail ++ encodeUtf8 cs) :
    tail.length + replacements (encodeUtf16 cs) ≤ replacements (parts.flatMap utf8GetString) := by
  induction parts generalizing tail cs with
  | nil =>
    obtain ⟨rfl, hcs⟩ := List.append_eq_nil_iff.mp h.symm
    cases cs with
    | nil => exact Nat.le.refl
    | cons c cs => exact absurd (List.append_eq_nil_iff.mp hcs).1 (encodeChar_ne_nil c)
  | cons part parts ih =>
    rw [List.flatMap_cons, replacements_append]
    rcases List.append_eq_append_iff.mp h with ⟨tail', rfl, h'⟩ | ⟨part', rfl, h'⟩
    · have hpart := utf8GetString_trailing (fun b hb => htail b (List.mem_append_left _ hb)) []
      have hrest := ih (fun b hb => htail b (List.mem_append_right _ hb)) h'
      rw [List.append_nil, show utf8GetString [] = [] from rfl, List.append_nil] at hpart
      rw [hpart, replacements_replicate, List.length_append]
      omega
    · rw [utf8GetString_trailing htail, replacements_append, replacements_replicate]
      rcases cut_cases h' with ⟨pre, post, rfl, rfl, hpost⟩ | ⟨pre, c, post, head, tail', rfl, hc, hhead, htail', rfl, hpost⟩
      · have hnone : Trailing [] := nofun
        have hrest := ih hnone hpost
        rw [List.length_nil] at hrest
        rw [utf8GetString_encodeUtf8, encodeUtf16_append, replacements_append]
        omega
      · obtain ⟨hreplaced, htrailing⟩ := parts_of_char hc hhead htail'
        have hrest := ih htrailing hpost
        have hcut := replacements_cut pre post (c := c) hreplaced
        omega

/-- A part that is not in UTF-8 adds a replacement character. -/
theorem count_lt {parts : List Bytes} {cs : List Char} (h : parts.flatten = encodeUtf8 cs)
    (hnot : ¬∀ part ∈ parts, Utf8 part) : replacements (encodeUtf16 cs) < replacements (parts.flatMap utf8GetString) := by
  induction parts generalizing cs with
  | nil => exact absurd nofun hnot
  | cons part parts ih =>
    rw [List.flatMap_cons, replacements_append]
    rcases cut_cases h.symm with ⟨pre, post, rfl, rfl, hpost⟩ | ⟨pre, c, post, head, tail, rfl, hc, hhead, htail, rfl, hpost⟩
    · have hnot' : ¬∀ part ∈ parts, Utf8 part := fun hall => hnot (List.forall_mem_cons.mpr ⟨⟨pre, rfl⟩, hall⟩)
      have hrest := ih hpost hnot'
      rw [utf8GetString_encodeUtf8, encodeUtf16_append, replacements_append]
      exact Nat.add_lt_add_left hrest _
    · obtain ⟨hreplaced, htrailing⟩ := parts_of_char hc hhead htail
      have hrest := count_le htrailing hpost
      have hcut := replacements_cut pre post (c := c) hreplaced
      have hpos := List.length_pos_of_ne_nil htail
      omega

theorem encodeUtf8_injective {cs ds : List Char} (h : encodeUtf8 cs = encodeUtf8 ds) : cs = ds := by
  have hdecode := congrArg decodeUtf8 h
  rw [decodeUtf8_encodeUtf8, decodeUtf8_encodeUtf8] at hdecode
  exact Option.some.inj hdecode

theorem exists_of_utf8 {parts : List Bytes} (h : ∀ part ∈ parts, Utf8 part) :
    ∃ cs, parts.flatten = encodeUtf8 cs ∧ parts.flatMap utf8GetString = encodeUtf16 cs := by
  induction parts with
  | nil => exact ⟨[], rfl, rfl⟩
  | cons part parts ih =>
    obtain ⟨⟨pre, hpre⟩, hparts⟩ := List.forall_mem_cons.mp h
    obtain ⟨post, hpost, hdecoded⟩ := ih hparts
    have hpart : part = encodeUtf8 pre := hpre
    refine ⟨pre ++ post, ?_, ?_⟩
    · rw [List.flatten_cons, hpost, hpart, encodeUtf8_append]
    · rw [List.flatMap_cons, hdecoded, hpart, utf8GetString_encodeUtf8, encodeUtf16_append]

/-- A text that is decoded in parts stays the same exactly if they are in UTF-8. -/
theorem flatMap_utf8GetString_iff {parts : List Bytes} {cs : List Char} (h : parts.flatten = encodeUtf8 cs) :
    parts.flatMap utf8GetString = encodeUtf16 cs ↔ ∀ part ∈ parts, Utf8 part := by
  constructor
  · intro hsame
    by_contra hnot
    have hlt := count_lt h hnot
    rw [hsame] at hlt
    exact absurd hlt (Nat.lt_irrefl _)
  · intro hparts
    obtain ⟨ds, hds, hdecoded⟩ := exists_of_utf8 hparts
    rw [hdecoded, encodeUtf8_injective (h.symm.trans hds)]

/-! ## The ends of characters -/

/-- A character of the text ends at byte `n`, or the text begins there. -/
def EndsAt (cs : List Char) (n : Nat) : Prop := ∃ pre, pre <+: cs ∧ (encodeUtf8 pre).length = n

theorem endsAt_zero (cs : List Char) : EndsAt cs 0 := ⟨[], List.nil_prefix, rfl⟩

theorem endsAt_length (cs : List Char) : EndsAt cs (encodeUtf8 cs).length := ⟨cs, List.prefix_rfl, rfl⟩

theorem decodeUtf16_encodeUtf16_append (cs : List Char) (w : WString) :
    decodeUtf16 (encodeUtf16 cs ++ w) = cs ++ decodeUtf16 w := by
  induction cs with
  | nil => rfl
  | cons c cs ih =>
    show decodeUtf16 (utf16Char c ++ encodeUtf16 cs ++ w) = _
    rw [List.append_assoc, decodeUtf16_append, ih, List.cons_append]

/-- What begins with a text has its characters first. -/
theorem prefix_of_encodeUtf8 {cs ds : List Char} {rest : Bytes} (h : encodeUtf8 cs = encodeUtf8 ds ++ rest) : ds <+: cs := by
  have hstring := congrArg utf8GetString h
  rw [utf8GetString_encodeUtf8, utf8GetString_encodeUtf8_append] at hstring
  have hchars := congrArg decodeUtf16 hstring
  rw [decodeUtf16_encodeUtf16, decodeUtf16_encodeUtf16_append] at hchars
  exact ⟨_, hchars.symm⟩

/-- The first bytes of a text are in UTF-8 exactly if a character ends there. -/
theorem utf8_iff_endsAt {cs : List Char} {left right : Bytes} (h : encodeUtf8 cs = left ++ right) :
    Utf8 left ↔ EndsAt cs left.length := by
  constructor
  · rintro ⟨pre, rfl⟩
    exact ⟨pre, prefix_of_encodeUtf8 h, rfl⟩
  · rintro ⟨pre, ⟨post, rfl⟩, hlength⟩
    rw [encodeUtf8_append] at h
    exact ⟨pre, (List.append_inj_left h hlength).symm⟩

theorem endsAt_append {pre post : List Char} {n : Nat} :
    EndsAt (pre ++ post) ((encodeUtf8 pre).length + n) ↔ EndsAt post n := by
  constructor
  · rintro ⟨ds, hds, hlength⟩
    rcases List.prefix_or_prefix_of_prefix hds (List.prefix_append pre post) with ⟨more, rfl⟩ | ⟨more, rfl⟩
    · rw [encodeUtf8_append, List.length_append] at hlength
      obtain rfl : n = 0 := by omega
      exact endsAt_zero post
    · rw [encodeUtf8_append, List.length_append] at hlength
      exact ⟨more, (List.prefix_append_right_inj pre).mp hds, by omega⟩
  · rintro ⟨ds, hds, hlength⟩
    refine ⟨pre ++ ds, (List.prefix_append_right_inj pre).mpr hds, ?_⟩
    rw [encodeUtf8_append, List.length_append, hlength]

/-! ## Something is decoded to something -/

theorem decodeByte_progress (s : Option Utf8Sequence) (n : Nat) :
    (decodeByte s n).1 ≠ [] ∨ (decodeByte s n).2.isSome = true := by
  have hfirst : (decodeFirst n).1 ≠ [] ∨ (decodeFirst n).2.isSome = true := by
    rw [decodeFirst]
    split
    next => exact .inl (List.cons_ne_nil _ _)
    next =>
      split
      next => exact .inr rfl
      next => exact .inl (List.cons_ne_nil _ _)
  cases s with
  | none => exact hfirst
  | some s =>
    simp only [decodeByte]
    split
    next =>
      split
      next =>
        refine .inl ?_
        rw [utf16Char]
        split <;> exact List.cons_ne_nil _ _
      next => exact .inr rfl
    next => exact .inl (List.cons_ne_nil _ _)

theorem utf8GetStringFrom_ne_nil {s : Option Utf8Sequence} {bytes : Bytes} (h : s.isSome = true ∨ bytes ≠ []) :
    utf8GetStringFrom s bytes ≠ [] := by
  induction bytes generalizing s with
  | nil =>
    rw [utf8GetStringFrom, if_pos (h.resolve_right (absurd rfl))]
    exact List.cons_ne_nil _ _
  | cons b bytes ih =>
    rw [utf8GetStringFrom, ne_eq, List.append_eq_nil_iff]
    rintro ⟨hnow, hlater⟩
    exact ih (.inl ((decodeByte_progress s b.toNat).resolve_left (absurd hnow))) hlater

theorem utf8GetString_ne_nil {bytes : Bytes} (h : bytes ≠ []) : utf8GetString bytes ≠ [] := utf8GetStringFrom_ne_nil (.inr h)

end TR
