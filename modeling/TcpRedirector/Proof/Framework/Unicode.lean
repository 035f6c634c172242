import TcpRedirector.Proof.Framework.Json
import TcpRedirector.TCB.Unicode

/-!
# Converting between UTF-8 and UTF-16

Both conversions are inverse on well-formed strings (`utf8ToWide_wideToUtf8`,
`wideToUtf8_utf8ToWide`).
-/

namespace TR

/-- The code units of some characters. -/
def Utf16 (w : WString) : Prop := ∃ cs, w = encodeUtf16 cs

theorem utf8_encodeUtf8 (cs : List Char) : Utf8 (encodeUtf8 cs) := ⟨cs, rfl⟩

theorem utf16_encodeUtf16 (cs : List Char) : Utf16 (encodeUtf16 cs) := ⟨cs, rfl⟩

theorem decodeUtf8_encodeUtf8 (cs : List Char) : decodeUtf8 (encodeUtf8 cs) = some cs := by
  have hbytes : (encodeUtf8 cs).map UInt8.ofBitVec = cs.flatMap String.utf8EncodeChar := by
    rw [encodeUtf8, List.map_flatMap]
    simp [List.map_map, Function.comp_def]
  have hencoded : ByteArray.mk ((encodeUtf8 cs).map UInt8.ofBitVec).toArray = cs.utf8Encode := by
    rw [hbytes, List.utf8Encode]
    apply ByteArray.ext
    simp
  rw [decodeUtf8, hencoded, List.utf8Decode?_utf8Encode]
  rfl

/-- The characters of ASCII are bytes and code units. -/
theorem encode_ascii {s : String} (h : s.toList.all (·.toNat < 128) = true) :
    encodeUtf8 s.toList = ascii s ∧ encodeUtf16 s.toList = (ascii s).map (·.setWidth 16) := by
  rw [ascii]
  generalize s.toList = l at h
  induction l with
  | nil => exact ⟨rfl, rfl⟩
  | cons c l ih =>
    obtain ⟨hc, hl⟩ : c.toNat < 128 ∧ l.all (·.toNat < 128) = true := by simpa using h
    obtain ⟨ih8, ih16⟩ := ih hl
    have h8 : (String.utf8EncodeChar c).map (·.toBitVec) = [BitVec.ofNat 8 c.toNat] := by
      have hle : c.toNat ≤ 127 := by omega
      simp only [String.utf8EncodeChar, Char.toNat_val, hle, if_true, List.map_cons, List.map_nil]
      rfl
    have h16 : utf16Char c = [(BitVec.ofNat 8 c.toNat).setWidth 16] := by
      rw [utf16Char, if_pos (by omega)]
      congr 1
      apply BitVec.eq_of_toNat_eq
      simp only [BitVec.toNat_setWidth, BitVec.toNat_ofNat]
      omega
    constructor
    · rw [encodeUtf8, List.flatMap_cons, h8, ← encodeUtf8, ih8]
      rfl
    · rw [encodeUtf16, List.flatMap_cons, h16, ← encodeUtf16, ih16]
      rfl

/-- A character is a code point below the surrogates, or behind them. -/
theorem char_toNat_valid (c : Char) : c.toNat < 0xD800 ∨ 0xE000 ≤ c.toNat ∧ c.toNat < 0x110000 := by
  rcases c.valid with h | ⟨h₁, h₂⟩
  · exact .inl h
  · exact .inr ⟨h₁, h₂⟩

theorem ofUnit_of_lt (c : Char) (h : c.toNat < 0x10000) : ofUnit (BitVec.ofNat 16 c.toNat) = c := by
  have hv := char_toNat_valid c
  have hn : (BitVec.ofNat 16 c.toNat).toNat = c.toNat := by
    rw [BitVec.toNat_ofNat]
    omega
  rw [ofUnit, hn, if_pos (by omega), Char.ofNat_toNat]

/-- The two surrogates of a character behind the first plane. -/
theorem ofPair_of_le (c : Char) (h : 0x10000 ≤ c.toNat) :
    isPair (BitVec.ofNat 16 (0xD800 + (c.toNat - 0x10000) / 0x400))
      (BitVec.ofNat 16 (0xDC00 + (c.toNat - 0x10000) % 0x400)) = true ∧
    ofPair (BitVec.ofNat 16 (0xD800 + (c.toNat - 0x10000) / 0x400))
      (BitVec.ofNat 16 (0xDC00 + (c.toNat - 0x10000) % 0x400)) = c := by
  have hv := char_toNat_valid c
  have hhigh : (BitVec.ofNat 16 (0xD800 + (c.toNat - 0x10000) / 0x400)).toNat = 0xD800 + (c.toNat - 0x10000) / 0x400 := by
    rw [BitVec.toNat_ofNat]
    omega
  have hlow : (BitVec.ofNat 16 (0xDC00 + (c.toNat - 0x10000) % 0x400)).toNat = 0xDC00 + (c.toNat - 0x10000) % 0x400 := by
    rw [BitVec.toNat_ofNat]
    omega
  rw [isPair, ofPair, hhigh, hlow]
  constructor
  · rw [decide_eq_true_eq]
    omega
  · have hsum : 0x10000 + (0xD800 + (c.toNat - 0x10000) / 0x400 - 0xD800) * 0x400 +
        (0xDC00 + (c.toNat - 0x10000) % 0x400 - 0xDC00) = c.toNat := by omega
    rw [hsum, Char.ofNat_toNat]

/-- The units of a character are read back, whatever follows: one that stands by itself is no surrogate. -/
theorem decodeUtf16_append (c : Char) (w : WString) : decodeUtf16 (utf16Char c ++ w) = c :: decodeUtf16 w := by
  rw [utf16Char]
  split
  next h =>
    have hv := char_toNat_valid c
    cases w with
    | nil => simp [decodeUtf16, ofUnit_of_lt c h]
    | cons v w =>
      have hn : (BitVec.ofNat 16 c.toNat).toNat = c.toNat := by
        rw [BitVec.toNat_ofNat]
        omega
      have hpair : isPair (BitVec.ofNat 16 c.toNat) v = false := by
        rw [isPair, hn, decide_eq_false_iff_not]
        omega
      simp [decodeUtf16, hpair, ofUnit_of_lt c h]
  next h =>
    obtain ⟨hpair, hof⟩ := ofPair_of_le c (by omega)
    simp only [List.cons_append, List.nil_append, decodeUtf16, hpair, if_true, hof]

theorem decodeUtf16_encodeUtf16 (cs : List Char) : decodeUtf16 (encodeUtf16 cs) = cs := by
  induction cs with
  | nil => rfl
  | cons c cs ih => rw [encodeUtf16, List.flatMap_cons, decodeUtf16_append, ← encodeUtf16, ih]

variable {illFormed : Bytes → WString}

theorem utf8ToWide_wideToUtf8 {w : WString} (h : Utf16 w) : utf8ToWide illFormed (wideToUtf8 w) = w := by
  obtain ⟨cs, rfl⟩ := h
  rw [wideToUtf8, decodeUtf16_encodeUtf16, utf8ToWide, decodeUtf8_encodeUtf8]

theorem wideToUtf8_utf8ToWide {s : Bytes} (h : Utf8 s) : wideToUtf8 (utf8ToWide illFormed s) = s := by
  obtain ⟨cs, rfl⟩ := h
  rw [utf8ToWide, ← encodeUtf8, decodeUtf8_encodeUtf8]
  exact congrArg encodeUtf8 (decodeUtf16_encodeUtf16 cs)

@[simp]
theorem utf8ToWide_nil : utf8ToWide illFormed [] = [] := by
  show utf8ToWide illFormed (encodeUtf8 []) = encodeUtf16 []
  rw [utf8ToWide, decodeUtf8_encodeUtf8]

theorem utf8_wideToUtf8 (w : WString) : Utf8 (wideToUtf8 w) := utf8_encodeUtf8 _

theorem utf16_utf8ToWide {s : Bytes} (h : Utf8 s) : Utf16 (utf8ToWide illFormed s) := by
  obtain ⟨cs, rfl⟩ := h
  rw [utf8ToWide, ← encodeUtf8, decodeUtf8_encodeUtf8]
  exact utf16_encodeUtf16 cs

end TR
