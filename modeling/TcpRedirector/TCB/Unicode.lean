import TcpRedirector.TCB.Bytes

/-!
# UTF-8 and UTF-16

`utf8_convert.h`: `MultiByteToWideChar` and `WideCharToMultiByte` with
`CP_UTF8` and no flags. A surrogate without its other half becomes U+FFFD.
What becomes of bytes that are not UTF-8 is a parameter. The lengths fit in an
`int`.
-/

namespace TR

/-- Some characters in UTF-8. -/
def encodeUtf8 (cs : List Char) : Bytes := cs.flatMap fun c => (String.utf8EncodeChar c).map (·.toBitVec)

/-- The characters of a string in UTF-8. -/
def decodeUtf8 (b : Bytes) : Option (List Char) :=
  (ByteArray.mk (b.map UInt8.ofBitVec).toArray).utf8Decode?.map Array.toList

/-- The code units of a character. -/
def utf16Char (c : Char) : WString :=
  if c.toNat < 0x10000 then [BitVec.ofNat 16 c.toNat]
  else [BitVec.ofNat 16 (0xD800 + (c.toNat - 0x10000) / 0x400), BitVec.ofNat 16 (0xDC00 + (c.toNat - 0x10000) % 0x400)]

/-- Some characters in UTF-16. -/
def encodeUtf16 (cs : List Char) : WString := cs.flatMap utf16Char

/-- A high surrogate before a low one. -/
def isPair (u v : BitVec 16) : Bool :=
  decide (0xD800 ≤ u.toNat ∧ u.toNat < 0xDC00 ∧ 0xDC00 ≤ v.toNat ∧ v.toNat < 0xE000)

/-- The character of a pair of surrogates. -/
def ofPair (u v : BitVec 16) : Char := Char.ofNat (0x10000 + (u.toNat - 0xD800) * 0x400 + (v.toNat - 0xDC00))

/-- The character of a code unit by itself. -/
def ofUnit (u : BitVec 16) : Char := if u.toNat < 0xD800 ∨ 0xE000 ≤ u.toNat then Char.ofNat u.toNat else Char.ofNat 0xFFFD

/-- The characters of a wide string. -/
def decodeUtf16 : WString → List Char
  | [] => []
  | [u] => [ofUnit u]
  | u :: v :: w => if isPair u v then ofPair u v :: decodeUtf16 w else ofUnit u :: decodeUtf16 (v :: w)

/-- `WideToUtf8`. -/
def wideToUtf8 (ws : WString) : Bytes := encodeUtf8 (decodeUtf16 ws)

/-- `Utf8ToWide`. -/
def utf8ToWide (illFormed : Bytes → WString) (s : Bytes) : WString :=
  match decodeUtf8 s with
  | some cs => encodeUtf16 cs
  | none => illFormed s

end TR
