import TcpRedirector.TCB.Unicode

/-!
# Decoding UTF-8 in .NET

`Encoding.UTF8.GetString`. Bytes that are not UTF-8 become U+FFFD: one for each
longest part that begins a character, and one for each other byte.
-/

namespace TR

/-- A character of which some bytes have been read. -/
structure Utf8Sequence where
  /-- How many bytes it still has. -/
  needed : Nat
  /-- The bounds of the next one. -/
  lower : Nat := 0x80
  upper : Nat := 0xBF
  bits : Nat
  deriving Repr, DecidableEq

/-- The character that a byte begins, unless it is one of its own. -/
def leadByte (n : Nat) : Option Utf8Sequence :=
  if 0xC2 ≤ n ∧ n ≤ 0xDF then some { needed := 1, bits := n - 0xC0 }
  else if 0xE0 ≤ n ∧ n ≤ 0xEF then
    some { needed := 2, lower := if n = 0xE0 then 0xA0 else 0x80, upper := if n = 0xED then 0x9F else 0xBF, bits := n - 0xE0 }
  else if 0xF0 ≤ n ∧ n ≤ 0xF4 then
    some { needed := 3, lower := if n = 0xF0 then 0x90 else 0x80, upper := if n = 0xF4 then 0x8F else 0xBF, bits := n - 0xF0 }
  else none

/-- The first byte of a character. -/
def decodeFirst (n : Nat) : WString × Option Utf8Sequence :=
  if n < 0x80 then ([BitVec.ofNat 16 n], none)
  else
    match leadByte n with
    | some s => ([], some s)
    | none => ([0xFFFD], none)

/-- The next byte. One that cannot be part of the character begins another. -/
def decodeByte : Option Utf8Sequence → Nat → WString × Option Utf8Sequence
  | none, n => decodeFirst n
  | some s, n =>
    if s.lower ≤ n ∧ n ≤ s.upper then
      let bits := s.bits * 64 + (n - 0x80)
      if s.needed = 1 then (utf16Char (Char.ofNat bits), none) else ([], some { needed := s.needed - 1, bits := bits })
    else (0xFFFD :: (decodeFirst n).1, (decodeFirst n).2)

/-- The string that the rest of some bytes becomes. -/
def utf8GetStringFrom (s : Option Utf8Sequence) : Bytes → WString
  | [] => if s.isSome then [0xFFFD] else []
  | b :: bytes => (decodeByte s b.toNat).1 ++ utf8GetStringFrom (decodeByte s b.toNat).2 bytes

/-- `Encoding.UTF8.GetString`. -/
def utf8GetString (bytes : Bytes) : WString := utf8GetStringFrom none bytes

end TR
