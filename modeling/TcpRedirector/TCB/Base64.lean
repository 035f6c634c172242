import TcpRedirector.TCB.Bytes

/-!
# Base 64

The standard encoding with padding: the bits of the data, the most
significant of each byte first, are cut into groups of six, the last one
filled up with zeros; each is written as a digit of the alphabet, and the text
is filled up to whole groups of four.
-/

namespace TR

/-- The bits of a byte, the most significant one first. -/
def bitsOf (b : Byte) : List Bool :=
  [b.getLsbD 7, b.getLsbD 6, b.getLsbD 5, b.getLsbD 4, b.getLsbD 3, b.getLsbD 2, b.getLsbD 1, b.getLsbD 0]

/-- The number with these six bits. -/
def sextet (a b c d e f : Bool) : Nat := 32 * a.toNat + 16 * b.toNat + 8 * c.toNat + 4 * d.toNat + 2 * e.toNat + f.toNat

/-- The groups of six bits. -/
def sextets : List Bool → List Nat
  | a :: b :: c :: d :: e :: f :: bits => sextet a b c d e f :: sextets bits
  | [] => []
  | [a] => [sextet a false false false false false]
  | [a, b] => [sextet a b false false false false]
  | [a, b, c] => [sextet a b c false false false]
  | [a, b, c, d] => [sextet a b c d false false]
  | [a, b, c, d, e] => [sextet a b c d e false]

/-- The digit of a group. -/
def base64Digit (n : Nat) : Byte :=
  if n < 26 then BitVec.ofNat 8 (65 + n)
  else if n < 52 then BitVec.ofNat 8 (97 + (n - 26))
  else if n < 62 then BitVec.ofNat 8 (48 + (n - 52))
  else if n = 62 then 43
  else 47

/-- The value of a digit. -/
def digitValue (c : Byte) : Option Byte :=
  if 65 ≤ c.toNat ∧ c.toNat ≤ 90 then some (c - 65)
  else if 97 ≤ c.toNat ∧ c.toNat ≤ 122 then some (c - 97 + 26)
  else if 48 ≤ c.toNat ∧ c.toNat ≤ 57 then some (c - 48 + 52)
  else if c = 43 then some 62
  else if c = 47 then some 63
  else none

def base64 (data : Bytes) : Bytes :=
  let digits := (sextets (data.flatMap bitsOf)).map base64Digit
  digits ++ List.replicate ((4 - digits.length % 4) % 4) 61

end TR
