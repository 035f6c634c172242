import Mathlib.Data.List.Infix

/-!
# Strings and byte order

`std::string` is a list of bytes and `std::wstring` a list of UTF-16 code
units. The conversions between host and network byte order are those of a
little-endian host, the only kind Windows runs on.
-/

namespace TR

abbrev Byte := BitVec 8

/-- `std::string`. -/
abbrev Bytes := List Byte

/-- `std::wstring`, and the contents of a `wchar_t` buffer before its terminator. -/
abbrev WString := List (BitVec 16)

/-- A narrow string literal. -/
def ascii (s : String) : Bytes := s.toList.map fun c => BitVec.ofNat 8 c.toNat

/-- `std::to_string` of an unsigned number. -/
def decimal (n : Nat) : Bytes := (Nat.toDigits 10 n).map fun c => BitVec.ofNat 8 c.toNat

/-- `find`: the position of the first occurrence of `pat`. -/
def find {α : Type} [DecidableEq α] (pat : List α) : List α → Option Nat
  | [] => if pat = [] then some 0 else none
  | x :: xs => if pat.isPrefixOf (x :: xs) then some 0 else (find pat xs).map (· + 1)

/-- The contents of a `char` buffer as a C string: up to its first NUL. -/
def cstr (b : Bytes) : Bytes := b.takeWhile (· ≠ 0)

/-- `towlower` in the C locale, one code unit. -/
def towlower (c : BitVec 16) : BitVec 16 := if 65 ≤ c.toNat ∧ c.toNat ≤ 90 then c + 32 else c

/-- `_wcsicmp(a, b) == 0`. -/
def wcsicmpEq (a b : WString) : Bool := a.map towlower == b.map towlower

/-- What follows the last backslash of a path: `wcsrchr(path, L'\\') + 1`, or
the path itself without one. -/
def shortName (path : WString) : WString := (path.reverse.takeWhile (· ≠ 92)).reverse

def ntohs (x : BitVec 16) : BitVec 16 := x.extractLsb' 0 8 ++ x.extractLsb' 8 8

def htons (x : BitVec 16) : BitVec 16 := x.extractLsb' 0 8 ++ x.extractLsb' 8 8

def ntohl (x : BitVec 32) : BitVec 32 :=
  x.extractLsb' 0 8 ++ x.extractLsb' 8 8 ++ x.extractLsb' 16 8 ++ x.extractLsb' 24 8

/-- `inet_ntop(AF_INET, ..)`: an address as it stands in memory, most
significant octet first. -/
def inetNtop (a : BitVec 32) : Bytes :=
  let octet := fun i => decimal (a.extractLsb' (8 * i) 8).toNat
  octet 0 ++ ascii "." ++ octet 1 ++ ascii "." ++ octet 2 ++ ascii "." ++ octet 3

end TR
