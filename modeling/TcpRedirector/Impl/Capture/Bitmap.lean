import Mathlib.Logic.Function.Basic
import TcpRedirector.TCB.Bytes

/-!
# The port decision bitmaps

`LONG m_portDecided[2048]` and `LONG m_portDirect[2048]` of
`WinDivertCapture.h`: one bit for each port, 32 to a word.
-/

namespace TR.Impl

/-- An array of 2048 `LONG`s. -/
abbrev Bitmap := Fin 2048 → BitVec 32

namespace Bitmap

/-- `memset` to zero. -/
def zero : Bitmap := fun _ => 0

/-- `port >> 5`. -/
def word (port : BitVec 16) : Fin 2048 :=
  ⟨(port >>> 5).toNat, by rw [BitVec.toNat_ushiftRight, Nat.shiftRight_eq_div_pow]; omega⟩

/-- `port & 31`. -/
def bit (port : BitVec 16) : Nat := (port &&& 31#16).toNat

/-- `(m[port >> 5] >> (port & 31)) & 1`: the shift of a signed word. -/
def test (m : Bitmap) (port : BitVec 16) : Bool :=
  ((m (word port)).sshiftRight (bit port)) &&& 1#32 != 0#32

/-- `InterlockedOr(&m[port >> 5], 1u << (port & 31))`. -/
def interlockedOr (m : Bitmap) (port : BitVec 16) : Bitmap :=
  Function.update m (word port) (m (word port) ||| 1#32 <<< bit port)

/-- `InterlockedAnd(&m[port >> 5], ~(1u << (port & 31)))`. -/
def interlockedAnd (m : Bitmap) (port : BitVec 16) : Bitmap :=
  Function.update m (word port) (m (word port) &&& ~~~(1#32 <<< bit port))

end Bitmap

end TR.Impl
