import TcpRedirector.Impl.Capture.State

/-!
# The bitmaps are sets of ports

A test reads one bit (`test_eq`), a port has its own bit (`word_bit_inj`), so
setting and clearing a port changes the answer for that port alone
(`test_interlockedOr`, `test_interlockedAnd`).
-/

namespace TR.Impl

namespace Bitmap

theorem bit_eq (port : BitVec 16) : bit port = port.toNat % 32 := by
  rw [bit, BitVec.toNat_and, show (31#16).toNat = 2 ^ 5 - 1 from rfl, Nat.and_two_pow_sub_one_eq_mod]

theorem word_val (port : BitVec 16) : (word port).val = port.toNat / 32 := by
  simp only [word, BitVec.toNat_ushiftRight, Nat.shiftRight_eq_div_pow]

/-- Word and bit determine the port. -/
theorem word_bit_inj {p q : BitVec 16} (hw : word p = word q) (hb : bit p = bit q) : p = q := by
  have hw' := congrArg Fin.val hw
  rw [word_val, word_val] at hw'
  rw [bit_eq, bit_eq] at hb
  apply BitVec.eq_of_toNat_eq
  omega

theorem bit_lt (port : BitVec 16) : bit port < 32 := by rw [bit_eq]; omega

/-- The signed shift brings the bit down whole, the sign bit too. -/
theorem sshiftRight_and_one (x : BitVec 32) {k : Nat} (hk : k < 32) :
    (x.sshiftRight k &&& 1#32 != 0#32) = x.getLsbD k := by
  rw [show (1#32) = BitVec.twoPow 32 0 from rfl, BitVec.and_twoPow, BitVec.getLsbD_sshiftRight]
  cases hb : x.getLsbD k
  · simp [hk]
  · simp only [hk, Nat.add_zero, ite_true]
    decide

theorem test_eq (m : Bitmap) (port : BitVec 16) : m.test port = (m (word port)).getLsbD (bit port) :=
  sshiftRight_and_one _ (bit_lt port)

@[simp] theorem test_zero (port : BitVec 16) : zero.test port = false := by simp [test_eq, zero]

theorem getLsbD_one_shiftLeft (k i : Nat) (hi : i < 32) :
    ((1#32) <<< k).getLsbD i = decide (i = k) := by
  rw [BitVec.getLsbD_shiftLeft, BitVec.getLsbD_one]
  by_cases h : i = k
  · subst h; simp [hi]
  · by_cases hk : i < k
    · simp [hk, h]
    · simp [h, hk]; omega

/-- Setting a port's bit sets that port alone. -/
@[simp] theorem test_interlockedOr (m : Bitmap) (p q : BitVec 16) :
    (m.interlockedOr p).test q = (decide (q = p) || m.test q) := by
  rw [test_eq, test_eq, interlockedOr]
  by_cases hw : word q = word p
  · rw [hw, Function.update_self, BitVec.getLsbD_or, getLsbD_one_shiftLeft _ _ (bit_lt q), Bool.or_comm]
    congr 1
    exact decide_eq_decide.mpr ⟨fun hb => word_bit_inj hw hb, fun h => h ▸ rfl⟩
  · rw [Function.update_of_ne hw]
    simp [show q ≠ p from fun h => hw (h ▸ rfl)]

/-- Clearing a port's bit clears that port alone. -/
@[simp] theorem test_interlockedAnd (m : Bitmap) (p q : BitVec 16) :
    (m.interlockedAnd p).test q = (!decide (q = p) && m.test q) := by
  rw [test_eq, test_eq, interlockedAnd]
  by_cases hw : word q = word p
  · rw [hw, Function.update_self, BitVec.getLsbD_and, BitVec.getLsbD_not, getLsbD_one_shiftLeft _ _ (bit_lt q),
      Bool.and_comm]
    congr 1
    simp only [bit_lt q, decide_true, Bool.true_and]
    exact congrArg _ (decide_eq_decide.mpr ⟨fun hb => word_bit_inj hw hb, fun h => h ▸ rfl⟩)
  · rw [Function.update_of_ne hw]
    simp [show q ≠ p from fun h => hw (h ▸ rfl)]

end Bitmap

namespace Capture

variable (c : Capture) (p q : BitVec 16)

@[simp] theorem isPortDecided_setPortDirect :
    (c.setPortDirect p).isPortDecided q = (decide (q = p) || c.isPortDecided q) := Bitmap.test_interlockedOr ..

@[simp] theorem isPortDirect_setPortDirect :
    (c.setPortDirect p).isPortDirect q = (decide (q = p) || c.isPortDirect q) := Bitmap.test_interlockedOr ..

@[simp] theorem isPortDecided_setPortDecided :
    (c.setPortDecided p).isPortDecided q = (decide (q = p) || c.isPortDecided q) := Bitmap.test_interlockedOr ..

@[simp] theorem isPortDirect_setPortDecided : (c.setPortDecided p).isPortDirect q = c.isPortDirect q := rfl

@[simp] theorem isPortDecided_clearPort :
    (c.clearPort p).isPortDecided q = (!decide (q = p) && c.isPortDecided q) := Bitmap.test_interlockedAnd ..

@[simp] theorem isPortDirect_clearPort :
    (c.clearPort p).isPortDirect q = (!decide (q = p) && c.isPortDirect q) := Bitmap.test_interlockedAnd ..

end Capture

end TR.Impl
