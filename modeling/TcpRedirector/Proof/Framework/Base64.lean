import Mathlib.Algebra.Group.Nat.Defs
import Mathlib.Data.List.Infix
import Mathlib.Tactic.IntervalCases
import Mathlib.Tactic.Ring
import TcpRedirector.TCB.Base64

/-!
# Base 64, three bytes at a time

Three bytes are four digits (`base64_three`), and the last one or two give two
or three (`base64_one`, `base64_two`). A decoder that shifts the values of the
digits into an accumulator of 32 bits gives the bytes back
(`unpack_sextets`): the bits of earlier groups that are still in it do not
reach the bytes that are taken. Whatever the digits are, its bytes write the
number that the digits write, without the bits that complete no byte
(`number_unpack`, `unpack_eq_iff`).
-/

namespace TR

theorem forall_byte {P : Byte → Prop} (h : ∀ n < 256, P (BitVec.ofNat 8 n)) (b : Byte) : P b := by
  have hb := h b.toNat b.isLt
  rwa [BitVec.ofNat_toNat, BitVec.setWidth_eq] at hb

/-! ## The groups of six bits -/

section

variable (a b c : Byte) (bits : List Bool)

/-- A bit of a byte, as a number. -/
theorem toNat_getLsbD (i : Nat) : (a.getLsbD i).toNat = a.toNat / 2 ^ i % 2 := Nat.toNat_testBit ..

theorem bits_first : sextet (a.getLsbD 7) (a.getLsbD 6) (a.getLsbD 5) (a.getLsbD 4) (a.getLsbD 3) (a.getLsbD 2) = a.toNat / 4 := by
  have := a.isLt
  simp only [sextet, toNat_getLsbD]
  omega

/-- Two bits of a byte, as the high ones of a group. -/
theorem bits_low_two : 2 * (a.getLsbD 1).toNat + (a.getLsbD 0).toNat = a.toNat % 4 := by
  simp only [toNat_getLsbD]
  omega

theorem bits_high_four :
    8 * (a.getLsbD 7).toNat + 4 * (a.getLsbD 6).toNat + 2 * (a.getLsbD 5).toNat + (a.getLsbD 4).toNat = a.toNat / 16 := by
  have := a.isLt
  simp only [toNat_getLsbD]
  omega

theorem bits_low_four :
    8 * (a.getLsbD 3).toNat + 4 * (a.getLsbD 2).toNat + 2 * (a.getLsbD 1).toNat + (a.getLsbD 0).toNat = a.toNat % 16 := by
  simp only [toNat_getLsbD]
  omega

theorem bits_high_two : 2 * (a.getLsbD 7).toNat + (a.getLsbD 6).toNat = a.toNat / 64 := by
  have := a.isLt
  simp only [toNat_getLsbD]
  omega

theorem bits_last : sextet (a.getLsbD 5) (a.getLsbD 4) (a.getLsbD 3) (a.getLsbD 2) (a.getLsbD 1) (a.getLsbD 0) = a.toNat % 64 := by
  simp only [sextet, toNat_getLsbD]
  omega

theorem sextets_three :
    sextets (bitsOf a ++ (bitsOf b ++ (bitsOf c ++ bits))) =
      a.toNat / 4 :: (a.toNat % 4 * 16 + b.toNat / 16) :: (b.toNat % 16 * 4 + c.toNat / 64) :: c.toNat % 64 :: sextets bits := by
  have h1 := bits_low_two a
  have h2 := bits_high_four b
  have h3 := bits_low_four b
  have h4 := bits_high_two c
  simp only [bitsOf, List.cons_append, List.nil_append, sextets, bits_first, bits_last, List.cons.injEq, true_and, and_true]
  constructor
  · rw [sextet]
    omega
  · rw [sextet]
    omega

theorem sextets_two :
    sextets (bitsOf a ++ bitsOf b) = [a.toNat / 4, a.toNat % 4 * 16 + b.toNat / 16, b.toNat % 16 * 4] := by
  have h1 := bits_low_two a
  have h2 := bits_high_four b
  have h3 := bits_low_four b
  simp only [bitsOf, List.cons_append, List.nil_append, sextets, bits_first, List.cons.injEq, true_and, and_true]
  constructor
  · rw [sextet]
    omega
  · simp only [sextet, Bool.toNat_false]
    omega

theorem sextets_one : sextets (bitsOf a) = [a.toNat / 4, a.toNat % 4 * 16] := by
  have h1 := bits_low_two a
  simp only [bitsOf, sextets, bits_first, List.cons.injEq, true_and, and_true]
  simp only [sextet, Bool.toNat_false]
  omega

end

/-! ## The text -/

section

variable (a b c : Byte) (data : Bytes)

theorem base64_three :
    base64 (a :: b :: c :: data) =
      base64Digit (a.toNat / 4) :: base64Digit (a.toNat % 4 * 16 + b.toNat / 16) ::
        base64Digit (b.toNat % 16 * 4 + c.toNat / 64) :: base64Digit (c.toNat % 64) :: base64 data := by
  simp only [base64, List.flatMap_cons, sextets_three, List.map_cons, List.length_cons, List.cons_append]
  have hlen : ∀ n : Nat, (n + 1 + 1 + 1 + 1) % 4 = n % 4 := by omega
  rw [hlen]

theorem base64_two :
    base64 [a, b] =
      [base64Digit (a.toNat / 4), base64Digit (a.toNat % 4 * 16 + b.toNat / 16), base64Digit (b.toNat % 16 * 4), 61] := by
  simp only [base64, List.flatMap_cons, List.flatMap_nil, List.append_nil, sextets_two]
  rfl

theorem base64_one : base64 [a] = [base64Digit (a.toNat / 4), base64Digit (a.toNat % 4 * 16), 61, 61] := by
  simp only [base64, List.flatMap_cons, List.flatMap_nil, List.append_nil, sextets_one]
  rfl

end

/-! ## Decoding -/

theorem digitValue_base64Digit {n : Nat} (hn : n < 64) : digitValue (base64Digit n) = some (BitVec.ofNat 8 n) := by
  have h : ∀ n < 64, digitValue (base64Digit n) = some (BitVec.ofNat 8 n) := by decide +kernel
  exact h n hn

theorem base64Digit_ne_pad {n : Nat} (hn : n < 64) : base64Digit n ≠ 61 := by
  intro hpad
  have hvalue := digitValue_base64Digit hn
  rw [hpad] at hvalue
  exact absurd hvalue (by simp [digitValue])

theorem sextet_lt (a b c d e f : Bool) : sextet a b c d e f < 64 := by
  have ha := a.toNat_le
  have hb := b.toNat_le
  have hc := c.toNat_le
  have hd := d.toNat_le
  have he := e.toNat_le
  have hf := f.toNat_le
  rw [sextet]
  omega

theorem lt_of_mem_sextets {n : Nat} {bits : List Bool} (h : n ∈ sextets bits) : n < 64 := by
  fun_induction sextets bits with
  | case1 a b c d e f bits ih =>
    rcases List.mem_cons.mp h with rfl | h
    · exact sextet_lt ..
    · exact ih h
  | case2 => exact absurd h List.not_mem_nil
  | case3 => exact List.mem_singleton.mp h ▸ sextet_lt ..
  | case4 => exact List.mem_singleton.mp h ▸ sextet_lt ..
  | case5 => exact List.mem_singleton.mp h ▸ sextet_lt ..
  | case6 => exact List.mem_singleton.mp h ▸ sextet_lt ..
  | case7 => exact List.mem_singleton.mp h ▸ sextet_lt ..

/-- The values of the digits in a text. -/
def values (s : Bytes) : List Byte := s.filterMap digitValue

/-- The text before the padding. -/
def unpadded (s : Bytes) : Bytes := s.takeWhile (· ≠ 61)

theorem values_append (s t : Bytes) : values (s ++ t) = values s ++ values t := List.filterMap_append

theorem values_padding (n : Nat) : values (List.replicate n 61) = [] := by
  rw [values, List.filterMap_eq_nil_iff]
  intro c hc
  rw [List.eq_of_mem_replicate hc]
  decide

theorem values_digits {l : List Nat} (h : ∀ n ∈ l, n < 64) : values (l.map base64Digit) = l.map (BitVec.ofNat 8) := by
  induction l with
  | nil => rfl
  | cons n l ih =>
    have hn := digitValue_base64Digit (h n List.mem_cons_self)
    rw [List.map_cons, values, List.filterMap_cons_some hn, ← values, ih fun m hm => h m (List.mem_cons_of_mem _ hm),
      List.map_cons]

theorem values_base64 (data : Bytes) : values (base64 data) = (sextets (data.flatMap bitsOf)).map (BitVec.ofNat 8) := by
  rw [base64, values_append, values_padding, List.append_nil, values_digits fun n => lt_of_mem_sextets]

theorem unpadded_base64 (data : Bytes) : unpadded (base64 data) = (sextets (data.flatMap bitsOf)).map base64Digit := by
  have hdigits : ∀ c ∈ (sextets (data.flatMap bitsOf)).map base64Digit, decide (c ≠ 61) = true := by
    intro c hc
    obtain ⟨n, hn, rfl⟩ := List.mem_map.mp hc
    exact decide_eq_true (base64Digit_ne_pad (lt_of_mem_sextets hn))
  have hpadding : ∀ n, (List.replicate n (61 : Byte)).takeWhile (· ≠ 61) = [] := by
    intro n
    cases n with
    | zero => rfl
    | succ n => rfl
  rw [unpadded, base64, List.takeWhile_append_of_pos hdigits, hpadding, List.append_nil]

/-- The accumulator after one more digit. -/
def push (val : BitVec 32) (i : Byte) : BitVec 32 := (val <<< 6) + i.setWidth 32

/-- The bytes of these values; `valb + 8` bits of the accumulator are not used yet. -/
def unpack (val : BitVec 32) (valb : Int) : List Byte → Bytes
  | [] => []
  | i :: values =>
    if 0 ≤ valb + 6 then ((push val i).sshiftRight (valb + 6).toNat).setWidth 8 :: unpack (push val i) (valb - 2) values
    else unpack (push val i) (valb + 6) values

/-- A byte is taken from the low half of the accumulator. -/
theorem toNat_taken (val : BitVec 32) {k : Nat} (hk : k ≤ 24) :
    ((val.sshiftRight k).setWidth 8).toNat = val.toNat / 2 ^ k % 256 := by
  have hshift : (val.sshiftRight k).setWidth 8 = (val >>> k).setWidth 8 := by
    ext i hi
    have hlt : k + i < 32 := by omega
    simp [BitVec.getElem_sshiftRight, hlt, show i < 32 by omega]
  rw [hshift, BitVec.toNat_setWidth, BitVec.toNat_ushiftRight, Nat.shiftRight_eq_div_pow]

theorem toNat_push (val : BitVec 32) (i : Byte) : (push val i).toNat = (val.toNat * 64 + i.toNat) % 2 ^ 32 := by
  rw [push, BitVec.toNat_add, BitVec.toNat_shiftLeft, BitVec.toNat_setWidth, Nat.shiftLeft_eq]
  omega

section

variable (val : BitVec 32) {i j k l : Byte} {a b c : Byte} (values : List Byte)

/-- Two digits give the first byte. -/
theorem unpack_two (hi : i.toNat = a.toNat / 4) (hj : j.toNat = a.toNat % 4 * 16 + b.toNat / 16) :
    unpack val (-8) (i :: j :: values) = a :: unpack (push (push val i) j) (-4) values := by
  rw [unpack, if_neg (by decide), unpack, if_pos (by decide)]
  congr 1
  apply BitVec.eq_of_toNat_eq
  rw [toNat_taken _ (by decide), toNat_push, toNat_push, hi, hj]
  show _ / 2 ^ 4 % 256 = _
  omega

/-- The third digit gives the second byte. -/
theorem unpack_three (hj : j.toNat = a.toNat % 4 * 16 + b.toNat / 16) (hk : k.toNat = b.toNat % 16 * 4 + c.toNat / 64) :
    unpack (push val j) (-4) (k :: values) = b :: unpack (push (push val j) k) (-6) values := by
  rw [unpack, if_pos (by decide)]
  congr 1
  apply BitVec.eq_of_toNat_eq
  rw [toNat_taken _ (by decide), toNat_push, toNat_push, hj, hk]
  show _ / 2 ^ 2 % 256 = _
  omega

/-- The fourth digit gives the third byte. -/
theorem unpack_four (hk : k.toNat = b.toNat % 16 * 4 + c.toNat / 64) (hl : l.toNat = c.toNat % 64) :
    unpack (push val k) (-6) (l :: values) = c :: unpack (push (push val k) l) (-8) values := by
  rw [unpack, if_pos (by decide)]
  congr 1
  apply BitVec.eq_of_toNat_eq
  rw [toNat_taken _ (by decide), toNat_push, toNat_push, hk, hl]
  show _ / 2 ^ 0 % 256 = _
  omega

end

theorem toNat_ofNat_byte {n : Nat} (hn : n < 256) : (BitVec.ofNat 8 n).toNat = n := Nat.mod_eq_of_lt hn

/-- By induction on the groups of three bytes, whatever the accumulator holds. -/
theorem unpack_sextets (val : BitVec 32) :
    ∀ data : Bytes, unpack val (-8) ((sextets (data.flatMap bitsOf)).map (BitVec.ofNat 8)) = data
  | [] => rfl
  | [a] => by
    have hfirst : (BitVec.ofNat 8 (a.toNat / 4)).toNat = a.toNat / 4 := toNat_ofNat_byte (by omega)
    have hsecond : (BitVec.ofNat 8 (a.toNat % 4 * 16)).toNat = a.toNat % 4 * 16 + (0 : Byte).toNat / 16 :=
      toNat_ofNat_byte (by omega)
    simp only [List.flatMap_cons, List.flatMap_nil, List.append_nil, sextets_one, List.map_cons, List.map_nil]
    rw [unpack_two val _ hfirst hsecond]
    rfl
  | [a, b] => by
    have hfirst : (BitVec.ofNat 8 (a.toNat / 4)).toNat = a.toNat / 4 := toNat_ofNat_byte (by omega)
    have hsecond : (BitVec.ofNat 8 (a.toNat % 4 * 16 + b.toNat / 16)).toNat = a.toNat % 4 * 16 + b.toNat / 16 :=
      toNat_ofNat_byte (by omega)
    have hthird : (BitVec.ofNat 8 (b.toNat % 16 * 4)).toNat = b.toNat % 16 * 4 + (0 : Byte).toNat / 64 :=
      toNat_ofNat_byte (by omega)
    simp only [List.flatMap_cons, List.flatMap_nil, List.append_nil, sextets_two, List.map_cons, List.map_nil]
    rw [unpack_two val _ hfirst hsecond, unpack_three _ _ hsecond hthird]
    rfl
  | a :: b :: c :: data => by
    have hfirst : (BitVec.ofNat 8 (a.toNat / 4)).toNat = a.toNat / 4 := toNat_ofNat_byte (by omega)
    have hsecond : (BitVec.ofNat 8 (a.toNat % 4 * 16 + b.toNat / 16)).toNat = a.toNat % 4 * 16 + b.toNat / 16 :=
      toNat_ofNat_byte (by omega)
    have hthird : (BitVec.ofNat 8 (b.toNat % 16 * 4 + c.toNat / 64)).toNat = b.toNat % 16 * 4 + c.toNat / 64 :=
      toNat_ofNat_byte (by omega)
    have hfourth : (BitVec.ofNat 8 (c.toNat % 64)).toNat = c.toNat % 64 := toNat_ofNat_byte (by omega)
    simp only [List.flatMap_cons, sextets_three, List.map_cons]
    rw [unpack_two val _ hfirst hsecond, unpack_three _ _ hsecond hthird, unpack_four _ _ hthird hfourth, unpack_sextets]

theorem unpack_values_base64 (val : BitVec 32) (data : Bytes) : unpack val (-8) (values (base64 data)) = data := by
  rw [values_base64, unpack_sextets]

theorem unpack_values_unpadded (val : BitVec 32) (data : Bytes) :
    unpack val (-8) (values (unpadded (base64 data))) = data := by
  rw [unpadded_base64, values_digits fun n => lt_of_mem_sextets, unpack_sextets]

/-! ## How much is decoded -/

/-- A whole byte is taken as soon as its eight bits are there. -/
theorem length_unpack (val : BitVec 32) {valb : Int} {w : Nat} (hw : valb + 8 = w) (hlt : w < 8) (values : List Byte) :
    (unpack val valb values).length = (w + 6 * values.length) / 8 := by
  induction values generalizing val valb w with
  | nil =>
    show 0 = (w + 0) / 8
    omega
  | cons i values ih =>
    rw [unpack, List.length_cons]
    by_cases h : 0 ≤ valb + 6
    · have hrest : valb - 2 + 8 = ((w - 2 : Nat) : Int) := by omega
      rw [if_pos h, List.length_cons, ih _ hrest (by omega)]
      omega
    · have hrest : valb + 6 + 8 = ((w + 6 : Nat) : Int) := by omega
      rw [if_neg h, ih _ hrest (by omega)]
      omega

theorem prefix_unpack (val : BitVec 32) (valb : Int) (values more : List Byte) :
    unpack val valb values <+: unpack val valb (values ++ more) := by
  induction values generalizing val valb with
  | nil => exact List.nil_prefix
  | cons i values ih =>
    rw [List.cons_append, unpack, unpack]
    split
    · exact List.cons_prefix_cons.mpr ⟨rfl, ih _ _⟩
    · exact ih _ _

/-- More digits change nothing as long as they complete no byte. -/
theorem unpack_append_eq_iff (val : BitVec 32) (values more : List Byte) :
    unpack val (-8) values = unpack val (-8) (values ++ more) ↔
      6 * values.length / 8 = 6 * (values ++ more).length / 8 := by
  have hlen (l : List Byte) : (unpack val (-8) l).length = 6 * l.length / 8 := by
    rw [length_unpack val (w := 0) rfl (by decide) l, Nat.zero_add]
  rw [← hlen, ← hlen]
  constructor
  · intro h
    rw [h]
  · exact fun h => (prefix_unpack val (-8) values more).eq_of_length h

/-! ## What is decoded -/

/-- The number that the bytes write in a base, after `n`. -/
def number (base n : Nat) (l : List Byte) : Nat := l.foldl (fun n i => base * n + i.toNat) n

theorem number_cons (base n : Nat) (i : Byte) (l : List Byte) :
    number base n (i :: l) = number base (base * n + i.toNat) l := rfl

theorem number_inj {n n' : Nat} {l l' : List Byte} (hlen : l.length = l'.length) (h : number 256 n l = number 256 n' l') :
    n = n' ∧ l = l' := by
  induction l generalizing n n' l' with
  | nil =>
    obtain rfl := List.length_eq_zero_iff.mp hlen.symm
    exact ⟨h, rfl⟩
  | cons i l ih =>
    obtain ⟨i', l', rfl⟩ := List.exists_cons_of_length_eq_add_one hlen.symm
    rw [number_cons, number_cons] at h
    obtain ⟨hn, rfl⟩ := ih (Nat.succ.inj hlen) h
    have hi := i.isLt
    have hi' := i'.isLt
    have hdigit : i.toNat = i'.toNat := by omega
    exact ⟨by omega, by rw [BitVec.eq_of_toNat_eq hdigit]⟩

/-- A digit moves the accumulator and what is not used of it. -/
theorem toNat_push_mod (val : BitVec 32) {i : Byte} (hi : i.toNat < 64) {w : Nat} (hw : w < 8) :
    (push val i).toNat % 2 ^ (w + 6) = val.toNat % 2 ^ w * 64 + i.toNat := by
  rw [toNat_push, Nat.mod_mod_of_dvd _ (Nat.pow_dvd_pow 2 (by omega : w + 6 ≤ 32)), Nat.pow_add]
  interval_cases w <;> omega

/-- The bytes write the number of the digits but for its last bits; `w` bits
of the accumulator come before them. By induction on the digits. -/
theorem number_unpack (val : BitVec 32) {valb : Int} {w : Nat} (hw : valb + 8 = w) (hlt : w < 8) (n : Nat)
    {values : List Byte} (h : ∀ i ∈ values, i.toNat < 64) :
    number 256 n (unpack val valb values) =
      number 64 (n * 2 ^ w + val.toNat % 2 ^ w) values / 2 ^ ((w + 6 * values.length) % 8) := by
  induction values generalizing val valb w n with
  | nil =>
    show n = (n * 2 ^ w + val.toNat % 2 ^ w) / 2 ^ (w % 8)
    rw [Nat.mod_eq_of_lt hlt]
    have := Nat.mod_lt val.toNat (Nat.two_pow_pos w)
    rw [Nat.add_comm, Nat.add_mul_div_right _ _ (Nat.two_pow_pos w), Nat.div_eq_of_lt this, Nat.zero_add]
  | cons i values ih =>
    have hi := h i List.mem_cons_self
    have hrest : ∀ i ∈ values, i.toNat < 64 := fun i hi => h i (List.mem_cons_of_mem _ hi)
    have hpush := toNat_push_mod val hi hlt
    rw [number_cons, unpack]
    by_cases hbyte : 0 ≤ valb + 6
    · obtain ⟨k, rfl⟩ : ∃ k, w = k + 2 := ⟨w - 2, by omega⟩
      have hk : (valb + 6).toNat = k := by omega
      have hlow : (push val i).toNat % 2 ^ (k + 2 + 6) =
          (push val i).toNat / 2 ^ k % 256 * 2 ^ k + (push val i).toNat % 2 ^ k := by
        rw [show k + 2 + 6 = k + 8 by omega, Nat.pow_add, Nat.mod_mul, Nat.mul_comm, Nat.add_comm]
      rw [if_pos hbyte, number_cons, hk, toNat_taken _ (by omega), ih (push val i) (by omega : valb - 2 + 8 = (k : Int)) (by omega) _ hrest,
        List.length_cons]
      congr 2
      · rw [Nat.add_mul, Nat.add_assoc, ← hlow, hpush, Nat.pow_add]
        ring
      · omega
    · rw [if_neg hbyte, ih (push val i) (by omega : valb + 6 + 8 = ((w + 6 : Nat) : Int)) (by omega) _ hrest, List.length_cons, hpush]
      congr 2
      · rw [Nat.pow_add]
        ring
      · omega

/-- What the digits give: how many whole bytes, and the number that these write. -/
def wholeBytes (values : List Byte) : Nat × Nat :=
  (6 * values.length / 8, number 64 0 values / 2 ^ (6 * values.length % 8))

theorem unpack_eq_iff {values values' : List Byte} (h : ∀ i ∈ values, i.toNat < 64) (h' : ∀ i ∈ values', i.toNat < 64) :
    unpack 0 (-8) values = unpack 0 (-8) values' ↔ wholeBytes values = wholeBytes values' := by
  have hwhole {l : List Byte} (hl : ∀ i ∈ l, i.toNat < 64) :
      wholeBytes l = ((unpack 0 (-8) l).length, number 256 0 (unpack 0 (-8) l)) := by
    rw [length_unpack 0 (w := 0) rfl (by decide), number_unpack 0 (w := 0) rfl (by decide) 0 hl, Nat.zero_add]
    rfl
  rw [hwhole h, hwhole h', Prod.mk.injEq]
  constructor
  · intro heq
    rw [heq]
    exact ⟨rfl, rfl⟩
  · exact fun heq => (number_inj heq.1 heq.2).2

end TR
