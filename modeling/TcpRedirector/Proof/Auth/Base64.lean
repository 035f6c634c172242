import TcpRedirector.Impl.Auth.Base64
import TcpRedirector.Impl.Service.ConfigManager
import TcpRedirector.Proof.Framework.Base64

/-!
# The Base64 functions agree

Every encoder writes `base64`. The decoders skip what is not a digit and unpack
the values of the others (`configManager_decodeFrom`, `sspiEngine_decodeFrom`).
That of `auth_sspi.cpp` stops at the padding and takes bytes above 0x7F for
digits (`sspiDecodeFrom_eq`), and agrees with the others as long as this
changes no byte (`decoders_agree_iff`).
-/

namespace TR.Impl

open SspiEngine (digit kDecode)
open Service.ConfigManager (D)

/-! ## The digits of three bytes -/

/-- The alphabet of the encoders. -/
theorem digits {n : Nat} (hn : n < 64) :
    digit (BitVec.ofNat 8 n) = base64Digit n ∧ SspiEngine.kBase64.getD n 0 = base64Digit n ∧ (base64Digit n).toNat < 128 := by
  have h : ∀ n < 64, digit (BitVec.ofNat 8 n) = base64Digit n ∧ SspiEngine.kBase64.getD n 0 = base64Digit n ∧
      (base64Digit n).toNat < 128 := by decide +kernel
  exact h n hn

theorem digit_eq {i : Byte} {n : Nat} (h : i.toNat = n) (hn : n < 64) : digit i = base64Digit n := by
  have hi := (digits hn).1
  rwa [← h, BitVec.ofNat_toNat, BitVec.setWidth_eq, h] at hi

/-- The parts of a byte, masked and shifted: its first six bits and last two,
first four and last four, first two and last six. -/
theorem parts (a : Byte) :
    (((a &&& 0xfc) >>> 2).toNat = a.toNat / 4 ∧ ((a &&& 0x03) <<< 4).toNat = a.toNat % 4 * 16) ∧
    (((a &&& 0xf0) >>> 4).toNat = a.toNat / 16 ∧ ((a &&& 0x0f) <<< 2).toNat = a.toNat % 16 * 4) ∧
    ((a &&& 0xc0) >>> 6).toNat = a.toNat / 64 ∧ (a &&& 0x3f).toNat = a.toNat % 64 := by
  refine forall_byte (P := fun a =>
    (((a &&& 0xfc) >>> 2).toNat = a.toNat / 4 ∧ ((a &&& 0x03) <<< 4).toNat = a.toNat % 4 * 16) ∧
    (((a &&& 0xf0) >>> 4).toNat = a.toNat / 16 ∧ ((a &&& 0x0f) <<< 2).toNat = a.toNat % 16 * 4) ∧
    ((a &&& 0xc0) >>> 6).toNat = a.toNat / 64 ∧ (a &&& 0x3f).toNat = a.toNat % 64) ?_ a
  decide +kernel

theorem toNat_first (a : Byte) : ((a &&& 0xfc) >>> 2).toNat = a.toNat / 4 := (parts a).1.1

theorem toNat_second (a b : Byte) :
    (((a &&& 0x03) <<< 4) + ((b &&& 0xf0) >>> 4)).toNat = a.toNat % 4 * 16 + b.toNat / 16 := by
  rw [BitVec.toNat_add, (parts a).1.2, (parts b).2.1.1]
  omega

theorem toNat_third (b c : Byte) :
    (((b &&& 0x0f) <<< 2) + ((c &&& 0xc0) >>> 6)).toNat = b.toNat % 16 * 4 + c.toNat / 64 := by
  rw [BitVec.toNat_add, (parts b).2.1.2, (parts c).2.2.1]
  omega

theorem toNat_fourth (c : Byte) : (c &&& 0x3f).toNat = c.toNat % 64 := (parts c).2.2.2

section

variable (a b c : Byte)

theorem digit_first : digit ((a &&& 0xfc) >>> 2) = base64Digit (a.toNat / 4) := digit_eq (toNat_first a) (by omega)

theorem digit_second :
    digit (((a &&& 0x03) <<< 4) + ((b &&& 0xf0) >>> 4)) = base64Digit (a.toNat % 4 * 16 + b.toNat / 16) :=
  digit_eq (toNat_second a b) (by omega)

theorem digit_third :
    digit (((b &&& 0x0f) <<< 2) + ((c &&& 0xc0) >>> 6)) = base64Digit (b.toNat % 16 * 4 + c.toNat / 64) :=
  digit_eq (toNat_third b c) (by omega)

/-- The last digit of a single byte. -/
theorem digit_second_last : digit (((a &&& 0x03) <<< 4) + ((0 &&& 0xf0) >>> 4)) = base64Digit (a.toNat % 4 * 16) := by
  have h := digit_second a 0
  rwa [show (0 : Byte).toNat / 16 = 0 from rfl, Nat.add_zero] at h

/-- The last digit of two bytes. -/
theorem digit_third_last : digit (((b &&& 0x0f) <<< 2) + ((0 &&& 0xc0) >>> 6)) = base64Digit (b.toNat % 16 * 4) := by
  have h := digit_third b 0
  rwa [show (0 : Byte).toNat / 64 = 0 from rfl, Nat.add_zero] at h

theorem digit_fourth : digit (c &&& 0x3f) = base64Digit (c.toNat % 64) := digit_eq (toNat_fourth c) (by omega)

end

/-- The encoder of the agent, with its buffer read as a pattern. -/
theorem base64Encode_eq : ∀ data : Bytes, SspiEngine.base64Encode data = base64 data
  | [] => rfl
  | [a] => by
    rw [SspiEngine.base64Encode, base64_one, digit_first, digit_second_last]
  | [a, b] => by
    rw [SspiEngine.base64Encode, base64_two, digit_first, digit_second, digit_third_last]
  | a :: b :: c :: data => by
    rw [SspiEngine.base64Encode, base64_three, digit_first, digit_second, digit_third, digit_fourth, base64Encode_eq data]

namespace Base64

/-! ## With a buffer -/

section

variable (r : Bytes) (a b c : Byte)

theorem put_nil : Block.put ⟨r, []⟩ a = ⟨r, [a]⟩ := rfl

theorem put_one : Block.put ⟨r, [a]⟩ b = ⟨r, [a, b]⟩ := rfl

theorem put_two :
    Block.put ⟨r, [a, b]⟩ c =
      ⟨r ++ [base64Digit (a.toNat / 4), base64Digit (a.toNat % 4 * 16 + b.toNat / 16),
        base64Digit (b.toNat % 16 * 4 + c.toNat / 64), base64Digit (c.toNat % 64)], []⟩ := by
  rw [← digit_first, ← digit_second, ← digit_third, ← digit_fourth]
  rfl

theorem finish_one : Block.finish ⟨r, [a]⟩ = r ++ base64 [a] := by
  rw [base64_one]
  show r ++ [digit ((a &&& 0xfc) >>> 2), digit (((a &&& 0x03) <<< 4) + (((0 : Byte) &&& 0xf0) >>> 4))] ++ [61] ++ [61] = _
  rw [digit_first, digit_second, List.append_assoc, List.append_assoc]
  rfl

theorem finish_two : Block.finish ⟨r, [a, b]⟩ = r ++ base64 [a, b] := by
  rw [base64_two]
  show r ++ [digit ((a &&& 0xfc) >>> 2), digit (((a &&& 0x03) <<< 4) + ((b &&& 0xf0) >>> 4))] ++
    [digit (((b &&& 0x0f) <<< 2) + (((0 : Byte) &&& 0xc0) >>> 6))] ++ [61] = _
  rw [digit_first, digit_second, digit_third, List.append_assoc, List.append_assoc]
  rfl

/-- The two ways to end write the same. -/
theorem finishConfig_one : Block.finishConfig ⟨r, [a]⟩ = Block.finish ⟨r, [a]⟩ := by
  show r ++ [_, _] ++ [61, 61] = r ++ [_, _] ++ [61] ++ [61]
  rw [List.append_assoc _ [61] [61]]
  rfl

theorem finishConfig_two : Block.finishConfig ⟨r, [a, b]⟩ = Block.finish ⟨r, [a, b]⟩ := by
  show r ++ [_, _, _] ++ [61] = r ++ [_, _] ++ [_] ++ [61]
  rw [List.append_assoc r [_, _] [_]]
  rfl

end

/-- By induction on the groups of three bytes: between them the buffer is empty. -/
theorem finish_foldl (r : Bytes) : ∀ data : Bytes, (data.foldl Block.put ⟨r, []⟩).finish = r ++ base64 data
  | [] => (List.append_nil r).symm
  | [a] => finish_one r a
  | [a, b] => finish_two r a b
  | a :: b :: c :: data => by
    rw [List.foldl_cons, List.foldl_cons, List.foldl_cons, put_nil, put_one, put_two, finish_foldl, base64_three,
      List.append_assoc]
    rfl

theorem finishConfig_foldl (r : Bytes) :
    ∀ data : Bytes, (data.foldl Block.put ⟨r, []⟩).finishConfig = (data.foldl Block.put ⟨r, []⟩).finish
  | [] => rfl
  | [a] => finishConfig_one r a
  | [a, b] => finishConfig_two r a b
  | a :: b :: c :: data => by
    rw [List.foldl_cons, List.foldl_cons, List.foldl_cons, put_nil, put_one, put_two]
    exact finishConfig_foldl _ data

theorem sspiEngineEncode_eq (data : Bytes) : sspiEngineEncode data = base64 data := finish_foldl [] data

theorem basicEncode_eq (input : Bytes) : basicEncode input = base64 input := finish_foldl [] input

theorem configManagerEncode_eq (data : Bytes) : configManagerEncode data = base64 data :=
  (finishConfig_foldl [] data).trans (finish_foldl [] data)

/-! ## By the index -/

/-- Three bytes in a word. -/
def word (a b c : Byte) : BitVec 32 := a.setWidth 32 <<< 16 ||| b.setWidth 32 <<< 8 ||| c.setWidth 32

section

variable (a b c : Byte)

theorem word_two : a.setWidth 32 <<< 16 ||| b.setWidth 32 <<< 8 = word a b 0 := BitVec.or_zero.symm

theorem word_one : a.setWidth 32 <<< 16 = word a 0 0 := by
  rw [← word_two]
  exact BitVec.or_zero.symm

theorem toNat_word : (word a b c).toNat = (a.toNat * 256 + b.toNat) * 256 + c.toNat := by
  have ha := a.isLt
  have hb := b.isLt
  have hc := c.isLt
  have hhigh : a.toNat <<< 16 % 2 ^ 32 ||| b.toNat <<< 8 % 2 ^ 32 = (a.toNat * 256 + b.toNat) <<< 8 := by
    have hlt : b.toNat <<< 8 < 2 ^ 16 := by
      rw [Nat.shiftLeft_eq]
      omega
    rw [Nat.mod_eq_of_lt (by rw [Nat.shiftLeft_eq]; omega), Nat.mod_eq_of_lt (by omega),
      ← Nat.shiftLeft_add_eq_or_of_lt hlt, Nat.shiftLeft_eq, Nat.shiftLeft_eq, Nat.shiftLeft_eq]
    omega
  rw [word, BitVec.toNat_or, BitVec.toNat_or, BitVec.toNat_shiftLeft, BitVec.toNat_shiftLeft, BitVec.toNat_setWidth,
    BitVec.toNat_setWidth, BitVec.toNat_setWidth, Nat.mod_eq_of_lt (show a.toNat < 2 ^ 32 by omega),
    Nat.mod_eq_of_lt (show b.toNat < 2 ^ 32 by omega), Nat.mod_eq_of_lt (show c.toNat < 2 ^ 32 by omega), hhigh,
    ← Nat.shiftLeft_add_eq_or_of_lt hc, Nat.shiftLeft_eq]

/-- Six bits of the word. -/
theorem char_word {k n : Nat} (h : ((a.toNat * 256 + b.toNat) * 256 + c.toNat) / 2 ^ k % 64 = n) :
    char ((word a b c >>> k) &&& 0x3F) = base64Digit n := by
  have hbits : ((word a b c >>> k) &&& 0x3F).toNat = n := by
    rw [BitVec.toNat_and, BitVec.toNat_ushiftRight, toNat_word, Nat.shiftRight_eq_div_pow, ← h]
    exact Nat.and_two_pow_sub_one_eq_mod _ 6
  rw [char, hbits]
  exact (digits (by omega)).2.1

theorem char_first : char ((word a b c >>> 18) &&& 0x3F) = base64Digit (a.toNat / 4) := by
  have ha := a.isLt
  have hb := b.isLt
  have hc := c.isLt
  exact char_word a b c (by omega)

theorem char_second : char ((word a b c >>> 12) &&& 0x3F) = base64Digit (a.toNat % 4 * 16 + b.toNat / 16) := by
  have hb := b.isLt
  have hc := c.isLt
  exact char_word a b c (by omega)

theorem char_third : char ((word a b c >>> 6) &&& 0x3F) = base64Digit (b.toNat % 16 * 4 + c.toNat / 64) := by
  have hc := c.isLt
  exact char_word a b c (by omega)

theorem char_fourth : char (word a b c &&& 0x3F) = base64Digit (c.toNat % 64) := by
  have h := char_word a b c (k := 0) (n := c.toNat % 64) (by omega)
  rwa [BitVec.ushiftRight_zero] at h

end

theorem getD_append_add (p rest : Bytes) (k : Nat) : (p ++ rest).getD (p.length + k) 0 = rest.getD k 0 := by
  rw [List.getD_eq_getElem?_getD, List.getElem?_append_right (by omega), Nat.add_sub_cancel_left, List.getD_eq_getElem?_getD]

/-- A turn: the bytes past the end are zeros in the word. -/
theorem groupsFrom_succ (data : Bytes) {i : Nat} (turns : Nat) (hi : i < data.length) :
    groupsFrom data i (turns + 1) =
      base64Digit ((data.getD i 0).toNat / 4) ::
        base64Digit ((data.getD i 0).toNat % 4 * 16 + (data.getD (i + 1) 0).toNat / 16) ::
        (if i + 1 < data.length then
          base64Digit ((data.getD (i + 1) 0).toNat % 16 * 4 + (data.getD (i + 2) 0).toNat / 64) else 61) ::
        (if i + 2 < data.length then base64Digit ((data.getD (i + 2) 0).toNat % 64) else 61) ::
        groupsFrom data (i + 3) turns := by
  have hpast {k : Nat} (hk : ¬ k < data.length) : data.getD k 0 = 0 := by
    rw [List.getD_eq_getElem?_getD, List.getElem?_eq_none (by omega), Option.getD_none]
  rw [groupsFrom, if_pos hi]
  dsimp only
  by_cases h1 : i + 1 < data.length
  · by_cases h2 : i + 2 < data.length
    · simp only [if_pos h1, if_pos h2]
      rw [← word, char_first, char_second, char_third, char_fourth]
    · simp only [if_pos h1, if_neg h2, hpast h2]
      rw [word_two, char_first, char_second, char_third]
  · have h2 : ¬ i + 2 < data.length := by omega
    simp only [if_neg h1, if_neg h2, hpast h1]
    rw [word_one, char_first, char_second]

theorem groupsFrom_end (data : Bytes) {i : Nat} (turns : Nat) (hi : ¬ i < data.length) : groupsFrom data i turns = [] := by
  cases turns with
  | zero => rfl
  | succ n => rw [groupsFrom, if_neg hi]

/-- By induction on the groups of three bytes that are left. -/
theorem groupsFrom_eq (p : Bytes) :
    ∀ (rest : Bytes) {turns : Nat}, rest.length ≤ turns → groupsFrom (p ++ rest) p.length turns = base64 rest
  | [], turns, _ => groupsFrom_end _ _ (by simp)
  | [a], turns + 1, _ => by
    have hlen : (p ++ [a]).length = p.length + 1 := List.length_append
    have hthis : (p ++ [a]).getD p.length 0 = a := getD_append_add p [a] 0
    have hnext : (p ++ [a]).getD (p.length + 1) 0 = 0 := getD_append_add p [a] 1
    rw [groupsFrom_succ _ _ (by omega), if_neg (by omega), if_neg (by omega), groupsFrom_end _ _ (by omega), hthis, hnext,
      base64_one]
    rfl
  | [a, b], turns + 1, _ => by
    have hlen : (p ++ [a, b]).length = p.length + 2 := List.length_append
    have hthis : (p ++ [a, b]).getD p.length 0 = a := getD_append_add p [a, b] 0
    have hnext : (p ++ [a, b]).getD (p.length + 1) 0 = b := getD_append_add p [a, b] 1
    have hlast : (p ++ [a, b]).getD (p.length + 2) 0 = 0 := getD_append_add p [a, b] 2
    rw [groupsFrom_succ _ _ (by omega), if_pos (by omega), if_neg (by omega), groupsFrom_end _ _ (by omega), hthis, hnext,
      hlast, base64_two]
    rfl
  | a :: b :: c :: rest, turns + 1, h => by
    have hlen : (p ++ a :: b :: c :: rest).length = p.length + (rest.length + 3) := List.length_append
    have hthis : (p ++ a :: b :: c :: rest).getD p.length 0 = a := getD_append_add p _ 0
    have hnext : (p ++ a :: b :: c :: rest).getD (p.length + 1) 0 = b := getD_append_add p _ 1
    have hlast : (p ++ a :: b :: c :: rest).getD (p.length + 2) 0 = c := getD_append_add p _ 2
    have hturns : rest.length ≤ turns := by
      simp only [List.length_cons] at h
      omega
    have hrest := groupsFrom_eq (p ++ [a, b, c]) rest hturns
    rw [List.append_assoc, List.length_append] at hrest
    rw [groupsFrom_succ _ _ (by omega), if_pos (by omega), if_pos (by omega), hthis, hnext, hlast, base64_three, ← hrest]
    rfl

theorem sspiBase64Encode_eq (data : Bytes) : sspiBase64Encode data = base64 data := groupsFrom_eq [] data (Nat.le_refl _)

theorem tcpRelayServerEncode_eq (input : Bytes) : tcpRelayServerEncode input = base64 input :=
  groupsFrom_eq [] input (Nat.le_refl _)

/-! ## The decoders -/

/-- The tables of the decoders give the value of a digit, and an entry that is
none for another byte. -/
theorem tables (c : Byte) :
    D c = (digitValue c).getD 0xFF ∧
    (if 128 ≤ c.toNat ∨ kDecode.getD c.toNat 64 = 64 then digitValue c = none
      else digitValue c = some (kDecode.getD c.toNat 64)) ∧
    (c.toNat < 128 → sspiValue c = (digitValue c).getD 0xFF) ∧ digitValue c ≠ some 0xFF := by
  refine forall_byte (P := fun c => D c = (digitValue c).getD 0xFF ∧
    (if 128 ≤ c.toNat ∨ kDecode.getD c.toNat 64 = 64 then digitValue c = none
      else digitValue c = some (kDecode.getD c.toNat 64)) ∧
    (c.toNat < 128 → sspiValue c = (digitValue c).getD 0xFF) ∧ digitValue c ≠ some 0xFF) ?_ c
  decide +kernel

theorem D_eq (c : Byte) : D c = (digitValue c).getD 0xFF := (tables c).1

theorem digitValue_ne {c i : Byte} (h : digitValue c = some i) : i ≠ 0xFF := by
  rintro rfl
  exact (tables c).2.2.2 h

theorem configManager_decodeFrom (val : BitVec 32) (valb : Int) (s : Bytes) :
    Service.ConfigManager.decodeFrom val valb s = unpack val valb (values s) := by
  induction s generalizing val valb with
  | nil => rfl
  | cons c s ih =>
    have hD := D_eq c
    cases hc : digitValue c with
    | none =>
      have hskip : D c = 0xFF := by rw [hD, hc, Option.getD_none]
      rw [Service.ConfigManager.decodeFrom, if_pos hskip, ih, values, values, List.filterMap_cons_none hc]
    | some i =>
      have hi : D c = i := by rw [hD, hc, Option.getD_some]
      rw [Service.ConfigManager.decodeFrom, hi, if_neg (digitValue_ne hc), values, List.filterMap_cons_some hc, unpack]
      dsimp only
      rw [← push, ← values, ih, ih, show valb + 6 - 8 = valb - 2 by omega]

theorem sspiEngine_decodeFrom (val : BitVec 32) (valb : Int) (s : Bytes) :
    SspiEngine.decodeFrom val valb s = unpack val valb (values s) := by
  induction s generalizing val valb with
  | nil => rfl
  | cons c s ih =>
    have hk := (tables c).2.1
    rw [SspiEngine.decodeFrom]
    by_cases h : 128 ≤ c.toNat ∨ kDecode.getD c.toNat 64 = 64
    · rw [if_pos h] at hk
      rw [if_pos h, ih, values, values, List.filterMap_cons_none hk]
    · rw [if_neg h] at hk
      rw [if_neg h, values, List.filterMap_cons_some hk, unpack]
      dsimp only
      rw [← push, ← values, ih, ih, show valb + 6 - 8 = valb - 2 by omega]

/-- The value that `SspiBase64Decode` takes for a byte, if it takes one. -/
def sspiDigit (c : Byte) : Option Byte := if 128 ≤ c.toNat then some 0 else digitValue c

/-- The values that it takes of a text: those before the padding. -/
def sspiValues (s : Bytes) : List Byte := (unpadded s).filterMap sspiDigit

/-- An entry of the table, also of the half that is filled up with zeros. -/
theorem sspiValue_eq (c : Byte) : sspiValue c = (sspiDigit c).getD 0xFF := by
  rw [sspiDigit]
  split
  next hc =>
    have hend : sspiD.length = 128 := rfl
    rw [sspiValue, List.getD_eq_getElem?_getD, List.getElem?_eq_none (by omega)]
    rfl
  next hc => exact (tables c).2.2.1 (by omega)

theorem sspiDigit_ne {c i : Byte} (h : sspiDigit c = some i) : i ≠ 0xFF := by
  rw [sspiDigit] at h
  split at h
  · cases h
    decide
  · exact digitValue_ne h

theorem sspiDecodeFrom_eq (val : BitVec 32) (valb : Int) (s : Bytes) :
    sspiDecodeFrom val valb s = unpack val valb (sspiValues s) := by
  induction s generalizing val valb with
  | nil => rfl
  | cons c s ih =>
    by_cases hpad : c = 61
    · rw [sspiDecodeFrom, if_pos hpad, sspiValues, unpadded, List.takeWhile_cons_of_neg (by simpa using hpad)]
      rfl
    have hcons : unpadded (c :: s) = c :: unpadded s := List.takeWhile_cons_of_pos (by simpa using hpad)
    have hvalue := sspiValue_eq c
    cases hc : sspiDigit c with
    | none =>
      have hskip : sspiValue c = 0xFF := by rw [hvalue, hc, Option.getD_none]
      rw [sspiDecodeFrom, if_neg hpad, if_pos hskip, ih, sspiValues, sspiValues, hcons, List.filterMap_cons_none hc]
    | some i =>
      have hi : sspiValue c = i := by rw [hvalue, hc, Option.getD_some]
      rw [sspiDecodeFrom, if_neg hpad, hi, if_neg (sspiDigit_ne hc), sspiValues, hcons, List.filterMap_cons_some hc, unpack]
      dsimp only
      rw [← push, ← sspiValues, ih, ih, show valb + 6 - 8 = valb - 2 by omega]

/-- Without bytes above 0x7F before the padding these are the digits there. -/
theorem sspiValues_of_lt {s : Bytes} (h : ∀ c ∈ unpadded s, c.toNat < 128) : sspiValues s = values (unpadded s) :=
  List.filterMap_congr fun c hc => if_neg (Nat.not_le_of_lt (h c hc))

theorem lt_of_mem_unpadded_base64 (data : Bytes) : ∀ c ∈ unpadded (base64 data), c.toNat < 128 := by
  intro c hc
  rw [unpadded_base64] at hc
  obtain ⟨n, hn, rfl⟩ := List.mem_map.mp hc
  exact (digits (lt_of_mem_sextets hn)).2.2

theorem base64_round_trip (d : Bytes) :
    (configManagerEncode d = base64 d ∧ sspiBase64Encode d = base64 d ∧ sspiEngineEncode d = base64 d ∧
      basicEncode d = base64 d ∧ tcpRelayServerEncode d = base64 d) ∧
    Service.ConfigManager.base64Decode (base64 d) = d ∧ sspiBase64Decode (base64 d) = d ∧
    SspiEngine.base64Decode (base64 d) = d := by
  refine ⟨⟨configManagerEncode_eq d, sspiBase64Encode_eq d, sspiEngineEncode_eq d, basicEncode_eq d,
    tcpRelayServerEncode_eq d⟩, ?_, ?_, ?_⟩
  · exact (configManager_decodeFrom 0 (-8) _).trans (unpack_values_base64 0 d)
  · rw [sspiBase64Decode, sspiDecodeFrom_eq, sspiValues_of_lt (lt_of_mem_unpadded_base64 d), unpack_values_unpadded]
  · exact (sspiEngine_decodeFrom 0 (-8) _).trans (unpack_values_base64 0 d)

/-! ## Any text -/

theorem digitValue_lt {c i : Byte} (h : digitValue c = some i) : i.toNat < 64 := by
  have hlt : ((digitValue c).getD 0).toNat < 64 := by
    refine forall_byte (P := fun c => ((digitValue c).getD 0).toNat < 64) ?_ c
    decide +kernel
  rwa [h, Option.getD_some] at hlt

theorem lt_of_mem_values {s : Bytes} {i : Byte} (h : i ∈ values s) : i.toNat < 64 := by
  obtain ⟨c, -, hc⟩ := List.mem_filterMap.mp h
  exact digitValue_lt hc

theorem lt_of_mem_sspiValues {s : Bytes} {i : Byte} (h : i ∈ sspiValues s) : i.toNat < 64 := by
  obtain ⟨c, -, hc⟩ := List.mem_filterMap.mp h
  rw [sspiDigit] at hc
  split at hc
  · cases hc
    decide
  · exact digitValue_lt hc

/-- Two of the decoders always agree: they skip what is no digit, the padding included. -/
theorem sspiEngine_base64Decode (s : Bytes) : SspiEngine.base64Decode s = Service.ConfigManager.base64Decode s :=
  (sspiEngine_decodeFrom ..).trans (configManager_decodeFrom ..).symm

/-- The third stops at the padding and takes bytes above 0x7F for digits. It
agrees with them exactly if the digits that it takes and those of the whole
text complete as many bytes and write the same number in them. -/
theorem decoders_agree_iff (s : Bytes) :
    Service.ConfigManager.base64Decode s = sspiBase64Decode s ∧ sspiBase64Decode s = SspiEngine.base64Decode s ↔
      wholeBytes (sspiValues s) = wholeBytes (values s) := by
  have hconfig : Service.ConfigManager.base64Decode s = unpack 0 (-8) (values s) := configManager_decodeFrom ..
  have hsspi : sspiBase64Decode s = unpack 0 (-8) (sspiValues s) := sspiDecodeFrom_eq ..
  rw [sspiEngine_base64Decode, eq_comm (a := Service.ConfigManager.base64Decode s), and_self, hconfig, hsspi]
  exact unpack_eq_iff (fun _ => lt_of_mem_sspiValues) fun _ => lt_of_mem_values

theorem unpadded_append (s : Bytes) : s = unpadded s ++ s.dropWhile (· ≠ 61) := List.takeWhile_append_dropWhile.symm

/-- Without bytes above 0x7F before the padding, what follows the padding
counts if it completes a byte. -/
theorem sspiBase64Decode_eq_iff {s : Bytes} (h : ∀ c ∈ unpadded s, c.toNat < 128) :
    sspiBase64Decode s = Service.ConfigManager.base64Decode s ↔
      6 * (values (unpadded s)).length / 8 = 6 * (values s).length / 8 := by
  have hconfig : Service.ConfigManager.base64Decode s = unpack 0 (-8) (values s) := configManager_decodeFrom ..
  have hvalues : values s = values (unpadded s) ++ values (s.dropWhile (· ≠ 61)) := by
    rw [← values_append, ← unpadded_append]
  rw [sspiBase64Decode, sspiDecodeFrom_eq, sspiValues_of_lt h, hconfig, hvalues]
  exact unpack_append_eq_iff ..

/-- Padding in the middle, and bytes above 0x7F. -/
theorem decoders_differ :
    let s := ascii "QQ==QQ=="
    sspiBase64Decode s = [65] ∧ Service.ConfigManager.base64Decode s = [65, 4, 16] ∧
    SspiEngine.base64Decode s = [65, 4, 16] ∧
    sspiBase64Decode [0x80, 0x80] = [0] ∧ Service.ConfigManager.base64Decode [0x80, 0x80] = [] ∧
    SspiEngine.base64Decode [0x80, 0x80] = [] := by
  decide +kernel

end Base64

end TR.Impl
