import TcpRedirector.Proof.Auth.Base64

/-!
# The password's text

`Base64Decode` reads back what `Base64Encode` wrote (`base64Decode_encode`),
and the bytes of a wide string give it back (`ofWideBytes_wideBytes`).
-/

namespace TR.Impl.Service.ConfigManager

theorem base64Decode_encode (data : Bytes) : base64Decode (base64Encode data) = data := by
  rw [base64Decode, Base64.configManager_decodeFrom, base64Encode, base64Encode_eq, unpack_values_base64]

theorem ofWideBytes_wideBytes (w : WString) : ofWideBytes (wideBytes w) = w := by
  induction w with
  | nil => rfl
  | cons u w ih =>
    have hu : ((u >>> 8).setWidth 8 ++ u.setWidth 8 : BitVec 16) = u := by
      ext i hi
      rw [BitVec.getElem_append]
      split
      · exact (BitVec.getElem_setWidth ..).trans (BitVec.getLsbD_eq_getElem _)
      · next h => simp [show 8 + (i - 8) = i by omega, hi]
    show ((u >>> 8).setWidth 8 ++ u.setWidth 8) :: ofWideBytes (wideBytes w) = u :: w
    rw [hu, ih]

end TR.Impl.Service.ConfigManager
