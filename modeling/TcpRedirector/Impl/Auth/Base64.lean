import TcpRedirector.Impl.Auth.AuthAgent

/-!
# The Base64 functions

The five encoders of the service and the agent, and the decoder of
`auth_sspi.cpp`. Three of the encoders collect three bytes in a buffer, the
others take them from the data by their index.
-/

namespace TR.Impl.Base64

open SspiEngine (digit kBase64)

/-! ## With a buffer -/

/-- What has been written, and the bytes in the buffer. -/
structure Block where
  result : Bytes := []
  a3 : Bytes := []
  deriving Repr, DecidableEq

/-- `a3[j]`, if the buffer is filled up with zeros. -/
def Block.at (s : Block) (j : Nat) : Byte := s.a3.getD j 0

/-- The four values that the buffer gives. -/
def Block.c4 (s : Block) : List Byte := [
  (s.at 0 &&& 0xfc) >>> 2,
  ((s.at 0 &&& 0x03) <<< 4) + ((s.at 1 &&& 0xf0) >>> 4),
  ((s.at 1 &&& 0x0f) <<< 2) + ((s.at 2 &&& 0xc0) >>> 6),
  s.at 2 &&& 0x3f]

/-- A turn of the loop over the data. -/
def Block.put (s : Block) (c : Byte) : Block :=
  let s := { s with a3 := s.a3 ++ [c] }
  if s.a3.length = 3 then ⟨s.result ++ s.c4.map digit, []⟩ else s

/-- The end of `SspiEngine::Base64Encode`. -/
def Block.finish (s : Block) : Bytes :=
  if 0 < s.a3.length then
    s.result ++ (s.c4.take 2).map digit ++ (if s.a3.length = 2 then [digit (s.c4.getD 2 0)] else [61]) ++ [61]
  else s.result

/-- `SspiEngine::Base64Encode`. -/
def sspiEngineEncode (data : Bytes) : Bytes := (data.foldl Block.put {}).finish

/-- `BasicAuthenticationProvider::Base64Encode`. -/
def basicEncode (input : Bytes) : Bytes := (input.foldl Block.put {}).finish

/-- The end of `ConfigManager::Base64Encode`. -/
def Block.finishConfig (s : Block) : Bytes :=
  if 0 < s.a3.length then
    s.result ++ (s.c4.take (s.a3.length + 1)).map digit ++ List.replicate (3 - s.a3.length) 61
  else s.result

/-- `ConfigManager::Base64Encode`. -/
def configManagerEncode (data : Bytes) : Bytes := (data.foldl Block.put {}).finishConfig

/-! ## By the index -/

def char (n : BitVec 32) : Byte := kBase64.getD n.toNat 0

/-- The loop over the data from the index `i` on, if `turns` are left. -/
def groupsFrom (data : Bytes) (i : Nat) : Nat → Bytes
  | 0 => []
  | turns + 1 =>
    if i < data.length then
      let b : BitVec 32 := (data.getD i 0).setWidth 32 <<< 16
      let b := if i + 1 < data.length then b ||| (data.getD (i + 1) 0).setWidth 32 <<< 8 else b
      let b := if i + 2 < data.length then b ||| (data.getD (i + 2) 0).setWidth 32 else b
      char ((b >>> 18) &&& 0x3F) :: char ((b >>> 12) &&& 0x3F) ::
        (if i + 1 < data.length then char ((b >>> 6) &&& 0x3F) else 61) ::
        (if i + 2 < data.length then char (b &&& 0x3F) else 61) :: groupsFrom data (i + 3) turns
    else []

/-- `SspiBase64Encode`. -/
def sspiBase64Encode (data : Bytes) : Bytes := groupsFrom data 0 data.length

/-- `TcpRelayServer::Base64Encode`. -/
def tcpRelayServerEncode (input : Bytes) : Bytes := groupsFrom input 0 input.length

/-! ## The decoder -/

/-- The table of `SspiBase64Decode`, as far as it is written out. -/
def sspiD : List Byte := [
  0xFF,0xFF,0xFF,0xFF,0xFF,0xFF,0xFF,0xFF,0xFF,0xFF,0xFF,0xFF,0xFF,0xFF,0xFF,0xFF,
  0xFF,0xFF,0xFF,0xFF,0xFF,0xFF,0xFF,0xFF,0xFF,0xFF,0xFF,0xFF,0xFF,0xFF,0xFF,0xFF,
  0xFF,0xFF,0xFF,0xFF,0xFF,0xFF,0xFF,0xFF,0xFF,0xFF,0xFF,0x3E,0xFF,0xFF,0xFF,0x3F,
  0x34,0x35,0x36,0x37,0x38,0x39,0x3A,0x3B,0x3C,0x3D,0xFF,0xFF,0xFF,0xFF,0xFF,0xFF,
  0xFF,0x00,0x01,0x02,0x03,0x04,0x05,0x06,0x07,0x08,0x09,0x0A,0x0B,0x0C,0x0D,0x0E,
  0x0F,0x10,0x11,0x12,0x13,0x14,0x15,0x16,0x17,0x18,0x19,0xFF,0xFF,0xFF,0xFF,0xFF,
  0xFF,0x1A,0x1B,0x1C,0x1D,0x1E,0x1F,0x20,0x21,0x22,0x23,0x24,0x25,0x26,0x27,0x28,
  0x29,0x2A,0x2B,0x2C,0x2D,0x2E,0x2F,0x30,0x31,0x32,0x33,0xFF,0xFF,0xFF,0xFF,0xFF]

/-- `D[c]`; the other half of the table is initialized with zeros. -/
def sspiValue (c : Byte) : Byte := sspiD.getD c.toNat 0

/-- The loop of `SspiBase64Decode`, which stops at the padding. -/
def sspiDecodeFrom (val : BitVec 32) (valb : Int) : Bytes → Bytes
  | [] => []
  | c :: data =>
    if c = 61 then []
    else if sspiValue c = 0xFF then sspiDecodeFrom val valb data
    else
      let val := (val <<< 6) + (sspiValue c).setWidth 32
      let valb := valb + 6
      if 0 ≤ valb then (val.sshiftRight valb.toNat).setWidth 8 :: sspiDecodeFrom val (valb - 8) data
      else sspiDecodeFrom val valb data

def sspiBase64Decode (data : Bytes) : Bytes := sspiDecodeFrom 0 (-8) data

end TR.Impl.Base64
