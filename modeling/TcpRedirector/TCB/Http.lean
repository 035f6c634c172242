import Mathlib.Data.List.DropRight
import TcpRedirector.TCB.Bytes

/-!
# Responses of a proxy

A response with status 407 as HTTP writes it: the status line, the header
fields with optional white space after the colon, an empty line, the body. The
case of a field's name and of a scheme does not matter.
-/

namespace TR.Http

/-- `tolower` in the C locale. -/
def lower (c : Byte) : Byte := if 65 ≤ c.toNat ∧ c.toNat ≤ 90 then c + 32 else c

/-- The same word in any case. -/
def sameWord (a b : Bytes) : Bool := a.map lower == b.map lower

def crlf : Bytes := [13, 10]

structure Header where
  name : Bytes
  space : Bytes
  value : Bytes
  name_visible : ∀ c ∈ name, 32 < c.toNat ∧ c ≠ 58
  space_blank : ∀ c ∈ space, c = 32 ∨ c = 9
  value_line : ∀ c ∈ value, c ≠ 13 ∧ c ≠ 10
  value_start : ∀ c ∈ value.head?, c ≠ 32 ∧ c ≠ 9

namespace Header

variable (h : Header)

/-- The line of the field, without its end. -/
def text : Bytes := h.name ++ 58 :: (h.space ++ h.value)

/-- The first word of the value. -/
def scheme : Bytes := h.value.takeWhile (· ≠ 32)

/-- What follows it, without the spaces around. -/
def token : Bytes := ((h.value.dropWhile (· ≠ 32)).dropWhile (· = 32)).rdropWhile (· = 32)

def isChallenge : Bool := sameWord h.name (ascii "Proxy-Authenticate") && sameWord h.scheme (ascii "Negotiate")

end Header

structure Response where
  minor : Byte
  reason : Bytes
  headers : List Header
  body : Bytes
  minor_digit : 48 ≤ minor.toNat ∧ minor.toNat ≤ 57
  reason_line : ∀ c ∈ reason, c ≠ 13 ∧ c ≠ 10

namespace Response

variable (r : Response)

def statusLine : Bytes := ascii "HTTP/1." ++ r.minor :: (ascii " 407 " ++ r.reason)

/-- The response up to the end of these header fields. -/
def before (headers : List Header) : Bytes := r.statusLine ++ crlf ++ headers.flatMap fun h => h.text ++ crlf

def bytes : Bytes := r.before r.headers ++ crlf ++ r.body

/-- The token of the first challenge for Negotiate. -/
def challenge : Bytes :=
  match r.headers.find? Header.isChallenge with
  | some h => h.token
  | none => []

end Response

end TR.Http
