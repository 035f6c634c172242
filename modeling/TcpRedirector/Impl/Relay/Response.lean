import Mathlib.Data.List.DropRight
import TcpRedirector.TCB.Bytes

/-!
# The proxy's response

How `ConnectionHandler` reads the response to a CONNECT, and
`Parse407Challenge` of `auth_sspi.cpp`.
-/

namespace TR.Impl

/-- `HTTP/1.x 200` at the start of the response. -/
def connectOk (resp : Bytes) : Bool :=
  12 ≤ resp.length && resp.take 7 == ascii "HTTP/1." && resp[8]? == some 32 &&
    resp[9]? == some 50 && resp[10]? == some 48 && resp[11]? == some 48

/-- `strstr(resp_buf, "407")`. -/
def mentions407 (resp : Bytes) : Bool := (find (ascii "407") (cstr resp)).isSome

def isGatewayError (resp : Bytes) : Bool := (find (ascii "504") resp).isSome || (find (ascii "502") resp).isSome

/-- The markers of a challenge, in the order they are tried. -/
def challengeMarkers : List Bytes :=
  [ascii "Proxy-Authenticate: Negotiate ", ascii "proxy-authenticate: negotiate ",
    ascii "Proxy-Authenticate: negotiate ", ascii "proxy-authenticate: Negotiate "]

/-- The first marker that occurs, and where it is found. -/
def findMarker (responseBody : Bytes) : Option (Bytes × Nat) :=
  challengeMarkers.findSome? fun marker => (find marker responseBody).map (marker, ·)

/-- The token after the first marker that occurs, up to the end of the line,
without the spaces and CRs at its end. -/
def parse407Challenge (responseBody : Bytes) : Bytes :=
  match findMarker responseBody with
  | none => []
  | some (marker, pos) =>
    ((responseBody.drop (pos + marker.length)).takeWhile fun c => c ≠ 13 ∧ c ≠ 10).rdropWhile fun c => c = 32 ∨ c = 13

/-- Where it is found. -/
def challengeAt (responseBody : Bytes) : Option Nat := (findMarker responseBody).map (·.2)

end TR.Impl
