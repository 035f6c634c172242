import TcpRedirector.TCB.Bytes
import TcpRedirector.TCB.Prog

/-!
# What the relay calls

The calls that the threads of `TcpRelayServer` make to Winsock, the
authentication provider, the connection monitor and the state they share, and
what each may answer.
-/

namespace TR.Impl

/-- `SOCKET`. -/
abbrev Sock := BitVec 64

/-- `IAuthenticationProvider::GetType`. -/
inductive AuthProviderType where
  | kerberosAgent | basic
  deriving Repr, DecidableEq

structure CreateContextResult where
  success : Bool
  contextId : BitVec 64
  token : Bytes
  deriving Repr, DecidableEq

structure ContinueContextResult where
  success : Bool
  token : Bytes
  deriving Repr, DecidableEq

/-- The options of `setsockopt`. -/
inductive SockOpt where
  | rcvBuf | sndBuf | rcvTimeo | sndTimeo | keepAlive | noDelay
  deriving Repr, DecidableEq

inductive Call where
  | getaddrinfo (host : Bytes)
  | freeaddrinfo
  | socket
  | setsockopt (s : Sock) (opt : SockOpt) (value : Nat)
  | connect (s : Sock) (addr : BitVec 32) (port : BitVec 16)
  | send (s : Sock) (data : Bytes)
  | recv (s : Sock) (len : Nat)
  | shutdown (s : Sock)
  | closesocket (s : Sock)
  | createContext (spn : Bytes)
  | continueContext (contextId : BitVec 64) (challenge : Bytes)
  | closeContext (contextId : BitVec 64)
  /-- `m_lastAuthToken` is read. -/
  | readLastAuthToken
  /-- It is written. -/
  | writeLastAuthToken (token : Bytes)
  | incrementProxyErrors
  | sleep (ms : Nat)
  | startBridge (client proxy : Sock)
  /-- `counter->fetch_add`. -/
  | fetchAdd (bytes : BitVec 64)
  /-- `InterlockedDecrement(&pair->refs)`. -/
  | decrementRefs
  deriving Repr, DecidableEq

/-- The answers to a call. -/
def Call.Resp : Call → Type
  -- The first address, or none if the call fails.
  | .getaddrinfo _ => Option (BitVec 32)
  -- The socket, or none for `INVALID_SOCKET`.
  | .socket => Option Sock
  -- Whether it returned 0.
  | .connect _ _ _ => Bool
  -- How many bytes went out, or none for `SOCKET_ERROR`.
  | .send _ data => Option (Fin (data.length + 1))
  -- The bytes that came in, or none for `SOCKET_ERROR`.
  | .recv _ len => Option { b : Bytes // b.length ≤ len }
  | .createContext _ => CreateContextResult
  | .continueContext _ _ => ContinueContextResult
  | .readLastAuthToken => Bytes
  | .decrementRefs => BitVec 32
  | _ => Unit

/-- A thread of the relay. -/
abbrev RelayProg := Prog Call Call.Resp

namespace RelayProg

def getaddrinfo (host : Bytes) : RelayProg (Option (BitVec 32)) := .call (.getaddrinfo host) .ret

def freeaddrinfo : RelayProg Unit := .call .freeaddrinfo .ret

def socket : RelayProg (Option Sock) := .call .socket .ret

def setsockopt (s : Sock) (opt : SockOpt) (value : Nat) : RelayProg Unit := .call (.setsockopt s opt value) .ret

def connect (s : Sock) (addr : BitVec 32) (port : BitVec 16) : RelayProg Bool := .call (.connect s addr port) .ret

def send (s : Sock) (data : Bytes) : RelayProg (Option (Fin (data.length + 1))) := .call (.send s data) .ret

def recv (s : Sock) (len : Nat) : RelayProg (Option { b : Bytes // b.length ≤ len }) := .call (.recv s len) .ret

def closesocket (s : Sock) : RelayProg Unit := .call (.closesocket s) .ret

def createContext (spn : Bytes) : RelayProg CreateContextResult := .call (.createContext spn) .ret

def continueContext (contextId : BitVec 64) (challenge : Bytes) : RelayProg ContinueContextResult :=
  .call (.continueContext contextId challenge) .ret

def closeContext (contextId : BitVec 64) : RelayProg Unit := .call (.closeContext contextId) .ret

def readLastAuthToken : RelayProg Bytes := .call .readLastAuthToken .ret

def writeLastAuthToken (token : Bytes) : RelayProg Unit := .call (.writeLastAuthToken token) .ret

def sleep (ms : Nat) : RelayProg Unit := .call (.sleep ms) .ret

def startBridge (client proxy : Sock) : RelayProg Unit := .call (.startBridge client proxy) .ret

end RelayProg

/-- The fields of `TcpRelayServer` that its handlers read. -/
structure Relay where
  proxyHost : Bytes
  proxyPort : BitVec 16
  proxyAuthRequired : Bool
  /-- `m_authProvider`, by its type; none for `nullptr`. -/
  authProvider : Option AuthProviderType
  /-- `m_connectionMonitor != nullptr`. -/
  connectionMonitor : Bool
  deriving Repr, DecidableEq

end TR.Impl
