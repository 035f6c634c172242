import TcpRedirector.Impl.ConnectionTable
import TcpRedirector.Impl.Relay.Calls
import TcpRedirector.Impl.Relay.Response

/-!
# The connection handler

`HandleNewConnection` and `ConnectionHandler` of `TcpRelayServer.h`. The two
labels that `goto` jumps back to are the functions `retryProxyConnect` and
`retryConnect`; their arguments are the retries left, where the source counts
those made, so that each jump passes one less. The code after a jump target
is given the jumps still allowed to it: `again` to `retry_proxy_connect`,
`retry` to `retry_connect`.
-/

namespace TR.Impl

open RelayProg

structure RelayContext where
  clientSock : Sock
  origDestIp : BitVec 32
  origDestPort : BitVec 16
  proxyConfigId : BitVec 32
  deriving Repr, DecidableEq

/-- The context of an accepted connection's handler; none if the port is not
in the table, and the client is closed. -/
def handleNewConnection (t : ConnectionTable) (clientSock : Sock) (clientPort : BitVec 16) : Option RelayContext :=
  match t.get clientPort with
  | none => none
  | some (origDestIp, origDestPort) => some ⟨clientSock, origDestIp, origDestPort, t.getProxyConfigId clientPort⟩

/-- `authContextId`, while `authContextActive`. -/
abbrev AuthContext := Option (BitVec 64)

/-- The first lines of every CONNECT. -/
def connectReq (destIp : BitVec 32) (destPort : BitVec 16) : Bytes :=
  let dest := inetNtop destIp ++ ascii ":" ++ decimal destPort.toNat
  ascii "CONNECT " ++ dest ++ ascii " HTTP/1.1\r\nHost: " ++ dest ++ ascii "\r\n"

section

variable (m : Relay)

/-- `if (m_connectionMonitor) m_connectionMonitor->IncrementProxyErrors()`. -/
def incrementProxyErrors : RelayProg Unit :=
  if m.connectionMonitor then .call .incrementProxyErrors .ret else pure ()

/-- `if (authContextActive && m_authProvider) m_authProvider->CloseContext(authContextId)`. -/
def closeAuthContext (ctx : AuthContext) : RelayProg Unit :=
  match ctx with
  | some authContextId => if m.authProvider.isSome then closeContext authContextId else pure ()
  | none => pure ()

/-- `m_proxyAuthRequired && m_authProvider`. -/
def authConfigured : Bool := m.proxyAuthRequired && m.authProvider.isSome

def spn : Bytes := ascii "HTTP/" ++ m.proxyHost

def proxyAuthorization (token : Bytes) : Bytes :=
  ascii "Proxy-Authorization: " ++ (if m.authProvider = some .basic then ascii "Basic " else ascii "Negotiate ") ++
    token ++ ascii "\r\n"

/-- The header that authenticates a CONNECT, and the context it leaves. -/
def authenticate (ctx : AuthContext) : RelayProg (Bytes × AuthContext) :=
  if authConfigured m then
    match ctx with
    | none => do
      let ctxResult ← createContext (spn m)
      if ctxResult.success then pure (proxyAuthorization m ctxResult.token, some ctxResult.contextId)
      else pure ([], none)
    | some authContextId => do
      let lastAuthToken ← readLastAuthToken
      pure (proxyAuthorization m lastAuthToken, some authContextId)
  else pure ([], ctx)

/-- The end of every failed attempt. -/
def closeAll (client proxy : Sock) : RelayProg Unit := do
  closesocket client
  closesocket proxy
  freeaddrinfo

/-- 200: the timeouts are reset and the sockets handed over. -/
def onConnected (client proxy : Sock) (ctx : AuthContext) : RelayProg Unit := do
  closeAuthContext m ctx
  setsockopt proxy .rcvTimeo 0
  setsockopt proxy .sndTimeo 0
  setsockopt proxy .keepAlive 1
  setsockopt client .keepAlive 1
  freeaddrinfo
  startBridge client proxy

/-- 407 with an active context, from the Kerberos agent: the context
continues with the challenge. -/
def onChallenge (client proxy : Sock) (retry : Option (BitVec 64 → RelayProg Unit)) (authContextId : BitVec 64)
    (resp : Bytes) : RelayProg Unit := do
  let giveUp : RelayProg Unit := do
    incrementProxyErrors m
    closeContext authContextId
    closeAll client proxy
  let challenge := parse407Challenge (cstr resp)
  if challenge.isEmpty then giveUp
  else
    let contResult ← continueContext authContextId challenge
    if !contResult.success then giveUp
    else if contResult.token.isEmpty then giveUp
    else
      writeLastAuthToken contResult.token
      match retry with
      | none => giveUp
      | some retryConnect => retryConnect authContextId

/-- 407 without a context: one is created now. At the retry limit no error is
counted. -/
def onUnauthenticated (client proxy : Sock) (retry : Option (BitVec 64 → RelayProg Unit)) : RelayProg Unit := do
  let ctxResult ← createContext (spn m)
  if ctxResult.success then
    writeLastAuthToken ctxResult.token
    match retry with
    | none =>
      closeContext ctxResult.contextId
      closeAll client proxy
    | some retryConnect => retryConnect ctxResult.contextId
  else
    incrementProxyErrors m
    closeAll client proxy

/-- 407 from a proxy that should have been satisfied. -/
def onRejected (client proxy : Sock) (authContextId : BitVec 64) : RelayProg Unit := do
  incrementProxyErrors m
  closeContext authContextId
  closeAll client proxy

/-- Neither 200 nor 407: after a gateway error everything starts again with
another socket. -/
def onFailure (client proxy : Sock) (again : Option (RelayProg Unit)) (ctx : AuthContext) (resp : Bytes) :
    RelayProg Unit := do
  match isGatewayError resp, again with
  | true, some retryProxyConnect =>
    closeAuthContext m ctx
    closesocket proxy
    sleep 500
    retryProxyConnect
  | _, _ =>
    incrementProxyErrors m
    closeAuthContext m ctx
    closeAll client proxy

/-- What follows the response to a CONNECT. -/
def onResponse (client proxy : Sock) (again : Option (RelayProg Unit)) (retry : Option (BitVec 64 → RelayProg Unit))
    (ctx : AuthContext) (resp : Bytes) : RelayProg Unit :=
  if resp.isEmpty then do
    incrementProxyErrors m
    closeAuthContext m ctx
    closeAll client proxy
  else if connectOk resp then onConnected m client proxy ctx
  else if mentions407 resp && authConfigured m then
    match ctx with
    | some authContextId =>
      if m.authProvider = some .kerberosAgent then onChallenge m client proxy retry authContextId resp
      else onRejected m client proxy authContextId
    | none => onUnauthenticated m client proxy retry
  else onFailure m client proxy again ctx resp

/-- The response is read. `std::string(resp_buf, bytes)` throws if `bytes` is
`SOCKET_ERROR`, before it is looked at. -/
def awaitResponse (client proxy : Sock) (again : Option (RelayProg Unit)) (retry : Option (BitVec 64 → RelayProg Unit))
    (ctx : AuthContext) : RelayProg Unit := do
  match ← recv proxy 4095 with
  | none => .throw
  | some resp => onResponse m client proxy again retry ctx resp.1

/-- One CONNECT. -/
def sendConnect (client proxy : Sock) (destIp : BitVec 32) (destPort : BitVec 16) (again : Option (RelayProg Unit))
    (retry : Option (BitVec 64 → RelayProg Unit)) (ctx : AuthContext) : RelayProg Unit := do
  let (auth, ctx) ← authenticate m ctx
  match ← send proxy (connectReq destIp destPort ++ auth ++ ascii "Proxy-Connection: Keep-Alive\r\n\r\n") with
  | none =>
    incrementProxyErrors m
    closeAuthContext m ctx
    closeAll client proxy
  | some _ => awaitResponse m client proxy again retry ctx

/-- From `retry_connect`, with so many of the five retries left. -/
def retryConnect (client proxy : Sock) (destIp : BitVec 32) (destPort : BitVec 16) (again : Option (RelayProg Unit)) :
    Nat → AuthContext → RelayProg Unit
  | 0, ctx => sendConnect m client proxy destIp destPort again none ctx
  | n + 1, ctx => sendConnect m client proxy destIp destPort again
      (some fun authContextId => retryConnect client proxy destIp destPort again n (some authContextId)) ctx

/-- The options of the two sockets. -/
def setSocketOptions (client proxy : Sock) : RelayProg Unit := do
  setsockopt proxy .rcvBuf 4194304
  setsockopt proxy .sndBuf 4194304
  setsockopt proxy .rcvTimeo 30000
  setsockopt proxy .sndTimeo 30000
  setsockopt client .rcvBuf 4194304
  setsockopt client .sndBuf 4194304
  setsockopt proxy .noDelay 1
  setsockopt client .noDelay 1

/-- A connection to the proxy, with a socket of its own. -/
def connectProxy (client : Sock) (addr destIp : BitVec 32) (destPort : BitVec 16) (again : Option (RelayProg Unit)) :
    RelayProg Unit := do
  match ← socket with
  | none =>
    incrementProxyErrors m
    closesocket client
    freeaddrinfo
  | some proxy =>
    setSocketOptions client proxy
    if ← connect proxy addr (htons m.proxyPort) then retryConnect m client proxy destIp destPort again 5 none
    else
      incrementProxyErrors m
      closeAll client proxy

/-- From `retry_proxy_connect`, with so many of the retries left. -/
def retryProxyConnect (client : Sock) (addr destIp : BitVec 32) (destPort : BitVec 16) : Nat → RelayProg Unit
  | 0 => connectProxy m client addr destIp destPort none
  | n + 1 => connectProxy m client addr destIp destPort (some (retryProxyConnect client addr destIp destPort n))

def MAX_GATEWAY_RETRIES : Nat := 3

def connectionHandler (ctx : RelayContext) : RelayProg Unit := do
  match ← getaddrinfo m.proxyHost with
  | none =>
    incrementProxyErrors m
    closesocket ctx.clientSock
  | some addr => retryProxyConnect m ctx.clientSock addr ctx.origDestIp ctx.origDestPort MAX_GATEWAY_RETRIES

end

end TR.Impl
