import TcpRedirector.Impl.Relay.ConnectionHandler

/-!
# The labels of the connection handler

`ConnectionHandler` with the counters of the source, which count the retries
made, and with jumps to labels, of which nothing says that they end. `stuck`
is what the handler would do after so many jumps.
-/

namespace TR.Impl

open RelayProg

/-- Where a jump leads, with the variables that live there. -/
inductive Label where
  | retryProxyConnect (gatewayRetries : Nat)
  | retryConnect (proxySock : Sock) (gatewayRetries authRetries : Nat) (ctx : AuthContext)
  deriving Repr, DecidableEq

section

variable (m : Relay) (client : Sock) (addr destIp : BitVec 32) (destPort : BitVec 16) (stuck : RelayProg Unit)

/-- From a label on, with so many jumps. -/
def goto : Nat → Label → RelayProg Unit
  | 0, _ => stuck
  | n + 1, .retryProxyConnect gatewayRetries => do
    match ← socket with
    | none =>
      incrementProxyErrors m
      closesocket client
      freeaddrinfo
    | some proxySock =>
      setSocketOptions client proxySock
      if ← connect proxySock addr (htons m.proxyPort) then goto n (.retryConnect proxySock gatewayRetries 0 none)
      else
        incrementProxyErrors m
        closeAll client proxySock
  | n + 1, .retryConnect proxySock gatewayRetries authRetries ctx =>
    sendConnect m client proxySock destIp destPort
      (if gatewayRetries < MAX_GATEWAY_RETRIES then some (goto n (.retryProxyConnect (gatewayRetries + 1))) else none)
      (if authRetries + 1 > 5 then none
        else some fun authContextId => goto n (.retryConnect proxySock gatewayRetries (authRetries + 1) (some authContextId)))
      ctx

end

/-- `ConnectionHandler` with at most `n` jumps. -/
def connectionHandlerJumps (m : Relay) (stuck : RelayProg Unit) (n : Nat) (ctx : RelayContext) : RelayProg Unit := do
  match ← getaddrinfo m.proxyHost with
  | none =>
    incrementProxyErrors m
    closesocket ctx.clientSock
  | some addr => goto m ctx.clientSock addr ctx.origDestIp ctx.origDestPort stuck n (.retryProxyConnect 0)

end TR.Impl
