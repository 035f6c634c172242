import TcpRedirector.Impl.Relay.ConnectionHandler
import TcpRedirector.Impl.Service.IpcHandler

/-!
# The provider of the relay

`BasicAuthenticationProvider.cpp`, and the calls of a handler that reach the
provider that `Initialize` has made. The Kerberos agent is outside, with what
else the handler calls.
-/

namespace TR.Impl.Service

namespace BasicAuthenticationProvider

/-- `Base64Encode`, which is that of `SspiEngine`. -/
def base64Encode (input : Bytes) : Bytes := SspiEngine.base64Encode input

variable (username password : Bytes)

def createContext : CreateContextResult where
  success := true
  contextId := 0
  token := base64Encode (username ++ ascii ":" ++ password)

def continueContext : ContinueContextResult where
  success := false
  token := []

end BasicAuthenticationProvider

/-- The answers to the calls of a handler whose provider this is; `world`
answers what a provider outside is asked, and all other calls. -/
def answerWith {σ : Type} (provider : Option AuthProvider) (world : (c : Call) → σ → c.Resp × σ) (c : Call) (w : σ) :
    c.Resp × σ :=
  match provider, c with
  | some (.basic username password), .createContext _ => (BasicAuthenticationProvider.createContext username password, w)
  | some (.basic _ _), .continueContext _ _ => (BasicAuthenticationProvider.continueContext, w)
  | some (.basic _ _), .closeContext _ => ((), w)
  | _, c => world c w

end TR.Impl.Service
