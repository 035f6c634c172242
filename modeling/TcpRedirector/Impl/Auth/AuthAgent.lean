import TcpRedirector.TCB.Json
import TcpRedirector.TCB.Prog

/-!
# The authentication agent

`SspiEngine.cpp` and the requests of `main.cpp`: the process in the user's
session that the service asks for Kerberos tokens. SSPI, the context store and
the pipe answer as they like; an exception is the error of an `Except`.
-/

namespace TR.Impl

/-- `CredHandle` and `CtxtHandle`. -/
abbrev CredHandle := Nat
abbrev CtxtHandle := Nat

/-- `SECURITY_STATUS`. -/
abbrev Status := BitVec 32

def SEC_E_OK : Status := 0
def SEC_I_CONTINUE_NEEDED : Status := 0x00090312
def SEC_I_COMPLETE_NEEDED : Status := 0x00090313
def SEC_I_COMPLETE_AND_CONTINUE : Status := 0x00090314
def SEC_E_INVALID_HANDLE : Status := 0x80090301
def SEC_E_TARGET_UNKNOWN : Status := 0x80090303
def SEC_E_INTERNAL_ERROR : Status := 0x80090304
def SEC_E_INVALID_TOKEN : Status := 0x80090308
def SEC_E_LOGON_DENIED : Status := 0x8009030C
def SEC_E_NO_CREDENTIALS : Status := 0x8009030E
def SEC_E_WRONG_PRINCIPAL : Status := 0x80090322

/-- The calls of the thread that serves the clients. -/
inductive AgentCall where
  | readFile
  | writeFile (msg : Bytes)
  | acquireCredentialsHandle
  /-- The first `InitializeSecurityContextW` of a context; a byte of the target
  is a `wchar_t` there. -/
  | initializeSecurityContext (credentials : CredHandle) (target : Bytes)
  /-- `InitializeSecurityContextW` of a context that exists, with a token. -/
  | continueSecurityContext (context : CtxtHandle) (token : Bytes)
  | completeAuthToken (context : CtxtHandle)
  | freeCredentialsHandle (credentials : CredHandle)
  /-- `ContextStore::Create`. -/
  | create (credentials : CredHandle) (context : CtxtHandle) (spn : Bytes)
  /-- `ContextStore::Get`: a pointer to an entry, here by the context in it. -/
  | get (id : BitVec 64)
  /-- `ContextStore::Close`. -/
  | close (id : BitVec 64)
  deriving Repr, DecidableEq

/-- Their answers. A token that SSPI does not give is empty. -/
def AgentCall.Resp : AgentCall → Type
  | .readFile => Except (BitVec 32) { b : Bytes // b.length ≤ 65535 }
  | .writeFile _ => Option (BitVec 32)
  | .acquireCredentialsHandle => Except Status CredHandle
  | .initializeSecurityContext _ _ => Status × CtxtHandle × Bytes
  | .continueSecurityContext _ _ => Status × Bytes
  | .create _ _ _ => BitVec 64
  | .get _ => Option CtxtHandle
  | .completeAuthToken _ | .freeCredentialsHandle _ | .close _ => Unit

abbrev AgentProg := Prog AgentCall AgentCall.Resp

namespace AgentProg

def readFile : AgentProg (Except (BitVec 32) { b : Bytes // b.length ≤ 65535 }) := .call .readFile .ret

def writeFile (msg : Bytes) : AgentProg (Option (BitVec 32)) := .call (.writeFile msg) .ret

def acquireCredentialsHandle : AgentProg (Except Status CredHandle) := .call .acquireCredentialsHandle .ret

def initializeSecurityContext (credentials : CredHandle) (target : Bytes) : AgentProg (Status × CtxtHandle × Bytes) :=
  .call (.initializeSecurityContext credentials target) .ret

def continueSecurityContext (context : CtxtHandle) (token : Bytes) : AgentProg (Status × Bytes) :=
  .call (.continueSecurityContext context token) .ret

def completeAuthToken (context : CtxtHandle) : AgentProg Unit := .call (.completeAuthToken context) .ret

def freeCredentialsHandle (credentials : CredHandle) : AgentProg Unit := .call (.freeCredentialsHandle credentials) .ret

def create (credentials : CredHandle) (context : CtxtHandle) (spn : Bytes) : AgentProg (BitVec 64) :=
  .call (.create credentials context spn) .ret

def get (id : BitVec 64) : AgentProg (Option CtxtHandle) := .call (.get id) .ret

def close (id : BitVec 64) : AgentProg Unit := .call (.close id) .ret

end AgentProg

/-! ## SspiEngine -/

namespace SspiEngine

def kBase64 : Bytes := ascii "ABCDEFGHIJKLMNOPQRSTUVWXYZabcdefghijklmnopqrstuvwxyz0123456789+/"

def digit (i : Byte) : Byte := kBase64.getD i.toNat 0

/-- `Base64Encode`, three bytes (`a3`) at a time. -/
def base64Encode : Bytes → Bytes
  | a :: b :: c :: data =>
    digit ((a &&& 0xfc) >>> 2) :: digit (((a &&& 0x03) <<< 4) + ((b &&& 0xf0) >>> 4)) ::
      digit (((b &&& 0x0f) <<< 2) + ((c &&& 0xc0) >>> 6)) :: digit (c &&& 0x3f) :: base64Encode data
  | [a, b] =>
    [digit ((a &&& 0xfc) >>> 2), digit (((a &&& 0x03) <<< 4) + ((b &&& 0xf0) >>> 4)),
      digit (((b &&& 0x0f) <<< 2) + ((0 &&& 0xc0) >>> 6)), 61]
  | [a] => [digit ((a &&& 0xfc) >>> 2), digit (((a &&& 0x03) <<< 4) + ((0 &&& 0xf0) >>> 4)), 61, 61]
  | [] => []

def kDecode : List Byte := [
  64,64,64,64,64,64,64,64,64,64,64,64,64,64,64,64,
  64,64,64,64,64,64,64,64,64,64,64,64,64,64,64,64,
  64,64,64,64,64,64,64,64,64,64,64,62,64,64,64,63,
  52,53,54,55,56,57,58,59,60,61,64,64,64,64,64,64,
  64, 0, 1, 2, 3, 4, 5, 6, 7, 8, 9,10,11,12,13,14,
  15,16,17,18,19,20,21,22,23,24,25,64,64,64,64,64,
  64,26,27,28,29,30,31,32,33,34,35,36,37,38,39,40,
  41,42,43,44,45,46,47,48,49,50,51,64,64,64,64,64]

/-- The loop of `Base64Decode`; `val` is an `int` that wraps. -/
def decodeFrom (val : BitVec 32) (valb : Int) : Bytes → Bytes
  | [] => []
  | c :: data =>
    if 128 ≤ c.toNat ∨ kDecode.getD c.toNat 64 = 64 then decodeFrom val valb data
    else
      let val := (val <<< 6) + (kDecode.getD c.toNat 64).setWidth 32
      let valb := valb + 6
      if 0 ≤ valb then (val.sshiftRight valb.toNat).setWidth 8 :: decodeFrom val (valb - 8) data
      else decodeFrom val valb data

def base64Decode (data : Bytes) : Bytes := decodeFrom 0 (-8) data

def makeSpn (host : Bytes) : Bytes := ascii "HTTP/" ++ host

/-- A string literal of a source in UTF-8. -/
def utf8 (s : String) : Bytes := s.toList.flatMap fun c => (String.utf8EncodeChar c).map (·.toBitVec)

def hexDigit (n : Nat) : Byte := (ascii "0123456789ABCDEF").getD n 0

/-- `%08lX`. -/
def hex8 (n : BitVec 32) : Bytes := [7, 6, 5, 4, 3, 2, 1, 0].map fun i => hexDigit (n.extractLsb' (4 * i) 4).toNat

def sspiErrorText (sc : Status) : Bytes :=
  if sc = SEC_E_NO_CREDENTIALS then utf8 "SEC_E_NO_CREDENTIALS — Kerberos/NTLM credentials not available"
  else if sc = SEC_E_WRONG_PRINCIPAL then utf8 "SEC_E_WRONG_PRINCIPAL — target principal mismatch"
  else if sc = SEC_E_TARGET_UNKNOWN then utf8 "SEC_E_TARGET_UNKNOWN — SPN not recognized"
  else if sc = SEC_E_INVALID_TOKEN then utf8 "SEC_E_INVALID_TOKEN — malformed token"
  else if sc = SEC_E_INVALID_HANDLE then utf8 "SEC_E_INVALID_HANDLE — invalid context handle"
  else if sc = SEC_E_INTERNAL_ERROR then utf8 "SEC_E_INTERNAL_ERROR — LSA internal error"
  else if sc = SEC_E_LOGON_DENIED then utf8 "SEC_E_LOGON_DENIED — logon denied"
  else ascii "0x" ++ hex8 sc

/-- `SspiStepResult` of a step that succeeded; otherwise there is its `error_message`. -/
structure StepResult where
  token : Bytes
  needsContinue : Bool
  deriving Repr, DecidableEq

/-- The status says that a token has to be completed. -/
def needsComplete (sc : Status) : Bool := sc = SEC_I_COMPLETE_NEEDED ∨ sc = SEC_I_COMPLETE_AND_CONTINUE

def succeeded (sc : Status) : Bool :=
  sc = SEC_E_OK ∨ sc = SEC_I_CONTINUE_NEEDED ∨ sc = SEC_I_COMPLETE_NEEDED ∨ sc = SEC_I_COMPLETE_AND_CONTINUE

def stepResult (sc : Status) (token : Bytes) : StepResult :=
  ⟨base64Encode token, sc = SEC_I_CONTINUE_NEEDED ∨ sc = SEC_I_COMPLETE_AND_CONTINUE⟩

open AgentProg

/-- `CompleteAuthToken`, if the status asks for it. -/
def complete (sc : Status) (context : CtxtHandle) : AgentProg Unit :=
  if needsComplete sc then completeAuthToken context else pure ()

/-- `SspiEngine::CreateContext`. -/
def createContext (spn : Bytes) : AgentProg (Except Bytes (StepResult × CredHandle × CtxtHandle)) := do
  match ← acquireCredentialsHandle with
  | .error sc => pure (.error (ascii "AcquireCredentialsHandleW failed: " ++ sspiErrorText sc))
  | .ok credentials =>
    let (sc, context, token) ← initializeSecurityContext credentials (makeSpn spn)
    complete sc context
    if succeeded sc then pure (.ok (stepResult sc token, credentials, context))
    else
      freeCredentialsHandle credentials
      pure (.error (ascii "InitializeSecurityContextW failed: " ++ sspiErrorText sc))

/-- `SspiEngine::ContinueContext`. -/
def continueContext (context : CtxtHandle) (challenge : Bytes) : AgentProg (Except Bytes StepResult) := do
  let (sc, token) ← continueSecurityContext context (base64Decode challenge)
  complete sc context
  if succeeded sc then pure (.ok (stepResult sc token))
  else pure (.error (ascii "InitializeSecurityContextW (continue) failed: " ++ sspiErrorText sc))

end SspiEngine

/-! ## Requests -/

open AgentProg

/-- What a response carries besides its id. -/
inductive Reply where
  | result (j : Json)
  | error (code : Int) (message : Bytes)

def Reply.put (resp : Json) : Reply → Json
  | .result j => resp.set "result" j
  | .error code message =>
    resp.set "error" ((Json.null.set "code" (.integer (BitVec.ofInt 64 code))).set "message" (.string message))

def createContextReply (spn : Bytes) : AgentProg Reply := do
  match ← SspiEngine.createContext spn with
  | .error what => pure (.error (-1) what)
  | .ok (step, credentials, context) =>
    let contextId ← create credentials context spn
    pure (.result (((Json.null.set "context_id" (.unsigned contextId)).set "token" (.string step.token)).set
      "continue" (.boolean step.needsContinue)))

def continueContextReply (contextId : BitVec 64) (challenge : Bytes) : AgentProg Reply := do
  match ← get contextId with
  | none => pure (.error (-2) (ascii "Context not found or expired (id=" ++ decimal contextId.toNat ++ ascii ")"))
  | some context =>
    match ← SspiEngine.continueContext context challenge with
    | .error what =>
      close contextId
      pure (.error (-1) what)
    | .ok step =>
      let reply := .result ((Json.null.set "token" (.string step.token)).set "continue" (.boolean step.needsContinue))
      if step.needsContinue then pure reply
      else
        close contextId
        pure reply

/-- Goes on with the parameters of a request, if they can be read. -/
def withParams {α : Type} (params : Except JsonFault α) (run : α → AgentProg Reply) : AgentProg (Except JsonFault Reply) :=
  match params with
  | .error fault => pure (.error fault)
  | .ok params => do
    let reply ← run params
    pure (.ok reply)

/-- What stands in the `try` of `HandleRequest`. -/
def dispatch (x : JsonText) (method : Bytes) (req : Json) : AgentProg (Except JsonFault Reply) :=
  if method = ascii "hello" then
    withParams (do
      let params ← req.constIndex "params"
      params.value (Json.getInt x.toInt) "version" 0)
      fun _ => pure (.result ((Json.null.set "version" (.integer 1)).set "agent" (.string (ascii "TcpRedirectorAuthAgent/1.1.0"))))
  else if method = ascii "ping" then
    pure (.ok (.result (Json.null.set "pong" (.boolean true))))
  else if method = ascii "create_context" then
    withParams (do
      let params ← req.constIndex "params"
      (← params.constIndex "spn").getString)
      createContextReply
  else if method = ascii "continue_context" then
    withParams (do
      let params ← req.constIndex "params"
      let contextId ← (← params.constIndex "context_id").getUInt64 x.toUInt64
      let challenge ← (← params.constIndex "challenge").getString
      pure (contextId, challenge))
      fun (contextId, challenge) => continueContextReply contextId challenge
  else if method = ascii "close_context" then
    withParams (do
      let params ← req.constIndex "params"
      (← params.constIndex "context_id").getUInt64 x.toUInt64)
      fun contextId => do
        close contextId
        pure (.result (Json.null.set "closed" (.boolean true)))
  else pure (.ok (.error (-32601) (ascii "Method not found: " ++ method)))

/-- `HandleRequest`. The id and the method are read before its `try`. -/
def handleRequest (x : JsonText) (req : Json) : AgentProg (Except JsonFault Json) :=
  match req.value Json.getNull "id" () with
  | .error fault => pure (.error fault)
  | .ok () =>
    match req.value Json.getString "method" [] with
    | .error fault => pure (.error fault)
    | .ok method => do
      let resp := (Json.null.set "jsonrpc" (.string (ascii "2.0"))).set "id" .null
      match ← dispatch x method req with
      | .ok reply => pure (.ok (reply.put resp))
      | .error (.exception what) => pure (.ok ((Reply.error (-32603) (ascii "Internal error: " ++ what)).put resp))
      | .error .undefined => pure (.error .undefined)

/-- How a round of the loop of `HandleClient` ends. -/
inductive Round where
  /-- The next message is read. -/
  | serving
  /-- An exception was caught, and the loop is left. -/
  | disconnected
  | undefined
  deriving Repr, DecidableEq

/-- What a round does with the outcome of `HandleRequest`. -/
def respond (x : JsonText) : Except JsonFault Json → AgentProg Round
  | .error .undefined => pure .undefined
  | .error (.exception _) => pure .disconnected
  | .ok resp =>
    match x.dump resp with
    | .error _ => pure .disconnected
    | .ok respStr => do
      match ← writeFile respStr with
      | some _ => pure .disconnected
      | none => pure .serving

/-- One round of `HandleClient`. -/
def clientRound (x : JsonText) : AgentProg Round := do
  match ← readFile with
  | .error _ => pure .disconnected
  | .ok buf =>
    match x.parse buf.1 with
    | .error _ => pure .disconnected
    | .ok req => respond x (← handleRequest x req)

end TR.Impl
