import TcpRedirector.TCB.Json
import TcpRedirector.TCB.Locked
import TcpRedirector.TCB.Run
import TcpRedirector.Impl.Relay.Calls

/-!
# The Kerberos provider

`KerberosAgentProvider.cpp`: the client of the authentication agent. Its
threads share the fields of the provider and `m_pipeMutex`; an exception is
the error of an `Except`, so that the mutex is released on its way. The pipe
and everything else of the system answers as it likes.
-/

namespace TR.Impl

/-- `HANDLE` of an open pipe; `INVALID_HANDLE_VALUE` is none. -/
abbrev Handle := Nat

/-- The calls to the system. -/
inductive PipeCall where
  | waitNamedPipe
  | createFile
  | setNamedPipeHandleState (pipe : Handle)
  | closeHandle (pipe : Option Handle)
  | writeFile (pipe : Option Handle) (msg : Bytes)
  /-- Up to 65535 bytes. -/
  | readFile (pipe : Option Handle)
  | sleep (ms : Nat)
  /-- `LaunchAuthAgentInUserSession`. -/
  | launchAuthAgent
  deriving Repr, DecidableEq

/-- Their answers; a failure is given by `GetLastError`. -/
def PipeCall.Resp : PipeCall → Type
  | .waitNamedPipe => Option (BitVec 32)
  | .createFile => Option Handle
  | .setNamedPipeHandleState _ => Bool
  | .writeFile _ _ => Option (BitVec 32)
  | .readFile _ => Except (BitVec 32) { b : Bytes // b.length ≤ 65535 }
  | .closeHandle _ | .sleep _ | .launchAuthAgent => Unit

/-- The accesses to the fields and the calls to the system. -/
inductive ProviderCall where
  | loadConnected
  | storeConnected (connected : Bool)
  | loadPipe
  | storePipe (pipe : Option Handle)
  | storeVersion (version : BitVec 32)
  /-- `m_nextId.fetch_add(1)`. -/
  | fetchAddNextId
  /-- `Call` returns this value: a mark in the log. -/
  | returned (resp : Json)
  | system (c : PipeCall)

def ProviderCall.Resp : ProviderCall → Type
  | .loadConnected => Bool
  | .loadPipe => Option Handle
  | .fetchAddNextId => BitVec 64
  | .system c => c.Resp
  | .storeConnected _ | .storePipe _ | .storeVersion _ | .returned _ => Unit

/-- The fields of `KerberosAgentProvider`. -/
structure Provider where
  pipe : Option Handle := none
  connected : Bool := false
  version : BitVec 32 := 0
  nextId : BitVec 64 := 1
  deriving Repr, DecidableEq

/-- A thread in the provider. -/
abbrev ProviderProg := LockProg ProviderCall ProviderCall.Resp

def ERROR_BROKEN_PIPE : BitVec 32 := 109
def ERROR_SEM_TIMEOUT : BitVec 32 := 121
def ERROR_PIPE_NOT_CONNECTED : BitVec 32 := 233

namespace ProviderProg

def lock : ProviderProg Unit := .call .lock fun _ => .ret ()

def unlock : ProviderProg Unit := .call .unlock fun _ => .ret ()

def loadConnected : ProviderProg Bool := .call (.other .loadConnected) .ret

def storeConnected (connected : Bool) : ProviderProg Unit := .call (.other (.storeConnected connected)) .ret

def loadPipe : ProviderProg (Option Handle) := .call (.other .loadPipe) .ret

def storePipe (pipe : Option Handle) : ProviderProg Unit := .call (.other (.storePipe pipe)) .ret

def storeVersion (version : BitVec 32) : ProviderProg Unit := .call (.other (.storeVersion version)) .ret

def fetchAddNextId : ProviderProg (BitVec 64) := .call (.other .fetchAddNextId) .ret

def returned (resp : Json) : ProviderProg Unit := .call (.other (.returned resp)) .ret

def waitNamedPipe : ProviderProg (Option (BitVec 32)) := .call (.other (.system .waitNamedPipe)) .ret

def createFile : ProviderProg (Option Handle) := .call (.other (.system .createFile)) .ret

def setNamedPipeHandleState (pipe : Handle) : ProviderProg Bool :=
  .call (.other (.system (.setNamedPipeHandleState pipe))) .ret

def closeHandle (pipe : Option Handle) : ProviderProg Unit := .call (.other (.system (.closeHandle pipe))) .ret

def writeFile (pipe : Option Handle) (msg : Bytes) : ProviderProg (Option (BitVec 32)) :=
  .call (.other (.system (.writeFile pipe msg))) .ret

def readFile (pipe : Option Handle) : ProviderProg (Except (BitVec 32) { b : Bytes // b.length ≤ 65535 }) :=
  .call (.other (.system (.readFile pipe))) .ret

def sleep (ms : Nat) : ProviderProg Unit := .call (.other (.system (.sleep ms))) .ret

def launchAuthAgent : ProviderProg Unit := .call (.other (.system .launchAuthAgent)) .ret

end ProviderProg

open ProviderProg

section

variable (x : JsonText)

/-- The request of `Call`. -/
def request (method : String) (id : BitVec 64) (params : Option Json) : Json :=
  let req := ((Json.null.set "jsonrpc" (.string (ascii "2.0"))).set "method" (.string (ascii method))).set "id" (.unsigned id)
  match params with
  | some params => req.set "params" params
  | none => req

/-- `ReadMessage`. -/
def readMessage (pipe : Option Handle) : ProviderProg (Except Bytes Bytes) := do
  match ← readFile pipe with
  | .ok buf => pure (.ok buf.1)
  | .error err =>
    let what := ascii "ReadFile failed: " ++ decimal err.toNat
    if err = ERROR_BROKEN_PIPE ∨ err = ERROR_PIPE_NOT_CONNECTED then
      storeConnected false
      pure (.error what)
    else pure (.error what)

/-- `SendMessage`. -/
def sendMessage (pipe : Option Handle) (msg : Bytes) : ProviderProg (Except Bytes Unit) := do
  match ← writeFile pipe msg with
  | none => pure (.ok ())
  | some err => pure (.error (ascii "WriteFile failed: " ++ decimal err.toNat))

/-- What `Call` does while it holds the mutex. -/
def callLocked (method : String) (params : Option Json) : ProviderProg (Except Bytes Json) := do
  let id ← fetchAddNextId
  match x.dump (request method id params) with
  | .error what => pure (.error what)
  | .ok reqStr =>
    match ← sendMessage (← loadPipe) reqStr with
    | .error what => pure (.error what)
    | .ok () =>
      match ← readMessage (← loadPipe) with
      | .error what => pure (.error what)
      | .ok respStr =>
        match x.parse respStr with
        | .error what => pure (.error what)
        | .ok resp =>
          returned resp
          pure (.ok resp)

/-- `Call`. -/
def call (method : String) (params : Option Json) : ProviderProg (Except Bytes Json) := do
  lock
  let resp ← callLocked x method params
  unlock
  pure resp

/-- The attempts of `ConnectToAgent` to see the pipe. -/
def waitForPipe : Nat → ProviderProg Unit
  | 0 => pure ()
  | n + 1 => do
    match ← waitNamedPipe with
    | none => pure ()
    | some lastErr =>
      if lastErr = ERROR_SEM_TIMEOUT then waitForPipe n
      else
        sleep 500
        waitForPipe n

/-- The version in the response to `hello`, if all of it is there. -/
def helloVersion (resp : Except Bytes Json) : Option (BitVec 32) :=
  match resp with
  | .error _ => none
  | .ok resp =>
    if resp.contains "result" then
      match resp.index "result" with
      | .error _ => none
      | .ok result =>
        if result.contains "version" then (result.index "version" >>= Json.getInt x.toInt).toOption else none
    else none

/-- What `ConnectToAgent` does while it holds the mutex. -/
def connectLocked : ProviderProg Bool := do
  match ← loadPipe with
  | some _ => pure true
  | none =>
    waitForPipe 10
    match ← createFile with
    | none => pure false
    | some pipe =>
      if ← setNamedPipeHandleState pipe then
        storePipe (some pipe)
        match helloVersion x (← call x "hello" (some (Json.null.set "version" (.integer 1)))) with
        | some version =>
          storeVersion version
          storeConnected true
          pure true
        | none =>
          closeHandle (← loadPipe)
          storePipe none
          pure false
      else
        closeHandle (some pipe)
        pure false

def connectToAgent : ProviderProg Bool := do
  lock
  let ok ← connectLocked x
  unlock
  pure ok

def disconnectFromAgent : ProviderProg Unit := do
  lock
  storeConnected false
  match ← loadPipe with
  | none => unlock
  | some pipe =>
    closeHandle (some pipe)
    storePipe none
    unlock

/-- The attempts to connect after the agent was launched. -/
def pollConnect : Nat → ProviderProg Unit
  | 0 => pure ()
  | n + 1 => do
    sleep 500
    if ← connectToAgent x then pure () else pollConnect n

/-- Without a connection: connect, or launch the agent and try again. -/
def reconnect : ProviderProg Unit := do
  if ← connectToAgent x then pure ()
  else
    launchAuthAgent
    pollConnect x 20

def ensureConnected : ProviderProg Unit := do
  if ← loadConnected then pure () else reconnect x

/-- One round of `KeepaliveLoop`. -/
def keepalive : ProviderProg Unit := do
  sleep 15000
  if ← loadConnected then
    match ← call x "ping" none with
    | .error _ => disconnectFromAgent
    | .ok resp => if resp.contains "error" then disconnectFromAgent else pure ()
  else reconnect x

/-- The result that `CreateContext` reads out of a response. `success` is set
before the fields, which may be missing. -/
def createResult (resp : Json) : CreateContextResult :=
  if resp.contains "error" then ⟨false, 0, []⟩
  else
    match resp.index "result" with
    | .error _ => ⟨false, 0, []⟩
    | .ok r =>
      match r.index "context_id" >>= Json.getUInt64 x.toUInt64 with
      | .error _ => ⟨true, 0, []⟩
      | .ok contextId =>
        match r.index "token" >>= Json.getString with
        | .error _ => ⟨true, contextId, []⟩
        | .ok token => ⟨true, contextId, token⟩

/-- `KerberosAgentProvider::CreateContext`. -/
def providerCreateContext (spn : Bytes) : ProviderProg CreateContextResult := do
  ensureConnected x
  if ← loadConnected then
    match ← call x "create_context" (some (Json.null.set "spn" (.string spn))) with
    | .error _ => pure ⟨false, 0, []⟩
    | .ok resp => pure (createResult x resp)
  else pure ⟨false, 0, []⟩

def continueResult (resp : Json) : ContinueContextResult :=
  if resp.contains "error" then ⟨false, []⟩
  else
    match resp.index "result" with
    | .error _ => ⟨false, []⟩
    | .ok r =>
      match r.index "token" >>= Json.getString with
      | .error _ => ⟨true, []⟩
      | .ok token => ⟨true, token⟩

/-- `KerberosAgentProvider::ContinueContext`. -/
def providerContinueContext (contextId : BitVec 64) (challenge : Bytes) : ProviderProg ContinueContextResult := do
  ensureConnected x
  if ← loadConnected then
    let params := (Json.null.set "context_id" (.unsigned contextId)).set "challenge" (.string challenge)
    match ← call x "continue_context" (some params) with
    | .error _ => pure ⟨false, []⟩
    | .ok resp => pure (continueResult resp)
  else pure ⟨false, []⟩

/-- `KerberosAgentProvider::CloseContext`. -/
def providerCloseContext (contextId : BitVec 64) : ProviderProg Unit := do
  ensureConnected x
  if ← loadConnected then
    let _ ← call x "close_context" (some (Json.null.set "context_id" (.unsigned contextId)))

/-- What a thread may do with the provider. -/
inductive ProviderOp where
  | createContext (spn : Bytes)
  | continueContext (contextId : BitVec 64) (challenge : Bytes)
  | closeContext (contextId : BitVec 64)
  | keepalive
  | reset
  | warmUp
  deriving Repr, DecidableEq

def ProviderOp.run : ProviderOp → ProviderProg Unit
  | .createContext spn => do let _ ← providerCreateContext x spn
  | .continueContext contextId challenge => do let _ ← providerContinueContext x contextId challenge
  | .closeContext contextId => providerCloseContext x contextId
  | .keepalive => Impl.keepalive x
  | .reset => disconnectFromAgent
  | .warmUp => ensureConnected x

end

/-- An access to a field, with what it leaves. -/
def Provider.access (p : Provider) : (c : ProviderCall) → Option (c.Resp × Provider)
  | .loadConnected => some (p.connected, p)
  | .storeConnected connected => some ((), { p with connected })
  | .loadPipe => some (p.pipe, p)
  | .storePipe pipe => some ((), { p with pipe })
  | .storeVersion version => some ((), { p with version })
  | .fetchAddNextId => some (p.nextId, { p with nextId := p.nextId + 1 })
  | .returned _ => some ((), p)
  | .system _ => none

section

variable {W ω ε : Type}

/-- How a call of a thread is answered: by the fields, or by a system in state
`w`, which may also block. -/
def providerAnswer (sys : ω → (c : PipeCall) → W → Option (c.Resp × W)) (o : ω) :
    (c : ProviderCall) → Provider × W → Option (c.Resp × (Provider × W))
  | .system c, (p, w) => (sys o c w).map fun (r, w) => (r, (p, w))
  | c, (p, w) => (p.access c).map fun (r, p) => (r, (p, w))

/-- The provider with its threads and the system around it. -/
abbrev ProviderPool (W : Type) := Pool ProviderCall ProviderCall.Resp (Provider × W) Unit

/-- A step of a thread, or of the system by itself (`move`). -/
def providerStep (x : JsonText) (sys : ω → (c : PipeCall) → W → Option (c.Resp × W)) (move : ε → W → W)
    (i : PoolInput ProviderOp ω ε) (s : ProviderPool W) : ProviderPool W × Unit :=
  s.step (ProviderOp.run x) (providerAnswer sys) (fun e g => (g.1, move e g.2)) i

/-- The provider as constructed. -/
def ProviderPool.start (w : W) : ProviderPool W := Pool.start ({}, w) ()

end

end TR.Impl
