import TcpRedirector.Impl.Auth.KerberosAgentProvider

/-!
# The pipe to the agent

A message-mode pipe as Windows documents it, and the agent at its other end:
`HandleClient` answers the requests in order, each by one message. Every call
may fail instead; a `ReadFile` for which the message is too long fails with
`ERROR_MORE_DATA` and leaves the rest of it for the next one.
-/

namespace TR.Impl

def ERROR_INVALID_HANDLE : BitVec 32 := 6
def ERROR_MORE_DATA : BitVec 32 := 234

/-- One connection. -/
structure PipeConn where
  /-- What the service has written. -/
  requests : List Bytes := []
  /-- The agent's responses so far. -/
  answers : List Bytes := []
  /-- Those that the service has not read; the first may be the rest of one. -/
  unread : List Bytes := []
  deriving Repr, DecidableEq

/-- The connections by their handles. -/
structure AgentPipe where
  opened : Nat := 0
  conn : Handle → PipeConn := fun _ => {}

inductive PipeOutcome where
  | works
  | fails (err : BitVec 32)
  deriving Repr, DecidableEq

/-- A `ReadFile` of up to 65535 bytes, which waits for a message. -/
def PipeConn.read (conn : PipeConn) : PipeOutcome → Option (Except (BitVec 32) { b : Bytes // b.length ≤ 65535 } × PipeConn)
  | .fails err => some (.error err, conn)
  | .works =>
    match conn.unread with
    | [] => none
    | msg :: rest =>
      if h : msg.length ≤ 65535 then some (.ok ⟨msg, h⟩, { conn with unread := rest })
      else some (.error ERROR_MORE_DATA, { conn with unread := msg.drop 65535 :: rest })

/-- A `WriteFile` of a request. -/
def PipeConn.write (conn : PipeConn) (msg : Bytes) : PipeOutcome → Option (BitVec 32) × PipeConn
  | .fails err => (some err, conn)
  | .works => (none, { conn with requests := conn.requests ++ [msg] })

/-- How the system answers the provider. -/
def AgentPipe.system (o : PipeOutcome) : (c : PipeCall) → AgentPipe → Option (c.Resp × AgentPipe)
  | .waitNamedPipe, w =>
    match o with
    | .works => some (none, w)
    | .fails err => some (some err, w)
  | .createFile, w =>
    match o with
    | .works => some (some w.opened, { w with opened := w.opened + 1 })
    | .fails _ => some (none, w)
  | .setNamedPipeHandleState _, w => some (decide (o = .works), w)
  | .writeFile (some pipe) msg, w =>
    let (r, conn) := (w.conn pipe).write msg o
    some (r, { w with conn := Function.update w.conn pipe conn })
  | .writeFile none _, w => some (some ERROR_INVALID_HANDLE, w)
  | .readFile (some pipe), w =>
    ((w.conn pipe).read o).map fun (r, conn) => (r, { w with conn := Function.update w.conn pipe conn })
  | .readFile none, w => some (.error ERROR_INVALID_HANDLE, w)
  | .closeHandle _, w | .sleep _, w | .launchAuthAgent, w => some ((), w)

/-- The agent answers the oldest request that waits for it. -/
def PipeConn.answer (conn : PipeConn) (resp : Bytes) : PipeConn :=
  if conn.answers.length < conn.requests.length then
    { conn with answers := conn.answers ++ [resp], unread := conn.unread ++ [resp] }
  else conn

def AgentPipe.answer (m : Handle × Bytes) (w : AgentPipe) : AgentPipe :=
  { w with conn := Function.update w.conn m.1 ((w.conn m.1).answer m.2) }

/-- The provider and the agent. -/
def agentStep (x : JsonText) (i : PoolInput ProviderOp PipeOutcome (Handle × Bytes)) (s : ProviderPool AgentPipe) :
    ProviderPool AgentPipe × Unit := providerStep x AgentPipe.system AgentPipe.answer i s

end TR.Impl
