import TcpRedirector.Impl.Gui.Settings
import TcpRedirector.Impl.Service.PipeServer

/-!
# The GUI's end of the pipe

`Call` and `ReadMessageAsync` of `IpcClient.cs` on one connection, from
`ConnectAsync` on. The client reads bytes: a read takes what has been written,
up to the size of its buffer. A read that waits can be cancelled at any time.
-/

namespace TR.Impl.Gui

open Service (Platform RequestCallback PipeSession)

/-- `buf.Length`. -/
def bufLength : Nat := 4096

/-- `sb.Length > 0 ? sb.ToString() : null`. -/
def textOrNull (sb : WString) : Option WString := if sb.isEmpty then none else some sb

/-- What the loop of `ReadMessageAsync` does after a read. -/
inductive AfterRead where
  | goesOn (sb : WString)
  | returns (response : Option WString)
  deriving Repr, DecidableEq

/-- The bytes `buf` have been read. -/
def afterRead (g : Runtime) (sb : WString) (buf : Bytes) : AfterRead :=
  if buf.length = 0 then .returns (textOrNull sb)
  else
    let sb := sb ++ g.decode buf
    if buf.length < bufLength then .returns (some sb) else .goesOn sb

/-- `ReadMessageAsync` with the bytes of its reads. A read that does not return is cancelled. -/
def readMessageAsync (g : Runtime) (sb : WString) : List Bytes → Option WString
  | [] => textOrNull sb
  | buf :: reads =>
    match afterRead g sb buf with
    | .goesOn sb => readMessageAsync g sb reads
    | .returns response => response

/-- What `Call` makes of the response; null for an exception too. -/
def callResult (g : Runtime) (response : Option WString) : Option Json :=
  match response with
  | none => none
  | some response => if response.isEmpty then none else g.parse (wideToUtf8 response)

/-- Whether a `Call` holds the lock. -/
inductive Caller where
  | idle
  /-- In `ReadMessageAsync`. -/
  | reading (sb : WString)
  deriving Repr, DecidableEq

structure IpcConnection (σ : Type) where
  session : PipeSession σ
  caller : Caller := .idle

inductive IpcInput (σ : Type) where
  /-- A `Call`, once it has the lock, up to `ReadMessageAsync`. -/
  | call (id : WString) (method : String) (params : Json)
  /-- The client's pending read. -/
  | read
  /-- `cts` is cancelled. -/
  | cancel
  /-- The thread of the service. -/
  | server
  | stop
  /-- What else happens in the service. -/
  | service (service : σ)

inductive IpcOutput where
  | wrote (request : Bytes)
  | answered (request response : Bytes)
  | returned (result : Option Json)
  | nothing

section

variable {σ : Type} (x : Platform) (g : Runtime) (callback : RequestCallback σ)

/-- One step of the connection. Where somebody has to wait, nothing happens. -/
def ipcStep (i : IpcInput σ) (s : IpcConnection σ) : IpcConnection σ × IpcOutput :=
  match i with
  | .call id method params =>
    match s.caller with
    | .reading _ => (s, .nothing)
    | .idle =>
      if s.session.thread = .disconnected then (s, .returned none)
      else
        let req := g.serialize (envelope g id method params)
        ({ session := { s.session with requests := s.session.requests ++ [req] }, caller := .reading [] }, .wrote req)
  | .read =>
    match s.caller with
    | .idle => (s, .nothing)
    | .reading sb =>
      if s.session.responses = [] ∧ s.session.thread ≠ .disconnected then (s, .nothing)
      else
        let session := { s.session with responses := s.session.responses.drop bufLength }
        match afterRead g sb (s.session.responses.take bufLength) with
        | .goesOn sb => ({ session := session, caller := .reading sb }, .nothing)
        | .returns response => ({ session := session, caller := .idle }, .returned (callResult g response))
  | .cancel =>
    match s.caller with
    | .idle => (s, .nothing)
    | .reading sb => ({ s with caller := .idle }, .returned (callResult g (textOrNull sb)))
  | .server =>
    match s.session.step x callback with
    | (session, some (request, response)) => ({ s with session := session }, .answered request response)
    | (session, none) => ({ s with session := session }, .nothing)
  | .stop => ({ s with session := s.session.stop }, .nothing)
  | .service service => ({ s with session := { s.session with service := service } }, .nothing)

/-- The connection that `ConnectAsync` makes. -/
def IpcConnection.connected (service : σ) : IpcConnection σ where
  session := { service := service }

end

end TR.Impl.Gui
