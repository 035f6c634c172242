import TcpRedirector.Impl.Service.Queries

/-!
# The service's end of the pipe

The client I/O loop of `PipeServer.h` for one client. It reads messages; what
it writes is there for the client at once, and `FlushFileBuffers` waits until
the client has read it. Another request can arrive at any time.
-/

namespace TR.Impl.Service

def IPC_READ_BUFFER : Nat := 65536

def messageTooLargeText : Bytes := ascii "\x7b\"status\":\"error\",\"error\":\"message_too_large\"\x7d"

/-- `m_requestCallback`: the method, the parameters and the state of the
service; none for an exception. -/
abbrev RequestCallback (σ : Type) := Bytes → Bytes → σ → Option Bytes × σ

/-- Where `PipeThread` stands. -/
inductive PipeThread where
  /-- In `ReadFile`. -/
  | reading
  /-- It has read a request and not answered it yet. -/
  | handling (request : Bytes)
  /-- In `FlushFileBuffers`. -/
  | flushing
  /-- The client is disconnected. -/
  | disconnected
  deriving Repr, DecidableEq

/-- A client of the service and what is in its pipe. -/
structure PipeSession (σ : Type) where
  service : σ
  thread : PipeThread := .reading
  /-- The messages that the service has not read. -/
  requests : List Bytes := []
  /-- What the client has not read. -/
  responses : Bytes := []

namespace PipeSession

variable {σ : Type} (x : Platform) (callback : RequestCallback σ) (s : PipeSession σ)

/-- `DisconnectNamedPipe`, which discards what was not read. -/
def disconnect : PipeSession σ := { s with thread := .disconnected, requests := [], responses := [] }

/-- The `try` block, up to the write; none for an exception. -/
def respond (request : Bytes) (service : σ) : Option Bytes × σ :=
  match x.parse request with
  | .error _ => (none, service)
  | .ok j =>
    match (do
        let method ← j.value Json.getString "method" []
        let params ← j.value Json.getString "params" []
        pure (method, params)) with
    | .ok (method, params) => callback method params service
    | .error _ => (none, service)

/-- The next step of the loop, and the response that it writes with its
request. Where it has to wait, nothing changes. -/
def step : PipeSession σ × Option (Bytes × Bytes) :=
  match s.thread with
  | .reading =>
    match s.requests with
    | [] => (s, none)
    | request :: requests =>
      if IPC_READ_BUFFER - 1 < request.length ∨ request.length = 0 then (s.disconnect, none)
      else if IPC_READ_BUFFER - 1 ≤ request.length then
        ({ s with requests := requests, responses := s.responses ++ messageTooLargeText }, some (request, messageTooLargeText))
      else ({ s with requests := requests, thread := .handling request }, none)
  | .handling request =>
    match respond x callback request s.service with
    | (some response, service) =>
      ({ s with service := service, responses := s.responses ++ response, thread := .flushing }, some (request, response))
    | (none, service) =>
      ({ s with service := service, responses := s.responses ++ parseErrorText, thread := .reading },
        some (request, parseErrorText))
  | .flushing => if s.responses = [] then ({ s with thread := .reading }, none) else (s, none)
  | .disconnected => (s, none)

/-- `Stop`: the loop is left, unless a request is being handled. -/
def stop : PipeSession σ :=
  match s.thread with
  | .handling _ => s
  | _ => s.disconnect

end PipeSession

/-- What happens at the pipe of a client. -/
inductive PipeInput (σ : Type) where
  /-- The client writes a message. -/
  | write (message : Bytes)
  /-- The client reads so many bytes, or what there is. -/
  | read (count : Nat)
  /-- The thread of the service. -/
  | thread
  /-- What else happens in the service. -/
  | service (service : σ)

/-- One step of the session, and the request that it answers with its response. -/
def pipeStep {σ : Type} (x : Platform) (callback : RequestCallback σ) (i : PipeInput σ) (s : PipeSession σ) :
    PipeSession σ × Option (Bytes × Bytes) :=
  match i with
  | .write message => (if s.thread = .disconnected then s else { s with requests := s.requests ++ [message] }, none)
  | .read count => ({ s with responses := s.responses.drop count }, none)
  | .thread => s.step x callback
  | .service service => ({ s with service := service }, none)

end TR.Impl.Service
