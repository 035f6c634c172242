/-!
# The pipe instances of the service

`PipeServer.h` as threads: `PipeThread`, which creates an instance of the pipe
for one client after the other, any number of threads in `SendMessage`, and
`Stop`. A step is one access to a shared variable, one system call, or one
section under `m_pipeMutex`. What waits with the mutex held is
`FlushFileBuffers`, and `WriteFile` where it is inside such a section: the pipe
is PIPE_WAIT, so it waits while the buffer has no room for the message. Handles
are those of the pipe; Windows can give out a closed one again. What is in a
message is not modelled here.
-/

namespace TR.Impl.Service

/-- What `PipeThread` writes. -/
inductive PipeReply where
  | tooLarge | response | parseError
  deriving Repr, DecidableEq

/-- Where `PipeThread` stands, with `newPipe` where it has one. -/
inductive PipeLoop where
  /-- Before `m_running` is tested. -/
  | outerLoop
  | create
  /-- After a failure of `CreateNamedPipeW`. -/
  | sleeping
  | swap (newPipe : Nat)
  | closeOld (oldPipe newPipe : Nat)
  | connect (newPipe : Nat)
  /-- In `ConnectNamedPipe`. -/
  | connecting (newPipe : Nat)
  /-- It failed. -/
  | failed (newPipe : Nat)
  | closeFailed (newPipe : Nat)
  | clearConnected
  | setConnected (newPipe : Nat)
  /-- Before `m_running` is tested in the I/O loop. -/
  | ioLoop (newPipe : Nat)
  | read (newPipe : Nat)
  /-- In `ReadFile`. -/
  | reading (newPipe : Nat)
  | tooLarge (newPipe : Nat)
  | handling (newPipe : Nat)
  /-- It has a response. -/
  | respond (newPipe : Nat)
  /-- In `WriteFile`, but for `parseError` with `m_pipeMutex` held. -/
  | writing (reply : PipeReply) (newPipe : Nat)
  /-- In `FlushFileBuffers`, with `m_pipeMutex` held. -/
  | flushing (newPipe : Nat)
  /-- In the `catch` block. -/
  | parseError (newPipe : Nat)
  /-- The client is gone. -/
  | gone (newPipe : Nat)
  | reset (newPipe : Nat)
  | close (newPipe : Nat)
  | exited
  deriving Repr, DecidableEq

/-- Whether the next step takes `m_pipeMutex`. -/
def PipeLoop.takesMutex : PipeLoop → Bool
  | .swap _ | .failed _ | .tooLarge _ | .respond _ | .reset _ => true
  | _ => false

/-- Whether it holds `m_pipeMutex` between two steps. -/
def PipeLoop.holdsMutex : PipeLoop → Bool
  | .writing .tooLarge _ | .writing .response _ | .flushing _ => true
  | _ => false

/-- Where the caller of `Stop` stands. -/
inductive StopAt where
  | idle
  | store
  | copy
  | cancel (pipeToCancel : Option Nat)
  /-- In `m_thread.join`. -/
  | join
  | closeLast
  | returned
  deriving Repr, DecidableEq

/-- A message that was read. -/
inductive MessageKind where
  | tooLarge
  /-- With whether a response comes of it, or an exception. -/
  | request (responds : Bool)
  deriving Repr, DecidableEq

/-- What a system call of `PipeThread` ends with: the handle of the new pipe,
and whether the wait for the client, or for room in the pipe, ends, with what. -/
structure PipeOutcome where
  newPipe : Option Nat
  /-- None while the call waits; false for a failure. -/
  io : Option Bool
  message : MessageKind
  deriving Repr, DecidableEq

structure PipeServer where
  running : Bool
  connected : Bool
  /-- `m_hPipe`, none for `INVALID_HANDLE_VALUE`. -/
  hPipe : Option Nat
  thread : PipeLoop
  stop : StopAt
  /-- The threads in `SendMessage` that found `m_connected` set. -/
  senders : Nat → Bool
  /-- The one of them that is in `WriteFile`, with its handle and `m_pipeMutex`. -/
  sending : Option (Nat × Nat)
  /-- The handles of the pipe that are open. -/
  openPipes : List Nat
  /-- `CancelIoEx` has cancelled what `PipeThread` waits in. -/
  cancelled : Bool
  /-- A handle was used that is not open, or closed while it was written to. -/
  fault : Bool

namespace PipeServer

/-- After `Start`. -/
def started : PipeServer where
  running := true
  connected := false
  hPipe := none
  thread := .outerLoop
  stop := .idle
  senders := fun _ => false
  sending := none
  openPipes := []
  cancelled := false
  fault := false

/-- A call with a handle. -/
def use (s : PipeServer) (h : Nat) : PipeServer := { s with fault := s.fault || h ∉ s.openPipes }

/-- `CloseHandle`. -/
def closeHandle (s : PipeServer) (h : Nat) : PipeServer :=
  { s with openPipes := s.openPipes.erase h, fault := s.fault || h ∉ s.openPipes || s.sending.any (·.2 = h) }

/-- `m_hPipe` is set back if it is still this one. -/
def resetPipe (s : PipeServer) (h : Nat) : PipeServer := if s.hPipe = some h then { s with hPipe := none } else s

/-- Whether `m_pipeMutex` is held between two steps. -/
def locked (s : PipeServer) : Bool := s.thread.holdsMutex || s.sending.isSome

def threadStep (o : PipeOutcome) (s : PipeServer) : PipeServer :=
  if s.thread.takesMutex && s.locked then s
  else match s.thread with
  | .outerLoop => { s with thread := if s.running then .create else .exited }
  | .create =>
    match o.newPipe with
    | none => { s with thread := .sleeping }
    | some h => if h ∈ s.openPipes then s else { s with openPipes := h :: s.openPipes, thread := .swap h }
  | .sleeping => { s with thread := .outerLoop }
  | .swap newPipe =>
    { s with
      hPipe := some newPipe
      thread := match s.hPipe with
        | none => .connect newPipe
        | some oldPipe => .closeOld oldPipe newPipe }
  | .closeOld oldPipe newPipe => { s.closeHandle oldPipe with thread := .connect newPipe }
  | .connect newPipe => { s.use newPipe with thread := .connecting newPipe, cancelled := false }
  | .connecting newPipe =>
    match o.io with
    | none => s
    | some connected => { s with thread := if connected then .setConnected newPipe else .failed newPipe }
  | .failed newPipe => { s.resetPipe newPipe with thread := .closeFailed newPipe }
  | .closeFailed newPipe => { s.closeHandle newPipe with thread := .clearConnected }
  | .clearConnected => { s with connected := false, thread := .outerLoop }
  | .setConnected newPipe => { s with connected := true, thread := .ioLoop newPipe }
  | .ioLoop newPipe => { s with thread := if s.running then .read newPipe else .gone newPipe }
  | .read newPipe => { s.use newPipe with thread := .reading newPipe, cancelled := false }
  | .reading newPipe =>
    match o.io with
    | none => s
    | some false => { s with thread := .gone newPipe }
    | some true =>
      match o.message with
      | .tooLarge => { s with thread := .tooLarge newPipe }
      | .request _ => { s with thread := .handling newPipe }
  | .tooLarge newPipe =>
    if s.hPipe = some newPipe then { s.use newPipe with thread := .writing .tooLarge newPipe, cancelled := false }
    else { s with thread := .ioLoop newPipe }
  | .handling newPipe =>
    match o.message with
    | .request true => { s with thread := .respond newPipe }
    | _ => { s with thread := .parseError newPipe }
  | .respond newPipe =>
    if s.hPipe = some newPipe then { s.use newPipe with thread := .writing .response newPipe, cancelled := false }
    else { s with thread := .ioLoop newPipe }
  | .writing reply newPipe =>
    match o.io, reply with
    | none, _ => s
    | some _, .response => { s.use newPipe with thread := .flushing newPipe, cancelled := false }
    | some _, _ => { s with thread := .ioLoop newPipe }
  | .flushing newPipe =>
    match o.io with
    | none => s
    | some _ => { s with thread := .ioLoop newPipe }
  | .parseError newPipe => { s.use newPipe with thread := .writing .parseError newPipe, cancelled := false }
  | .gone newPipe => { s with connected := false, thread := .reset newPipe }
  | .reset newPipe => { s.resetPipe newPipe with thread := .close newPipe }
  | .close newPipe => { s.closeHandle newPipe with thread := .outerLoop }
  | .exited => s

/-- Whether `PipeThread` waits in a call with this handle. -/
def waitsIn (s : PipeServer) (h : Nat) : Bool :=
  match s.thread with
  | .connecting newPipe | .reading newPipe | .writing _ newPipe | .flushing newPipe => newPipe = h
  | _ => false

def stopStep (s : PipeServer) : PipeServer :=
  match s.stop with
  | .idle | .returned => { s with stop := .store }
  | .store => { s with running := false, stop := .copy }
  | .copy => if s.locked then s else { s with stop := .cancel s.hPipe }
  | .cancel none => { s with stop := .join }
  | .cancel (some h) => { s with cancelled := s.cancelled || s.waitsIn h, stop := .join }
  | .join => if s.thread = .exited then { s with stop := .closeLast } else s
  | .closeLast =>
    if s.locked then s
    else
      match s.hPipe with
      | none => { s with stop := .returned }
      | some h => { s.closeHandle h with hPipe := none, stop := .returned }

/-- The next step of `SendMessage` in thread `t`; `done` is whether the `WriteFile`
that it is in ends. -/
def sendStep (s : PipeServer) (t : Nat) (done : Bool) : PipeServer :=
  if s.sending.any (·.1 = t) then if done then { s with sending := none } else s
  else if s.senders t then
    if s.locked then s
    else
      let s' := { s with senders := fun t' => if t' = t then false else s.senders t' }
      match s.hPipe with
      | none => s'
      | some h => { s'.use h with sending := some (t, h) }
  else if s.connected then { s with senders := fun t' => if t' = t then true else s.senders t' }
  else s

end PipeServer

inductive PipeServerInput where
  | thread (o : PipeOutcome)
  | stop
  | send (t : Nat) (done : Bool)
  deriving Repr, DecidableEq

def pipeServerStep (i : PipeServerInput) (s : PipeServer) : PipeServer × Unit :=
  match i with
  | .thread o => (s.threadStep o, ())
  | .stop => (s.stopStep, ())
  | .send t done => (s.sendStep t done, ())

/-! ## `Stop` without the client -/

end TR.Impl.Service
