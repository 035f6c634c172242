import Mathlib.Logic.Function.Basic

/-!
# Opening and closing the capture

`Open`, `Close` and `IsOpen` of `WinDivertCapture.cpp`, the capture control
callback of `ServiceMain.h` that calls them, and what the capture thread does
with the handle meanwhile. `Initialize`, the thread of the pipe and the thread
of the control handler may all call; a step is one access to a shared variable
or one call of `WinDivert.dll`. What is in the packets is not modelled here.
-/

namespace TR.Impl

/-- The calls that open or close the capture. -/
inductive CaptureCall where
  /-- `Open`, from `Initialize`. -/
  | openCall
  /-- `Close`, from `Stop` and from the destructor. -/
  | closeCall
  /-- The callback for `capture_start`. -/
  | captureStart
  | captureStop
  deriving Repr, DecidableEq

/-- Where a caller stands. -/
inductive CallerAt where
  | idle
  /-- In `IsOpen`: before `m_initialized` is loaded. -/
  | isInitialized (start : Bool)
  /-- Before `m_running` is. -/
  | isRunning (start : Bool)
  /-- In `Open`: before `m_running` is tested. -/
  | testRunning
  | loadApi
  /-- Before `WinDivertOpen`. -/
  | openHandle
  | setParam
  | storeRunning
  | storeInitialized
  | startThread
  /-- In `Close`: before `m_running` is cleared. -/
  | clearRunning
  | shutdownHandle
  | joinThread
  | closeHandle
  | resetHandle
  | unloadApi
  | clearInitialized
  deriving Repr, DecidableEq

/-- Where the capture thread stands. -/
inductive CaptureThreadAt where
  /-- Before `m_running` is tested. -/
  | test
  | recv
  /-- In `WinDivertRecv`. -/
  | receiving
  /-- With a packet, before `WinDivertSend`. -/
  | send
  | ended
  deriving Repr, DecidableEq

/-- What `WinDivertRecv` ends with. -/
inductive RecvResult where
  | waits
  | packet
  | failed
  /-- `ERROR_NO_MORE_ITEMS`. -/
  | noMoreItems
  deriving Repr, DecidableEq

/-- What the system answers a caller. -/
structure OpenOutcome where
  /-- The library is there, with all its functions. -/
  loaded : Bool
  /-- What `WinDivertOpen` returns, with either filter. -/
  handle : Option Nat
  /-- The thread can be created. -/
  thread : Bool
  deriving Repr, DecidableEq

structure CaptureThreads where
  running : Bool
  initialized : Bool
  /-- `m_handle`, none for null and for `INVALID_HANDLE_VALUE`. -/
  handle : Option Nat
  /-- The functions of `m_api` are set. -/
  api : Bool
  /-- The thread of `m_captureThread`, if that is joinable. -/
  thread : Option CaptureThreadAt
  callers : Nat → CallerAt
  /-- The handles that `WinDivertOpen` has returned and nobody closed. -/
  openHandles : List Nat
  /-- `WinDivertShutdown` was called for the handle. -/
  isShutdown : Bool
  /-- A function was called that is not set, a handle used that is not open, or
  a thread replaced that is joinable. -/
  fault : Bool

namespace CaptureThreads

/-- As constructed. -/
def constructed : CaptureThreads where
  running := false
  initialized := false
  handle := none
  api := false
  thread := none
  callers := fun _ => .idle
  openHandles := []
  isShutdown := false
  fault := false

/-- A call of the library with `m_handle`. -/
def use (s : CaptureThreads) : CaptureThreads :=
  { s with fault := s.fault || !s.api || s.handle.all (· ∉ s.openHandles) }

def goto (s : CaptureThreads) (t : Nat) (c : CallerAt) : CaptureThreads :=
  { s with callers := Function.update s.callers t c }

/-- A call begins. -/
def begin (call : CaptureCall) : CallerAt :=
  match call with
  | .openCall => .testRunning
  | .closeCall => .clearRunning
  | .captureStart => .isInitialized true
  | .captureStop => .isInitialized false

/-- What the callback does with `IsOpen`. -/
def afterIsOpen (start isOpen : Bool) : CallerAt :=
  if start then if isOpen then .idle else .testRunning else if isOpen then .clearRunning else .idle

/-- The next step of a caller; one that is idle begins the call. -/
def callerStep (t : Nat) (call : CaptureCall) (o : OpenOutcome) (s : CaptureThreads) : CaptureThreads :=
  match s.callers t with
  | .idle => s.goto t (begin call)
  | .isInitialized start => s.goto t (if s.initialized then .isRunning start else afterIsOpen start false)
  | .isRunning start => s.goto t (afterIsOpen start s.running)
  | .testRunning => s.goto t (if s.running then .idle else .loadApi)
  | .loadApi =>
    if s.api then s.goto t .openHandle
    else if o.loaded then { s with api := true }.goto t .openHandle
    else s.goto t .idle
  | .openHandle =>
    let s := { s with fault := s.fault || !s.api }
    match o.handle with
    | some h =>
      -- An open handle is not given out again.
      if h ∈ s.openHandles then s
      else { s with handle := some h, openHandles := h :: s.openHandles, isShutdown := false }.goto t .setParam
    | none => { s with handle := none, api := false }.goto t .idle
  | .setParam => (if s.api ∧ s.handle.isSome then s.use else s).goto t .storeRunning
  | .storeRunning => { s with running := true }.goto t .storeInitialized
  | .storeInitialized => { s with initialized := true }.goto t .startThread
  | .startThread =>
    if o.thread then { s with thread := some .test, fault := s.fault || s.thread.isSome }.goto t .idle
    else s.goto t .idle
  | .clearRunning => { s with running := false }.goto t .shutdownHandle
  | .shutdownHandle =>
    (if s.handle.isSome ∧ s.api then { s.use with isShutdown := true } else s).goto t .joinThread
  | .joinThread =>
    match s.thread with
    | none => s.goto t .closeHandle
    | some .ended => { s with thread := none }.goto t .closeHandle
    | some _ => s
  | .closeHandle =>
    (if s.handle.isSome ∧ s.api then { s.use with openHandles := s.openHandles.filter (some · ≠ s.handle) }
      else s).goto t .resetHandle
  | .resetHandle => { s with handle := none }.goto t .unloadApi
  | .unloadApi => { s with api := false }.goto t .clearInitialized
  | .clearInitialized => { s with initialized := false }.goto t .idle

/-- The next step of the capture thread. `buffer` is whether its first
`malloc` has succeeded; after a shutdown `WinDivertRecv` does not wait. -/
def threadStep (buffer : Bool) (r : RecvResult) (s : CaptureThreads) : CaptureThreads :=
  match s.thread with
  | none | some .ended => s
  | some .test => { s with thread := some (if buffer ∧ s.running then .recv else .ended) }
  | some .recv => { s.use with thread := some .receiving }
  | some .receiving =>
    match r with
    | .waits => if s.isShutdown then { s with thread := some .test } else s
    | .packet => { s with thread := some .send }
    | .failed => { s with thread := some .test }
    | .noMoreItems => { s with thread := some .ended }
  | some .send => { s.use with thread := some .test }

end CaptureThreads

inductive CaptureInput where
  | caller (t : Nat) (call : CaptureCall) (o : OpenOutcome)
  | thread (buffer : Bool) (r : RecvResult)

def captureStep (i : CaptureInput) (s : CaptureThreads) : CaptureThreads × Unit :=
  match i with
  | .caller t call o => (s.callerStep t call o, ())
  | .thread buffer r => (s.threadStep buffer r, ())

end TR.Impl
