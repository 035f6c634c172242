/-!
# The life of the service

`ServiceMain` and `ServiceControlHandlerEx` of `main.cpp` with `Initialize`,
`Run` and `Stop` of `ServiceMain.h`: the thread of the service, the thread
that the control manager calls, and the thread of the pipe, which takes
`capture_start` and `capture_stop`. A step is one access to `m_running`, the
start or the stop of one component, or one report. What the components do is
not modelled here, and neither is a report's exit code.
-/

namespace TR.Impl.Service

inductive ServiceState where
  | startPending | running | stopPending | stopped
  deriving Repr, DecidableEq

/-- Where `ServiceMain` stands. -/
inductive ServiceMainAt where
  /-- The control handler is registered. -/
  | registered
  /-- In `Initialize`, before `Logger::Initialize`. -/
  | startLogger
  /-- Before `ProxyEngine::Initialize`. -/
  | startEngine
  | startRelay
  | openCapture
  /-- The capture could not be opened. -/
  | shutdownLogger
  | startPipe
  | setInitialized
  | reportRunning
  /-- In `Run`, before `m_running` is set. -/
  | setRunning
  | loop
  /-- `Run` has returned. -/
  | reportStopped
  /-- `Initialize` has returned false. -/
  | reportFailed
  | ended
  deriving Repr, DecidableEq

/-- Where the control handler stands. -/
inductive ControlHandlerAt where
  | idle
  | reportPending
  /-- In `Stop`, before `m_running` is tested. -/
  | testRunning
  | clearRunning
  | closeCapture
  | stopPipe
  | stopRelay
  | clearTable
  | shutdownEngine
  | shutdownLogger
  | clearInitialized
  | reportStopped
  deriving Repr, DecidableEq

structure Lifecycle where
  running : Bool
  initialized : Bool
  logger : Bool
  engine : Bool
  relay : Bool
  capture : Bool
  /-- The pipe takes requests. -/
  pipe : Bool
  main : ServiceMainAt
  control : ControlHandlerAt
  deriving Repr, DecidableEq

namespace Lifecycle

def registered : Lifecycle where
  running := false
  initialized := false
  logger := false
  engine := false
  relay := false
  capture := false
  pipe := false
  main := .registered
  control := .idle

/-- The next step of `ServiceMain`; `ok` is whether what it starts can be. -/
def mainStep (ok : Bool) (s : Lifecycle) : Lifecycle × Option ServiceState :=
  match s.main with
  | .registered => ({ s with main := .startLogger }, some .startPending)
  | .startLogger => ({ s with logger := true, main := .startEngine }, none)
  | .startEngine => ({ s with engine := ok, main := .startRelay }, none)
  | .startRelay => ({ s with relay := ok, main := .openCapture }, none)
  | .openCapture => ({ s with capture := ok, main := if ok then .startPipe else .shutdownLogger }, none)
  | .shutdownLogger => ({ s with logger := false, main := .reportFailed }, none)
  | .startPipe => ({ s with pipe := ok, main := .setInitialized }, none)
  | .setInitialized => ({ s with initialized := true, main := .reportRunning }, none)
  | .reportRunning => ({ s with main := .setRunning }, some .running)
  | .setRunning => ({ s with running := true, main := .loop }, none)
  | .loop => ({ s with main := if s.running then .loop else .reportStopped }, none)
  | .reportStopped => ({ s with main := .ended }, some .stopped)
  | .reportFailed => ({ s with main := .ended }, some .stopped)
  | .ended => (s, none)

/-- The next step of the control handler, if it is not idle. -/
def controlStep (s : Lifecycle) : Lifecycle × Option ServiceState :=
  match s.control with
  | .idle => (s, none)
  | .reportPending => ({ s with control := .testRunning }, some .stopPending)
  | .testRunning => ({ s with control := if s.running then .clearRunning else .reportStopped }, none)
  | .clearRunning => ({ s with running := false, control := .closeCapture }, none)
  | .closeCapture => ({ s with capture := false, control := .stopPipe }, none)
  | .stopPipe => ({ s with pipe := false, control := .stopRelay }, none)
  | .stopRelay => ({ s with relay := false, control := .clearTable }, none)
  | .clearTable => ({ s with control := .shutdownEngine }, none)
  | .shutdownEngine => ({ s with engine := false, control := .shutdownLogger }, none)
  | .shutdownLogger => ({ s with logger := false, control := .clearInitialized }, none)
  | .clearInitialized => ({ s with initialized := false, control := .reportStopped }, none)
  | .reportStopped => ({ s with control := .idle }, some .stopped)

end Lifecycle

inductive LifecycleInput where
  | main (ok : Bool)
  /-- `SERVICE_CONTROL_STOP` or `SERVICE_CONTROL_SHUTDOWN`, if the handler is idle. -/
  | stop
  /-- `SERVICE_CONTROL_INTERROGATE`, if it is. -/
  | interrogate
  | control
  /-- The pipe's thread handles `capture_start`; the capture can be opened or not. -/
  | captureStart (opened : Bool)
  | captureStop
  deriving Repr, DecidableEq

/-- A step, with the state that it reports. -/
def lifecycleStep (i : LifecycleInput) (s : Lifecycle) : Lifecycle × Option ServiceState :=
  match i with
  | .main ok => s.mainStep ok
  | .stop => if s.control = .idle then ({ s with control := .reportPending }, none) else (s, none)
  | .interrogate => if s.control = .idle then (s, some (if s.running then .running else .stopped)) else (s, none)
  | .control => s.controlStep
  | .captureStart opened => if s.pipe then ({ s with capture := s.capture || opened }, none) else (s, none)
  | .captureStop => if s.pipe then ({ s with capture := false }, none) else (s, none)

end TR.Impl.Service
