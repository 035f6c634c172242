import TcpRedirector.Impl.Capture.CaptureLoop

/-!
# Capture sessions

`Open` and `Close` of `WinDivertCapture.cpp` and the capture control callback
of `ServiceMain.h`, which the requests `capture_start` and `capture_stop`
call. Between `Open` and `Close` the capture loop runs; what is captured then
is one session. The steps of the current session are kept beside the state.
-/

namespace TR.Impl

/-- The capture with what it points to, and `IsOpen()`. -/
structure Service where
  system : System
  isOpen : Bool

namespace Service

/-- `Open()`. It fails if the library cannot be loaded or no handle opened
(`opened` is false); the process id that `FindTargetPid` returns is not kept. -/
def openCapture (opened : Bool) (s : Service) : Service :=
  if s.isOpen then s
  else if opened then
    { isOpen := true
      system := { s.system with capture := { s.system.capture with
        portDecided := Bitmap.zero, portDirect := Bitmap.zero } } }
  else s

/-- `Close()`: the capture thread ends. -/
def closeCapture (s : Service) : Service := { s with isOpen := false }

end Service

/-- What happens to the service. -/
inductive Request where
  /-- An input of the capture loop, or a call of another thread between two of
  its iterations. Without a session nothing is captured. -/
  | loop (ev : Event)
  | captureStart (opened : Bool)
  | captureStop

/-- Whether the event comes from `WinDivertRecv`. -/
def Event.captured : Event → Bool
  | .packet _ _ | .other | .recvFailed => true
  | _ => false

/-- One request, on the service and the loop's steps of this session. -/
def serve (cfg : Config) : Request → Service × List LoopStep → (Service × List LoopStep) × Outcome
  | .loop ev, (s, session) =>
    if s.isOpen || !ev.captured then
      let r := step cfg ev s.system
      (({ s with system := r.1 }, session ++ [⟨s.system, ev, r.2, r.1⟩]), r.2)
    else ((s, session), {})
  | .captureStart opened, (s, session) =>
    if s.isOpen then ((s, session), {})
    else ((s.openCapture opened, []), {})
  | .captureStop, (s, session) =>
    if s.isOpen then ((s.closeCapture, session), {}) else ((s, session), {})

/-- A step of a run of the service. -/
abbrev ServiceStep := StepOf (Service × List LoopStep) Request Outcome

end TR.Impl
