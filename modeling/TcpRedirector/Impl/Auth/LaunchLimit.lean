import Mathlib.Logic.Function.Basic
import TcpRedirector.TCB.Run

/-!
# The launch of the agent

`LaunchAuthAgentInUserSession` of `KerberosAgentProvider.cpp`, called by any
number of threads. A thread's step is one reading of the clock, one access to
`s_lastLaunchTime` or `s_launchInProgress`, or the launch itself; between the
steps the clock moves on.
-/

namespace TR.Impl.LaunchLimit

/-- Ten seconds in nanoseconds. -/
def COOLDOWN : Int := 10000000000

/-- Where a thread is in the function. -/
inductive Point where
  /-- Outside. -/
  | idle
  | started (nowNs : Int)
  /-- The cooldown is not active. -/
  | checked (nowNs lastNs : Int)
  /-- `s_launchInProgress` is set. -/
  | launching (nowNs lastNs : Int)
  | cleanup (result : Bool)
  /-- `s_launchInProgress` is reset; the launch succeeded. -/
  | launched
  | storing (ns : Int)
  deriving DecidableEq, Repr

structure State where
  clock : Int
  lastLaunchTime : Int
  launchInProgress : Bool
  threads : Nat → Point

def State.goto (s : State) (t : Nat) (p : Point) : State := { s with threads := Function.update s.threads t p }

inductive Input where
  | tick (ns : Nat)
  /-- The thread's next step; `created` says whether a launch gets as far as
  the process, if it is one. -/
  | step (t : Nat) (created : Bool)
  deriving DecidableEq, Repr

/-- A step, and the time at which a process was created by it. -/
def step (i : Input) (s : State) : State × Option Int :=
  match i with
  | .tick ns => ({ s with clock := s.clock + ns }, none)
  | .step t created =>
    match s.threads t with
    | .idle => (s.goto t (.started s.clock), none)
    | .started nowNs =>
      let lastNs := s.lastLaunchTime
      if 0 < lastNs ∧ nowNs - lastNs < COOLDOWN then (s.goto t .idle, none) else (s.goto t (.checked nowNs lastNs), none)
    | .checked nowNs lastNs =>
      if s.launchInProgress then (s.goto t .idle, none)
      else ({ s with launchInProgress := true }.goto t (.launching nowNs lastNs), none)
    | .launching _ _ => (s.goto t (.cleanup created), if created then some s.clock else none)
    | .cleanup result => ({ s with launchInProgress := false }.goto t (if result then .launched else .idle), none)
    | .launched => (s.goto t (.storing s.clock), none)
    | .storing ns => ({ s with lastLaunchTime := ns }.goto t .idle, none)

/-- Before the first call. -/
def start (clock : Int) : State := ⟨clock, 0, false, fun _ => .idle⟩

/-- The times of the process creations. -/
def creations (tr : List (StepOf State Input (Option Int))) : List Int := tr.filterMap (·.out)

end TR.Impl.LaunchLimit
