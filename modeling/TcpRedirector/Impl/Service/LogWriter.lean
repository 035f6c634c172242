import Mathlib.Logic.Function.Basic
import TcpRedirector.Impl.Service.Logger
import TcpRedirector.TCB.Run

/-!
# The queue of the logger

`Log`, `WriterThread` and `Shutdown` of `Logger.cpp`. A step is a critical
section on the queue, a test of `m_running`, the processing of one entry, or
another statement of one of the threads. The writer may wake up at any time, so
a notification does nothing but let it test the condition once more.
-/

namespace TR.Impl.Service.LogWriter

/-- Where an entry goes. -/
structure Sinks where
  console : List LogEntry := []
  /-- What is written through `m_file`, if it is open. -/
  file : Option (List LogEntry) := none
  /-- What `m_logCallback` is called with, if it is set. -/
  callback : Option (List LogEntry) := none
  listeners : Nat → Option (List LogEntry) := fun _ => none
  ring : Logger := {}

/-- The body of the writer's loop over a batch. -/
def Sinks.process (entry : LogEntry) (s : Sinks) : Sinks where
  console := s.console ++ [entry]
  file := s.file.map (· ++ [entry])
  callback := s.callback.map (· ++ [entry])
  listeners id := (s.listeners id).map (· ++ [entry])
  ring := s.ring.addToRingBuffer entry

/-- Where the writer is. -/
inductive Writer where
  /-- At `while (m_running)`. -/
  | test
  /-- At the critical section, perhaps waiting in it. -/
  | wait
  | batch (rest : List LogEntry)
  /-- Behind the loop. -/
  | flush
  | done
  deriving DecidableEq, Repr

/-- Where a thread is in `Log`. -/
inductive Caller where
  | idle
  | accepted (entry : LogEntry)
  | pushed
  deriving DecidableEq, Repr

/-- Where the thread is that calls `Shutdown`. -/
inductive Shutdown where
  | notCalled
  | stopped
  | notified
  | joined
  | returned
  deriving DecidableEq, Repr

structure State where
  running : Bool := true
  currentLevel : BitVec 32 := 2
  queue : List LogEntry := []
  sinks : Sinks := {}
  writer : Writer := .test
  callers : Nat → Caller := fun _ => .idle
  shutdown : Shutdown := .notCalled
  /-- All entries that were pushed so far. -/
  pushed : List LogEntry := []

inductive Input where
  /-- The thread's next step in `Log`; a new call is for this entry. -/
  | log (t : Nat) (entry : LogEntry)
  | writer
  | shutdown
  | setLevel (level : BitVec 32)
  /-- The file is closed or opened again, by a rotation. -/
  | setFile (opened : Bool)
  | setOnLogEntry (set : Bool)
  | registerListener (id : Nat)
  | unregisterListener (id : Nat)
  deriving DecidableEq, Repr

def stepLog (t : Nat) (entry : LogEntry) (s : State) : State :=
  let goto (c : Caller) (s : State) : State := { s with callers := Function.update s.callers t c }
  match s.callers t with
  | .idle => if entry.level < s.currentLevel then s else goto (.accepted entry) s
  | .accepted entry => goto .pushed { s with queue := s.queue ++ [entry], pushed := s.pushed ++ [entry] }
  | .pushed => goto .idle s

def stepWriter (s : State) : State :=
  match s.writer with
  | .test => { s with writer := if s.running then .wait else .flush }
  | .wait =>
    if s.queue = [] then if s.running then s else { s with writer := .flush }
    else { s with writer := .batch s.queue, queue := [] }
  | .batch [] => { s with writer := .test }
  | .batch (entry :: rest) => { s with sinks := s.sinks.process entry, writer := .batch rest }
  | .flush => { s with writer := .done }
  | .done => s

def stepShutdown (s : State) : State :=
  match s.shutdown with
  | .notCalled => { s with running := false, shutdown := .stopped }
  | .stopped => { s with shutdown := .notified }
  | .notified => if s.writer = .done then { s with shutdown := .joined } else s
  | .joined => { s with sinks := { s.sinks with file := none }, shutdown := .returned }
  | .returned => s

def step (i : Input) (s : State) : State × Unit :=
  match i with
  | .log t entry => (stepLog t entry s, ())
  | .writer => (stepWriter s, ())
  | .shutdown => (stepShutdown s, ())
  | .setLevel level => ({ s with currentLevel := level }, ())
  | .setFile opened => ({ s with sinks := { s.sinks with file := if opened then some [] else none } }, ())
  | .setOnLogEntry set => ({ s with sinks := { s.sinks with callback := if set then some [] else none } }, ())
  | .registerListener id =>
    ({ s with sinks := { s.sinks with listeners := Function.update s.sinks.listeners id (some []) } }, ())
  | .unregisterListener id =>
    ({ s with sinks := { s.sinks with listeners := Function.update s.sinks.listeners id none } }, ())

/-- After `Initialize`. -/
def start (opened : Bool) (level : BitVec 32) : State :=
  { currentLevel := level, sinks := { file := if opened then some [] else none } }

end TR.Impl.Service.LogWriter
