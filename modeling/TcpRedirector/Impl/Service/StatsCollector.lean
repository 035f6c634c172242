import Mathlib.Logic.Function.Basic
import TcpRedirector.TCB.Run

/-!
# The packet statistics

`OnPacket` of `StatsCollector.cpp`, called by any number of threads without a
lock. A thread's step is one operation on one of the atomic words, with the
test before it; steps of different threads interleave.
-/

namespace TR.Impl.StatsCollector

structure PacketInfo where
  packetSize : BitVec 32 := 0
  /-- 6 is TCP. -/
  protocol : BitVec 8 := 0
  redirected : Bool := false
  error : Bool := false
  flowId : BitVec 64 := 0
  deriving Repr, DecidableEq

/-- What a thread does next; `idle` is outside. -/
inductive Point where
  | idle
  | totalPackets (info : PacketInfo)
  | totalBytes (info : PacketInfo)
  /-- The test of the protocol, and the increment if it is TCP. -/
  | tcpPackets (info : PacketInfo)
  | redirectedPackets (info : PacketInfo)
  | errors (info : PacketInfo)
  | loadMin (info : PacketInfo)
  /-- `while (size < expectedMin)`, and the exchange if it holds. -/
  | whileMin (info : PacketInfo) (expectedMin : BitVec 32)
  | loadMax (info : PacketInfo)
  | whileMax (info : PacketInfo) (expectedMax : BitVec 32)
  deriving Repr, DecidableEq

/-- The words, and the places of `n` threads. -/
structure State (n : Nat) where
  totalPackets : BitVec 64 := 0
  tcpPackets : BitVec 64 := 0
  redirectedPackets : BitVec 64 := 0
  errors : BitVec 64 := 0
  totalBytes : BitVec 64 := 0
  minPacketSize : BitVec 32 := 0xFFFFFFFF
  maxPacketSize : BitVec 32 := 0
  threads : Fin n → Point := fun _ => .idle

variable {n : Nat}

def State.goto (s : State n) (t : Fin n) (p : Point) : State n := { s with threads := Function.update s.threads t p }

inductive Input (n : Nat) where
  /-- The thread calls `OnPacket`, if it is outside. -/
  | call (t : Fin n) (info : PacketInfo)
  /-- The thread's next step; `spurious` says whether a `compare_exchange_weak`
  that could succeed fails, if it is one. -/
  | step (t : Fin n) (spurious : Bool)
  deriving DecidableEq

/-- A step, and the packet that is reported by it. -/
def step (i : Input n) (s : State n) : State n × Option PacketInfo :=
  match i with
  | .call t info =>
    match s.threads t with
    | .idle => (s.goto t (.totalPackets info), some info)
    | _ => (s, none)
  | .step t spurious =>
    match s.threads t with
    | .idle => (s, none)
    | .totalPackets info => ({ s with totalPackets := s.totalPackets + 1 }.goto t (.totalBytes info), none)
    | .totalBytes info =>
      ({ s with totalBytes := s.totalBytes + info.packetSize.setWidth 64 }.goto t (.tcpPackets info), none)
    | .tcpPackets info =>
      ((if info.protocol = 6 then { s with tcpPackets := s.tcpPackets + 1 } else s).goto t (.redirectedPackets info), none)
    | .redirectedPackets info =>
      ((if info.redirected then { s with redirectedPackets := s.redirectedPackets + 1 } else s).goto t (.errors info),
        none)
    | .errors info =>
      ((if info.error then { s with errors := s.errors + 1 } else s).goto t (.loadMin info), none)
    | .loadMin info => (s.goto t (.whileMin info s.minPacketSize), none)
    | .whileMin info expectedMin =>
      if info.packetSize < expectedMin then
        if s.minPacketSize = expectedMin ∧ spurious = false then
          ({ s with minPacketSize := info.packetSize }.goto t (.loadMax info), none)
        else (s.goto t (.whileMin info s.minPacketSize), none)
      else (s.goto t (.loadMax info), none)
    | .loadMax info => (s.goto t (.whileMax info s.maxPacketSize), none)
    | .whileMax info expectedMax =>
      if expectedMax < info.packetSize then
        if s.maxPacketSize = expectedMax ∧ spurious = false then
          ({ s with maxPacketSize := info.packetSize }.goto t .idle, none)
        else (s.goto t (.whileMax info s.maxPacketSize), none)
      else (s.goto t .idle, none)

/-- The packets reported. -/
def reported (tr : List (StepOf (State n) (Input n) (Option PacketInfo))) : List PacketInfo := tr.filterMap (·.out)

end TR.Impl.StatsCollector
