import TcpRedirector.Impl.ConnectionTable
import TcpRedirector.Impl.ConnectionTracker
import TcpRedirector.Impl.RuleEngine
import TcpRedirector.Impl.Capture.Bitmap

/-!
# The state of the packet capture

The fields of `WinDivertCapture` that its capture thread reads and writes,
with the objects it points to: the connection table, the connection monitor
and the rules. `Os` holds what the operating system answers during one
iteration of the loop.
-/

namespace TR.Impl

/-- What stays fixed while the capture runs: `m_relayPort`, the service's
process id and which of the pointers are set. -/
structure Config where
  relayPort : BitVec 16
  currentProcessId : BitVec 32
  /-- `m_connTable != nullptr`. -/
  connTable : Bool := true
  /-- `m_connectionMonitor != nullptr`. -/
  connectionMonitor : Bool := true
  /-- `m_ruleEngine != nullptr`. -/
  ruleEngine : Bool := true
  deriving Repr, DecidableEq

structure PidCacheEntry where
  pid : BitVec 32
  timestampMs : BitVec 64
  deriving Repr, DecidableEq

/-- A row of `MIB_TCPTABLE_OWNER_PID`. -/
structure TcpRow where
  /-- `dwLocalPort`: the port in network byte order, in the low half. -/
  localPort : BitVec 32
  owningPid : BitVec 32
  deriving Repr, DecidableEq

/-- A `PROCESSENTRY32W`. -/
structure ProcessEntry where
  processId : BitVec 32
  parentProcessId : BitVec 32
  deriving Repr, DecidableEq

/-- The answers of the operating system during one iteration. -/
structure Os where
  /-- `GetTickCount64()` when the PID cache is consulted. -/
  now : BitVec 64 := 0
  /-- `GetTickCount64()` when its result is stored. -/
  cachedAt : BitVec 64 := 0
  /-- `GetExtendedTcpTable`; `none` if its size is 0 or the call fails. -/
  tcpTable : Option (List TcpRow) := none
  /-- `OpenProcess` and `QueryFullProcessImageNameW`; `none` if one fails. -/
  imageName : BitVec 32 → Option WString := fun _ => none
  /-- `CreateToolhelp32Snapshot`; `none` if it fails. -/
  snapshot : Option (List ProcessEntry) := none
  /-- `steady_clock::now()`. -/
  steadyNow : BitVec 64 := 0
  /-- Which process owns each local port at that moment. Nothing in the code
  reads it; statements about owners do. -/
  owner : BitVec 16 → BitVec 32 := fun _ => 0

/-- The fields of `WinDivertCapture`. -/
structure Capture where
  portDecided : Bitmap := Bitmap.zero
  portDirect : Bitmap := Bitmap.zero
  pidCache : AList fun _ : BitVec 16 => PidCacheEntry := ∅
  targetProcessPath : WString := []
  targetPid : BitVec 32 := 0
  proxyHost : Bytes := []
  proxyPort : BitVec 16 := 0
  packetsCaptured : BitVec 64 := 0
  redirectsEmitted : BitVec 64 := 0
  totalRxBytes : BitVec 64 := 0
  totalTxBytes : BitVec 64 := 0
  activeConnections : BitVec 32 := 0

namespace Capture

def isPortDecided (c : Capture) (port : BitVec 16) : Bool := c.portDecided.test port

def isPortDirect (c : Capture) (port : BitVec 16) : Bool := c.portDirect.test port

def setPortDirect (c : Capture) (port : BitVec 16) : Capture :=
  { c with portDecided := c.portDecided.interlockedOr port, portDirect := c.portDirect.interlockedOr port }

def setPortDecided (c : Capture) (port : BitVec 16) : Capture :=
  { c with portDecided := c.portDecided.interlockedOr port }

def clearPort (c : Capture) (port : BitVec 16) : Capture :=
  { c with portDecided := c.portDecided.interlockedAnd port, portDirect := c.portDirect.interlockedAnd port }

end Capture

/-- The capture and what it points to. -/
structure System where
  capture : Capture
  table : ConnectionTable
  monitor : ConnectionTracker
  rules : List Rule

/-- The system as the capture loop starts: nothing tracked, nothing decided,
nothing counted, with any target, proxy and rules. -/
def System.init (targetProcessPath : WString) (proxyHost : Bytes) (proxyPort : BitVec 16)
    (rules : List Rule) : System :=
  ⟨{ targetProcessPath, proxyHost, proxyPort }, .empty, .empty, rules⟩

end TR.Impl
