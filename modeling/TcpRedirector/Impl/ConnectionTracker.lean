import Mathlib.Data.List.AList
import TcpRedirector.TCB.Bytes

/-!
# The connection tracker

`ConnectionTracker.h`, the connection monitor behind `get_connections`: the
records of the redirected connections by id. The `std::unordered_map` is an
association list with distinct keys. The average latency and the uptime are
left out.
-/

namespace TR.Impl

inductive ConnectionState where
  | redirecting | connectingToProxy | tunnelEstablished | closing | closed | error
  deriving Repr, DecidableEq

structure ConnectionRecord where
  id : BitVec 64 := 0
  pid : BitVec 32 := 0
  processName : WString := []
  processPath : WString := []
  destinationHost : WString := []
  destinationIp : Bytes := []
  destinationPort : BitVec 16 := 0
  startTime : BitVec 64 := 0
  rxBytes : BitVec 64 := 0
  txBytes : BitVec 64 := 0
  proxyEnabled : Bool := true
  state : ConnectionState := .redirecting
  deriving Repr, DecidableEq

structure ServiceStats where
  activeConnections : BitVec 64 := 0
  totalRxBytes : BitVec 64 := 0
  totalTxBytes : BitVec 64 := 0
  proxyErrors : BitVec 64 := 0
  deriving Repr, DecidableEq

structure ConnectionTracker where
  connections : AList fun _ : BitVec 64 => ConnectionRecord
  stats : ServiceStats

namespace ConnectionTracker

/-- The tracker as constructed. -/
def empty : ConnectionTracker := ⟨∅, {}⟩

/-- `static_cast<uint32_t>(m_connections.size())`, widened again. -/
def activeCount (c : AList fun _ : BitVec 64 => ConnectionRecord) : BitVec 64 :=
  (BitVec.ofNat 32 c.entries.length).setWidth 64

def addConnection (t : ConnectionTracker) (record : ConnectionRecord) : ConnectionTracker :=
  let connections := t.connections.insert record.id record
  ⟨connections, { t.stats with activeConnections := activeCount connections }⟩

def removeConnection (t : ConnectionTracker) (id : BitVec 64) : ConnectionTracker :=
  let connections := t.connections.erase id
  ⟨connections, { t.stats with activeConnections := activeCount connections }⟩

/-- The totals grow by the differences to the record before. -/
def updateConnection (t : ConnectionTracker) (id : BitVec 64) (updates : ConnectionRecord) : ConnectionTracker :=
  match t.connections.lookup id with
  | none => t
  | some record =>
    let stats := if 0 < updates.rxBytes ∨ 0 < updates.txBytes then
        { t.stats with
          totalRxBytes := t.stats.totalRxBytes + (updates.rxBytes - record.rxBytes)
          totalTxBytes := t.stats.totalTxBytes + (updates.txBytes - record.txBytes) }
      else t.stats
    let connections := t.connections.insert id updates
    let closed := updates.state = .closed ∨ updates.state = .error
    ⟨connections, if closed then
        { stats with activeConnections := (BitVec.ofNat 32 connections.entries.length - 1).setWidth 64 }
      else stats⟩

def getAggregatedStats (t : ConnectionTracker) : ServiceStats :=
  { t.stats with activeConnections := BitVec.ofNat 64 t.connections.entries.length }

/-- A change of the connections. -/
inductive Op where
  | add (record : ConnectionRecord)
  | update (id : BitVec 64) (updates : ConnectionRecord)
  | remove (id : BitVec 64)
  deriving Repr, DecidableEq

def step (op : Op) (t : ConnectionTracker) : ConnectionTracker × Unit :=
  match op with
  | .add record => (t.addConnection record, ())
  | .update id updates => (t.updateConnection id updates, ())
  | .remove id => (t.removeConnection id, ())

/-- The records `get_connections` lists. -/
def getActiveConnections (t : ConnectionTracker) : List ConnectionRecord :=
  t.connections.entries.map (·.2)

/-- The ids held. -/
def ids (t : ConnectionTracker) : List (BitVec 64) := t.connections.keys

def buildSnapshotLocked (t : ConnectionTracker) : List ConnectionRecord := t.connections.entries.map (·.2)

end ConnectionTracker

/-! ## Notifications -/

/-- The tracker with its callback (set or not), and the snapshots the callback
has got, oldest first. -/
structure ConnectionMonitor where
  tracker : ConnectionTracker
  callback : Bool := false
  delivered : List (List ConnectionRecord) := []

namespace ConnectionMonitor

open ConnectionTracker (Op)

/-- A callback that has got nothing yet. -/
def setOnConnectionsChanged (m : ConnectionMonitor) : ConnectionMonitor :=
  { m with callback := true, delivered := [] }

/-- `if (!snapshot.empty() && m_callback) m_callback(snapshot);`, outside the lock. -/
def deliver (m : ConnectionMonitor) (snapshot : List ConnectionRecord) : ConnectionMonitor :=
  if !snapshot.isEmpty && m.callback then { m with delivered := m.delivered ++ [snapshot] } else m

/-- `if (m_callback) snapshot = BuildSnapshotLocked();`, empty before. -/
def snapshotLocked (m : ConnectionMonitor) : List ConnectionRecord :=
  if m.callback then m.tracker.buildSnapshotLocked else []

def addConnection (m : ConnectionMonitor) (record : ConnectionRecord) : ConnectionMonitor :=
  let m := { m with tracker := m.tracker.addConnection record }
  m.deliver m.snapshotLocked

/-- An unknown id leaves the snapshot empty. -/
def updateConnection (m : ConnectionMonitor) (id : BitVec 64) (updates : ConnectionRecord) : ConnectionMonitor :=
  match m.tracker.connections.lookup id with
  | none => m.deliver []
  | some _ =>
    let m := { m with tracker := m.tracker.updateConnection id updates }
    m.deliver m.snapshotLocked

def removeConnection (m : ConnectionMonitor) (id : BitVec 64) : ConnectionMonitor :=
  let m := { m with tracker := m.tracker.removeConnection id }
  m.deliver m.snapshotLocked

def step (op : Op) (m : ConnectionMonitor) : ConnectionMonitor × Unit :=
  match op with
  | .add record => (m.addConnection record, ())
  | .update id updates => (m.updateConnection id updates, ())
  | .remove id => (m.removeConnection id, ())

end ConnectionMonitor

end TR.Impl
