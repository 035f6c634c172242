import Mathlib.Logic.Function.Basic
import TcpRedirector.TCB.Bytes
import TcpRedirector.TCB.Chain

/-!
# The connection table

`ConnectionTable.h`: a hash table from the local port of a redirected
connection to its original destination, its process and its byte counters.
The buckets are chains of entries, newest first. The lock is taken for the
whole of every operation, so each is one atomic step.
-/

namespace TR.Impl

def CONNECTION_HASH_SIZE : Nat := 4096

structure ConnectionEntry where
  srcPort : BitVec 16
  srcIp : BitVec 32
  /-- In network byte order, as the packet held it. -/
  origDestIp : BitVec 32
  /-- In host byte order. -/
  origDestPort : BitVec 16
  proxyConfigId : BitVec 32
  isTracked : Bool
  pid : BitVec 32 := 0
  procPath : WString := []
  bytesUp : BitVec 64 := 0
  bytesDown : BitVec 64 := 0
  deriving Repr, DecidableEq

/-- What `GetInfo` copies out. -/
structure ConnectionInfo where
  pid : BitVec 32
  procPath : WString
  bytesUp : BitVec 64
  bytesDown : BitVec 64
  deriving Repr, DecidableEq

structure ConnectionTable where
  table : Fin CONNECTION_HASH_SIZE → List ConnectionEntry
  trackedCount : BitVec 32

namespace ConnectionTable

/-- The table as constructed. -/
def empty : ConnectionTable := ⟨fun _ => [], 0⟩

/-- `src_port % CONNECTION_HASH_SIZE`. -/
def hash (srcPort : BitVec 16) : Fin CONNECTION_HASH_SIZE :=
  ⟨srcPort.toNat % CONNECTION_HASH_SIZE, Nat.mod_lt _ (by decide)⟩

def chain (t : ConnectionTable) (srcPort : BitVec 16) : List ConnectionEntry := t.table (hash srcPort)

def setChain (t : ConnectionTable) (srcPort : BitVec 16) (l : List ConnectionEntry) : ConnectionTable :=
  { t with table := Function.update t.table (hash srcPort) l }

/-- The test of every lookup: the port's tracked entry. -/
def tracks (srcPort : BitVec 16) (e : ConnectionEntry) : Bool := e.srcPort == srcPort && e.isTracked

/-- The entry the lookups stop at. -/
def entry (t : ConnectionTable) (srcPort : BitVec 16) : Option ConnectionEntry :=
  (t.chain srcPort).find? (tracks srcPort)

def getTrackedCount (t : ConnectionTable) : BitVec 32 := t.trackedCount

def add (t : ConnectionTable) (srcPort : BitVec 16) (srcIp origDestIp : BitVec 32)
    (origDestPort : BitVec 16) (proxyConfigId : BitVec 32) : ConnectionTable :=
  let same := fun e : ConnectionEntry => e.srcPort == srcPort && e.origDestIp == origDestIp
  if (t.chain srcPort).any same then
    t.setChain srcPort (modifyFirst same (fun e =>
      { e with srcIp, origDestPort, proxyConfigId, isTracked := true }) (t.chain srcPort))
  else
    { t.setChain srcPort ({ srcPort, srcIp, origDestIp, origDestPort, proxyConfigId, isTracked := true } ::
        t.chain srcPort) with trackedCount := t.trackedCount + 1 }

/-- The original destination: address (network order) and port (host order). -/
def get (t : ConnectionTable) (srcPort : BitVec 16) : Option (BitVec 32 × BitVec 16) :=
  (t.entry srcPort).map fun e => (e.origDestIp, e.origDestPort)

def getProxyConfigId (t : ConnectionTable) (srcPort : BitVec 16) : BitVec 32 :=
  ((t.entry srcPort).map (·.proxyConfigId)).getD 0

def isTracked (t : ConnectionTable) (srcPort : BitVec 16) : Bool := (t.entry srcPort).isSome

def remove (t : ConnectionTable) (srcPort : BitVec 16) : ConnectionTable :=
  let isPort := fun e : ConnectionEntry => e.srcPort == srcPort
  if (t.chain srcPort).any isPort then
    { t.setChain srcPort ((t.chain srcPort).eraseP isPort) with
      trackedCount := if 0 < t.trackedCount.toNat then t.trackedCount - 1 else t.trackedCount }
  else t

def setProcessInfo (t : ConnectionTable) (srcPort : BitVec 16) (pid : BitVec 32) (procPath : WString) :
    ConnectionTable :=
  t.setChain srcPort (modifyFirst (tracks srcPort) (fun e => { e with pid, procPath }) (t.chain srcPort))

def clear (_ : ConnectionTable) : ConnectionTable := ⟨fun _ => [], 0⟩

def addBytes (t : ConnectionTable) (srcPort : BitVec 16) (up down : BitVec 64) : ConnectionTable :=
  t.setChain srcPort (modifyFirst (tracks srcPort)
    (fun e => { e with bytesUp := e.bytesUp + up, bytesDown := e.bytesDown + down }) (t.chain srcPort))

def getInfo (t : ConnectionTable) (srcPort : BitVec 16) : Option ConnectionInfo :=
  (t.entry srcPort).map fun e => ⟨e.pid, e.procPath, e.bytesUp, e.bytesDown⟩

end ConnectionTable

end TR.Impl
