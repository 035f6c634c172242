import TcpRedirector.TCB.Bytes

/-!
# The ring of the logger

`AddToRingBuffer` and `GetRecentEntries` of `Logger.cpp`.
-/

namespace TR.Impl.Service

structure LogEntry where
  /-- `system_clock`, in units of 100 ns. -/
  timestamp : BitVec 64 := 0
  level : BitVec 32 := 2
  logger : Bytes := []
  message : Bytes := []
  deriving Repr, DecidableEq

def RING_BUFFER_SIZE : Nat := 2000

structure Logger where
  ringBuffer : Nat → LogEntry := fun _ => {}
  ringIndex : BitVec 64 := 0

namespace Logger

def addToRingBuffer (entry : LogEntry) (l : Logger) : Logger :=
  let idx := l.ringIndex.toNat % RING_BUFFER_SIZE
  { ringBuffer := fun i => if i = idx then entry else l.ringBuffer i, ringIndex := l.ringIndex + 1 }

/-- `count` entries from `i` on, around the ring. -/
def around (l : Logger) : Nat → Nat → List LogEntry
  | _, 0 => []
  | i, count + 1 => l.ringBuffer i :: around l ((i + 1) % RING_BUFFER_SIZE) count

def getRecentEntries (max_count : Nat) (l : Logger) : List LogEntry :=
  let idx := l.ringIndex.toNat
  let total := if idx < RING_BUFFER_SIZE then idx else RING_BUFFER_SIZE
  if total = 0 then []
  else if idx < RING_BUFFER_SIZE then
    let start := if max_count < total then total - max_count else 0
    (List.range' start (total - start)).map l.ringBuffer
  else
    let wrap := idx % RING_BUFFER_SIZE
    if total ≤ max_count then
      (List.range' wrap (RING_BUFFER_SIZE - wrap)).map l.ringBuffer ++ (List.range wrap).map l.ringBuffer
    else l.around ((wrap + (total - max_count)) % RING_BUFFER_SIZE) max_count

end Logger

end TR.Impl.Service
