import TcpRedirector.Impl.ConnectionTable
import TcpRedirector.TCB.Cells
import TcpRedirector.TCB.SrwLock

/-!
# The connection table in memory

`ConnectionTable.h` again, on memory: entries are allocated and freed and
linked into the buckets of `m_table`, and any number of threads call the
operations, which take `m_lock`. A step reads or writes one link, one field of
an entry or the counter, allocates or frees one entry, or takes or gives back
the lock; the steps of all threads are in one order. What is read, written or
freed has to be allocated; otherwise the step is a `fault`.
-/

namespace TR.Impl

/-- The fields of an entry other than its link. -/
inductive EntryField where
  | srcPort | srcIp | origDestIp | origDestPort | proxyConfigId | isTracked | pid | procPath | bytesUp | bytesDown
  deriving Repr, DecidableEq

namespace EntryField

def Val : EntryField → Type
  | .srcPort | .origDestPort => BitVec 16
  | .srcIp | .origDestIp | .proxyConfigId | .pid => BitVec 32
  | .isTracked => Bool
  | .procPath => WString
  | .bytesUp | .bytesDown => BitVec 64

def get : (f : EntryField) → ConnectionEntry → f.Val
  | .srcPort, e => e.srcPort
  | .srcIp, e => e.srcIp
  | .origDestIp, e => e.origDestIp
  | .origDestPort, e => e.origDestPort
  | .proxyConfigId, e => e.proxyConfigId
  | .isTracked, e => e.isTracked
  | .pid, e => e.pid
  | .procPath, e => e.procPath
  | .bytesUp, e => e.bytesUp
  | .bytesDown, e => e.bytesDown

def set : (f : EntryField) → f.Val → ConnectionEntry → ConnectionEntry
  | .srcPort, v, e => { e with srcPort := v }
  | .srcIp, v, e => { e with srcIp := v }
  | .origDestIp, v, e => { e with origDestIp := v }
  | .origDestPort, v, e => { e with origDestPort := v }
  | .proxyConfigId, v, e => { e with proxyConfigId := v }
  | .isTracked, v, e => { e with isTracked := v }
  | .pid, v, e => { e with pid := v }
  | .procPath, v, e => { e with procPath := v }
  | .bytesUp, v, e => { e with bytesUp := v }
  | .bytesDown, v, e => { e with bytesDown := v }

end EntryField

/-- Where a link is: in `m_table`, or `next` of an entry. -/
inductive Slot where
  | bucket (i : Fin CONNECTION_HASH_SIZE)
  | next (p : Option Nat)
  deriving Repr, DecidableEq

structure TableMemory where
  buckets : Fin CONNECTION_HASH_SIZE → Option Nat
  /-- None where no entry is allocated. -/
  cells : Nat → Option (Cell Nat ConnectionEntry)
  /-- The addresses given out so far are below. -/
  size : Nat
  trackedCount : BitVec 32
  /-- Memory that is not allocated was used. -/
  fault : Bool

namespace TableMemory

/-- The table as constructed. -/
def constructed : TableMemory := ⟨fun _ => none, fun _ => none, 0, 0, false⟩

/-- What a pointer points to. -/
def cell (m : TableMemory) (p : Option Nat) : Option (Cell Nat ConnectionEntry) := p.bind m.cells

def put (m : TableMemory) (p : Nat) (c : Cell Nat ConnectionEntry) : TableMemory :=
  { m with cells := Function.update m.cells p (some c) }

/-- The cell at `p` is written. -/
def change (m : TableMemory) (p : Option Nat) (f : Cell Nat ConnectionEntry → Cell Nat ConnectionEntry) : TableMemory :=
  match p, m.cell p with
  | some p, some c => m.put p (f c)
  | _, _ => { m with fault := true }

/-- `new ConnectionEntry()`, at a freed address `o` or at one not used before. -/
def alloc (m : TableMemory) (o : Nat) : Nat × TableMemory :=
  let p := if o < m.size ∧ (m.cells o).isNone then o else m.size
  (p, { m.put p ⟨⟨0, 0, 0, 0, 0, false, 0, [], 0, 0⟩, none⟩ with size := max m.size (p + 1) })

/-- `delete`. -/
def free (m : TableMemory) (p : Option Nat) : TableMemory :=
  match p, m.cell p with
  | some p, some _ => { m with cells := Function.update m.cells p none }
  | none, _ => m
  | _, _ => { m with fault := true }

end TableMemory

inductive TableCall where
  | readSlot (s : Slot)
  | writeSlot (s : Slot) (p : Option Nat)
  | read (p : Option Nat) (f : EntryField)
  | write (p : Option Nat) (f : EntryField) (v : f.Val)
  | new
  | delete (p : Option Nat)
  | loadCount
  | storeCount (n : BitVec 32)
  | fetchAddCount
  | fetchSubCount

def TableCall.Resp : TableCall → Type
  | .readSlot _ | .new => Option Nat
  | .read _ f => f.Val
  | .loadCount => BitVec 32
  | _ => Unit

/-- `o` is the address that an allocation prefers. -/
def TableCall.answer (o : Nat) (c : TableCall) (m : TableMemory) : c.Resp × TableMemory :=
  match c with
  | .readSlot (.bucket i) => (m.buckets i, m)
  | .readSlot (.next p) =>
    match m.cell p with
    | some c => (c.next, m)
    | none => (none, { m with fault := true })
  | .writeSlot (.bucket i) q => ((), { m with buckets := Function.update m.buckets i q })
  | .writeSlot (.next p) q => ((), m.change p fun c => { c with next := q })
  | .read p f =>
    match m.cell p with
    | some c => (f.get c.item, m)
    | none => (f.get ⟨0, 0, 0, 0, 0, false, 0, [], 0, 0⟩, { m with fault := true })
  | .write p f v => ((), m.change p fun c => { c with item := f.set v c.item })
  | .new => (some (m.alloc o).1, (m.alloc o).2)
  | .delete p => ((), m.free p)
  | .loadCount => (m.trackedCount, m)
  | .storeCount n => ((), { m with trackedCount := n })
  | .fetchAddCount => ((), { m with trackedCount := m.trackedCount + 1 })
  | .fetchSubCount => ((), { m with trackedCount := m.trackedCount - 1 })

inductive TableResult where
  | void
  | destination (x : Option (BitVec 32 × BitVec 16))
  | id (x : BitVec 32)
  | flag (x : Bool)
  | info (x : Option ConnectionInfo)
  | count (x : BitVec 32)
  deriving Repr, DecidableEq

abbrev TableProg (β : Type) := Prog (SrwCall TableCall) (SrwCall.Resp TableCall.Resp) β

namespace TableProg

def acquire (mode : LockMode) : TableProg Unit := .call (.acquire mode) pure
def readSlot (s : Slot) : TableProg (Option Nat) := .call (.other (.readSlot s)) pure
def writeSlot (s : Slot) (p : Option Nat) : TableProg Unit := .call (.other (.writeSlot s p)) pure
def read (p : Option Nat) (f : EntryField) : TableProg f.Val := .call (.other (.read p f)) pure
def write (p : Option Nat) (f : EntryField) (v : f.Val) : TableProg Unit := .call (.other (.write p f v)) pure
def new : TableProg (Option Nat) := .call (.other .new) pure
def delete (p : Option Nat) : TableProg Unit := .call (.other (.delete p)) pure
def loadCount : TableProg (BitVec 32) := .call (.other .loadCount) pure
def storeCount (n : BitVec 32) : TableProg Unit := .call (.other (.storeCount n)) pure
def fetchAddCount : TableProg Unit := .call (.other .fetchAddCount) pure
def fetchSubCount : TableProg Unit := .call (.other .fetchSubCount) pure

/-- The lock is given back, and the operation returns. -/
def leave (mode : LockMode) (x : TableResult) : TableProg TableResult := .call (.release mode) fun _ => pure x

end TableProg

open TableProg

/-! ## The operations that walk a chain -/

/-- An operation that walks the chain of a port up to the first entry that it
is about. -/
structure TableSearch where
  mode : LockMode
  srcPort : BitVec 16
  /-- The condition of the `if` in the loop. -/
  hits : Option Nat → TableProg Bool
  /-- The branch of the `if`. -/
  found : Option Nat → TableProg TableResult
  /-- What follows the loop. -/
  notFound : TableProg TableResult

namespace TableSearch

/-- `entry->src_port == src_port && entry->is_tracked`. -/
def tracks (srcPort : BitVec 16) (entry : Option Nat) : TableProg Bool := do
  let port : BitVec 16 ← read entry .srcPort
  if port == srcPort then read entry .isTracked else pure false

def add (srcPort : BitVec 16) (srcIp origDestIp : BitVec 32) (origDestPort : BitVec 16) (proxyConfigId : BitVec 32) :
    TableSearch where
  mode := .exclusive
  srcPort
  hits entry := do
    let port : BitVec 16 ← read entry .srcPort
    if port == srcPort then do
      let ip : BitVec 32 ← read entry .origDestIp
      pure (ip == origDestIp)
    else pure false
  found entry := do
    write entry .srcIp srcIp
    write entry .origDestPort origDestPort
    write entry .proxyConfigId proxyConfigId
    write entry .isTracked true
    leave .exclusive .void
  notFound := do
    let conn ← new
    write conn .srcPort srcPort
    write conn .srcIp srcIp
    write conn .origDestIp origDestIp
    write conn .origDestPort origDestPort
    write conn .proxyConfigId proxyConfigId
    write conn .isTracked true
    let head ← readSlot (.bucket (ConnectionTable.hash srcPort))
    writeSlot (.next conn) head
    writeSlot (.bucket (ConnectionTable.hash srcPort)) conn
    fetchAddCount
    leave .exclusive .void

def get (srcPort : BitVec 16) : TableSearch where
  mode := .shared
  srcPort
  hits := tracks srcPort
  found entry := do
    let ip : BitVec 32 ← read entry .origDestIp
    let port : BitVec 16 ← read entry .origDestPort
    leave .shared (.destination (some (ip, port)))
  notFound := leave .shared (.destination none)

def getProxyConfigId (srcPort : BitVec 16) : TableSearch where
  mode := .shared
  srcPort
  hits := tracks srcPort
  found entry := do
    let id : BitVec 32 ← read entry .proxyConfigId
    leave .shared (.id id)
  notFound := leave .shared (.id 0)

def isTracked (srcPort : BitVec 16) : TableSearch where
  mode := .shared
  srcPort
  hits := tracks srcPort
  found _ := leave .shared (.flag true)
  notFound := leave .shared (.flag false)

def setProcessInfo (srcPort : BitVec 16) (pid : BitVec 32) (procPath : WString) : TableSearch where
  mode := .exclusive
  srcPort
  hits := tracks srcPort
  found entry := do
    write entry .pid pid
    write entry .procPath procPath
    leave .exclusive .void
  notFound := leave .exclusive .void

def addBytes (srcPort : BitVec 16) (up down : BitVec 64) : TableSearch where
  mode := .exclusive
  srcPort
  hits := tracks srcPort
  found entry := do
    let bytesUp : BitVec 64 ← read entry .bytesUp
    write entry .bytesUp (bytesUp + up)
    let bytesDown : BitVec 64 ← read entry .bytesDown
    write entry .bytesDown (bytesDown + down)
    leave .exclusive .void
  notFound := leave .exclusive .void

def getInfo (srcPort : BitVec 16) : TableSearch where
  mode := .shared
  srcPort
  hits := tracks srcPort
  found entry := do
    let pid : BitVec 32 ← read entry .pid
    let procPath : WString ← read entry .procPath
    let bytesUp : BitVec 64 ← read entry .bytesUp
    let bytesDown : BitVec 64 ← read entry .bytesDown
    leave .shared (.info (some ⟨pid, procPath, bytesUp, bytesDown⟩))
  notFound := leave .shared (.info none)

end TableSearch

/-! ## Operations and loops -/

inductive TableMethod where
  | add (srcPort : BitVec 16) (srcIp origDestIp : BitVec 32) (origDestPort : BitVec 16) (proxyConfigId : BitVec 32)
  | get (srcPort : BitVec 16)
  | getProxyConfigId (srcPort : BitVec 16)
  | isTracked (srcPort : BitVec 16)
  | remove (srcPort : BitVec 16)
  | setProcessInfo (srcPort : BitVec 16) (pid : BitVec 32) (procPath : WString)
  | clear
  | addBytes (srcPort : BitVec 16) (up down : BitVec 64)
  | getInfo (srcPort : BitVec 16)
  | getTrackedCount
  deriving Repr, DecidableEq

/-- Where a thread is: at the beginning of an operation, or at the head of a loop. -/
inductive TableLoop where
  | enter (op : TableMethod)
  | search (w : TableSearch) (entry : Option Nat)
  /-- The loop of `Remove`. -/
  | unlink (srcPort : BitVec 16) (pp : Slot)
  /-- The two loops of `Clear`. -/
  | buckets (i : Nat)
  | chain (i : Fin CONNECTION_HASH_SIZE) (entry : Option Nat)

def TableSearch.begin (w : TableSearch) : TableProg (TableLoop ⊕ TableResult) := do
  acquire w.mode
  let entry ← readSlot (.bucket (ConnectionTable.hash w.srcPort))
  pure (.inl (.search w entry))

def TableMethod.enter : TableMethod → TableProg (TableLoop ⊕ TableResult)
  | .add srcPort srcIp origDestIp origDestPort proxyConfigId =>
    (TableSearch.add srcPort srcIp origDestIp origDestPort proxyConfigId).begin
  | .get srcPort => (TableSearch.get srcPort).begin
  | .getProxyConfigId srcPort => (TableSearch.getProxyConfigId srcPort).begin
  | .isTracked srcPort => (TableSearch.isTracked srcPort).begin
  | .remove srcPort => do
    acquire .exclusive
    pure (.inl (.unlink srcPort (.bucket (ConnectionTable.hash srcPort))))
  | .setProcessInfo srcPort pid procPath => (TableSearch.setProcessInfo srcPort pid procPath).begin
  | .clear => do
    acquire .exclusive
    pure (.inl (.buckets 0))
  | .addBytes srcPort up down => (TableSearch.addBytes srcPort up down).begin
  | .getInfo srcPort => (TableSearch.getInfo srcPort).begin
  | .getTrackedCount => do
    let n ← loadCount
    pure (.inr (.count n))

def TableLoop.body : TableLoop → TableProg (TableLoop ⊕ TableResult)
  | .enter op => op.enter
  | .search w none => do
    let x ← w.notFound
    pure (.inr x)
  | .search w (some p) => do
    let hit ← w.hits (some p)
    if hit then do
      let x ← w.found (some p)
      pure (.inr x)
    else do
      let next ← readSlot (.next (some p))
      pure (.inl (.search w next))
  | .unlink srcPort pp => do
    match ← readSlot pp with
    | none => do
      let x ← leave .exclusive .void
      pure (.inr x)
    | some _ => do
      let entry ← readSlot pp
      let port : BitVec 16 ← read entry .srcPort
      if port == srcPort then do
        let toDelete ← readSlot pp
        let entry ← readSlot pp
        let next ← readSlot (.next entry)
        writeSlot pp next
        delete toDelete
        let count ← loadCount
        if 0 < count.toNat then fetchSubCount else pure ()
        let x ← leave .exclusive .void
        pure (.inr x)
      else do
        let entry ← readSlot pp
        pure (.inl (.unlink srcPort (.next entry)))
  | .buckets i =>
    if h : i < CONNECTION_HASH_SIZE then do
      let entry ← readSlot (.bucket ⟨i, h⟩)
      pure (.inl (.chain ⟨i, h⟩ entry))
    else do
      storeCount 0
      let x ← leave .exclusive .void
      pure (.inr x)
  | .chain i none => do
    writeSlot (.bucket i) none
    pure (.inl (.buckets (i + 1)))
  | .chain i (some p) => do
    let next ← readSlot (.next (some p))
    delete (some p)
    pure (.inl (.chain i next))

abbrev TablePool := SrwPool TableCall TableCall.Resp TableLoop TableMemory TableResult

def tableStep : SrwInput TableMethod Nat → TablePool → TablePool × Option (ObjectEvent TableMethod TableResult) :=
  SrwPool.step .enter TableLoop.body TableCall.answer

/-- The table has been constructed and nothing else. -/
def tableStart : TablePool := .start .constructed .void

/-- What an operation does with the table as a whole. -/
def TableMethod.apply : TableMethod → ConnectionTable → TableResult × ConnectionTable
  | .add srcPort srcIp origDestIp origDestPort proxyConfigId, t =>
    (.void, t.add srcPort srcIp origDestIp origDestPort proxyConfigId)
  | .get srcPort, t => (.destination (t.get srcPort), t)
  | .getProxyConfigId srcPort, t => (.id (t.getProxyConfigId srcPort), t)
  | .isTracked srcPort, t => (.flag (t.isTracked srcPort), t)
  | .remove srcPort, t => (.void, t.remove srcPort)
  | .setProcessInfo srcPort pid procPath, t => (.void, t.setProcessInfo srcPort pid procPath)
  | .clear, t => (.void, t.clear)
  | .addBytes srcPort up down, t => (.void, t.addBytes srcPort up down)
  | .getInfo srcPort, t => (.info (t.getInfo srcPort), t)
  | .getTrackedCount, t => (.count t.getTrackedCount, t)

end TR.Impl
