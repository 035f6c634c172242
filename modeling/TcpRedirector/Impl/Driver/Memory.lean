import TcpRedirector.Impl.Driver.WfpCallout
import TcpRedirector.TCB.Links
import TcpRedirector.TCB.Threads

/-!
# The memory of the driver

`RedirectService.c`, the requests of `IoctlHandler.c` and
`TcpRedirectClassify` again, on memory: blocks of the pool, linked into the
two lists of `g_RedirectService`, allocated and freed by any number of
threads. A critical section is one step, and so is each use of a block outside
of one. What is read, written or freed has to be allocated; otherwise the
step is a `fault`. The contents of a block are one value. The system buffer of
a request is memory of the I/O manager, of which its length is known; nothing
is said of what comes after an access outside of it.
-/

namespace TR.Impl

/-- The tags given to `ExAllocatePool2` and `ExFreePoolWithTag`. -/
inductive PoolTag where
  | nDrT | rDrT | lRrT
  deriving Repr, DecidableEq

/-- `&Service->RedirectQueue`, `&Service->RulesList`, or a block of the pool. -/
inductive Addr where
  | redirectQueue
  | rulesList
  | block (n : Nat)
  deriving Repr, DecidableEq

/-- A `RULE_ENTRY` of a buffer from user mode. -/
structure RuleData where
  rule : RuleEntry
  /-- There is a zero character from the start of `Pattern` to the end of the entry. -/
  terminated : Bool
  deriving Repr, DecidableEq

/-- What `RedirectService_MatchRule` finds out about the rule; none where it hands
`wcsstr` a pattern that runs out of the entry. -/
def RuleData.hits (data : RuleData) (process : ProcessIdentity) : Option Bool :=
  if data.rule.isWildcard || data.terminated then some (data.rule.hits process) else none

inductive Body where
  | listHead
  /-- A block that was allocated with `tag`; nothing is written in it. -/
  | zeroed (tag : PoolTag)
  | redirectInfo (tag : PoolTag) (info : RedirectInfo)
  | ruleEntry (tag : PoolTag) (data : RuleData)
  deriving Repr, DecidableEq

/-- The tag a block was allocated with; the list heads are not in the pool. -/
def Body.tag : Body → Option PoolTag
  | .listHead => none
  | .zeroed tag | .redirectInfo tag _ | .ruleEntry tag _ => some tag

/-- `g_RedirectService` and the pool. -/
structure DriverMemory where
  nodes : Nodes Addr Body
  /-- How many blocks were allocated so far. -/
  allocated : Nat
  queueCount : BitVec 32
  queueMaxCount : BitVec 32
  nextRedirectId : BitVec 32
  rulesCount : BitVec 32
  totalRedirects : BitVec 64
  failedRedirects : BitVec 64
  /-- Memory that is not allocated was used, the array `redirects` was left, or a
  loop over a list did not end. -/
  fault : Bool
  /-- A buffer was left, to write a packet or to read a pattern. -/
  overran : Bool
  /-- The blocks freed, with the tags of their allocation and of the call. -/
  freed : List (Nat × PoolTag × PoolTag)

namespace DriverMemory

/-- `RedirectService_Initialize`, with an empty pool. -/
def initialized : DriverMemory where
  nodes := fun
    | .redirectQueue => some ⟨.redirectQueue, .redirectQueue, .listHead⟩
    | .rulesList => some ⟨.rulesList, .rulesList, .listHead⟩
    | .block _ => none
  allocated := 0
  queueCount := 0
  queueMaxCount := MAX_REDIRECT_QUEUE_SIZE
  nextRedirectId := 1
  rulesCount := 0
  totalRedirects := 0
  failedRedirects := 0
  fault := false
  overran := false
  freed := []

def body (s : DriverMemory) (a : Addr) : Option Body := (s.nodes a).map (·.body)

def setBody (s : DriverMemory) (a : Addr) (b : Body) : Option DriverMemory := do
  let nodes ← s.nodes.modify a fun n => { n with body := b }
  some { s with nodes }

/-- `ExAllocatePool2`, which fills the block with zeros. -/
def exAllocatePool (s : DriverMemory) (tag : PoolTag) : Addr × DriverMemory :=
  let a := .block s.allocated
  (a, { s with
    nodes := Function.update s.nodes a (some ⟨a, a, .zeroed tag⟩)
    allocated := s.allocated + 1 })

/-- `ExFreePoolWithTag`. -/
def exFreePool (s : DriverMemory) (a : Addr) (tag : PoolTag) : Option DriverMemory :=
  match a, s.body a with
  | .block n, some b => b.tag.map fun t => { s with nodes := Function.update s.nodes a none, freed := s.freed ++ [(n, t, tag)] }
  | _, _ => none

/-- The info at an address, for a read of its fields. -/
def redirectInfo (s : DriverMemory) (a : Addr) : Option RedirectInfo :=
  match s.body a with
  | some (.redirectInfo _ info) => some info
  | _ => none

def ruleData (s : DriverMemory) (a : Addr) : Option RuleData :=
  match s.body a with
  | some (.ruleEntry _ data) => some data
  | _ => none

def ruleEntry (s : DriverMemory) (a : Addr) : Option RuleEntry := (s.ruleData a).map (·.rule)

/-- What the fields of an info are set to; the block stays the one it was. -/
def writeInfo (s : DriverMemory) (a : Addr) (info : RedirectInfo) : Option DriverMemory := do
  let b ← s.body a
  let tag ← b.tag
  s.setBody a (.redirectInfo tag info)

def writeRule (s : DriverMemory) (a : Addr) (data : RuleData) : Option DriverMemory := do
  let b ← s.body a
  let tag ← b.tag
  s.setBody a (.ruleEntry tag data)

/-- More than all blocks together, for the loops over a list. -/
def fuel (s : DriverMemory) : Nat := s.allocated + 1

/-! ## The critical sections -/

/-- `RedirectService_Enqueue` under `QueueLock`. -/
def enqueue (s : DriverMemory) (a : Addr) (tickCount : BitVec 64) : Option (NtStatus × DriverMemory) :=
  if s.queueMaxCount.sle s.queueCount then
    some (.insufficientResources, { s with failedRedirects := s.failedRedirects + 1 })
  else do
    let info ← s.redirectInfo a
    let id := s.nextRedirectId + 1
    let s ← { s with nextRedirectId := id }.writeInfo a
      { info with redirectId := id.signExtend 64, status := .pending, timestamp := tickCount }
    let nodes ← s.nodes.insertTailList .redirectQueue a
    some (.success, { s with
      nodes
      queueCount := s.queueCount + 1
      totalRedirects := s.totalRedirects + 1 })

/-- The loop of `RedirectService_PeekBatch`, with `n` entries still to come. -/
def peekLoop : Nat → DriverMemory → Option (List Addr × DriverMemory)
  | 0, s => some ([], s)
  | n + 1, s => do
    if ← s.nodes.isListEmpty .redirectQueue then some ([], s)
    else
      let (entry, nodes) ← s.nodes.removeHeadList .redirectQueue
      let (batch, s) ← peekLoop n { s with nodes, queueCount := s.queueCount - 1 }
      some (entry :: batch, s)

/-- `RedirectService_PeekBatch` under `QueueLock`. -/
def peekBatch (s : DriverMemory) (count : BitVec 32) : Option ((NtStatus × List Addr) × DriverMemory) := do
  let (batch, s) ← peekLoop count.toNat s
  some ((if batch.isEmpty then .notFound else .success, batch), s)

/-- It fills the array `redirects` of `IOCTL_REDIRECTOR_GET_PENDING`. -/
def fillRedirects (s : DriverMemory) (count : BitVec 32) : Option ((NtStatus × List Addr) × DriverMemory) :=
  if count.toNat ≤ 64 then s.peekBatch count else none

/-- `RedirectService_AddRule` under `RulesLock`. -/
def addRule (s : DriverMemory) (a : Addr) : Option DriverMemory := do
  let nodes ← s.nodes.insertTailList .rulesList a
  some { s with nodes, rulesCount := s.rulesCount + 1 }

/-- The loop that removes every entry of a list and frees it; none if it does not end. -/
def freeLoop (head : Addr) (tag : PoolTag) : Nat → DriverMemory → Option DriverMemory
  | 0, _ => none
  | n + 1, s => do
    if ← s.nodes.isListEmpty head then some s
    else
      let (entry, nodes) ← s.nodes.removeHeadList head
      let s ← { s with nodes }.exFreePool entry tag
      freeLoop head tag n s

/-- `RedirectService_ClearRules`, also the second half of `RedirectService_Cleanup`. -/
def clearRules (s : DriverMemory) : Option DriverMemory := do
  let s ← freeLoop .rulesList .lRrT s.fuel s
  some { s with rulesCount := 0 }

/-- The first half of `RedirectService_Cleanup`. -/
def clearQueue (s : DriverMemory) : Option DriverMemory := do
  let s ← freeLoop .redirectQueue .rDrT s.fuel s
  some { s with queueCount := 0 }

/-- The loop of `RedirectService_MatchRule` from `entry` on; the action is none
where it leaves an entry. -/
def matchLoop (s : DriverMemory) (process : ProcessIdentity) : Nat → Addr → Option (Option RuleActionType)
  | 0, _ => none
  | n + 1, entry =>
    if entry = .rulesList then some (some RuleActionPermit)
    else do
      let data ← s.ruleData entry
      let next ← s.nodes.flink entry
      match data.hits process with
      | none => some none
      | some true => some (some data.rule.action)
      | some false => matchLoop s process n next

/-- The entries of a list, from its head on; none if it does not come back to the head. -/
def entries (s : DriverMemory) (head : Addr) : Option (List Addr) := s.nodes.elements head s.fuel

/-- The blocks that are allocated. -/
def live (s : DriverMemory) : List Nat := (List.range s.allocated).filter fun n => (s.nodes (.block n)).isSome

/-- `RedirectService_MatchRule` under `RulesLock`. -/
def matchRule (s : DriverMemory) (process : ProcessIdentity) : Option (Option RuleActionType) := do
  let entry ← s.nodes.flink .rulesList
  s.matchLoop process s.fuel entry

end DriverMemory

/-! ## What a thread does with the memory -/

inductive MemoryCall where
  | exAllocatePool (tag : PoolTag)
  | exFreePool (a : Addr) (tag : PoolTag)
  /-- `RtlZeroMemory` and the assignments after it. -/
  | writeInfo (a : Addr) (info : RedirectInfo)
  | readInfo (a : Addr)
  /-- The assignments to `packet[i]` in a system buffer of `length` bytes. -/
  | writePacket (length i : Nat) (packet : RedirectDataPacket)
  /-- `RtlCopyMemory` of a rule. -/
  | writeRule (a : Addr) (data : RuleData)
  | enqueue (a : Addr)
  | peekBatch (count : BitVec 32)
  | addRule (a : Addr)
  | clearRules
  | clearQueue
  | matchRule (process : ProcessIdentity)
  deriving Repr, DecidableEq

def MemoryCall.Resp : MemoryCall → Type
  | .exAllocatePool _ => Option Addr
  | .readInfo _ => RedirectDataPacket
  | .enqueue _ => NtStatus
  | .peekBatch _ => NtStatus × List Addr
  | .matchRule _ => RuleActionType
  | _ => Unit

/-- What the environment decides: whether an allocation succeeds, and the tick count. -/
structure MemoryChoice where
  allocates : Bool
  keQueryTickCount : BitVec 64
  deriving Repr, DecidableEq

/-- The new memory, or the old one with the fault noted and any answer. -/
def orFault {α : Type} (s : DriverMemory) (r : α) : Option (α × DriverMemory) → α × DriverMemory
  | some x => x
  | none => (r, { s with fault := true })

def MemoryCall.answer (o : MemoryChoice) (c : MemoryCall) (s : DriverMemory) : c.Resp × DriverMemory :=
  match c with
  | .exAllocatePool tag => if o.allocates then ((s.exAllocatePool tag).map some id) else (none, s)
  | .exFreePool a tag => orFault s () ((s.exFreePool a tag).map ((), ·))
  | .writeInfo a info => orFault s () ((s.writeInfo a info).map ((), ·))
  | .readInfo a => orFault s ⟨0, 0, [], 0, 0, 0, false⟩ ((s.redirectInfo a).map (·.packet, s))
  | .writePacket _ _ _ => ((), s)
  | .writeRule a data => orFault s () ((s.writeRule a data).map ((), ·))
  | .enqueue a => orFault s .success (s.enqueue a o.keQueryTickCount)
  | .peekBatch count => orFault s (.notFound, []) (s.fillRedirects count)
  | .addRule a => orFault s () ((s.addRule a).map ((), ·))
  | .clearRules => orFault s () (s.clearRules.map ((), ·))
  | .clearQueue => orFault s () (s.clearQueue.map ((), ·))
  | .matchRule process => orFault s RuleActionPermit ((s.matchRule process).map (·.getD RuleActionPermit, s))

/-- Where `IsIPv6`, the last field of a packet that is written, ends. -/
def packetEnd : Nat := 561

/-- Whether a call leaves a buffer. -/
def MemoryCall.overruns (s : DriverMemory) : MemoryCall → Bool
  | .writePacket length i _ => length < sizeofPacket * i + packetEnd
  | .matchRule process => s.matchRule process = some none
  | _ => false

abbrev MemoryProg (α : Type) := Prog MemoryCall MemoryCall.Resp α

namespace MemoryProg

def exAllocatePool (tag : PoolTag) : MemoryProg (Option Addr) := .call (.exAllocatePool tag) pure
def exFreePool (a : Addr) (tag : PoolTag) : MemoryProg Unit := .call (.exFreePool a tag) pure
def writeInfo (a : Addr) (info : RedirectInfo) : MemoryProg Unit := .call (.writeInfo a info) pure
def readInfo (a : Addr) : MemoryProg RedirectDataPacket := .call (.readInfo a) pure
def writePacket (length i : Nat) (packet : RedirectDataPacket) : MemoryProg Unit := .call (.writePacket length i packet) pure
def writeRule (a : Addr) (data : RuleData) : MemoryProg Unit := .call (.writeRule a data) pure
def enqueue (a : Addr) : MemoryProg NtStatus := .call (.enqueue a) pure
def peekBatch (count : BitVec 32) : MemoryProg (NtStatus × List Addr) := .call (.peekBatch count) pure
def addRule (a : Addr) : MemoryProg Unit := .call (.addRule a) pure
def clearRules : MemoryProg Unit := .call .clearRules pure
def clearQueue : MemoryProg Unit := .call .clearQueue pure
def matchRule (process : ProcessIdentity) : MemoryProg RuleActionType := .call (.matchRule process) pure

end MemoryProg

open MemoryProg

/-- What an operation ends with: the packets in its system buffer, and those
that its caller has. -/
structure DriverResult where
  status : NtStatus := .success
  written : List RedirectDataPacket := []
  received : List RedirectDataPacket := []
  deriving Repr, DecidableEq

/-- `TcpRedirectClassify`: what it does with the memory. The calls of WFP are
answered as `calls` says. -/
def classifyMemory (redirectHandle : BitVec 64) (values : ConnectValues) (calls : CalloutCalls) (classifyOut : ClassifyOut) :
    MemoryProg DriverResult :=
  match identifyProcess values.metaValues calls.psLookupProcessByProcessId with
  | none => pure {}
  | some processId => do
    let action ← matchRule processId
    if action ≠ RuleActionRedirect then pure {}
    else if redirectHandle ≠ 0 ∧ values.classifyContext = true ∧ calls.fwpsAcquireClassifyHandle = true then
      match calls.fwpsAcquireWritableLayerDataPointer { classifyOut with actionType := FWP_ACTION_PERMIT } with
      | (true, some _, _) => do
        match ← exAllocatePool .nDrT with
        | none => pure {}
        | some redirectInfo => do
          writeInfo redirectInfo (newRedirectInfo values processId)
          let status ← enqueue redirectInfo
          if status.ntSuccess then pure { status }
          else do
            exFreePool redirectInfo .nDrT
            pure { status }
      | _ => pure {}
    else pure {}

/-- The two loops of `IOCTL_REDIRECTOR_GET_PENDING` over the batch; the first one
is at packet `i`. -/
def readBatch (length : Nat) : Nat → List Addr → MemoryProg (List RedirectDataPacket)
  | _, [] => pure []
  | i, a :: batch => do
    let packet ← readInfo a
    writePacket length i packet
    let packets ← readBatch length (i + 1) batch
    pure (packet :: packets)

def freeBatch : List Addr → MemoryProg Unit
  | [] => pure ()
  | a :: batch => do
    exFreePool a .nDrT
    freeBatch batch

/-- `IOCTL_REDIRECTOR_GET_PENDING`. -/
def getPendingMemory (inputLength outputLength : BitVec 32) : MemoryProg DriverResult := do
  let length := systemBufferLength IOCTL_REDIRECTOR_GET_PENDING inputLength outputLength
  let maxCount := outputLength / BitVec.ofNat 32 sizeofPacket
  let maxCount := if 64#32 < maxCount then 64 else maxCount
  let (dequeueStatus, redirects) ← peekBatch maxCount
  if dequeueStatus.ntSuccess then do
    let packets ← readBatch length 0 redirects
    freeBatch redirects
    pure { written := packets, received := copiedToCaller IOCTL_REDIRECTOR_GET_PENDING packets }
  else pure { status := .notFound }

/-- `RedirectService_AddRule`. -/
def addRuleMemory (rule : RuleData) : MemoryProg NtStatus := do
  match ← exAllocatePool .lRrT with
  | none => pure .insufficientResources
  | some newRule => do
    writeRule newRule rule
    addRule newRule
    pure .success

/-- The loop of `IOCTL_REDIRECTOR_SET_RULES`. -/
def addRules : List RuleData → MemoryProg NtStatus
  | [] => pure .success
  | rule :: rules => do
    let status ← addRuleMemory rule
    if status.ntSuccess then addRules rules else pure status

/-- `IOCTL_REDIRECTOR_SET_RULES`, with the rules of its buffer. -/
def setRulesMemory (rules : List RuleData) : MemoryProg DriverResult :=
  if rules.isEmpty then pure {}
  else do
    clearRules
    let status ← addRules rules
    pure { status }

/-- `RedirectService_Cleanup`. -/
def cleanupMemory : MemoryProg DriverResult := do
  clearQueue
  clearRules
  pure {}

/-- What a thread can be made to do. -/
inductive DriverOp where
  | classify (redirectHandle : BitVec 64) (values : ConnectValues) (calls : CalloutCalls) (classifyOut : ClassifyOut)
  | getPending (inputLength outputLength : BitVec 32)
  | setRules (rules : List RuleData)
  | clearRules
  | cleanup

def DriverOp.program : DriverOp → MemoryProg DriverResult
  | .classify redirectHandle values calls classifyOut => classifyMemory redirectHandle values calls classifyOut
  | .getPending inputLength outputLength => getPendingMemory inputLength outputLength
  | .setRules rules => setRulesMemory rules
  | .clearRules => do
    MemoryProg.clearRules
    pure {}
  | .cleanup => cleanupMemory

abbrev DriverState := Threads MemoryCall MemoryCall.Resp DriverMemory DriverResult

/-- Whether the next call of a thread leaves a buffer. -/
def DriverState.overruns (s : DriverState) : ThreadsInput DriverOp MemoryChoice → Bool
  | .start _ _ => false
  | .step t _ =>
    match s.threads t with
    | .call c _ => c.overruns s.shared
    | _ => false

/-- A step of a thread; none comes after one that left a buffer. -/
def driverStep (i : ThreadsInput DriverOp MemoryChoice) (s : DriverState) :
    DriverState × Option (ThreadsEvent MemoryCall MemoryCall.Resp) :=
  if s.shared.overran then (s, none)
  else if s.overruns i then ({ s with shared := { s.shared with overran := true } }, none)
  else Threads.step DriverOp.program MemoryCall.answer i s

/-- The driver has been initialized and nothing else. -/
def driverStart : DriverState := .start .initialized {}

end TR.Impl
