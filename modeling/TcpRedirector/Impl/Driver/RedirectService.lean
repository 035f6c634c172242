import TcpRedirector.TCB.Bytes

/-!
# The redirect service of the driver

`RedirectService.c` and the requests `GET_PENDING` and `SET_RULES` of
`IoctlHandler.c`: the queue of redirects that user mode fetches, and the rules
of the callout. A critical section is one step. What the I/O manager does with
the buffers of a request follows from the method in its control code.
-/

namespace TR.Impl

/-- `NTSTATUS`, as far as the service returns it. -/
inductive NtStatus where
  | success | insufficientResources | notFound | invalidParameter
  deriving Repr, DecidableEq

/-- `NT_SUCCESS`. -/
def NtStatus.ntSuccess (status : NtStatus) : Bool := status = .success

inductive RedirectStatus where
  | pending | acknowledged | completed | failed | timedOut
  deriving Repr, DecidableEq

/-- `REDIRECT_INFO`. -/
structure RedirectInfo where
  redirectId : BitVec 64 := 0
  processId : BitVec 64
  processPath : WString
  originalAddressV4 : BitVec 32
  originalPort : BitVec 16
  redirectLocalPort : BitVec 16 := 0
  isIPv6 : Bool := false
  status : RedirectStatus := .pending
  timestamp : BitVec 64 := 0
  deriving Repr, DecidableEq

/-- `REDIRECT_DATA_PACKET`. -/
structure RedirectDataPacket where
  redirectId : BitVec 64
  processId : BitVec 64
  processPath : WString
  originalAddressV4 : BitVec 32
  originalPort : BitVec 16
  redirectLocalPort : BitVec 16
  isIPv6 : Bool
  deriving Repr, DecidableEq

def RedirectInfo.packet (info : RedirectInfo) : RedirectDataPacket :=
  ⟨info.redirectId, info.processId, info.processPath, info.originalAddressV4, info.originalPort, info.redirectLocalPort,
    info.isIPv6⟩

/-- `sizeof(REDIRECT_DATA_PACKET)`. -/
def sizeofPacket : Nat := 568

/-! ## The buffers of a request -/

def METHOD_BUFFERED : BitVec 32 := 0

def METHOD_OUT_DIRECT : BitVec 32 := 2

def METHOD_NEITHER : BitVec 32 := 3

def FILE_ANY_ACCESS : BitVec 32 := 0

/-- `CTL_CODE`. -/
def ctlCode (deviceType function method access : BitVec 32) : BitVec 32 :=
  (deviceType <<< 16) ||| (access <<< 14) ||| (function <<< 2) ||| method

/-- `METHOD_FROM_CTL_CODE`. -/
def methodFromCtlCode (code : BitVec 32) : BitVec 32 := code &&& 3

def IOCTL_REDIRECTOR_BASE : BitVec 32 := 0x8000

def IOCTL_REDIRECTOR_GET_PENDING : BitVec 32 := ctlCode IOCTL_REDIRECTOR_BASE 0x800 METHOD_OUT_DIRECT FILE_ANY_ACCESS

/-- The bytes of `Irp->AssociatedIrp.SystemBuffer`, which is NULL if there are
none. The direct methods have it for the input only; the caller's output buffer
is then what `Irp->MdlAddress` describes. -/
def systemBufferLength (code inputLength outputLength : BitVec 32) : Nat :=
  if methodFromCtlCode code = METHOD_NEITHER then 0
  else if methodFromCtlCode code = METHOD_BUFFERED then max inputLength.toNat outputLength.toNat
  else inputLength.toNat

/-- What of the packets in the system buffer comes to the caller when the
request completes: only METHOD_BUFFERED copies it back. -/
def copiedToCaller (code : BitVec 32) (packets : List RedirectDataPacket) : List RedirectDataPacket :=
  if methodFromCtlCode code = METHOD_BUFFERED then packets else []

/-! ## The queue -/

def MAX_REDIRECT_QUEUE_SIZE : BitVec 32 := 4096

/-- `REDIRECT_SERVICE`: the queue and its counters. -/
structure RedirectService where
  redirectQueue : List RedirectInfo
  queueCount : BitVec 32
  queueMaxCount : BitVec 32
  nextRedirectId : BitVec 32
  totalRedirects : BitVec 64
  failedRedirects : BitVec 64
  deriving Repr, DecidableEq

namespace RedirectService

/-- `RedirectService_Initialize`. -/
def initialized : RedirectService where
  redirectQueue := []
  queueCount := 0
  queueMaxCount := MAX_REDIRECT_QUEUE_SIZE
  nextRedirectId := 1
  totalRedirects := 0
  failedRedirects := 0

/-- The status, and the `Info` as the call leaves it; none for a NULL. -/
def enqueue (s : RedirectService) (info : Option RedirectInfo) (tickCount : BitVec 64) :
    RedirectService × NtStatus × Option RedirectInfo :=
  match info with
  | none => (s, .invalidParameter, none)
  | some info =>
    if s.queueMaxCount.sle s.queueCount then
      ({ s with failedRedirects := s.failedRedirects + 1 }, .insufficientResources, some info)
    else
      let id := s.nextRedirectId + 1
      let info := { info with redirectId := id.signExtend 64, status := .pending, timestamp := tickCount }
      ({ s with
          nextRedirectId := id
          redirectQueue := s.redirectQueue ++ [info]
          queueCount := s.queueCount + 1
          totalRedirects := s.totalRedirects + 1 }, .success, some info)

/-- The entry that `*Info` is set to; `out` is false for a NULL. -/
def dequeue (s : RedirectService) (out : Bool) : RedirectService × NtStatus × Option RedirectInfo :=
  if out then
    match s.redirectQueue with
    | [] => (s, .notFound, none)
    | info :: queue => ({ s with redirectQueue := queue, queueCount := s.queueCount - 1 }, .success, some info)
  else (s, .invalidParameter, none)

/-- The loop of `RedirectService_PeekBatch`, with `n` entries still to come. -/
def peekLoop (s : RedirectService) : Nat → RedirectService × List RedirectInfo
  | 0 => (s, [])
  | n + 1 =>
    match s.redirectQueue with
    | [] => (s, [])
    | info :: queue =>
      let (s, batch) := peekLoop { s with redirectQueue := queue, queueCount := s.queueCount - 1 } n
      (s, info :: batch)

def peekBatch (s : RedirectService) (count : BitVec 32) : RedirectService × NtStatus × List RedirectInfo :=
  let (s, batch) := s.peekLoop count.toNat
  (s, if batch.isEmpty then .notFound else .success, batch)

/-- `IOCTL_REDIRECTOR_GET_PENDING`; the packets are those written to `outputBuffer`,
which is the system buffer. -/
def getPending (s : RedirectService) (outputLength : BitVec 32) : RedirectService × NtStatus × List RedirectDataPacket :=
  let maxCount := outputLength / BitVec.ofNat 32 sizeofPacket
  let maxCount := if 64#32 < maxCount then 64 else maxCount
  let (s, dequeueStatus, redirects) := s.peekBatch maxCount
  if dequeueStatus.ntSuccess then (s, .success, redirects.map (·.packet)) else (s, .notFound, [])

end RedirectService

/-- The calls of the queue. -/
inductive QueueInput where
  | enqueue (info : Option RedirectInfo) (tickCount : BitVec 64)
  | dequeue (out : Bool)
  | getPending (outputLength : BitVec 32)

inductive QueueOutput where
  | enqueued (status : NtStatus) (info : Option RedirectInfo)
  | dequeued (status : NtStatus) (info : Option RedirectInfo)
  /-- `received` is what the caller has in its buffer when the request is complete. -/
  | pending (status : NtStatus) (written received : List RedirectDataPacket)
  deriving Repr, DecidableEq

def queueStep (i : QueueInput) (s : RedirectService) : RedirectService × QueueOutput :=
  match i with
  | .enqueue info tickCount =>
    let (s, status, info) := s.enqueue info tickCount
    (s, .enqueued status info)
  | .dequeue out =>
    let (s, status, info) := s.dequeue out
    (s, .dequeued status info)
  | .getPending outputLength =>
    let (s, status, packets) := s.getPending outputLength
    (s, .pending status packets (copiedToCaller IOCTL_REDIRECTOR_GET_PENDING packets))

/-! ## Rules -/

/-- `RULE_ACTION_TYPE`: an enumeration, but a buffer from user mode can hold any
number there. -/
abbrev RuleActionType := BitVec 32

def RuleActionPermit : RuleActionType := 0

def RuleActionRedirect : RuleActionType := 1

def RuleActionBlock : RuleActionType := 2

/-- `RULE_ENTRY`, with the pattern up to its terminator. -/
structure RuleEntry where
  ruleId : BitVec 32
  action : RuleActionType
  isWildcard : Bool
  isPathRule : Bool
  pattern : WString
  priority : BitVec 32
  deriving Repr, DecidableEq

/-- `PROCESS_IDENTITY`. -/
structure ProcessIdentity where
  processId : BitVec 64
  processName : WString
  processPath : WString
  deriving Repr, DecidableEq

/-- Whether the loop of `RedirectService_MatchRule` stops at the rule. -/
def RuleEntry.hits (rule : RuleEntry) (process : ProcessIdentity) : Bool :=
  if rule.isWildcard then true
  else if rule.isPathRule then (find rule.pattern process.processPath).isSome
  else (find rule.pattern process.processName).isSome

/-- `RedirectService_MatchRule`. -/
def driverMatchRule (rules : List RuleEntry) (process : ProcessIdentity) : RuleActionType :=
  match rules.find? (·.hits process) with
  | some rule => rule.action
  | none => RuleActionPermit

/-- Where `IOCTL_REDIRECTOR_SET_RULES` stands. -/
inductive SetRules where
  /-- Before `RedirectService_ClearRules`. -/
  | clear (rules : List RuleEntry)
  /-- Before the `RedirectService_AddRule` of each of these. -/
  | add (rules : List RuleEntry)
  | returned (status : NtStatus)
  deriving Repr, DecidableEq

/-- The request with this buffer, which holds `ruleCount` rules. -/
def SetRules.start (rules : List RuleEntry) : SetRules := if rules.isEmpty then .returned .success else .clear rules

/-- `RulesList` and `RulesCount`, and the request in progress. -/
structure DriverRules where
  rulesList : List RuleEntry
  rulesCount : BitVec 32
  request : SetRules
  deriving Repr, DecidableEq

inductive RulesInput where
  /-- The next step of the request; `allocated` is the outcome of the pool allocation. -/
  | setRules (allocated : Bool)
  | matchRule (process : ProcessIdentity)

/-- A critical section under `RulesLock`; the output is what `MatchRule` returns. -/
def rulesStep (i : RulesInput) (s : DriverRules) : DriverRules × Option RuleActionType :=
  match i with
  | .matchRule process => (s, some (driverMatchRule s.rulesList process))
  | .setRules allocated =>
    match s.request with
    | .clear rules => (⟨[], 0, .add rules⟩, none)
    | .add [] => ({ s with request := .returned .success }, none)
    | .add (rule :: rules) =>
      if allocated then (⟨s.rulesList ++ [rule], s.rulesCount + 1, .add rules⟩, none)
      else ({ s with request := .returned .insufficientResources }, none)
    | .returned _ => (s, none)

end TR.Impl
