import TcpRedirector.Impl.Driver.RedirectService

/-!
# The callout of the driver

`TcpRedirectClassify` of `WfpCallout.c`, which decides about a connection, and
`RedirectService_IdentifyProcess`. What the calls out of the driver return is
an input. Only `NT_SUCCESS` of their status is read.
-/

namespace TR.Impl

/-! ## The process -/

/-- What the kernel knows of a process: its image's name (none for a NULL) and
its image's path (none if `SeLocateProcessImageName` fails). -/
structure KernelProcess where
  imageFileName : Option WString
  imagePath : Option WString
  deriving Repr, DecidableEq

/-- A string copied into an array of `n` zeros, all but the last character of
it: what is read up to the terminator. -/
def copyName (n : Nat) (s : Option WString) : WString := ((s.getD []).take (n - 1)).takeWhile (· ≠ 0)

def MAX_PROCESS_PATH_LENGTH : Nat := 260

/-- `RedirectService_IdentifyProcess`, with the `processId` of the metadata
(none without metadata); none if it fails. -/
def identifyProcess (metaValues : Option (BitVec 64)) (psLookupProcessByProcessId : BitVec 64 → Option KernelProcess) :
    Option ProcessIdentity :=
  match metaValues with
  | none => none
  | some pid =>
    match psLookupProcessByProcessId pid with
    | none => none
    | some process => some ⟨pid, copyName 64 process.imageFileName, copyName MAX_PROCESS_PATH_LENGTH process.imagePath⟩

/-! ## The classification -/

def FWP_ACTION_PERMIT : BitVec 64 := 0

def FWP_ACTION_BLOCK : BitVec 64 := 1

/-- `FWPS_CLASSIFY_OUT`. -/
structure ClassifyOut where
  actionType : BitVec 64
  outFlags : BitVec 32
  reserved : BitVec 32
  rights : BitVec 32
  deriving Repr, DecidableEq

/-- `FWPS_CONNECT_REQUEST`. -/
structure ConnectRequest where
  localAddress : BitVec 64
  localPort : BitVec 16
  remotePort : BitVec 16
  localAddressV6 : List (BitVec 64)
  remoteAddressV6 : List (BitVec 64)
  ipVersion : BitVec 32
  remoteAddressFamily : BitVec 16
  redirectHandle : BitVec 64
  flags : BitVec 32
  deriving Repr, DecidableEq

/-- What the callout reads of the driver: `RulesList` and the queue of
`g_RedirectService`, and `g_redirectHandle`, NULL if 0. -/
structure Callout where
  rulesList : List RuleEntry
  redirectService : RedirectService
  redirectHandle : BitVec 64
  deriving Repr, DecidableEq

/-- The connection: the remote address and port of the fixed values, the
metadata, and whether there is a context. -/
structure ConnectValues where
  remoteAddr : BitVec 32
  remotePort : BitVec 16
  metaValues : Option (BitVec 64)
  classifyContext : Bool
  deriving Repr, DecidableEq

/-- What the calls of one classification return. -/
structure CalloutCalls where
  psLookupProcessByProcessId : BitVec 64 → Option KernelProcess
  /-- Whether it succeeds. -/
  fwpsAcquireClassifyHandle : Bool
  /-- Whether it succeeds, with the request (none for a NULL), and `classifyOut` as it leaves it. -/
  fwpsAcquireWritableLayerDataPointer : ClassifyOut → Bool × Option ConnectRequest × ClassifyOut
  /-- Whether `ExAllocatePool2` returns memory. -/
  exAllocatePool : Bool
  keQueryTickCount : BitVec 64

/-- What a classification leaves: the queue, its decision, and the request
given to `FwpsApplyModifiedLayerData0`, none without this call. -/
structure Classified where
  redirectService : RedirectService
  classifyOut : ClassifyOut
  applied : Option ConnectRequest
  deriving Repr, DecidableEq

/-- The entry for the connection: zeros but for these fields. -/
def newRedirectInfo (values : ConnectValues) (processId : ProcessIdentity) : RedirectInfo where
  processId := processId.processId
  originalAddressV4 := values.remoteAddr
  originalPort := values.remotePort
  isIPv6 := false
  processPath := processId.processPath

/-- From `ExAllocatePool2` on, up to `FwpsApplyModifiedLayerData0`. -/
def queueRedirect (g : Callout) (values : ConnectValues) (calls : CalloutCalls) (processId : ProcessIdentity)
    (connectRequest : ConnectRequest) (classifyOut : ClassifyOut) : Classified :=
  if calls.exAllocatePool then
    let redirectInfo := newRedirectInfo values processId
    let connectRequest := { connectRequest with redirectHandle := g.redirectHandle }
    let (redirectService, status, _) := g.redirectService.enqueue (some redirectInfo) calls.keQueryTickCount
    if status.ntSuccess then
      ⟨redirectService, { classifyOut with actionType := FWP_ACTION_PERMIT }, some connectRequest⟩
    else ⟨redirectService, classifyOut, some connectRequest⟩
  else ⟨g.redirectService, classifyOut, some connectRequest⟩

/-- `TcpRedirectClassify`. -/
def tcpRedirectClassify (g : Callout) (values : ConnectValues) (calls : CalloutCalls) (classifyOut : ClassifyOut) :
    Classified :=
  let classifyOut := { classifyOut with actionType := FWP_ACTION_PERMIT }
  match identifyProcess values.metaValues calls.psLookupProcessByProcessId with
  | none => ⟨g.redirectService, classifyOut, none⟩
  | some processId =>
    let action := driverMatchRule g.rulesList processId
    if action ≠ RuleActionRedirect then ⟨g.redirectService, classifyOut, none⟩
    else if g.redirectHandle ≠ 0 ∧ values.classifyContext = true then
      if calls.fwpsAcquireClassifyHandle then
        match calls.fwpsAcquireWritableLayerDataPointer classifyOut with
        | (true, some connectRequest, classifyOut) => queueRedirect g values calls processId connectRequest classifyOut
        | (_, _, classifyOut) => ⟨g.redirectService, classifyOut, none⟩
      else ⟨g.redirectService, classifyOut, none⟩
    else ⟨g.redirectService, classifyOut, none⟩

end TR.Impl
