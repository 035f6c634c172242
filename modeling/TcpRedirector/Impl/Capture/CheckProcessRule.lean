import TcpRedirector.Impl.Capture.State

/-!
# Whose packet is it, and what to do with it

`CheckProcessRule` of `WinDivertCapture.cpp`: the owner of a local port
(`findPidBySourcePort`, with its cache), the first matching rule, the
built-in target process and the tree of its descendants.
-/

namespace TR.Impl

/-- The result of `CheckProcessRule`: 0, 1 or 2. -/
inductive Action where
  | direct | proxy | block
  deriving Repr, DecidableEq

/-- The result with the out-parameters. -/
structure Verdict where
  action : Action
  proxyConfigId : BitVec 32 := 0
  pid : BitVec 32 := 0
  procPath : WString := []
  deriving Repr, DecidableEq

def PID_CACHE_TTL_MS : Nat := 30000

namespace Capture

/-- The cache's answer: an entry younger than its time to live. The
difference of the clocks is unsigned. -/
def cachedPid (c : Capture) (os : Os) (srcPort : BitVec 16) : Option (BitVec 32) :=
  match c.pidCache.lookup srcPort with
  | some e => if (os.now - e.timestampMs).toNat < PID_CACHE_TTL_MS then some e.pid else none
  | none => none

end Capture

/-- The owner of the first row with that local port. -/
def scanTcpTable (os : Os) (srcPort : BitVec 16) : Option (BitVec 32) :=
  ((os.tcpTable.getD []).find? fun row => ntohs (row.localPort.setWidth 16) == srcPort).map (·.owningPid)

namespace Capture

/-- The owner of a port (0 if unknown), and the cache after the lookup. -/
def findPidBySourcePort (c : Capture) (os : Os) (srcPort : BitVec 16) : BitVec 32 × Capture :=
  match c.cachedPid os srcPort with
  | some pid => (pid, c)
  | none =>
    match scanTcpTable os srcPort with
    | some pid => (pid, { c with pidCache := c.pidCache.insert srcPort ⟨pid, os.cachedAt⟩ })
    | none => (0, c)

/-- The first process of the snapshot whose file name is the target's. -/
def findTargetPid (c : Capture) (cfg : Config) (os : Os) : BitVec 32 :=
  let isTarget := fun pe : ProcessEntry =>
    pe.processId != 0 && pe.processId != cfg.currentProcessId &&
      match os.imageName pe.processId with
      | some path => wcsicmpEq (shortName path) (shortName c.targetProcessPath)
      | none => false
  match (os.snapshot.getD []).find? isTarget with
  | some pe => pe.processId
  | none => 0

/-- `!(m_proxyHost.empty() || m_proxyPort == 0)`. -/
def proxyConfigured (c : Capture) : Bool := !(c.proxyHost.isEmpty || c.proxyPort == 0)

end Capture

/-- The walk up the process tree, at most `n` processes: whether it meets
`target`. -/
def reachesTarget (snapshot : List ProcessEntry) (target : BitVec 32) : Nat → BitVec 32 → Bool
  | 0, _ => false
  | n + 1, currentPid =>
    if currentPid = 0 then false
    else
      match snapshot.find? fun pe => pe.processId == currentPid with
      | none => false
      | some pe => if pe.processId = target then true else reachesTarget snapshot target n pe.parentProcessId

namespace Capture

/-- `CheckProcessRule` once the owner is known: its steps 2 to 6. -/
def judgePid (c : Capture) (cfg : Config) (os : Os) (rules : List Rule) (pid : BitVec 32) : Verdict × Capture :=
  if pid = cfg.currentProcessId then (⟨.direct, 0, 0, []⟩, c)
  else
    match os.imageName pid with
    | none => (⟨.direct, 0, 0, []⟩, c)
    | some procPath =>
      let proxied : Action := if c.proxyConfigured then .proxy else .direct
      let action := if cfg.ruleEngine then RuleEngine.matchRule rules (shortName procPath) procPath else .direct
      match action with
      | .block => (⟨.block, 0, pid, procPath⟩, c)
      | .proxy => (⟨proxied, 0, pid, procPath⟩, c)
      -- `RuleAction::Direct` falls through, and so does a value without a name.
      | _ =>
        if wcsicmpEq procPath c.targetProcessPath then
          (⟨proxied, 0, pid, procPath⟩, { c with targetPid := pid })
        else if c.targetPid ≠ 0 ∧ reachesTarget (os.snapshot.getD []) c.targetPid 10 pid = true then
          (⟨proxied, 0, pid, procPath⟩, c)
        else (⟨.direct, 0, pid, procPath⟩, c)

/-- `CheckProcessRule`. With an unknown owner it looks for the target process
and says DIRECT. -/
def checkProcessRule (c : Capture) (cfg : Config) (os : Os) (rules : List Rule) (srcPort : BitVec 16) :
    Verdict × Capture :=
  let (pid, c) := c.findPidBySourcePort os srcPort
  if pid = 0 then
    if c.targetPid = 0 ∧ c.targetProcessPath ≠ [] then
      let newPid := c.findTargetPid cfg os
      (⟨.direct, 0, 0, []⟩, if newPid ≠ 0 then { c with targetPid := newPid } else c)
    else (⟨.direct, 0, 0, []⟩, c)
  else c.judgePid cfg os rules pid

end Capture

end TR.Impl
