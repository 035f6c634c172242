import TcpRedirector.Impl.Capture.CheckProcessRule

/-!
# The walk up the process tree

Step 6 of `CheckProcessRule`, one comparison at a time: the outer loop over
the ancestors, and for each of them the inner loop over the snapshot.
-/

namespace TR.Impl

/-- Where the walk stands. -/
inductive Walk where
  /-- At `while (currentPid != 0 && depth < 10)`. -/
  | whileTest (currentPid : BitVec 32) (depth : Nat)
  /-- In the `do`, with `Process32FirstW` and `Process32NextW` still to give these. -/
  | scan (currentPid : BitVec 32) (depth : Nat) (entries : List ProcessEntry)
  | returned (action : Action)
  deriving Repr, DecidableEq

/-- One step of the walk over a snapshot. -/
def walkStep (c : Capture) (snapshot : List ProcessEntry) : Walk → Walk
  | .whileTest currentPid depth =>
    if currentPid ≠ 0 ∧ depth < 10 then .scan currentPid depth snapshot else .returned .direct
  | .scan _ _ [] => .returned .direct
  | .scan currentPid depth (pe :: entries) =>
    if pe.processId = currentPid then
      if pe.processId = c.targetPid then .returned (if c.proxyConfigured then .proxy else .direct)
      else .whileTest pe.parentProcessId (depth + 1)
    else .scan currentPid depth entries
  | .returned action => .returned action

end TR.Impl
