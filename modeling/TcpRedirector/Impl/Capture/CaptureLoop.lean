import TcpRedirector.TCB.Run
import TcpRedirector.Impl.Capture.CheckProcessRule

/-!
# The capture loop

`CaptureLoop` of `WinDivertCapture.cpp`. An iteration (`iteration`) takes one
packet through the four steps of the source: the bitmap's fast path, a reply
of the relay, a packet of a tracked connection, and a packet nobody knows
yet. Between iterations other threads may replace the proxy, the target and
the rules; the other inputs of a run (`Event`) are those calls. The loop ends
with its list of inputs.
-/

namespace TR.Impl

/-- An IPv4 TCP packet with the fields the loop reads or writes, the headers'
in network byte order. -/
structure Packet where
  srcAddr : BitVec 32
  dstAddr : BitVec 32
  srcPort : BitVec 16
  dstPort : BitVec 16
  syn : Bool := false
  ack : Bool := false
  fin : Bool := false
  rst : Bool := false
  /-- `recvLen`, the length of the whole packet. -/
  recvLen : BitVec 32
  /-- `addr.Outbound`. -/
  outbound : Bool
  deriving Repr, DecidableEq

namespace Packet

/-- `tcpHdr->Fin || tcpHdr->Rst`. -/
def closing (pk : Packet) : Bool := pk.fin || pk.rst

/-- `srcPort` and `dstPort` of the loop. -/
def src (pk : Packet) : BitVec 16 := ntohs pk.srcPort

def dst (pk : Packet) : BitVec 16 := ntohs pk.dstPort

end Packet

/-- 127.0.0.0/8, of an address in host byte order. -/
def isLocalhost (ip : BitVec 32) : Bool := ip >>> 24 == 127#32

def isLocalhostPair (pk : Packet) : Bool := isLocalhost (ntohl pk.srcAddr) && isLocalhost (ntohl pk.dstAddr)

def swapIpAndDirection (pk : Packet) : Packet :=
  { pk with srcAddr := pk.dstAddr, dstAddr := pk.srcAddr, outbound := false }

def modifyDstToRelay (cfg : Config) (pk : Packet) : Packet :=
  let pk := { pk with dstPort := htons cfg.relayPort }
  if isLocalhostPair pk then pk else swapIpAndDirection pk

def restoreFromRelay (t : ConnectionTable) (pk : Packet) : Packet :=
  let pk := match t.get pk.dst with
    | some (_, origDestPort) => { pk with srcPort := htons origDestPort }
    | none => pk
  if isLocalhostPair pk then pk else swapIpAndDirection pk

/-- Where the loop body left an input. -/
inductive Route where
  /-- Not an IPv4 TCP packet, or no packet at all. -/
  | none
  /-- Step 1: sent unchanged, from the bitmap. -/
  | cachedDirect
  /-- Step 2: a reply of the relay, restored. -/
  | restored
  /-- Step 3: a packet of a tracked connection, sent to the relay. -/
  | tracked
  /-- Step 4: judged by `CheckProcessRule`. -/
  | judged (a : Action)
  /-- None of the steps applied: sent unchanged. -/
  | passed
  deriving Repr, DecidableEq

/-- The packet was rewritten towards the relay port. -/
def Route.towardsRelay : Route → Bool
  | .tracked | .judged .proxy => true
  | _ => false

/-- What an iteration did: where it left the packet, the packet it sent and
whether it recomputed the checksums first. -/
structure Outcome where
  route : Route := .none
  sent : Option Packet := none
  modified : Bool := false
  deriving Repr, DecidableEq

namespace System

/-- The closed connection's counters, added to the totals. -/
def account (s : System) (port : BitVec 16) : System :=
  match s.table.getInfo port with
  | some info =>
    { s with capture := { s.capture with
        totalRxBytes := s.capture.totalRxBytes + info.bytesUp
        totalTxBytes := s.capture.totalTxBytes + info.bytesDown } }
  | none => s

def clearPort (s : System) (port : BitVec 16) : System := { s with capture := s.capture.clearPort port }

/-- Step 2: a packet from the relay port. -/
def relayResponse (pk : Packet) (s : System) : System × Outcome :=
  match s.table.get pk.dst with
  | none => (s, ⟨.passed, some pk, false⟩)
  | some _ =>
    let sent := restoreFromRelay s.table pk
    let s := { s with table := s.table.addBytes pk.dst 0 (pk.recvLen.setWidth 64) }
    let s :=
      if pk.closing then
        let s := s.account pk.dst
        let s := { s with table := s.table.remove pk.dst }
        s.clearPort pk.dst
      else s
    (s, ⟨.restored, some sent, true⟩)

/-- Step 3: a packet from a tracked port. -/
def trackedPacket (cfg : Config) (pk : Packet) (s : System) : System × Outcome :=
  let s := { s with table := s.table.addBytes pk.src (pk.recvLen.setWidth 64) 0 }
  let s :=
    if pk.closing then
      let s := s.account pk.src
      let s := { s with table := s.table.remove pk.src }
      let s := if cfg.connectionMonitor then
        { s with monitor := s.monitor.removeConnection (pk.src.setWidth 64) } else s
      let active := s.capture.activeConnections
      let s := { s with capture := { s.capture with
        activeConnections := if 0 < active.toNat then active - 1 else active } }
      s.clearPort pk.src
    else s
  let pk := { pk with dstPort := htons cfg.relayPort }
  let pk := if isLocalhostPair pk then pk else swapIpAndDirection pk
  (s, ⟨.tracked, some pk, true⟩)

/-- Step 4, PROXY: the connection enters the table and the monitor. -/
def startTracking (cfg : Config) (os : Os) (pk : Packet) (v : Verdict) (s : System) : System :=
  let table := s.table.add pk.src pk.srcAddr pk.dstAddr pk.dst v.proxyConfigId
  let named := v.procPath.headD 0 ≠ 0
  let table := if v.pid ≠ 0 ∧ named then table.setProcessInfo pk.src v.pid v.procPath else table
  let monitor :=
    if cfg.connectionMonitor then
      s.monitor.addConnection
        { id := pk.src.setWidth 64, pid := v.pid, processName := if named then v.procPath else [],
          destinationPort := pk.dst, startTime := os.steadyNow }
    else s.monitor
  let capture := s.capture.setPortDecided pk.src
  { s with capture := { capture with redirectsEmitted := capture.redirectsEmitted + 1 }, table, monitor }

/-- Step 4: an outbound packet from an untracked port. -/
def untrackedPacket (cfg : Config) (os : Os) (pk : Packet) (s : System) : System × Outcome :=
  let (v, capture) := s.capture.checkProcessRule cfg os s.rules pk.src
  let s := { s with capture }
  match v.action with
  | .direct => ({ s with capture := s.capture.setPortDirect pk.src }, ⟨.judged .direct, some pk, false⟩)
  | .block => ({ s with capture := s.capture.setPortDecided pk.src }, ⟨.judged .block, none, false⟩)
  | .proxy => (s.startTracking cfg os pk v, ⟨.judged .proxy, some (modifyDstToRelay cfg pk), true⟩)

/-- Steps 2 to 4. -/
def steps (cfg : Config) (os : Os) (pk : Packet) (s : System) : System × Outcome :=
  if pk.src = cfg.relayPort ∧ cfg.connTable then s.relayResponse pk
  else if cfg.connTable ∧ s.table.isTracked pk.src then s.trackedPacket cfg pk
  else if pk.outbound ∧ cfg.connTable ∧ !s.table.isTracked pk.src then s.untrackedPacket cfg os pk
  else (s, ⟨.passed, some pk, false⟩)

/-- One packet through the loop body. -/
def iteration (cfg : Config) (os : Os) (pk : Packet) (s : System) : System × Outcome :=
  if pk.recvLen = 0 then (s, {})
  else
    let s := { s with capture := { s.capture with packetsCaptured := s.capture.packetsCaptured + 1 } }
    if s.capture.isPortDecided pk.src then
      let s := if pk.closing then s.clearPort pk.src else s
      if s.capture.isPortDirect pk.src then (s, ⟨.cachedDirect, some pk, false⟩)
      else s.steps cfg os pk
    else s.steps cfg os pk

end System

/-- The inputs of a run. -/
inductive Event where
  /-- `WinDivertRecv` returned an IPv4 TCP packet. -/
  | packet (os : Os) (pk : Packet)
  /-- It returned another packet, which is sent on unchanged. -/
  | other
  /-- It failed. -/
  | recvFailed
  | setProxyConfig (host : Bytes) (port : BitVec 16)
  | setTargetProcess (exePath : WString)
  | setRules (rules : List Rule)

def step (cfg : Config) : Event → System → System × Outcome
  | .packet os pk, s => s.iteration cfg os pk
  | .other, s => (s, {})
  | .recvFailed, s => (s, {})
  | .setProxyConfig proxyHost proxyPort, s => ({ s with capture := { s.capture with proxyHost, proxyPort } }, {})
  | .setTargetProcess targetProcessPath, s =>
    ({ s with capture := { s.capture with targetProcessPath, targetPid := 0 } }, {})
  | .setRules rules, s => ({ s with rules }, {})

/-- A step of a run of the capture loop. -/
abbrev LoopStep := StepOf System Event Outcome

/-- The system after the loop took the inputs. -/
def captureLoop (cfg : Config) (events : List Event) (s : System) : System := run (step cfg) events s

/-- The steps the loop took. -/
def loopTrace (cfg : Config) (events : List Event) (s : System) : List LoopStep := trace (step cfg) events s

end TR.Impl
