import TcpRedirector.TCB.Run
import TcpRedirector.Impl.Relay.OneWayRelay

/-!
# A bridge and its two threads

`StartBridge` of `TcpRelayServer.h`. The thread that calls it counts the pair,
creates the UP thread, runs the DN direction itself, waits for the UP thread
and takes the pair off the count; the reference count of the pair decides
which direction closes the sockets. A step is one action of one of the two
threads; what the bridge did is kept in a log.
-/

namespace TR.Impl

inductive Direction where
  | up | dn
  deriving Repr, DecidableEq

def Direction.config (client proxy : Sock) : Direction → OneWayConfig
  | .up => upConfig client proxy
  | .dn => dnConfig client proxy

/-- The next action of the thread that runs `StartBridge`. -/
inductive BridgeState where
  /-- `m_activePairs.fetch_add(1)`. -/
  | count
  /-- `CreateThread` for the UP direction. -/
  | createUp
  /-- Without an UP thread the sockets are closed. -/
  | abortClient
  | abortProxy
  /-- `OneWayRelay(dn_cfg)`, and once it has returned, `WaitForSingleObject`. -/
  | relayDn (dn : OneWayState)
  /-- `m_activePairs.fetch_sub(1)`. -/
  | uncount
  | done
  deriving Repr, DecidableEq

structure Bridge where
  client : Sock
  proxy : Sock
  main : BridgeState
  /-- The UP thread, once it is created. -/
  up : Option OneWayState
  /-- `pair->refs`. -/
  refs : BitVec 32
  deriving Repr, DecidableEq

/-- What a thread of the bridge does in a step. -/
inductive BridgeAct where
  | fetchAddPairs
  | fetchSubPairs
  | createThread (created : Bool)
  /-- `WaitForSingleObject` returned. -/
  | waited
  /-- `closesocket` of `StartBridge` itself. -/
  | abort (s : Sock)
  /-- A call of one direction. -/
  | relay (d : Direction) (e : Answered Call Call.Resp)

/-- One of the two threads, with what the system answers it. -/
structure BridgeInput where
  thread : Direction
  created : Bool := true
  answer : (c : Call) → c.Resp

namespace Bridge

/-- `StartBridge` is called. -/
def start (client proxy : Sock) : Bridge := ⟨client, proxy, .count, none, 2⟩

/-- A call of a direction: where it leads, the call with its answer and the
references left. `InterlockedDecrement` answers the new count. -/
def relayCall (b : Bridge) (d : Direction) (answer : (c : Call) → c.Resp) (s : OneWayState) :
    Option (OneWayState × Answered Call Call.Resp × BitVec 32) :=
  match oneWayRelay (d.config b.client b.proxy) s with
  | none => none
  | some ⟨.decrementRefs, k⟩ => some (k (b.refs - 1), ⟨.decrementRefs, b.refs - 1⟩, b.refs - 1)
  | some ⟨c, k⟩ => some (k (answer c), ⟨c, answer c⟩, b.refs)

/-- The step of a thread; none if it has nothing to do. -/
def step (b : Bridge) (i : BridgeInput) : Option (Bridge × BridgeAct) :=
  match i.thread with
  | .up =>
    match b.up with
    | none => none
    | some s => (b.relayCall .up i.answer s).map fun r => ({ b with up := some r.1, refs := r.2.2 }, .relay .up r.2.1)
  | .dn =>
    match b.main with
    | .count => some ({ b with main := .createUp }, .fetchAddPairs)
    | .createUp =>
      if i.created then some ({ b with main := .relayDn (.recv 0), up := some (.recv 0) }, .createThread true)
      else some ({ b with main := .abortClient }, .createThread false)
    | .abortClient => some ({ b with main := .abortProxy }, .abort b.client)
    | .abortProxy => some ({ b with main := .uncount }, .abort b.proxy)
    | .relayDn .done => if b.up = some .done then some ({ b with main := .uncount }, .waited) else none
    | .relayDn s =>
      (b.relayCall .dn i.answer s).map fun r => ({ b with main := .relayDn r.1, refs := r.2.2 }, .relay .dn r.2.1)
    | .uncount => some ({ b with main := .done }, .fetchSubPairs)
    | .done => none

end Bridge

/-- `m_activePairs` after the action. -/
def BridgeAct.pairs (n : BitVec 32) : BridgeAct → BitVec 32
  | .fetchAddPairs => n + 1
  | .fetchSubPairs => n - 1
  | _ => n

/-- A bridge, `m_activePairs` and what the bridge has done. -/
structure BridgeRun where
  bridge : Bridge
  activePairs : BitVec 32
  log : List BridgeAct

/-- A step of a run; a thread that has nothing to do waits. -/
def bridgeStep (i : BridgeInput) (s : BridgeRun) : BridgeRun × Unit :=
  match s.bridge.step i with
  | none => (s, ())
  | some (b, a) => (⟨b, a.pairs s.activePairs, s.log ++ [a]⟩, ())

end TR.Impl
