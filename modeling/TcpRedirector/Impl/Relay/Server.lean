import TcpRedirector.Impl.Relay.Bridge
import TcpRedirector.Impl.Relay.ConnectionHandler

/-!
# The relay server

`AcceptLoop` and `Stop` of `TcpRelayServer.h` with the connections they start
and wait for. Each connection has a detached handler thread, which runs the
bridge once the handshake is over; the bridge adds its UP thread. The handlers
share `m_lastAuthToken` and the bridges `m_activePairs`. A step is one action
of one thread. The log keeps what the connections do, what `Stop` reads of
`m_activePairs` and its `WSACleanup`.
-/

namespace TR.Impl

/-- The threads of an accepted connection. -/
inductive Connection where
  /-- `ConnectionHandler`, up to `StartBridge`. -/
  | handler (p : RelayProg Unit)
  /-- In `StartBridge`; `k` is what the handler does after it. -/
  | bridging (b : Bridge) (k : RelayProg Unit)

inductive ConnectionAct where
  | call (e : Answered Call Call.Resp)
  | bridge (a : BridgeAct)

/-- Winsock is called. -/
def Call.isSocketOp : Call → Bool
  | .getaddrinfo _ | .freeaddrinfo | .socket | .setsockopt _ _ _ | .connect _ _ _ | .send _ _ | .recv _ _ | .shutdown _
  | .closesocket _ => true
  | _ => false

def ConnectionAct.isSocketOp : ConnectionAct → Bool
  | .call e => e.1.isSocketOp
  | .bridge (.abort _) => true
  | .bridge (.relay _ e) => e.1.isSocketOp
  | .bridge _ => false

/-- What a handler's call is answered: a read of `m_lastAuthToken` with its value. -/
def answerWith (lastAuthToken : Bytes) (answer : (c : Call) → c.Resp) : (c : Call) → c.Resp
  | .readLastAuthToken => lastAuthToken
  | c => answer c

/-- The step of one of its threads; none if that has nothing to do. The
handler enters `StartBridge` and returns from it without an action. -/
def Connection.step (lastAuthToken : Bytes) (i : BridgeInput) : Connection → Option (Connection × Option ConnectionAct)
  | .handler (.call (.startBridge client proxy) k) =>
    match i.thread with
    | .up => none
    | .dn => some (.bridging (.start client proxy) (k ()), none)
  | .handler (.call c k) =>
    match i.thread with
    | .up => none
    | .dn =>
      let r := answerWith lastAuthToken i.answer c
      some (.handler (k r), some (.call ⟨c, r⟩))
  | .handler _ => none
  | .bridging b k =>
    match b.step i with
    | some (b, a) => some (.bridging b k, some (.bridge a))
    | none => if i.thread = .dn ∧ b.main = .done then some (.handler k, none) else none

/-- The next action of `AcceptLoop`. -/
inductive AcceptState where
  /-- `while (m_running)`. -/
  | loop
  | select
  /-- `accept`; `more` if the IPv6 socket is ready too. -/
  | accept (more : Bool)
  /-- `HandleNewConnection`. -/
  | handle (client : Sock) (port : BitVec 16) (more : Bool)
  | close (client : Sock) (more : Bool)
  | exited
  deriving Repr, DecidableEq

/-- The next action of `Stop`. -/
inductive StopState where
  /-- `if (!m_running) return`. -/
  | test
  /-- `m_running = false`. -/
  | clear
  | shutdownListen
  | closeListen
  | shutdownListen6
  | closeListen6
  /-- `m_acceptThread.join()`. -/
  | join
  /-- `i < 50 && m_activePairs.load() > 0`. -/
  | poll (i : Nat)
  | sleep (i : Nat)
  | cleanup
  | returned
  deriving Repr, DecidableEq

inductive ServerAct where
  /-- The thread of a connection is created. -/
  | accepted (ctx : RelayContext)
  | connection (n : Nat) (a : ConnectionAct)
  /-- `m_activePairs` is read. -/
  | poll (pairs : BitVec 32)
  | wsaCleanup

structure Server where
  relay : Relay
  running : Bool
  /-- `m_listenSock6 != INVALID_SOCKET`. -/
  listen6 : Bool
  accept : AcceptState
  stop : StopState
  activePairs : BitVec 32
  lastAuthToken : Bytes
  connections : List Connection
  log : List ServerAct

/-- What the system answers `AcceptLoop`. -/
structure AcceptInput where
  /-- Which sockets `select` finds ready, if any. -/
  ready : Option (Bool × Bool)
  accepted : Option (Sock × BitVec 16)
  table : ConnectionTable
  /-- `CreateThread` succeeds. -/
  created : Bool

/-- One of the threads, with its answers. -/
inductive ServerInput where
  | accept (i : AcceptInput)
  | stop
  | connection (n : Nat) (i : BridgeInput)

namespace Server

/-- After `Start`. -/
def start (m : Relay) (listen6 : Bool) : Server := ⟨m, true, listen6, .loop, .test, 0, [], [], []⟩

/-- On to the IPv6 socket, or the next round. -/
def acceptNext (more : Bool) : AcceptState := if more then .accept false else .loop

def acceptStep (i : AcceptInput) (s : Server) : Server :=
  match s.accept with
  | .loop => { s with accept := if s.running then .select else .exited }
  | .select =>
    match i.ready with
    | none => { s with accept := .loop }
    | some (v4, v6) => { s with accept := if v4 then .accept v6 else acceptNext v6 }
  | .accept more =>
    match i.accepted with
    | none => { s with accept := acceptNext more }
    | some (client, port) => { s with accept := .handle client port more }
  | .handle client port more =>
    match handleNewConnection i.table client port with
    | none => { s with accept := .close client more }
    | some ctx =>
      if i.created then
        { s with
          accept := acceptNext more
          connections := s.connections ++ [.handler (connectionHandler s.relay ctx)]
          log := s.log ++ [.accepted ctx] }
      else { s with accept := .close client more }
  | .close _ more => { s with accept := acceptNext more }
  | .exited => s

def stopStep (s : Server) : Server :=
  match s.stop with
  | .test => { s with stop := if s.running then .clear else .returned }
  | .clear => { s with running := false, stop := .shutdownListen }
  | .shutdownListen => { s with stop := .closeListen }
  | .closeListen => { s with stop := if s.listen6 then .shutdownListen6 else .join }
  | .shutdownListen6 => { s with stop := .closeListen6 }
  | .closeListen6 => { s with stop := .join }
  | .join => if s.accept = .exited then { s with stop := .poll 0 } else s
  | .poll i =>
    if i < 50 then
      { s with stop := if 0 < s.activePairs then .sleep i else .cleanup, log := s.log ++ [.poll s.activePairs] }
    else { s with stop := .cleanup }
  | .sleep i => { s with stop := .poll (i + 1) }
  | .cleanup => { s with stop := .returned, log := s.log ++ [.wsaCleanup] }
  | .returned => s

/-- `m_activePairs` after an action of a connection. -/
def pairs (n : BitVec 32) : ConnectionAct → BitVec 32
  | .bridge a => a.pairs n
  | .call _ => n

/-- `m_lastAuthToken` after it. -/
def token (t : Bytes) : ConnectionAct → Bytes
  | .call ⟨.writeLastAuthToken t', _⟩ => t'
  | _ => t

def connectionStep (n : Nat) (i : BridgeInput) (s : Server) : Server :=
  match s.connections[n]? with
  | none => s
  | some c =>
    match c.step s.lastAuthToken i with
    | none => s
    | some (c, none) => { s with connections := s.connections.set n c }
    | some (c, some a) =>
      { s with
        connections := s.connections.set n c
        activePairs := pairs s.activePairs a
        lastAuthToken := token s.lastAuthToken a
        log := s.log ++ [.connection n a] }

end Server

def serverStep (i : ServerInput) (s : Server) : Server × Unit :=
  match i with
  | .accept i => (s.acceptStep i, ())
  | .stop => (s.stopStep, ())
  | .connection n i => (s.connectionStep n i, ())

end TR.Impl
