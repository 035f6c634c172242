import TcpRedirector.Impl.Relay.Calls

/-!
# One direction of a bridge

`OneWayRelay` of `TcpRelayServer.h`, one state for each call it makes, and
the configurations that `StartBridge` gives its two directions.
-/

namespace TR.Impl

structure OneWayConfig where
  fromSock : Sock
  toSock : Sock
  /-- `pair->sock_client` and `pair->sock_proxy`. -/
  sockClient : Sock
  sockProxy : Sock
  deriving Repr, DecidableEq

/-- `up_cfg` of `StartBridge`. -/
def upConfig (client proxy : Sock) : OneWayConfig := ⟨client, proxy, client, proxy⟩

/-- `dn_cfg`. -/
def dnConfig (client proxy : Sock) : OneWayConfig := ⟨proxy, client, client, proxy⟩

/-- Where a direction stands. -/
inductive OneWayState where
  | recv (totalBytes : BitVec 64)
  /-- `rest` of the `len` bytes received is still to be sent. -/
  | send (rest : Bytes) (len : Nat) (totalBytes : BitVec 64)
  | account (totalBytes : BitVec 64)
  | shutdown
  | release
  | closeClient
  | closeProxy
  | done
  deriving Repr, DecidableEq

/-- `while (sent < len)`: on with the rest, or the next `recv`. -/
def sendRest (rest : Bytes) (len : Nat) (totalBytes : BitVec 64) : OneWayState :=
  if rest.isEmpty then .recv (totalBytes + BitVec.ofNat 64 len) else .send rest len totalBytes

def oneWayRelay (cfg : OneWayConfig) : OneWayState → Option ((c : Call) × (c.Resp → OneWayState))
  | .recv totalBytes => some ⟨.recv cfg.fromSock 131072, fun (r : Option { b : Bytes // b.length ≤ 131072 }) =>
      match r with
      | some buf => if buf.1.isEmpty then .account totalBytes else .send buf.1 buf.1.length totalBytes
      | none => .account totalBytes⟩
  | .send rest len totalBytes => some ⟨.send cfg.toSock rest, fun (r : Option (Fin (rest.length + 1))) =>
      match r with
      | some n => sendRest (rest.drop n) len totalBytes
      | none => .account totalBytes⟩
  | .account totalBytes => some ⟨.fetchAdd totalBytes, fun _ => .shutdown⟩
  | .shutdown => some ⟨.shutdown cfg.toSock, fun _ => .release⟩
  | .release => some ⟨.decrementRefs, fun (r : BitVec 32) => if r = 0 then .closeClient else .done⟩
  | .closeClient => some ⟨.closesocket cfg.sockClient, fun _ => .closeProxy⟩
  | .closeProxy => some ⟨.closesocket cfg.sockProxy, fun _ => .done⟩
  | .done => none

end TR.Impl
