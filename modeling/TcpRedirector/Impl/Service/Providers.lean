import Mathlib.Logic.Function.Basic
import TcpRedirector.Impl.Service.IpcHandler

/-!
# The provider that a reload replaces

The service owns its authentication provider (`m_authProvider` of
`ServiceMain.h`), the relay has a plain pointer to it (`m_authProvider` of
`TcpRelayServer.h`), and each `ConnectionHandler` loads that pointer for every
call on the provider. The reload callback may put another provider in its
place, which deletes the old one, and only then tells the relay. A step is one
access to a pointer, or the begin or the end of a call. The requests come one
after the other, from the thread of the pipe; there are any number of handlers.
-/

namespace TR.Impl.Service

/-- What `ConnectionHandler` calls on the provider. -/
inductive AuthCall where
  | getType
  | createContext
  /-- `ContinueContext`. -/
  | continueContext
  | closeContext
  deriving Repr, DecidableEq

inductive ProviderUse where
  | outside
  /-- The pointer is loaded. -/
  | loaded (p : Nat) (call : AuthCall)
  /-- In the provider's method. -/
  | inside (p : Nat) (call : AuthCall)
  deriving Repr, DecidableEq

structure HandlerUse where
  use : ProviderUse
  /-- The provider on which the handler created its context. -/
  context : Option Nat
  deriving Repr, DecidableEq

/-- Where the reload callback stands. -/
inductive ReloadAt where
  | idle
  /-- `make_unique` has made the new provider. -/
  | made (p : Nat)
  /-- It is the service's; the relay does not know. -/
  | assigned (p : Nat)
  deriving Repr, DecidableEq

structure Providers where
  /-- The providers there are, by their addresses. -/
  objects : Nat → Option AuthProviderType
  service : Option Nat
  relay : Option Nat
  reload : ReloadAt
  handlers : Nat → HandlerUse
  /-- How many providers were deleted. -/
  deleted : Nat
  /-- A deleted provider was used. -/
  fault : Bool
  /-- A context was used with another provider than the one that created it. -/
  misdirected : Bool

namespace Providers

/-- After `Initialize`. -/
def started (provider : Option AuthProviderType) : Providers where
  objects p := if p = 0 then provider else none
  service := provider.map fun _ => 0
  relay := provider.map fun _ => 0
  reload := .idle
  handlers _ := ⟨.outside, none⟩
  deleted := 0
  fault := false
  misdirected := false

/-- `m_authProvider->GetType()` of the service. -/
def serviceType (s : Providers) : Option AuthProviderType := s.service.bind s.objects

/-- A change of the service's pointer deletes what it pointed to. -/
def assign (s : Providers) (p : Nat) : Providers :=
  match s.service with
  | none => { s with service := some p }
  | some old => { s with service := some p, objects := Function.update s.objects old none, deleted := s.deleted + 1 }

/-- Whether a provider for Kerberos is to be made. -/
def replaces (s : Providers) (auth : AuthSettings) : Bool :=
  auth.enabled ∧ (auth.authMode = .kerberosOnly ∨ auth.authMode = .kerberosPreferred) ∧
    s.serviceType ≠ some .kerberosAgent

/-- The next step of the reload callback, with the configuration it has loaded
and the address that `make_unique` finds. -/
def reloadStep (auth : AuthSettings) (new : Nat) (s : Providers) : Providers :=
  match s.reload with
  | .idle =>
    if s.replaces auth ∧ s.objects new = none then
      { s with objects := Function.update s.objects new (some .kerberosAgent), reload := .made new }
    else s
  | .made p => { s.assign p with reload := .assigned p }
  | .assigned p => { s with relay := some p, reload := .idle }

/-- Whether a handler with this context may make the call. -/
def mayCall (context : Option Nat) : AuthCall → Bool
  | .getType => true
  | .createContext => context.isNone
  | .continueContext | .closeContext => context.isSome

/-- What a handler has after the call, which succeeds or not. -/
def contextAfter (p : Nat) (succeeded : Bool) (context : Option Nat) : AuthCall → Option Nat
  | .createContext => if succeeded then some p else none
  | .closeContext => none
  | .getType | .continueContext => context

/-- A handler's call runs code of the provider. -/
def touch (s : Providers) (p : Nat) : Providers := { s with fault := s.fault || (s.objects p).isNone }

/-- The next step of a handler, which makes this call if it is outside. -/
def handlerStep (t : Nat) (call : AuthCall) (succeeded : Bool) (s : Providers) : Providers :=
  let h := s.handlers t
  let next (h' : HandlerUse) (s : Providers) : Providers := { s with handlers := Function.update s.handlers t h' }
  match h.use with
  | .outside =>
    match s.relay with
    | none => s
    | some p => if mayCall h.context call then next ⟨.loaded p call, h.context⟩ s else s
  | .loaded p call =>
    next ⟨.inside p call, h.context⟩
      { s.touch p with misdirected := s.misdirected || (call ≠ .getType ∧ h.context.any (· ≠ p)) }
  | .inside p call => next ⟨.outside, contextAfter p succeeded h.context call⟩ (s.touch p)

end Providers

inductive ProvidersInput where
  /-- A step of the reload callback. -/
  | reload (auth : AuthSettings) (new : Nat)
  | handler (t : Nat) (call : AuthCall) (succeeded : Bool)

def providersStep (i : ProvidersInput) (s : Providers) : Providers × Unit :=
  match i with
  | .reload auth new => (s.reloadStep auth new, ())
  | .handler t call succeeded => (s.handlerStep t call succeeded, ())

end TR.Impl.Service
