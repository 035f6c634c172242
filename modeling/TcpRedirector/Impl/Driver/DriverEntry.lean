import TcpRedirector.TCB.Prog

/-!
# Loading and unloading the driver

`DriverEntry` and `DriverUnload` of `DriverEntry.c`, with
`IoctlHandler_CreateDevice`, `IoctlHandler_DeleteDevice`,
`WfpCallout_Register` and `WfpCallout_Unregister`. Every call that can fail
may. A handle is none where the code has NULL, or 0 for the id of the callout.
-/

namespace TR.Impl

/-- `g_DeviceObject`, `g_EngineHandle`, `g_redirectHandle` and `g_redirectCalloutId`. -/
structure DriverGlobals where
  deviceObject : Option Nat := none
  engineHandle : Option Nat := none
  redirectHandle : Option Nat := none
  redirectCalloutId : Option Nat := none
  deriving Repr, DecidableEq

inductive KernelCall where
  | redirectServiceInitialize
  | redirectServiceCleanup
  | ioCreateDevice
  | ioDeleteDevice (deviceObject : Nat)
  | ioCreateSymbolicLink
  | ioDeleteSymbolicLink
  /-- With `FWPM_SESSION_FLAG_DYNAMIC`. -/
  | fwpmEngineOpen
  | fwpmEngineClose (engineHandle : Nat)
  | fwpsRedirectHandleCreate
  | fwpsRedirectHandleDestroy (redirectHandle : Nat)
  | fwpsCalloutRegister
  | fwpsCalloutUnregisterById (calloutId : Nat)
  | fwpmCalloutAdd (engineHandle : Nat)
  | fwpmProviderAdd (engineHandle : Nat)
  | fwpmSubLayerAdd (engineHandle : Nat)
  | fwpmFilterAdd (engineHandle : Nat)
  | fwpmFilterDeleteByKey (engineHandle : Nat)
  | fwpmCalloutDeleteByKey (engineHandle : Nat)
  deriving Repr, DecidableEq

/-- What is created, if the call succeeds; for the others of which the status matters, whether they succeed. -/
def KernelCall.Resp : KernelCall → Type
  | .ioCreateDevice | .fwpmEngineOpen | .fwpsRedirectHandleCreate | .fwpsCalloutRegister => Option Nat
  | .ioCreateSymbolicLink | .fwpmCalloutAdd _ | .fwpmProviderAdd _ | .fwpmSubLayerAdd _ | .fwpmFilterAdd _
  | .fwpmFilterDeleteByKey _ | .fwpmCalloutDeleteByKey _ => Bool
  | _ => Unit

abbrev KernelProg := Prog KernelCall KernelCall.Resp

/-- A call of the kernel. -/
def kernel (c : KernelCall) : KernelProg c.Resp := .call c .ret

/-- Whether it succeeds, and `*DeviceObject`. -/
def ioctlHandlerCreateDevice : KernelProg (Bool × Option Nat) := do
  match ← kernel .ioCreateDevice with
  | none => pure (false, none)
  | some (deviceObject : Nat) =>
    let linked : Bool ← kernel .ioCreateSymbolicLink
    if linked then pure (true, some deviceObject)
    else do
      kernel (.ioDeleteDevice deviceObject)
      pure (false, none)

def ioctlHandlerDeleteDevice (deviceObject : Option Nat) : KernelProg Unit :=
  match deviceObject with
  | none => pure ()
  | some deviceObject => do
    kernel .ioDeleteSymbolicLink
    kernel (.ioDeleteDevice deviceObject)

/-- The status of the four additions is not returned. -/
def wfpCalloutRegister (engineHandle : Nat) (g : DriverGlobals) : KernelProg (Bool × DriverGlobals) := do
  match ← kernel .fwpsRedirectHandleCreate with
  | none => pure (false, g)
  | some (redirectHandle : Nat) => do
    match ← kernel .fwpsCalloutRegister with
    | none => do
      kernel (.fwpsRedirectHandleDestroy redirectHandle)
      pure (false, { g with redirectHandle := none })
    | some (calloutId : Nat) => do
      let _ ← kernel (.fwpmCalloutAdd engineHandle)
      let _ ← kernel (.fwpmProviderAdd engineHandle)
      let _ ← kernel (.fwpmSubLayerAdd engineHandle)
      let _ ← kernel (.fwpmFilterAdd engineHandle)
      pure (true, { g with redirectHandle := some redirectHandle, redirectCalloutId := some calloutId })

def wfpCalloutUnregister (engineHandle : Nat) (g : DriverGlobals) : KernelProg DriverGlobals := do
  match g.redirectCalloutId with
  | none => pure ()
  | some calloutId => kernel (.fwpsCalloutUnregisterById calloutId)
  let _ ← kernel (.fwpmFilterDeleteByKey engineHandle)
  let _ ← kernel (.fwpmCalloutDeleteByKey engineHandle)
  match g.redirectHandle with
  | none => pure ()
  | some redirectHandle => kernel (.fwpsRedirectHandleDestroy redirectHandle)
  pure { g with redirectCalloutId := none, redirectHandle := none }

/-- Whether the driver is loaded, and its globals, which are NULL before. -/
def driverEntry : KernelProg (Bool × DriverGlobals) := do
  kernel .redirectServiceInitialize
  let (created, deviceObject) ← ioctlHandlerCreateDevice
  let g : DriverGlobals := { deviceObject }
  if created = false then do
    kernel .redirectServiceCleanup
    pure (false, g)
  else do
    match ← kernel .fwpmEngineOpen with
    | none => do
      ioctlHandlerDeleteDevice g.deviceObject
      kernel .redirectServiceCleanup
      pure (false, { g with deviceObject := none })
    | some (engineHandle : Nat) => do
      let (registered, g) ← wfpCalloutRegister engineHandle { g with engineHandle := some engineHandle }
      if registered = false then do
        kernel (.fwpmEngineClose engineHandle)
        ioctlHandlerDeleteDevice g.deviceObject
        kernel .redirectServiceCleanup
        pure (false, { g with engineHandle := none, deviceObject := none })
      else pure (true, g)

def driverUnload (g : DriverGlobals) : KernelProg DriverGlobals := do
  let g ← match g.engineHandle with
    | none => pure g
    | some engineHandle => do
      let g ← wfpCalloutUnregister engineHandle g
      kernel (.fwpmEngineClose engineHandle)
      pure { g with engineHandle := none }
  let g ← match g.deviceObject with
    | none => pure g
    | some deviceObject => do
      ioctlHandlerDeleteDevice (some deviceObject)
      pure { g with deviceObject := none }
  kernel .redirectServiceCleanup
  pure g

/-- The driver is loaded `n` times, and unloaded each time if the load succeeded. -/
def loads : Nat → KernelProg Unit
  | 0 => pure ()
  | n + 1 => do
    let (loaded, g) ← driverEntry
    if loaded then do
      let _ ← driverUnload g
      loads n
    else loads n

end TR.Impl
