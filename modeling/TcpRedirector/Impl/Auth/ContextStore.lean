import TcpRedirector.TCB.Run
import TcpRedirector.Impl.Auth.AuthAgent

/-!
# The context store and the agent's threads

`ContextStore.cpp`, and the two threads of `main.cpp` that use it: one handles
the requests of the client, the other removes what has expired. A call of the
store or of SSPI is one step. SSPI names every handle it gives by a new
number, and the log lists what happens to them.
-/

namespace TR.Impl

inductive SspiHandle where
  | credentials (h : CredHandle)
  | context (h : CtxtHandle)
  deriving Repr, DecidableEq

inductive SspiEvent where
  /-- The handle is an argument of `InitializeSecurityContextW`. -/
  | passed (h : SspiHandle)
  /-- `FreeCredentialsHandle` or `DeleteSecurityContext`. -/
  | released (h : SspiHandle)
  /-- `ContextStore::Create` gives the pair this id. -/
  | stored (id : BitVec 64) (credentials : CredHandle) (context : CtxtHandle)
  deriving Repr, DecidableEq

structure ContextEntry where
  credentials : CredHandle
  context : CtxtHandle
  spn : Bytes
  /-- `created_at` and `ttl`, in nanoseconds of the steady clock. -/
  createdAt : Nat
  ttl : Nat
  inUse : Bool
  deriving Repr, DecidableEq

/-- `IsExpired`. -/
def ContextEntry.isExpired (e : ContextEntry) (now : Nat) : Bool := e.ttl < now - e.createdAt

/-- `DestroyContext`. The entry is erased at once by every caller. -/
def ContextEntry.destroyContext (e : ContextEntry) : List SspiEvent :=
  if e.inUse then [.released (.context e.context), .released (.credentials e.credentials)] else []

/-- `kDefaultTtl`: 30 minutes. -/
def kDefaultTtl : Nat := 1800 * 1000000000

structure ContextStore where
  /-- `m_contexts`. -/
  contexts : List (BitVec 64 × ContextEntry) := []
  nextId : BitVec 64 := 1
  deriving Repr, DecidableEq

namespace ContextStore

def find (store : ContextStore) (id : BitVec 64) : Option ContextEntry := (store.contexts.find? (·.1 = id)).map (·.2)

def erase (store : ContextStore) (id : BitVec 64) : ContextStore :=
  { store with contexts := store.contexts.filter (·.1 ≠ id) }

def create (store : ContextStore) (credentials : CredHandle) (context : CtxtHandle) (spn : Bytes) (now : Nat) :
    BitVec 64 × ContextStore :=
  let entry : ContextEntry := ⟨credentials, context, spn, now, kDefaultTtl, true⟩
  (store.nextId, { contexts := (store.nextId, entry) :: (store.erase store.nextId).contexts, nextId := store.nextId + 1 })

def get (store : ContextStore) (id : BitVec 64) (now : Nat) : Option ContextEntry × ContextStore × List SspiEvent :=
  match store.find id with
  | none => (none, store, [])
  | some entry =>
    if entry.isExpired now then (none, store.erase id, entry.destroyContext)
    else (some entry, store, [])

def close (store : ContextStore) (id : BitVec 64) : ContextStore × List SspiEvent :=
  match store.find id with
  | none => (store, [])
  | some entry => (store.erase id, entry.destroyContext)

def cleanupExpired (store : ContextStore) (now : Nat) : ContextStore × List SspiEvent :=
  ({ store with contexts := store.contexts.filter (!·.2.isExpired now) },
    (store.contexts.filter (·.2.isExpired now)).flatMap (·.2.destroyContext))

end ContextStore

/-- The agent. -/
structure Agent where
  store : ContextStore := {}
  /-- The steady clock. -/
  now : Nat := 0
  /-- The next number of a handle. -/
  nextHandle : Nat := 0
  /-- What is left of the request in progress. -/
  thread : AgentProg Unit := .ret ()
  log : List SspiEvent := []

/-- What SSPI answers a call with. -/
structure SspiOutcome where
  status : Status
  token : Bytes
  deriving Repr, DecidableEq

inductive AgentInput where
  /-- The next request, if none is in progress. -/
  | request (req : Json)
  /-- The next call for the request in progress. -/
  | step (o : SspiOutcome)
  /-- A round of the cleanup thread. -/
  | cleanup
  /-- Time passes. -/
  | tick (ns : Nat)

/-- The answer to a call of the thread that handles the requests. -/
def Agent.answer (o : SspiOutcome) : (c : AgentCall) → Agent → c.Resp × Agent
  | .acquireCredentialsHandle, a =>
    if o.status = SEC_E_OK then (.ok a.nextHandle, { a with nextHandle := a.nextHandle + 1 })
    else (.error o.status, a)
  | .initializeSecurityContext credentials _, a =>
    ((o.status, a.nextHandle, o.token),
      { a with nextHandle := a.nextHandle + 1, log := a.log ++ [.passed (.credentials credentials)] })
  | .continueSecurityContext context _, a =>
    ((o.status, o.token), { a with log := a.log ++ [.passed (.context context)] })
  | .freeCredentialsHandle credentials, a => ((), { a with log := a.log ++ [.released (.credentials credentials)] })
  | .create credentials context spn, a =>
    let (id, store) := a.store.create credentials context spn a.now
    (id, { a with store, log := a.log ++ [.stored id credentials context] })
  | .get id, a =>
    let (entry, store, released) := a.store.get id a.now
    (entry.map (·.context), { a with store, log := a.log ++ released })
  | .close id, a =>
    let (store, released) := a.store.close id
    ((), { a with store, log := a.log ++ released })
  | .completeAuthToken _, a => ((), a)
  -- `HandleRequest` does not use the pipe.
  | .readFile, a => (.error 0, a)
  | .writeFile _, a => (none, a)

def Agent.step (x : JsonText) (i : AgentInput) (a : Agent) : Agent × Unit :=
  match i with
  | .request req =>
    match a.thread with
    | .call _ _ => (a, ())
    | _ => ({ a with thread := do let _ ← handleRequest x req }, ())
  | .step o =>
    match a.thread with
    | .call c k => ({ (a.answer o c).2 with thread := k (a.answer o c).1 }, ())
    | _ => (a, ())
  | .cleanup =>
    let (store, released) := a.store.cleanupExpired a.now
    ({ a with store, log := a.log ++ released }, ())
  | .tick ns => ({ a with now := a.now + ns }, ())

end TR.Impl
