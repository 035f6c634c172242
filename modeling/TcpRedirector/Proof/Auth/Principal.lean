import TcpRedirector.Impl.Auth.AuthAgent
import TcpRedirector.Impl.Auth.KerberosAgentProvider
import TcpRedirector.Proof.Framework.Entries
import TcpRedirector.Proof.Framework.Text
import TcpRedirector.Proof.Relay.Classification
import TcpRedirector.Proof.Relay.Destination

/-!
# The service principal

A name goes from the handler through the provider and the pipe to the agent:
`ContextCreation` is one such way. The handler gives the name its prefix, and
so does `MakeSpn` in the agent, so the target of every context has it twice
(`target_doubled`).
-/

namespace TR.Impl

/-! ## What the provider asks for -/

/-- Every message written satisfies `ok`. -/
def Writes (ok : Bytes → Prop) : LockCall ProviderCall → Prop
  | .other (.system (.writeFile _ msg)) => ok msg
  | _ => True

def helloRequest (id : BitVec 64) : Json := request "hello" id (some (Json.null.set "version" (.integer 1)))

def createRequest (spn : Bytes) (id : BitVec 64) : Json :=
  request "create_context" id (some (Json.null.set "spn" (.string spn)))

/-- The messages of `CreateContext`. -/
def Asks (x : JsonText) (spn msg : Bytes) : Prop :=
  ∃ id, x.dump (helloRequest id) = .ok msg ∨ x.dump (createRequest spn id) = .ok msg

section

variable {x : JsonText} {spn : Bytes} {ok : Bytes → Prop}

theorem readMessage_writes (pipe : Option Handle) : (readMessage pipe).Calls (Writes ok) := by
  refine ⟨trivial, fun (r : Except (BitVec 32) { b : Bytes // b.length ≤ 65535 }) => ?_⟩
  cases r with
  | ok buf => trivial
  | error err =>
    show Prog.Calls _ (if _ then _ else _)
    split
    · exact ⟨trivial, fun _ => trivial⟩
    · trivial

theorem sendMessage_writes (pipe : Option Handle) {msg : Bytes} (h : ok msg) : (sendMessage pipe msg).Calls (Writes ok) := by
  refine ⟨h, fun (r : Option (BitVec 32)) => ?_⟩
  cases r <;> trivial

theorem callLocked_writes {method : String} {params : Option Json}
    (h : ∀ id msg, x.dump (request method id params) = .ok msg → ok msg) :
    (callLocked x method params).Calls (Writes ok) := by
  refine ⟨trivial, fun (id : BitVec 64) => ?_⟩
  dsimp only [Prog.bind]
  split
  next => trivial
  next msg hd =>
    refine ⟨trivial, fun pipe => (sendMessage_writes pipe (h id msg hd)).bind fun sent => ?_⟩
    cases sent with
    | error what => trivial
    | ok _ =>
      refine ⟨trivial, fun pipe => (readMessage_writes pipe).bind fun read => ?_⟩
      cases read with
      | error what => trivial
      | ok respStr =>
        dsimp only
        split
        next => trivial
        next => exact ⟨trivial, fun _ => trivial⟩

theorem call_writes {method : String} {params : Option Json}
    (h : ∀ id msg, x.dump (request method id params) = .ok msg → ok msg) : (call x method params).Calls (Writes ok) :=
  ⟨trivial, fun _ => (callLocked_writes h).bind fun _ => ⟨trivial, fun _ => trivial⟩⟩

theorem waitForPipe_writes (n : Nat) : (waitForPipe n).Calls (Writes ok) := by
  induction n with
  | zero => trivial
  | succ n ih =>
    refine ⟨trivial, fun (r : Option (BitVec 32)) => ?_⟩
    cases r with
    | none => trivial
    | some lastErr =>
      show Prog.Calls _ (if _ then _ else _)
      split
      · exact ih
      · exact ⟨trivial, fun _ => ih⟩

theorem connectLocked_writes (h : ∀ id msg, x.dump (helloRequest id) = .ok msg → ok msg) :
    (connectLocked x).Calls (Writes ok) := by
  refine ⟨trivial, fun (pipe : Option Handle) => ?_⟩
  cases pipe with
  | some pipe => trivial
  | none =>
    refine (waitForPipe_writes 10).bind fun _ => ⟨trivial, fun (pipe : Option Handle) => ?_⟩
    cases pipe with
    | none => trivial
    | some pipe =>
      refine ⟨trivial, fun (set : Bool) => ?_⟩
      cases set with
      | false => exact ⟨trivial, fun _ => trivial⟩
      | true =>
        refine ⟨trivial, fun _ => (call_writes h).bind fun resp => ?_⟩
        split
        next => exact ⟨trivial, fun _ => ⟨trivial, fun _ => trivial⟩⟩
        next => exact ⟨trivial, fun _ => ⟨trivial, fun _ => ⟨trivial, fun _ => trivial⟩⟩⟩

theorem connectToAgent_writes (h : ∀ id msg, x.dump (helloRequest id) = .ok msg → ok msg) :
    (connectToAgent x).Calls (Writes ok) :=
  ⟨trivial, fun _ => (connectLocked_writes h).bind fun _ => ⟨trivial, fun _ => trivial⟩⟩

theorem pollConnect_writes (h : ∀ id msg, x.dump (helloRequest id) = .ok msg → ok msg) (n : Nat) :
    (pollConnect x n).Calls (Writes ok) := by
  induction n with
  | zero => trivial
  | succ n ih =>
    refine ⟨trivial, fun _ => (connectToAgent_writes h).bind fun connected => ?_⟩
    cases connected with
    | true => trivial
    | false => exact ih

theorem ensureConnected_writes (h : ∀ id msg, x.dump (helloRequest id) = .ok msg → ok msg) :
    (ensureConnected x).Calls (Writes ok) := by
  refine ⟨trivial, fun (connected : Bool) => ?_⟩
  cases connected with
  | true => trivial
  | false =>
    refine (connectToAgent_writes h).bind fun connected => ?_
    cases connected with
    | true => trivial
    | false => exact ⟨trivial, fun _ => pollConnect_writes h 20⟩

/-- `CreateContext` asks for the name it is given. -/
theorem providerCreateContext_asks : (providerCreateContext x spn).Calls (Writes (Asks x spn)) := by
  refine (ensureConnected_writes fun id msg h => ⟨id, .inl h⟩).bind fun _ => ⟨trivial, fun (connected : Bool) => ?_⟩
  cases connected with
  | false => trivial
  | true =>
    refine (call_writes fun id msg h => ⟨id, .inr h⟩).bind fun resp => ?_
    cases resp <;> trivial

end

/-! ## What the agent does with it -/

/-- Every name passed to SSPI for a new context satisfies `ok`. -/
def Initializes (ok : Bytes → Prop) : AgentCall → Prop
  | .initializeSecurityContext _ target => ok target
  | _ => True

section

variable {y : JsonText} {req : Json} {spn : Bytes} {ok : Bytes → Prop}

theorem complete_initializes (sc : Status) (context : CtxtHandle) :
    (SspiEngine.complete sc context).Calls (Initializes ok) := by
  unfold SspiEngine.complete
  split
  · exact ⟨trivial, fun _ => trivial⟩
  · trivial

/-- The engine makes a principal of the name it is given. -/
theorem createContextReply_initializes (h : ok (SspiEngine.makeSpn spn)) :
    (createContextReply spn).Calls (Initializes ok) := by
  have hcreate : (SspiEngine.createContext spn).Calls (Initializes ok) := by
    refine ⟨trivial, fun (r : Except Status CredHandle) => ?_⟩
    cases r with
    | error sc => trivial
    | ok credentials =>
      refine ⟨h, fun (sc, context, token) => (complete_initializes sc context).bind fun _ => ?_⟩
      split
      · trivial
      · exact ⟨trivial, fun _ => trivial⟩
  refine hcreate.bind fun r => ?_
  cases r with
  | error what => trivial
  | ok r => exact ⟨trivial, fun _ => trivial⟩

/-- A request is dispatched by its method, if at all. -/
theorem handleRequest_initializes {method : Bytes} (hm : req.entry "method" = some (.string method))
    (h : (dispatch y method req).Calls (Initializes ok)) : (handleRequest y req).Calls (Initializes ok) := by
  have hvalue : req.value Json.getString "method" [] = .ok method := Json.value_of_entry hm
  unfold handleRequest
  rw [hvalue]
  cases req.value Json.getNull "id" () with
  | error fault => trivial
  | ok _ =>
    refine h.bind fun r => ?_
    match r with
    | .ok reply => trivial
    | .error (.exception what) => trivial
    | .error .undefined => trivial

theorem hello_initializes (hm : req.entry "method" = some (.string (ascii "hello"))) :
    (handleRequest y req).Calls (Initializes ok) := by
  refine handleRequest_initializes hm ?_
  unfold dispatch withParams
  rw [if_pos rfl]
  split <;> trivial

theorem create_initializes {params : Json} (hm : req.entry "method" = some (.string (ascii "create_context")))
    (hp : req.entry "params" = some params) (hs : params.entry "spn" = some (.string spn))
    (h : ok (SspiEngine.makeSpn spn)) : (handleRequest y req).Calls (Initializes ok) := by
  refine handleRequest_initializes hm ?_
  have hspn : (req.constIndex "params" >>= fun params => params.constIndex "spn" >>= Json.getString) = .ok spn := by
    rw [Json.constIndex_of_entry hp]
    show (params.constIndex "spn" >>= Json.getString) = .ok spn
    rw [Json.constIndex_of_entry hs]
    rfl
  unfold dispatch
  rw [if_neg (by decide), if_neg (by decide), if_pos rfl]
  show (withParams (req.constIndex "params" >>= fun params => params.constIndex "spn" >>= Json.getString)
    createContextReply).Calls _
  rw [hspn]
  exact (createContextReply_initializes h).bind fun _ => trivial

end

/-! ## From the handler to SSPI -/

/-- A context that a handler asks for: the handler, the provider's
`CreateContext` and the agent, each in an environment of its own, and what
goes from one to the next. -/
structure ContextCreation (σ τ υ : Type) where
  relay : Relay
  kerberos : relay.authProvider = some .kerberosAgent
  ctx : RelayContext
  handler : (c : Call) → σ → c.Resp × σ
  handlerState : σ
  spn : Bytes
  /-- Some call of the handler asks for a context, on whatever path. -/
  asked : ∃ e ∈ ((connectionHandler relay ctx).exec handler handlerState).trace, e.1 = .createContext spn
  x : JsonText
  provider : (c : LockCall ProviderCall) → τ → LockCall.Resp ProviderCall.Resp c × τ
  providerState : τ
  pipe : Option Handle
  msg : Bytes
  written : ∃ e ∈ ((providerCreateContext x spn).exec provider providerState).trace,
    e.1 = .other (.system (.writeFile pipe msg))
  y : JsonText
  req : Json
  /-- The agent has the request that was written. `HandleRequest` takes no
  request with the provider's id, before it looks at the rest
  (`agent_answers_iff`); which id it is does not matter to the name. -/
  received : ∀ j, x.dump j = .ok msg → ∀ key, ascii key ≠ ascii "id" → req.entry key = j.reread.entry key
  agent : (c : AgentCall) → υ → c.Resp × υ
  agentState : υ
  credentials : CredHandle
  target : Bytes
  passed : ∃ e ∈ ((handleRequest y req).exec agent agentState).trace, e.1 = .initializeSecurityContext credentials target

/-- The target is the HTTP service of the proxy. -/
def ContextCreation.Agrees {σ τ υ : Type} (c : ContextCreation σ τ υ) : Prop := c.target = ascii "HTTP/" ++ c.relay.proxyHost

/-- Every context is created for a principal with the prefix twice, so never
for the HTTP service of the proxy. -/
theorem target_doubled {σ τ υ : Type} (c : ContextCreation σ τ υ) :
    c.target = ascii "HTTP/" ++ (ascii "HTTP/" ++ c.relay.proxyHost) ∧ ¬c.Agrees := by
  have htarget : c.target = ascii "HTTP/" ++ (ascii "HTTP/" ++ c.relay.proxyHost) := by
    obtain ⟨e, he, hspn⟩ := c.asked
    have hspn : c.spn = spn c.relay := by
      have := (connectionHandler_issues c.relay c.ctx).sound c.handler c.handlerState e he
      rw [hspn] at this
      exact this
    obtain ⟨e, he, hmsg⟩ := c.written
    have hasks : Asks c.x c.spn c.msg := by
      have := providerCreateContext_asks.sound c.provider c.providerState e he
      rw [hmsg] at this
      exact this
    have hinit : (handleRequest c.y c.req).Calls (Initializes fun t => t = SspiEngine.makeSpn c.spn) := by
      obtain ⟨id, hid | hid⟩ := hasks
      · exact hello_initializes (c.received _ hid "method" (by decide))
      · exact create_initializes (c.received _ hid "method" (by decide)) (c.received _ hid "params" (by decide)) rfl rfl
    obtain ⟨e, he, ht⟩ := c.passed
    have := hinit.sound c.agent c.agentState e he
    rw [ht] at this
    exact this.trans (by rw [hspn]; rfl)
  refine ⟨htarget, fun h => ?_⟩
  have hlength := congrArg List.length (htarget.symm.trans h)
  simp only [List.length_append] at hlength
  have : (ascii "HTTP/").length = 5 := rfl
  omega

namespace Demo

def proxyRequest : Json := createRequest (ascii "HTTP/proxy") 1

/-- JSON texts, with that of the request as nlohmann writes it. -/
noncomputable def principalTexts : JsonText where
  parse _ := .error []
  dump j := .ok (Json.text [proxyRequest] Json.compact j)
  toInt bits := bits.setWidth 32
  toUInt64 bits := bits

/-- A provider that is connected, to an agent that does not answer. -/
def connectedProvider : (c : LockCall ProviderCall) → Unit → LockCall.Resp ProviderCall.Resp c × Unit
  | .lock, _ | .unlock, _ => ((), ())
  | .other .loadConnected, _ => (true, ())
  | .other .loadPipe, _ => (some 7, ())
  | .other .fetchAddNextId, _ => ((1 : BitVec 64), ())
  | .other (.system .waitNamedPipe), _ | .other (.system .createFile), _ | .other (.system (.writeFile _ _)), _ => (none, ())
  | .other (.system (.setNamedPipeHandleState _)), _ => (true, ())
  | .other (.system (.readFile _)), _ => (.error ERROR_BROKEN_PIPE, ())
  | .other (.storeConnected _), _ | .other (.storePipe _), _ | .other (.storeVersion _), _ | .other (.returned _), _
  | .other (.system (.closeHandle _)), _ | .other (.system (.sleep _)), _ | .other (.system .launchAuthAgent), _ => ((), ())

/-- SSPI with a ticket for any target. -/
def ticketed : (c : AgentCall) → Unit → c.Resp × Unit
  | .acquireCredentialsHandle, _ => (.ok (1 : Nat), ())
  | .initializeSecurityContext _ _, _ => ((SEC_E_OK, 2, [1, 2, 3]), ())
  | .create _ _ _, _ => ((1 : BitVec 64), ())
  | .readFile, _ => (.error ERROR_BROKEN_PIPE, ())
  | .writeFile _, _ | .get _, _ => (none, ())
  | .continueSecurityContext _ _, _ => ((SEC_E_INVALID_HANDLE, []), ())
  | .completeAuthToken _, _ | .freeCredentialsHandle _, _ | .close _, _ => ((), ())

/-- The request without its id. -/
def anonymousRequest : Json :=
  ((Json.null.set "jsonrpc" (.string (ascii "2.0"))).set "method" (.string (ascii "create_context"))).set "params"
    (Json.null.set "spn" (.string (ascii "HTTP/proxy")))

theorem received_anonymous (j : Json) (h : principalTexts.dump j = .ok (Json.text [proxyRequest] Json.compact proxyRequest))
    (key : String) (hkey : ascii key ≠ ascii "id") : anonymousRequest.entry key = j.reread.entry key := by
  have hp : Json.Printed [proxyRequest] Json.compact := .of_nodup (List.nodup_singleton _) (by decide +kernel)
  obtain rfl : j = proxyRequest := Json.text_injective hp (Except.ok.inj h)
  show Json.entry (.object _) key = Json.entry (.object (_ :: _)) key
  simp only [Json.entry, Json.lookup, List.find?_cons]
  rw [decide_eq_false (p := ascii "id" = ascii key) (Ne.symm hkey)]
  rfl

/-- A context for the proxy `proxy`, asked for before the first CONNECT. -/
noncomputable def doubled : ContextCreation Unit Unit Unit where
  relay := authRelay
  kerberos := rfl
  ctx := accepted
  handler c w := (reply c, w)
  handlerState := ()
  spn := ascii "HTTP/proxy"
  asked := by decide
  x := principalTexts
  provider := connectedProvider
  providerState := ()
  pipe := some 7
  msg := Json.text [proxyRequest] Json.compact proxyRequest
  written := ⟨_, List.mem_of_getElem? (i := 5) rfl, rfl⟩
  y := principalTexts
  req := anonymousRequest
  received := received_anonymous
  agent := ticketed
  agentState := ()
  credentials := 1
  target := ascii "HTTP/HTTP/proxy"
  passed := by decide

end Demo

/-- The target of a context for `proxy`. -/
theorem target_doubled_proxy :
    Demo.doubled.relay.proxyHost = ascii "proxy" ∧ Demo.doubled.target = ascii "HTTP/HTTP/proxy" ∧ ¬Demo.doubled.Agrees := by
  refine ⟨rfl, rfl, fun h => ?_⟩
  have : ascii "HTTP/HTTP/proxy" = ascii "HTTP/" ++ ascii "proxy" := h
  exact absurd this (by decide)

end TR.Impl
