import TcpRedirector.Proof.Auth.Provider
import TcpRedirector.Proof.Framework.Json
import TcpRedirector.Proof.Framework.Prog
import TcpRedirector.Proof.Framework.Run

/-!
# Getting the agent back

With the mutex free, a provider that is not connected must have no pipe:
otherwise `ConnectToAgent` takes the old pipe for a connection and returns,
and `EnsureConnected` leaves it at that (`ensureConnected_alone`). This is
kept as long as no `ReadFile` outside of `ConnectToAgent` finds the pipe
broken (`provider_reconnects`); `ReadMessage` then clears `m_connected` alone,
and the provider is stuck (`provider_stuck`).
-/

namespace TR.Impl

open ProviderProg

/-- A `ReadFile` that finds the pipe broken. -/
def BrokenRead : (c : ProviderCall) → c.Resp → Prop
  | .system (.readFile _), .error err => err = ERROR_BROKEN_PIPE ∨ err = ERROR_PIPE_NOT_CONNECTED
  | _, _ => False

/-- `m_connected` stands for the pipe; a thread that has locked the mutex only
once finds no broken pipe. -/
def reconnectView : PipeView Unit where
  K p := p.connected = p.pipe.isSome
  J _ := True
  init := ()
  upd _ _ _ _ := ()
  may n _ c r := n = 0 → ¬BrokenRead c r
  check _ _ _ := True
  upd_quiet _ := rfl
  check_of_not_returned _ := trivial

theorem callEnd_fields {x : JsonText} {t n : Nat} {p p' : Provider} {e e' : Unit} {r : Except Bytes Json}
    (h : CallEnd reconnectView x t n p e p' e' r) : p' = p ∨ p' = { p with connected := false } ∧ n ≠ 0 := by
  cases h with
  | read hw he hr =>
    unfold Provider.afterError
    split
    next hb => exact .inr ⟨rfl, fun hn => hr hn hb⟩
    next => exact .inl rfl
  | _ => exact .inl rfl

theorem kept_reconnect {x : JsonText} : reconnectView.Kept x where
  returned := fun _ _ _ _ _ _ _ _ _ _ _ _ => trivial
  account := fun _ _ => trivial
  fields := by
    intro t p p' e e' nextId r hK hend
    rcases callEnd_fields hend with rfl | ⟨-, hn⟩
    · exact hK
    · exact absurd rfl hn
  hello := by
    intro t p p' pipe e e' nextId r hK hnone hend
    have hc : p.connected = false := by
      have hi : p.connected = p.pipe.isSome := hK
      rwa [hnone] at hi
    rcases callEnd_fields hend with rfl | ⟨rfl, -⟩
    · exact ⟨fun _ => rfl, hc⟩
    · exact ⟨fun _ => rfl, rfl⟩
  disconnected := fun _ => rfl

/-! ## The provider by itself -/

section

variable {W : Type}

/-- One thread alone: the mutex is always free for it, and `env` answers the calls to the system. -/
def aloneAnswer (env : (c : PipeCall) → W → c.Resp × W) :
    (c : LockCall ProviderCall) → Provider × W → LockCall.Resp ProviderCall.Resp c × (Provider × W)
  | .lock, g => ((), g)
  | .unlock, g => ((), g)
  | .other .loadConnected, g => (g.1.connected, g)
  | .other (.storeConnected connected), g => ((), ({ g.1 with connected }, g.2))
  | .other .loadPipe, g => (g.1.pipe, g)
  | .other (.storePipe pipe), g => ((), ({ g.1 with pipe }, g.2))
  | .other (.storeVersion version), g => ((), ({ g.1 with version }, g.2))
  | .other .fetchAddNextId, g => (g.1.nextId, ({ g.1 with nextId := g.1.nextId + 1 }, g.2))
  | .other (.returned _), g => ((), g)
  | .other (.system c), g => ((env c g.2).1, (g.1, (env c g.2).2))

/-- The agent's pipe can be opened, and the agent answers `hello` with a version. -/
structure Available (x : JsonText) (env : (c : PipeCall) → W → c.Resp × W) : Prop where
  opens : ∀ w, ∃ pipe, (env .createFile w).1 = some pipe
  message : ∀ pipe w, (env (.setNamedPipeHandleState pipe) w).1 = true
  request : ∀ id, ∃ msg, x.dump (request "hello" id (some (Json.null.set "version" (.integer 1)))) = .ok msg
  writes : ∀ pipe msg w, (env (.writeFile (some pipe) msg) w).1 = none
  answers : ∀ pipe w, ∃ buf version, (env (.readFile (some pipe)) w).1 = .ok buf ∧
    helloVersion x (x.parse buf.1) = some version

end

/-- One call of `EnsureConnected` connects, if the agent is there. -/
def Reconnects (x : JsonText) (p : Provider) : Prop :=
  ∀ (W : Type) (env : (c : PipeCall) → W → c.Resp × W) (w : W), Available x env →
    ((ensureConnected x).exec (aloneAnswer env) (p, w)).state.1.connected = true

section

variable {x : JsonText} {W : Type} {env : (c : PipeCall) → W → c.Resp × W}

theorem ends_system {α : Type} {Q : α → Provider × W → Prop} {c : PipeCall} {k : c.Resp → ProviderProg α} {r : c.Resp}
    {g : Provider × W} (hr : (env c g.2).1 = r) (h : ∀ w, Ends (aloneAnswer env) Q (k r) (g.1, w)) :
    Ends (aloneAnswer env) Q (.call (.other (.system c)) k) g := by
  subst hr
  exact h _

theorem ends_loadPipe {Q : Option Handle → Provider × W → Prop} {g : Provider × W} (h : Q g.1.pipe g) :
    Ends (aloneAnswer env) Q loadPipe g := h

theorem ends_fetchAddNextId {Q : BitVec 64 → Provider × W → Prop} {g : Provider × W}
    (h : Q g.1.nextId ({ g.1 with nextId := g.1.nextId + 1 }, g.2)) : Ends (aloneAnswer env) Q fetchAddNextId g := h

/-- Waiting for the pipe changes no field. -/
theorem ends_waitForPipe {Q : Unit → Provider × W → Prop} (n : Nat) {g : Provider × W} (h : ∀ w, Q () (g.1, w)) :
    Ends (aloneAnswer env) Q (waitForPipe n) g := by
  induction n generalizing g with
  | zero => exact h g.2
  | succ n ih =>
    refine ends_system rfl fun w => ?_
    generalize ((env .waitNamedPipe g.2).1 : Option (BitVec 32)) = r
    cases r with
    | none => exact h w
    | some lastErr =>
      show Ends _ _ (if lastErr = ERROR_SEM_TIMEOUT then _ else _) _
      split
      · exact ih fun w => h w
      · exact ih fun w => h w

theorem ends_sendMessage {Q : Except Bytes Unit → Provider × W → Prop} {pipe : Option Handle} {msg : Bytes}
    {g : Provider × W} (hw : (env (.writeFile pipe msg) g.2).1 = none) (h : ∀ w, Q (.ok ()) (g.1, w)) :
    Ends (aloneAnswer env) Q (sendMessage pipe msg) g := ends_system hw fun w => h w

theorem ends_readMessage {Q : Except Bytes Bytes → Provider × W → Prop} {pipe : Option Handle}
    {buf : { b : Bytes // b.length ≤ 65535 }} {g : Provider × W} (hr : (env (.readFile pipe) g.2).1 = .ok buf)
    (h : ∀ w, Q (.ok buf.1) (g.1, w)) : Ends (aloneAnswer env) Q (readMessage pipe) g := ends_system hr fun w => h w

/-- A `Call` of the only thread: what it writes is written, and what it reads is the response. -/
theorem ends_call {Q : Except Bytes Json → Provider × W → Prop} {p : Provider} {w : W} {method : String}
    {params : Option Json} (hdump : ∃ msg, x.dump (request method p.nextId params) = .ok msg)
    (hwrite : ∀ msg w, (env (.writeFile p.pipe msg) w).1 = none)
    (hread : ∀ w, ∃ buf, (env (.readFile p.pipe) w).1 = .ok buf ∧
      ∀ w', Q (x.parse buf.1) ({ p with nextId := p.nextId + 1 }, w')) :
    Ends (aloneAnswer env) Q (call x method params) (p, w) := by
  show Ends _ _ (callLocked x method params >>= fun resp => unlock >>= fun _ => pure resp) (p, w)
  refine Ends_bind.mpr ?_
  obtain ⟨msg, hmsg⟩ := hdump
  refine Ends_bind.mpr (ends_fetchAddNextId ?_)
  rw [hmsg]
  refine Ends_bind.mpr (ends_loadPipe ?_)
  refine Ends_bind.mpr (ends_sendMessage (hwrite _ _) fun w => ?_)
  refine Ends_bind.mpr (ends_loadPipe ?_)
  obtain ⟨buf, hbuf, hq⟩ := hread w
  refine Ends_bind.mpr (ends_readMessage hbuf fun w' => ?_)
  dsimp only
  split
  next what heq =>
    rw [heq] at hq
    exact hq _
  next resp heq =>
    rw [heq] at hq
    exact hq _

/-- Without a pipe `ConnectToAgent` connects. -/
theorem ends_connectToAgent (hav : Available x env) {p : Provider} {w : W} (hp : p.pipe = none) :
    Ends (aloneAnswer env) (fun ok g => ok = true ∧ g.1.connected = true) (connectToAgent x) (p, w) := by
  show Ends _ _ (connectLocked x >>= fun ok => unlock >>= fun _ => pure ok) (p, w)
  refine Ends_bind.mpr ?_
  refine Ends_bind.mpr (ends_loadPipe ?_)
  rw [hp]
  refine Ends_bind.mpr (ends_waitForPipe 10 fun w => ?_)
  obtain ⟨pipe, hpipe⟩ := hav.opens w
  refine ends_system hpipe fun w => ends_system (hav.message pipe w) fun w => ?_
  show Ends _ _ (call x "hello" _ >>= _) ({ p with pipe := some pipe }, w)
  refine Ends_bind.mpr (ends_call (hav.request _) (hav.writes pipe) fun w => ?_)
  obtain ⟨buf, version, hbuf, hv⟩ := hav.answers pipe w
  refine ⟨buf, hbuf, fun w' => ?_⟩
  dsimp only
  rw [hv]
  exact ⟨rfl, rfl⟩

/-- With a pipe `ConnectToAgent` does nothing and reports success. -/
theorem ends_connectToAgent_pipe {p : Provider} {w : W} {pipe : Handle} (hp : p.pipe = some pipe) :
    Ends (aloneAnswer env) (fun ok g => ok = true ∧ g.1 = p) (connectToAgent x) (p, w) := by
  show Ends _ _ (connectLocked x >>= fun ok => unlock >>= fun _ => pure ok) (p, w)
  refine Ends_bind.mpr ?_
  refine Ends_bind.mpr (ends_loadPipe ?_)
  rw [hp]
  exact ⟨rfl, rfl⟩

theorem ends_ensureConnected {Q : Unit → Provider × W → Prop} {p : Provider} {w : W}
    (hyes : p.connected = true → Q () (p, w))
    (hno : p.connected = false → Ends (aloneAnswer env) (fun ok g => ok = true ∧ Q () g) (connectToAgent x) (p, w)) :
    Ends (aloneAnswer env) Q (ensureConnected x) (p, w) := by
  show Ends _ _ (if p.connected then _ else reconnect x) (p, w)
  split
  next h => exact hyes h
  next h =>
    refine Ends_bind.mpr ((hno (by simpa using h)).mono ?_)
    rintro ok g ⟨rfl, hq⟩
    exact hq

/-- From a state without a stale pipe `EnsureConnected` gets the agent back. -/
theorem reconnects_of_noPipe {p : Provider} (h : p.connected = false → p.pipe = none) : Reconnects x p := by
  intro W env w hav
  have hend : Ends (aloneAnswer env) (fun _ g => g.1.connected = true) (ensureConnected x) (p, w) :=
    ends_ensureConnected id fun hc => ends_connectToAgent hav (h hc)
  obtain ⟨-, -, hstate⟩ := hend.exec
  exact hstate

/-- A pipe that no one closed keeps `EnsureConnected` from connecting, though the agent is there. -/
theorem not_reconnects_of_pipe {p : Provider} {pipe : Handle} (hc : p.connected = false) (hp : p.pipe = some pipe)
    (hav : Available x env) (w : W) : ¬Reconnects x p := by
  intro h
  have hend : Ends (aloneAnswer env) (fun _ g => g.1 = p) (ensureConnected x) (p, w) :=
    ends_ensureConnected (fun _ => rfl) fun _ => ends_connectToAgent_pipe hp
  obtain ⟨-, -, hstate⟩ := hend.exec
  have hconn := h W env w hav
  rw [hstate, hc] at hconn
  cases hconn

end

/-! ## Runs -/

section

variable {W ω ε : Type}

/-- The step is no `ReadFile` that finds the pipe broken while its thread has
locked the mutex only once, that is, outside of `ConnectToAgent`. -/
def ReadsUnbroken (st : StepOf (ProviderPool W) (PoolInput ProviderOp ω ε) Unit) : Prop :=
  ∀ t pipe err, st.pre.owner = some (t, 0) → st.post.log = st.pre.log ++ [(t, ⟨.system (.readFile pipe), .error err⟩)] →
    err ≠ ERROR_BROKEN_PIPE ∧ err ≠ ERROR_PIPE_NOT_CONNECTED

theorem ReadsUnbroken.considers {st : StepOf (ProviderPool W) (PoolInput ProviderOp ω ε) Unit} (h : ReadsUnbroken st) :
    reconnectView.Considers st := by
  rintro t n c r howner hlog rfl hb
  match c, r, hb with
  | .system (.readFile pipe), .error err, hb =>
    obtain ⟨hbroken, hgone⟩ := h t pipe err howner hlog
    exact hb.elim hbroken hgone

/-- With the mutex free, a provider that is not connected has no pipe, and one
call of `EnsureConnected` connects it if the agent is there. -/
theorem provider_reconnects (x : JsonText) (sys : ω → (c : PipeCall) → W → Option (c.Resp × W)) (move : ε → W → W) (w : W)
    (schedule : List (PoolInput ProviderOp ω ε))
    (h : ∀ st ∈ trace (providerStep x sys move) schedule (ProviderPool.start w), ReadsUnbroken st) :
    let s := run (providerStep x sys move) schedule (ProviderPool.start w)
    s.owner = none → (s.shared.1.connected = false → s.shared.1.pipe = none) ∧ Reconnects x s.shared.1 := by
  intro s hfree
  have hinv : PoolInv reconnectView.rules reconnectView.view s :=
    kept_reconnect.run rfl trivial w schedule fun st hst => (h st hst).considers
  have hi : s.shared.1.connected = s.shared.1.pipe.isSome := (hinv.free hfree).1
  have hnone : s.shared.1.connected = false → s.shared.1.pipe = none := by
    intro hc
    rw [hc] at hi
    exact Option.isSome_eq_false_iff.mp hi.symm |> Option.isNone_iff_eq_none.mp
  exact ⟨hnone, reconnects_of_noPipe hnone⟩

/-! ## Examples -/

/-- `ReadsUnbroken`, evaluated. -/
def readsUnbroken (st : StepOf (ProviderPool W) (PoolInput ProviderOp ω ε) Unit) : Bool :=
  match st.pre.owner, st.post.log.getLast? with
  | some (_, 0), some (_, ⟨.system (.readFile _), .error err⟩) =>
    decide (err ≠ ERROR_BROKEN_PIPE ∧ err ≠ ERROR_PIPE_NOT_CONNECTED)
  | _, _ => true

theorem ReadsUnbroken.of_eval {st : StepOf (ProviderPool W) (PoolInput ProviderOp ω ε) Unit} (h : readsUnbroken st = true) :
    ReadsUnbroken st := by
  intro t pipe err howner hlog
  simp only [readsUnbroken, howner, hlog, List.getLast?_append, List.getLast?_singleton, Option.some_or,
    decide_eq_true_eq] at h
  exact h

end

namespace Demo

/-- The response to `hello`. -/
def hello : Json :=
  ((Json.null.set "jsonrpc" (.string (ascii "2.0"))).set "id" (.unsigned 1)).set "result"
    (Json.null.set "version" (.integer 1))

def helloText : { b : Bytes // b.length ≤ 65535 } := ⟨hello.compact, by decide +kernel⟩

/-- An agent that says `hello` to everything. -/
def agent : (c : PipeCall) → c.Resp
  | .waitNamedPipe => none
  | .createFile => some 7
  | .setNamedPipeHandleState _ => true
  | .closeHandle _ => ()
  | .writeFile _ _ => none
  | .readFile _ => .ok helloText
  | .sleep _ => ()
  | .launchAuthAgent => ()

/-- It has gone, and a `ReadFile` says so. -/
def gone : (c : PipeCall) → c.Resp
  | .readFile _ => .error ERROR_BROKEN_PIPE
  | c => agent c

/-- A system that answers as it is told. -/
def told (reply : (c : PipeCall) → c.Resp) (c : PipeCall) (_ : Unit) : Option (c.Resp × Unit) := some (reply c, ())

def providerRun (schedule : List (PoolInput ProviderOp ((c : PipeCall) → c.Resp) Unit)) : ProviderPool Unit :=
  run (providerStep (.reading [hello]) told fun _ w => w) schedule (ProviderPool.start ())

/-- `CreateContext` connects, and the answer to its own request is read. -/
def connects : List (PoolInput ProviderOp ((c : PipeCall) → c.Resp) Unit) :=
  .start 0 (.createContext (ascii "HTTP/proxy")) :: List.replicate 27 (.step 0 agent)

/-- As before, but the agent dies before it has answered `create_context`. -/
def dies : List (PoolInput ProviderOp ((c : PipeCall) → c.Resp) Unit) :=
  .start 0 (.createContext (ascii "HTTP/proxy")) :: (List.replicate 24 (.step 0 agent) ++ List.replicate 3 (.step 0 gone))

theorem agent_available : Available (.reading [hello]) (fun c (_ : Unit) => (agent c, ())) where
  opens := fun _ => ⟨7, rfl⟩
  message := fun _ _ => rfl
  request := fun _ => ⟨_, rfl⟩
  writes := fun _ _ _ => rfl
  answers := fun _ _ => ⟨_, 1, rfl, by decide +kernel⟩

end Demo

theorem provider_reconnects_connects :
    let s := Demo.providerRun Demo.connects
    s.owner = none ∧ s.shared.1.connected = true ∧
      ((s.shared.1.connected = false → s.shared.1.pipe = none) ∧ Reconnects (JsonText.reading [Demo.hello]) s.shared.1) := by
  have h : (trace (providerStep (JsonText.reading [Demo.hello]) Demo.told fun _ w => w) Demo.connects
      (ProviderPool.start ())).all readsUnbroken = true := by decide +kernel
  have hfree : (Demo.providerRun Demo.connects).owner = none := by decide +kernel
  refine ⟨hfree, by decide +kernel, ?_⟩
  exact provider_reconnects _ _ _ _ _ (fun st hst => .of_eval (List.all_eq_true.mp h st hst)) hfree

/-- The broken pipe stays, and no call of `EnsureConnected` connects. -/
theorem provider_stuck :
    let s := Demo.providerRun Demo.dies
    s.owner = none ∧ s.shared.1.connected = false ∧ s.shared.1.pipe = some 7 ∧
      ¬Reconnects (JsonText.reading [Demo.hello]) s.shared.1 := by
  have hconn : (Demo.providerRun Demo.dies).shared.1.connected = false := by decide +kernel
  have hpipe : (Demo.providerRun Demo.dies).shared.1.pipe = some 7 := by decide +kernel
  exact ⟨by decide +kernel, hconn, hpipe, not_reconnects_of_pipe hconn hpipe Demo.agent_available ()⟩

end TR.Impl
