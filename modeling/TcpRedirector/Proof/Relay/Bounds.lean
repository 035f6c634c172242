import TcpRedirector.Impl.Relay.Labels
import TcpRedirector.Proof.Relay.Classification
import TcpRedirector.Proof.Relay.Resources

/-!
# The handshake is bounded

Each jump lowers a measure of the label's counters (`Label.rank`), so 28 jumps
are enough, and the handler with its labels is the one without
(`connectionHandlerJumps_eq`). An observer with an allowance of four
connections, and of six CONNECTs on each, refuses no call of it. Only if a
`recv` fails does the handler end without the client being closed or handed to
a bridge.
-/

namespace TR.Impl

open RelayProg

/-! ## Enough jumps -/

/-- How many jumps may still come, this one included. -/
def Label.rank : Label → Nat
  | .retryProxyConnect gatewayRetries => 7 * (4 - gatewayRetries)
  | .retryConnect _ gatewayRetries authRetries _ => 7 * (3 - gatewayRetries) + (6 - authRetries)

/-- The counters are at most at their limits. -/
def Label.Within : Label → Prop
  | .retryProxyConnect gatewayRetries => gatewayRetries ≤ MAX_GATEWAY_RETRIES
  | .retryConnect _ gatewayRetries authRetries _ => gatewayRetries ≤ MAX_GATEWAY_RETRIES ∧ authRetries ≤ 5

section

variable (m : Relay) (client : Sock) (addr destIp : BitVec 32) (destPort : BitVec 16) (stuck : RelayProg Unit)

/-- The handler from a label on, by the retries left. -/
def fromLabel : Label → RelayProg Unit
  | .retryProxyConnect gatewayRetries =>
    retryProxyConnect m client addr destIp destPort (MAX_GATEWAY_RETRIES - gatewayRetries)
  | .retryConnect proxySock gatewayRetries authRetries ctx =>
    retryConnect m client proxySock destIp destPort (jump m client addr destIp destPort gatewayRetries) (5 - authRetries) ctx

/-- With enough jumps the handler does not get stuck. -/
theorem goto_eq (n : Nat) (label : Label) (hw : label.Within) (hn : label.rank ≤ n) :
    goto m client addr destIp destPort stuck n label = fromLabel m client addr destIp destPort label := by
  induction n generalizing label with
  | zero =>
    cases label with
    | retryProxyConnect g =>
      simp only [Label.Within, Label.rank, MAX_GATEWAY_RETRIES] at hw hn
      omega
    | retryConnect proxySock g a ctx =>
      simp only [Label.Within, Label.rank] at hw hn
      omega
  | succ n ih =>
    cases label with
    | retryProxyConnect g =>
      simp only [Label.Within, Label.rank, MAX_GATEWAY_RETRIES] at hw hn
      have hc : ∀ proxySock, goto m client addr destIp destPort stuck n (.retryConnect proxySock g 0 none) =
          retryConnect m client proxySock destIp destPort (jump m client addr destIp destPort g) 5 none := fun proxySock =>
        ih (.retryConnect proxySock g 0 none) ⟨hw, by omega⟩ (by simp only [Label.rank]; omega)
      simp only [goto, hc]
      exact (retryProxyConnect_eq client addr destIp destPort).symm
    | retryConnect proxySock g a ctx =>
      simp only [Label.Within, Label.rank] at hw hn
      obtain ⟨hg, ha⟩ := hw
      have hagain : (if g < MAX_GATEWAY_RETRIES then
          some (goto m client addr destIp destPort stuck n (.retryProxyConnect (g + 1))) else none) =
          jump m client addr destIp destPort g := by
        rw [jump]
        split
        next h => rw [ih (.retryProxyConnect (g + 1)) h (by simp only [Label.rank]; omega)]; rfl
        next => rfl
      rw [goto, hagain]
      by_cases h5 : a + 1 > 5
      · rw [if_pos h5]
        simp only [fromLabel, show 5 - a = 0 by omega]
        rfl
      · rw [if_neg h5]
        have hretry : ∀ id, goto m client addr destIp destPort stuck n (.retryConnect proxySock g (a + 1) (some id)) =
            retryConnect m client proxySock destIp destPort (jump m client addr destIp destPort g) (5 - (a + 1)) (some id) :=
          fun id => ih (.retryConnect proxySock g (a + 1) (some id)) ⟨hg, by omega⟩ (by simp only [Label.rank]; omega)
        simp only [fromLabel, hretry, show 5 - a = 5 - (a + 1) + 1 by omega]
        rfl

end

theorem connectionHandlerJumps_eq (m : Relay) (stuck : RelayProg Unit) (n : Nat) (ctx : RelayContext) :
    connectionHandlerJumps m stuck (28 + n) ctx = connectionHandler m ctx := by
  have h : ∀ addr, goto m ctx.clientSock addr ctx.origDestIp ctx.origDestPort stuck (28 + n) (.retryProxyConnect 0) =
      retryProxyConnect m ctx.clientSock addr ctx.origDestIp ctx.origDestPort MAX_GATEWAY_RETRIES := fun addr =>
    goto_eq m _ addr _ _ stuck (28 + n) (.retryProxyConnect 0) (Nat.zero_le _) (by simp only [Label.rank]; omega)
  unfold connectionHandlerJumps connectionHandler
  refine congrArg (getaddrinfo m.proxyHost >>= ·) (funext fun resolved => ?_)
  cases resolved with
  | none => rfl
  | some addr => exact h addr

/-! ## The allowance -/

/-- A connection to the proxy. -/
def opens : Answered Call Call.Resp → Bool
  | ⟨.connect _ _ _, _⟩ => true
  | _ => false

/-- A CONNECT request. -/
def requests : Answered Call Call.Resp → Bool
  | ⟨.send _ _, _⟩ => true
  | _ => false

/-- The client's socket is closed or handed to a bridge. -/
def Releases (client : Sock) : Call → Prop
  | .closesocket s => s = client
  | .startBridge c _ => c = client
  | _ => False

instance (client : Sock) (c : Call) : Decidable (Releases client c) := by
  cases c <;> unfold Releases <;> infer_instance

/-- The connections and the CONNECTs on the present one that are still
allowed, and whether the client has been released. -/
structure Allowance where
  connects : Nat
  sends : Nat
  released : Bool
  deriving Repr, DecidableEq

/-- The allowance after a call; none if there is none for it. -/
def Allowance.spend (client : Sock) (b : Allowance) (c : Call) (_ : c.Resp) : Option Allowance :=
  match c with
  | .connect _ _ _ => if 0 < b.connects then some { b with connects := b.connects - 1, sends := 6 } else none
  | .send _ _ => if 0 < b.sends then some { b with sends := b.sends - 1 } else none
  | c => some { b with released := b.released || decide (Releases client c) }

section

variable {client : Sock} {b b' : Allowance} {tr : List (Answered Call Call.Resp)}

/-- What a call leaves of the allowance, and what it takes. -/
theorem Allowance.spend_spec {e : Answered Call Call.Resp} (h : b.spend client e.1 e.2 = some b') :
    b'.connects + (if opens e then 1 else 0) = b.connects ∧
      (opens e = false → b'.sends + (if requests e then 1 else 0) = b.sends) ∧
      6 * b'.connects + b'.sends + (if requests e then 1 else 0) ≤ 6 * b.connects + b.sends ∧
      (b.sends ≤ 6 → b'.sends ≤ 6) ∧ (b'.released = true → b.released = true ∨ Releases client e.1) := by
  obtain ⟨c, r⟩ := e
  cases c with
  | connect s a p =>
    simp only [spend, Option.ite_none_right_eq_some, Option.some.injEq] at h
    obtain ⟨hb, rfl⟩ := h
    simp only [opens, requests]
    exact ⟨by simp; omega, nofun, by simp; omega, fun _ => Nat.le_refl 6, .inl⟩
  | send s data =>
    simp only [spend, Option.ite_none_right_eq_some, Option.some.injEq] at h
    obtain ⟨hb, rfl⟩ := h
    simp only [opens, requests]
    exact ⟨by simp, fun _ => by simp; omega, by simp; omega, fun _ => by simp; omega, .inl⟩
  | _ =>
    cases h
    refine ⟨by simp [opens], fun _ => by simp [requests], by simp [requests], id, fun hr => ?_⟩
    simpa using hr

/-- What the calls of a run take. -/
theorem Allowance.run_spec (h : observe (spend client) tr b = some b') :
    b'.connects + tr.countP opens = b.connects ∧
      ((∀ e ∈ tr, opens e = false) → b'.sends + tr.countP requests = b.sends) ∧
      6 * b'.connects + b'.sends + tr.countP requests ≤ 6 * b.connects + b.sends ∧
      (b.sends ≤ 6 → b'.sends ≤ 6) ∧ (b'.released = true → b.released = true ∨ ∃ e ∈ tr, Releases client e.1) := by
  induction tr generalizing b with
  | nil =>
    cases h
    exact ⟨rfl, fun _ => rfl, Nat.le_refl _, id, .inl⟩
  | cons e tr ih =>
    obtain ⟨b₁, h₁, h₂⟩ := Option.bind_eq_some_iff.mp h
    obtain ⟨c1, s1, p1, l1, r1⟩ := spend_spec h₁
    obtain ⟨c2, s2, p2, l2, r2⟩ := ih h₂
    simp only [List.countP_cons, List.mem_cons, forall_eq_or_imp, exists_eq_or_imp]
    refine ⟨by omega, fun ⟨he, ht⟩ => ?_, by omega, fun h6 => l2 (l1 h6), fun hr => ?_⟩
    · have := s1 he
      have := s2 ht
      omega
    · rcases r2 hr with hr | hr
      · rcases r1 hr with hr | hr
        · exact .inl hr
        · exact .inr (.inl hr)
      · exact .inr (.inr hr)

end

/-! ## The handler keeps to it -/

/-- Whatever the answers, the program keeps to the allowance and has released
the client if it returns. -/
def KeepsTo (client : Sock) (p : RelayProg Unit) (b : Allowance) : Prop :=
  WP (Allowance.spend client) (fun b r => r = some () → b.released = true) p b

section

variable {m : Relay} {client proxy : Sock} {ctx : AuthContext} {connects sends : Nat} {released : Bool}

theorem KeepsTo.of_released {p : RelayProg Unit} (hp : p.Calls Free) {b : Allowance} (hb : b.released = true) :
    KeepsTo client p b := by
  induction p generalizing b with
  | ret a => exact fun _ => hb
  | throw => exact nofun
  | call c k ih =>
    intro r
    have hc := hp.1
    cases c with
    | connect | send => exact hc.elim
    | _ => exact ⟨_, rfl, ih r (hp.2 r) (by simp [hb])⟩

/-- Free calls leave the allowance, and every attempt ends with the client released. -/
theorem freeInv_spend (client : Sock) (connects sends : Nat) :
    FreeInv (Allowance.spend client) (fun b r => r = some () → b.released = true) client
      fun b => ∃ released, b = ⟨connects, sends, released⟩ where
  free c hc r b hb := by
    obtain ⟨released, rfl⟩ := hb
    cases c with
    | connect | send => exact hc.elim
    | _ => exact ⟨_, rfl, _, rfl⟩
  throws _ _ := nofun
  closed proxy b _ := by
    refine fun _ => ⟨{ b with released := true }, by simp [Allowance.spend, Releases], ?_⟩
    exact KeepsTo.of_released (p := do closesocket proxy; freeaddrinfo) ⟨trivial, fun _ => ⟨trivial, fun _ => trivial⟩⟩ rfl
  bridged proxy b _ := fun _ => ⟨_, rfl, fun _ => by simp [Releases]⟩

/-- A jump back to `retry_connect`, with CONNECTs left. -/
def RetryKeepsTo (client : Sock) (retry : Option (BitVec 64 → RelayProg Unit)) (connects sends : Nat) : Prop :=
  ∀ f, retry = some f → ∀ id released, KeepsTo client (f id) ⟨connects, sends, released⟩

/-- A jump back to `retry_proxy_connect`, with connections left. -/
def AgainKeepsTo (client : Sock) (again : Option (RelayProg Unit)) (connects : Nat) : Prop :=
  ∀ p, again = some p → ∀ sends released, KeepsTo client p ⟨connects, sends, released⟩

theorem free_authenticate : (authenticate m ctx).Calls Free := by
  unfold authenticate
  split
  · cases ctx with
    | none =>
      refine ⟨trivial, fun (r : CreateContextResult) => ?_⟩
      show Prog.Calls _ (if r.success = true then _ else _)
      split <;> trivial
    | some id => exact ⟨trivial, fun _ => trivial⟩
  · trivial

/-- One CONNECT of those left. -/
theorem sendConnect_keepsTo (destIp : BitVec 32) (destPort : BitVec 16) {again : Option (RelayProg Unit)}
    {retry : Option (BitVec 64 → RelayProg Unit)} (ha : AgainKeepsTo client again connects)
    (hr : RetryKeepsTo client retry connects sends) :
    KeepsTo client (sendConnect m client proxy destIp destPort again retry ctx) ⟨connects, sends + 1, released⟩ := by
  refine (freeInv_spend client connects (sends + 1)).bind free_authenticate (fun (auth, ctx') b hb => ?_) ⟨_, rfl⟩
  obtain ⟨released, rfl⟩ := hb
  refine fun r => ⟨⟨connects, sends, released⟩, by simp [Allowance.spend], ?_⟩
  have h := freeInv_spend client connects sends
  cases r with
  | none => exact h.failed ⟨_, rfl⟩
  | some n =>
    refine h.awaitResponse (fun p hp b hb => ?_) (fun f hf id b hb => ?_) ⟨_, rfl⟩
    · obtain ⟨released, rfl⟩ := hb
      exact ha p hp _ released
    · obtain ⟨released, rfl⟩ := hb
      exact hr f hf id released

theorem retryConnect_keepsTo (destIp : BitVec 32) (destPort : BitVec 16) {again : Option (RelayProg Unit)}
    (ha : AgainKeepsTo client again connects) (n : Nat) :
    KeepsTo client (retryConnect m client proxy destIp destPort again n ctx) ⟨connects, n + 1, released⟩ := by
  induction n generalizing ctx released with
  | zero => exact sendConnect_keepsTo destIp destPort ha nofun
  | succ n ih =>
    refine sendConnect_keepsTo destIp destPort ha fun f hf id released => ?_
    cases hf
    exact ih

/-- One connection of those left. -/
theorem connectProxy_keepsTo (addr destIp : BitVec 32) (destPort : BitVec 16) {again : Option (RelayProg Unit)}
    (ha : AgainKeepsTo client again connects) :
    KeepsTo client (connectProxy m client addr destIp destPort again) ⟨connects + 1, sends, released⟩ := by
  have h := freeInv_spend client (connects + 1) sends
  refine h.bind (p := socket) ⟨trivial, fun _ => trivial⟩ (fun r b hb => ?_) ⟨_, rfl⟩
  cases r with
  | none =>
    refine h.bind (calls_incrementProxyErrors trivial) (fun _ b hb => ?_) hb
    refine fun _ => ⟨_, rfl, ?_⟩
    exact KeepsTo.of_released (p := freeaddrinfo) ⟨trivial, fun _ => trivial⟩ (by simp [Releases])
  | some proxy =>
    refine h.bind (calls_setSocketOptions fun _ _ _ => trivial) (fun _ b hb => ?_) hb
    obtain ⟨released, rfl⟩ := hb
    refine fun (ok : Bool) => ⟨⟨connects, 6, released⟩, by simp [Allowance.spend], ?_⟩
    cases ok with
    | true => exact retryConnect_keepsTo destIp destPort ha 5
    | false =>
      have h := freeInv_spend client connects 6
      show KeepsTo client (do incrementProxyErrors m; closeAll client proxy) _
      exact h.bind (calls_incrementProxyErrors trivial) (fun _ b hb => h.closed proxy b hb) ⟨_, rfl⟩

theorem retryProxyConnect_keepsTo (addr destIp : BitVec 32) (destPort : BitVec 16) (n : Nat) :
    KeepsTo client (retryProxyConnect m client addr destIp destPort n) ⟨n + 1, sends, released⟩ := by
  induction n generalizing sends released with
  | zero => exact connectProxy_keepsTo addr destIp destPort nofun
  | succ n ih =>
    refine connectProxy_keepsTo addr destIp destPort fun p hp sends released => ?_
    cases hp
    exact ih

theorem connectionHandler_keepsTo (m : Relay) (ctx : RelayContext) :
    KeepsTo ctx.clientSock (connectionHandler m ctx) ⟨4, 0, false⟩ := by
  have h := freeInv_spend ctx.clientSock 4 0
  refine h.bind (p := getaddrinfo m.proxyHost) ⟨trivial, fun _ => trivial⟩ (fun r b hb => ?_) ⟨_, rfl⟩
  cases r with
  | none =>
    refine h.bind (calls_incrementProxyErrors trivial) (fun _ b _ => ?_) hb
    exact fun _ => ⟨_, rfl, fun _ => by simp [Releases]⟩
  | some addr =>
    obtain ⟨released, rfl⟩ := hb
    exact retryProxyConnect_keepsTo addr ctx.origDestIp ctx.origDestPort 3

end

/-- A run of a handler that is bounded, and returns with the client closed or
handed to a bridge. -/
structure Bounded {σ : Type} (client : Sock) (ran : Ran Call Call.Resp σ Unit) : Prop where
  connections : ran.trace.countP opens ≤ 4
  requests : ran.trace.countP requests ≤ 24
  /-- The CONNECTs of one connection: no other connection is opened between them. -/
  perConnection : ∀ part, part <:+: ran.trace → (∀ e ∈ part, opens e = false) → part.countP TR.Impl.requests ≤ 6
  returns : ran.result = some ()
  released : ∃ e ∈ ran.trace, Releases client e.1

/-- In every environment, 28 jumps are enough for the handler to leave its
loops, after at most four connections, with six CONNECTs on each, and it
returns with the client closed or handed to a bridge exactly if no `recv` it
makes returns `SOCKET_ERROR`. -/
theorem handshake_bounded_iff {σ : Type} (m : Relay) (ctx : RelayContext) (answer : (c : Call) → σ → c.Resp × σ)
    (w : σ) (stuck : RelayProg Unit) (n : Nat) :
    let ran := (connectionHandlerJumps m stuck (28 + n) ctx).exec answer w
    Bounded ctx.clientSock ran ↔ ∀ e ∈ ran.trace, recvFailed e = false := by
  rw [connectionHandlerJumps_eq]
  dsimp only
  rw [← connectionHandler_returns_iff m ctx answer w]
  refine ⟨fun h => h.returns, fun hreturns => ?_⟩
  obtain ⟨b, hb, hreleased⟩ := (connectionHandler_keepsTo m ctx).sound answer w
  obtain ⟨hconnects, -, hsends, -, hr⟩ := Allowance.run_spec hb
  simp only at hconnects hsends
  refine ⟨by omega, by omega, fun part hpart hopens => ?_, hreturns, (hr (hreleased hreturns)).resolve_left nofun⟩
  obtain ⟨before, after, htr⟩ := hpart
  rw [← htr, observe_append, observe_append, Option.bind_eq_some_iff] at hb
  obtain ⟨b₂, hb₂, -⟩ := hb
  obtain ⟨b₁, hb₁, hb₂⟩ := Option.bind_eq_some_iff.mp hb₂
  have h6 : b₁.sends ≤ 6 := (Allowance.run_spec hb₁).2.2.2.1 (Nat.zero_le 6)
  have := (Allowance.run_spec hb₂).2.1 hopens
  omega

/-- The proxy resets the connection instead of answering: the handler neither
closes the client nor hands it to a bridge. -/
theorem recvError_keeps_client :
    let ran := (connectionHandlerJumps Demo.tcpRelay (pure ()) 28 Demo.accepted).exec (fun c w => (Demo.reply c, w)) ()
    ran.result = none ∧ (∀ e ∈ ran.trace, ¬Releases Demo.accepted.clientSock e.1) ∧
      ¬Bounded Demo.accepted.clientSock ran := by
  have hr : ∀ e ∈ ((connectionHandlerJumps Demo.tcpRelay (pure ()) 28 Demo.accepted).exec
      (fun c w => (Demo.reply c, w)) ()).trace, ¬Releases Demo.accepted.clientSock e.1 := by decide
  exact ⟨rfl, hr, fun h => h.released.elim fun e he => hr e he.1 he.2⟩

end TR.Impl
