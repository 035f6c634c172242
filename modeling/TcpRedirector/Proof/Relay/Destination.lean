import TcpRedirector.Proof.Capture.Invariant
import TcpRedirector.Proof.Relay.Calls

/-!
# Where a connection goes

Every CONNECT of a handler names the destination that `HandleNewConnection`
found in the table (`connectionHandler_issues`). The capture loop writes a
port's destination when it starts to track the port and relies on it from
then on, so a SYN from a port that is still tracked, or tracked again by a
late packet, goes to the earlier destination (`syn_recorded_iff`).
-/

namespace TR.Impl

open RelayProg TR.Impl.System

/-- The calls of a handler for `destIp:destPort`: it resolves and connects to
the configured proxy, sends CONNECTs for that destination and authenticates
as a client of the proxy. -/
def Issues (m : Relay) (destIp : BitVec 32) (destPort : BitVec 16) : Call → Prop
  | .getaddrinfo host => host = m.proxyHost
  | .connect _ _ port => port = htons m.proxyPort
  | .send _ data => connectReq destIp destPort <+: data
  | .createContext name => name = spn m
  | _ => True

section

variable {m : Relay} {client proxy : Sock} {destIp : BitVec 32} {destPort : BitVec 16}

theorem incrementProxyErrors_issues : (incrementProxyErrors m).Calls (Issues m destIp destPort) :=
  calls_incrementProxyErrors trivial

theorem closeAuthContext_issues (ctx : AuthContext) : (closeAuthContext m ctx).Calls (Issues m destIp destPort) :=
  calls_closeAuthContext (fun _ => trivial) ctx

theorem closeAll_issues : (closeAll client proxy).Calls (Issues m destIp destPort) :=
  calls_closeAll (fun _ => trivial) trivial

/-- The usual end of a failed attempt. -/
theorem failed_issues (ctx : AuthContext) : Prog.Calls (Issues m destIp destPort) (do
    incrementProxyErrors m
    closeAuthContext m ctx
    closeAll client proxy) :=
  incrementProxyErrors_issues.bind fun _ => (closeAuthContext_issues ctx).bind fun _ => closeAll_issues

/-- With a context that is certainly active. -/
theorem contextFailed_issues (id : BitVec 64) : Prog.Calls (Issues m destIp destPort) (do
    incrementProxyErrors m
    closeContext id
    closeAll client proxy) :=
  incrementProxyErrors_issues.bind fun _ => ⟨trivial, fun _ => closeAll_issues⟩

theorem onConnected_issues (ctx : AuthContext) : (onConnected m client proxy ctx).Calls (Issues m destIp destPort) :=
  (closeAuthContext_issues ctx).bind fun _ => ⟨trivial, fun _ => ⟨trivial, fun _ => ⟨trivial, fun _ => ⟨trivial,
    fun _ => ⟨trivial, fun _ => ⟨trivial, fun _ => trivial⟩⟩⟩⟩⟩⟩

/-- A jump back to `retry_connect`. -/
def RetryIssues (m : Relay) (destIp : BitVec 32) (destPort : BitVec 16)
    (retry : Option (BitVec 64 → RelayProg Unit)) : Prop :=
  ∀ f, retry = some f → ∀ id, (f id).Calls (Issues m destIp destPort)

theorem onChallenge_issues {retry : Option (BitVec 64 → RelayProg Unit)} (hr : RetryIssues m destIp destPort retry)
    (id : BitVec 64)
    (resp : Bytes) : (onChallenge m client proxy retry id resp).Calls (Issues m destIp destPort) := by
  unfold onChallenge
  dsimp only
  split
  · exact contextFailed_issues id
  refine ⟨trivial, fun (r : ContinueContextResult) => ?_⟩
  show Prog.Calls _ (if (!r.success) = true then _ else if r.token.isEmpty = true then _ else _)
  split
  · exact contextFailed_issues id
  split
  · exact contextFailed_issues id
  refine ⟨trivial, fun _ => ?_⟩
  cases retry with
  | none => exact contextFailed_issues id
  | some f => exact hr f rfl id

theorem onUnauthenticated_issues {retry : Option (BitVec 64 → RelayProg Unit)} (hr : RetryIssues m destIp destPort retry) :
    (onUnauthenticated m client proxy retry).Calls (Issues m destIp destPort) := by
  refine ⟨rfl, fun (r : CreateContextResult) => ?_⟩
  show Prog.Calls _ (if r.success = true then _ else _)
  split
  · refine ⟨trivial, fun _ => ?_⟩
    cases retry with
    | none => exact ⟨trivial, fun _ => closeAll_issues⟩
    | some f => exact hr f rfl r.contextId
  · exact incrementProxyErrors_issues.bind fun _ => closeAll_issues

/-- A jump back to `retry_proxy_connect`. -/
def AgainIssues (m : Relay) (destIp : BitVec 32) (destPort : BitVec 16) (again : Option (RelayProg Unit)) : Prop :=
  ∀ p, again = some p → p.Calls (Issues m destIp destPort)

theorem onFailure_issues {again : Option (RelayProg Unit)} (ha : AgainIssues m destIp destPort again) (ctx : AuthContext)
    (resp : Bytes) : (onFailure m client proxy again ctx resp).Calls (Issues m destIp destPort) := by
  unfold onFailure
  split
  · rename_i p _
    exact (closeAuthContext_issues ctx).bind fun _ => ⟨trivial, fun _ => ⟨trivial, fun _ => ha p rfl⟩⟩
  · exact failed_issues ctx

theorem awaitResponse_issues {again : Option (RelayProg Unit)} {retry : Option (BitVec 64 → RelayProg Unit)}
    (ha : AgainIssues m destIp destPort again) (hr : RetryIssues m destIp destPort retry) (ctx : AuthContext) :
    (awaitResponse m client proxy again retry ctx).Calls (Issues m destIp destPort) := by
  refine ⟨trivial, fun (r : Option { b : Bytes // b.length ≤ 4095 }) => ?_⟩
  cases r with
  | none => trivial
  | some resp =>
    show (onResponse m client proxy again retry ctx resp.1).Calls (Issues m destIp destPort)
    unfold onResponse
    split
    · exact failed_issues ctx
    split
    · exact onConnected_issues ctx
    split
    · cases ctx with
      | none => exact onUnauthenticated_issues hr
      | some id =>
        dsimp only
        split
        · exact onChallenge_issues hr id resp.1
        · exact contextFailed_issues id
    · exact onFailure_issues ha ctx resp.1

theorem authenticate_issues (ctx : AuthContext) : (authenticate m ctx).Calls (Issues m destIp destPort) := by
  unfold authenticate
  split
  · cases ctx with
    | none =>
      refine ⟨rfl, fun (r : CreateContextResult) => ?_⟩
      show Prog.Calls _ (if r.success = true then _ else _)
      split <;> trivial
    | some id => exact ⟨trivial, fun _ => trivial⟩
  · trivial

theorem sendConnect_issues {again : Option (RelayProg Unit)} {retry : Option (BitVec 64 → RelayProg Unit)}
    (ha : AgainIssues m destIp destPort again) (hr : RetryIssues m destIp destPort retry) (ctx : AuthContext) :
    (sendConnect m client proxy destIp destPort again retry ctx).Calls (Issues m destIp destPort) := by
  refine (authenticate_issues ctx).bind fun ⟨auth, ctx'⟩ => ⟨?_, fun r => ?_⟩
  · show connectReq destIp destPort <+: _
    rw [List.append_assoc]
    exact List.prefix_append ..
  · cases (r : Option (Fin _)) with
    | none => exact failed_issues ctx'
    | some n => exact awaitResponse_issues ha hr ctx'

theorem retryConnect_issues {again : Option (RelayProg Unit)} (ha : AgainIssues m destIp destPort again) (n : Nat)
    (ctx : AuthContext) :
    (retryConnect m client proxy destIp destPort again n ctx).Calls (Issues m destIp destPort) := by
  induction n generalizing ctx with
  | zero => exact sendConnect_issues ha (fun f hf => by cases hf) ctx
  | succ n ih => exact sendConnect_issues ha (fun f hf id => by cases hf; exact ih _) ctx

theorem setSocketOptions_issues : (setSocketOptions client proxy).Calls (Issues m destIp destPort) :=
  calls_setSocketOptions fun _ _ _ => trivial

theorem connectProxy_issues {addr : BitVec 32} {again : Option (RelayProg Unit)}
    (ha : AgainIssues m destIp destPort again) :
    (connectProxy m client addr destIp destPort again).Calls (Issues m destIp destPort) := by
  refine ⟨trivial, fun (r : Option Sock) => ?_⟩
  cases r with
  | none =>
    exact incrementProxyErrors_issues.bind fun _ => ⟨trivial, fun _ => ⟨trivial, fun _ => trivial⟩⟩
  | some proxy =>
    refine setSocketOptions_issues.bind fun _ => ⟨rfl, fun (r : Bool) => ?_⟩
    cases r with
    | true => exact retryConnect_issues ha 5 none
    | false => exact incrementProxyErrors_issues.bind fun _ => closeAll_issues

theorem retryProxyConnect_issues {addr : BitVec 32} (n : Nat) :
    (retryProxyConnect m client addr destIp destPort n).Calls (Issues m destIp destPort) := by
  induction n with
  | zero => exact connectProxy_issues fun p hp => by cases hp
  | succ n ih => exact connectProxy_issues fun p hp => by cases hp; exact ih

theorem connectionHandler_issues (m : Relay) (ctx : RelayContext) :
    (connectionHandler m ctx).Calls (Issues m ctx.origDestIp ctx.origDestPort) := by
  refine ⟨rfl, fun (r : Option (BitVec 32)) => ?_⟩
  cases r with
  | none => exact incrementProxyErrors_issues.bind fun _ => ⟨trivial, fun _ => trivial⟩
  | some addr => exact retryProxyConnect_issues MAX_GATEWAY_RETRIES

end

/-! ## Runs of the capture loop -/

/-- The SYN `pk` is on record in `s`: the table has its destination, and
whenever its connection is accepted before it is closed, its handler's
CONNECTs name that destination. -/
structure Dialled (cfg : Config) (pk : Packet) (s : System) : Prop where
  recorded : s.table.get pk.src = some (pk.dstAddr, pk.dst)
  connects : ∀ es, (∀ os pk', .packet os pk' ∈ es → ¬ Closes cfg pk.src pk') → ∀ clientSock,
    ∃ ctx, handleNewConnection (captureLoop cfg es s).table clientSock pk.src = some ctx ∧
      ∀ (m : Relay) (σ : Type) (answer : (c : Call) → σ → c.Resp × σ) (w : σ) (sock : Sock) (data : Bytes) r,
        ⟨.send sock data, r⟩ ∈ ((connectionHandler m ctx).exec answer w).trace →
        connectReq pk.dstAddr pk.dst <+: data

section

variable {cfg : Config} {s : System}

/-- What the table has of a port outlives a run that does not close its connection. -/
theorem get_captureLoop (h : Inv cfg s) {p : BitVec 16} {x : BitVec 32 × BitVec 16} (hg : s.table.get p = some x)
    {es : List Event} (hc : ∀ os pk, .packet os pk ∈ es → ¬ Closes cfg p pk) :
    (captureLoop cfg es s).table.get p = some x := by
  induction es generalizing s with
  | nil => exact hg
  | cons ev es ih =>
    refine ih (step_inv cfg ev s h) (get_step h hg fun os pk he => ?_) fun os pk hm => hc os pk (List.mem_cons_of_mem _ hm)
    exact hc os pk (he ▸ List.mem_cons_self)

theorem dialled_iff (h : Inv cfg s) {pk : Packet} :
    Dialled cfg pk s ↔ s.table.get pk.src = some (pk.dstAddr, pk.dst) := by
  refine ⟨fun hd => hd.recorded, fun hg => ⟨hg, fun es hes clientSock => ?_⟩⟩
  refine ⟨_, by rw [handleNewConnection, get_captureLoop h hg hes], fun m σ answer w sock data r hm => ?_⟩
  exact (connectionHandler_issues m _).sound answer w _ hm

/-- A SYN that is sent to the relay is on record exactly if its port was not
tracked, or tracked for the same destination. -/
theorem syn_recorded_iff (h : Inv cfg s) {os : Os} {pk : Packet}
    (hr : (step cfg (.packet os pk) s).2.route.towardsRelay = true) :
    (step cfg (.packet os pk) s).1.table.get pk.src = some (pk.dstAddr, pk.dst) ↔
      s.table.get pk.src = none ∨ (s.table.get pk.src = some (pk.dstAddr, pk.dst) ∧ pk.closing = false) := by
  have hroute : (step cfg (.packet os pk) s).2.route = .tracked ∧ s.table.get pk.src ≠ none ∨
      (step cfg (.packet os pk) s).2.route = .judged .proxy ∧ s.table.get pk.src = none := by
    obtain ⟨s', o, hst, hx⟩ := step_packet cfg os pk s
    rw [hst] at hr ⊢
    cases hx with
    | tracked _ _ _ e he => exact .inl ⟨rfl, by rw [ConnectionTable.get, he]; simp⟩
    | proxy hu => exact .inr ⟨rfl, by rw [ConnectionTable.get, hu.entry]; rfl⟩
    | _ => cases hr
  rcases hroute with ⟨ht, hne⟩ | ⟨hp, hn⟩
  · obtain ⟨x, hx⟩ := Option.ne_none_iff_exists'.mp hne
    rw [get_tracked h ht hx, hx]
    cases pk.closing <;> simp
  · exact iff_of_true (get_proxy h hp) (.inl hn)

end

/-- In every run, every SYN that the loop sends to the relay is on record
right after it, exactly if its port was not tracked then, or was tracked for
the same destination and the SYN does not close the connection at once. -/
theorem destination_integrity_iff (cfg : Config) (path : WString) (host : Bytes) (port : BitVec 16) (rules : List Rule)
    (events : List Event) :
    (∀ st ∈ loopTrace cfg events (.init path host port rules), ∀ os pk, st.input = .packet os pk → pk.syn = true →
      pk.ack = false → st.out.route.towardsRelay = true → Dialled cfg pk st.post) ↔
    ∀ st ∈ loopTrace cfg events (.init path host port rules), ∀ os pk, st.input = .packet os pk → pk.syn = true →
      pk.ack = false → st.out.route.towardsRelay = true →
      st.pre.table.get pk.src = none ∨
        (st.pre.table.get pk.src = some (pk.dstAddr, pk.dst) ∧ pk.closing = false) := by
  refine forall_trace_congr (step_inv cfg) (fun ev s hi => ?_) events (inv_init cfg path host port rules)
  refine forall₄_congr fun os pk hin hsyn => forall₂_congr fun hack hr => ?_
  cases hin
  exact (dialled_iff (step_inv cfg _ s hi)).trans (syn_recorded_iff hi hr)

/-- The client's FIN ends a connection to 1.2.3.4:443, a late ACK puts it back
on record, and the next connection from the port, to 8.8.8.8:80, is taken for
it. -/
theorem destination_mixed :
    let s := captureLoop Demo.cfg [.packet (Demo.owned 1000 8) { Demo.client 1000 0x04030201 443 with syn := true },
      .packet (Demo.owned 1000 8) { Demo.client 1000 0x04030201 443 with fin := true, ack := true },
      .packet (Demo.owned 1000 8) { Demo.client 1000 0x04030201 443 with ack := true }] Demo.start
    let syn := { Demo.client 1000 0x08080808 80 with syn := true }
    let s' := (step Demo.cfg (.packet (Demo.owned 1000 8) syn) s).1
    (step Demo.cfg (.packet (Demo.owned 1000 8) syn) s).2.route.towardsRelay = true ∧
      s'.table.get 1000 = some (0x04030201, 443) ∧
      handleNewConnection s'.table 1 1000 = some ⟨1, 0x04030201, 443, 0⟩ ∧ ¬ Dialled Demo.cfg syn s' := by
  refine ⟨by decide, by decide, by decide, fun h => ?_⟩
  exact absurd h.recorded (by decide)

end TR.Impl
