import TcpRedirector.Proof.Relay.Calls

/-!
# What a handler opens it closes

`Ledger` lists the sockets, the authentication contexts and the resolved
addresses a handler holds, and refuses to let it close or use one it does not
hold. Every path through `connectionHandler` ends with an empty ledger, but
for one: if `recv` fails, the response is made a string before the failure is
looked at, and an exception leaves the thread (`handshake_balanced_iff`).
-/

namespace TR.Impl

open RelayProg

/-- What a handler holds. -/
structure Ledger where
  sockets : List Sock
  contexts : List (BitVec 64)
  addrinfos : Nat
  deriving Repr, DecidableEq

namespace Ledger

/-- Nothing held. -/
def empty : Ledger := ⟨[], [], 0⟩

/-- The ledger after a call; none if the call closes or uses what is not
held. The two sockets of a bridge are the bridge's. -/
def record (l : Ledger) : (c : Call) → c.Resp → Option Ledger
  | .getaddrinfo _, r => some { l with addrinfos := l.addrinfos + (Option.toList r).length }
  | .freeaddrinfo, _ => if 0 < l.addrinfos then some { l with addrinfos := l.addrinfos - 1 } else none
  | .socket, r => some { l with sockets := Option.toList r ++ l.sockets }
  | .setsockopt s _ _, _ | .connect s _ _, _ | .send s _, _ | .recv s _, _ | .shutdown s, _ =>
    if s ∈ l.sockets then some l else none
  | .closesocket s, _ => if s ∈ l.sockets then some { l with sockets := l.sockets.erase s } else none
  | .createContext _, r =>
    some (if CreateContextResult.success r then { l with contexts := CreateContextResult.contextId r :: l.contexts } else l)
  | .continueContext id _, _ => if id ∈ l.contexts then some l else none
  | .closeContext id, _ => if id ∈ l.contexts then some { l with contexts := l.contexts.erase id } else none
  | .startBridge client proxy, _ =>
    if client ∈ l.sockets ∧ proxy ∈ l.sockets.erase client then
      some { l with sockets := (l.sockets.erase client).erase proxy }
    else none
  | .readLastAuthToken, _ | .writeLastAuthToken _, _ | .incrementProxyErrors, _ | .sleep _, _ | .fetchAdd _, _
  | .decrementRefs, _ => some l

end Ledger

/-- `recv` returned `SOCKET_ERROR`. -/
def recvFailed : Answered Call Call.Resp → Bool
  | ⟨.recv _ _, r⟩ => Option.isNone r
  | _ => false

/-- The ledger, and whether a `recv` has failed. -/
def audit (l : Ledger × Bool) (c : Call) (r : c.Resp) : Option (Ledger × Bool) :=
  (l.1.record c r).map (·, l.2 || recvFailed ⟨c, r⟩)

/-- The end of a handler: everything is given back, unless `recv` failed and
an exception left it. -/
def Settled (l : Ledger × Bool) (r : Option Unit) : Prop :=
  if l.2 then r = none else r = some () ∧ l.1 = .empty

/-- What is held during an attempt: two sockets, the addresses and the
context, if any. -/
def held (client proxy : Sock) (ctx : AuthContext) : Ledger × Bool := (⟨[proxy, client], ctx.toList, 1⟩, false)

section

variable {m : Relay} {client proxy : Sock} {ctx : AuthContext} {Q : Ledger × Bool → Option Unit → Prop}

theorem erase_client : [proxy, client].erase client = [proxy] := by
  by_cases h : proxy = client <;> simp [h]

theorem audit_incrementProxyErrors {f : Unit → RelayProg Unit} {l : Ledger × Bool} (h : WP audit Q (f ()) l) :
    WP audit Q (incrementProxyErrors m >>= f) l := by
  rw [incrementProxyErrors]
  split
  · exact fun _ => ⟨l, by simp [audit, Ledger.record, recvFailed], h⟩
  · exact h

/-- The context is closed if there is one, and there is none without a provider. -/
theorem audit_closeAuthContext {f : Unit → RelayProg Unit} {l : Ledger × Bool}
    (hp : ctx.isSome = true → m.authProvider.isSome = true) (hl : l.1.contexts = ctx.toList)
    (h : WP audit Q (f ()) ({ l.1 with contexts := [] }, l.2)) : WP audit Q (closeAuthContext m ctx >>= f) l := by
  obtain ⟨⟨socks, ctxs, n⟩, b⟩ := l
  simp only at hl
  subst hl
  cases ctx with
  | none => exact h
  | some id =>
    rw [closeAuthContext]
    simp only [hp rfl, ite_true, WP_closeContext]
    exact ⟨_, by simp [audit, Ledger.record, recvFailed], h⟩

theorem closeAll_settled : WP audit Settled (closeAll client proxy) (held client proxy none) := by
  rw [closeAll, WP_closesocket]
  refine ⟨(⟨[proxy], [], 1⟩, false), by simp [audit, held, Ledger.record, recvFailed, erase_client], ?_⟩
  rw [WP_closesocket]
  refine ⟨(⟨[], [], 1⟩, false), by simp [audit, Ledger.record, recvFailed], fun _ => ?_⟩
  exact ⟨(.empty, false), by simp [audit, Ledger.record, recvFailed, Ledger.empty], rfl, rfl⟩

/-- The usual end of a failed attempt. -/
theorem failed_settled (hp : ctx.isSome = true → m.authProvider.isSome = true) : WP audit Settled (do
    incrementProxyErrors m
    closeAuthContext m ctx
    closeAll client proxy) (held client proxy ctx) :=
  audit_incrementProxyErrors (audit_closeAuthContext hp rfl closeAll_settled)

/-- With a context that is certainly active. -/
theorem contextFailed_settled {id : BitVec 64} : WP audit Settled (do
    closeContext id
    closeAll client proxy) (held client proxy (some id)) := by
  rw [WP_closeContext]
  exact ⟨held client proxy none, by simp [audit, held, Ledger.record, recvFailed], closeAll_settled⟩

/-- A socket option changes nothing. -/
theorem audit_setsockopt {k : Sock} {opt : SockOpt} {v : Nat} {f : Unit → RelayProg Unit} {l : Ledger × Bool}
    (hk : k ∈ l.1.sockets) (h : WP audit Q (f ()) l) : WP audit Q (setsockopt k opt v >>= f) l := by
  rw [WP_setsockopt]
  exact ⟨l, by simp [audit, Ledger.record, recvFailed, hk], h⟩

theorem onConnected_settled (hp : ctx.isSome = true → m.authProvider.isSome = true) :
    WP audit Settled (onConnected m client proxy ctx) (held client proxy ctx) := by
  refine audit_closeAuthContext hp rfl ?_
  have hproxy : proxy ∈ (held client proxy none).1.sockets := by simp [held]
  have hclient : client ∈ (held client proxy none).1.sockets := by simp [held]
  refine audit_setsockopt hproxy (audit_setsockopt hproxy (audit_setsockopt hproxy (audit_setsockopt hclient ?_)))
  rw [WP_freeaddrinfo]
  refine ⟨(⟨[proxy, client], [], 0⟩, false), by simp [audit, held, Ledger.record, recvFailed], fun _ => ?_⟩
  exact ⟨(.empty, false), by simp [audit, Ledger.record, recvFailed, Ledger.empty, erase_client], rfl, rfl⟩

/-- A retry with a context of its own. -/
def RetrySettled (client proxy : Sock) (retry : Option (BitVec 64 → RelayProg Unit)) : Prop :=
  ∀ f, retry = some f → ∀ id, WP audit Settled (f id) (held client proxy (some id))

theorem onChallenge_settled {retry : Option (BitVec 64 → RelayProg Unit)} (hr : RetrySettled client proxy retry)
    (id : BitVec 64) (resp : Bytes) :
    WP audit Settled (onChallenge m client proxy retry id resp) (held client proxy (some id)) := by
  have giveUp : WP audit Settled (do
      incrementProxyErrors m
      closeContext id
      closeAll client proxy) (held client proxy (some id)) := audit_incrementProxyErrors contextFailed_settled
  unfold onChallenge
  dsimp only
  split
  · exact giveUp
  · rw [WP_continueContext]
    refine fun r => ⟨held client proxy (some id), by simp [audit, held, Ledger.record, recvFailed], ?_⟩
    split
    · exact giveUp
    · split
      · exact giveUp
      · rw [WP_writeLastAuthToken]
        refine ⟨held client proxy (some id), by simp [audit, held, Ledger.record, recvFailed], ?_⟩
        cases retry with
        | none => exact giveUp
        | some f => exact hr f rfl id

theorem onUnauthenticated_settled {retry : Option (BitVec 64 → RelayProg Unit)} (hr : RetrySettled client proxy retry) :
    WP audit Settled (onUnauthenticated m client proxy retry) (held client proxy none) := by
  rw [onUnauthenticated, WP_createContext]
  intro r
  cases hs : r.success with
  | true =>
    refine ⟨held client proxy (some r.contextId), by simp [audit, held, Ledger.record, recvFailed, hs], ?_⟩
    simp only [ite_true, WP_writeLastAuthToken]
    refine ⟨held client proxy (some r.contextId), by simp [audit, held, Ledger.record, recvFailed], ?_⟩
    cases retry with
    | none => exact contextFailed_settled
    | some f => exact hr f rfl r.contextId
  | false =>
    refine ⟨held client proxy none, by simp [audit, held, Ledger.record, recvFailed, hs], ?_⟩
    simp only [Bool.false_eq_true, ite_false]
    exact audit_incrementProxyErrors closeAll_settled

/-- A new start with the client's socket and the addresses alone. -/
def AgainSettled (client : Sock) (again : Option (RelayProg Unit)) : Prop :=
  ∀ p, again = some p → WP audit Settled p (⟨[client], [], 1⟩, false)

theorem onFailure_settled (hp : ctx.isSome = true → m.authProvider.isSome = true) {again : Option (RelayProg Unit)}
    (ha : AgainSettled client again) (resp : Bytes) :
    WP audit Settled (onFailure m client proxy again ctx resp) (held client proxy ctx) := by
  unfold onFailure
  split
  · rename_i p _
    refine audit_closeAuthContext hp rfl ?_
    rw [WP_closesocket]
    refine ⟨(⟨[client], [], 1⟩, false), by simp [audit, held, Ledger.record, recvFailed], ?_⟩
    rw [WP_sleep]
    exact ⟨_, by simp [audit, Ledger.record, recvFailed], ha p rfl⟩
  · exact failed_settled hp

theorem onResponse_settled (hp : ctx.isSome = true → m.authProvider.isSome = true) {again : Option (RelayProg Unit)}
    {retry : Option (BitVec 64 → RelayProg Unit)} (ha : AgainSettled client again)
    (hr : m.authProvider.isSome = true → RetrySettled client proxy retry) (resp : Bytes) :
    WP audit Settled (onResponse m client proxy again retry ctx resp) (held client proxy ctx) := by
  unfold onResponse
  split
  · exact failed_settled hp
  split
  · exact onConnected_settled hp
  split
  · rename_i h407
    have hprov : m.authProvider.isSome = true := (Bool.and_eq_true_iff.mp (Bool.and_eq_true_iff.mp h407).2).2
    cases ctx with
    | none => exact onUnauthenticated_settled (hr hprov)
    | some id =>
      dsimp only
      split
      · exact onChallenge_settled (hr hprov) id resp
      · exact audit_incrementProxyErrors contextFailed_settled
  · exact onFailure_settled hp ha resp

theorem awaitResponse_settled (hp : ctx.isSome = true → m.authProvider.isSome = true) {again : Option (RelayProg Unit)}
    {retry : Option (BitVec 64 → RelayProg Unit)} (ha : AgainSettled client again)
    (hr : m.authProvider.isSome = true → RetrySettled client proxy retry) :
    WP audit Settled (awaitResponse m client proxy again retry ctx) (held client proxy ctx) := by
  rw [awaitResponse, WP_recv]
  intro r
  cases r with
  | none => exact ⟨((held client proxy ctx).1, true), by simp [audit, held, Ledger.record, recvFailed], rfl⟩
  | some resp =>
    refine ⟨held client proxy ctx, by simp [audit, held, Ledger.record, recvFailed], ?_⟩
    exact onResponse_settled hp ha hr resp.1

/-- The header leaves the context it was made with. -/
theorem authenticate_audit (hp : ctx.isSome = true → m.authProvider.isSome = true) :
    WP audit (fun l r => ∃ auth ctx', r = some (auth, ctx') ∧ l = held client proxy ctx' ∧
      (ctx'.isSome = true → m.authProvider.isSome = true)) (authenticate m ctx) (held client proxy ctx) := by
  unfold authenticate
  split
  · rename_i hc
    have hprov : m.authProvider.isSome = true := (Bool.and_eq_true_iff.mp hc).2
    cases ctx with
    | none =>
      dsimp only
      rw [WP_createContext]
      intro r
      cases hs : r.success with
      | true =>
        exact ⟨held client proxy (some r.contextId), by simp [audit, held, Ledger.record, recvFailed, hs],
          _, _, rfl, rfl, fun _ => hprov⟩
      | false =>
        exact ⟨held client proxy none, by simp [audit, held, Ledger.record, recvFailed, hs],
          _, _, rfl, rfl, fun _ => hprov⟩
    | some id =>
      dsimp only
      rw [WP_readLastAuthToken]
      exact fun token => ⟨held client proxy (some id), by simp [audit, held, Ledger.record, recvFailed],
        _, _, rfl, rfl, fun _ => hprov⟩
  · exact ⟨_, _, rfl, rfl, hp⟩

theorem sendConnect_settled (hp : ctx.isSome = true → m.authProvider.isSome = true) (destIp : BitVec 32)
    (destPort : BitVec 16) {again : Option (RelayProg Unit)} {retry : Option (BitVec 64 → RelayProg Unit)}
    (ha : AgainSettled client again) (hr : m.authProvider.isSome = true → RetrySettled client proxy retry) :
    WP audit Settled (sendConnect m client proxy destIp destPort again retry ctx) (held client proxy ctx) := by
  rw [sendConnect, WP_bind]
  refine (authenticate_audit hp).mono fun l r h => ?_
  obtain ⟨auth, ctx', rfl, rfl, hp'⟩ := h
  simp only [Option.elim_some, WP_send]
  refine fun r => ⟨held client proxy ctx', by simp [audit, held, Ledger.record, recvFailed], ?_⟩
  cases r with
  | none => exact failed_settled hp'
  | some n => exact awaitResponse_settled hp' ha hr

theorem retryConnect_settled (hp : ctx.isSome = true → m.authProvider.isSome = true) (destIp : BitVec 32)
    (destPort : BitVec 16) {again : Option (RelayProg Unit)} (ha : AgainSettled client again) (n : Nat) :
    WP audit Settled (retryConnect m client proxy destIp destPort again n ctx) (held client proxy ctx) := by
  induction n generalizing ctx with
  | zero => exact sendConnect_settled hp destIp destPort ha fun _ f hf => by cases hf
  | succ n ih =>
    refine sendConnect_settled hp destIp destPort ha fun hprov f hf id => ?_
    cases hf
    exact ih fun _ => hprov

/-- The options leave everything as it is. -/
theorem setSocketOptions_audit : WP audit (fun l r => r = some () ∧ l = held client proxy none)
    (setSocketOptions client proxy) (held client proxy none) := by
  have hproxy : proxy ∈ (held client proxy none).1.sockets := by simp [held]
  have hclient : client ∈ (held client proxy none).1.sockets := by simp [held]
  refine audit_setsockopt hproxy (audit_setsockopt hproxy (audit_setsockopt hproxy (audit_setsockopt hproxy
    (audit_setsockopt hclient (audit_setsockopt hclient (audit_setsockopt hproxy fun _ => ?_))))))
  exact ⟨held client proxy none, by simp [audit, held, Ledger.record, recvFailed], rfl, rfl⟩

theorem connectProxy_settled (addr destIp : BitVec 32) (destPort : BitVec 16) {again : Option (RelayProg Unit)}
    (ha : AgainSettled client again) :
    WP audit Settled (connectProxy m client addr destIp destPort again) (⟨[client], [], 1⟩, false) := by
  rw [connectProxy, WP_socket]
  intro r
  cases r with
  | none =>
    refine ⟨(⟨[client], [], 1⟩, false), by simp [audit, Ledger.record, recvFailed], audit_incrementProxyErrors ?_⟩
    rw [WP_closesocket]
    refine ⟨(⟨[], [], 1⟩, false), by simp [audit, Ledger.record, recvFailed], fun _ => ?_⟩
    exact ⟨(.empty, false), by simp [audit, Ledger.record, recvFailed, Ledger.empty], rfl, rfl⟩
  | some proxy =>
    refine ⟨held client proxy none, by simp [audit, held, Ledger.record, recvFailed], ?_⟩
    rw [WP_bind]
    refine setSocketOptions_audit.mono fun l r h => ?_
    obtain ⟨rfl, rfl⟩ := h
    simp only [Option.elim_some, WP_connect]
    refine fun r => ⟨held client proxy none, by simp [audit, held, Ledger.record, recvFailed], ?_⟩
    cases r with
    | true => exact retryConnect_settled (fun h => by cases h) destIp destPort ha 5
    | false => exact audit_incrementProxyErrors closeAll_settled

theorem retryProxyConnect_settled (addr destIp : BitVec 32) (destPort : BitVec 16) (n : Nat) :
    WP audit Settled (retryProxyConnect m client addr destIp destPort n) (⟨[client], [], 1⟩, false) := by
  induction n with
  | zero => exact connectProxy_settled addr destIp destPort fun p hp => by cases hp
  | succ n ih => exact connectProxy_settled addr destIp destPort fun p hp => by cases hp; exact ih

theorem connectionHandler_settled (m : Relay) (ctx : RelayContext) :
    WP audit Settled (connectionHandler m ctx) (⟨[ctx.clientSock], [], 0⟩, false) := by
  rw [connectionHandler, WP_getaddrinfo]
  intro r
  cases r with
  | none =>
    refine ⟨(⟨[ctx.clientSock], [], 0⟩, false), by simp [audit, Ledger.record, recvFailed],
      audit_incrementProxyErrors fun _ => ?_⟩
    exact ⟨(.empty, false), by simp [audit, Ledger.record, recvFailed, Ledger.empty], rfl, rfl⟩
  | some addr =>
    exact ⟨(⟨[ctx.clientSock], [], 1⟩, false), by simp [audit, Ledger.record, recvFailed],
      retryProxyConnect_settled addr _ _ _⟩

end

/-- The audit of a run is its ledger and whether a `recv` failed. -/
theorem observe_audit (tr : List (Answered Call Call.Resp)) (l : Ledger) (b : Bool) :
    observe audit tr (l, b) = (observe Ledger.record tr l).map (·, b || tr.any recvFailed) := by
  induction tr generalizing l b with
  | nil => simp [observe]
  | cons e tr ih =>
    simp only [observe, audit]
    cases l.record e.1 e.2 with
    | none => rfl
    | some l' =>
      simp only [Option.map_some, Option.bind_some, ih, List.any_cons, Bool.or_assoc]

/-- The end of a handler in an environment. -/
theorem connectionHandler_ends {σ : Type} (m : Relay) (ctx : RelayContext) (answer : (c : Call) → σ → c.Resp × σ) (w : σ) :
    let ran := (connectionHandler m ctx).exec answer w
    ∃ l, observe Ledger.record ran.trace ⟨[ctx.clientSock], [], 0⟩ = some l ∧
      Settled (l, ran.trace.any recvFailed) ran.result := by
  intro ran
  obtain ⟨⟨l, b⟩, ho, hs⟩ := (connectionHandler_settled m ctx).sound answer w
  rw [observe_audit, Bool.false_or, Option.map_eq_some_iff] at ho
  obtain ⟨l', hl, heq⟩ := ho
  cases heq
  exact ⟨l, hl, hs⟩

/-- It returns exactly if no `recv` failed. -/
theorem connectionHandler_returns_iff {σ : Type} (m : Relay) (ctx : RelayContext)
    (answer : (c : Call) → σ → c.Resp × σ) (w : σ) :
    ((connectionHandler m ctx).exec answer w).result = some () ↔
      ∀ e ∈ ((connectionHandler m ctx).exec answer w).trace, recvFailed e = false := by
  obtain ⟨l, -, hs⟩ := connectionHandler_ends m ctx answer w
  generalize (connectionHandler m ctx).exec answer w = ran at hs
  have hany : (∀ e ∈ ran.trace, recvFailed e = false) ↔ ran.trace.any recvFailed = false := by
    rw [List.any_eq_false]
    simp
  rw [hany]
  cases hb : ran.trace.any recvFailed with
  | true =>
    rw [hb] at hs
    have hnone : ran.result = none := hs
    exact iff_of_false (by rw [hnone]; nofun) nofun
  | false =>
    rw [hb] at hs
    exact iff_of_true hs.1 rfl

/-- In every environment the handler returns, with everything it opened given
back, closed once or handed to the bridge, and nothing used or closed that it
does not hold, exactly if no `recv` it makes returns `SOCKET_ERROR`. -/
theorem handshake_balanced_iff {σ : Type} (m : Relay) (ctx : RelayContext) (answer : (c : Call) → σ → c.Resp × σ)
    (w : σ) :
    let ran := (connectionHandler m ctx).exec answer w
    (ran.result = some () ∧ observe Ledger.record ran.trace ⟨[ctx.clientSock], [], 0⟩ = some .empty) ↔
      ∀ e ∈ ran.trace, recvFailed e = false := by
  dsimp only
  rw [← connectionHandler_returns_iff m ctx answer w, and_iff_left_iff_imp]
  intro hr
  obtain ⟨l, hl, hs⟩ := connectionHandler_ends m ctx answer w
  unfold Settled at hs
  split at hs
  · exact absurd (hs.symm.trans hr) nofun
  · exact hs.2 ▸ hl

/-- The proxy resets the connection instead of answering: an exception leaves
the handler, which still holds both sockets and the addresses. -/
theorem recvError_escapes :
    let ran := (connectionHandler Demo.tcpRelay Demo.accepted).exec (fun c w => (Demo.reply c, w)) ()
    ran.result = none ∧ observe Ledger.record ran.trace ⟨[1], [], 0⟩ = some ⟨[2, 1], [], 1⟩ := ⟨rfl, rfl⟩

end TR.Impl
