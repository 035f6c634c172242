import TcpRedirector.Proof.Relay.Calls

/-!
# The token of a handler's own context

`handshake` follows a handler with the token the provider last returned for
its context. It refuses a CONNECT that carries another token, a token written
to `m_lastAuthToken` that is not this one, a read of `m_lastAuthToken` that
does not come right after such a write, and any call after `StartBridge`.
What is read back is believed to be the token. No handler is ever refused
(`connectionHandler_handshake`).
-/

namespace TR.Impl

open RelayProg

/-- The id of a handler's context and the token last returned for it. -/
abbrev OwnToken := Option (BitVec 64 × Bytes)

/-- The token after a call. -/
def OwnToken.next (own : OwnToken) : (c : Call) → c.Resp → OwnToken
  | .createContext _, r =>
    if CreateContextResult.success r then some (CreateContextResult.contextId r, CreateContextResult.token r) else own
  | .continueContext id _, r =>
    if own.map (·.1) = some id ∧ ContinueContextResult.success r then some (id, ContinueContextResult.token r) else own
  | .closeContext id, _ => if own.map (·.1) = some id then none else own
  | _, _ => own

/-- A CONNECT without a token, or with the own one. -/
def Attributed (m : Relay) (destIp : BitVec 32) (destPort : BitVec 16) (own : OwnToken) (data : Bytes) : Prop :=
  data = connectReq destIp destPort ++ [] ++ ascii "Proxy-Connection: Keep-Alive\r\n\r\n" ∨
  ∃ x ∈ own, data = connectReq destIp destPort ++ proxyAuthorization m x.2 ++ ascii "Proxy-Connection: Keep-Alive\r\n\r\n"

instance (m : Relay) (destIp : BitVec 32) (destPort : BitVec 16) (own : OwnToken) (data : Bytes) :
    Decidable (Attributed m destIp destPort own data) := inferInstanceAs (Decidable (_ ∨ ∃ x ∈ own, _))

inductive HandshakeState where
  | talking (own : OwnToken)
  /-- The own token has just been written to `m_lastAuthToken`. -/
  | stored (id : BitVec 64) (token : Bytes)
  | bridged
  deriving Repr, DecidableEq

def HandshakeState.own : HandshakeState → OwnToken
  | .talking own => own
  | .stored id token => some (id, token)
  | .bridged => none

section

variable (m : Relay) (destIp : BitVec 32) (destPort : BitVec 16)

/-- A call other than a read of `m_lastAuthToken`. -/
def talk (own : OwnToken) : (c : Call) → c.Resp → Option HandshakeState
  | .readLastAuthToken, _ => none
  | .writeLastAuthToken token, _ =>
    match own with
    | some (id, t) => if t = token then some (.stored id token) else none
    | none => none
  | .send _ data, _ => if Attributed m destIp destPort own data then some (.talking own) else none
  | .startBridge _ _, _ => some .bridged
  | c, r => some (.talking (own.next c r))

def handshake (st : HandshakeState) : (c : Call) → c.Resp → Option HandshakeState
  | .readLastAuthToken, r =>
    match st with
    | .stored id _ => some (.talking (some (id, r)))
    | _ => none
  | c, r =>
    match st with
    | .bridged => none
    | _ => talk m destIp destPort st.own c r

end

/-- The calls that neither touch `m_lastAuthToken` nor send nor start the bridge. -/
def Plain : Call → Prop
  | .readLastAuthToken | .writeLastAuthToken _ | .send _ _ | .startBridge _ _ => False
  | _ => True

section

variable {m : Relay} {destIp : BitVec 32} {destPort : BitVec 16} {st : HandshakeState} {α β : Type}

theorem handshake_plain {c : Call} (hc : Plain c) (hst : st ≠ .bridged) (r : c.Resp) :
    handshake m destIp destPort st c r = some (.talking (st.own.next c r)) := by
  cases c <;> first | exact hc.elim | (cases st <;> first | rfl | exact absurd rfl hst)

/-- Whatever the answers, the observer never refuses the program. -/
def Talks (m : Relay) (destIp : BitVec 32) (destPort : BitVec 16) (p : RelayProg Unit) (st : HandshakeState) : Prop :=
  WP (handshake m destIp destPort) (fun _ _ => True) p st

/-- Plain calls leave the handler in the handshake. -/
theorem Talks.plain_bind {p : RelayProg α} {f : α → RelayProg Unit} (hp : p.Calls Plain) (hst : st ≠ .bridged)
    (hf : ∀ a st', st' ≠ .bridged → Talks m destIp destPort (f a) st') : Talks m destIp destPort (p >>= f) st := by
  induction p generalizing st with
  | ret a => exact hf a st hst
  | throw => trivial
  | call c k ih => exact fun r => ⟨_, handshake_plain hp.1 hst r, ih r (hp.2 r) nofun⟩

theorem Talks.plain {p : RelayProg Unit} (hp : p.Calls Plain) (hst : st ≠ .bridged) : Talks m destIp destPort p st := by
  induction p generalizing st with
  | ret a => trivial
  | throw => trivial
  | call c k ih => exact fun r => ⟨_, handshake_plain hp.1 hst r, ih r (hp.2 r) nofun⟩

/-- A single plain call, of which the token after it matters. -/
theorem Talks.call {c : Call} {k : c.Resp → RelayProg Unit} (hc : Plain c) (hst : st ≠ .bridged)
    (hk : ∀ r, Talks m destIp destPort (k r) (.talking (st.own.next c r))) : Talks m destIp destPort (.call c k) st :=
  fun r => ⟨_, handshake_plain hc hst r, hk r⟩

theorem Talks.startBridge {client proxy : Sock} {k : Unit → RelayProg Unit}
    (h : Talks m destIp destPort (.call (.startBridge client proxy) k) st) : Talks m destIp destPort (k ()) .bridged := by
  obtain ⟨st', hst', ht'⟩ := h ()
  have hb : st' = .bridged := by
    cases st with
    | bridged => cases hst'
    | _ => exact (Option.some.inj hst').symm
  rwa [hb] at ht'

theorem plain_incrementProxyErrors : (incrementProxyErrors m).Calls Plain := calls_incrementProxyErrors trivial

theorem plain_closeAuthContext (ctx : AuthContext) : (closeAuthContext m ctx).Calls Plain :=
  calls_closeAuthContext (fun _ => trivial) ctx

theorem plain_closeAll (client proxy : Sock) : (closeAll client proxy).Calls Plain :=
  calls_closeAll (fun _ => trivial) trivial

variable {client proxy : Sock}

/-- The usual end of a failed attempt. -/
theorem plain_failed (ctx : AuthContext) : Prog.Calls Plain (do
    incrementProxyErrors m
    closeAuthContext m ctx
    closeAll client proxy) :=
  plain_incrementProxyErrors.bind fun _ => (plain_closeAuthContext ctx).bind fun _ => plain_closeAll client proxy

/-- With a context that is certainly active. -/
theorem plain_contextClosed (id : BitVec 64) : Prog.Calls Plain (do
    closeContext id
    closeAll client proxy) := ⟨trivial, fun _ => plain_closeAll client proxy⟩

theorem plain_contextFailed (id : BitVec 64) : Prog.Calls Plain (do
    incrementProxyErrors m
    closeContext id
    closeAll client proxy) :=
  plain_incrementProxyErrors.bind fun _ => plain_contextClosed id

/-- The bridge is the last call. -/
theorem onConnected_talks (ctx : AuthContext) (hst : st ≠ .bridged) :
    Talks m destIp destPort (onConnected m client proxy ctx) st := by
  refine Talks.plain_bind (plain_closeAuthContext ctx) hst fun _ st₁ h₁ => ?_
  refine Talks.plain_bind (p := setsockopt proxy .rcvTimeo 0) ⟨trivial, fun _ => trivial⟩ h₁ fun _ st₂ h₂ => ?_
  refine Talks.plain_bind (p := setsockopt proxy .sndTimeo 0) ⟨trivial, fun _ => trivial⟩ h₂ fun _ st₃ h₃ => ?_
  refine Talks.plain_bind (p := setsockopt proxy .keepAlive 1) ⟨trivial, fun _ => trivial⟩ h₃ fun _ st₄ h₄ => ?_
  refine Talks.plain_bind (p := setsockopt client .keepAlive 1) ⟨trivial, fun _ => trivial⟩ h₄ fun _ st₅ h₅ => ?_
  refine Talks.plain_bind (p := freeaddrinfo) ⟨trivial, fun _ => trivial⟩ h₅ fun _ st₆ h₆ => ?_
  refine fun _ => ⟨.bridged, ?_, trivial⟩
  cases st₆ with
  | bridged => exact absurd rfl h₆
  | _ => rfl

/-- A jump back to `retry_connect`, right after the token was stored. -/
def RetryTalks (m : Relay) (destIp : BitVec 32) (destPort : BitVec 16)
    (retry : Option (BitVec 64 → RelayProg Unit)) : Prop :=
  ∀ f, retry = some f → ∀ id token, Talks m destIp destPort (f id) (.stored id token)

theorem onChallenge_talks {retry : Option (BitVec 64 → RelayProg Unit)} (hr : RetryTalks m destIp destPort retry)
    (id : BitVec 64) (token resp : Bytes) :
    Talks m destIp destPort (onChallenge m client proxy retry id resp) (.talking (some (id, token))) := by
  unfold onChallenge
  dsimp only
  split
  · exact Talks.plain (plain_contextFailed id) nofun
  refine Talks.call (c := .continueContext id _) trivial nofun fun (r : ContinueContextResult) => ?_
  show Talks _ _ _ (if (!r.success) = true then _ else if r.token.isEmpty = true then _ else _) _
  split
  · exact Talks.plain (plain_contextFailed id) nofun
  split
  · exact Talks.plain (plain_contextFailed id) nofun
  next hs _ =>
  have hs : r.success = true := by simpa using hs
  refine fun _ => ⟨.stored id r.token, by simp [handshake, talk, OwnToken.next, HandshakeState.own, hs], ?_⟩
  cases retry with
  | none => exact Talks.plain (plain_contextFailed id) nofun
  | some f => exact hr f rfl id r.token

theorem onUnauthenticated_talks {retry : Option (BitVec 64 → RelayProg Unit)} (hr : RetryTalks m destIp destPort retry)
    (hst : st ≠ .bridged) : Talks m destIp destPort (onUnauthenticated m client proxy retry) st := by
  refine Talks.call (c := .createContext (spn m)) trivial hst fun (r : CreateContextResult) => ?_
  show Talks _ _ _ (if r.success = true then _ else _) _
  split
  next hs =>
    refine fun _ => ⟨.stored r.contextId r.token, by simp [handshake, talk, OwnToken.next, HandshakeState.own, hs], ?_⟩
    cases retry with
    | none => exact Talks.plain (plain_contextClosed r.contextId) nofun
    | some f => exact hr f rfl r.contextId r.token
  next => exact Talks.plain (plain_incrementProxyErrors.bind fun _ => plain_closeAll client proxy) nofun

/-- A jump back to `retry_proxy_connect`. -/
def AgainTalks (m : Relay) (destIp : BitVec 32) (destPort : BitVec 16) (again : Option (RelayProg Unit)) : Prop :=
  ∀ p, again = some p → ∀ st, st ≠ .bridged → Talks m destIp destPort p st

theorem onFailure_talks {again : Option (RelayProg Unit)} (ha : AgainTalks m destIp destPort again) (ctx : AuthContext)
    (resp : Bytes) (hst : st ≠ .bridged) : Talks m destIp destPort (onFailure m client proxy again ctx resp) st := by
  unfold onFailure
  split
  · rename_i p _
    refine Talks.plain_bind (plain_closeAuthContext ctx) hst fun _ st₁ h₁ => ?_
    refine Talks.plain_bind (p := closesocket proxy) ⟨trivial, fun _ => trivial⟩ h₁ fun _ st₂ h₂ => ?_
    exact Talks.plain_bind (p := sleep 500) ⟨trivial, fun _ => trivial⟩ h₂ fun _ st₃ h₃ => ha p rfl st₃ h₃
  · exact Talks.plain (plain_failed ctx) hst

/-- How the state stands with the handler's context before a response. -/
def Agrees (ctx : AuthContext) (st : HandshakeState) : Prop := ∀ id, ctx = some id → ∃ token, st.own = some (id, token)

theorem awaitResponse_talks {again : Option (RelayProg Unit)} {retry : Option (BitVec 64 → RelayProg Unit)}
    (ha : AgainTalks m destIp destPort again) (hr : RetryTalks m destIp destPort retry) {ctx : AuthContext}
    {own : OwnToken} (hown : Agrees ctx (.talking own)) :
    Talks m destIp destPort (awaitResponse m client proxy again retry ctx) (.talking own) := by
  refine Talks.call (c := .recv proxy 4095) trivial nofun fun (r : Option { b : Bytes // b.length ≤ 4095 }) => ?_
  cases r with
  | none => trivial
  | some resp =>
    show Talks m destIp destPort (onResponse m client proxy again retry ctx resp.1) (.talking own)
    unfold onResponse
    split
    · exact Talks.plain (plain_failed ctx) nofun
    split
    · exact onConnected_talks ctx nofun
    split
    · cases ctx with
      | none => exact onUnauthenticated_talks hr nofun
      | some id =>
        dsimp only
        split
        · obtain ⟨token, rfl⟩ := hown id rfl
          exact onChallenge_talks hr id token resp.1
        · exact Talks.plain (plain_contextFailed id) nofun
    · exact onFailure_talks ha ctx resp.1 nofun

theorem handshake_send {s : Sock} {data : Bytes} (hst : st ≠ .bridged) (h : Attributed m destIp destPort st.own data)
    (r : (Call.send s data).Resp) : handshake m destIp destPort st (.send s data) r = some (.talking st.own) := by
  cases st with
  | bridged => exact absurd rfl hst
  | talking own => exact if_pos h
  | stored id token => exact if_pos h

/-- Once the header is there, the CONNECT goes out. -/
theorem sendRequest_talks {again : Option (RelayProg Unit)} {retry : Option (BitVec 64 → RelayProg Unit)}
    (ha : AgainTalks m destIp destPort again) (hr : RetryTalks m destIp destPort retry) {ctx : AuthContext} {auth : Bytes}
    (hst : st ≠ .bridged) (hown : Agrees ctx st)
    (hauth : auth = [] ∨ ∃ x ∈ st.own, auth = proxyAuthorization m x.2) :
    Talks m destIp destPort (do
      match ← send proxy (connectReq destIp destPort ++ auth ++ ascii "Proxy-Connection: Keep-Alive\r\n\r\n") with
      | none =>
        incrementProxyErrors m
        closeAuthContext m ctx
        closeAll client proxy
      | some _ => awaitResponse m client proxy again retry ctx) st := by
  have hattr : Attributed m destIp destPort st.own
      (connectReq destIp destPort ++ auth ++ ascii "Proxy-Connection: Keep-Alive\r\n\r\n") := by
    rcases hauth with rfl | ⟨x, hx, rfl⟩
    · exact .inl rfl
    · exact .inr ⟨x, hx, rfl⟩
  refine fun r => ⟨_, handshake_send hst hattr r, ?_⟩
  cases r with
  | none => exact Talks.plain (plain_failed ctx) nofun
  | some _ => exact awaitResponse_talks ha hr hown

/-- One CONNECT: without a context, or with the one whose token was just stored. -/
theorem sendConnect_talks {again : Option (RelayProg Unit)} {retry : Option (BitVec 64 → RelayProg Unit)}
    (ha : AgainTalks m destIp destPort again) (hr : RetryTalks m destIp destPort retry) {ctx : AuthContext}
    (hst : ctx = none ∧ st ≠ .bridged ∨ ∃ id token, ctx = some id ∧ st = .stored id token) :
    Talks m destIp destPort (sendConnect m client proxy destIp destPort again retry ctx) st := by
  unfold sendConnect authenticate
  split
  next =>
    rcases hst with ⟨rfl, hst⟩ | ⟨id, token, rfl, rfl⟩
    · refine Talks.call (c := .createContext (spn m)) trivial hst fun (r : CreateContextResult) => ?_
      show Talks _ _ _ (Prog.bind (if r.success = true then _ else _) _) _
      split
      next hs =>
        have hown : st.own.next (.createContext (spn m)) r = some (r.contextId, r.token) := if_pos hs
        rw [hown]
        exact sendRequest_talks ha hr nofun (fun id hid => ⟨r.token, by cases hid; rfl⟩)
          (.inr ⟨_, rfl, rfl⟩)
      next => exact sendRequest_talks ha hr nofun nofun (.inl rfl)
    · refine fun (token' : Bytes) => ⟨.talking (some (id, token')), rfl, ?_⟩
      exact sendRequest_talks ha hr nofun (fun id hid => ⟨token', by cases hid; rfl⟩) (.inr ⟨_, rfl, rfl⟩)
  next =>
    rcases hst with ⟨rfl, hst⟩ | ⟨id, token, rfl, rfl⟩
    · exact sendRequest_talks ha hr hst nofun (.inl rfl)
    · exact sendRequest_talks ha hr nofun (fun id hid => ⟨token, by cases hid; rfl⟩) (.inl rfl)

theorem retryConnect_talks {again : Option (RelayProg Unit)} (ha : AgainTalks m destIp destPort again) (n : Nat)
    {ctx : AuthContext} (hst : ctx = none ∧ st ≠ .bridged ∨ ∃ id token, ctx = some id ∧ st = .stored id token) :
    Talks m destIp destPort (retryConnect m client proxy destIp destPort again n ctx) st := by
  induction n generalizing ctx st with
  | zero => exact sendConnect_talks ha (fun f hf => by cases hf) hst
  | succ n ih =>
    refine sendConnect_talks ha ?_ hst
    intro f hf id token
    cases hf
    exact ih (.inr ⟨id, token, rfl, rfl⟩)

theorem plain_setSocketOptions : (setSocketOptions client proxy).Calls Plain :=
  calls_setSocketOptions fun _ _ _ => trivial

theorem connectProxy_talks {again : Option (RelayProg Unit)} (ha : AgainTalks m destIp destPort again)
    (addr : BitVec 32) (hst : st ≠ .bridged) :
    Talks m destIp destPort (connectProxy m client addr destIp destPort again) st := by
  refine Talks.call (c := .socket) trivial hst fun (r : Option Sock) => ?_
  cases r with
  | none =>
    refine Talks.plain (p := incrementProxyErrors m >>= fun _ => closesocket client >>= fun _ => freeaddrinfo) ?_ nofun
    exact plain_incrementProxyErrors.bind fun _ => ⟨trivial, fun _ => ⟨trivial, fun _ => trivial⟩⟩
  | some proxy =>
    refine Talks.plain_bind (p := setSocketOptions client proxy) plain_setSocketOptions nofun fun _ st₁ h₁ => ?_
    refine Talks.call (c := .connect proxy addr (htons m.proxyPort)) trivial h₁ fun (ok : Bool) => ?_
    cases ok with
    | true => exact retryConnect_talks ha 5 (.inl ⟨rfl, nofun⟩)
    | false => exact Talks.plain (plain_incrementProxyErrors.bind fun _ => plain_closeAll client proxy) nofun

theorem retryProxyConnect_talks (addr : BitVec 32) (n : Nat) (hst : st ≠ .bridged) :
    Talks m destIp destPort (retryProxyConnect m client addr destIp destPort n) st := by
  induction n generalizing st with
  | zero => exact connectProxy_talks (fun p hp => by cases hp) addr hst
  | succ n ih =>
    refine connectProxy_talks ?_ addr hst
    intro p hp st' hst'
    cases hp
    exact ih hst'

/-- No handler is ever refused. -/
theorem connectionHandler_handshake (ctx : RelayContext) :
    Talks m ctx.origDestIp ctx.origDestPort (connectionHandler m ctx) (.talking none) := by
  refine Talks.call (c := .getaddrinfo m.proxyHost) trivial nofun fun (r : Option (BitVec 32)) => ?_
  cases r with
  | none =>
    refine Talks.plain (p := incrementProxyErrors m >>= fun _ => closesocket ctx.clientSock) ?_ nofun
    exact plain_incrementProxyErrors.bind fun _ => ⟨trivial, fun _ => trivial⟩
  | some addr => exact retryProxyConnect_talks addr MAX_GATEWAY_RETRIES nofun

end

end TR.Impl
