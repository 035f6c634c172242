import TcpRedirector.Proof.Relay.Handshake
import TcpRedirector.Proof.Relay.Server

/-!
# Whose token a CONNECT carries

Between the provider's answer and the next CONNECT a handler keeps its token
in `m_lastAuthToken`, which all handlers share. As long as nobody overwrites
it while a handler is about to read it back, every CONNECT carries the token
of its own handler's context (`token_own`); two handlers that are challenged
at the same time can break this (`token_mixed`).
-/

namespace TR.Impl

/-- The calls of the `n`-th handler. -/
def handlerCalls (n : Nat) (log : List ServerAct) : List (Answered Call Call.Resp) :=
  log.filterMap fun a => match a with
    | .connection n' (.call e) => if n' = n then some e else none
    | _ => none

/-- The connections accepted. -/
def contexts (log : List ServerAct) : List RelayContext :=
  log.filterMap fun a => match a with
    | .accepted ctx => some ctx
    | _ => none

/-- The token last returned for a handler's own context. -/
def ownToken (tr : List (Answered Call Call.Resp)) : OwnToken := tr.foldl (fun own e => own.next e.1 e.2) none

/-- Every CONNECT a handler has sent carries no token or the one last returned
for its own context. -/
def TokensOwn (m : Relay) (log : List ServerAct) : Prop :=
  ∀ pre post n s data r, log = pre ++ .connection n (.call ⟨.send s data, r⟩) :: post →
    ∃ ctx, (contexts pre)[n]? = some ctx ∧
      Attributed m ctx.origDestIp ctx.origDestPort (ownToken (handlerCalls n pre)) data

/-- The next call of the `n`-th handler. -/
def Server.nextCall (s : Server) (n : Nat) : Option Call :=
  match s.connections[n]? with
  | some (.handler (.call c _)) => some c
  | _ => none

/-- A step that does not overwrite `m_lastAuthToken` with another token while
a handler is about to read it. -/
def KeepsTokens (st : StepOf Server ServerInput Unit) : Prop :=
  ∀ n i token j, st.input = .connection n i → i.thread = .dn →
    st.pre.nextCall n = some (.writeLastAuthToken token) → st.pre.nextCall j = some .readLastAuthToken →
    token = st.pre.lastAuthToken

/-- The program is about to read `m_lastAuthToken`. -/
def Reads : RelayProg Unit → Prop
  | .call .readLastAuthToken _ => True
  | _ => False

/-- A handler for `ctx` with the own token `own`, while `m_lastAuthToken` is `token`. -/
def ThreadInv (m : Relay) (ctx : RelayContext) (token : Bytes) (own : OwnToken) : Connection → Prop
  | .handler p => ∃ st, Talks m ctx.origDestIp ctx.origDestPort p st ∧ (st ≠ .bridged → st.own = own) ∧
      (Reads p → ∃ id, own = some (id, token))
  | .bridging _ k => Talks m ctx.origDestIp ctx.origDestPort k .bridged

structure TokenInv (m : Relay) (s : Server) : Prop where
  relay : s.relay = m
  accepted : (contexts s.log).length = s.connections.length
  known : ∀ n a, .connection n a ∈ s.log → n < s.connections.length
  tokens : TokensOwn m s.log
  threads : ∀ n ctx c, (contexts s.log)[n]? = some ctx → s.connections[n]? = some c →
    ThreadInv m ctx s.lastAuthToken (ownToken (handlerCalls n s.log)) c

section

variable {m : Relay} {destIp : BitVec 32} {destPort : BitVec 16} {st st' : HandshakeState}

/-- The observer keeps the own token, and only a write of it is followed by a read. -/
theorem handshake_next {c : Call} (hc : c ≠ .readLastAuthToken) {r : c.Resp}
    (h : handshake m destIp destPort st c r = some st') :
    st ≠ .bridged ∧ (st' ≠ .bridged → st'.own = st.own.next c r) ∧
      ∀ id token, st' = .stored id token → c = .writeLastAuthToken token := by
  have hst : st ≠ .bridged := by
    rintro rfl
    cases c <;> first | exact hc rfl | cases h
  have htalk : talk m destIp destPort st.own c r = some st' := by
    cases st with
    | bridged => exact absurd rfl hst
    | _ => cases c <;> first | exact absurd rfl hc | exact h
  refine ⟨hst, ?_⟩
  generalize st.own = own at htalk
  cases c with
  | writeLastAuthToken token =>
    simp only [talk] at htalk
    split at htalk
    next id t =>
      split at htalk
      next ht =>
        cases htalk
        subst ht
        refine ⟨fun _ => rfl, fun id' token' hs => ?_⟩
        cases hs
        rfl
      next => cases htalk
    next => cases htalk
  | send s data =>
    simp only [talk] at htalk
    split at htalk
    · cases htalk
      exact ⟨fun _ => rfl, fun id token hs => by cases hs⟩
    · cases htalk
  | readLastAuthToken => exact absurd rfl hc
  | startBridge client proxy =>
    cases htalk
    exact ⟨fun h => absurd rfl h, fun id token hs => by cases hs⟩
  | _ =>
    cases htalk
    exact ⟨fun _ => rfl, fun id token hs => by cases hs⟩

theorem handshake_read {r : Bytes} (h : handshake m destIp destPort st .readLastAuthToken r = some st') :
    ∃ id token, st = .stored id token ∧ st' = .talking (some (id, r)) := by
  cases st with
  | stored id token => exact ⟨id, token, rfl, (Option.some.inj h).symm⟩
  | _ => cases h

theorem handshake_attributed {s : Sock} {data : Bytes} {r : (Call.send s data).Resp}
    (h : handshake m destIp destPort st (.send s data) r = some st') : Attributed m destIp destPort st.own data := by
  have hif : ∀ own, (if Attributed m destIp destPort own data then some (HandshakeState.talking own) else none) = some st' →
      Attributed m destIp destPort own data := by
    intro own ho
    split at ho
    · assumption
    · cases ho
  cases st with
  | bridged => cases h
  | talking own => exact hif own h
  | stored id token => exact hif _ h

end

section

variable {m : Relay} {ctx : RelayContext} {token : Bytes} {own : OwnToken}

/-- What the next call of a handler leaves: the own token follows it, and a
read that comes next finds it in `m_lastAuthToken`. -/
theorem ThreadInv.call {c : Call} {k : c.Resp → RelayProg Unit}
    (h : ThreadInv m ctx token own (.handler (.call c k))) (answer : (c : Call) → c.Resp) :
    ThreadInv m ctx (Server.token token (.call ⟨c, answerWith token answer c⟩))
      (own.next c (answerWith token answer c)) (.handler (k (answerWith token answer c))) ∧
    ∀ s data, c = .send s data → Attributed m ctx.origDestIp ctx.origDestPort own data := by
  obtain ⟨st, ht, hown, hread⟩ := h
  obtain ⟨st', hst', ht'⟩ := ht (answerWith token answer c)
  -- If a read comes next, the observer has just seen a write.
  have hnext : Reads (k (answerWith token answer c)) → ∃ id t, st' = .stored id t := by
    intro hr
    cases hk : k (answerWith token answer c) with
    | ret a => rw [hk] at hr; cases hr
    | throw => rw [hk] at hr; cases hr
    | call c' k' =>
      rw [hk] at hr ht'
      cases c' with
      | readLastAuthToken =>
        obtain ⟨st'', hst'', -⟩ := ht' []
        obtain ⟨id, t, hs, -⟩ := handshake_read hst''
        exact ⟨id, t, hs⟩
      | _ => cases hr
  by_cases hc : c = .readLastAuthToken
  · subst hc
    obtain ⟨id, t, rfl, rfl⟩ := handshake_read hst'
    obtain ⟨id', hid⟩ := hread trivial
    refine ⟨⟨_, ht', fun _ => ?_, fun hr => ?_⟩, nofun⟩
    · have : some (id, t) = some (id', token) := (hown nofun).trans hid
      cases this
      exact hown nofun
    · obtain ⟨id'', t'', hs⟩ := hnext hr
      cases hs
  · obtain ⟨hb, hnown, hstored⟩ := handshake_next hc hst'
    rw [hown hb] at hnown
    refine ⟨⟨st', ht', hnown, fun hr => ?_⟩, ?_⟩
    · obtain ⟨id, t, rfl⟩ := hnext hr
      cases hstored id t rfl
      exact ⟨id, (hnown nofun).symm⟩
    · rintro s data rfl
      rw [← hown hb]
      exact handshake_attributed hst'

/-- Another token in `m_lastAuthToken` matters to a handler that is about to read it. -/
theorem ThreadInv.of_token {c : Connection} {token' : Bytes} (h : ThreadInv m ctx token own c)
    (ht : ∀ p, c = .handler p → Reads p → token' = token) : ThreadInv m ctx token' own c := by
  cases c with
  | handler p =>
    obtain ⟨st, hp, hown, hread⟩ := h
    refine ⟨st, hp, hown, fun hr => ?_⟩
    rw [ht p rfl hr]
    exact hread hr
  | bridging b k => exact h

/-- A step without an action, or with one of the bridge. -/
theorem ThreadInv.stepped {i : BridgeInput} {c c' : Connection} {a : Option ConnectionAct}
    (h : ThreadInv m ctx token own c) (hc : c.Stepped token i c' a) (ha : ∀ e, a ≠ some (.call e)) :
    ThreadInv m ctx token own c' := by
  cases hc with
  | entered client proxy k =>
    obtain ⟨st, ht, -, -⟩ := h
    exact ht.startBridge
  | called c k => exact absurd rfl (ha _)
  | relayed b b' a k => exact h
  | returned b k =>
    refine ⟨.bridged, h, fun hb => absurd rfl hb, fun hr => ?_⟩
    cases k with
    | ret a => cases hr
    | throw => cases hr
    | call c k =>
      cases c with
      | readLastAuthToken =>
        obtain ⟨st', hst', -⟩ := h []
        cases hst'
      | _ => cases hr

end

section

variable {m : Relay} {log : List ServerAct}

@[simp] theorem contexts_concat (a : ServerAct) : contexts (log ++ [a]) = contexts log ++ contexts [a] :=
  List.filterMap_append

theorem handlerCalls_concat (n : Nat) (a : ServerAct) :
    handlerCalls n (log ++ [a]) = handlerCalls n log ++ handlerCalls n [a] :=
  List.filterMap_append

theorem ownToken_concat (tr : List (Answered Call Call.Resp)) (e : Answered Call Call.Resp) :
    ownToken (tr ++ [e]) = (ownToken tr).next e.1 e.2 := by
  simp [ownToken]

/-- The own token after an action of a connection: only a call of the handler itself tells it anything. -/
theorem ownToken_handlerCalls (n n' : Nat) (a : ConnectionAct) :
    ownToken (handlerCalls n (log ++ [.connection n' a])) =
      match a with
      | .call e => if n' = n then (ownToken (handlerCalls n log)).next e.1 e.2 else ownToken (handlerCalls n log)
      | .bridge _ => ownToken (handlerCalls n log) := by
  rw [handlerCalls_concat]
  cases a with
  | bridge a => simp [handlerCalls]
  | call e =>
    by_cases hn : n' = n
    · simp only [hn, if_true]
      rw [← ownToken_concat]
      simp [handlerCalls]
    · simp [handlerCalls, hn]

/-- An entry other than a handler's `send` adds nothing to check. -/
theorem TokensOwn.concat (h : TokensOwn m log) {a : ServerAct}
    (ha : ∀ n s data r, a = .connection n (.call ⟨.send s data, r⟩) →
      ∃ ctx, (contexts log)[n]? = some ctx ∧
        Attributed m ctx.origDestIp ctx.origDestPort (ownToken (handlerCalls n log)) data) :
    TokensOwn m (log ++ [a]) := by
  intro pre post n s data r heq
  rcases concat_eq_append_cons heq with ⟨-, rfl, hy⟩ | ⟨post', -, hl⟩
  · exact ha n s data r hy.symm
  · exact h pre post' n s data r hl

theorem handlerCalls_eq_nil {n : Nat} (h : ∀ a, .connection n a ∉ log) : handlerCalls n log = [] := by
  refine List.filterMap_eq_nil_iff.mpr fun a ha => ?_
  split
  next n' e =>
    rw [if_neg]
    rintro rfl
    exact h _ ha
  next => rfl

theorem TokenInv.start (listen6 : Bool) : TokenInv m (.start m listen6) where
  relay := rfl
  accepted := rfl
  known := nofun
  tokens := by
    intro pre post n s data r h
    cases pre <;> cases h
  threads := by
    intro n ctx c h
    cases h

theorem TokenInv.stopStep {s : Server} (h : TokenInv m s) : TokenInv m s.stopStep := by
  rcases s.stopStep_cases with ⟨running, stop, heq⟩ | ⟨stop, a, ha, heq⟩
  · rw [heq]
    exact ⟨h.relay, h.accepted, h.known, h.tokens, h.threads⟩
  · rw [heq]
    have hctx : contexts [a] = [] := by rcases ha with rfl | rfl <;> rfl
    have hcalls : ∀ n, handlerCalls n [a] = [] := by
      intro n
      rcases ha with rfl | rfl <;> rfl
    refine ⟨h.relay, ?_, ?_, h.tokens.concat ?_, ?_⟩
    · rw [contexts_concat, hctx, List.append_nil]
      exact h.accepted
    · intro n b hb
      rcases ha with rfl | rfl <;> exact h.known n b (by simpa using hb)
    · rintro n s data r rfl
      rcases ha with ha | ha <;> cases ha
    · intro n ctx c hn hc
      rw [contexts_concat, hctx, List.append_nil] at hn
      rw [handlerCalls_concat, hcalls, List.append_nil]
      exact h.threads n ctx c hn hc

theorem TokenInv.accept {s : Server} (h : TokenInv m s) (a : AcceptState) (ctx : RelayContext) : TokenInv m
    { s with
      accept := a
      connections := s.connections ++ [.handler (connectionHandler s.relay ctx)]
      log := s.log ++ [.accepted ctx] } where
  relay := h.relay
  accepted := by simp [contexts, h.accepted.symm]
  known := by
    intro n a ha
    have := h.known n a (by simpa using ha)
    simp only [List.length_append, List.length_singleton]
    omega
  tokens := h.tokens.concat nofun
  threads := by
    intro n ctx' c hn hc
    rw [contexts_concat] at hn
    rw [handlerCalls_concat, show handlerCalls n [.accepted ctx] = [] from rfl, List.append_nil]
    by_cases hlt : n < s.connections.length
    · rw [List.getElem?_append_left (h.accepted ▸ hlt)] at hn
      rw [List.getElem?_append_left hlt] at hc
      exact h.threads n ctx' c hn hc
    · have hne : n = s.connections.length := by
        have hlen := (List.getElem?_eq_some_iff.mp hc).1
        simp only [List.length_append, List.length_singleton] at hlen
        omega
      subst hne
      rw [List.getElem?_concat_length] at hc
      rw [← h.accepted] at hn
      obtain rfl : ctx = ctx' := by simpa [contexts] using hn
      cases hc
      have hnil : handlerCalls s.connections.length s.log = [] :=
        handlerCalls_eq_nil fun a ha => absurd (h.known _ a ha) (Nat.lt_irrefl _)
      rw [hnil, h.relay]
      refine ⟨.talking none, connectionHandler_handshake ctx, fun _ => rfl, fun hr => ?_⟩
      cases hr

theorem Server.nextCall_reads {s : Server} {j : Nat} {p : RelayProg Unit} (hj : s.connections[j]? = some (.handler p))
    (hp : Reads p) : s.nextCall j = some .readLastAuthToken := by
  cases p with
  | ret a => cases hp
  | throw => cases hp
  | call c k =>
    cases c with
    | readLastAuthToken => simp [Server.nextCall, hj]
    | _ => cases hp

/-- A step of the handler of the `n`-th connection without a call, or of its bridge. -/
theorem TokenInv.threads_stepped {s : Server} (h : TokenInv m s) {n : Nat} {i : BridgeInput} {c c' : Connection}
    {a : Option ConnectionAct} (hn : s.connections[n]? = some c) (hc : c.Stepped s.lastAuthToken i c' a)
    (ha : ∀ e, a ≠ some (.call e)) (j : Nat) (ctx : RelayContext) (d : Connection) (hj : (contexts s.log)[j]? = some ctx)
    (hd : (s.connections.set n c')[j]? = some d) :
    ThreadInv m ctx s.lastAuthToken (ownToken (handlerCalls j s.log)) d := by
  by_cases hjn : n = j
  · subst hjn
    rw [List.getElem?_set_self (List.getElem?_eq_some_iff.mp hn).1] at hd
    cases hd
    exact (h.threads n ctx c hj hn).stepped hc ha
  · rw [List.getElem?_set_ne hjn] at hd
    exact h.threads j ctx d hj hd

/-- A call of the handler of the `n`-th connection. -/
theorem TokenInv.threads_called {s : Server} (h : TokenInv m s) {n : Nat} {i : BridgeInput} {c : Call}
    {k : c.Resp → RelayProg Unit} (hn : s.connections[n]? = some (.handler (.call c k))) (hi : i.thread = .dn)
    (hk : KeepsTokens (stepOf serverStep (.connection n i) s)) (j : Nat) (ctx : RelayContext) (d : Connection)
    (hj : (contexts s.log)[j]? = some ctx)
    (hd : (s.connections.set n (.handler (k (answerWith s.lastAuthToken i.answer c))))[j]? = some d) :
    ThreadInv m ctx (Server.token s.lastAuthToken (.call ⟨c, answerWith s.lastAuthToken i.answer c⟩))
      (if n = j then (ownToken (handlerCalls j s.log)).next c (answerWith s.lastAuthToken i.answer c)
        else ownToken (handlerCalls j s.log)) d := by
  by_cases hjn : n = j
  · subst hjn
    rw [if_pos rfl]
    rw [List.getElem?_set_self (List.getElem?_eq_some_iff.mp hn).1] at hd
    cases hd
    exact ((h.threads n ctx _ hj hn).call i.answer).1
  · rw [if_neg hjn]
    rw [List.getElem?_set_ne hjn] at hd
    refine (h.threads j ctx d hj hd).of_token ?_
    rintro p rfl hp
    -- Another handler is about to read: what is written is what is there.
    cases c with
    | writeLastAuthToken token =>
      exact hk n i token j rfl hi (by simp [stepOf, Server.nextCall, hn]) (Server.nextCall_reads hd hp)
    | _ => rfl

theorem TokenInv.step (i : ServerInput) (s : Server) (h : TokenInv m s) (hk : KeepsTokens (stepOf serverStep i s)) :
    TokenInv m (serverStep i s).1 := by
  have hs := serverStep_cases i s
  generalize (serverStep i s).1 = s' at hs
  cases hs with
  | idle => exact h
  | accepting i a ha => exact ⟨h.relay, h.accepted, h.known, h.tokens, h.threads⟩
  | accepted i a ctx ha => exact h.accept a ctx
  | stop => exact h.stopStep
  | silent n i c c' hn hc =>
    refine ⟨h.relay, by simpa using h.accepted, by simpa using h.known, h.tokens, ?_⟩
    exact h.threads_stepped hn hc nofun
  | connection n i c c' a hn hc =>
    have hlt : n < s.connections.length := (List.getElem?_eq_some_iff.mp hn).1
    have hctx : contexts (s.log ++ [.connection n a]) = contexts s.log := by
      rw [contexts_concat, show contexts [.connection n a] = [] from rfl, List.append_nil]
    have hknown : ∀ n' a', .connection n' a' ∈ s.log ++ [.connection n a] → n' < (s.connections.set n c').length := by
      intro n' a' h'
      rw [List.length_set]
      rcases List.mem_append.mp h' with h' | h'
      · exact h.known n' a' h'
      · cases List.mem_singleton.mp h'
        exact hlt
    refine ⟨h.relay, by simpa [hctx] using h.accepted, hknown, h.tokens.concat ?_, ?_⟩
    · rintro n s data r hcall
      cases hcall
      obtain ⟨ctx, hn'⟩ : ∃ ctx, (contexts _)[n]? = some ctx := ⟨_, List.getElem?_eq_getElem (h.accepted ▸ hlt)⟩
      refine ⟨ctx, hn', ?_⟩
      cases hc with
      | called c k hnb hi => exact ((h.threads n ctx _ hn' hn).call i.answer).2 _ _ rfl
    · intro j ctx d hj hd
      simp only [hctx] at hj
      rw [ownToken_handlerCalls]
      cases hc with
      | called c k hnb hi => exact h.threads_called hn hi hk j ctx d hj hd
      | relayed b b' a k hb => exact h.threads_stepped hn (.relayed b b' a k hb) nofun j ctx d hj hd

end

/-- If no handler overwrites `m_lastAuthToken` while another is about to read
it, every CONNECT carries the token of its own handler's context. -/
theorem token_own (m : Relay) (listen6 : Bool) (schedule : List ServerInput)
    (h : ∀ st ∈ trace serverStep schedule (.start m listen6), KeepsTokens st) :
    TokensOwn m (run serverStep schedule (.start m listen6)).log :=
  (run_induct_of (TokenInv.step (m := m)) schedule (TokenInv.start listen6) h).tokens

namespace Demo

/-- A relay that authenticates with the agent. -/
def agentRelay : Relay := ⟨ascii "proxy", 3128, true, some .kerberosAgent, false⟩

/-- The proxy demands authentication; `r` is the provider's answer to `CreateContext`. -/
def challenged (proxy : Sock) (r : CreateContextResult) : (c : Call) → c.Resp
  | .socket => (some proxy : Option Sock)
  | .recv _ len => (if h : 12 ≤ len then some ⟨ascii "HTTP/1.1 407", h⟩ else none : Option { b : Bytes // b.length ≤ len })
  | .createContext _ => r
  | c => reply c

/-- A handler up to the response 407 to its first CONNECT, for which it got no context. -/
def demanded (n : Nat) (proxy : Sock) : List ServerInput :=
  List.replicate 14 (.connection n ⟨.dn, true, challenged proxy ⟨false, 0, []⟩⟩)

/-- It creates a context and stores the token. -/
def stores (n : Nat) (proxy : Sock) (token : Bytes) : List ServerInput :=
  List.replicate 2 (.connection n ⟨.dn, true, challenged proxy ⟨true, BitVec.ofNat 64 n, token⟩⟩)

/-- It reads the token back and sends the next CONNECT. -/
def resends (n : Nat) (proxy : Sock) : List ServerInput :=
  List.replicate 2 (.connection n ⟨.dn, true, challenged proxy ⟨false, 0, []⟩⟩)

def twoClients : List ServerInput := accepts 1 1001 ++ accepts 2 1002 ++ demanded 0 11 ++ demanded 1 12

/-- The second handler stores its token after the first has read its own. -/
def inTurn : List ServerInput :=
  twoClients ++ stores 0 11 (ascii "A") ++ resends 0 11 ++ stores 1 12 (ascii "B") ++ resends 1 12

/-- It stores its token before that. -/
def overlapping : List ServerInput := twoClients ++ stores 0 11 (ascii "A") ++ stores 1 12 (ascii "B") ++ resends 0 11

end Demo

/-- `KeepsTokens`, evaluated. -/
def keepsTokens (st : StepOf Server ServerInput Unit) : Bool :=
  match st.input with
  | .connection n _ =>
    match st.pre.nextCall n with
    | some (.writeLastAuthToken token) =>
      token == st.pre.lastAuthToken ||
        (List.range st.pre.connections.length).all fun j => st.pre.nextCall j != some .readLastAuthToken
    | _ => true
  | _ => true

theorem KeepsTokens.of_eval {st : StepOf Server ServerInput Unit} (h : keepsTokens st = true) : KeepsTokens st := by
  intro n i token j hi _ hn hj
  simp only [keepsTokens, hi, hn, Bool.or_eq_true, beq_iff_eq, List.all_eq_true, List.mem_range, bne_iff_ne] at h
  rcases h with h | h
  · exact h
  · refine absurd hj (h j ?_)
    by_contra hlt
    simp [Server.nextCall, List.getElem?_eq_none (Nat.not_lt.mp hlt)] at hj

theorem token_own_inTurn :
    (∀ st ∈ trace serverStep Demo.inTurn (.start Demo.agentRelay true), KeepsTokens st) ∧
    TokensOwn Demo.agentRelay (run serverStep Demo.inTurn (.start Demo.agentRelay true)).log := by
  have hall : (trace serverStep Demo.inTurn (.start Demo.agentRelay true)).all keepsTokens = true := by decide +kernel
  have h : ∀ st ∈ trace serverStep Demo.inTurn (.start Demo.agentRelay true), KeepsTokens st :=
    fun st hst => .of_eval (List.all_eq_true.mp hall st hst)
  exact ⟨h, token_own _ _ _ h⟩

/-- The first handler's second CONNECT carries the second handler's token. -/
theorem token_mixed : ¬TokensOwn Demo.agentRelay (run serverStep Demo.overlapping (.start Demo.agentRelay true)).log := by
  intro h
  obtain ⟨ctx, hctx, ha⟩ := h ((run serverStep Demo.overlapping (.start Demo.agentRelay true)).log.take 35) [] 0 11 _ _ rfl
  cases hctx
  revert ha
  decide +kernel

end TR.Impl
