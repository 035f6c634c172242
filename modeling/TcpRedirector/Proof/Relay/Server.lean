import TcpRedirector.Impl.Relay.Server
import TcpRedirector.Proof.Framework.Run

/-!
# What a step of the server can do

`Connection.Stepped` for the threads of one connection, `Server.Stepped` for
the whole server: every invariant of the server is checked against these cases.
-/

namespace TR.Impl

/-- The threads of a connection take a step; `token` is `m_lastAuthToken`. -/
inductive Connection.Stepped (token : Bytes) (i : BridgeInput) :
    Connection → Connection → Option ConnectionAct → Prop
  | entered (client proxy : Sock) (k : Unit → RelayProg Unit) (hi : i.thread = .dn) :
      Stepped token i (.handler (.call (.startBridge client proxy) k)) (.bridging (.start client proxy) (k ())) none
  | called (c : Call) (k : c.Resp → RelayProg Unit) (hc : ∀ client proxy, c ≠ .startBridge client proxy)
      (hi : i.thread = .dn) :
      Stepped token i (.handler (.call c k)) (.handler (k (answerWith token i.answer c)))
        (some (.call ⟨c, answerWith token i.answer c⟩))
  | relayed (b b' : Bridge) (a : BridgeAct) (k : RelayProg Unit) (h : b.step i = some (b', a)) :
      Stepped token i (.bridging b k) (.bridging b' k) (some (.bridge a))
  | returned (b : Bridge) (k : RelayProg Unit) (h : b.main = .done) (hi : i.thread = .dn) :
      Stepped token i (.bridging b k) (.handler k) none

theorem Connection.step_cases {token : Bytes} {i : BridgeInput} {c c' : Connection} {a : Option ConnectionAct}
    (h : c.step token i = some (c', a)) : Connection.Stepped token i c c' a := by
  obtain ⟨thread, created, answer⟩ := i
  cases c with
  | handler p =>
    cases p with
    | ret x => cases h
    | throw => cases h
    | call c k =>
      cases thread with
      | up => cases c <;> cases h
      | dn => cases c <;> cases h <;> first | exact .entered _ _ _ rfl | exact .called _ _ nofun rfl
  | bridging b k =>
    cases hb : b.step ⟨thread, created, answer⟩ with
    | some x =>
      simp only [step, hb] at h
      cases h
      exact .relayed _ _ _ _ hb
    | none =>
      simp only [step, hb] at h
      split at h
      next hd =>
        cases h
        exact .returned _ _ hd.2 hd.1
      next => cases h

/-- The server takes a step. -/
inductive Server.Stepped (s : Server) : ServerInput → Server → Prop
  | idle (i : ServerInput) : Stepped s i s
  | accepting (i : AcceptInput) (a : AcceptState) (h : s.accept ≠ .exited) : Stepped s (.accept i) { s with accept := a }
  | accepted (i : AcceptInput) (a : AcceptState) (ctx : RelayContext) (h : s.accept ≠ .exited) :
      Stepped s (.accept i)
        { s with
          accept := a
          connections := s.connections ++ [.handler (connectionHandler s.relay ctx)]
          log := s.log ++ [.accepted ctx] }
  | stop : Stepped s .stop s.stopStep
  | silent (n : Nat) (i : BridgeInput) (c c' : Connection) (hn : s.connections[n]? = some c)
      (hc : c.Stepped s.lastAuthToken i c' none) :
        Stepped s (.connection n i) { s with connections := s.connections.set n c' }
  | connection (n : Nat) (i : BridgeInput) (c c' : Connection) (a : ConnectionAct) (hn : s.connections[n]? = some c)
      (hc : c.Stepped s.lastAuthToken i c' (some a)) :
      Stepped s (.connection n i)
        { s with
          connections := s.connections.set n c'
          activePairs := pairs s.activePairs a
          lastAuthToken := token s.lastAuthToken a
          log := s.log ++ [.connection n a] }

theorem Server.acceptStep_cases (i : AcceptInput) (s : Server) : s.Stepped (.accept i) (s.acceptStep i) := by
  unfold acceptStep
  cases ha : s.accept with
  | exited => exact .idle _
  | loop => exact .accepting i _ (by simp [ha])
  | select => dsimp only; split <;> exact .accepting i _ (by simp [ha])
  | accept more => dsimp only; split <;> exact .accepting i _ (by simp [ha])
  | close client more => exact .accepting i _ (by simp [ha])
  | handle client port more =>
    dsimp only
    split
    · exact .accepting i _ (by simp [ha])
    split
    · exact .accepted i _ _ (by simp [ha])
    · exact .accepting i _ (by simp [ha])

theorem Server.connectionStep_cases (n : Nat) (i : BridgeInput) (s : Server) :
    s.Stepped (.connection n i) (s.connectionStep n i) := by
  unfold connectionStep
  cases hn : s.connections[n]? with
  | none => exact .idle _
  | some c =>
    dsimp only
    cases hc : c.step s.lastAuthToken i with
    | none => exact .idle _
    | some x =>
      obtain ⟨c', a⟩ := x
      cases a with
      | none => exact .silent n i c c' hn (Connection.step_cases hc)
      | some a => exact .connection n i c c' a hn (Connection.step_cases hc)

/-- `Stop` leaves the connections and what they share alone. -/
theorem Server.stopStep_cases (s : Server) :
    (∃ running stop, s.stopStep = { s with running, stop }) ∨
    ∃ stop a, (a = .poll s.activePairs ∨ a = .wsaCleanup) ∧ s.stopStep = { s with stop, log := s.log ++ [a] } := by
  unfold stopStep
  cases hs : s.stop with
  | join =>
    dsimp only
    split
    · exact .inl ⟨s.running, _, rfl⟩
    · exact .inl ⟨s.running, s.stop, rfl⟩
  | poll i =>
    dsimp only
    split
    · exact .inr ⟨_, _, .inl rfl, rfl⟩
    · exact .inl ⟨s.running, _, rfl⟩
  | cleanup => exact .inr ⟨_, _, .inr rfl, rfl⟩
  | returned => exact .inl ⟨s.running, s.stop, rfl⟩
  | clear => exact .inl ⟨false, _, rfl⟩
  | _ => exact .inl ⟨s.running, _, rfl⟩

theorem serverStep_cases (i : ServerInput) (s : Server) : s.Stepped i (serverStep i s).1 := by
  cases i with
  | accept i => exact Server.acceptStep_cases i s
  | stop => exact .stop
  | connection n i => exact Server.connectionStep_cases n i s

namespace Demo

/-- Ports 1001 and 1002 are redirected. -/
def redirected : ConnectionTable := (ConnectionTable.empty.add 1001 0 0x04030201 443 1).add 1002 0 0x08070605 443 1

/-- `AcceptLoop` accepts a connection from the port. -/
def accepts (client : Sock) (port : BitVec 16) : List ServerInput :=
  List.replicate 4 (.accept ⟨some (true, false), some (client, port), redirected, true⟩)

end Demo

end TR.Impl
