import TcpRedirector.Proof.Framework.Chain
import TcpRedirector.Proof.Relay.Bridge
import TcpRedirector.Proof.Relay.Handshake
import TcpRedirector.Proof.Relay.Server

/-!
# Stopping the server

`Stop` polls `m_activePairs`, at most fifty times, and then calls
`WSACleanup`. `m_activePairs` is the number of bridges between their
`fetch_add` and their `fetch_sub`, so a poll that reads 0 finds every bridge
counted before it through with its sockets (`shutdown_drains`). A connection
still in its handshake is not counted (`handshake_outlives_cleanup`).
-/

namespace TR.Impl

/-- The bridge has been counted and not yet been taken off the count. -/
def Connection.isCounted : Connection → Bool
  | .handler _ => false
  | .bridging b _ => match b.main with
    | .count | .done => false
    | _ => true

/-- The bridge is over: no thread of the connection has a socket call left. -/
def Connection.Quiet : Connection → Prop
  | .handler p => p.Calls fun _ => False
  | .bridging b k => b.main = .done ∧ (b.up = none ∨ b.up = some .done) ∧ k.Calls fun _ => False

/-- A bridge some run of its threads leads to. -/
def Bridge.Reachable (b : Bridge) : Prop :=
  ∃ client proxy n r, BridgeInv client proxy n r ∧ r.bridge = b

/-- Nothing follows `StartBridge`, and a bridge has come about by its steps. -/
def Connection.Wf : Connection → Prop
  | .handler p => ∃ m destIp destPort st, Talks m destIp destPort p st
  | .bridging b k => b.Reachable ∧ k.Calls fun _ => False

/-- `m_activePairs.fetch_add` of a bridge. -/
def ServerAct.counts : ServerAct → Bool
  | .connection _ (.bridge .fetchAddPairs) => true
  | _ => false

/-- `m_activePairs.fetch_sub`. -/
def ServerAct.uncounts : ServerAct → Bool
  | .connection _ (.bridge .fetchSubPairs) => true
  | _ => false

/-- Fewer than 2^32 bridges are open. -/
def Countable (log : List ServerAct) : Prop := log.countP ServerAct.counts < log.countP ServerAct.uncounts + 2 ^ 32

/-- What `Stop` has read and done. -/
def stopActs (log : List ServerAct) : List ServerAct :=
  log.filter fun a => match a with
    | .poll _ | .wsaCleanup => true
    | _ => false

/-- How a server stops. -/
structure Drains (log : List ServerAct) : Prop where
  /-- `WSACleanup` follows a poll that read 0, or fifty that did not. -/
  cleanup : .wsaCleanup ∈ log → ∃ reads : List (BitVec 32), (∀ n ∈ reads, n ≠ 0) ∧
    (reads.length < 50 ∧ stopActs log = reads.map .poll ++ [.poll 0, .wsaCleanup] ∨
      reads.length = 50 ∧ stopActs log = reads.map .poll ++ [.wsaCleanup])
  /-- Nothing is accepted once `Stop` polls. -/
  accepted : ∀ pre post n ctx, log = pre ++ .poll n :: post → .accepted ctx ∉ post
  /-- A poll that reads 0 finds every bridge counted before it through with
  its sockets, if fewer than 2^32 are open. -/
  drained : ∀ pre post, log = pre ++ .poll 0 :: post → Countable pre →
    ∀ n, .connection n (.bridge .fetchAddPairs) ∈ pre → ∀ a, .connection n a ∈ post → a.isSocketOp = false

/-- The property that does not hold of every run. -/
def SilentAfterCleanup (log : List ServerAct) : Prop :=
  ∀ pre post n a, log = pre ++ .wsaCleanup :: post → .connection n a ∈ post → a.isSocketOp = false

/-! ## One connection -/

/-- When a bridge has nothing left to do but to take itself off the count, its UP thread is through. -/
theorem Bridge.Reachable.joined {b : Bridge} (hb : b.Reachable) (hm : b.main = .uncount) :
    b.up = none ∨ b.up = some .done := by
  obtain ⟨client, proxy, n, r, h, rfl⟩ := hb
  cases h with
  | aborted => exact .inl rfl
  | joined => exact .inr rfl
  | _ => cases hm

theorem Bridge.Reachable.next {b b' : Bridge} {i : BridgeInput} {a : BridgeAct} (hb : b.Reachable)
    (h : b.step i = some (b', a)) : b'.Reachable := by
  obtain ⟨client, proxy, n, r, hr, rfl⟩ := hb
  refine ⟨client, proxy, n, (bridgeStep i r).1, hr.step i r, ?_⟩
  simp [bridgeStep, h]

/-- What a step of a bridge does to the count. -/
theorem Bridge.Reachable.counted {b b' : Bridge} {i : BridgeInput} {a : BridgeAct} (hb : b.Reachable)
    (h : b.step i = some (b', a)) :
    (a = .fetchAddPairs ∧ b.main = .count ∧ b'.main = .createUp) ∨
    (a = .fetchSubPairs ∧ b.main = .uncount ∧ b'.main = .done ∧ (b'.up = none ∨ b'.up = some .done)) ∨
    (a ≠ .fetchAddPairs ∧ a ≠ .fetchSubPairs ∧
      ∀ k, (Connection.bridging b' k).isCounted = (Connection.bridging b k).isCounted) := by
  obtain ⟨client, proxy, main, up, refs⟩ := b
  obtain ⟨thread, created, answer⟩ := i
  cases thread with
  | up =>
    cases up with
    | none => cases h
    | some s =>
      simp only [Bridge.step, Option.map_eq_some_iff] at h
      obtain ⟨r, -, hr⟩ := h
      cases hr
      exact .inr (.inr ⟨by simp, by simp, fun k => rfl⟩)
  | dn =>
    cases main with
    | count =>
      cases h
      exact .inl ⟨rfl, rfl, rfl⟩
    | createUp => cases created <;> cases h <;> exact .inr (.inr ⟨by simp, by simp, fun k => rfl⟩)
    | abortClient | abortProxy =>
      cases h
      exact .inr (.inr ⟨by simp, by simp, fun k => rfl⟩)
    | relayDn d =>
      by_cases hd : d = .done
      · subst hd
        simp only [Bridge.step] at h
        split at h
        · cases h
          exact .inr (.inr ⟨by simp, by simp, fun k => rfl⟩)
        · cases h
      · rw [step_relayDn _ rfl hd, Option.map_eq_some_iff] at h
        obtain ⟨r, -, hr⟩ := h
        cases hr
        exact .inr (.inr ⟨by simp, by simp, fun k => rfl⟩)
    | uncount =>
      cases h
      exact .inr (.inl ⟨rfl, rfl, rfl, hb.joined rfl⟩)
    | done => cases h

/-- After `StartBridge` a handler makes no call. -/
theorem calls_of_talks_bridged {m : Relay} {destIp : BitVec 32} {destPort : BitVec 16} {p : RelayProg Unit}
    (h : Talks m destIp destPort p .bridged) : p.Calls fun _ => False := by
  cases p with
  | ret a => trivial
  | throw => trivial
  | call c k =>
    obtain ⟨st, hst, -⟩ := h (Demo.reply c)
    cases c <;> cases hst

section

variable {token : Bytes} {i : BridgeInput} {c c' : Connection} {a : Option ConnectionAct}

/-- A connection that is over does nothing more. -/
theorem Connection.Quiet.stepped (h : c.Quiet) (hc : c.Stepped token i c' a) : a = none ∧ c'.Quiet := by
  cases hc with
  | entered client proxy k => exact absurd h.1 id
  | called c k => exact absurd h.1 id
  | relayed b b' a k hb =>
    obtain ⟨client, proxy, main, up, refs⟩ := b
    obtain ⟨thread, created, answer⟩ := i
    obtain ⟨rfl, hup, -⟩ := h
    simp only at hup
    cases thread with
    | up => rcases hup with rfl | rfl <;> cases hb
    | dn => cases hb
  | returned b k => exact ⟨rfl, h.2.2⟩

theorem Connection.Wf.stepped (h : c.Wf) (hc : c.Stepped token i c' a) : c'.Wf := by
  cases hc with
  | entered client proxy k =>
    obtain ⟨m, destIp, destPort, st, ht⟩ := h
    exact ⟨⟨client, proxy, 0, _, .counting, rfl⟩, calls_of_talks_bridged ht.startBridge⟩
  | called c k =>
    obtain ⟨m, destIp, destPort, st, ht⟩ := h
    obtain ⟨st', -, ht'⟩ := ht (answerWith token i.answer c)
    exact ⟨m, destIp, destPort, st', ht'⟩
  | relayed b b' a k hb => exact ⟨h.1.next hb, h.2⟩
  | returned b k =>
    refine ⟨Demo.tcpRelay, 0, 0, .bridged, ?_⟩
    cases k with
    | ret a => trivial
    | throw => trivial
    | call c k => exact absurd h.2.1 id

/-- What a step of a connection does to the count. -/
theorem Connection.Wf.counted (h : c.Wf) (hc : c.Stepped token i c' a) :
    (a = some (.bridge .fetchAddPairs) ∧ c.isCounted = false ∧ c'.isCounted = true) ∨
    (a = some (.bridge .fetchSubPairs) ∧ c.isCounted = true ∧ c'.isCounted = false ∧ c'.Quiet) ∨
    (a ≠ some (.bridge .fetchAddPairs) ∧ a ≠ some (.bridge .fetchSubPairs) ∧ c'.isCounted = c.isCounted) := by
  cases hc with
  | entered client proxy k => exact .inr (.inr ⟨nofun, nofun, rfl⟩)
  | called c k => exact .inr (.inr ⟨nofun, nofun, rfl⟩)
  | relayed b b' a k hb =>
    rcases h.1.counted hb with ⟨rfl, hm, hm'⟩ | ⟨rfl, hm, hm', hup⟩ | ⟨h₁, h₂, hk⟩
    · exact .inl ⟨rfl, by simp [isCounted, hm], by simp [isCounted, hm']⟩
    · exact .inr (.inl ⟨rfl, by simp [isCounted, hm], by simp [isCounted, hm'], hm', hup, h.2⟩)
    · exact .inr (.inr ⟨by simpa using h₁, by simpa using h₂, hk k⟩)
  | returned b k hm => exact .inr (.inr ⟨nofun, nofun, by simp [isCounted, hm]⟩)

end

/-! ## The count -/

structure CountInv (s : Server) : Prop where
  wf : ∀ c ∈ s.connections, c.Wf
  pairs : s.activePairs = BitVec.ofNat 32 (s.connections.countP (·.isCounted))
  balance : s.log.countP ServerAct.counts = s.log.countP ServerAct.uncounts + s.connections.countP (·.isCounted)
  started : ∀ n, .connection n (.bridge .fetchAddPairs) ∈ s.log →
    ∃ c, s.connections[n]? = some c ∧ (c.isCounted = true ∨ c.Quiet)
  drained : ∀ pre post, s.log = pre ++ .poll 0 :: post → Countable pre →
    ∀ n, .connection n (.bridge .fetchAddPairs) ∈ pre →
      (∃ c, s.connections[n]? = some c ∧ c.Quiet) ∧ ∀ a, .connection n a ∈ post → a.isSocketOp = false

section

variable {s : Server}

/-- An entry that is neither of a connection nor a poll. -/
theorem CountInv.concat (h : CountInv s) {a : ServerAct} (hconn : ∀ n x, a ≠ .connection n x) (hpoll : a ≠ .poll 0) :
    CountInv { s with log := s.log ++ [a] } := by
  have hcounts : ServerAct.counts a = false ∧ ServerAct.uncounts a = false := by
    cases a with
    | connection n x => exact absurd rfl (hconn n x)
    | _ => exact ⟨rfl, rfl⟩
  refine ⟨h.wf, h.pairs, by simpa [hcounts] using h.balance, fun n hn => h.started n ?_, fun pre post heq hc n hn => ?_⟩
  · simpa [(hconn n _).symm] using hn
  · rcases concat_eq_append_cons heq with ⟨-, -, hp⟩ | ⟨post', rfl, hl⟩
    · exact absurd hp.symm hpoll
    · obtain ⟨hq, hpost⟩ := h.drained pre post' hl hc n hn
      refine ⟨hq, fun x hx => hpost x ?_⟩
      simpa [(hconn n _).symm] using hx

/-- A poll that reads 0 finds no bridge counted. -/
theorem CountInv.poll (h : CountInv s) : CountInv { s with log := s.log ++ [.poll s.activePairs] } := by
  by_cases h0 : s.activePairs = 0
  · refine ⟨h.wf, h.pairs, by simpa [ServerAct.counts, ServerAct.uncounts] using h.balance,
      fun n hn => h.started n (by simpa using hn), fun pre post heq hc n hn => ?_⟩
    rcases concat_eq_append_cons heq with ⟨rfl, rfl, -⟩ | ⟨post', rfl, hl⟩
    · refine ⟨?_, nofun⟩
      have hopen : s.connections.countP (·.isCounted) = 0 := by
        have hb := h.balance
        have hp : BitVec.ofNat 32 (s.connections.countP (·.isCounted)) = 0 := h.pairs.symm.trans h0
        have hp' := congrArg BitVec.toNat hp
        simp only [BitVec.toNat_ofNat, Countable] at hp' hc
        have hlt : s.connections.countP (·.isCounted) < 2 ^ 32 := by omega
        rwa [Nat.mod_eq_of_lt hlt] at hp'
      obtain ⟨c, hcn, hcount | hq⟩ := h.started n hn
      · exact absurd hcount (List.countP_eq_zero.mp hopen c (List.mem_of_getElem? hcn))
      · exact ⟨c, hcn, hq⟩
    · obtain ⟨hq, hpost⟩ := h.drained pre post' hl hc n hn
      exact ⟨hq, fun x hx => hpost x (by simpa using hx)⟩
  · exact h.concat nofun fun hp => h0 (ServerAct.poll.inj hp)

/-- What a step leaves of a connection that was counted or is over. -/
theorem Connection.Wf.keeps {token : Bytes} {i : BridgeInput} {c c' : Connection} {a : Option ConnectionAct} (hw : c.Wf)
    (hc : c.Stepped token i c' a) (h : c.isCounted = true ∨ c.Quiet) : c'.isCounted = true ∨ c'.Quiet := by
  rcases h with hcount | hq
  · rcases hw.counted hc with ⟨-, h0, -⟩ | ⟨-, -, -, hq⟩ | ⟨-, -, hk⟩
    · rw [h0] at hcount
      cases hcount
    · exact .inr hq
    · exact .inl (hk.trans hcount)
  · exact .inr (hq.stepped hc).2

/-- The connections after a step of the `n`-th. -/
theorem CountInv.getElem?_set {n : Nat} {c c' : Connection} (hn : s.connections[n]? = some c) {P Q : Connection → Prop}
    (hP : P c → Q c') (hQ : ∀ d, P d → Q d) {j : Nat} (h : ∃ d, s.connections[j]? = some d ∧ P d) :
    ∃ d, (s.connections.set n c')[j]? = some d ∧ Q d := by
  obtain ⟨d, hd, hp⟩ := h
  by_cases hj : n = j
  · subst hj
    rw [hn] at hd
    cases hd
    exact ⟨c', List.getElem?_set_self (List.getElem?_eq_some_iff.mp hn).1, hP hp⟩
  · exact ⟨d, by rw [List.getElem?_set_ne hj, hd], hQ d hp⟩

theorem CountInv.silent (h : CountInv s) {n : Nat} {i : BridgeInput} {c c' : Connection}
    (hn : s.connections[n]? = some c) (hc : c.Stepped s.lastAuthToken i c' none) :
    CountInv { s with connections := s.connections.set n c' } := by
  have hw : c.Wf := h.wf c (List.mem_of_getElem? hn)
  have hcount : (s.connections.set n c').countP (·.isCounted) = s.connections.countP (·.isCounted) := by
    have hset := countP_set_add (p := (·.isCounted)) c' hn
    rcases hw.counted hc with ⟨ha, -, -⟩ | ⟨ha, -, -, -⟩ | ⟨-, -, hk⟩
    · cases ha
    · cases ha
    · rw [hk] at hset
      omega
  refine ⟨?_, ?_, ?_, ?_, ?_⟩
  · intro d hd
    rcases List.mem_or_eq_of_mem_set hd with hd | rfl
    · exact h.wf d hd
    · exact hw.stepped hc
  · rw [hcount]
    exact h.pairs
  · rw [hcount]
    exact h.balance
  · exact fun j hj => CountInv.getElem?_set hn (hw.keeps hc) (fun _ hd => hd) (h.started j hj)
  · intro pre post heq hcb j hj
    obtain ⟨hq, hpost⟩ := h.drained pre post heq hcb j hj
    exact ⟨CountInv.getElem?_set hn (fun hq => (hq.stepped hc).2) (fun _ hd => hd) hq, hpost⟩

/-- `m_activePairs` and the log follow the number of bridges counted. -/
theorem CountInv.numbers (h : CountInv s) {n : Nat} {i : BridgeInput} {c c' : Connection} {a : ConnectionAct}
    (hn : s.connections[n]? = some c) (hc : c.Stepped s.lastAuthToken i c' (some a)) :
    Server.pairs s.activePairs a = BitVec.ofNat 32 ((s.connections.set n c').countP (·.isCounted)) ∧
    s.log.countP ServerAct.counts + [ServerAct.connection n a].countP ServerAct.counts =
      s.log.countP ServerAct.uncounts + [ServerAct.connection n a].countP ServerAct.uncounts +
        (s.connections.set n c').countP (·.isCounted) := by
  have hset := countP_set_add (p := (·.isCounted)) c' hn
  have hb := h.balance
  rcases (h.wf c (List.mem_of_getElem? hn)).counted hc with ⟨ha, h0, h1⟩ | ⟨ha, h1, h0, -⟩ | ⟨hadd, hsub, hk⟩
  · cases ha
    simp only [h0, h1, Bool.false_eq_true, if_false, if_true, Nat.add_zero] at hset
    refine ⟨?_, ?_⟩
    · rw [show Server.pairs s.activePairs _ = s.activePairs + 1 from rfl, h.pairs, hset, BitVec.ofNat_add]
      rfl
    · simp only [ServerAct.counts, ServerAct.uncounts, List.countP_singleton, if_true, Bool.false_eq_true, if_false]
      omega
  · cases ha
    simp only [h0, h1, Bool.false_eq_true, if_false, if_true, Nat.add_zero] at hset
    refine ⟨?_, ?_⟩
    · rw [show Server.pairs s.activePairs _ = s.activePairs - 1 from rfl, h.pairs, ← hset, BitVec.ofNat_add]
      exact BitVec.add_sub_cancel _ _
    · simp only [ServerAct.counts, ServerAct.uncounts, List.countP_singleton, if_true, Bool.false_eq_true, if_false]
      omega
  · rw [hk] at hset
    have hother : Server.pairs s.activePairs a = s.activePairs ∧ ServerAct.counts (.connection n a) = false ∧
        ServerAct.uncounts (.connection n a) = false := by
      cases a with
      | call e => exact ⟨rfl, rfl, rfl⟩
      | bridge a =>
        cases a with
        | fetchAddPairs => exact absurd rfl hadd
        | fetchSubPairs => exact absurd rfl hsub
        | _ => exact ⟨rfl, rfl, rfl⟩
    refine ⟨?_, ?_⟩
    · rw [hother.1, h.pairs]
      congr 1
      omega
    · simp only [List.countP_singleton, hother, Bool.false_eq_true, if_false]
      omega

theorem CountInv.connection (h : CountInv s) {n : Nat} {i : BridgeInput} {c c' : Connection} {a : ConnectionAct}
    (hn : s.connections[n]? = some c) (hc : c.Stepped s.lastAuthToken i c' (some a)) :
    CountInv
      { s with
        connections := s.connections.set n c'
        activePairs := Server.pairs s.activePairs a
        lastAuthToken := Server.token s.lastAuthToken a
        log := s.log ++ [.connection n a] } := by
  have hw : c.Wf := h.wf c (List.mem_of_getElem? hn)
  have hnum := h.numbers hn hc
  refine ⟨?_, ?_, ?_, ?_, ?_⟩
  · intro d hd
    rcases List.mem_or_eq_of_mem_set hd with hd | rfl
    · exact h.wf d hd
    · exact hw.stepped hc
  · exact hnum.1
  · simpa [List.countP_append] using hnum.2
  · intro j hj
    rcases List.mem_append.mp hj with hj | hj
    · exact CountInv.getElem?_set hn (hw.keeps hc) (fun _ hd => hd) (h.started j hj)
    · cases List.mem_singleton.mp hj
      refine ⟨c', List.getElem?_set_self (List.getElem?_eq_some_iff.mp hn).1, ?_⟩
      rcases hw.counted hc with ⟨-, -, h1⟩ | ⟨ha, -, -, -⟩ | ⟨ha, -, -⟩
      · exact .inl h1
      · cases ha
      · exact absurd rfl ha
  · intro pre post heq hcb j hj
    rcases concat_eq_append_cons heq with ⟨-, -, hp⟩ | ⟨post', rfl, hl⟩
    · cases hp
    · obtain ⟨⟨d, hd, hq⟩, hpost⟩ := h.drained pre post' hl hcb j hj
      -- The connection is over, so the step was another's.
      have hjn : n ≠ j := by
        rintro rfl
        rw [hn] at hd
        cases hd
        cases (hq.stepped hc).1
      refine ⟨⟨d, by rw [List.getElem?_set_ne hjn, hd], hq⟩, fun x hx => ?_⟩
      rcases List.mem_append.mp hx with hx | hx
      · exact hpost x hx
      · cases List.mem_singleton.mp hx
        exact absurd rfl hjn

theorem CountInv.accept (h : CountInv s) (a : AcceptState) (ctx : RelayContext) : CountInv
    { s with
      accept := a
      connections := s.connections ++ [.handler (connectionHandler s.relay ctx)]
      log := s.log ++ [.accepted ctx] } := by
  have hlog := h.concat (a := .accepted ctx) nofun nofun
  have hget : ∀ {j : Nat} {P : Connection → Prop}, (∃ d, s.connections[j]? = some d ∧ P d) →
      ∃ d, (s.connections ++ [.handler (connectionHandler s.relay ctx)])[j]? = some d ∧ P d := by
    rintro j P ⟨d, hd, hp⟩
    exact ⟨d, by rw [List.getElem?_append_left (List.getElem?_eq_some_iff.mp hd).1, hd], hp⟩
  refine ⟨?_, ?_, ?_, fun j hj => hget (hlog.started j hj), fun pre post heq hc j hj => ?_⟩
  · intro d hd
    rcases List.mem_append.mp hd with hd | hd
    · exact h.wf d hd
    · cases List.mem_singleton.mp hd
      exact ⟨s.relay, _, _, _, connectionHandler_handshake ctx⟩
  · simpa [Connection.isCounted] using h.pairs
  · simpa [Connection.isCounted] using hlog.balance
  · obtain ⟨hq, hpost⟩ := hlog.drained pre post heq hc j hj
    exact ⟨hget hq, hpost⟩

theorem CountInv.step (i : ServerInput) (s : Server) (h : CountInv s) : CountInv (serverStep i s).1 := by
  have hs := serverStep_cases i s
  generalize (serverStep i s).1 = s' at hs
  cases hs with
  | idle => exact h
  | accepting i a ha => exact ⟨h.wf, h.pairs, h.balance, h.started, h.drained⟩
  | accepted i a ctx ha => exact h.accept a ctx
  | stop =>
    rcases s.stopStep_cases with ⟨running, stop, heq⟩ | ⟨stop, a, rfl | rfl, heq⟩
    · rw [heq]
      exact ⟨h.wf, h.pairs, h.balance, h.started, h.drained⟩
    · rw [heq]
      have hp := h.poll
      exact ⟨hp.wf, hp.pairs, hp.balance, hp.started, hp.drained⟩
    · rw [heq]
      have hp := h.concat (a := .wsaCleanup) nofun nofun
      exact ⟨hp.wf, hp.pairs, hp.balance, hp.started, hp.drained⟩
  | silent n i c c' hn hc => exact h.silent hn hc
  | connection n i c c' a hn hc => exact h.connection hn hc

end

/-! ## What `Stop` does -/

/-- The reads of `m_activePairs` that kept `Stop` waiting. -/
def Waited (reads : List (BitVec 32)) (acts : List ServerAct) : Prop :=
  (∀ n ∈ reads, n ≠ 0) ∧ acts = reads.map .poll

/-- What `Stop` has done when it is about to call `WSACleanup`. -/
def Drained (acts : List ServerAct) : Prop :=
  ∃ reads : List (BitVec 32), (∀ n ∈ reads, n ≠ 0) ∧
    (reads.length < 50 ∧ acts = reads.map .poll ++ [.poll 0] ∨ reads.length = 50 ∧ acts = reads.map .poll)

/-- What `Stop` has done, by where it stands. -/
def StopInv (acts : List ServerAct) : StopState → Prop
  | .poll i => ∃ reads, Waited reads acts ∧ reads.length = i ∧ i ≤ 50
  | .sleep i => ∃ reads, Waited reads acts ∧ reads.length = i + 1 ∧ i < 50
  | .cleanup => Drained acts
  | .returned => acts = [] ∨ ∃ acts', Drained acts' ∧ acts = acts' ++ [.wsaCleanup]
  | _ => acts = []

/-- `Stop` has joined the accept thread and not yet called `WSACleanup`. -/
def StopState.polls : StopState → Bool
  | .poll _ | .sleep _ | .cleanup => true
  | _ => false

structure ShutdownInv (s : Server) : Prop where
  stop : StopInv (stopActs s.log) s.stop
  /-- `Stop` polls after it has joined the accept thread. -/
  joined : stopActs s.log ≠ [] ∨ s.stop.polls = true → s.accept = .exited
  accepted : ∀ pre post n ctx, s.log = pre ++ .poll n :: post → .accepted ctx ∉ post

section

variable {s : Server}

theorem stopActs_concat (log : List ServerAct) (a : ServerAct) : stopActs (log ++ [a]) = stopActs log ++ stopActs [a] :=
  List.filter_append log [a]

theorem stopActs_ne_nil {pre post : List ServerAct} {n : BitVec 32} : stopActs (pre ++ .poll n :: post) ≠ [] := by
  simp [stopActs]

/-- An entry that is not of `Stop`. -/
theorem notAccepted_concat {log : List ServerAct} (h : ∀ pre post n ctx, log = pre ++ .poll n :: post → .accepted ctx ∉ post)
    {a : ServerAct} (ha : (∃ ctx, a = .accepted ctx) → stopActs log = []) :
    ∀ pre post n ctx, log ++ [a] = pre ++ .poll n :: post → .accepted ctx ∉ post := by
  intro pre post n ctx heq hctx
  rcases concat_eq_append_cons heq with ⟨rfl, -, -⟩ | ⟨post', rfl, hl⟩
  · cases hctx
  · rcases List.mem_append.mp hctx with hctx | hctx
    · exact h pre post' n ctx hl hctx
    · have hnil := ha ⟨ctx, (List.mem_singleton.mp hctx).symm⟩
      rw [hl] at hnil
      exact stopActs_ne_nil hnil

theorem ShutdownInv.stopStep (h : ShutdownInv s) : ShutdownInv s.stopStep := by
  have hstop := h.stop
  have hjoined := h.joined
  unfold Server.stopStep
  cases hs : s.stop with
  | join =>
    dsimp only
    simp only [hs, StopInv] at hstop
    split
    next hx => exact ⟨⟨[], ⟨nofun, hstop⟩, rfl, Nat.zero_le _⟩, fun _ => hx, h.accepted⟩
    next => exact h
  | poll i =>
    dsimp only
    have hx : s.accept = .exited := hjoined (.inr (by rw [hs]; rfl))
    simp only [hs, StopInv] at hstop
    obtain ⟨reads, ⟨hne, hacts⟩, hlen, hi⟩ := hstop
    split
    next hlt =>
      have hacts' : stopActs (s.log ++ [.poll s.activePairs]) = reads.map .poll ++ [.poll s.activePairs] := by
        rw [stopActs_concat, hacts]
        rfl
      refine ⟨?_, fun _ => hx, notAccepted_concat h.accepted nofun⟩
      show StopInv (stopActs (s.log ++ [.poll s.activePairs])) (if 0 < s.activePairs then .sleep i else .cleanup)
      rw [hacts']
      split
      next hpos =>
        refine ⟨reads ++ [s.activePairs], ⟨?_, by simp⟩, by simp [hlen], hlt⟩
        intro n hn
        rcases List.mem_append.mp hn with hn | hn
        · exact hne n hn
        · cases List.mem_singleton.mp hn
          exact (BitVec.pos_iff_ne_zero _).mp hpos
      next hzero =>
        have h0 : s.activePairs = 0 := by
          by_contra hne
          exact hzero ((BitVec.pos_iff_ne_zero _).mpr hne)
        exact ⟨reads, hne, .inl ⟨by omega, by rw [h0]⟩⟩
    next hge => exact ⟨⟨reads, hne, .inr ⟨by omega, hacts⟩⟩, fun _ => hx, h.accepted⟩
  | sleep i =>
    have hx : s.accept = .exited := hjoined (.inr (by rw [hs]; rfl))
    simp only [hs, StopInv] at hstop
    obtain ⟨reads, hw, hlen, hi⟩ := hstop
    exact ⟨⟨reads, hw, hlen, hi⟩, fun _ => hx, h.accepted⟩
  | cleanup =>
    have hx : s.accept = .exited := hjoined (.inr (by rw [hs]; rfl))
    simp only [hs, StopInv] at hstop
    refine ⟨.inr ⟨_, hstop, stopActs_concat s.log .wsaCleanup⟩, fun _ => hx, notAccepted_concat h.accepted nofun⟩
  | returned => exact h
  | test =>
    simp only [hs, StopInv] at hstop
    dsimp only
    split
    · exact ⟨hstop, fun hp => hp.elim (absurd hstop) nofun, h.accepted⟩
    · exact ⟨.inl hstop, fun hp => hp.elim (absurd hstop) nofun, h.accepted⟩
  | closeListen =>
    simp only [hs, StopInv] at hstop
    dsimp only
    split <;> exact ⟨hstop, fun hp => hp.elim (absurd hstop) nofun, h.accepted⟩
  | _ =>
    simp only [hs, StopInv] at hstop
    exact ⟨hstop, fun hp => hp.elim (absurd hstop) nofun, h.accepted⟩

/-- An entry of a connection tells nothing about `Stop`. -/
theorem ShutdownInv.connection (h : ShutdownInv s) (n : Nat) (a : ConnectionAct) {s' : Server}
    (hlog : s'.log = s.log ++ [.connection n a]) (hstop : s'.stop = s.stop) (haccept : s'.accept = s.accept) :
    ShutdownInv s' := by
  have hacts : stopActs s'.log = stopActs s.log := by
    rw [hlog, stopActs_concat, show stopActs [.connection n a] = [] from rfl, List.append_nil]
  refine ⟨?_, ?_, ?_⟩
  · rw [hacts, hstop]
    exact h.stop
  · rw [hacts, hstop, haccept]
    exact h.joined
  · rw [hlog]
    exact notAccepted_concat h.accepted nofun

theorem ShutdownInv.step (i : ServerInput) (s : Server) (h : ShutdownInv s) : ShutdownInv (serverStep i s).1 := by
  have hs := serverStep_cases i s
  generalize (serverStep i s).1 = s' at hs
  cases hs with
  | idle => exact h
  | accepting i a ha => exact ⟨h.stop, fun hp => absurd (h.joined hp) ha, h.accepted⟩
  | accepted i a ctx ha =>
    have hnil : stopActs s.log = [] := by
      by_contra hne
      exact ha (h.joined (.inl hne))
    have hacts : stopActs (s.log ++ [.accepted ctx]) = stopActs s.log := by
      rw [stopActs_concat, show stopActs [.accepted ctx] = [] from rfl, List.append_nil]
    refine ⟨?_, ?_, notAccepted_concat h.accepted fun _ => hnil⟩
    · rw [hacts]
      exact h.stop
    · rw [hacts]
      exact fun hp => absurd (h.joined hp) ha
  | stop => exact h.stopStep
  | silent n i c c' hn hc => exact ⟨h.stop, h.joined, h.accepted⟩
  | connection n i c c' a hn hc => exact h.connection n a rfl rfl rfl

end

/-- `WSACleanup` comes last, after the polls. -/
theorem StopInv.drained {acts : List ServerAct} {st : StopState} (h : StopInv acts st) (hin : .wsaCleanup ∈ acts) :
    ∃ acts', Drained acts' ∧ acts = acts' ++ [.wsaCleanup] := by
  cases st with
  | poll i | sleep i =>
    obtain ⟨reads, ⟨-, rfl⟩, -, -⟩ := h
    simp at hin
  | cleanup => obtain ⟨reads, -, ⟨-, rfl⟩ | ⟨-, rfl⟩⟩ := h <;> simp at hin
  | returned =>
    rcases h with rfl | h
    · cases hin
    · exact h
  | _ =>
    cases h
    cases hin

/-- How a server stops, whatever its connections do. -/
theorem shutdown_drains (m : Relay) (listen6 : Bool) (schedule : List ServerInput) :
    Drains (run serverStep schedule (.start m listen6)).log := by
  have hstart : CountInv (.start m listen6) :=
    ⟨nofun, rfl, rfl, nofun, fun pre post heq => by cases pre <;> cases heq⟩
  have hstop : ShutdownInv (.start m listen6) :=
    ⟨rfl, fun hp => hp.elim (absurd rfl) nofun, fun pre post n ctx heq => by cases pre <;> cases heq⟩
  have hc := run_induct CountInv.step schedule hstart
  have hs := run_induct ShutdownInv.step schedule hstop
  generalize run serverStep schedule (.start m listen6) = s at hc hs
  refine ⟨fun hin => ?_, hs.accepted, fun pre post heq hb n hn => (hc.drained pre post heq hb n hn).2⟩
  obtain ⟨acts, ⟨reads, hne, hreads⟩, hacts⟩ := hs.stop.drained (by simpa [stopActs] using hin)
  refine ⟨reads, hne, ?_⟩
  rcases hreads with ⟨hlen, rfl⟩ | ⟨hlen, rfl⟩
  · exact .inl ⟨hlen, by simpa using hacts⟩
  · exact .inr ⟨hlen, hacts⟩

namespace Demo

/-- The proxy answers 200. -/
def established : (c : Call) → c.Resp
  | .recv _ len => (if h : 12 ≤ len then some ⟨ascii "HTTP/1.1 200", h⟩ else none : Option { b : Bytes // b.length ≤ len })
  | c => reply c

/-- So many steps of the handler of the one connection there is. -/
def handles (n : Nat) : List ServerInput := List.replicate n (.connection 0 ⟨.dn, true, established⟩)

/-- `Stop` up to its first poll, with the accept thread. -/
def stops : List ServerInput :=
  List.replicate 4 .stop ++ [.accept ⟨none, none, redirected, true⟩, .stop]

/-- `Stop` during a handshake. -/
def stoppedEarly : List ServerInput := accepts 1 1001 ++ handles 1 ++ stops ++ List.replicate 2 .stop ++ handles 1

/-- `Stop` while a bridge is open for longer than it waits. -/
def stoppedLate : List ServerInput := accepts 1 1001 ++ handles 21 ++ stops ++ List.replicate 102 .stop ++ handles 1

end Demo

/-- `SilentAfterCleanup`, evaluated. -/
def silentAfterCleanup : List ServerAct → Bool
  | [] => true
  | .wsaCleanup :: log => log.all fun a => match a with
    | .connection _ a => !a.isSocketOp
    | _ => true
  | _ :: log => silentAfterCleanup log

theorem SilentAfterCleanup.eval {log : List ServerAct} (h : SilentAfterCleanup log) : silentAfterCleanup log = true := by
  induction log with
  | nil => rfl
  | cons a log ih =>
    have htail : SilentAfterCleanup log := fun pre post n x heq => h (a :: pre) post n x (by rw [heq, List.cons_append])
    cases a with
    | wsaCleanup =>
      refine List.all_eq_true.mpr fun b hb => ?_
      cases b with
      | connection n x => simpa using h [] log n x rfl hb
      | _ => rfl
    | _ => exact ih htail

/-- A handshake, which `Stop` does not count, and a bridge that outlives its
polls call Winsock after `WSACleanup`. -/
theorem handshake_outlives_cleanup :
    ¬SilentAfterCleanup (run serverStep Demo.stoppedEarly (.start Demo.tcpRelay false)).log ∧
    ¬SilentAfterCleanup (run serverStep Demo.stoppedLate (.start Demo.tcpRelay false)).log := by
  have hearly : silentAfterCleanup (run serverStep Demo.stoppedEarly (.start Demo.tcpRelay false)).log = false := by
    decide +kernel
  have hlate : silentAfterCleanup (run serverStep Demo.stoppedLate (.start Demo.tcpRelay false)).log = false := by
    decide +kernel
  constructor
  · intro h
    exact absurd h.eval (by rw [hearly]; decide)
  · intro h
    exact absurd h.eval (by rw [hlate]; decide)

end TR.Impl
