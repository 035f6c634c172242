import TcpRedirector.Impl.Relay.Bridge
import TcpRedirector.Proof.Framework.Run

/-!
# Both directions of a bridge

What one direction does in a step (`Relayed`), what that says of its calls so
far (`DirectionInv`), how the reference count stands with the two directions
(`Balance`), and what holds in every state of a bridge (`BridgeInv`), whatever
the order of the two threads' steps and the answers they get. `bridge_faithful`
collects what a bridge is for.
-/

namespace TR.Impl

abbrev AnsweredCall := Answered Call Call.Resp

/-- The calls of one direction, in order. -/
def calls (d : Direction) (log : List BridgeAct) : List AnsweredCall :=
  log.filterMap fun a => match a with
    | .relay d' e => if d' = d then some e else none
    | _ => none

/-- The bytes that came in. -/
def received (tr : List AnsweredCall) : Bytes :=
  tr.flatMap fun e => match e with
    | ⟨.recv _ _, some b⟩ => b.1
    | _ => []

/-- The bytes that `send` took. -/
def accepted (tr : List AnsweredCall) : Bytes :=
  tr.flatMap fun e => match e with
    | ⟨.send _ data, some n⟩ => data.take n
    | _ => []

/-- A `send` returned `SOCKET_ERROR`. -/
def SendFailed (tr : List AnsweredCall) : Prop := ∃ e ∈ tr, match e with
  | ⟨.send _ _, none⟩ => True
  | _ => False

/-- A `send` took no byte. -/
def SendStalled (tr : List AnsweredCall) : Prop := ∃ e ∈ tr, match e with
  | ⟨.send _ _, some n⟩ => n.val = 0
  | _ => False

/-- The calls of `send` and `shutdown`. -/
def outgoing (tr : List AnsweredCall) : List Call :=
  (tr.map (·.1)).filter fun c => match c with
    | .send _ _ | .shutdown _ => true
    | _ => false

/-- A direction is through: the last thing it did, closing sockets apart, was
to give up its reference to the pair. -/
def Finished (tr : List AnsweredCall) : Prop :=
  ((tr.map (·.1)).filter fun c => match c with
    | .closesocket _ => false
    | _ => true).getLast? = some .decrementRefs

/-- The sockets closed, in order. -/
def closedSockets (log : List BridgeAct) : List Sock :=
  log.filterMap fun a => match a with
    | .abort s => some s
    | .relay _ ⟨.closesocket s, _⟩ => some s
    | _ => none

/-! ## One direction -/

/-- What a direction does in a step, with `refs` references before it. -/
inductive Relayed (cfg : OneWayConfig) (refs : BitVec 32) : OneWayState → OneWayState → AnsweredCall → BitVec 32 → Prop
  | got (total : BitVec 64) (b : { b : Bytes // b.length ≤ 131072 }) (hb : b.1 ≠ []) :
      Relayed cfg refs (.recv total) (.send b.1 b.1.length total) ⟨.recv cfg.fromSock 131072, some b⟩ refs
  | ended (total : BitVec 64) (r : Option { b : Bytes // b.length ≤ 131072 }) (hr : ∀ b, r = some b → b.1 = []) :
      Relayed cfg refs (.recv total) (.account total) ⟨.recv cfg.fromSock 131072, r⟩ refs
  | sent (rest : Bytes) (len : Nat) (total : BitVec 64) (n : Fin (rest.length + 1)) :
      Relayed cfg refs (.send rest len total) (sendRest (rest.drop n) len total) ⟨.send cfg.toSock rest, some n⟩ refs
  | failed (rest : Bytes) (len : Nat) (total : BitVec 64) :
      Relayed cfg refs (.send rest len total) (.account total) ⟨.send cfg.toSock rest, none⟩ refs
  | accounted (total : BitVec 64) : Relayed cfg refs (.account total) .shutdown ⟨.fetchAdd total, ()⟩ refs
  | shut : Relayed cfg refs .shutdown .release ⟨.shutdown cfg.toSock, ()⟩ refs
  | released (hr : refs - 1 ≠ 0) : Relayed cfg refs .release .done ⟨.decrementRefs, refs - 1⟩ (refs - 1)
  | releasedLast (hr : refs - 1 = 0) : Relayed cfg refs .release .closeClient ⟨.decrementRefs, refs - 1⟩ (refs - 1)
  | closedClient : Relayed cfg refs .closeClient .closeProxy ⟨.closesocket cfg.sockClient, ()⟩ refs
  | closedProxy : Relayed cfg refs .closeProxy .done ⟨.closesocket cfg.sockProxy, ()⟩ refs

theorem relayCall_cases {b : Bridge} {d : Direction} {answer : (c : Call) → c.Resp} {s s' : OneWayState}
    {e : AnsweredCall} {refs : BitVec 32} (h : b.relayCall d answer s = some (s', e, refs)) :
    Relayed (d.config b.client b.proxy) b.refs s s' e refs := by
  cases s with
  | recv total =>
    cases h
    generalize (answer (.recv (d.config b.client b.proxy).fromSock 131072) : Option { b : Bytes // b.length ≤ 131072 }) = r
    cases r with
    | none => exact .ended total none fun b hb => by cases hb
    | some buf =>
      dsimp only
      by_cases he : buf.1 = []
      · simp only [he, List.isEmpty_nil, if_true]
        exact .ended total (some buf) fun b hb => by cases hb; exact he
      · simp only [List.isEmpty_eq_false_iff.mpr he, Bool.false_eq_true, if_false]
        exact .got total buf he
  | send rest len total =>
    cases h
    generalize (answer (.send (d.config b.client b.proxy).toSock rest) : Option (Fin (rest.length + 1))) = r
    cases r with
    | none => exact .failed rest len total
    | some n => exact .sent rest len total n
  | account total => cases h; exact .accounted total
  | shutdown => cases h; exact .shut
  | release =>
    cases h
    show Relayed _ _ _ (if b.refs - 1 = 0 then OneWayState.closeClient else .done) ⟨.decrementRefs, b.refs - 1⟩ _
    split
    next h0 => exact .releasedLast h0
    next h0 => exact .released h0
  | closeClient => cases h; exact .closedClient
  | closeProxy => cases h; exact .closedProxy
  | done => cases h

/-- `shutdown` has been called. -/
def OneWayState.isShut : OneWayState → Bool
  | .release | .closeClient | .closeProxy | .done => true
  | _ => false

/-- The reference to the pair has been given up. -/
def OneWayState.isReleased : OneWayState → Bool
  | .closeClient | .closeProxy | .done => true
  | _ => false

/-- The bytes received and not yet sent, while the direction relays. -/
def OneWayState.pending : OneWayState → Option Bytes
  | .recv _ => some []
  | .send rest _ _ => some rest
  | _ => none

/-- How many calls follow the last `recv` or `send` up to here. -/
def OneWayState.calls : OneWayState → Nat
  | .recv _ | .send _ _ _ => 0
  | .account _ => 1
  | .shutdown => 2
  | .release => 3
  | .closeClient => 4
  | .closeProxy => 5
  | .done => 6

/-- What the calls of a direction have done when it is in state `s`. -/
structure DirectionInv (cfg : OneWayConfig) (s : OneWayState) (tr : List AnsweredCall) : Prop where
  relaying : ∀ rest, s.pending = some rest → accepted tr ++ rest = received tr ∧ ¬SendFailed tr
  inOrder : accepted tr <+: received tr
  complete : s.pending = none → ¬SendFailed tr → accepted tr = received tr
  offered : ∀ pre post t data r, tr = pre ++ ⟨.send t data, r⟩ :: post → accepted pre ++ data = received pre
  sends : ∃ sent : List Bytes,
    outgoing tr = sent.map (.send cfg.toSock) ++ if s.isShut then [.shutdown cfg.toSock] else []
  finished : Finished tr ↔ s.isReleased = true
  bounded : ¬SendStalled tr →
    tr.length ≤ (received tr).length + (accepted tr).length + s.calls

@[simp] theorem received_concat (tr : List AnsweredCall) (e : AnsweredCall) :
    received (tr ++ [e]) = received tr ++ received [e] := List.flatMap_append

@[simp] theorem accepted_concat (tr : List AnsweredCall) (e : AnsweredCall) :
    accepted (tr ++ [e]) = accepted tr ++ accepted [e] := List.flatMap_append

@[simp] theorem outgoing_concat (tr : List AnsweredCall) (e : AnsweredCall) :
    outgoing (tr ++ [e]) = outgoing tr ++ outgoing [e] := by
  simp [outgoing]

@[simp] theorem SendFailed_concat (tr : List AnsweredCall) (e : AnsweredCall) :
    SendFailed (tr ++ [e]) ↔ SendFailed tr ∨ SendFailed [e] := by
  simp [SendFailed]

@[simp] theorem SendStalled_concat (tr : List AnsweredCall) (e : AnsweredCall) :
    SendStalled (tr ++ [e]) ↔ SendStalled tr ∨ SendStalled [e] := by
  simp [SendStalled]

theorem pending_sendRest (rest : Bytes) (len : Nat) (total : BitVec 64) :
    (sendRest rest len total).pending = some rest := by
  cases rest <;> rfl

theorem isShut_sendRest (rest : Bytes) (len : Nat) (total : BitVec 64) : (sendRest rest len total).isShut = false := by
  cases rest <;> rfl

theorem isReleased_sendRest (rest : Bytes) (len : Nat) (total : BitVec 64) :
    (sendRest rest len total).isReleased = false := by
  cases rest <;> rfl

theorem calls_sendRest (rest : Bytes) (len : Nat) (total : BitVec 64) : (sendRest rest len total).calls = 0 := by
  cases rest <;> rfl

/-- What a step does to the bytes of a direction. -/
theorem Relayed.bytes {cfg : OneWayConfig} {refs refs' : BitVec 32} {s s' : OneWayState} {e : AnsweredCall}
    (h : Relayed cfg refs s s' e refs') :
    (∃ rest rest', s.pending = some rest ∧ s'.pending = some rest' ∧ ¬SendFailed [e] ∧
      accepted [e] ++ rest' = rest ++ received [e]) ∨
    (accepted [e] = [] ∧ received [e] = [] ∧ s'.pending = none ∧
      (s.pending = none ∧ ¬SendFailed [e] ∨ s.pending = some [] ∧ ¬SendFailed [e] ∨ s.pending.isSome ∧ SendFailed [e])) := by
  cases h with
  | got total b hb => exact .inl ⟨[], b.1, rfl, rfl, by simp [SendFailed], by simp [accepted, received]⟩
  | ended total r hr =>
    have hrec : received [⟨.recv cfg.fromSock 131072, r⟩] = [] := by
      cases r with
      | none => rfl
      | some b => simp [received, hr b rfl]
    exact .inr ⟨rfl, hrec, rfl, .inr (.inl ⟨rfl, by simp [SendFailed]⟩)⟩
  | sent rest len total n =>
    refine .inl ⟨rest, rest.drop n, rfl, pending_sendRest _ _ _, by simp [SendFailed], ?_⟩
    simp [accepted, received]
  | failed rest len total => exact .inr ⟨rfl, rfl, rfl, .inr (.inr ⟨rfl, by simp [SendFailed]⟩)⟩
  | _ => exact .inr ⟨rfl, rfl, rfl, .inl ⟨rfl, by simp [SendFailed]⟩⟩

section

variable {cfg : OneWayConfig} {refs refs' : BitVec 32} {s s' : OneWayState} {e : AnsweredCall} {tr : List AnsweredCall}

theorem DirectionInv.offered_step (h : DirectionInv cfg s tr) (hr : Relayed cfg refs s s' e refs') :
    ∀ pre post t data r, tr ++ [e] = pre ++ ⟨.send t data, r⟩ :: post → accepted pre ++ data = received pre := by
  intro pre post t data r htr
  rcases concat_eq_append_cons htr with ⟨-, rfl, he⟩ | ⟨post', -, htr'⟩
  · cases hr with
    | sent rest len total n => cases he; exact (h.relaying _ rfl).1
    | failed rest len total => cases he; exact (h.relaying _ rfl).1
    | _ => cases he
  · exact h.offered pre post' t data r htr'

theorem DirectionInv.step (h : DirectionInv cfg s tr) (hr : Relayed cfg refs s s' e refs') :
    DirectionInv cfg s' (tr ++ [e]) where
  relaying := by
    intro rest' hrest'
    rcases hr.bytes with ⟨rest, rest'', hs, hs', hf, hb⟩ | ⟨-, -, hs', -⟩
    · obtain rfl : rest'' = rest' := Option.some.inj (hs'.symm.trans hrest')
      obtain ⟨ha, hn⟩ := h.relaying rest hs
      refine ⟨?_, by simp [hn, hf]⟩
      rw [accepted_concat, received_concat, List.append_assoc, hb, ← List.append_assoc, ha]
    · rw [hs'] at hrest'
      cases hrest'
  inOrder := by
    rcases hr.bytes with ⟨rest, rest', hs, hs', hf, hb⟩ | ⟨ha, hb, -, -⟩
    · refine ⟨rest', ?_⟩
      rw [accepted_concat, received_concat, List.append_assoc, hb, ← List.append_assoc, (h.relaying rest hs).1]
    · simpa [ha, hb] using h.inOrder
  complete := by
    intro hs' hn
    rw [SendFailed_concat, not_or] at hn
    rcases hr.bytes with ⟨rest, rest', hs, hr', hf, hb⟩ | ⟨ha, hb, -, hcase⟩
    · rw [hr'] at hs'
      cases hs'
    · rw [accepted_concat, received_concat, ha, hb, List.append_nil, List.append_nil]
      rcases hcase with ⟨hs, -⟩ | ⟨hs, -⟩ | ⟨-, hf⟩
      · exact h.complete hs hn.1
      · simpa using (h.relaying [] hs).1
      · exact absurd hf hn.2
  offered := h.offered_step hr
  sends := by
    obtain ⟨sent, hsent⟩ := h.sends
    rw [outgoing_concat, hsent]
    cases hr with
    | sent rest len total n =>
      refine ⟨sent ++ [rest], ?_⟩
      rw [isShut_sendRest]
      simp [outgoing, OneWayState.isShut]
    | failed rest len total => exact ⟨sent ++ [rest], by simp [outgoing, OneWayState.isShut]⟩
    | _ => exact ⟨sent, by simp [outgoing, OneWayState.isShut]⟩
  finished := by
    cases hr with
    | sent rest len total n => simp [Finished, isReleased_sendRest]
    | closedClient | closedProxy => simpa [Finished, OneWayState.isReleased] using h.finished
    | _ => simp [Finished, OneWayState.isReleased]
  bounded := by
    intro hn
    rw [SendStalled_concat, not_or] at hn
    have hb := h.bounded hn.1
    simp only [received_concat, accepted_concat, List.length_append, List.length_cons, List.length_nil]
    cases hr with
    | got total b hpos =>
      have : 0 < b.1.length := List.length_pos_iff.mpr hpos
      simp only [received, accepted, OneWayState.calls, List.flatMap_cons, List.flatMap_nil, List.append_nil] at hb ⊢
      omega
    | sent rest len total n =>
      have : 0 < n.val := Nat.pos_of_ne_zero (by simpa [SendStalled] using hn.2)
      have : (accepted [⟨.send cfg.toSock rest, some n⟩]).length = n.val := by
        simp [accepted]
        omega
      simp only [OneWayState.calls] at hb
      rw [calls_sendRest]
      omega
    | _ =>
      simp only [OneWayState.calls] at hb ⊢
      omega

end

theorem DirectionInv.start (cfg : OneWayConfig) : DirectionInv cfg (.recv 0) [] where
  relaying := by
    intro rest hrest
    cases hrest
    exact ⟨rfl, by simp [SendFailed]⟩
  inOrder := List.prefix_rfl
  complete := fun hs => by cases hs
  offered := by simp
  sends := ⟨[], rfl⟩
  finished := by simp [Finished, OneWayState.isReleased]
  bounded := fun _ => Nat.le_refl 0

/-! ## The reference count -/

/-- The direction that gives up the last reference closes the sockets. -/
inductive Closing (client proxy : Sock) : OneWayState → List Sock → Prop
  | client : Closing client proxy .closeClient []
  | proxy : Closing client proxy .closeProxy [client]
  | done : Closing client proxy .done [client, proxy]

/-- How the references left and the sockets closed stand with the two directions. -/
inductive Balance (client proxy : Sock) : OneWayState → OneWayState → BitVec 32 → List Sock → Prop
  | both {u d : OneWayState} (hu : u.isReleased = false) (hd : d.isReleased = false) : Balance client proxy u d 2 []
  | left {d : OneWayState} (hd : d.isReleased = false) : Balance client proxy .done d 1 []
  | right {u : OneWayState} (hu : u.isReleased = false) : Balance client proxy u .done 1 []
  | leftCloses {u : OneWayState} {closed : List Sock} (hu : Closing client proxy u closed) :
      Balance client proxy u .done 0 closed
  | rightCloses {d : OneWayState} {closed : List Sock} (hd : Closing client proxy d closed) :
      Balance client proxy .done d 0 closed

section

variable {client proxy : Sock} {u u' d : OneWayState} {refs refs' : BitVec 32} {closed : List Sock} {e : AnsweredCall}

theorem Balance.symm (h : Balance client proxy u d refs closed) : Balance client proxy d u refs closed := by
  cases h with
  | both hu hd => exact .both hd hu
  | left hd => exact .right hd
  | right hu => exact .left hu
  | leftCloses hu => exact .rightCloses hu
  | rightCloses hd => exact .leftCloses hd

/-- The socket a call closes. -/
def closedBy (e : AnsweredCall) : List Sock := closedSockets [.relay .up e]

theorem closedSockets_relay (log : List BridgeAct) (d : Direction) (e : AnsweredCall) :
    closedSockets (log ++ [.relay d e]) = closedSockets log ++ closedBy e := by
  rw [closedSockets, List.filterMap_append]
  obtain ⟨c, r⟩ := e
  cases c <;> rfl

theorem Closing.step (h : Closing client proxy u closed) {cfg : OneWayConfig} (hc : cfg.sockClient = client)
    (hp : cfg.sockProxy = proxy) (hr : Relayed cfg refs u u' e refs') :
    Closing client proxy u' (closed ++ closedBy e) ∧ refs' = refs := by
  subst hc hp
  cases h <;> cases hr
  · exact ⟨.proxy, rfl⟩
  · exact ⟨.done, rfl⟩

/-- A direction that still holds its reference keeps it or gives it up. -/
theorem Relayed.of_unreleased {cfg : OneWayConfig} (hr : Relayed cfg refs u u' e refs') (hu : u.isReleased = false) :
    closedBy e = [] ∧ (u'.isReleased = false ∧ refs' = refs ∨
      refs' = refs - 1 ∧ (refs - 1 ≠ 0 ∧ u' = .done ∨ refs - 1 = 0 ∧ u' = .closeClient)) := by
  cases hr with
  | sent rest len total n => exact ⟨rfl, .inl ⟨isReleased_sendRest _ _ _, rfl⟩⟩
  | released h0 => exact ⟨rfl, .inr ⟨rfl, .inl ⟨h0, rfl⟩⟩⟩
  | releasedLast h0 => exact ⟨rfl, .inr ⟨rfl, .inr ⟨h0, rfl⟩⟩⟩
  | closedClient | closedProxy => cases hu
  | _ => exact ⟨rfl, .inl ⟨rfl, rfl⟩⟩

theorem Balance.step (h : Balance client proxy u d refs closed) {cfg : OneWayConfig} (hc : cfg.sockClient = client)
    (hp : cfg.sockProxy = proxy) (hr : Relayed cfg refs u u' e refs') :
    Balance client proxy u' d refs' (closed ++ closedBy e) := by
  cases h with
  | both hu hd =>
    obtain ⟨he, ⟨hu', rfl⟩ | ⟨rfl, ⟨-, rfl⟩ | ⟨h0, -⟩⟩⟩ := hr.of_unreleased hu
    · rw [he]
      exact .both hu' hd
    · rw [he]
      exact .left hd
    · exact absurd h0 (by decide)
  | left hd => cases hr
  | right hu =>
    obtain ⟨he, ⟨hu', rfl⟩ | ⟨rfl, ⟨h0, -⟩ | ⟨-, rfl⟩⟩⟩ := hr.of_unreleased hu
    · rw [he]
      exact .right hu'
    · exact absurd rfl h0
    · rw [he]
      exact .leftCloses .client
  | leftCloses hu =>
    obtain ⟨hu', rfl⟩ := hu.step hc hp hr
    exact .leftCloses hu'
  | rightCloses hd => cases hr

end

/-! ## The bridge -/

/-- The two directions while their threads run: `log` is what the bridge has done. -/
structure PairInv (client proxy : Sock) (u d : OneWayState) (refs : BitVec 32) (log : List BridgeAct) : Prop where
  up : DirectionInv (upConfig client proxy) u (calls .up log)
  dn : DirectionInv (dnConfig client proxy) d (calls .dn log)
  balance : Balance client proxy u d refs (closedSockets log)
  length : log.length = (calls .up log).length + (calls .dn log).length + 2
  noAbort : ∀ created, .createThread created ∈ log → created = true

/-- What holds between two steps of a bridge that found `n` in `m_activePairs`. -/
inductive BridgeInv (client proxy : Sock) (n : BitVec 32) : BridgeRun → Prop
  | counting : BridgeInv client proxy n ⟨⟨client, proxy, .count, none, 2⟩, n, []⟩
  | creating : BridgeInv client proxy n ⟨⟨client, proxy, .createUp, none, 2⟩, n + 1, [.fetchAddPairs]⟩
  | abortsClient : BridgeInv client proxy n
      ⟨⟨client, proxy, .abortClient, none, 2⟩, n + 1, [.fetchAddPairs, .createThread false]⟩
  | abortsProxy : BridgeInv client proxy n
      ⟨⟨client, proxy, .abortProxy, none, 2⟩, n + 1, [.fetchAddPairs, .createThread false, .abort client]⟩
  | aborted : BridgeInv client proxy n
      ⟨⟨client, proxy, .uncount, none, 2⟩, n + 1, [.fetchAddPairs, .createThread false, .abort client, .abort proxy]⟩
  | abortedDone : BridgeInv client proxy n
      ⟨⟨client, proxy, .done, none, 2⟩, n + 1 - 1,
        [.fetchAddPairs, .createThread false, .abort client, .abort proxy, .fetchSubPairs]⟩
  | relaying {u d : OneWayState} {refs : BitVec 32} {log : List BridgeAct} (h : PairInv client proxy u d refs log) :
      BridgeInv client proxy n ⟨⟨client, proxy, .relayDn d, some u, refs⟩, n + 1, log⟩
  | joined {refs : BitVec 32} {log : List BridgeAct} (h : PairInv client proxy .done .done refs log) :
      BridgeInv client proxy n ⟨⟨client, proxy, .uncount, some .done, refs⟩, n + 1, log ++ [.waited]⟩
  | joinedDone {refs : BitVec 32} {log : List BridgeAct} (h : PairInv client proxy .done .done refs log) :
      BridgeInv client proxy n
        ⟨⟨client, proxy, .done, some .done, refs⟩, n + 1 - 1, log ++ [.waited] ++ [.fetchSubPairs]⟩

section

variable {client proxy : Sock} {u u' d d' : OneWayState} {refs refs' : BitVec 32} {log : List BridgeAct}
  {e : AnsweredCall}

theorem PairInv.step_up (h : PairInv client proxy u d refs log)
    (hr : Relayed (upConfig client proxy) refs u u' e refs') : PairInv client proxy u' d refs' (log ++ [.relay .up e]) where
  up := by simpa [calls] using h.up.step hr
  dn := by simpa [calls] using h.dn
  balance := by
    rw [closedSockets_relay]
    exact h.balance.step rfl rfl hr
  length := by
    have := h.length
    simp [calls] at this ⊢
    omega
  noAbort := by simpa using h.noAbort

theorem PairInv.step_dn (h : PairInv client proxy u d refs log)
    (hr : Relayed (dnConfig client proxy) refs d d' e refs') : PairInv client proxy u d' refs' (log ++ [.relay .dn e]) where
  up := by simpa [calls] using h.up
  dn := by simpa [calls] using h.dn.step hr
  balance := by
    rw [closedSockets_relay]
    exact (h.balance.symm.step rfl rfl hr).symm
  length := by
    have := h.length
    simp [calls] at this ⊢
    omega
  noAbort := by simpa using h.noAbort

/-- The thread of `StartBridge` makes the next call of the DN direction, unless that is through. -/
theorem step_relayDn (b : Bridge) (hb : b.main = .relayDn d) (hd : d ≠ .done) (created : Bool)
    (answer : (c : Call) → c.Resp) :
    b.step ⟨.dn, created, answer⟩ =
      (b.relayCall .dn answer d).map fun r => ({ b with main := .relayDn r.1, refs := r.2.2 }, .relay .dn r.2.1) := by
  cases d <;> first | exact absurd rfl hd | simp only [Bridge.step, hb]

theorem BridgeInv.step {n : BitVec 32} (i : BridgeInput) (r : BridgeRun) (h : BridgeInv client proxy n r) :
    BridgeInv client proxy n (bridgeStep i r).1 := by
  obtain ⟨thread, created, answer⟩ := i
  cases h with
  | counting =>
    cases thread with
    | up => exact .counting
    | dn => exact .creating
  | creating =>
    cases thread with
    | up => exact .creating
    | dn =>
      cases created with
      | true =>
        refine .relaying ⟨.start _, .start _, .both rfl rfl, rfl, ?_⟩
        intro created hc
        simpa using hc
      | false => exact .abortsClient
  | abortsClient =>
    cases thread with
    | up => exact .abortsClient
    | dn => exact .abortsProxy
  | abortsProxy =>
    cases thread with
    | up => exact .abortsProxy
    | dn => exact .aborted
  | aborted =>
    cases thread with
    | up => exact .aborted
    | dn => exact .abortedDone
  | abortedDone => cases thread <;> exact .abortedDone
  | @relaying u d refs log h =>
    cases thread with
    | up =>
      simp only [bridgeStep, Bridge.step]
      cases hc : (⟨client, proxy, .relayDn d, some u, refs⟩ : Bridge).relayCall .up answer u with
      | none => exact .relaying h
      | some x => exact .relaying (h.step_up (relayCall_cases hc))
    | dn =>
      by_cases hd : d = .done
      · subst hd
        by_cases hu : u = .done
        · subst hu
          exact .joined h
        · have hw : ¬some u = some OneWayState.done := fun h => hu (Option.some.inj h)
          simp only [bridgeStep, Bridge.step, if_neg hw]
          exact .relaying h
      · simp only [bridgeStep, step_relayDn ⟨client, proxy, .relayDn d, some u, refs⟩ rfl hd]
        cases hc : (⟨client, proxy, .relayDn d, some u, refs⟩ : Bridge).relayCall .dn answer d with
        | none => exact .relaying h
        | some x => exact .relaying (h.step_dn (relayCall_cases hc))
  | joined h =>
    cases thread with
    | up => exact .joined h
    | dn => exact .joinedDone h
  | joinedDone h => cases thread <;> exact .joinedDone h

/-! ## What a bridge is for -/

theorem BridgeInv.direction {n : BitVec 32} {r : BridgeRun} (h : BridgeInv client proxy n r) (d : Direction) :
    ∃ s, DirectionInv (d.config client proxy) s (calls d r.log) := by
  have hpair : ∀ {u d' : OneWayState} {refs : BitVec 32} {log : List BridgeAct}, PairInv client proxy u d' refs log →
      ∃ s, DirectionInv (d.config client proxy) s (calls d log) := by
    intro u d' refs log hp
    cases d with
    | up => exact ⟨u, hp.up⟩
    | dn => exact ⟨d', hp.dn⟩
  cases h with
  | relaying hp => exact hpair hp
  | joined hp => simpa [calls] using hpair hp
  | joinedDone hp => simpa [calls] using hpair hp
  | _ => exact ⟨_, .start _⟩

/-- The sockets closed are a prefix of the two; if there is one, both directions are through. -/
theorem Balance.closed {closed : List Sock} (h : Balance client proxy u d refs closed) :
    closed <+: [client, proxy] ∧ (closed ≠ [] → u.isReleased = true ∧ d.isReleased = true) := by
  have hclosing : ∀ {s}, Closing client proxy s closed → closed <+: [client, proxy] ∧ s.isReleased = true := by
    intro s hs
    cases hs with
    | client => exact ⟨List.nil_prefix, rfl⟩
    | proxy => exact ⟨⟨[proxy], rfl⟩, rfl⟩
    | done => exact ⟨List.prefix_rfl, rfl⟩
  cases h with
  | leftCloses hu => exact ⟨(hclosing hu).1, fun _ => ⟨(hclosing hu).2, rfl⟩⟩
  | rightCloses hd => exact ⟨(hclosing hd).1, fun _ => ⟨rfl, (hclosing hd).2⟩⟩
  | _ => exact ⟨List.nil_prefix, fun h => absurd rfl h⟩

theorem Balance.done {closed : List Sock} (h : Balance client proxy .done .done refs closed) :
    closed = [client, proxy] := by
  cases h with
  | both hu _ => cases hu
  | left hd => cases hd
  | right hu => cases hu
  | leftCloses hu => cases hu; rfl
  | rightCloses hd => cases hd; rfl

/-- What a bridge between `client` and `proxy` has done, whatever its state. -/
structure Faithful (client proxy : Sock) (n : BitVec 32) (r : BridgeRun) : Prop where
  /-- The bytes that `send` took are the first of those received. -/
  inOrder : ∀ d, accepted (calls d r.log) <+: received (calls d r.log)
  /-- A `send` is passed the bytes received and not yet sent. -/
  offered : ∀ d pre post t data res,
    calls d r.log = pre ++ ⟨.send t data, res⟩ :: post → accepted pre ++ data = received pre
  /-- A direction sends to its target, and shuts it down once, after its last `send`. -/
  sends : ∀ d, ∃ sent : List Bytes,
    outgoing (calls d r.log) = sent.map (.send (d.config client proxy).toSock) ∨
    outgoing (calls d r.log) = sent.map (.send (d.config client proxy).toSock) ++ [.shutdown (d.config client proxy).toSock]
  /-- A direction that is through has shut its target down, and has sent all if no `send` failed. -/
  finished : ∀ d, Finished (calls d r.log) →
    .shutdown (d.config client proxy).toSock ∈ outgoing (calls d r.log) ∧
    (¬SendFailed (calls d r.log) → accepted (calls d r.log) = received (calls d r.log))
  /-- No socket is closed twice. -/
  closed : closedSockets r.log <+: [client, proxy]
  /-- With an UP thread, none before both directions are through. -/
  closedLast : closedSockets r.log ≠ [] → .createThread false ∈ r.log ∨ ∀ d, Finished (calls d r.log)
  /-- Without one, the sockets are closed at once. -/
  aborted : .createThread false ∈ r.log →
    r.log <+: [.fetchAddPairs, .createThread false, .abort client, .abort proxy, .fetchSubPairs]
  /-- A bridge that has returned has closed both and left the count as it found it. -/
  returned : r.bridge.main = .done → closedSockets r.log = [client, proxy] ∧ r.activePairs = n
  /-- Until then one of its threads can go on, whatever the answer. -/
  progress : r.bridge.main ≠ .done → ∃ t, ∀ created answer, (r.bridge.step ⟨t, created, answer⟩).isSome
  /-- The streams bound what it does, if every `send` takes a byte. -/
  bounded : (∀ d, ¬SendStalled (calls d r.log)) →
    r.log.length ≤ 2 * ((received (calls .up r.log)).length + (received (calls .dn r.log)).length) + 17

theorem isSome_relayCall (b : Bridge) (d : Direction) (answer : (c : Call) → c.Resp) {s : OneWayState}
    (hs : s ≠ .done) : (b.relayCall d answer s).isSome := by
  cases s with
  | done => exact absurd rfl hs
  | _ => rfl

theorem DirectionInv.length_le {cfg : OneWayConfig} {s : OneWayState} {tr : List AnsweredCall}
    (h : DirectionInv cfg s tr) (hn : ¬SendStalled tr) : tr.length ≤ 2 * (received tr).length + 6 := by
  have hb := h.bounded hn
  have hp := h.inOrder.length_le
  have hs : s.calls ≤ 6 := by cases s <;> simp [OneWayState.calls]
  omega

theorem BridgeInv.length_le {n : BitVec 32} {r : BridgeRun} (h : BridgeInv client proxy n r) :
    r.log.length ≤ (calls .up r.log).length + (calls .dn r.log).length + 5 := by
  cases h with
  | relaying hp =>
    have := hp.length
    simp only at this ⊢
    omega
  | joined hp | joinedDone hp =>
    have := hp.length
    simp [calls] at this ⊢
    omega
  | _ => simp

theorem BridgeInv.progress {n : BitVec 32} {r : BridgeRun} (h : BridgeInv client proxy n r)
    (hr : r.bridge.main ≠ .done) : ∃ t, ∀ created answer, (r.bridge.step ⟨t, created, answer⟩).isSome := by
  cases h with
  | creating => exact ⟨.dn, fun created answer => by cases created <;> rfl⟩
  | @relaying u d refs log hp =>
    by_cases hd : d = .done
    · by_cases hu : u = .done
      · subst hd hu
        exact ⟨.dn, fun created answer => rfl⟩
      · refine ⟨.up, fun created answer => ?_⟩
        simp only [Bridge.step, Option.isSome_map]
        exact isSome_relayCall _ _ _ hu
    · refine ⟨.dn, fun created answer => ?_⟩
      rw [step_relayDn ⟨client, proxy, .relayDn d, some u, refs⟩ rfl hd, Option.isSome_map]
      exact isSome_relayCall _ _ _ hd
  | abortedDone | joinedDone => exact absurd rfl hr
  | _ => exact ⟨.dn, fun created answer => rfl⟩

theorem PairInv.closedLast (h : PairInv client proxy u d refs log) (hc : closedSockets log ≠ []) (d : Direction) :
    Finished (calls d log) := by
  obtain ⟨hu, hd⟩ := h.balance.closed.2 hc
  cases d with
  | up => exact h.up.finished.mpr hu
  | dn => exact h.dn.finished.mpr hd

theorem BridgeInv.faithful {n : BitVec 32} {r : BridgeRun} (h : BridgeInv client proxy n r) :
    Faithful client proxy n r where
  inOrder := by
    intro d
    obtain ⟨s, hs⟩ := h.direction d
    exact hs.inOrder
  offered := by
    intro d
    obtain ⟨s, hs⟩ := h.direction d
    exact hs.offered
  sends := by
    intro d
    obtain ⟨s, hs⟩ := h.direction d
    obtain ⟨sent, hsent⟩ := hs.sends
    refine ⟨sent, ?_⟩
    cases hsh : s.isShut with
    | true => exact .inr (by simpa [hsh] using hsent)
    | false => exact .inl (by simpa [hsh] using hsent)
  finished := by
    intro d hf
    obtain ⟨s, hs⟩ := h.direction d
    have hrel : s.isReleased = true := hs.finished.mp hf
    obtain ⟨hshut, hpend⟩ : s.isShut = true ∧ s.pending = none := by
      cases s <;> first | exact ⟨rfl, rfl⟩ | cases hrel
    obtain ⟨sent, hsent⟩ := hs.sends
    exact ⟨by simp [hsent, hshut], hs.complete hpend⟩
  closed := by
    cases h with
    | relaying hp => exact hp.balance.closed.1
    | joined hp | joinedDone hp => simpa [closedSockets] using hp.balance.closed.1
    | abortsProxy => exact ⟨[proxy], rfl⟩
    | aborted | abortedDone => exact List.prefix_rfl
    | _ => exact List.nil_prefix
  closedLast := by
    intro hc
    cases h with
    | relaying hp => exact .inr (hp.closedLast hc)
    | joined hp | joinedDone hp =>
      refine .inr fun d => ?_
      have hd := hp.closedLast (by simpa [closedSockets] using hc) d
      simpa [calls] using hd
    | counting | creating => exact absurd rfl hc
    | _ => exact .inl (by simp)
  aborted := by
    intro ha
    cases h with
    | relaying hp => cases hp.noAbort _ ha
    | joined hp | joinedDone hp =>
      have := hp.noAbort false (by simpa using ha)
      cases this
    | counting | creating => simp at ha
    | abortsClient => exact ⟨_, rfl⟩
    | abortsProxy => exact ⟨_, rfl⟩
    | aborted => exact ⟨_, rfl⟩
    | abortedDone => exact List.prefix_rfl
  returned := by
    intro hr
    cases h with
    | abortedDone => exact ⟨rfl, BitVec.add_sub_cancel n 1⟩
    | joinedDone hp => exact ⟨by simpa [closedSockets] using hp.balance.done, BitVec.add_sub_cancel n 1⟩
    | _ => cases hr
  progress := h.progress
  bounded := by
    intro hn
    obtain ⟨su, hu⟩ := h.direction .up
    obtain ⟨sd, hd⟩ := h.direction .dn
    have hu' := hu.length_le (hn .up)
    have hd' := hd.length_le (hn .dn)
    have hl := h.length_le
    omega

end

/-- A bridge relays faithfully, whatever the answers and the order of its threads. -/
theorem bridge_faithful (client proxy : Sock) (n : BitVec 32) (schedule : List BridgeInput) :
    Faithful client proxy n (run bridgeStep schedule ⟨.start client proxy, n, []⟩) := by
  have hstart : BridgeInv client proxy n ⟨.start client proxy, n, []⟩ := .counting
  exact (run_induct BridgeInv.step schedule hstart).faithful

end TR.Impl
