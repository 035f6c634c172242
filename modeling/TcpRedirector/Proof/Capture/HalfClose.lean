import TcpRedirector.Proof.Capture.Invariant
import TcpRedirector.Proof.Framework.Bytes

/-!
# Half-closed connections

A TCP connection ends with a RST or when both sides have sent FIN (`life`),
and the relay keeps the other direction of a half-closed connection open. The
table forgets a connection with its first FIN. Until then every packet of it
is translated (`life_recorded`); from then on exactly those are that find the
connection recorded again, by a packet of the client that step 4 judged anew
(`halfClose_iff`).
-/

namespace TR.Impl

open TR.Impl.System

/-- A connection as its packets tell it: where the client was going and which
side has sent FIN. -/
structure Conn where
  origDestIp : BitVec 32
  origDestPort : BitVec 16
  clientFin : Bool := false
  relayFin : Bool := false
  deriving Repr, DecidableEq

namespace Conn

def halfClosed (c : Conn) : Bool := c.clientFin || c.relayFin

/-- The connection after a packet of the client. -/
def clientSent (c : Conn) (pk : Packet) : Option Conn :=
  let c := { c with clientFin := c.clientFin || pk.fin }
  if pk.rst || c.clientFin && c.relayFin then none else some c

/-- The connection after a packet of the relay. -/
def relaySent (c : Conn) (pk : Packet) : Option Conn :=
  let c := { c with relayFin := c.relayFin || pk.fin }
  if pk.rst || c.clientFin && c.relayFin then none else some c

end Conn

/-- The connection of client port `p` after a step: it starts when step 4
redirects a packet from `p`. -/
def lifeStep (cfg : Config) (p : BitVec 16) (c : Option Conn) (st : LoopStep) : Option Conn :=
  match st.input with
  | .packet _ pk =>
    if pk.recvLen = 0 then c
    else if pk.src = p then
      match c with
      | some c => c.clientSent pk
      | none => if st.out.route = .judged .proxy then Conn.clientSent ⟨pk.dstAddr, pk.dst, false, false⟩ pk else none
    else if pk.src = cfg.relayPort ∧ pk.dst = p then c.bind (·.relaySent pk)
    else c
  | _ => c

/-- The connection of client port `p` after the steps. -/
def life (cfg : Config) (p : BitVec 16) (tr : List LoopStep) : Option Conn := tr.foldl (lifeStep cfg p) none

/-- The loop did its part for a packet of the connection: the client's goes
to the relay, the relay's comes from the original destination. -/
structure Carried (cfg : Config) (p : BitVec 16) (c : Conn) (pk : Packet) (o : Outcome) : Prop where
  client : pk.src = p → o.route.towardsRelay = true
  relay : pk.src = cfg.relayPort → pk.dst = p →
    o = ⟨.restored, some (restoredAs c.origDestPort pk), true⟩

/-- The connection is known to the loop before a packet of it: it is tracked,
for a packet of the relay with its own destination port, or step 4 will
redirect the client's packet anew. -/
structure Recorded (cfg : Config) (p : BitVec 16) (c : Conn) (os : Os) (pk : Packet) (s : System) : Prop where
  client : pk.src = p → s.table.isTracked p = true ∨
    (¬ s.Fast pk ∧ pk.outbound = true ∧ (s.capture.checkProcessRule cfg os s.rules p).1.action = .proxy)
  relay : pk.src = cfg.relayPort → pk.dst = p → (s.table.get p).map (·.2) = some c.origDestPort

/-- What the steps so far say of port `p`: a connection that nobody has begun
to close is in the table. -/
structure LifeInv (cfg : Config) (p : BitVec 16) (c : Option Conn) (s : System) : Prop where
  inv : Inv cfg s
  src : c ≠ none → p ≠ cfg.relayPort
  attached : c ≠ none → cfg.connTable = true
  recorded : ∀ c', c = some c' → c'.halfClosed = false → s.table.get p = some (c'.origDestIp, c'.origDestPort)

theorem Conn.clientSent_open {c c' : Conn} {pk : Packet} (h : c.clientSent pk = some c') (ho : c'.halfClosed = false) :
    c.halfClosed = false ∧ pk.closing = false ∧ c' = c := by
  obtain ⟨ip, q, cf, rf⟩ := c
  simp only [clientSent, Option.ite_none_left_eq_some, Option.some.injEq] at h
  obtain ⟨h, rfl⟩ := h
  simp_all [halfClosed, Packet.closing]

theorem Conn.relaySent_open {c c' : Conn} {pk : Packet} (h : c.relaySent pk = some c') (ho : c'.halfClosed = false) :
    c.halfClosed = false ∧ pk.closing = false ∧ c' = c := by
  obtain ⟨ip, q, cf, rf⟩ := c
  simp only [relaySent, Option.ite_none_left_eq_some, Option.some.injEq] at h
  obtain ⟨h, rfl⟩ := h
  simp_all [halfClosed, Packet.closing]

section

variable {cfg : Config} {p : BitVec 16} {s : System}

/-- A port without a connection. -/
theorem LifeInv.idle (h : Inv cfg s) : LifeInv cfg p none s :=
  ⟨h, fun hn => absurd rfl hn, fun hn => absurd rfl hn, fun _ hc => by cases hc⟩

/-- A step that leaves the connection as it is and does not close it keeps
what is known of it. -/
theorem LifeInv.keep {c : Option Conn} (h : LifeInv cfg p c s) {ev : Event}
    (hc : ∀ os pk, ev = .packet os pk → ¬ Closes cfg p pk) : LifeInv cfg p c (step cfg ev s).1 :=
  ⟨step_inv cfg ev s h.inv, h.src, h.attached, fun c' hc' ho => get_step h.inv (h.recorded c' hc' ho) hc⟩

/-- A connection that goes on as `c'` after a packet: if it is not half-closed
then, the packet did not close it. -/
theorem LifeInv.next {c : Conn} {c' : Option Conn} (h : LifeInv cfg p (some c) s) {os : Os} {pk : Packet}
    (hopen : ∀ d, c' = some d → d.halfClosed = false → c.halfClosed = false ∧ pk.closing = false ∧ d = c) :
    LifeInv cfg p c' (step cfg (.packet os pk) s).1 := by
  refine ⟨step_inv cfg _ s h.inv, fun _ => h.src (by simp), fun _ => h.attached (by simp), fun d hd ho => ?_⟩
  obtain ⟨hco, hcl, rfl⟩ := hopen d hd ho
  refine get_step h.inv (h.recorded d rfl hco) fun os' pk' he hcc => ?_
  cases he
  exact absurd hcc.1 (by simp [hcl])

/-- The connection that step 4 redirects for the first time. -/
theorem LifeInv.start (h : Inv cfg s) {os : Os} {pk : Packet}
    (hr : (step cfg (.packet os pk) s).2.route = .judged .proxy) :
    LifeInv cfg pk.src (Conn.clientSent ⟨pk.dstAddr, pk.dst, false, false⟩ pk) (step cfg (.packet os pk) s).1 := by
  have hred := (towardsRelay_iff cfg os pk s).mp (by rw [hr]; rfl)
  refine ⟨step_inv cfg _ s h, fun _ => hred.src, fun _ => hred.attached, fun d hd ho => ?_⟩
  obtain ⟨-, -, rfl⟩ := Conn.clientSent_open hd ho
  exact get_proxy h hr

theorem lifeInv_step {c : Option Conn} (h : LifeInv cfg p c s) (ev : Event) :
    LifeInv cfg p (lifeStep cfg p c (stepOf (step cfg) ev s)) (step cfg ev s).1 := by
  cases ev with
  | other | recvFailed | setProxyConfig | setTargetProcess | setRules => exact h.keep fun _ _ he => by cases he
  | packet os pk =>
    simp only [lifeStep, stepOf]
    split
    · rename_i hl
      rw [step, iteration, if_pos hl]
      exact h
    · split
      · rename_i hsrc
        subst hsrc
        cases c with
        | some c => exact h.next fun d hd ho => Conn.clientSent_open hd ho
        | none =>
          by_cases hr : (step cfg (.packet os pk) s).2.route = .judged .proxy
          · simp only [hr, ite_true]
            exact LifeInv.start h.inv hr
          · simp only [hr, ite_false]
            exact .idle (step_inv cfg _ s h.inv)
      · split
        · cases c with
          | some c => exact h.next fun d hd ho => Conn.relaySent_open hd ho
          | none => exact .idle (step_inv cfg _ s h.inv)
        · rename_i hsrc hrel
          refine h.keep fun os' pk' he hcc => ?_
          cases he
          exact hcc.2.elim hsrc hrel

/-- What a run says of port `p` holds at its end. -/
theorem life_recorded (cfg : Config) (p : BitVec 16) (path : WString) (host : Bytes) (port : BitVec 16)
    (rules : List Rule) (es : List Event) :
    LifeInv cfg p (life cfg p (loopTrace cfg es (.init path host port rules)))
      (captureLoop cfg es (.init path host port rules)) := by
  induction es using List.reverseRecOn with
  | nil => exact .idle (inv_init cfg path host port rules)
  | append_singleton es ev ih =>
    rw [life, loopTrace, trace_concat, List.foldl_append, captureLoop, run_concat]
    exact lifeInv_step ih ev

/-- The loop does its part for a packet exactly if it knows the connection. -/
theorem carried_iff_recorded {c : Conn} (h : LifeInv cfg p (some c) s) (os : Os) {pk : Packet} (hl : pk.recvLen ≠ 0) :
    Carried cfg p c pk (step cfg (.packet os pk) s).2 ↔ Recorded cfg p c os pk s := by
  have hsrc := h.src (by simp)
  have hatt := h.attached (by simp)
  constructor
  · intro hc
    refine ⟨fun hp => ?_, fun hr hd => ?_⟩
    · subst hp
      have hred := (towardsRelay_iff cfg os pk s).mp (hc.client rfl)
      exact hred.reason.imp id fun ⟨ho, ha⟩ => ⟨hred.slow, ho, ha⟩
    · have ho := hc.relay hr hd
      obtain ⟨s', o, hst, hx⟩ := step_packet cfg os pk s
      rw [hst] at ho
      cases hx with
      | restored _ _ _ e he =>
        have hg : s.table.get pk.dst = some (e.origDestIp, e.origDestPort) := by rw [ConnectionTable.get, he]; rfl
        simp only [restoreFromRelay_of_get hg, Outcome.mk.injEq, Option.some.injEq] at ho
        have hq := congrArg Packet.srcPort ho.2.1
        rw [restoredAs_srcPort, restoredAs_srcPort, htons_inj] at hq
        rw [← hd, hg, Option.map_some, hq]
      | _ => simp at ho
  · intro hrec
    refine ⟨fun hp => ?_, fun hr hd => ?_⟩
    · subst hp
      refine (towardsRelay_iff cfg os pk s).mpr ?_
      rcases hrec.client rfl with htr | ⟨hf, ho, ha⟩
      · refine ⟨hl, fun hf => ?_, hsrc, hatt, .inl htr⟩
        rw [ConnectionTable.isTracked, h.inv.directEntry _ hf.2.1] at htr
        cases htr
      · exact ⟨hl, hf, hsrc, hatt, .inr ⟨ho, ha⟩⟩
    · have hg := hrec.relay hr hd
      rw [Option.map_eq_some_iff] at hg
      obtain ⟨⟨ip, q⟩, hg, rfl⟩ := hg
      rw [← hd] at hg
      rw [step_relay h.inv os hl hr (by rw [ConnectionTable.isTracked_eq_get, hg]; rfl), restoreFromRelay_of_get hg]

end

/-- In every run the loop does its part for every packet of every connection
that has not ended, exactly if it knows the half-closed connections at their
packets. -/
theorem halfClose_iff (cfg : Config) (path : WString) (host : Bytes) (port : BitVec 16) (rules : List Rule)
    (events : List Event) :
    (∀ p es os pk c, es ++ [.packet os pk] <+: events → pk.recvLen ≠ 0 →
      life cfg p (loopTrace cfg es (.init path host port rules)) = some c →
      Carried cfg p c pk (step cfg (.packet os pk) (captureLoop cfg es (.init path host port rules))).2) ↔
    ∀ p es os pk c, es ++ [.packet os pk] <+: events → pk.recvLen ≠ 0 →
      life cfg p (loopTrace cfg es (.init path host port rules)) = some c → c.halfClosed = true →
      Recorded cfg p c os pk (captureLoop cfg es (.init path host port rules)) := by
  have hlife p es := life_recorded cfg p path host port rules es
  constructor
  · intro h p es os pk c hes hl hc _
    have hi := hlife p es
    rw [hc] at hi
    exact (carried_iff_recorded hi os hl).mp (h p es os pk c hes hl hc)
  · intro h p es os pk c hes hl hc
    have hi := hlife p es
    rw [hc] at hi
    refine (carried_iff_recorded hi os hl).mpr ?_
    cases ho : c.halfClosed with
    | true => exact h p es os pk c hes hl hc ho
    | false =>
      have hg := hi.recorded c rfl ho
      exact ⟨fun _ => .inl (by rw [ConnectionTable.isTracked_eq_get, hg]; rfl), fun _ _ => by rw [hg]; rfl⟩

/-- The relay's data after the client's FIN: the connection to 1.2.3.4:443 is
half-closed, and the packet is sent as it came from the relay. -/
theorem halfClose_unrestored :
    let es := [.packet (Demo.owned 1000 8) { Demo.client 1000 0x04030201 443 with syn := true },
      .packet (Demo.owned 1000 8) { Demo.client 1000 0x04030201 443 with fin := true, ack := true }]
    let data := { Demo.relay 1000 0x04030201 with ack := true }
    life Demo.cfg 1000 (loopTrace Demo.cfg es Demo.start) = some ⟨0x04030201, 443, true, false⟩ ∧
      (step Demo.cfg (.packet {} data) (captureLoop Demo.cfg es Demo.start)).2 = ⟨.passed, some data, false⟩ ∧
      ¬ Carried Demo.cfg 1000 ⟨0x04030201, 443, true, false⟩ data
        (step Demo.cfg (.packet {} data) (captureLoop Demo.cfg es Demo.start)).2 := by
  refine ⟨by decide, by decide, fun h => ?_⟩
  have := congrArg Outcome.route (h.relay (by decide) (by decide))
  revert this
  decide

end TR.Impl
