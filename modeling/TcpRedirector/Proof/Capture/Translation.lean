import TcpRedirector.Proof.Capture.Invariant
import TcpRedirector.Proof.Framework.Bytes

/-!
# The address translation and its inverse

Step 3 and `ModifyDstToRelay` rewrite a client's packet alike
(`sent_of_towardsRelay`), and `RestoreFromRelay` takes the reply to it back
to the client's own endpoints (`restoreFromRelay_reply`,
`reply_translated`): a pair of loopback addresses keeps its addresses on
both ways, any other pair is swapped on both ways.
-/

namespace TR.Impl

open TR.Impl.System

/-- `reply` goes from the destination of `pk` to its source. -/
structure Answers (reply pk : Packet) : Prop where
  srcAddr : reply.srcAddr = pk.dstAddr
  srcPort : reply.srcPort = pk.dstPort
  dstAddr : reply.dstAddr = pk.srcAddr
  dstPort : reply.dstPort = pk.srcPort

theorem isLocalhostPair_comm (a b : Packet) (hs : a.srcAddr = b.dstAddr) (hd : a.dstAddr = b.srcAddr) :
    isLocalhostPair a = isLocalhostPair b := by
  rw [isLocalhostPair, isLocalhostPair, hs, hd, Bool.and_comm]

/-- What a rewritten packet's endpoints are. -/
theorem modifyDstToRelay_eq (cfg : Config) (pk : Packet) : modifyDstToRelay cfg pk =
    if isLocalhostPair pk then { pk with dstPort := htons cfg.relayPort }
    else { pk with srcAddr := pk.dstAddr, dstAddr := pk.srcAddr, dstPort := htons cfg.relayPort, outbound := false } :=
  rfl

/-- Both rewriting steps send what `ModifyDstToRelay` makes of the packet. -/
theorem sent_of_towardsRelay {cfg : Config} {os : Os} {pk : Packet} {s : System}
    (h : (step cfg (.packet os pk) s).2.route.towardsRelay = true) :
    (step cfg (.packet os pk) s).2.sent = some (modifyDstToRelay cfg pk) := by
  obtain ⟨s', o, hst, hx⟩ := step_packet cfg os pk s
  rw [hst] at h ⊢
  cases hx with
  | tracked | proxy => rfl
  | _ => simp [Route.towardsRelay] at h

/-- The reply to a rewritten packet comes from the relay, to the client's port. -/
theorem answers_ports {cfg : Config} {pk reply : Packet} (h : Answers reply (modifyDstToRelay cfg pk)) :
    reply.src = cfg.relayPort ∧ reply.dst = pk.src := by
  have hs := h.srcPort
  have hd := h.dstPort
  rw [modifyDstToRelay_eq] at hs hd
  rw [Packet.src, Packet.dst, hs, hd]
  split <;> exact ⟨ntohs_htons _, rfl⟩

/-- The restored reply goes from the client's destination to the client. -/
theorem restoreFromRelay_reply {cfg : Config} {pk reply : Packet} {t : ConnectionTable}
    (h : Answers reply (modifyDstToRelay cfg pk)) (ht : t.get pk.src = some (pk.dstAddr, pk.dst)) :
    Answers (restoreFromRelay t reply) pk ∧
      (restoreFromRelay t reply).outbound = if isLocalhostPair pk then reply.outbound else false := by
  have hr : restoreFromRelay t reply = restoredAs pk.dst reply :=
    restoreFromRelay_of_get ((congrArg t.get (answers_ports h).2).trans ht)
  have hq : htons pk.dst = pk.dstPort := htons_ntohs _
  obtain ⟨hsa, -, hda, hdp⟩ := h
  rw [modifyDstToRelay_eq] at hsa hda hdp
  rw [hr, restoredAs, hq]
  by_cases hl : isLocalhostPair pk = true
  · simp only [hl, ite_true] at hsa hda hdp ⊢
    rw [if_pos ((isLocalhostPair_comm reply pk hsa hda).trans hl)]
    exact ⟨⟨hsa, rfl, hda, hdp⟩, rfl⟩
  · simp only [hl, Bool.false_eq_true, ite_false] at hsa hda hdp ⊢
    have hp : isLocalhostPair reply = isLocalhostPair pk := by rw [isLocalhostPair, isLocalhostPair, hsa, hda]
    rw [hp, if_neg hl]
    exact ⟨⟨hda, rfl, hsa, hdp⟩, rfl⟩

/-- A client's packet that was rewritten in one reachable state, and the
relay's reply to it in any other where the table still has the client's
destination, such as a later one of the same run: step 2 sends the reply from
that destination to the client, inbound unless both are loopback addresses. -/
theorem reply_translated (cfg : Config) (path : WString) (host : Bytes) (port : BitVec 16) (rules : List Rule)
    (events events' : List Event) (os os' : Os) (pk rewritten reply : Packet)
    (hr : (step cfg (.packet os pk) (captureLoop cfg events (.init path host port rules))).2.route.towardsRelay = true)
    (hs : (step cfg (.packet os pk) (captureLoop cfg events (.init path host port rules))).2.sent = some rewritten)
    (hl : reply.recvLen ≠ 0) (ha : Answers reply rewritten)
    (ht : (captureLoop cfg events' (.init path host port rules)).table.get pk.src = some (pk.dstAddr, pk.dst)) :
    ∃ sent, (step cfg (.packet os' reply) (captureLoop cfg events' (.init path host port rules))).2 =
        ⟨.restored, some sent, true⟩ ∧ Answers sent pk ∧
      sent.outbound = if isLocalhostPair pk then reply.outbound else false := by
  rw [sent_of_towardsRelay hr, Option.some.injEq] at hs
  subst hs
  obtain ⟨hsrc, hdst⟩ := answers_ports ha
  have hi := inv_captureLoop events' (inv_init cfg path host port rules)
  generalize captureLoop cfg events' (.init path host port rules) = s at ht hi ⊢
  refine ⟨restoreFromRelay s.table reply, ?_, restoreFromRelay_reply ha ht⟩
  have htr : s.table.isTracked reply.dst = true := by rw [ConnectionTable.isTracked_eq_get, hdst, ht]; rfl
  rw [step_relay hi os' hl hsrc htr]

/-- The SYN-ACK for a connection to 1.2.3.4:443. -/
theorem reply_translated_synAck :
    let syn := { Demo.client 1000 0x04030201 443 with syn := true }
    let synAck := { Demo.relay 1000 0x04030201 with syn := true, ack := true }
    ∃ sent, (step Demo.cfg (.packet {} synAck) (captureLoop Demo.cfg [.packet (Demo.owned 1000 8) syn] Demo.start)).2 =
      ⟨.restored, some sent, true⟩ ∧ Answers sent syn ∧ sent.outbound = false :=
  reply_translated Demo.cfg [] (ascii "proxy") 3128 Demo.rules []
    [.packet (Demo.owned 1000 8) { Demo.client 1000 0x04030201 443 with syn := true }] (Demo.owned 1000 8) {}
    { Demo.client 1000 0x04030201 443 with syn := true }
    (modifyDstToRelay Demo.cfg { Demo.client 1000 0x04030201 443 with syn := true })
    { Demo.relay 1000 0x04030201 with syn := true, ack := true }
    (by decide) (by decide) (by decide) (by constructor <;> decide) (by decide)

end TR.Impl
