import TcpRedirector.Proof.Capture.Invariant

/-!
# Cached decisions

A decision about a port outlives the packet it was made for. A packet whose
owner was unknown leaves its port cached as direct (`failedLookup_retained`),
although the comment in `CheckProcessRule` expects the next packet to be
judged again. A closing packet drops the cached decision of its port only if
it is not outbound (`closing_clears_iff`): an outbound one falls through to
step 4, which decides the port again.
-/

namespace TR.Impl

open TR.Impl.System

/-- With an unknown owner `CheckProcessRule` says DIRECT. -/
theorem checkProcessRule_of_unknown {c : Capture} {cfg : Config} {os : Os} {rules : List Rule} {p : BitVec 16}
    (h : (c.findPidBySourcePort os p).1 = 0) : (c.checkProcessRule cfg os rules p).1.action = .direct := by
  rw [Capture.checkProcessRule]
  generalize c.findPidBySourcePort os p = r at h ⊢
  obtain ⟨pid, c'⟩ := r
  simp only at h
  simp only [h, ite_true]
  split <;> rfl

/-- Neither bitmap decides port `p`: its next outbound packet is judged. -/
structure Forgotten (cfg : Config) (p : BitVec 16) (s : System) : Prop where
  undecided : s.capture.isPortDecided p = false
  notDirect : s.capture.isPortDirect p = false
  next : ∀ os pk, pk.src = p → pk.recvLen ≠ 0 → pk.outbound = true →
    ∃ a, (step cfg (.packet os pk) s).2.route = .judged a

/-- Nothing the loop keeps about port `p` answers for its owner, the PID cache included. -/
structure Unjudged (cfg : Config) (p : BitVec 16) (s : System) : Prop extends Forgotten cfg p s where
  uncached : ∀ os, s.capture.cachedPid os p = none

/-- A packet that step 4 judged without finding its owner leaves its port
decided as direct, in every run: the next packets are sent on unchanged
without another look, whoever owns the port and whatever the rules, until one
closes the connection. -/
theorem failedLookup_retained (cfg : Config) (path : WString) (host : Bytes) (port : BitVec 16) (rules : List Rule)
    (events : List Event) (os : Os) (pk : Packet) {a : Action}
    (hj : (step cfg (.packet os pk) (captureLoop cfg events (.init path host port rules))).2.route = .judged a)
    (hp : ((captureLoop cfg events (.init path host port rules)).capture.findPidBySourcePort os pk.src).1 = 0) :
    let s' := captureLoop cfg (events ++ [.packet os pk]) (.init path host port rules)
    ¬ Unjudged cfg pk.src s' ∧ s'.capture.isPortDecided pk.src = true ∧ s'.capture.isPortDirect pk.src = true ∧
      ∀ os' pk', pk'.src = pk.src → pk'.recvLen ≠ 0 → pk'.closing = false →
        (step cfg (.packet os' pk') s').2 = ⟨.cachedDirect, some pk', false⟩ := by
  intro s'
  have hs' : s' = (step cfg (.packet os pk) (captureLoop cfg events (.init path host port rules))).1 :=
    run_concat events _ _
  generalize captureLoop cfg events (.init path host port rules) = s at hj hp hs'
  have hbits : s'.capture.isPortDecided pk.src = true ∧ s'.capture.isPortDirect pk.src = true := by
    obtain ⟨s₁, o, hst, hx⟩ := step_packet cfg os pk s
    have hact : ((s.step1 pk).capture.checkProcessRule cfg os s.rules pk.src).1.action = .direct :=
      checkProcessRule_of_unknown ((Capture.findPidBySourcePort_congr os pk.src (step1_sources pk s)).1.trans hp)
    rw [hst] at hj hs'
    rw [hs']
    cases hx with
    | direct _ v c _ _ => simp
    | block _ v c hv ha => rw [hv] at hact; simp [ha] at hact
    | proxy _ v c hv ha => rw [hv] at hact; simp [ha] at hact
    | _ => simp at hj
  refine ⟨fun h => ?_, hbits.1, hbits.2, fun os' pk' hsrc hl hc => ?_⟩
  · exact absurd hbits.1 (by simp [h.undecided])
  · show (s'.iteration cfg os' pk').2 = _
    rw [iteration_fast cfg os' hl ⟨hsrc ▸ hbits.1, hsrc ▸ hbits.2, hc⟩]

/-- The lookup fails once, for a SYN to 1.2.3.4:443. -/
theorem failedLookup_retained_syn :
    let s' := captureLoop Demo.cfg [.packet {} { Demo.client 1000 0x04030201 443 with syn := true }] Demo.start
    ¬ Unjudged Demo.cfg 1000 s' :=
  (failedLookup_retained Demo.cfg [] (ascii "proxy") 3128 Demo.rules [] {}
    { Demo.client 1000 0x04030201 443 with syn := true } (a := .direct) (by decide) (by decide)).1

/-- After a lookup that failed, the next packet goes out unchanged, although
its owner is known by then and the rules say PROXY. -/
theorem failedLookup_not_rechecked :
    let s := captureLoop Demo.cfg [.packet {} { Demo.client 1000 0x04030201 443 with syn := true }] Demo.start
    (Demo.start.capture.findPidBySourcePort {} 1000).1 = 0 ∧ s.capture.isPortDecided 1000 = true ∧
      s.capture.isPortDirect 1000 = true ∧
      (s.capture.checkProcessRule Demo.cfg (Demo.owned 1000 8) s.rules 1000).1.action = .proxy ∧
      (step Demo.cfg (.packet (Demo.owned 1000 8) (Demo.client 1000 0x04030201 443)) s).2 =
        ⟨.cachedDirect, some (Demo.client 1000 0x04030201 443), false⟩ := by decide

/-- A closing packet from a port that is cached as direct, or decided and not
tracked, clears the port in every reachable state exactly if it is not
outbound: step 4 judges an outbound one and decides the port again. -/
theorem closing_clears_iff (cfg : Config) (path : WString) (host : Bytes) (port : BitVec 16) (rules : List Rule)
    (events : List Event) (os : Os) (pk : Packet) (hl : pk.recvLen ≠ 0) (hc : pk.closing = true)
    (hd : (captureLoop cfg events (.init path host port rules)).capture.isPortDecided pk.src = true)
    (hn : (captureLoop cfg events (.init path host port rules)).capture.isPortDirect pk.src = true ∨
      (captureLoop cfg events (.init path host port rules)).table.isTracked pk.src = false) :
    Forgotten cfg pk.src (captureLoop cfg (events ++ [.packet os pk]) (.init path host port rules)) ↔
      pk.outbound = false := by
  have hs' : captureLoop cfg (events ++ [.packet os pk]) (.init path host port rules) =
      (step cfg (.packet os pk) (captureLoop cfg events (.init path host port rules))).1 := run_concat events _ _
  have h := inv_captureLoop events (inv_init cfg path host port rules)
  rw [hs']
  generalize captureLoop cfg events (.init path host port rules) = s at hd hn h ⊢
  have hrel : pk.src ≠ cfg.relayPort := fun hr => by rw [hr, h.relayDecided] at hd; cases hd
  have hatt : cfg.connTable = true := by
    cases hct : cfg.connTable with
    | true => rfl
    | false => rw [(h.detached hct pk.src).1] at hd; cases hd
  have hent : s.table.entry pk.src = none := hn.elim (h.directEntry pk.src) fun ht => by
    simpa [ConnectionTable.isTracked] using ht
  obtain ⟨s', o, hst, hx⟩ := step_packet cfg os pk s
  rw [hst]
  cases hx with
  | ignored hz => exact absurd hz hl
  | cachedDirect h => exact absurd hc (by simp [h.2.2])
  | passed _ hq =>
    have ho : pk.outbound = false := by
      rcases hq with ⟨h, -⟩ | ⟨-, -, h⟩ | h
      · exact absurd h hrel
      · exact h
      · rw [hatt] at h; cases h
    show Forgotten cfg pk.src (s.step1 pk) ↔ _
    have hud : (s.step1 pk).capture.isPortDecided pk.src = false := by simp [step1_isPortDecided, hc]
    refine iff_of_true ⟨hud, ?_, fun os' pk' hp hl' ho' => ?_⟩ ho
    · simp [step1_isPortDirect pk s h.directDecided, hc]
    · refine ⟨_, route_untracked os' ⟨fun hf => ?_, hp ▸ hrel, hatt, ?_, ho'⟩ hl'⟩
      · rw [Fast, hp, hud] at hf; cases hf.1
      · rw [hp, step1_table, hent]
  | restored _ h => exact absurd h hrel
  | tracked _ _ _ e h => rw [hent] at h; cases h
  | direct hu | block hu =>
    refine iff_of_false (fun hf => ?_) (by simp [hu.outbound])
    simpa using hf.undecided
  | proxy hu v c hv ha =>
    refine iff_of_false (fun hf => ?_) (by simp [hu.outbound])
    have := hf.undecided
    rw [startTracking_isPortDecided] at this
    simp at this

/-- An inbound RST clears a port that a failed lookup cached as direct. -/
theorem closing_clears_inbound :
    let rst := { Demo.client 1000 0x04030201 443 with rst := true, outbound := false }
    rst.outbound = false ∧
    Forgotten Demo.cfg 1000
      (captureLoop Demo.cfg ([.packet {} (Demo.client 1000 0x04030201 443)] ++ [.packet {} rst]) Demo.start) :=
  ⟨rfl, (closing_clears_iff Demo.cfg [] (ascii "proxy") 3128 Demo.rules
    [.packet {} (Demo.client 1000 0x04030201 443)] {}
    { Demo.client 1000 0x04030201 443 with rst := true, outbound := false }
    (by decide) (by decide) (by decide) (.inl (by decide))).mpr rfl⟩

/-- The outbound FIN of a connection that a failed lookup cached as direct:
step 1 clears the port and step 4 caches it again, so the next connection's
SYN is sent out directly, although the rules say PROXY. -/
theorem closing_redecides :
    let syn := { Demo.client 1000 0x04030201 443 with syn := true }
    let fin := { Demo.client 1000 0x04030201 443 with fin := true }
    let s := captureLoop Demo.cfg [.packet {} syn] Demo.start
    let s' := captureLoop Demo.cfg [.packet {} syn, .packet {} fin] Demo.start
    s.capture.isPortDirect 1000 = true ∧ s.table.isTracked 1000 = false ∧
      s'.capture.isPortDecided 1000 = true ∧ s'.capture.isPortDirect 1000 = true ∧
      (s'.capture.checkProcessRule Demo.cfg (Demo.owned 1000 8) s'.rules 1000).1.action = .proxy ∧
      (step Demo.cfg (.packet (Demo.owned 1000 8) syn) s').2.route = .cachedDirect := by decide

end TR.Impl
