import TcpRedirector.Proof.Capture.Restart
import TcpRedirector.Proof.Framework.Views

/-!
# Each port on its own

What the capture is for, one port at a time: a machine with three states
(`Treatment`), which sees the packets from the port, the relay's packets to
it, and what `CheckProcessRule` says of each. The table, the bitmaps and the
counters all ports share hold one such state for each port (`treatment`), and
the capture loop does with a port's packets what that machine does
(`port_isolated`). So neither another port's packets nor the bit of
`m_portDecided` have a say in it.
-/

namespace TR.Impl

inductive Treatment where
  /-- The next outbound packet is judged. -/
  | judge
  | direct
  /-- To the relay, and the relay's packets back as if from there. -/
  | redirect (destIp : BitVec 32) (destPort : BitVec 16)
  deriving Repr, DecidableEq

inductive PortInput where
  /-- A packet from the port, and the verdict on it. -/
  | client (verdict : Action) (pk : Packet)
  /-- A packet from the relay to the port. -/
  | relay (pk : Packet)

/-- A packet from a port that is not redirected. -/
def judgeStep (cfg : Config) (verdict : Action) (pk : Packet) : Treatment × Outcome :=
  if pk.outbound then
    match verdict with
    | .direct => (.direct, ⟨.judged .direct, some pk, false⟩)
    | .block => (.judge, ⟨.judged .block, none, false⟩)
    | .proxy => (.redirect pk.dstAddr pk.dst, ⟨.judged .proxy, some (modifyDstToRelay cfg pk), true⟩)
  else (.judge, ⟨.passed, some pk, false⟩)

def portStep (cfg : Config) (i : PortInput) (t : Treatment) : Treatment × Outcome :=
  match i, t with
  | .client _ pk, .redirect _ _ =>
    (if pk.closing then .judge else t, ⟨.tracked, some (modifyDstToRelay cfg pk), true⟩)
  | .client v pk, .direct =>
    if pk.closing then judgeStep cfg v pk else (.direct, ⟨.cachedDirect, some pk, false⟩)
  | .client v pk, .judge => judgeStep cfg v pk
  | .relay pk, .redirect _ q => (if pk.closing then .judge else t, ⟨.restored, some (System.restoredAs q pk), true⟩)
  | .relay pk, _ => (t, ⟨.passed, some pk, false⟩)

/-- What the table and the bitmaps hold of a port. -/
def treatment (s : System) (p : BitVec 16) : Treatment :=
  match s.table.get p with
  | some (ip, q) => .redirect ip q
  | none => if s.capture.isPortDirect p then .direct else .judge

/-- The client's port of a packet. -/
def clientPort (cfg : Config) (pk : Packet) : BitVec 16 := if pk.src = cfg.relayPort then pk.dst else pk.src

/-- What the client's port of a packet sees of it. -/
def portInput (cfg : Config) (os : Os) (pk : Packet) (s : System) : PortInput :=
  if pk.src = cfg.relayPort then .relay pk
  else .client (s.capture.checkProcessRule cfg os s.rules pk.src).1.action pk

/-- What a step of the loop is for a port. -/
def portView (cfg : Config) (p : BitVec 16) (st : LoopStep) : Option (PortInput × Outcome) :=
  match st.input with
  | .packet os pk =>
    if pk.recvLen ≠ 0 ∧ clientPort cfg pk = p then some (portInput cfg os pk st.pre, st.out) else none
  | _ => none

section

variable {cfg : Config} {s : System} {p : BitVec 16}

theorem treatment_congr {s' : System} (ht : s'.table.entry p = s.table.entry p)
    (hd : s'.capture.isPortDirect p = s.capture.isPortDirect p) : treatment s' p = treatment s p := by
  simp only [treatment, ConnectionTable.get, ht, hd]

theorem treatment_of_entry {e : ConnectionEntry} (he : s.table.entry p = some e) :
    treatment s p = .redirect e.origDestIp e.origDestPort := by
  simp only [treatment, ConnectionTable.get, he, Option.map_some]

theorem treatment_of_none (he : s.table.entry p = none) :
    treatment s p = if s.capture.isPortDirect p then .direct else .judge := by
  simp only [treatment, ConnectionTable.get, he, Option.map_none]

theorem treatment_relayPort (h : Inv cfg s) : treatment s cfg.relayPort = .judge := by
  have hd : s.capture.isPortDirect cfg.relayPort = false :=
    Bool.eq_false_iff.mpr fun hd => by simpa [h.relayDecided] using h.directDecided _ hd
  rw [treatment_of_none h.relayEntry, hd]
  rfl

/-! ## The other ports -/

theorem step1_isPortDirect_of_ne (h : Inv cfg s) {pk : Packet} (hp : p ≠ pk.src) :
    (s.step1 pk).capture.isPortDirect p = s.capture.isPortDirect p := by
  rw [System.step1_isPortDirect pk s h.directDecided]
  simp [hp]

theorem treatment_step1_of_ne (h : Inv cfg s) {pk : Packet} (hp : p ≠ pk.src) :
    treatment (s.step1 pk) p = treatment s p :=
  treatment_congr (by rw [System.step1_table]) (step1_isPortDirect_of_ne h hp)

/-- Step 1 takes nothing from the relay port. -/
theorem treatment_step1_relay (h : Inv cfg s) {pk : Packet} (hr : pk.src = cfg.relayPort) (p : BitVec 16) :
    treatment (s.step1 pk) p = treatment s p := by
  by_cases hp : p = pk.src
  · rw [hp, hr, treatment_relayPort (step1_inv h pk), treatment_relayPort h]
  · exact treatment_step1_of_ne h hp

/-- A packet leaves the other ports alone. -/
theorem taken_other (h : Inv cfg s) {os : Os} {pk : Packet} {s' : System} {o : Outcome} (hx : s.Taken cfg os pk s' o)
    (hp : p ≠ clientPort cfg pk) : treatment s' p = treatment s p := by
  have hsrc (hr : pk.src ≠ cfg.relayPort) : p ≠ pk.src := by rwa [clientPort, if_neg hr] at hp
  have hdst (hr : pk.src = cfg.relayPort) : p ≠ pk.dst := by rwa [clientPort, if_pos hr] at hp
  cases hx with
  | ignored | cachedDirect => rfl
  | passed =>
    by_cases hr : pk.src = cfg.relayPort
    · exact treatment_step1_relay h hr p
    · exact treatment_step1_of_ne h (hsrc hr)
  | restored _ hr _ e he =>
    have he' : (s.step1 pk).table.entry _ = some e := System.step1_entry he
    rw [← treatment_step1_relay h hr p]
    refine treatment_congr ?_ ?_
    · rw [System.relayed_entry he' (step1_inv h pk).onePerPort, if_neg (hdst hr)]
    · rw [System.relayed_isPortDirect he']
      simp [hdst hr]
  | tracked _ hr _ e he =>
    rw [← treatment_step1_of_ne h (hsrc hr)]
    refine treatment_congr ?_ ?_
    · rw [System.forwarded_entry cfg (step1_inv h pk).onePerPort (System.step1_entry he), if_neg (hsrc hr)]
    · rw [System.forwarded_isPortDirect]
      simp [hsrc hr]
  | direct hu v c hv =>
    rw [← treatment_step1_of_ne h (hsrc hu.src)]
    refine treatment_congr rfl ?_
    rw [Capture.isPortDirect_setPortDirect, judged_isPortDirect hv]
    simp [hsrc hu.src]
  | block hu v c hv =>
    rw [← treatment_step1_of_ne h (hsrc hu.src)]
    exact treatment_congr rfl (show c.isPortDirect p = _ from judged_isPortDirect hv)
  | proxy hu v c hv =>
    rw [← treatment_step1_of_ne h (hsrc hu.src)]
    refine treatment_congr ?_ (show c.isPortDirect p = _ from judged_isPortDirect hv)
    rw [System.startTracking_entry_of_ne cfg os v (judged_inv h hv).onePerPort (System.step1_entry hu.entry)
      (hsrc hu.src)]

/-! ## The packet's port -/

/-- What step 4 does with a packet is what the port's machine does, whatever
its state. -/
theorem portStep_untracked {pk : Packet} (hu : s.Untracked cfg pk) (h : Inv cfg s) (v : Action) :
    portStep cfg (.client v pk) (treatment s pk.src) = judgeStep cfg v pk := by
  rw [treatment_of_none hu.entry]
  cases hd : s.capture.isPortDirect pk.src with
  | false => rfl
  | true =>
    have hc : pk.closing = true := by
      by_contra hc
      exact hu.slow ⟨h.directDecided _ hd, hd, Bool.eq_false_iff.mpr hc⟩
    simp only [portStep, hc, if_true]

/-- And so is what it does with one from the relay, or from a redirected port. -/
theorem taken_own (h : Inv cfg s) (ht : cfg.connTable = true) {os : Os} {pk : Packet} {s' : System} {o : Outcome}
    (hl : pk.recvLen ≠ 0) (hx : s.Taken cfg os pk s' o) :
    portStep cfg (portInput cfg os pk s) (treatment s (clientPort cfg pk)) = (treatment s' (clientPort cfg pk), o) := by
  have h1 := step1_inv h pk
  have hverdict {v : Verdict} {c : Capture}
      (hv : (s.step1 pk).capture.checkProcessRule cfg os s.rules pk.src = (v, c)) :
      (s.capture.checkProcessRule cfg os s.rules pk.src).1 = v := by
    rw [← Capture.checkProcessRule_congr cfg os s.rules pk.src (System.step1_sources pk s), hv]
  have hjudged (hu : s.Untracked cfg pk) {v : Verdict} {c : Capture}
      (hv : (s.step1 pk).capture.checkProcessRule cfg os s.rules pk.src = (v, c)) :
      portStep cfg (portInput cfg os pk s) (treatment s (clientPort cfg pk)) = judgeStep cfg v.action pk := by
    rw [portInput, clientPort, if_neg hu.src, if_neg hu.src, hverdict hv, portStep_untracked hu h]
  cases hx with
  | ignored hz => exact absurd hz hl
  | cachedDirect hf =>
    have hr : pk.src ≠ cfg.relayPort := fun hr => by rw [System.Fast, hr, h.relayDecided] at hf; cases hf.1
    rw [portInput, clientPort, if_neg hr, if_neg hr]
    have htr : treatment s pk.src = .direct := by rw [treatment_of_none (h.directEntry _ hf.2.1), hf.2.1]; rfl
    have htr' : treatment s.counted pk.src = .direct := htr
    rw [htr, htr']
    simp only [portStep, hf.2.2, Bool.false_eq_true, if_false]
  | passed hf hp =>
    rcases hp with ⟨hr, -, hn⟩ | ⟨hr, hn, ho⟩ | hc
    · rw [portInput, clientPort, if_pos hr, if_pos hr, treatment_step1_relay h hr, treatment_of_none hn]
      cases s.capture.isPortDirect pk.dst <;> rfl
    · rw [portInput, clientPort, if_neg hr, if_neg hr, treatment_of_none hn,
        treatment_of_none (System.step1_entry hn), System.step1_isPortDirect pk s h.directDecided]
      cases hd : s.capture.isPortDirect pk.src with
      | false => simp [portStep, judgeStep, ho]
      | true =>
        have hc : pk.closing = true := by
          by_contra hc
          exact hf ⟨h.directDecided _ hd, hd, Bool.eq_false_iff.mpr hc⟩
        simp [portStep, judgeStep, hc, ho]
    · rw [ht] at hc; cases hc
  | restored hf hr _ e he =>
    have he' : (s.step1 pk).table.entry _ = some e := System.step1_entry he
    rw [portInput, clientPort, if_pos hr, if_pos hr, treatment_of_entry he,
      System.restoreFromRelay_of_get (by rw [ConnectionTable.get, he]; rfl)]
    simp only [portStep, Prod.mk.injEq, and_true]
    cases hc : pk.closing with
    | false =>
      rw [treatment_of_entry (by rw [System.relayed_entry he' h1.onePerPort, if_pos rfl, hc]; rfl)]
      rfl
    | true =>
      rw [treatment_of_none (by rw [System.relayed_entry he' h1.onePerPort, if_pos rfl, hc]; rfl),
        System.relayed_isPortDirect he', hc]
      simp
  | tracked hf hr _ e he =>
    have he' : (s.step1 pk).table.entry _ = some e := System.step1_entry he
    rw [portInput, clientPort, if_neg hr, if_neg hr, treatment_of_entry he]
    simp only [portStep, Prod.mk.injEq, and_true]
    cases hc : pk.closing with
    | false =>
      rw [treatment_of_entry (by rw [System.forwarded_entry cfg h1.onePerPort he', if_pos rfl, hc]; rfl)]
      rfl
    | true =>
      rw [treatment_of_none (by rw [System.forwarded_entry cfg h1.onePerPort he', if_pos rfl, hc]; rfl),
        System.forwarded_isPortDirect, hc]
      simp
  | direct hu v c hv ha =>
    have he : ({ s.step1 pk with capture := c.setPortDirect pk.src } : System).table.entry pk.src = none :=
      System.step1_entry hu.entry
    have hn : treatment { s.step1 pk with capture := c.setPortDirect pk.src } pk.src = .direct := by
      rw [treatment_of_none he, Capture.isPortDirect_setPortDirect]
      simp
    rw [hjudged hu hv, clientPort, if_neg hu.src, hn, ha]
    simp [judgeStep, hu.outbound]
  | block hu v c hv ha =>
    have hd := judged_isPortDirect (p := pk.src) hv
    rw [step1_notDirect h hu.slow] at hd
    have he : ({ s.step1 pk with capture := c.setPortDecided pk.src } : System).table.entry pk.src = none :=
      System.step1_entry hu.entry
    have hn : treatment { s.step1 pk with capture := c.setPortDecided pk.src } pk.src = .judge := by
      rw [treatment_of_none he, show (c.setPortDecided pk.src).isPortDirect pk.src = false from hd]
      rfl
    rw [hjudged hu hv, clientPort, if_neg hu.src, hn, ha]
    simp [judgeStep, hu.outbound]
  | proxy hu v c hv ha =>
    obtain ⟨e, he, hip, hport⟩ := System.startTracking_entry_src cfg os v (judged_inv h hv).onePerPort
      (System.step1_entry hu.entry)
    rw [hjudged hu hv, clientPort, if_neg hu.src, treatment_of_entry he, hip, hport, ha]
    simp [judgeStep, hu.outbound]

/-- A step of the loop is, for a port, nothing or a step of its machine. -/
theorem views_port (ht : cfg.connTable = true) (p : BitVec 16) :
    Views (Inv cfg) (step cfg) (portStep cfg) (treatment · p) (portView cfg p) where
  invariant := step_inv cfg
  unseen := fun ev s h hv => by
    cases ev with
    | packet os pk =>
      have hx := System.iteration_taken cfg os pk s
      by_cases hl : pk.recvLen = 0
      · rw [step, System.iteration, if_pos hl]
      · refine taken_other h hx fun hp => ?_
        exact hl (by simpa [portView, stepOf, hp] using hv)
    | other | recvFailed | setProxyConfig | setTargetProcess | setRules => rfl
  seen := fun ev s x o h hv => by
    cases ev with
    | packet os pk =>
      simp only [portView, stepOf] at hv
      split at hv
      · rename_i hp
        obtain ⟨hl, rfl⟩ := hp
        obtain ⟨rfl, rfl⟩ := Prod.mk.inj (Option.some.inj hv)
        exact taken_own h ht hl (System.iteration_taken cfg os pk s)
      · cases hv
    | other | recvFailed | setProxyConfig | setTargetProcess | setRules => cases hv

end

/-- In every run of the loop, with the table, each port's packets are treated
as by the machine for that port alone: it sees the packets from the port, the
relay's packets to it and the verdicts on them, and nothing of the others. The
table and the bitmaps end with its state. -/
theorem port_isolated (cfg : Config) (ht : cfg.connTable = true) (path : WString) (host : Bytes) (port : BitVec 16)
    (rules : List Rule) (events : List Event) (p : BitVec 16) :
    let seen := (loopTrace cfg events (.init path host port rules)).filterMap (portView cfg p)
    outputs (portStep cfg) (seen.map (·.1)) .judge = seen.map (·.2) ∧
      treatment (captureLoop cfg events (.init path host port rules)) p =
        run (portStep cfg) (seen.map (·.1)) .judge := by
  intro seen
  have hinv := inv_init cfg path host port rules
  have hstart : treatment (.init path host port rules) p = .judge := by
    rw [treatment_of_none rfl, show (System.init path host port rules).capture.isPortDirect p = false from
      Bitmap.test_zero p]
    rfl
  have hv := views_port ht p
  exact ⟨hstart ▸ hv.outputs_view events hinv, hstart ▸ hv.run_view events hinv⟩

/-- Two clients at a time: the second one's packets change nothing for the
first. -/
theorem port_isolated_two :
    let events := [.packet (Demo.owned 1000 8) { Demo.client 1000 0x04030201 443 with syn := true },
      .packet (Demo.owned 2000 9) { Demo.client 2000 0x08080808 80 with syn := true },
      .packet {} (Demo.relay 1000 0x04030201)]
    treatment (captureLoop Demo.cfg events Demo.start) 1000 = .redirect 0x04030201 443 := by
  intro events
  exact (port_isolated Demo.cfg rfl [] (ascii "proxy") 3128 Demo.rules events 1000).2.trans (by decide)

end TR.Impl
