import TcpRedirector.Proof.Capture.Step
import TcpRedirector.Proof.Framework.Run

/-!
# What holds all along a run of the capture loop

`Inv`: the table holds one entry for each port at most, the relay port is
neither tracked nor decided, a port cached as direct is decided and not
tracked, nothing is tracked or decided without a table, and the monitor lists
every tracked port. Every event keeps it (`step_inv`), so it holds before
every step of a run (`inv_captureLoop`, `inv_loopTrace`).
-/

namespace TR.Impl

structure Inv (cfg : Config) (s : System) : Prop where
  onePerPort : s.table.OnePerPort
  relayEntry : s.table.entry cfg.relayPort = none
  relayDecided : s.capture.isPortDecided cfg.relayPort = false
  directDecided : ∀ p, s.capture.isPortDirect p = true → s.capture.isPortDecided p = true
  directEntry : ∀ p, s.capture.isPortDirect p = true → s.table.entry p = none
  detached : cfg.connTable = false → ∀ p, s.capture.isPortDecided p = false ∧ s.table.entry p = none
  monitored : cfg.connectionMonitor = true → ∀ p, s.table.isTracked p = true → p.setWidth 64 ∈ s.monitor.ids
  monitorPorts : ∀ id ∈ s.monitor.ids, ∃ p : BitVec 16, id = p.setWidth 64

theorem inv_init (cfg : Config) (path : WString) (host : Bytes) (port : BitVec 16) (rules : List Rule) :
    Inv cfg (System.init path host port rules) where
  onePerPort := ConnectionTable.onePerPort_empty
  relayEntry := rfl
  relayDecided := Bitmap.test_zero _
  directDecided := fun p h => absurd h (by show ¬ Bitmap.zero.test p = true; simp)
  directEntry := fun _ _ => rfl
  detached := fun _ p => ⟨Bitmap.test_zero p, rfl⟩
  monitored := fun _ p h => by cases h
  monitorPorts := fun id h => by cases h

section

variable {cfg : Config} {s : System}

/-- A step that tracks no new port, decides none and clears the bits of the
ports outside `mask` keeps the invariant, if the monitor still lists what is
tracked. -/
theorem Inv.narrow {s' : System} (h : Inv cfg s) (mask : BitVec 16 → Bool) (hone : s'.table.OnePerPort)
    (htr : ∀ p, s.table.entry p = none → s'.table.entry p = none)
    (hd : ∀ p, s'.capture.isPortDecided p = (mask p && s.capture.isPortDecided p))
    (hdir : ∀ p, s'.capture.isPortDirect p = (mask p && s.capture.isPortDirect p))
    (hm : cfg.connectionMonitor = true → ∀ p, s'.table.isTracked p = true → p.setWidth 64 ∈ s'.monitor.ids)
    (hmp : ∀ id ∈ s'.monitor.ids, id ∈ s.monitor.ids) : Inv cfg s' where
  onePerPort := hone
  relayEntry := htr _ h.relayEntry
  relayDecided := by rw [hd, h.relayDecided, Bool.and_false]
  directDecided := fun p hp => by
    rw [hdir, Bool.and_eq_true] at hp
    rw [hd, hp.1, h.directDecided p hp.2]; rfl
  directEntry := fun p hp => by
    rw [hdir, Bool.and_eq_true] at hp
    exact htr p (h.directEntry p hp.2)
  detached := fun hc p => by
    rw [hd, (h.detached hc p).1, Bool.and_false]
    exact ⟨rfl, htr p (h.detached hc p).2⟩
  monitored := hm
  monitorPorts := fun id hid => h.monitorPorts id (hmp id hid)

/-- The invariant of a system that differs in nothing the invariant reads. -/
theorem Inv.congr {s' : System} (h : Inv cfg s) (ht : s'.table = s.table) (hm : s'.monitor = s.monitor)
    (hd : ∀ p, s'.capture.isPortDecided p = s.capture.isPortDecided p)
    (hdir : ∀ p, s'.capture.isPortDirect p = s.capture.isPortDirect p) : Inv cfg s' :=
  h.narrow (fun _ => true) (ht ▸ h.onePerPort) (fun _ hp => ht ▸ hp) (fun p => by rw [hd, Bool.true_and])
    (fun p => by rw [hdir, Bool.true_and]) (fun hc p hp => hm ▸ h.monitored hc p (ht ▸ hp)) (fun _ hid => hm ▸ hid)

theorem step1_inv (h : Inv cfg s) (pk : Packet) : Inv cfg (s.step1 pk) :=
  h.narrow (fun p => !(decide (p = pk.src) && pk.closing)) (System.step1_table pk s ▸ h.onePerPort)
    (fun _ hp => by rw [System.step1_table, hp]) (System.step1_isPortDecided pk s)
    (System.step1_isPortDirect pk s h.directDecided)
    (fun hc p hp => by rw [System.step1_monitor]; exact h.monitored hc p (System.step1_table pk s ▸ hp))
    (fun id hid => System.step1_monitor pk s ▸ hid)

theorem relayed_inv (h : Inv cfg s) {pk : Packet} {e : ConnectionEntry} (he : s.table.entry pk.dst = some e) :
    Inv cfg (s.relayed pk) := by
  have hen := System.relayed_entry he h.onePerPort
  have htr : ∀ p, s.table.entry p = none → (s.relayed pk).table.entry p = none := fun p hp => by
    rw [hen, if_neg (fun hq => by rw [hq, he] at hp; cases hp), hp]
  refine h.narrow (fun p => !(decide (p = pk.dst) && pk.closing)) (System.relayed_onePerPort he h.onePerPort) htr
    (System.relayed_isPortDecided he) (System.relayed_isPortDirect he) (fun hc p hp => ?_)
    (fun id hid => System.relayed_monitor he ▸ hid)
  rw [System.relayed_monitor he]
  refine h.monitored hc p ?_
  rw [ConnectionTable.isTracked, Option.isSome_iff_ne_none] at hp ⊢
  exact fun hn => hp (htr p hn)

theorem ids_removeConnection (t : ConnectionTracker) (id id' : BitVec 64) :
    id' ∈ (t.removeConnection id).ids ↔ id' ≠ id ∧ id' ∈ t.ids := AList.mem_erase

/-- A port is its id. -/
theorem setWidth_port_inj {p q : BitVec 16} : p.setWidth 64 = q.setWidth 64 ↔ p = q := by
  refine ⟨fun h => ?_, fun h => h ▸ rfl⟩
  have := congrArg BitVec.toNat h
  simp only [BitVec.toNat_setWidth] at this
  apply BitVec.eq_of_toNat_eq
  have := p.isLt; have := q.isLt
  omega

theorem forwarded_inv (h : Inv cfg s) {pk : Packet} {e : ConnectionEntry} (he : s.table.entry pk.src = some e) :
    Inv cfg (s.forwarded cfg pk) := by
  have hen := System.forwarded_entry cfg h.onePerPort he
  have htr : ∀ p, s.table.entry p = none → (s.forwarded cfg pk).table.entry p = none := fun p hp => by
    rw [hen, if_neg (fun hq => by rw [hq, he] at hp; cases hp), hp]
  refine h.narrow (fun p => !(decide (p = pk.src) && pk.closing)) (System.forwarded_onePerPort cfg h.onePerPort) htr
    (System.forwarded_isPortDecided cfg) (System.forwarded_isPortDirect cfg) (fun hc p hp => ?_) (fun id hid => ?_)
  · rw [ConnectionTable.isTracked, Option.isSome_iff_ne_none] at hp
    have hin : p.setWidth 64 ∈ s.monitor.ids :=
      h.monitored hc p (Option.isSome_iff_ne_none.mpr fun hn => hp (htr p hn))
    rw [System.forwarded_monitor]
    split
    · rename_i hcl
      refine (ids_removeConnection ..).mpr ⟨fun hq => hp ?_, hin⟩
      rw [hen, if_pos (setWidth_port_inj.mp hq), if_pos hcl.1]
    · exact hin
  · rw [System.forwarded_monitor] at hid
    split at hid
    · exact ((ids_removeConnection ..).mp hid).2
    · exact hid

/-! ## Step 4 -/

/-- What is left to the cases of step 4: the system with the capture that
`CheckProcessRule` leaves. -/
theorem judged_inv (h : Inv cfg s) {os : Os} {pk : Packet} {v : Verdict} {c : Capture}
    (hv : (s.step1 pk).capture.checkProcessRule cfg os s.rules pk.src = (v, c)) :
    Inv cfg { s.step1 pk with capture := c } := by
  have hs := Capture.checkProcessRule_same (s.step1 pk).capture cfg os s.rules pk.src
  rw [hv] at hs
  exact (step1_inv h pk).congr rfl rfl (fun p => congrArg (·.test p) hs.1) (fun p => congrArg (·.test p) hs.2)

theorem setPortDirect_inv (h : Inv cfg s) {p : BitVec 16} (hr : p ≠ cfg.relayPort) (ht : cfg.connTable = true)
    (he : s.table.entry p = none) : Inv cfg { s with capture := s.capture.setPortDirect p } where
  onePerPort := h.onePerPort
  relayEntry := h.relayEntry
  relayDecided := by simp [Ne.symm hr, h.relayDecided]
  directDecided := fun q hq => by
    simp only [Capture.isPortDirect_setPortDirect, Capture.isPortDecided_setPortDirect, Bool.or_eq_true] at hq ⊢
    exact hq.imp id (h.directDecided q)
  directEntry := fun q hq => by
    simp only [Capture.isPortDirect_setPortDirect, Bool.or_eq_true, decide_eq_true_eq] at hq
    rcases hq with rfl | hq
    · exact he
    · exact h.directEntry q hq
  detached := fun hc => absurd hc (by simp [ht])
  monitored := h.monitored
  monitorPorts := h.monitorPorts

theorem setPortDecided_inv (h : Inv cfg s) {p : BitVec 16} (hr : p ≠ cfg.relayPort) (ht : cfg.connTable = true) :
    Inv cfg { s with capture := s.capture.setPortDecided p } where
  onePerPort := h.onePerPort
  relayEntry := h.relayEntry
  relayDecided := by simp [Ne.symm hr, h.relayDecided]
  directDecided := fun q hq => by
    simp only [Capture.isPortDecided_setPortDecided, Bool.or_eq_true]
    exact .inr (h.directDecided q hq)
  directEntry := h.directEntry
  detached := fun hc => absurd hc (by simp [ht])
  monitored := h.monitored
  monitorPorts := h.monitorPorts

theorem startTracking_inv (h : Inv cfg s) {os : Os} {pk : Packet} {v : Verdict} (hr : pk.src ≠ cfg.relayPort)
    (ht : cfg.connTable = true) (he : s.table.entry pk.src = none) (hd : s.capture.isPortDirect pk.src = false) :
    Inv cfg (s.startTracking cfg os pk v) where
  onePerPort := System.startTracking_onePerPort cfg os v h.onePerPort he
  relayEntry := by rw [System.startTracking_entry_of_ne cfg os v h.onePerPort he (Ne.symm hr), h.relayEntry]
  relayDecided := by rw [System.startTracking_isPortDecided]; simp [Ne.symm hr, h.relayDecided]
  directDecided := fun q hq => by
    rw [System.startTracking_isPortDecided, Bool.or_eq_true]
    exact .inr (h.directDecided q hq)
  directEntry := fun q hq => by
    rw [System.startTracking_isPortDirect] at hq
    have hne : q ≠ pk.src := fun e => by rw [e, hd] at hq; cases hq
    rw [System.startTracking_entry_of_ne cfg os v h.onePerPort he hne]
    exact h.directEntry q hq
  detached := fun hc => absurd hc (by simp [ht])
  monitored := fun hc q hq => by
    rw [System.startTracking_ids cfg os v hc]
    by_cases hne : q = pk.src
    · exact .inl (hne ▸ rfl)
    · rw [ConnectionTable.isTracked, System.startTracking_entry_of_ne cfg os v h.onePerPort he hne] at hq
      exact .inr (h.monitored hc q hq)
  monitorPorts := fun id hid => by
    cases hc : cfg.connectionMonitor with
    | false =>
      simp only [System.startTracking, hc, Bool.false_eq_true, ite_false] at hid
      exact h.monitorPorts id hid
    | true =>
      rcases (System.startTracking_ids cfg os v hc id).mp hid with rfl | hid
      · exact ⟨_, rfl⟩
      · exact h.monitorPorts id hid

/-- Past step 1 the packet's port is not cached as direct. -/
theorem step1_notDirect (h : Inv cfg s) {pk : Packet} (hf : ¬ s.Fast pk) :
    (s.step1 pk).capture.isPortDirect pk.src = false := by
  rw [System.step1_isPortDirect pk s h.directDecided]
  cases hc : pk.closing
  · cases hd : s.capture.isPortDirect pk.src
    · simp
    · exact absurd ⟨h.directDecided _ hd, hd, hc⟩ hf
  · simp

/-- Every way through the loop body keeps the invariant. -/
theorem taken_inv (h : Inv cfg s) {os : Os} {pk : Packet} {s' : System} {o : Outcome}
    (ht : s.Taken cfg os pk s' o) : Inv cfg s' := by
  cases ht with
  | ignored _ => exact h
  | cachedDirect _ => exact h.congr rfl rfl (fun _ => rfl) fun _ => rfl
  | passed _ _ => exact step1_inv h pk
  | restored _ _ _ e he => exact relayed_inv (step1_inv h pk) (System.step1_entry he)
  | tracked _ _ _ e he => exact forwarded_inv (step1_inv h pk) (System.step1_entry he)
  | direct hu v c hv _ =>
    exact setPortDirect_inv (judged_inv h hv) hu.src hu.attached (System.step1_entry hu.entry)
  | block hu v c hv _ => exact setPortDecided_inv (judged_inv h hv) hu.src hu.attached
  | proxy hu v c hv _ =>
    refine startTracking_inv (judged_inv h hv) hu.src hu.attached (System.step1_entry hu.entry) ?_
    have hs := Capture.checkProcessRule_same (s.step1 pk).capture cfg os s.rules pk.src
    rw [hv] at hs
    exact (congrArg (·.test pk.src) hs.2).trans (step1_notDirect h hu.slow)

/-- Every event keeps the invariant. -/
theorem step_inv (cfg : Config) (ev : Event) (s : System) (h : Inv cfg s) : Inv cfg (step cfg ev s).1 := by
  cases ev with
  | packet os pk => exact taken_inv h (System.iteration_taken cfg os pk s)
  | other | recvFailed => exact h
  | setProxyConfig _ _ | setTargetProcess _ | setRules _ => exact h.congr rfl rfl (fun _ => rfl) fun _ => rfl

/-- The invariant after a run. -/
theorem inv_captureLoop (events : List Event) (h : Inv cfg s) : Inv cfg (captureLoop cfg events s) :=
  run_induct (step_inv cfg) events h

/-- A step of a run: it starts from a state with the invariant. -/
theorem inv_loopTrace {events : List Event} (h : Inv cfg s) {st : LoopStep} (hst : st ∈ loopTrace cfg events s) :
    Inv cfg st.pre ∧ st = stepOf (step cfg) st.input st.pre := trace_induct (step_inv cfg) h hst

/-- A packet from the relay to a tracked port is restored. -/
theorem step_relay (h : Inv cfg s) (os : Os) {pk : Packet} (hl : pk.recvLen ≠ 0) (hsrc : pk.src = cfg.relayPort)
    (htr : s.table.isTracked pk.dst = true) : step cfg (.packet os pk) s =
      ((s.step1 pk).relayed pk, ⟨.restored, some (restoreFromRelay s.table pk), true⟩) := by
  obtain ⟨e, he⟩ := ConnectionTable.isTracked_iff.mp htr
  obtain ⟨s', o, hst, hx⟩ := System.step_packet cfg os pk s
  rw [hst]
  cases hx with
  | ignored hz => exact absurd hz hl
  | cachedDirect hf => rw [System.Fast, hsrc, h.relayDecided] at hf; cases hf.1
  | passed _ hp =>
    rcases hp with ⟨-, -, hn⟩ | ⟨hr, -⟩ | ht
    · rw [he] at hn; cases hn
    · exact absurd hsrc hr
    · rw [(h.detached ht _).2] at he; cases he
  | restored => rfl
  | tracked _ hr => exact absurd hsrc hr
  | direct hu | block hu | proxy hu => exact absurd hsrc hu.src

/-- The packet closes the connection of client port `p`, from either side. -/
def Closes (cfg : Config) (p : BitVec 16) (pk : Packet) : Prop :=
  pk.closing = true ∧ (pk.src = p ∨ (pk.src = cfg.relayPort ∧ pk.dst = p))

/-- What the table has of a port stays until a packet closes its connection. -/
theorem get_step (h : Inv cfg s) {p : BitVec 16} {x : BitVec 32 × BitVec 16} (hg : s.table.get p = some x) {ev : Event}
    (hc : ∀ os pk, ev = .packet os pk → ¬ Closes cfg p pk) : (step cfg ev s).1.table.get p = some x := by
  cases ev with
  | other | recvFailed | setProxyConfig | setTargetProcess | setRules => exact hg
  | packet os pk =>
    have hcl := hc os pk rfl
    have h1 := step1_inv h pk
    have hg1 : (s.step1 pk).table.get p = some x := by rw [System.step1_table, hg]
    obtain ⟨s', o, hst, hx⟩ := System.step_packet cfg os pk s
    rw [hst]
    cases hx with
    | ignored | cachedDirect => exact hg
    | passed | direct | block => exact hg1
    | restored _ hr _ e he =>
      rw [ConnectionTable.get, System.relayed_entry (System.step1_entry he) h1.onePerPort]
      split
      · rename_i hp
        have hn : pk.closing = false := Bool.eq_false_iff.mpr fun hcc => hcl ⟨hcc, .inr ⟨hr, hp.symm⟩⟩
        rw [hp, ConnectionTable.get, he] at hg
        simpa [hn] using hg
      · exact hg1
    | tracked _ _ _ e he =>
      rw [ConnectionTable.get, System.forwarded_entry cfg h1.onePerPort (System.step1_entry he)]
      split
      · rename_i hp
        have hn : pk.closing = false := Bool.eq_false_iff.mpr fun hcc => hcl ⟨hcc, .inl hp.symm⟩
        rw [hp, ConnectionTable.get, he] at hg
        simpa [hn] using hg
      · exact hg1
    | proxy hu v c hv =>
      have hp : p ≠ pk.src := fun hp => by rw [hp, ConnectionTable.get, hu.entry] at hg; cases hg
      rw [ConnectionTable.get, System.startTracking_entry_of_ne cfg os v (judged_inv h hv).onePerPort
        (System.step1_entry hu.entry) hp]
      exact hg1

/-- Step 4 records where the packet was going. -/
theorem get_proxy (h : Inv cfg s) {os : Os} {pk : Packet}
    (hr : (step cfg (.packet os pk) s).2.route = .judged .proxy) :
    (step cfg (.packet os pk) s).1.table.get pk.src = some (pk.dstAddr, pk.dst) := by
  obtain ⟨s', o, hst, hx⟩ := System.step_packet cfg os pk s
  rw [hst] at hr ⊢
  cases hx with
  | proxy hu v c hv =>
    obtain ⟨e, he, hip, hport⟩ := System.startTracking_entry_src cfg os v (judged_inv h hv).onePerPort
      (System.step1_entry hu.entry)
    rw [ConnectionTable.get, he, Option.map_some, hip, hport]
  | _ => simp at hr

/-- Step 3 keeps what the table has, unless the packet closes the connection. -/
theorem get_tracked (h : Inv cfg s) {os : Os} {pk : Packet} {x : BitVec 32 × BitVec 16}
    (hr : (step cfg (.packet os pk) s).2.route = .tracked) (hg : s.table.get pk.src = some x) :
    (step cfg (.packet os pk) s).1.table.get pk.src = if pk.closing then none else some x := by
  obtain ⟨s', o, hst, hx⟩ := System.step_packet cfg os pk s
  rw [hst] at hr ⊢
  cases hx with
  | tracked _ _ _ e he =>
    rw [ConnectionTable.get, he] at hg
    rw [ConnectionTable.get, System.forwarded_entry cfg (step1_inv h pk).onePerPort
      (System.step1_entry he), if_pos rfl]
    split
    · rfl
    · exact hg
  | _ => simp at hr

end

/-! ## A small service

Relay port 34010, process 4, one rule that proxies everything: what the
statements about runs are tried on. -/

namespace Demo

def cfg : Config := { relayPort := 34010, currentProcessId := 4 }

def rules : List Rule := [{ id := [], type := .global, action := .proxy, pattern := [] }]

def start : System := .init [] (ascii "proxy") 3128 rules

/-- Process `pid` owns port `port`, and the TCP table says so. -/
def owned (port : BitVec 16) (pid : BitVec 32) : Os where
  tcpTable := some [⟨(htons port).setWidth 32, pid⟩]
  imageName := fun _ => some [97]
  owner := fun p => if p = port then pid else 0

/-- An outbound packet from 10.0.0.1. -/
def client (port : BitVec 16) (dstAddr : BitVec 32) (dstPort : BitVec 16) : Packet where
  srcAddr := 0x0100000a
  dstAddr := dstAddr
  srcPort := htons port
  dstPort := htons dstPort
  recvLen := 40
  outbound := true

/-- The relay's reply to it. -/
def relay (port : BitVec 16) (peer : BitVec 32) : Packet where
  srcAddr := 0x0100000a
  dstAddr := peer
  srcPort := htons 34010
  dstPort := htons port
  recvLen := 40
  outbound := true

end Demo

end TR.Impl
