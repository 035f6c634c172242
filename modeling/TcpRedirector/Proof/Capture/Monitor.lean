import TcpRedirector.Proof.Capture.Invariant

/-!
# The table and the monitor

Step 4 adds a connection to both stores and step 3 takes it out of both, so
they list the same connections as long as step 2 closes none: it takes the
connection out of the table alone (`relayClose_not_listed`). The stores agree
all along a run exactly if no relay packet closes a tracked connection
(`monitor_lists_iff`).
-/

namespace TR.Impl

open TR.Impl.System

/-- The monitor lists the tracked ports and no others. -/
def Listed (s : System) : Prop :=
  ∀ id, id ∈ s.monitor.ids ↔ ∃ p : BitVec 16, s.table.isTracked p = true ∧ id = p.setWidth 64

/-- The relay closes a tracked connection. -/
def RelayClose (cfg : Config) (st : LoopStep) : Prop :=
  ∃ os pk, st.input = .packet os pk ∧ pk.recvLen ≠ 0 ∧ pk.src = cfg.relayPort ∧ pk.closing = true ∧
    st.pre.table.isTracked pk.dst = true

theorem listed_init (path : WString) (host : Bytes) (port : BitVec 16) (rules : List Rule) :
    Listed (.init path host port rules) :=
  fun _ => iff_of_false (fun h => by cases h) fun ⟨_, h, _⟩ => by cases h

section

variable {cfg : Config} {s : System}

/-- A step that tracks the same ports and leaves the monitor alone keeps the lists equal. -/
theorem Listed.congr {s' : System} (h : Listed s) (hm : s'.monitor = s.monitor)
    (ht : ∀ p, s'.table.isTracked p = s.table.isTracked p) : Listed s' := fun id => by
  rw [hm, h id]
  simp only [ht]

theorem forwarded_listed (h : Listed s) (hi : Inv cfg s) (hmon : cfg.connectionMonitor = true) {pk : Packet}
    {e : ConnectionEntry} (he : s.table.entry pk.src = some e) : Listed (s.forwarded cfg pk) := fun id => by
  rw [forwarded_monitor]
  cases hc : pk.closing with
  | false =>
    have htr : ∀ p, (s.forwarded cfg pk).table.isTracked p = s.table.isTracked p := fun p => by
      rw [ConnectionTable.isTracked, ConnectionTable.isTracked, forwarded_entry cfg hi.onePerPort he]
      split
      · rename_i hp; simp [hc, hp, he]
      · rfl
    simpa [htr] using h id
  | true =>
    have htr : ∀ p, (s.forwarded cfg pk).table.isTracked p = true ↔ p ≠ pk.src ∧ s.table.isTracked p = true :=
      fun p => by
        rw [ConnectionTable.isTracked, ConnectionTable.isTracked, forwarded_entry cfg hi.onePerPort he]
        split <;> simp_all
    simp only [hmon, and_self, ite_true, htr, ids_removeConnection, h id]
    constructor
    · rintro ⟨hne, p, hp, rfl⟩
      exact ⟨p, ⟨fun e => hne (e ▸ rfl), hp⟩, rfl⟩
    · rintro ⟨p, ⟨hne, hp⟩, rfl⟩
      exact ⟨fun e => hne (setWidth_port_inj.mp e), p, hp, rfl⟩

theorem startTracking_listed (h : Listed s) (hi : Inv cfg s) (hmon : cfg.connectionMonitor = true) {os : Os}
    {pk : Packet} (v : Verdict) (he : s.table.entry pk.src = none) : Listed (s.startTracking cfg os pk v) := fun id => by
  have htr : ∀ p, (s.startTracking cfg os pk v).table.isTracked p = true ↔ p = pk.src ∨ s.table.isTracked p = true :=
    fun p => by
      rw [ConnectionTable.isTracked, ConnectionTable.isTracked]
      by_cases hp : p = pk.src
      · obtain ⟨e, hen, -⟩ := startTracking_entry_src cfg os v hi.onePerPort he
        simp [hp, hen]
      · rw [startTracking_entry_of_ne cfg os v hi.onePerPort he hp]
        simp [hp]
  simp only [startTracking_ids cfg os v hmon, h id, htr]
  constructor
  · rintro (rfl | ⟨p, hp, rfl⟩)
    · exact ⟨_, .inl rfl, rfl⟩
    · exact ⟨p, .inr hp, rfl⟩
  · rintro ⟨p, rfl | hp, rfl⟩
    · exact .inl rfl
    · exact .inr ⟨p, hp, rfl⟩

/-- Every step but a close by the relay keeps the lists equal. -/
theorem step_listed (hi : Inv cfg s) (hmon : cfg.connectionMonitor = true) (h : Listed s) {ev : Event}
    (hr : ¬ RelayClose cfg (stepOf (step cfg) ev s)) : Listed (step cfg ev s).1 := by
  cases ev with
  | other | recvFailed => exact h
  | setProxyConfig | setTargetProcess | setRules => exact h.congr rfl fun _ => rfl
  | packet os pk =>
    have h1 : Listed (s.step1 pk) := h.congr (step1_monitor pk s) fun p => by rw [step1_table]
    have hi1 := step1_inv hi pk
    obtain ⟨s', o, hst, hx⟩ := step_packet cfg os pk s
    rw [hst]
    cases hx with
    | ignored => exact h
    | cachedDirect => exact h.congr rfl fun _ => rfl
    | passed => exact h1
    | restored hf hrel ht e he =>
      have hcl : pk.closing = false := Bool.eq_false_iff.mpr fun hc =>
        hr ⟨os, pk, rfl, recvLen_of_route hst (by simp), hrel, hc, by
          show s.table.isTracked pk.dst = true
          rw [ConnectionTable.isTracked, he]; rfl⟩
      have he1 : (s.step1 pk).table.entry pk.dst = some e := step1_entry he
      refine h1.congr (relayed_monitor he1) fun p => ?_
      rw [ConnectionTable.isTracked, ConnectionTable.isTracked, relayed_entry he1 hi1.onePerPort]
      split
      · rename_i hp; simp [hcl, hp, he]
      · rfl
    | tracked hf hrel ht e he => exact forwarded_listed h1 hi1 hmon (step1_entry he)
    | direct | block => exact h1.congr rfl fun _ => rfl
    | proxy hu v c hv ha =>
      have hj : Listed { s.step1 pk with capture := c } := h1.congr rfl fun _ => rfl
      exact startTracking_listed hj (judged_inv hi hv) hmon v (step1_entry hu.entry)

/-- After the relay closed a connection the monitor still lists it. -/
theorem relayClose_not_listed (hi : Inv cfg s) (hmon : cfg.connectionMonitor = true) {ev : Event}
    (hr : RelayClose cfg (stepOf (step cfg) ev s)) : ¬ Listed (step cfg ev s).1 := by
  obtain ⟨os, pk, hin, hl, hsrc, hc, htr⟩ := hr
  cases hin
  have hin : pk.dst.setWidth 64 ∈ s.monitor.ids := hi.monitored hmon _ htr
  rw [step_relay hi os hl hsrc htr]
  obtain ⟨e, he⟩ := ConnectionTable.isTracked_iff.mp htr
  have he1 : (s.step1 pk).table.entry pk.dst = some e := step1_entry he
  intro hlist
  have hmem : pk.dst.setWidth 64 ∈ ((s.step1 pk).relayed pk).monitor.ids := by
    rw [relayed_monitor he1, step1_monitor]; exact hin
  obtain ⟨p, hp, heq⟩ := (hlist _).mp hmem
  rw [← setWidth_port_inj.mp heq, ConnectionTable.isTracked, relayed_entry he1 (step1_inv hi pk).onePerPort] at hp
  simp [hc] at hp

end

/-- With a monitor attached, in every state of a run the monitor lists the
tracked ports and no others, exactly if the relay closes no tracked
connection in it. -/
theorem monitor_lists_iff (cfg : Config) (path : WString) (host : Bytes) (port : BitVec 16) (rules : List Rule)
    (events : List Event) (hmon : cfg.connectionMonitor = true) :
    (∀ es, es <+: events → Listed (captureLoop cfg es (.init path host port rules))) ↔
      ∀ st ∈ loopTrace cfg events (.init path host port rules), ¬ RelayClose cfg st := by
  have hinit := inv_init cfg path host port rules
  constructor
  · intro h st hst hr
    obtain ⟨es, ev, rest, rfl, rfl⟩ := mem_trace_iff.mp hst
    have hes : es ++ [ev] <+: es ++ ev :: rest := ⟨rest, by simp⟩
    have hl := h _ hes
    rw [captureLoop, run_concat] at hl
    exact relayClose_not_listed (inv_captureLoop es hinit) hmon hr hl
  · intro h es hes
    refine (run_induct_of (P := fun s => Inv cfg s ∧ Listed s) (C := fun st => ¬ RelayClose cfg st)
      (fun ev s hs hc => ⟨step_inv cfg ev s hs.1, step_listed hs.1 hmon hs.2 hc⟩) es
      ⟨hinit, listed_init path host port rules⟩ fun st hst => h st (trace_prefix_subset hes _ hst)).2

/-- The lists agree all along a connection that its client closes. -/
theorem monitor_lists_clientClose : Demo.cfg.connectionMonitor = true ∧
    ∀ es, es <+: [.packet (Demo.owned 1000 8) { Demo.client 1000 0x04030201 443 with syn := true },
        .packet (Demo.owned 1000 8) { Demo.client 1000 0x04030201 443 with fin := true }] →
      Listed (captureLoop Demo.cfg es Demo.start) := by
  refine ⟨rfl, (monitor_lists_iff Demo.cfg [] (ascii "proxy") 3128 Demo.rules _ rfl).mpr fun st hst hr => ?_⟩
  obtain ⟨os, pk, hin, -, hsrc, -⟩ := hr
  simp only [loopTrace, trace, List.mem_cons, List.not_mem_nil, or_false] at hst
  rcases hst with rfl | rfl <;> cases hin <;> exact absurd hsrc (by decide)

/-- The relay's FIN takes a connection out of the table and leaves it in the
monitor. -/
theorem relayClose_still_listed :
    let s := captureLoop Demo.cfg [.packet (Demo.owned 1000 8) { Demo.client 1000 0x04030201 443 with syn := true },
      .packet {} { Demo.relay 1000 0x04030201 with fin := true }] Demo.start
    (1000 : BitVec 64) ∈ s.monitor.ids ∧ s.table.isTracked 1000 = false ∧ s.table.getTrackedCount = 0 ∧ ¬ Listed s := by
  have hm : (1000 : BitVec 64) ∈ (captureLoop Demo.cfg
      [.packet (Demo.owned 1000 8) { Demo.client 1000 0x04030201 443 with syn := true },
        .packet {} { Demo.relay 1000 0x04030201 with fin := true }] Demo.start).monitor.ids := by decide
  refine ⟨hm, by decide, by decide, fun h => ?_⟩
  obtain ⟨p, hp, heq⟩ := (h _).mp hm
  rw [← setWidth_port_inj.mp (show (1000 : BitVec 16).setWidth 64 = _ from heq)] at hp
  exact absurd hp (by decide)

end TR.Impl
