import TcpRedirector.Impl.Capture.CaptureLoop
import TcpRedirector.Proof.Capture.Bitmap
import TcpRedirector.Proof.ConnectionTable

/-!
# What one packet can do

The loop body's effect, once for each way through it (`Taken`,
`iteration_taken`): the state it leaves is written with `step1`, `relayed`,
`forwarded` and `startTracking`, and what these change of the table, the
bitmaps, the monitor and the PID cache is said by the lemmas on each.
-/

namespace TR.Impl

namespace Capture

variable (c : Capture) (cfg : Config) (os : Os) (rules : List Rule) (p : BitVec 16)

/-- `CheckProcessRule` changes only the PID cache and the target's process id. -/
structure SameDecisions (c c' : Capture) : Prop where
  portDecided : c'.portDecided = c.portDecided
  portDirect : c'.portDirect = c.portDirect
  totalRxBytes : c'.totalRxBytes = c.totalRxBytes
  totalTxBytes : c'.totalTxBytes = c.totalTxBytes

theorem findPidBySourcePort_same : SameDecisions c (c.findPidBySourcePort os p).2 := by
  rw [findPidBySourcePort]
  split
  · exact ⟨rfl, rfl, rfl, rfl⟩
  · split <;> exact ⟨rfl, rfl, rfl, rfl⟩

theorem judgePid_same (pid : BitVec 32) : SameDecisions c (c.judgePid cfg os rules pid).2 := by
  rw [judgePid]
  split
  · exact ⟨rfl, rfl, rfl, rfl⟩
  · split
    · exact ⟨rfl, rfl, rfl, rfl⟩
    · dsimp only
      split <;> (try split) <;> (try split) <;> exact ⟨rfl, rfl, rfl, rfl⟩

theorem checkProcessRule_same : SameDecisions c (c.checkProcessRule cfg os rules p).2 := by
  have hf := findPidBySourcePort_same c os p
  rw [checkProcessRule]
  generalize c.findPidBySourcePort os p = r at hf ⊢
  obtain ⟨pid, c'⟩ := r
  dsimp only at hf ⊢
  split
  · split
    · split <;> exact ⟨hf.1, hf.2, hf.3, hf.4⟩
    · exact hf
  · have hj := judgePid_same c' cfg os rules pid
    exact ⟨hj.1.trans hf.1, hj.2.trans hf.2, hj.3.trans hf.3, hj.4.trans hf.4⟩

/-- Past the owner nothing stores into the PID cache. -/
theorem judgePid_pidCache (pid : BitVec 32) : (c.judgePid cfg os rules pid).2.pidCache = c.pidCache := by
  rw [judgePid]
  split
  · rfl
  · split
    · rfl
    · dsimp only
      split <;> (try split) <;> (try split) <;> rfl

theorem checkProcessRule_pidCache :
    (c.checkProcessRule cfg os rules p).2.pidCache = (c.findPidBySourcePort os p).2.pidCache := by
  rw [checkProcessRule]
  generalize c.findPidBySourcePort os p = r
  obtain ⟨pid, c'⟩ := r
  dsimp only
  split
  · split
    · split <;> rfl
    · rfl
  · exact judgePid_pidCache c' cfg os rules pid

/-- What `CheckProcessRule` reads of the capture. -/
structure SameSources (c c' : Capture) : Prop where
  pidCache : c'.pidCache = c.pidCache
  targetProcessPath : c'.targetProcessPath = c.targetProcessPath
  targetPid : c'.targetPid = c.targetPid
  proxyHost : c'.proxyHost = c.proxyHost
  proxyPort : c'.proxyPort = c.proxyPort

section

variable {c} {c' : Capture} (h : SameSources c c')

include h

theorem cachedPid_congr : c'.cachedPid os p = c.cachedPid os p := by
  rw [cachedPid, cachedPid, h.pidCache]

theorem findPidBySourcePort_congr : (c'.findPidBySourcePort os p).1 = (c.findPidBySourcePort os p).1 ∧
    SameSources (c.findPidBySourcePort os p).2 (c'.findPidBySourcePort os p).2 := by
  rw [findPidBySourcePort, findPidBySourcePort, cachedPid_congr os p h, h.pidCache]
  cases c.cachedPid os p with
  | some pid => exact ⟨rfl, h⟩
  | none =>
    cases scanTcpTable os p with
    | some pid => exact ⟨rfl, rfl, h.targetProcessPath, h.targetPid, h.proxyHost, h.proxyPort⟩
    | none => exact ⟨rfl, h⟩

theorem judgePid_congr (pid : BitVec 32) : (c'.judgePid cfg os rules pid).1 = (c.judgePid cfg os rules pid).1 := by
  simp only [judgePid, proxyConfigured, h.targetProcessPath, h.targetPid, h.proxyHost, h.proxyPort]
  split
  · rfl
  · split
    · rfl
    · split
      · rfl
      · rfl
      · split
        · rfl
        · split <;> rfl

/-- The bitmaps and the counters have no say in the verdict. -/
theorem checkProcessRule_congr :
    (c'.checkProcessRule cfg os rules p).1 = (c.checkProcessRule cfg os rules p).1 := by
  obtain ⟨hpid, hs⟩ := findPidBySourcePort_congr os p h
  rw [checkProcessRule, checkProcessRule]
  generalize c'.findPidBySourcePort os p = r' at hpid hs
  generalize c.findPidBySourcePort os p = r at hpid hs
  obtain ⟨pid, c₁⟩ := r
  obtain ⟨pid', c₁'⟩ := r'
  simp only at hpid hs ⊢
  subst hpid
  split
  · simp only [hs.targetPid, hs.targetProcessPath]
    split <;> rfl
  · exact judgePid_congr cfg os rules hs pid'

end

end Capture

namespace System

/-- The packet is counted. -/
def counted (s : System) : System :=
  { s with capture := { s.capture with packetsCaptured := s.capture.packetsCaptured + 1 } }

/-- Step 1 sends the packet on: its port is cached as direct and it does not
close the connection. -/
def Fast (pk : Packet) (s : System) : Prop :=
  s.capture.isPortDecided pk.src = true ∧ s.capture.isPortDirect pk.src = true ∧ pk.closing = false

/-- The system after step 1. -/
def step1 (pk : Packet) (s : System) : System :=
  if s.capture.isPortDecided pk.src ∧ pk.closing then s.counted.clearPort pk.src else s.counted

/-- The system after step 2. -/
def relayed (pk : Packet) (s : System) : System := (s.relayResponse pk).1

/-- The system after step 3. -/
def forwarded (cfg : Config) (pk : Packet) (s : System) : System := (s.trackedPacket cfg pk).1

/-- Step 4 judges the packet. -/
structure Untracked (cfg : Config) (pk : Packet) (s : System) : Prop where
  slow : ¬ s.Fast pk
  src : pk.src ≠ cfg.relayPort
  attached : cfg.connTable = true
  entry : s.table.entry pk.src = none
  outbound : pk.outbound = true

/-- The ways through the loop body. -/
inductive Taken (cfg : Config) (os : Os) (pk : Packet) (s : System) : System → Outcome → Prop
  | ignored (hl : pk.recvLen = 0) : Taken cfg os pk s s {}
  | cachedDirect (hf : s.Fast pk) : Taken cfg os pk s s.counted ⟨.cachedDirect, some pk, false⟩
  | passed (hf : ¬ s.Fast pk)
      (hp : (pk.src = cfg.relayPort ∧ cfg.connTable = true ∧ s.table.entry pk.dst = none) ∨
        (pk.src ≠ cfg.relayPort ∧ s.table.entry pk.src = none ∧ pk.outbound = false) ∨ cfg.connTable = false) :
      Taken cfg os pk s (s.step1 pk) ⟨.passed, some pk, false⟩
  | restored (hf : ¬ s.Fast pk) (hr : pk.src = cfg.relayPort) (ht : cfg.connTable = true) (e : ConnectionEntry)
      (he : s.table.entry pk.dst = some e) :
      Taken cfg os pk s ((s.step1 pk).relayed pk) ⟨.restored, some (restoreFromRelay s.table pk), true⟩
  | tracked (hf : ¬ s.Fast pk) (hr : pk.src ≠ cfg.relayPort) (ht : cfg.connTable = true) (e : ConnectionEntry)
      (he : s.table.entry pk.src = some e) :
      Taken cfg os pk s ((s.step1 pk).forwarded cfg pk) ⟨.tracked, some (modifyDstToRelay cfg pk), true⟩
  | direct (hu : s.Untracked cfg pk) (v : Verdict) (c : Capture)
      (hv : (s.step1 pk).capture.checkProcessRule cfg os s.rules pk.src = (v, c)) (ha : v.action = .direct) :
      Taken cfg os pk s { s.step1 pk with capture := c.setPortDirect pk.src } ⟨.judged .direct, some pk, false⟩
  | block (hu : s.Untracked cfg pk) (v : Verdict) (c : Capture)
      (hv : (s.step1 pk).capture.checkProcessRule cfg os s.rules pk.src = (v, c)) (ha : v.action = .block) :
      Taken cfg os pk s { s.step1 pk with capture := c.setPortDecided pk.src } ⟨.judged .block, none, false⟩
  | proxy (hu : s.Untracked cfg pk) (v : Verdict) (c : Capture)
      (hv : (s.step1 pk).capture.checkProcessRule cfg os s.rules pk.src = (v, c)) (ha : v.action = .proxy) :
      Taken cfg os pk s ({ s.step1 pk with capture := c }.startTracking cfg os pk v)
        ⟨.judged .proxy, some (modifyDstToRelay cfg pk), true⟩

/-! ## Step 1 -/

section Step1

variable (pk : Packet) (s : System)

@[simp] theorem step1_table : (s.step1 pk).table = s.table := by rw [step1]; split <;> rfl

variable {pk s} in
theorem step1_entry {q : BitVec 16} {x : Option ConnectionEntry} (h : s.table.entry q = x) :
    (s.step1 pk).table.entry q = x := by rw [step1_table, h]

@[simp] theorem step1_monitor : (s.step1 pk).monitor = s.monitor := by rw [step1]; split <;> rfl

@[simp] theorem step1_rules : (s.step1 pk).rules = s.rules := by rw [step1]; split <;> rfl

@[simp] theorem step1_totalRxBytes : (s.step1 pk).capture.totalRxBytes = s.capture.totalRxBytes := by
  rw [step1]; split <;> rfl

@[simp] theorem step1_totalTxBytes : (s.step1 pk).capture.totalTxBytes = s.capture.totalTxBytes := by
  rw [step1]; split <;> rfl

theorem step1_sources : Capture.SameSources s.capture (s.step1 pk).capture := by
  rw [step1]; split <;> exact ⟨rfl, rfl, rfl, rfl, rfl⟩

theorem step1_isPortDecided (q : BitVec 16) :
    (s.step1 pk).capture.isPortDecided q = (!(decide (q = pk.src) && pk.closing) && s.capture.isPortDecided q) := by
  rw [step1]
  split
  · rename_i h
    show (s.capture.clearPort pk.src).isPortDecided q = _
    simp [h.2]
  · rename_i h
    show s.capture.isPortDecided q = _
    by_cases hq : q = pk.src
    · subst hq
      cases hd : s.capture.isPortDecided pk.src <;> simp_all
    · simp [hq]

theorem step1_isPortDirect (hd : ∀ q, s.capture.isPortDirect q = true → s.capture.isPortDecided q = true)
    (q : BitVec 16) :
    (s.step1 pk).capture.isPortDirect q = (!(decide (q = pk.src) && pk.closing) && s.capture.isPortDirect q) := by
  rw [step1]
  split
  · rename_i h
    show (s.capture.clearPort pk.src).isPortDirect q = _
    simp [h.2]
  · rename_i h
    show s.capture.isPortDirect q = _
    by_cases hq : q = pk.src
    · subst hq
      have := hd pk.src
      cases hd : s.capture.isPortDirect pk.src <;> simp_all
    · simp [hq]

end Step1

/-- The packet as it comes from port `q`, swapped unless it stays on
loopback addresses. -/
def restoredAs (q : BitVec 16) (pk : Packet) : Packet :=
  if isLocalhostPair pk then { pk with srcPort := htons q } else swapIpAndDirection { pk with srcPort := htons q }

theorem restoreFromRelay_of_get {t : ConnectionTable} {pk : Packet} {ip : BitVec 32} {q : BitVec 16}
    (h : t.get pk.dst = some (ip, q)) : restoreFromRelay t pk = restoredAs q pk := by
  rw [restoreFromRelay, h]; rfl

theorem restoredAs_srcPort (q : BitVec 16) (pk : Packet) : (restoredAs q pk).srcPort = htons q := by
  rw [restoredAs]; split <;> rfl

theorem relayResponse_eq {pk : Packet} {s : System} {e : ConnectionEntry} (he : s.table.entry pk.dst = some e) :
    s.relayResponse pk = (s.relayed pk, ⟨.restored, some (restoreFromRelay s.table pk), true⟩) := by
  have hg : s.table.get pk.dst = some (e.origDestIp, e.origDestPort) := by rw [ConnectionTable.get, he]; rfl
  simp only [relayed, relayResponse, hg]

theorem trackedPacket_eq (cfg : Config) (pk : Packet) (s : System) :
    s.trackedPacket cfg pk = (s.forwarded cfg pk, ⟨.tracked, some (modifyDstToRelay cfg pk), true⟩) := rfl

theorem untrackedPacket_taken {cfg : Config} (os : Os) {pk : Packet} {s : System} (hu : s.Untracked cfg pk) :
    Taken cfg os pk s ((s.step1 pk).untrackedPacket cfg os pk).1 ((s.step1 pk).untrackedPacket cfg os pk).2 := by
  cases hv : (s.step1 pk).capture.checkProcessRule cfg os (s.step1 pk).rules pk.src with
  | mk v c =>
    have hv' := hv
    rw [step1_rules] at hv'
    rw [untrackedPacket, hv]
    cases ha : v.action with
    | direct => simpa only [ha] using Taken.direct hu v c hv' ha
    | block => simpa only [ha] using Taken.block hu v c hv' ha
    | proxy => simpa only [ha] using Taken.proxy hu v c hv' ha

/-- Steps 2 to 4, by the entries of the table. -/
theorem steps_taken (cfg : Config) (os : Os) {pk : Packet} {s : System} (hf : ¬ s.Fast pk) :
    Taken cfg os pk s ((s.step1 pk).steps cfg os pk).1 ((s.step1 pk).steps cfg os pk).2 := by
  have htr : (s.step1 pk).table.isTracked pk.src = (s.table.entry pk.src).isSome := by
    rw [step1_table, ConnectionTable.isTracked]
  rw [steps]
  cases ht : cfg.connTable with
  | false => simpa [ht] using Taken.passed hf (.inr (.inr ht))
  | true =>
    by_cases hr : pk.src = cfg.relayPort
    · simp only [hr, and_self, ite_true]
      cases he : s.table.entry pk.dst with
      | none =>
        have hg : (s.step1 pk).table.get pk.dst = none := by rw [step1_table, ConnectionTable.get, he]; rfl
        rw [relayResponse, hg]
        exact .passed hf (.inl ⟨hr, ht, he⟩)
      | some e =>
        rw [relayResponse_eq (e := e) (by rw [step1_table, he]), step1_table]
        exact .restored hf hr ht e he
    · simp only [hr, false_and, ite_false, htr]
      cases he : s.table.entry pk.src with
      | some e =>
        simp only [Option.isSome_some, and_self, ite_true, trackedPacket_eq]
        exact .tracked hf hr ht e he
      | none =>
        cases ho : pk.outbound with
        | false => simpa [ho] using Taken.passed hf (.inr (.inl ⟨hr, he, ho⟩))
        | true =>
          simp only [Option.isSome_none, Bool.false_eq_true, and_false, ite_false, Bool.not_false, and_self, ite_true]
          exact untrackedPacket_taken os ⟨hf, hr, ht, he, ho⟩

theorem iteration_fast (cfg : Config) (os : Os) {pk : Packet} {s : System} (hl : pk.recvLen ≠ 0) (hf : s.Fast pk) :
    s.iteration cfg os pk = (s.counted, ⟨.cachedDirect, some pk, false⟩) := by
  obtain ⟨hd, hdir, hc⟩ := hf
  have hd' : s.counted.capture.isPortDecided pk.src = true := hd
  have hdir' : s.counted.capture.isPortDirect pk.src = true := hdir
  rw [iteration, if_neg hl]
  simp only [counted] at hd' hdir' ⊢
  simp only [hd', hdir', hc, Bool.false_eq_true, ite_false, ite_true]

theorem iteration_slow (cfg : Config) (os : Os) {pk : Packet} {s : System} (hl : pk.recvLen ≠ 0) (hf : ¬ s.Fast pk) :
    s.iteration cfg os pk = (s.step1 pk).steps cfg os pk := by
  rw [iteration, if_neg hl]
  show (if s.capture.isPortDecided pk.src = true then
      if (if pk.closing = true then s.counted.clearPort pk.src else s.counted).capture.isPortDirect pk.src = true then _
      else (if pk.closing = true then s.counted.clearPort pk.src else s.counted).steps cfg os pk
    else s.counted.steps cfg os pk) = _
  rw [step1]
  by_cases hd : s.capture.isPortDecided pk.src = true
  · by_cases hc : pk.closing = true
    · have hcl : (s.counted.clearPort pk.src).capture.isPortDirect pk.src = false := by
        show (s.counted.capture.clearPort pk.src).isPortDirect pk.src = false
        simp
      simp only [hd, hc, hcl, and_self, ite_true, Bool.false_eq_true, ite_false]
    · have hdir : s.counted.capture.isPortDirect pk.src = false :=
        Bool.eq_false_iff.mpr fun h => hf ⟨hd, h, Bool.eq_false_iff.mpr hc⟩
      simp only [hd, hc, hdir, and_false, Bool.false_eq_true, ite_false, ite_true]
  · simp only [hd, Bool.false_eq_true, false_and, ite_false]

/-- The loop body takes one of the ways. -/
theorem iteration_taken (cfg : Config) (os : Os) (pk : Packet) (s : System) :
    Taken cfg os pk s (s.iteration cfg os pk).1 (s.iteration cfg os pk).2 := by
  by_cases hl : pk.recvLen = 0
  · rw [iteration, if_pos hl]
    exact .ignored hl
  by_cases hf : s.Fast pk
  · rw [iteration_fast cfg os hl hf]
    exact .cachedDirect hf
  · rw [iteration_slow cfg os hl hf]
    exact steps_taken cfg os hf

/-- A packet's step is one of the ways. -/
theorem step_packet (cfg : Config) (os : Os) (pk : Packet) (s : System) :
    ∃ s' o, step cfg (.packet os pk) s = (s', o) ∧ Taken cfg os pk s s' o :=
  ⟨_, _, rfl, iteration_taken cfg os pk s⟩

/-- A packet that went somewhere is not empty. -/
theorem recvLen_of_route {cfg : Config} {os : Os} {pk : Packet} {s s' : System} {o : Outcome}
    (h : step cfg (.packet os pk) s = (s', o)) (ho : o.route ≠ .none) : pk.recvLen ≠ 0 := fun hl => by
  rw [step, iteration, if_pos hl] at h
  exact ho (congrArg (·.2.route) h.symm)

/-- Step 4 follows the verdict. -/
theorem route_untracked {cfg : Config} (os : Os) {pk : Packet} {s : System} (hu : s.Untracked cfg pk)
    (hl : pk.recvLen ≠ 0) :
    (step cfg (.packet os pk) s).2.route = .judged (s.capture.checkProcessRule cfg os s.rules pk.src).1.action := by
  obtain ⟨s', o, hst, hx⟩ := step_packet cfg os pk s
  rw [hst, ← Capture.checkProcessRule_congr cfg os s.rules pk.src (step1_sources pk s)]
  cases hx with
  | ignored h => exact absurd h hl
  | cachedDirect h => exact absurd h hu.slow
  | passed _ hp =>
    rcases hp with ⟨h, -⟩ | ⟨-, -, h⟩ | h
    · exact absurd h hu.src
    · rw [hu.outbound] at h; cases h
    · rw [hu.attached] at h; cases h
  | restored _ h => exact absurd h hu.src
  | tracked _ _ _ e h => rw [hu.entry] at h; cases h
  | direct _ v c hv ha | block _ v c hv ha | proxy _ v c hv ha => rw [hv, ha]

/-- Only step 4 judges a packet. -/
theorem untracked_of_judged {cfg : Config} {os : Os} {pk : Packet} {s : System} {a : Action}
    (h : (step cfg (.packet os pk) s).2.route = .judged a) : pk.recvLen ≠ 0 ∧ s.Untracked cfg pk := by
  obtain ⟨s', o, hst, hx⟩ := step_packet cfg os pk s
  have hl : pk.recvLen ≠ 0 := recvLen_of_route hst fun ho => by rw [hst, ho] at h; cases h
  rw [hst] at h
  cases hx with
  | direct hu | block hu | proxy hu => exact ⟨hl, hu⟩
  | _ => cases h

/-- The packet is sent to the relay. -/
structure Redirects (cfg : Config) (os : Os) (pk : Packet) (s : System) : Prop where
  received : pk.recvLen ≠ 0
  slow : ¬ s.Fast pk
  src : pk.src ≠ cfg.relayPort
  attached : cfg.connTable = true
  reason : s.table.isTracked pk.src = true ∨
    (pk.outbound = true ∧ (s.capture.checkProcessRule cfg os s.rules pk.src).1.action = .proxy)

theorem towardsRelay_iff (cfg : Config) (os : Os) (pk : Packet) (s : System) :
    (step cfg (.packet os pk) s).2.route.towardsRelay = true ↔ s.Redirects cfg os pk := by
  constructor
  · intro h
    obtain ⟨s', o, hst, hx⟩ := step_packet cfg os pk s
    have hl : pk.recvLen ≠ 0 := recvLen_of_route hst fun ho => by rw [hst, ho] at h; cases h
    rw [hst] at h
    cases hx with
    | tracked hf hr ht e he => exact ⟨hl, hf, hr, ht, .inl (by rw [ConnectionTable.isTracked, he]; rfl)⟩
    | proxy hu v c hv ha =>
      refine ⟨hl, hu.slow, hu.src, hu.attached, .inr ⟨hu.outbound, ?_⟩⟩
      rw [← Capture.checkProcessRule_congr cfg os s.rules pk.src (step1_sources pk s), hv, ha]
    | _ => cases h
  · intro h
    cases he : s.table.entry pk.src with
    | none =>
      rcases h.reason with htr | ⟨ho, ha⟩
      · simp [ConnectionTable.isTracked, he] at htr
      · rw [route_untracked os ⟨h.slow, h.src, h.attached, he, ho⟩ h.received, ha]; rfl
    | some e =>
      obtain ⟨s', o, hst, hx⟩ := step_packet cfg os pk s
      rw [hst]
      cases hx with
      | tracked => rfl
      | ignored hl => exact absurd hl h.received
      | cachedDirect hf => exact absurd hf h.slow
      | passed _ hp =>
        rcases hp with ⟨hr, -⟩ | ⟨-, hn, -⟩ | ht
        · exact absurd hr h.src
        · rw [he] at hn; cases hn
        · rw [h.attached] at ht; cases ht
      | restored _ hr => exact absurd hr h.src
      | direct hu | block hu | proxy hu => rw [hu.entry] at he; cases he

/-! ## Closing a connection -/

section Account

variable (s : System) (p : BitVec 16)

@[simp] theorem account_table : (s.account p).table = s.table := by rw [account]; split <;> rfl

@[simp] theorem account_monitor : (s.account p).monitor = s.monitor := by rw [account]; split <;> rfl

@[simp] theorem account_isPortDecided (q : BitVec 16) :
    (s.account p).capture.isPortDecided q = s.capture.isPortDecided q := by rw [account]; split <;> rfl

@[simp] theorem account_isPortDirect (q : BitVec 16) :
    (s.account p).capture.isPortDirect q = s.capture.isPortDirect q := by rw [account]; split <;> rfl

@[simp] theorem account_pidCache : (s.account p).capture.pidCache = s.capture.pidCache := by rw [account]; split <;> rfl

variable {s p} {e : ConnectionEntry} (he : s.table.entry p = some e)

include he

theorem account_eq : s.account p = { s with capture := { s.capture with
    totalRxBytes := s.capture.totalRxBytes + e.bytesUp, totalTxBytes := s.capture.totalTxBytes + e.bytesDown } } := by
  rw [account, ConnectionTable.getInfo, he]
  rfl

end Account

/-! ## Step 2 -/

section Relayed

variable {pk : Packet} {s : System} {e : ConnectionEntry} (he : s.table.entry pk.dst = some e)

include he

theorem relayed_eq : s.relayed pk =
    let t := s.table.addBytes pk.dst 0 (pk.recvLen.setWidth 64)
    if pk.closing then ({ { s with table := t }.account pk.dst with table := t.remove pk.dst }).clearPort pk.dst
    else { s with table := t } := by
  have hg : s.table.get pk.dst = some (e.origDestIp, e.origDestPort) := by rw [ConnectionTable.get, he]; rfl
  simp only [relayed, relayResponse, hg, account_table]

theorem relayed_table : (s.relayed pk).table =
    if pk.closing then (s.table.addBytes pk.dst 0 (pk.recvLen.setWidth 64)).remove pk.dst
    else s.table.addBytes pk.dst 0 (pk.recvLen.setWidth 64) := by
  rw [relayed_eq he]; dsimp only; split <;> rfl

theorem relayed_monitor : (s.relayed pk).monitor = s.monitor := by
  rw [relayed_eq he]; dsimp only; split
  · exact account_monitor _ _
  · rfl

theorem relayed_isPortDecided (q : BitVec 16) : (s.relayed pk).capture.isPortDecided q =
    (!(decide (q = pk.dst) && pk.closing) && s.capture.isPortDecided q) := by
  rw [relayed_eq he]; dsimp only; split
  · rename_i h
    simp only [clearPort, Capture.isPortDecided_clearPort, account_isPortDecided, h, Bool.and_true]
  · rename_i h; simp [h]

theorem relayed_isPortDirect (q : BitVec 16) : (s.relayed pk).capture.isPortDirect q =
    (!(decide (q = pk.dst) && pk.closing) && s.capture.isPortDirect q) := by
  rw [relayed_eq he]; dsimp only; split
  · rename_i h
    simp only [clearPort, Capture.isPortDirect_clearPort, account_isPortDirect, h, Bool.and_true]
  · rename_i h; simp [h]

theorem relayed_pidCache : (s.relayed pk).capture.pidCache = s.capture.pidCache := by
  rw [relayed_eq he]; dsimp only; split
  · exact account_pidCache _ _
  · rfl

theorem relayed_onePerPort (h : s.table.OnePerPort) : (s.relayed pk).table.OnePerPort := by
  have ha := ConnectionTable.addBytes_onePerPort h (p := pk.dst) 0 (pk.recvLen.setWidth 64)
  rw [relayed_table he]; split
  · exact ConnectionTable.remove_onePerPort ha
  · exact ha

theorem relayed_entry (h : s.table.OnePerPort) (q : BitVec 16) : (s.relayed pk).table.entry q =
    if q = pk.dst then
      if pk.closing then none else some { e with bytesDown := e.bytesDown + pk.recvLen.setWidth 64 }
    else s.table.entry q := by
  have ha := ConnectionTable.addBytes_onePerPort h (p := pk.dst) 0 (pk.recvLen.setWidth 64)
  rw [relayed_table he]
  split
  · rw [ConnectionTable.entry_remove ha, ConnectionTable.entry_addBytes]
    split <;> rfl
  · rw [ConnectionTable.entry_addBytes, he]
    simp

end Relayed

/-! ## Step 3 -/

section Forwarded

variable (cfg : Config) {pk : Packet} {s : System}

theorem forwarded_table : (s.forwarded cfg pk).table =
    if pk.closing then (s.table.addBytes pk.src (pk.recvLen.setWidth 64) 0).remove pk.src
    else s.table.addBytes pk.src (pk.recvLen.setWidth 64) 0 := by
  simp only [forwarded, trackedPacket]
  split <;> (try split) <;> simp [clearPort]

theorem forwarded_monitor : (s.forwarded cfg pk).monitor =
    if pk.closing ∧ cfg.connectionMonitor then s.monitor.removeConnection (pk.src.setWidth 64) else s.monitor := by
  simp only [forwarded, trackedPacket]
  cases pk.closing <;> cases cfg.connectionMonitor <;> simp [clearPort]

theorem forwarded_isPortDecided (q : BitVec 16) : (s.forwarded cfg pk).capture.isPortDecided q =
    (!(decide (q = pk.src) && pk.closing) && s.capture.isPortDecided q) := by
  simp only [forwarded, trackedPacket]
  cases hc : pk.closing
  · simp
  · simp only [ite_true, clearPort, Capture.isPortDecided_clearPort, Bool.and_true]
    refine congrArg _ (Eq.trans ?_ (account_isPortDecided
      { s with table := s.table.addBytes pk.src (pk.recvLen.setWidth 64) 0 } pk.src q))
    cases cfg.connectionMonitor <;> rfl

theorem forwarded_isPortDirect (q : BitVec 16) : (s.forwarded cfg pk).capture.isPortDirect q =
    (!(decide (q = pk.src) && pk.closing) && s.capture.isPortDirect q) := by
  simp only [forwarded, trackedPacket]
  cases hc : pk.closing
  · simp
  · simp only [ite_true, clearPort, Capture.isPortDirect_clearPort, Bool.and_true]
    refine congrArg _ (Eq.trans ?_ (account_isPortDirect
      { s with table := s.table.addBytes pk.src (pk.recvLen.setWidth 64) 0 } pk.src q))
    cases cfg.connectionMonitor <;> rfl

theorem forwarded_pidCache : (s.forwarded cfg pk).capture.pidCache = s.capture.pidCache := by
  simp only [forwarded, trackedPacket]
  cases pk.closing
  · rfl
  · refine Eq.trans ?_ (account_pidCache
      { s with table := s.table.addBytes pk.src (pk.recvLen.setWidth 64) 0 } pk.src)
    cases cfg.connectionMonitor <;> rfl

theorem forwarded_onePerPort (h : s.table.OnePerPort) : (s.forwarded cfg pk).table.OnePerPort := by
  have ha := ConnectionTable.addBytes_onePerPort h (p := pk.src) (pk.recvLen.setWidth 64) 0
  rw [forwarded_table]; split
  · exact ConnectionTable.remove_onePerPort ha
  · exact ha

theorem forwarded_entry (h : s.table.OnePerPort) {e : ConnectionEntry} (he : s.table.entry pk.src = some e)
    (q : BitVec 16) : (s.forwarded cfg pk).table.entry q =
    if q = pk.src then
      if pk.closing then none else some { e with bytesUp := e.bytesUp + pk.recvLen.setWidth 64 }
    else s.table.entry q := by
  have ha := ConnectionTable.addBytes_onePerPort h (p := pk.src) (pk.recvLen.setWidth 64) 0
  rw [forwarded_table]
  split
  · rw [ConnectionTable.entry_remove ha, ConnectionTable.entry_addBytes]
    split <;> rfl
  · rw [ConnectionTable.entry_addBytes, he]
    simp

end Forwarded

/-! ## Step 4, PROXY -/

section StartTracking

variable (cfg : Config) (os : Os) {pk : Packet} (v : Verdict) {s : System}

theorem startTracking_isPortDecided (q : BitVec 16) : (s.startTracking cfg os pk v).capture.isPortDecided q =
    (decide (q = pk.src) || s.capture.isPortDecided q) := Capture.isPortDecided_setPortDecided ..

theorem startTracking_isPortDirect (q : BitVec 16) :
    (s.startTracking cfg os pk v).capture.isPortDirect q = s.capture.isPortDirect q := rfl

theorem startTracking_ids (h : cfg.connectionMonitor = true) (id : BitVec 64) :
    id ∈ (s.startTracking cfg os pk v).monitor.ids ↔ id = pk.src.setWidth 64 ∨ id ∈ s.monitor.ids := by
  simp only [startTracking, h, ite_true, ConnectionTracker.ids, ConnectionTracker.addConnection]
  exact AList.mem_insert ..

theorem startTracking_onePerPort (h : s.table.OnePerPort) (hp : s.table.entry pk.src = none) :
    (s.startTracking cfg os pk v).table.OnePerPort := by
  have ha := ConnectionTable.add_onePerPort h hp pk.srcAddr pk.dstAddr pk.dst v.proxyConfigId
  simp only [startTracking]
  split
  · exact ConnectionTable.setProcessInfo_onePerPort ha _ _
  · exact ha

/-- The new entry records where the packet was going and has counted nothing. -/
theorem startTracking_entry_src (h : s.table.OnePerPort) (hp : s.table.entry pk.src = none) :
    ∃ e, (s.startTracking cfg os pk v).table.entry pk.src = some e ∧ e.origDestIp = pk.dstAddr ∧
      e.origDestPort = pk.dst := by
  simp only [startTracking]
  split
  · rw [ConnectionTable.entry_setProcessInfo, ConnectionTable.entry_add h hp, if_pos rfl, if_pos rfl]
    exact ⟨_, rfl, rfl, rfl⟩
  · rw [ConnectionTable.entry_add h hp, if_pos rfl]
    exact ⟨_, rfl, rfl, rfl⟩

theorem startTracking_entry_of_ne (h : s.table.OnePerPort) (hp : s.table.entry pk.src = none) {q : BitVec 16}
    (hq : q ≠ pk.src) : (s.startTracking cfg os pk v).table.entry q = s.table.entry q := by
  simp only [startTracking]
  split
  · rw [ConnectionTable.entry_setProcessInfo, if_neg hq, ConnectionTable.entry_add h hp, if_neg hq]
  · rw [ConnectionTable.entry_add h hp, if_neg hq]

end StartTracking

end System

end TR.Impl
