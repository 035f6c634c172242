import Mathlib.Algebra.BigOperators.Pi
import Mathlib.Data.BitVec
import TcpRedirector.Proof.Capture.Invariant

/-!
# Every byte is counted once

The bytes of an open connection stand in its entry and those of a closed one
in the totals. What a step adds to both together is the length of the packet
that step 3 forwarded or step 2 restored (`step_up`, `step_down`); with one
entry for each port, which is the one that `AddBytes`, `GetInfo` and `Remove`
all find, nothing is counted twice (`bytes_conserved`).
-/

namespace TR.Impl

open TR.Impl.System

/-- The bytes an entry counts, from the client and to it. -/
def ConnectionEntry.bytes (e : ConnectionEntry) : BitVec 64 × BitVec 64 := (e.bytesUp, e.bytesDown)

/-- The bytes counted: the closed connections' and the open ones'. -/
def System.bytes (s : System) : BitVec 64 × BitVec 64 :=
  (s.capture.totalRxBytes, s.capture.totalTxBytes) + s.table.total (·.bytes)

/-- The length of the packet of a step that took route `r`. -/
def lengthOn (r : Route) (st : LoopStep) : BitVec 64 :=
  match st.input with
  | .packet _ pk => if st.out.route = r then pk.recvLen.setWidth 64 else 0
  | _ => 0

/-- The bytes a step has to count. -/
def stepBytes (st : LoopStep) : BitVec 64 × BitVec 64 := (lengthOn .tracked st, lengthOn .restored st)

theorem ConnectionTable.total_addBytes (t : ConnectionTable) (p : BitVec 16) (up down : BitVec 64) :
    (t.addBytes p up down).total (·.bytes) = t.total (·.bytes) + if t.isTracked p then (up, down) else 0 :=
  total_modify _ fun _ => rfl

theorem ConnectionTable.total_setProcessInfo (t : ConnectionTable) (p : BitVec 16) (pid : BitVec 32)
    (procPath : WString) : (t.setProcessInfo p pid procPath).total (·.bytes) = t.total (·.bytes) := by
  have h := t.total_modify (p := p) (d := 0) (·.bytes) (f := fun e => { e with pid, procPath })
    fun e => by simp [ConnectionEntry.bytes]
  rw [setProcessInfo]
  simpa using h

section

variable {cfg : Config} {s : System}

/-- Closing a connection moves its bytes to the totals. -/
theorem account_bytes (h : s.table.OnePerPort) (p : BitVec 16) :
    System.bytes { s.account p with table := s.table.remove p } = s.bytes := by
  rw [System.bytes, System.bytes, ConnectionTable.total_remove (·.bytes) h (p := p)]
  cases he : s.table.entry p with
  | none => simp [account, ConnectionTable.getInfo, he]
  | some e => simp [account_eq he, ConnectionEntry.bytes, ← add_assoc]

theorem step1_bytes (pk : Packet) (s : System) : (s.step1 pk).bytes = s.bytes := by
  rw [System.bytes, step1_totalRxBytes, step1_totalTxBytes, step1_table]; rfl

/-- `CheckProcessRule` counts nothing. -/
theorem judged_bytes {os : Os} {pk : Packet} {v : Verdict} {c : Capture}
    (hv : (s.step1 pk).capture.checkProcessRule cfg os s.rules pk.src = (v, c)) :
    System.bytes { s.step1 pk with capture := c } = s.bytes := by
  have hs := Capture.checkProcessRule_same (s.step1 pk).capture cfg os s.rules pk.src
  rw [hv] at hs
  rw [← step1_bytes pk s, System.bytes, System.bytes, hs.totalRxBytes, hs.totalTxBytes]

/-- `AddBytes` counts for a tracked port. -/
theorem addBytes_bytes {p : BitVec 16} {e : ConnectionEntry} (he : s.table.entry p = some e) (up down : BitVec 64) :
    System.bytes { s with table := s.table.addBytes p up down } = s.bytes + (up, down) := by
  rw [System.bytes, ConnectionTable.total_addBytes, ConnectionTable.isTracked, he, Option.isSome_some, if_pos rfl,
    ← add_assoc]
  rfl

theorem relayed_bytes (h : s.table.OnePerPort) {pk : Packet} {e : ConnectionEntry}
    (he : s.table.entry pk.dst = some e) : (s.relayed pk).bytes = s.bytes + (0, pk.recvLen.setWidth 64) := by
  have hadd := addBytes_bytes he 0 (pk.recvLen.setWidth 64)
  rw [relayed_eq he]
  dsimp only
  split
  · exact (account_bytes (ConnectionTable.addBytes_onePerPort h 0 _) pk.dst).trans hadd
  · exact hadd

theorem forwarded_bytes (h : s.table.OnePerPort) {pk : Packet} {e : ConnectionEntry}
    (he : s.table.entry pk.src = some e) : (s.forwarded cfg pk).bytes = s.bytes + (pk.recvLen.setWidth 64, 0) := by
  have hadd := addBytes_bytes he (pk.recvLen.setWidth 64) 0
  rw [forwarded, trackedPacket]
  dsimp only
  split
  · refine Eq.trans ?_ ((account_bytes (ConnectionTable.addBytes_onePerPort h (p := pk.src) _ 0) pk.src).trans hadd)
    split <;> simp only [System.bytes, account_table] <;> rfl
  · exact hadd

theorem startTracking_bytes (h : s.table.OnePerPort) {os : Os} {pk : Packet} {v : Verdict}
    (he : s.table.entry pk.src = none) : (s.startTracking cfg os pk v).bytes = s.bytes := by
  have hadd := ConnectionTable.total_add (·.bytes) h he pk.srcAddr pk.dstAddr pk.dst v.proxyConfigId
  have htot : (s.startTracking cfg os pk v).table.total (·.bytes) = s.table.total (·.bytes) := by
    rw [startTracking]
    dsimp only
    split
    · rw [ConnectionTable.total_setProcessInfo, hadd]; exact zero_add _
    · rw [hadd]; exact zero_add _
  rw [System.bytes, htot]; rfl

/-- What a step adds to the bytes counted. -/
theorem step_bytes (h : Inv cfg s) (ev : Event) :
    (step cfg ev s).1.bytes = s.bytes + stepBytes (stepOf (step cfg) ev s) := by
  cases ev with
  | other | recvFailed | setProxyConfig | setTargetProcess | setRules => exact (add_zero s.bytes).symm
  | packet os pk =>
    have h1 := step1_inv h pk
    obtain ⟨s', o, hst, hx⟩ := step_packet cfg os pk s
    rw [stepOf, hst]
    cases hx with
    | ignored | cachedDirect => exact (add_zero s.bytes).symm
    | passed => exact (step1_bytes pk s).trans (add_zero s.bytes).symm
    | restored _ _ _ e he =>
      rw [relayed_bytes h1.onePerPort (step1_entry he), step1_bytes]; rfl
    | tracked _ _ _ e he =>
      rw [forwarded_bytes h1.onePerPort (step1_entry he), step1_bytes]; rfl
    | direct _ v c hv | block _ v c hv => exact (judged_bytes hv).trans (add_zero s.bytes).symm
    | proxy hu v c hv =>
      rw [startTracking_bytes (judged_inv h hv).onePerPort (step1_entry hu.entry), judged_bytes hv]
      exact (add_zero s.bytes).symm

end

/-- The bytes counted after a run are the bytes of its steps. -/
theorem captureLoop_bytes (cfg : Config) (events : List Event) {s : System} (h : Inv cfg s) :
    (captureLoop cfg events s).bytes = s.bytes + ((loopTrace cfg events s).map stepBytes).sum := by
  induction events generalizing s with
  | nil => exact (add_zero s.bytes).symm
  | cons ev events ih =>
    rw [captureLoop, run, ← captureLoop, ih (step_inv cfg ev s h), step_bytes h, add_assoc]
    rfl

theorem ConnectionTable.total_bytes (t : ConnectionTable) :
    t.total (·.bytes) = (t.total (·.bytesUp), t.total (·.bytesDown)) := by
  have hl (l : List ConnectionEntry) :
      (l.map (·.bytes)).sum = ((l.map (·.bytesUp)).sum, (l.map (·.bytesDown)).sum) := by
    induction l with
    | nil => rfl
    | cons e l ih => simp only [List.map_cons, List.sum_cons, ih]; rfl
  simp only [total, hl, Prod.ext_iff, Prod.fst_sum, Prod.snd_sum, and_self]

theorem sum_stepBytes (tr : List LoopStep) :
    (tr.map stepBytes).sum = ((tr.map (lengthOn .tracked)).sum, (tr.map (lengthOn .restored)).sum) := by
  induction tr with
  | nil => rfl
  | cons st tr ih => simp only [List.map_cons, List.sum_cons, ih]; rfl

/-- After every run the totals and the entries together have counted, modulo
2^64, each packet that step 3 forwarded, and each one that step 2 restored,
once; and the table holds one entry for each port at most. -/
theorem bytes_conserved (cfg : Config) (path : WString) (host : Bytes) (port : BitVec 16) (rules : List Rule)
    (events : List Event) :
    let s := captureLoop cfg events (.init path host port rules)
    let tr := loopTrace cfg events (.init path host port rules)
    s.capture.totalRxBytes + s.table.total (·.bytesUp) = (tr.map (lengthOn .tracked)).sum ∧
      s.capture.totalTxBytes + s.table.total (·.bytesDown) = (tr.map (lengthOn .restored)).sum ∧
      s.table.OnePerPort := by
  intro s tr
  have hinit := inv_init cfg path host port rules
  have h := captureLoop_bytes cfg events hinit
  have h0 : (System.init path host port rules).bytes = 0 := by
    rw [System.bytes, show (System.init path host port rules).table = .empty from rfl, ConnectionTable.total_empty]
    rfl
  rw [h0, zero_add, sum_stepBytes, System.bytes, ConnectionTable.total_bytes,
    Prod.mk_add_mk, Prod.mk.injEq] at h
  exact ⟨h.1, h.2, (inv_captureLoop events hinit).onePerPort⟩

end TR.Impl
