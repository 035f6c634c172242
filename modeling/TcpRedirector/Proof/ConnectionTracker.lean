import Mathlib.Algebra.Group.Nat.Defs
import Mathlib.Data.List.Chain
import TcpRedirector.Impl.ConnectionTracker
import TcpRedirector.Proof.Framework.Run

/-!
# The totals of the tracker

The totals are the sums, over all connections ever added, of what was last
reported for each (`total_eq_sum`): a report adds its difference to the one
before, which the tracker still has (`lookup_run`), or to the zeros with which
the connection was added.
-/

namespace TR.Impl.ConnectionTracker

/-! ## What was reported -/

inductive Direction where
  | rx
  | tx

def Direction.bytes : Direction → ConnectionRecord → BitVec 64
  | .rx => (·.rxBytes)
  | .tx => (·.txBytes)

def Direction.total : Direction → ServiceStats → BitVec 64
  | .rx => (·.totalRxBytes)
  | .tx => (·.totalTxBytes)

/-- The reports for a connection up to the next of this id, or its removal. -/
def reports (id : BitVec 64) : List Op → List ConnectionRecord
  | [] => []
  | .add record :: ops => if record.id = id then [] else reports id ops
  | .update id' updates :: ops => if id' = id then updates :: reports id ops else reports id ops
  | .remove id' :: ops => if id' = id then [] else reports id ops

/-- The last report's counter, zero without one. -/
def lastBytes (d : Direction) (l : List ConnectionRecord) : Nat :=
  match l.getLast? with
  | none => 0
  | some record => (d.bytes record).toNat

/-- The sum over all connections added. -/
def sum (d : Direction) : List Op → Nat
  | [] => 0
  | .add record :: ops => lastBytes d (reports record.id ops) + sum d ops
  | .update _ _ :: ops => sum d ops
  | .remove _ :: ops => sum d ops

/-- The counters of one connection do not decrease. -/
def Growing (l : List ConnectionRecord) : Prop := l.IsChain fun r r' => ∀ d : Direction, d.bytes r ≤ d.bytes r'

/-- Every connection is added with zeros and its counters do not decrease. -/
def Proper : List Op → Prop
  | [] => True
  | .add record :: ops => (∀ d : Direction, d.bytes record = 0) ∧ Growing (reports record.id ops) ∧ Proper ops
  | .update _ _ :: ops => Proper ops
  | .remove _ :: ops => Proper ops

/-! ## The record of an id -/

/-- The record of the id after the operations, if it was this one before. -/
def after (id : BitVec 64) (o : Option ConnectionRecord) : List Op → Option ConnectionRecord
  | [] => o
  | .add record :: ops => after id (if record.id = id then some record else o) ops
  | .update id' updates :: ops => after id (if id' = id then o.map fun _ => updates else o) ops
  | .remove id' :: ops => after id (if id' = id then none else o) ops

theorem lookup_step (op : Op) (t : ConnectionTracker) (id : BitVec 64) :
    (step op t).1.connections.lookup id = after id (t.connections.lookup id) [op] := by
  cases op with
  | add record =>
    show (t.connections.insert record.id record).lookup id = if record.id = id then some record else t.connections.lookup id
    split
    next heq =>
      subst heq
      exact AList.lookup_insert _
    next hne => exact AList.lookup_insert_ne (Ne.symm hne)
  | update id' updates =>
    show (t.updateConnection id' updates).connections.lookup id =
      if id' = id then (t.connections.lookup id).map fun _ => updates else t.connections.lookup id
    rw [updateConnection]
    split
    next hnone =>
      split
      next heq =>
        subst heq
        rw [hnone]
        rfl
      next => rfl
    next record hsome =>
      dsimp only
      split
      next heq =>
        subst heq
        rw [hsome]
        exact AList.lookup_insert _
      next hne => exact AList.lookup_insert_ne (Ne.symm hne)
  | remove id' =>
    show (t.connections.erase id').lookup id = if id' = id then none else t.connections.lookup id
    split
    next heq =>
      subst heq
      exact AList.lookup_erase _ _
    next hne => exact AList.lookup_erase_ne (Ne.symm hne)

/-- Without a record, an update or a removal leaves none. -/
theorem after_none_update (id id' : BitVec 64) (updates : ConnectionRecord) (ops : List Op) :
    after id none (.update id' updates :: ops) = after id none ops := by
  rw [after, Option.map_none, ite_self]

theorem after_none_remove (id id' : BitVec 64) (ops : List Op) : after id none (.remove id' :: ops) = after id none ops := by
  rw [after, ite_self]

theorem after_append (id : BitVec 64) (o : Option ConnectionRecord) (ops ops' : List Op) :
    after id o (ops ++ ops') = after id (after id o ops) ops' := by
  induction ops generalizing o with
  | nil => rfl
  | cons op ops ih => cases op <;> exact ih _

/-- The tracker has the current record of every id. -/
theorem lookup_run (ops : List Op) (t : ConnectionTracker) (id : BitVec 64) :
    (run step ops t).connections.lookup id = after id (t.connections.lookup id) ops := by
  induction ops generalizing t with
  | nil => rfl
  | cons op ops ih =>
    rw [run, ih, lookup_step, ← after_append]
    rfl

/-! ## One more operation -/

/-- The operation ends what was reported for the id. -/
def closes (id : BitVec 64) : Op → Bool
  | .add record => record.id == id
  | .update _ _ => false
  | .remove id' => id' == id

theorem reports_cons (id : BitVec 64) (op : Op) (ops : List Op) :
    reports id (op :: ops) = if closes id op then [] else reports id [op] ++ reports id ops := by
  cases op with
  | add record => simp [reports, closes]
  | update id' updates =>
    rw [closes, if_neg Bool.false_ne_true, reports, reports, reports]
    split <;> rfl
  | remove id' => simp [reports, closes]

theorem reports_append (id : BitVec 64) (ops ops' : List Op) :
    reports id (ops ++ ops') = if ops.any (closes id) then reports id ops else reports id ops ++ reports id ops' := by
  induction ops with
  | nil => rfl
  | cons op ops ih =>
    rw [List.cons_append, reports_cons, reports_cons id op ops, List.any_cons, ih]
    cases closes id op with
    | true => rfl
    | false =>
      rw [if_neg Bool.false_ne_true, if_neg Bool.false_ne_true, Bool.false_or]
      split
      · rfl
      · rw [List.append_assoc]

theorem after_of_closes {id : BitVec 64} {op : Op} (h : closes id op = true) (o : Option ConnectionRecord) :
    after id o [op] = after id none [op] := by
  cases op with
  | add record =>
    have heq : record.id = id := beq_iff_eq.mp h
    simp only [after, if_pos heq]
  | update id' updates => cases h
  | remove id' =>
    have heq : id' = id := beq_iff_eq.mp h
    simp only [after, if_pos heq]

/-- After the end the record before does not matter. -/
theorem after_of_closed {id : BitVec 64} {ops : List Op} (h : ops.any (closes id) = true) (o : Option ConnectionRecord) :
    after id o ops = after id none ops := by
  induction ops generalizing o with
  | nil => cases h
  | cons op ops ih =>
    have hcons (o : Option ConnectionRecord) : after id o (op :: ops) = after id (after id o [op]) ops :=
      after_append id o [op] ops
    rw [hcons, hcons none]
    cases hops : ops.any (closes id) with
    | true => rw [ih hops, ih hops (after id none [op])]
    | false =>
      rw [List.any_cons, hops, Bool.or_false] at h
      rw [after_of_closes h]

/-- Before the end it is the last report, if there was a record. -/
theorem after_of_open {id : BitVec 64} {ops : List Op} (h : ops.any (closes id) = false) (o : Option ConnectionRecord) :
    after id o ops = o.map fun record => (reports id ops).getLast?.getD record := by
  induction ops generalizing o with
  | nil => exact Option.map_id'.symm
  | cons op ops ih =>
    rw [List.any_cons, Bool.or_eq_false_iff] at h
    obtain ⟨hop, hops⟩ := h
    cases op with
    | add record =>
      have hne : record.id ≠ id := by simpa [closes] using hop
      rw [after, reports, if_neg hne, if_neg hne]
      exact ih hops o
    | update id' updates =>
      rw [after, reports]
      split
      · rw [ih hops, Option.map_map]
        congr 1
        funext record
        show (reports id ops).getLast?.getD updates = (updates :: reports id ops).getLast?.getD record
        rw [List.getLast?_cons]
        rfl
      · exact ih hops o
    | remove id' =>
      have hne : id' ≠ id := by simpa [closes] using hop
      rw [after, reports, if_neg hne, if_neg hne]
      exact ih hops o

theorem sum_concat_of_reports {d : Direction} {ops : List Op} {op : Op} (hreports : ∀ id, reports id [op] = [])
    (hsum : sum d [op] = 0) : sum d (ops ++ [op]) = sum d ops := by
  have hsame : ∀ id ops, reports id (ops ++ [op]) = reports id ops := by
    intro id ops
    rw [reports_append, hreports, List.append_nil]
    split <;> rfl
  induction ops with
  | nil => exact hsum
  | cons op' ops ih =>
    cases op' with
    | add record => rw [List.cons_append, sum, sum, hsame, ih]
    | update id updates => exact ih
    | remove id => exact ih

/-- A connection has no bytes when it is added. -/
theorem sum_add (d : Direction) (ops : List Op) (record : ConnectionRecord) : sum d (ops ++ [.add record]) = sum d ops := by
  apply sum_concat_of_reports
  · intro id
    rw [reports, reports, ite_self]
  · rfl

theorem sum_remove (d : Direction) (ops : List Op) (id : BitVec 64) : sum d (ops ++ [.remove id]) = sum d ops := by
  apply sum_concat_of_reports
  · intro id'
    rw [reports, reports, ite_self]
  · rfl

theorem lastBytes_append (d : Direction) (l : List ConnectionRecord) (record : ConnectionRecord) :
    lastBytes d (l ++ [record]) = (d.bytes record).toNat := by
  rw [lastBytes, List.getLast?_concat]

section

variable (d : Direction) {id : BitVec 64} {updates old : ConnectionRecord} {ops : List Op}

/-- A report for an id without a record counts for nothing. -/
theorem sum_update_none (h : after id none ops = none) : sum d (ops ++ [.update id updates]) = sum d ops := by
  induction ops with
  | nil => rfl
  | cons op ops ih =>
    cases op with
    | add record =>
      rw [after] at h
      rw [List.cons_append, sum, sum, reports_append]
      by_cases heq : record.id = id
      · rw [if_pos heq] at h
        cases hclosed : ops.any (closes id) with
        | true =>
          rw [after_of_closed hclosed] at h
          rw [heq, hclosed, if_pos rfl, ih h]
        | false =>
          rw [after_of_open hclosed] at h
          cases h
      · rw [if_neg heq] at h
        have hnone : reports record.id [.update id updates] = [] := if_neg (Ne.symm heq)
        rw [hnone, List.append_nil, ite_self, ih h]
    | update id' updates' => exact ih (after_none_update id id' updates' ops ▸ h)
    | remove id' => exact ih (after_none_remove id id' ops ▸ h)

/-- A report replaces the one before in the sum. -/
theorem sum_update_some (hproper : Proper ops) (h : after id none ops = some old) :
    sum d (ops ++ [.update id updates]) + (d.bytes old).toNat = sum d ops + (d.bytes updates).toNat := by
  induction ops with
  | nil => cases h
  | cons op ops ih =>
    cases op with
    | add record =>
      obtain ⟨hzero, -, hproper⟩ := hproper
      rw [after] at h
      rw [List.cons_append, sum, sum, reports_append]
      by_cases heq : record.id = id
      · rw [if_pos heq] at h
        cases hclosed : ops.any (closes id) with
        | true =>
          rw [after_of_closed hclosed] at h
          have := ih hproper h
          rw [heq, hclosed, if_pos rfl]
          omega
        | false =>
          -- The connection that was just added is the current one.
          have hnone : after id none ops = none := by rw [after_of_open hclosed, Option.map_none]
          have hlast : lastBytes d (reports id ops) = (d.bytes old).toNat := by
            rw [after_of_open hclosed] at h
            rw [← Option.some.inj h, lastBytes]
            cases (reports id ops).getLast? with
            | none => simp [hzero d]
            | some last => rfl
          have hreport : reports id [.update id updates] = [updates] := if_pos rfl
          rw [heq, hclosed, if_neg Bool.false_ne_true, hreport, lastBytes_append, sum_update_none d hnone, hlast]
          omega
      · rw [if_neg heq] at h
        have hnone : reports record.id [.update id updates] = [] := if_neg (Ne.symm heq)
        have := ih hproper h
        rw [hnone, List.append_nil, ite_self]
        omega
    | update id' updates' => exact ih hproper (after_none_update id id' updates' ops ▸ h)
    | remove id' => exact ih hproper (after_none_remove id id' ops ▸ h)

end

/-! ## Growth -/

theorem Proper.of_append {ops ops' : List Op} (h : Proper (ops ++ ops')) : Proper ops := by
  induction ops with
  | nil => trivial
  | cons op ops ih =>
    cases op with
    | add record =>
      rw [List.cons_append, Proper] at h
      obtain ⟨hzero, hgrowing, hproper⟩ := h
      refine ⟨hzero, ?_, ih hproper⟩
      rw [reports_append] at hgrowing
      split at hgrowing
      · exact hgrowing
      · exact hgrowing.left_of_append
    | update id updates => exact ih h
    | remove id => exact ih h

/-- A report is at least the record before. -/
theorem Proper.le {ops : List Op} {id : BitVec 64} {updates old : ConnectionRecord}
    (h : Proper (ops ++ [.update id updates])) (hold : after id none ops = some old) (d : Direction) :
    d.bytes old ≤ d.bytes updates := by
  induction ops with
  | nil => cases hold
  | cons op ops ih =>
    cases op with
    | add record =>
      rw [List.cons_append, Proper] at h
      obtain ⟨hzero, hgrowing, hproper⟩ := h
      rw [after] at hold
      by_cases heq : record.id = id
      · rw [if_pos heq] at hold
        cases hclosed : ops.any (closes id) with
        | true =>
          rw [after_of_closed hclosed] at hold
          exact ih hproper hold
        | false =>
          have hreport : reports id [.update id updates] = [updates] := if_pos rfl
          rw [heq, reports_append, hclosed, if_neg Bool.false_ne_true, hreport] at hgrowing
          rw [after_of_open hclosed] at hold
          obtain rfl := Option.some.inj hold
          cases hlast : (reports id ops).getLast? with
          | none =>
            show d.bytes record ≤ d.bytes updates
            rw [hzero d]
            exact Nat.zero_le _
          | some last => exact (List.isChain_append.mp hgrowing).2.2 last hlast updates rfl d
      · rw [if_neg heq] at hold
        exact ih hproper hold
    | update id' updates' => exact ih h (after_none_update id id' updates' ops ▸ hold)
    | remove id' => exact ih h (after_none_remove id id' ops ▸ hold)

/-- The sum does not decrease. -/
theorem sum_le_concat (d : Direction) {ops : List Op} {op : Op} (h : Proper (ops ++ [op])) :
    sum d ops ≤ sum d (ops ++ [op]) := by
  cases op with
  | add record => exact Nat.le_of_eq (sum_add d ops record).symm
  | update id updates =>
    cases hold : after id none ops with
    | none => exact Nat.le_of_eq (sum_update_none d hold).symm
    | some old =>
      have hsum : sum d (ops ++ [.update id updates]) + (d.bytes old).toNat = sum d ops + (d.bytes updates).toNat :=
        sum_update_some d h.of_append hold
      have hle : (d.bytes old).toNat ≤ (d.bytes updates).toNat := h.le hold d
      omega
  | remove id => exact Nat.le_of_eq (sum_remove d ops id).symm

theorem sum_le_append (d : Direction) (pre post : List Op) (h : Proper (pre ++ post)) :
    sum d pre ≤ sum d (pre ++ post) := by
  induction post using List.reverseRecOn with
  | nil => rw [List.append_nil]
  | append_singleton post op ih =>
    rw [← List.append_assoc] at h ⊢
    exact Nat.le_trans (ih h.of_append) (sum_le_concat d h)

/-! ## The totals -/

theorem updateConnection_of_none {t : ConnectionTracker} {id : BitVec 64} (h : t.connections.lookup id = none)
    (updates : ConnectionRecord) : t.updateConnection id updates = t := by
  rw [updateConnection, h]

/-- A report adds its difference to the record before. -/
theorem total_update (d : Direction) {t : ConnectionTracker} {id : BitVec 64} {old updates : ConnectionRecord}
    (h : t.connections.lookup id = some old) (hle : ∀ d : Direction, d.bytes old ≤ d.bytes updates) :
    d.total (t.updateConnection id updates).stats = d.total t.stats + (d.bytes updates - d.bytes old) := by
  have hsplit : d.total (t.updateConnection id updates).stats =
      if 0 < updates.rxBytes ∨ 0 < updates.txBytes then d.total t.stats + (d.bytes updates - d.bytes old)
      else d.total t.stats := by
    rw [updateConnection, h]
    dsimp only
    cases d <;> split <;> split <;> rfl
  rw [hsplit]
  split
  next => rfl
  next hzero =>
    -- Both counters are zero, and so were those before.
    obtain ⟨hrx, htx⟩ := not_or.mp hzero
    have hnew : d.bytes updates = 0 := by
      cases d with
      | rx => exact BitVec.eq_of_toNat_eq (Nat.eq_zero_of_not_pos hrx)
      | tx => exact BitVec.eq_of_toNat_eq (Nat.eq_zero_of_not_pos htx)
    have hold : d.bytes old = 0 := by
      have := hle d
      rw [hnew] at this
      exact BitVec.le_zero_iff.mp this
    rw [hnew, hold, BitVec.sub_self, BitVec.add_zero]

theorem total_eq_sum (d : Direction) {ops : List Op} (h : Proper ops) :
    d.total (getAggregatedStats (run step ops empty)) = BitVec.ofNat 64 (sum d ops) := by
  have hstats : ∀ t : ConnectionTracker, d.total t.getAggregatedStats = d.total t.stats := fun t => by cases d <;> rfl
  rw [hstats]
  induction ops using List.reverseRecOn with
  | nil => cases d <;> rfl
  | append_singleton ops op ih =>
    have ih := ih h.of_append
    rw [run_concat]
    cases op with
    | add record =>
      rw [sum_add, ← ih]
      cases d <;> rfl
    | update id updates =>
      have hlookup : (run step ops empty).connections.lookup id = after id none ops := lookup_run ops empty id
      show d.total (updateConnection _ id updates).stats = _
      cases hold : after id none ops with
      | none => rw [sum_update_none d hold, updateConnection_of_none (hlookup.trans hold), ih]
      | some old =>
        have hsum : sum d (ops ++ [.update id updates]) + (d.bytes old).toNat = sum d ops + (d.bytes updates).toNat :=
          sum_update_some d h.of_append hold
        have hle : (d.bytes old).toNat ≤ (d.bytes updates).toNat := h.le hold d
        rw [total_update d (hlookup.trans hold) (h.le hold), ih]
        apply BitVec.eq_of_toNat_eq
        rw [BitVec.toNat_add, BitVec.toNat_sub, BitVec.toNat_ofNat, BitVec.toNat_ofNat]
        have := (d.bytes updates).isLt
        omega
    | remove id =>
      rw [sum_remove, ← ih]
      cases d <;> rfl

/-- While the sum fits, the total is it. -/
theorem toNat_total {d : Direction} {ops : List Op} (h : Proper ops) (hsum : sum d ops < 2 ^ 64) :
    (d.total (getAggregatedStats (run step ops empty))).toNat = sum d ops := by
  rw [total_eq_sum d h, BitVec.toNat_ofNat]
  exact Nat.mod_eq_of_lt hsum

/-- The totals are the sums of what was last reported for each connection ever
added. While such a sum fits, the total does not decrease. A report for an id
without a connection changes nothing. -/
theorem totals_sum_reports (ops : List Op) (h : Proper ops) :
    (∀ d : Direction, d.total (getAggregatedStats (run step ops empty)) = BitVec.ofNat 64 (sum d ops)) ∧
    (∀ d : Direction, sum d ops < 2 ^ 64 → ∀ pre post, ops = pre ++ post →
      d.total (getAggregatedStats (run step pre empty)) ≤ d.total (getAggregatedStats (run step ops empty))) ∧
    ∀ (t : ConnectionTracker) (id : BitVec 64) (updates : ConnectionRecord),
      t.connections.lookup id = none → t.updateConnection id updates = t := by
  refine ⟨fun d => total_eq_sum d h, fun d hsum pre post hops => ?_, fun _ _ updates hnone =>
    updateConnection_of_none hnone updates⟩
  subst hops
  have hle : sum d pre ≤ sum d (pre ++ post) := sum_le_append d pre post h
  show (d.total _).toNat ≤ (d.total _).toNat
  rw [toNat_total h hsum, toNat_total h.of_append (by omega)]
  exact hle

/-- Two connections of one id, each with a last report. -/
def reused : List Op :=
  [.add { id := 1 }, .update 1 { id := 1, rxBytes := 5, txBytes := 2 }, .update 2 { id := 2, rxBytes := 100 }, .remove 1,
    .add { id := 1 }, .update 1 { id := 1, rxBytes := 7, txBytes := 2 }]

theorem totals_sum_reports_reused :
    Proper reused ∧ (getAggregatedStats (run step reused empty)).totalRxBytes = 12 ∧
      (getAggregatedStats (run step reused empty)).totalTxBytes = 4 := by
  have hzero : ∀ d : Direction, d.bytes { id := 1 } = 0 := fun d => by cases d <;> rfl
  have hproper : Proper reused :=
    ⟨hzero, List.IsChain.singleton _, hzero, List.IsChain.singleton _, trivial⟩
  obtain ⟨htotal, -, -⟩ := totals_sum_reports reused hproper
  exact ⟨hproper, (htotal .rx).trans (by decide), (htotal .tx).trans (by decide)⟩

end TR.Impl.ConnectionTracker
