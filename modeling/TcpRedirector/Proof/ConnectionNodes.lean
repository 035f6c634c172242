import Mathlib.Algebra.BigOperators.Fin
import TcpRedirector.Proof.ConnectionMap

/-!
# The nodes of the connection table

The nodes of all chains have distinct keys, lie in their port's bucket and are
tracked (`WellFormed`), and `m_trackedCount` counts them: what an operation
does to their number (`counted_apply`) it does to the counter too. The guard in
`Remove` is never needed while the counter can hold their number; once there
are 2^32 of them it starts again from 0 (`table_representation`).
-/

namespace TR.Impl

/-- The operation on the table alone. -/
def TableOp.stepTable (op : TableOp) (t : ConnectionTable) : ConnectionTable × Unit := (op.apply t, ())

namespace ConnectionTable

/-- The nodes of all chains. -/
def nodes (t : ConnectionTable) : List ConnectionEntry := (List.finRange CONNECTION_HASH_SIZE).flatMap t.table

def key (e : ConnectionEntry) : BitVec 16 × BitVec 32 := (e.srcPort, e.origDestIp)

variable {t : ConnectionTable} {p : BitVec 16}

theorem length_nodes (t : ConnectionTable) : t.nodes.length = t.total fun _ => 1 := by
  rw [nodes, List.length_flatMap, total, ← List.sum_ofFn, List.ofFn_eq_map]
  refine congrArg List.sum (List.map_congr_left fun b _ => ?_)
  rw [List.map_const', List.sum_replicate, smul_eq_mul, Nat.mul_one]

/-- Equal keys lie in the same chain, and there is only one of each. -/
theorem nodes_nodup (h : WellFormed t) : (t.nodes.map key).Nodup := by
  rw [nodes, List.map_flatMap, List.nodup_flatMap]
  refine ⟨fun b _ => h.nodup b, ?_⟩
  refine (List.nodup_finRange CONNECTION_HASH_SIZE).imp fun {b b'} hne => ?_
  rw [Function.onFun, List.disjoint_left]
  rintro k hk hk'
  obtain ⟨e, he, rfl⟩ := List.mem_map.mp hk
  obtain ⟨e', he', hkey⟩ := List.mem_map.mp hk'
  have hport : e'.srcPort = e.srcPort := (Prod.mk.inj hkey).1
  exact hne ((h.placed b e he).symm.trans (hport ▸ h.placed b' e' he'))

/-! ## The counter -/

/-- What an operation does to the number of nodes, and to the counter. -/
inductive Counted (t t' : ConnectionTable) : Prop where
  | same (nodes : t'.nodes.length = t.nodes.length) (count : t'.trackedCount = t.trackedCount)
  | more (nodes : t'.nodes.length = t.nodes.length + 1) (count : t'.trackedCount = t.trackedCount + 1)
  | less (nodes : t.nodes.length = t'.nodes.length + 1)
      (count : t'.trackedCount = if 0 < t.trackedCount.toNat then t.trackedCount - 1 else t.trackedCount)
  | none (nodes : t'.nodes.length = 0) (count : t'.trackedCount = 0)

/-- A chain in place of another. -/
theorem length_nodes_setChain (t : ConnectionTable) (p : BitVec 16) (l : List ConnectionEntry) :
    (t.setChain p l).nodes.length + (t.chain p).length = t.nodes.length + l.length := by
  have hsum : ∀ l : List ConnectionEntry, (l.map fun _ => 1).sum = l.length := by
    intro l
    rw [List.map_const', List.sum_replicate, smul_eq_mul, Nat.mul_one]
  rw [length_nodes, length_nodes, total_setChain, total_split _ t p, hsum, hsum]
  omega

/-- A change in place leaves all nodes. -/
theorem counted_modify (t : ConnectionTable) (p : BitVec 16) (c : ConnectionEntry → Bool)
    (f : ConnectionEntry → ConnectionEntry) : Counted t (t.setChain p (modifyFirst c f (t.chain p))) := by
  have hlen := length_nodes_setChain t p (modifyFirst c f (t.chain p))
  rw [length_modifyFirst] at hlen
  exact .same (by omega) rfl

theorem counted_add (t : ConnectionTable) (p : BitVec 16) (srcIp d : BitVec 32) (dp : BitVec 16) (id : BitVec 32) :
    Counted t (t.add p srcIp d dp id) := by
  rw [add]
  split
  · exact counted_modify t p _ _
  · have hlen := length_nodes_setChain t p (⟨p, srcIp, d, dp, id, true, 0, [], 0, 0⟩ :: t.chain p)
    rw [List.length_cons] at hlen
    refine .more ?_ rfl
    show (t.setChain p _).nodes.length = _
    omega

theorem counted_remove (t : ConnectionTable) (p : BitVec 16) : Counted t (t.remove p) := by
  rw [remove]
  split
  next hany =>
    obtain ⟨e, he, hport⟩ := List.any_eq_true.mp hany
    have hlen := length_nodes_setChain t p ((t.chain p).eraseP fun e => e.srcPort == p)
    have hpos := List.length_pos_of_mem he
    rw [List.length_eraseP_of_mem he hport] at hlen
    refine .less ?_ rfl
    show _ = (t.setChain p _).nodes.length + 1
    omega
  next => exact .same rfl rfl

theorem counted_clear (t : ConnectionTable) : Counted t t.clear := by
  refine .none ?_ rfl
  rw [length_nodes]
  exact total_empty _

theorem counted_apply (op : TableOp) (t : ConnectionTable) : Counted t (op.apply t) := by
  cases op with
  | add p srcIp d dp id => exact counted_add t p srcIp d dp id
  | remove p => exact counted_remove t p
  | setProcessInfo p pid procPath => exact counted_modify t p _ _
  | addBytes p up down => exact counted_modify t p _ _
  | clear => exact counted_clear t

/-- The counter has the number of nodes. -/
def CountsNodes (t : ConnectionTable) : Prop := t.trackedCount.toNat = t.nodes.length

/-- With the right count before, the guard in `Remove` lets the counter go down
with the node, and it goes up unless it comes to 2^32. -/
theorem Counted.countsNodes_iff {t' : ConnectionTable} (h : Counted t t') (hcount : CountsNodes t) :
    CountsNodes t' ↔ t'.nodes.length < 2 ^ 32 := by
  have hlt := t.trackedCount.isLt
  have hlt' := t'.trackedCount.isLt
  rw [CountsNodes] at hcount ⊢
  cases h with
  | same hnodes hc => rw [hc]; omega
  | more hnodes hc =>
    have hadd : t'.trackedCount.toNat = (t.trackedCount.toNat + 1) % 2 ^ 32 := by
      rw [hc, BitVec.toNat_add]
      rfl
    omega
  | less hnodes hc =>
    rw [if_pos (by omega)] at hc
    have hsub : t'.trackedCount.toNat = t.trackedCount.toNat - 1 := by
      rw [hc]
      bv_omega
    omega
  | none hnodes hc =>
    rw [hc, hnodes]
    decide

/-! ## Runs -/

theorem run_wellFormed (ops : List TableOp) : WellFormed (run TableOp.stepTable ops empty) :=
  run_induct (P := WellFormed) (fun op _ h => apply_wellFormed h op) ops wellFormed_empty

theorem countsNodes_empty : CountsNodes empty := by
  rw [CountsNodes, length_nodes, total_empty]
  rfl

/-- The counter has the number of nodes in every state of a run iff it can hold
it in every state. -/
theorem countsNodes_iff (ops : List TableOp) :
    (∀ ops', ops' <+: ops → CountsNodes (run TableOp.stepTable ops' empty)) ↔
      ∀ ops', ops' <+: ops → (run TableOp.stepTable ops' empty).nodes.length < 2 ^ 32 := by
  have hempty : empty.nodes.length < 2 ^ 32 := by
    rw [length_nodes, total_empty]
    decide
  have hbound : (∀ ops', ops' <+: ops → (run TableOp.stepTable ops' empty).nodes.length < 2 ^ 32) ↔
      ∀ st ∈ trace TableOp.stepTable ops empty, st.post.nodes.length < 2 ^ 32 :=
    forall_prefix_iff (P := fun t : ConnectionTable => t.nodes.length < 2 ^ 32) ops hempty
  rw [forall_prefix_iff ops countsNodes_empty, hbound]
  refine forall_trace_iff ?_ ?_ ops countsNodes_empty
  · intro op t hcount hlt
    exact ((counted_apply op t).countsNodes_iff hcount).mpr hlt
  · intro op t hcount
    exact (counted_apply op t).countsNodes_iff hcount

/-- After any operations: every node is tracked and in the chain of its port's
bucket, no two have the same port and destination address, and a `Clear` leaves
no node and the count 0; and the counter has been the number of nodes all the
time iff there have never been 2^32 of them. -/
theorem table_representation (ops : List TableOp) :
    let t := run TableOp.stepTable ops empty
    (∀ b, ∀ e ∈ t.table b, b.val = e.srcPort.toNat % 4096 ∧ e.isTracked = true) ∧
      (t.nodes.map fun e => (e.srcPort, e.origDestIp)).Nodup ∧
      (∀ b, (run TableOp.stepTable (ops ++ [.clear]) empty).table b = []) ∧
      (run TableOp.stepTable (ops ++ [.clear]) empty).trackedCount = 0 ∧
      ((∀ ops', ops' <+: ops → CountsNodes (run TableOp.stepTable ops' empty)) ↔
        ∀ ops', ops' <+: ops → (run TableOp.stepTable ops' empty).nodes.length < 2 ^ 32) := by
  have hwf := run_wellFormed ops
  refine ⟨fun b e he => ⟨?_, hwf.tracked b e he⟩, nodes_nodup hwf, ?_, ?_, countsNodes_iff ops⟩
  · rw [← hwf.placed b e he]
    rfl
  · rw [run_concat]
    exact fun _ => rfl
  · rw [run_concat]
    rfl

/-! ## A full counter -/

/-- `n` connections of one port. -/
def fill (n : Nat) : List TableOp := (List.range n).map fun i => .add 50000 0 (BitVec.ofNat 32 i) 443 1

theorem mem_setChain {l : List ConnectionEntry} {b : Fin CONNECTION_HASH_SIZE} {e : ConnectionEntry}
    (he : e ∈ (t.setChain p l).table b) : e ∈ l ∨ e ∈ t.table b :=
  forall_setChain (P := fun b c => e ∈ c → e ∈ l ∨ e ∈ t.table b) (fun _ => .inr) .inl b he

/-- As many nodes as connections while their addresses are different. -/
theorem run_fill {n : Nat} (hn : n ≤ 2 ^ 32) :
    (run TableOp.stepTable (fill n) empty).nodes.length = n ∧
      (run TableOp.stepTable (fill n) empty).trackedCount = BitVec.ofNat 32 n ∧
      ∀ b, ∀ e ∈ (run TableOp.stepTable (fill n) empty).table b, e.origDestIp.toNat < n := by
  induction n with
  | zero =>
    refine ⟨?_, rfl, fun b e he => by cases he⟩
    show empty.nodes.length = 0
    rw [length_nodes, total_empty]
  | succ n ih =>
    obtain ⟨hnodes, hcount, hip⟩ := ih (by omega)
    have hfill : fill (n + 1) = fill n ++ [.add 50000 0 (BitVec.ofNat 32 n) 443 1] := by
      rw [fill, List.range_succ, List.map_append]
      rfl
    rw [hfill, run_concat]
    generalize run TableOp.stepTable (fill n) empty = t at hnodes hcount hip
    have hnew : ((t.chain 50000).any fun e => e.srcPort == 50000 && e.origDestIp == BitVec.ofNat 32 n) = false := by
      rw [List.any_eq_false]
      intro e he hsame
      rw [Bool.and_eq_true, beq_iff_eq, beq_iff_eq] at hsame
      have hlt := hip _ e he
      rw [hsame.2, BitVec.toNat_ofNat, Nat.mod_eq_of_lt (by omega)] at hlt
      omega
    have hadd : (TableOp.stepTable (.add 50000 0 (BitVec.ofNat 32 n) 443 1) t).1 =
        { t.setChain 50000 (⟨50000, 0, BitVec.ofNat 32 n, 443, 1, true, 0, [], 0, 0⟩ :: t.chain 50000) with
          trackedCount := t.trackedCount + 1 } := by
      simp only [TableOp.stepTable, TableOp.apply, add, hnew, Bool.false_eq_true, if_false]
    rw [hadd]
    refine ⟨?_, ?_, fun b e he => ?_⟩
    · have hlen := length_nodes_setChain t 50000
        (⟨50000, 0, BitVec.ofNat 32 n, 443, 1, true, 0, [], 0, 0⟩ :: t.chain 50000)
      rw [List.length_cons, hnodes] at hlen
      show (t.setChain 50000 _).nodes.length = n + 1
      omega
    · show t.trackedCount + 1 = _
      rw [hcount, BitVec.ofNat_add]
      rfl
    · have he : e ∈ (t.setChain 50000 _).table b := he
      rcases mem_setChain he with he | he
      · rcases List.mem_cons.mp he with rfl | he
        · rw [BitVec.toNat_ofNat, Nat.mod_eq_of_lt (by omega)]
          omega
        · exact Nat.lt_succ_of_lt (hip _ e he)
      · exact Nat.lt_succ_of_lt (hip b e he)

/-- The table with 2^32 nodes counts none. -/
theorem trackedCount_full :
    let t := run TableOp.stepTable (fill (2 ^ 32)) empty
    t.nodes.length = 2 ^ 32 ∧ t.trackedCount = 0 ∧ ¬ CountsNodes t := by
  obtain ⟨hnodes, hcount, -⟩ := run_fill (Nat.le_refl (2 ^ 32))
  refine ⟨hnodes, hcount, fun h => ?_⟩
  rw [CountsNodes, hnodes, hcount] at h
  exact absurd h (by decide)

end ConnectionTable

end TR.Impl
