import TcpRedirector.Proof.ConnectionTable
import TcpRedirector.Proof.Framework.Run

/-!
# The connection table under any sequence of operations

What the table is for is a map from the source port of a connection to its
destination and configuration (`PortMap`). `Add` looks for the port and the
destination address, every other operation for the port alone, so a port may
have several entries (`entries`); the lookups see the newest. The table shows
the map as long as no `Add` comes back to the destination of an older entry
and no `Remove` uncovers one (`Keeps`), and after the first such operation it
no longer does (`table_refines_iff`).
-/

namespace TR.Impl

/-- What the map holds of a connection. -/
structure Association where
  destIp : BitVec 32
  destPort : BitVec 16
  proxyConfigId : BitVec 32
  deriving Repr, DecidableEq

/-- The map the table stands for. -/
abbrev PortMap := BitVec 16 → Option Association

/-- The operations that change the table. -/
inductive TableOp where
  | add (srcPort : BitVec 16) (srcIp origDestIp : BitVec 32) (origDestPort : BitVec 16) (proxyConfigId : BitVec 32)
  | remove (srcPort : BitVec 16)
  | setProcessInfo (srcPort : BitVec 16) (pid : BitVec 32) (procPath : WString)
  | addBytes (srcPort : BitVec 16) (up down : BitVec 64)
  | clear
  deriving Repr, DecidableEq

namespace TableOp

/-- The operation on the table. -/
def apply (t : ConnectionTable) : TableOp → ConnectionTable
  | add srcPort srcIp origDestIp origDestPort id => t.add srcPort srcIp origDestIp origDestPort id
  | remove srcPort => t.remove srcPort
  | setProcessInfo srcPort pid procPath => t.setProcessInfo srcPort pid procPath
  | addBytes srcPort up down => t.addBytes srcPort up down
  | clear => t.clear

/-- The operation on the map. -/
def applyMap (m : PortMap) : TableOp → PortMap
  | add srcPort _ origDestIp origDestPort id => Function.update m srcPort (some ⟨origDestIp, origDestPort, id⟩)
  | remove srcPort => Function.update m srcPort none
  | setProcessInfo _ _ _ | addBytes _ _ _ => m
  | clear => fun _ => none

/-- Both at once. -/
def step (op : TableOp) (s : ConnectionTable × PortMap) : (ConnectionTable × PortMap) × Unit :=
  ((op.apply s.1, op.applyMap s.2), ())

end TableOp

/-- The lookups show the map. -/
def Shows (t : ConnectionTable) (m : PortMap) : Prop :=
  ∀ p, t.get p = (m p).map (fun a => (a.destIp, a.destPort)) ∧
    t.getProxyConfigId p = ((m p).map (·.proxyConfigId)).getD 0 ∧ t.isTracked p = (m p).isSome

namespace ConnectionTable

/-- The entries of a port, newest first. -/
def entries (t : ConnectionTable) (p : BitVec 16) : List ConnectionEntry :=
  (t.chain p).filter fun e => e.srcPort == p

/-- Those behind the newest. -/
def older (t : ConnectionTable) (p : BitVec 16) : List ConnectionEntry := (t.entries p).tail

/-- An operation that neither updates an entry behind the newest nor uncovers
one. -/
def Keeps (t : ConnectionTable) : TableOp → Prop
  | .add p _ d _ _ => ∀ e ∈ t.older p, e.origDestIp ≠ d
  | .remove p => t.older p = []
  | _ => True

/-- Every entry is tracked, in its port's chain, and the only one of its port
and destination address. -/
structure WellFormed (t : ConnectionTable) : Prop where
  tracked : ∀ b, ∀ e ∈ t.table b, e.isTracked = true
  placed : ∀ b, ∀ e ∈ t.table b, hash e.srcPort = b
  nodup : ∀ b, ((t.table b).map fun e => (e.srcPort, e.origDestIp)).Nodup

theorem wellFormed_empty : WellFormed empty := ⟨by simp [empty], by simp [empty], by simp [empty]⟩

variable {t : ConnectionTable} {p q : BitVec 16}

theorem setChain_wellFormed (h : WellFormed t) {l : List ConnectionEntry}
    (ht : ∀ e ∈ l, e.isTracked = true ∧ hash e.srcPort = hash p)
    (hn : (l.map fun e => (e.srcPort, e.origDestIp)).Nodup) : WellFormed (t.setChain p l) where
  tracked := forall_setChain (P := fun _ c => ∀ e ∈ c, e.isTracked = true) h.tracked fun e he => (ht e he).1
  placed := forall_setChain (P := fun b c => ∀ e ∈ c, hash e.srcPort = b) h.placed fun e he => (ht e he).2
  nodup := forall_setChain (P := fun _ c => (c.map fun e => (e.srcPort, e.origDestIp)).Nodup) h.nodup hn

/-- A change in place that keeps the port and the destination address. -/
theorem modify_wellFormed (h : WellFormed t) {c : ConnectionEntry → Bool} {f : ConnectionEntry → ConnectionEntry}
    (hk : ∀ e, ((f e).srcPort, (f e).origDestIp) = (e.srcPort, e.origDestIp))
    (ht : ∀ e, e.isTracked = true → (f e).isTracked = true) :
    WellFormed (t.setChain p (modifyFirst c f (t.chain p))) :=
  setChain_wellFormed h
    (forall_modifyFirst (fun e he => ⟨ht e he.1, by rw [(Prod.mk.inj (hk e)).1]; exact he.2⟩)
      fun e he => ⟨h.tracked _ e he, h.placed _ e he⟩)
    (by rw [map_modifyFirst hk]; exact h.nodup _)

theorem apply_wellFormed (h : WellFormed t) (op : TableOp) : WellFormed (op.apply t) := by
  cases op with
  | add p srcIp d dp id =>
    simp only [TableOp.apply, add]
    split
    · exact modify_wellFormed h (fun _ => rfl) fun _ _ => rfl
    · rename_i hn
      have hs : WellFormed (t.setChain p (⟨p, srcIp, d, dp, id, true, 0, [], 0, 0⟩ :: t.chain p)) := by
        refine setChain_wellFormed h ?_ ?_
        · rw [List.forall_mem_cons]
          exact ⟨⟨rfl, rfl⟩, fun e he => ⟨h.tracked _ e he, h.placed _ e he⟩⟩
        · rw [List.map_cons, List.nodup_cons]
          refine ⟨fun hm => hn ?_, h.nodup _⟩
          obtain ⟨e, he, hs⟩ := List.mem_map.mp hm
          simp only [Prod.mk.injEq] at hs
          exact List.any_eq_true.mpr ⟨e, he, by simp [hs]⟩
      exact ⟨hs.tracked, hs.placed, hs.nodup⟩
  | remove p =>
    simp only [TableOp.apply, remove]
    split
    · have hs : WellFormed (t.setChain p ((t.chain p).eraseP fun e => e.srcPort == p)) :=
        setChain_wellFormed h
          (fun e he => ⟨h.tracked _ e (List.mem_of_mem_eraseP he), h.placed _ e (List.mem_of_mem_eraseP he)⟩)
          ((h.nodup _).sublist (map_eraseP_sublist _))
      exact ⟨hs.tracked, hs.placed, hs.nodup⟩
    · exact h
  | setProcessInfo p pid procPath => exact modify_wellFormed h (fun _ => rfl) fun _ ht => ht
  | addBytes p up down => exact modify_wellFormed h (fun _ => rfl) fun _ ht => ht
  | clear => exact wellFormed_empty

theorem entry_eq_find (h : WellFormed t) (p : BitVec 16) : t.entry p = (t.chain p).find? fun e => e.srcPort == p :=
  List.find?_congr fun e he => by simp [tracks, h.tracked _ e he]

/-- The lookups stop at the newest entry of the port. -/
theorem entry_eq_head (h : WellFormed t) (p : BitVec 16) : t.entry p = (t.entries p).head? := by
  rw [entries, List.head?_filter, entry_eq_find h]

theorem mem_entries {e : ConnectionEntry} : e ∈ t.entries p ↔ e ∈ t.chain p ∧ e.srcPort = p := by
  rw [entries, List.mem_filter, beq_iff_eq]

/-- The entries of a port have distinct destination addresses. -/
theorem entries_nodup (h : WellFormed t) (p : BitVec 16) : ((t.entries p).map (·.origDestIp)).Nodup := by
  have hs : ((t.entries p).map fun e => (e.srcPort, e.origDestIp)).Nodup :=
    (h.nodup (hash p)).sublist (List.filter_sublist.map _)
  have he : (t.entries p).map (fun e => (e.srcPort, e.origDestIp)) = ((t.entries p).map (·.origDestIp)).map (p, ·) := by
    rw [List.map_map]
    exact List.map_congr_left fun e hm => by simp [(mem_entries.mp hm).2]
  rw [he] at hs
  exact hs.of_map _

/-! ## One operation -/

section

variable (srcIp d : BitVec 32) (dp : BitVec 16) (id : BitVec 32)

theorem entry_add_of_ne (hq : q ≠ p) : (t.add p srcIp d dp id).entry q = t.entry q := by
  simp only [add]
  split
  · refine entry_setChain (find?_modifyFirst_of_disjoint (fun e he => ?_) _)
    simp only [Bool.and_eq_true, beq_iff_eq] at he
    exact ⟨tracks_of_ne hq he.1, tracks_of_ne hq he.1⟩
  · exact entry_setChain (List.find?_cons_of_neg (by simp [tracks, Ne.symm hq]))

/-- What a lookup of the port sees after `Add`: the newest entry, updated if it
has the destination address, unless there is none with it. -/
theorem entry_add_self (h : WellFormed t) : (t.add p srcIp d dp id).entry p =
    if ∃ e ∈ t.entries p, e.origDestIp = d then
      (t.entry p).map fun e => if e.origDestIp = d then
        { e with srcIp, origDestPort := dp, proxyConfigId := id, isTracked := true } else e
    else some ⟨p, srcIp, d, dp, id, true, 0, [], 0, 0⟩ := by
  have hany : ((t.chain p).any fun e => e.srcPort == p && e.origDestIp == d) = true ↔
      ∃ e ∈ t.entries p, e.origDestIp = d := by
    simp only [List.any_eq_true, Bool.and_eq_true, beq_iff_eq, mem_entries, and_assoc]
  have hw : WellFormed (t.add p srcIp d dp id) := apply_wellFormed h (.add p srcIp d dp id)
  rw [entry_eq_find hw, entry_eq_find h]
  simp only [add, hany]
  split
  · rw [chain_setChain_self, find?_modifyFirst_of_imp (fun e he => (Bool.and_eq_true _ _ ▸ he).1)
      fun e he => (Bool.and_eq_true _ _ ▸ he).1]
    cases hf : (t.chain p).find? fun e => e.srcPort == p with
    | none => rfl
    | some e =>
      have hp : e.srcPort = p := by simpa using List.find?_some hf
      simp [hp]
  · show ((t.setChain p _).chain p).find? _ = _
    rw [chain_setChain_self, List.find?_cons_of_pos (by simp)]

end

/-- What a lookup sees after `Remove`: the entry behind the newest. -/
theorem entry_remove_self (h : WellFormed t) : (t.remove p).entry p = (t.older p).head? := by
  have hw : WellFormed (t.remove p) := apply_wellFormed h (.remove p)
  rw [entry_eq_head hw, entries, older, entries]
  simp only [remove]
  split
  · show (((t.setChain p _).chain p).filter _).head? = _
    rw [chain_setChain_self, filter_eraseP]
  · rename_i hn
    have he : (t.chain p).filter (fun e => e.srcPort == p) = [] :=
      List.filter_eq_nil_iff.mpr fun e he hp => hn (List.any_eq_true.mpr ⟨e, he, hp⟩)
    rw [he, List.tail_nil]

theorem entry_remove_of_ne (hq : q ≠ p) : (t.remove p).entry q = t.entry q := by
  simp only [remove]
  split
  · exact entry_setChain (find?_eraseP_of_disjoint (fun e he => tracks_of_ne hq (by simpa using he)) _)
  · rfl

end ConnectionTable

open ConnectionTable

def ConnectionEntry.association (e : ConnectionEntry) : Association := ⟨e.origDestIp, e.origDestPort, e.proxyConfigId⟩

variable {t : ConnectionTable} {m : PortMap} {p : BitVec 16}

/-- The lookups show the map if each port's newest entry is the map's. -/
theorem shows_iff : Shows t m ↔ ∀ p, (t.entry p).map (·.association) = m p := by
  refine forall_congr' fun p => ?_
  simp only [ConnectionTable.get, getProxyConfigId, isTracked]
  cases t.entry p with
  | none => cases m p <;> simp
  | some e =>
    cases m p with
    | none => simp
    | some a =>
      cases a
      simp [ConnectionEntry.association]
      tauto

/-- A change of one port's entry. -/
theorem shows_update (h : Shows t m) {t' : ConnectionTable} (ho : ∀ q, q ≠ p → t'.entry q = t.entry q)
    (a : Option Association) : Shows t' (Function.update m p a) ↔ (t'.entry p).map (·.association) = a := by
  rw [shows_iff]
  constructor
  · intro hs
    rw [hs p, Function.update_self]
  · intro hs q
    by_cases hq : q = p
    · subst hq; rw [hs, Function.update_self]
    · rw [ho q hq, Function.update_of_ne hq, shows_iff.mp h q]

/-- The newest entry has the destination address of an entry of the port
exactly if no older one does. -/
theorem newest_iff (h : WellFormed t) {d : BitVec 32} {e : ConnectionEntry} (he : t.entry p = some e)
    (hd : ∃ e ∈ t.entries p, e.origDestIp = d) : e.origDestIp = d ↔ ∀ e ∈ t.older p, e.origDestIp ≠ d := by
  have hn := entries_nodup h p
  rw [entry_eq_head h, List.head?_eq_some_iff] at he
  obtain ⟨es, hes⟩ := he
  rw [hes, List.map_cons, List.nodup_cons] at hn
  rw [hes] at hd
  rw [older, hes, List.tail_cons]
  obtain ⟨x, hx, rfl⟩ := hd
  constructor
  · intro hex y hy hyx
    exact hn.1 (List.mem_map.mpr ⟨y, hy, hyx.trans hex.symm⟩)
  · intro ho
    rcases List.mem_cons.mp hx with rfl | hx
    · rfl
    · exact absurd rfl (ho x hx)

/-- One operation on a table that shows the map. -/
theorem apply_shows_iff (hw : WellFormed t) (h : Shows t m) (op : TableOp) :
    Shows (op.apply t) (op.applyMap m) ↔ t.Keeps op := by
  cases op with
  | add p srcIp d dp id =>
    refine (shows_update h (fun q hq => entry_add_of_ne srcIp d dp id hq) _).trans ?_
    show ((t.add p srcIp d dp id).entry p).map _ = _ ↔ _
    rw [entry_add_self srcIp d dp id hw]
    split
    · rename_i hd
      obtain ⟨e, he⟩ : ∃ e, t.entry p = some e := by
        obtain ⟨x, hx, -⟩ := hd
        rw [entry_eq_head hw, ← Option.isSome_iff_exists, List.isSome_head?]
        exact List.ne_nil_of_mem hx
      rw [he, Keeps, ← newest_iff hw he hd]
      by_cases hed : e.origDestIp = d
      · simp [hed, ConnectionEntry.association]
      · simp [hed, ConnectionEntry.association]
    · rename_i hd
      refine iff_of_true rfl fun e he hed => hd ⟨e, List.mem_of_mem_tail he, hed⟩
  | remove p =>
    refine (shows_update h (fun q hq => entry_remove_of_ne hq) _).trans ?_
    show ((t.remove p).entry p).map _ = _ ↔ _
    rw [entry_remove_self hw, Option.map_eq_none_iff, List.head?_eq_none_iff, Keeps]
  | setProcessInfo p pid procPath =>
    refine iff_of_true (shows_iff.mpr fun q => ?_) trivial
    rw [TableOp.apply, entry_setProcessInfo, TableOp.applyMap, ← shows_iff.mp h q]
    split
    · rename_i hq; rw [hq, Option.map_map]; rfl
    · rfl
  | addBytes p up down =>
    refine iff_of_true (shows_iff.mpr fun q => ?_) trivial
    rw [TableOp.apply, entry_addBytes, TableOp.applyMap, ← shows_iff.mp h q]
    split
    · rename_i hq; rw [hq, Option.map_map]; rfl
    · rfl
  | clear => exact iff_of_true (shows_iff.mpr fun q => rfl) trivial

/-- After every operation of a sequence the lookups show the map, exactly if
each of them keeps to the newest entries. -/
theorem table_refines_iff (ops : List TableOp) :
    (∀ st ∈ trace TableOp.step ops (.empty, fun _ => none), Shows st.post.1 st.post.2) ↔
      ∀ st ∈ trace TableOp.step ops (.empty, fun _ => none), st.pre.1.Keeps st.input :=
  forall_trace_iff (P := fun s => WellFormed s.1 ∧ Shows s.1 s.2)
    (fun op _ hs hk => ⟨apply_wellFormed hs.1 op, (apply_shows_iff hs.1 hs.2 op).mpr hk⟩)
    (fun op _ hs => apply_shows_iff hs.1 hs.2 op) ops ⟨wellFormed_empty, shows_iff.mpr fun _ => rfl⟩

/-- Two destinations of one port: `Remove` uncovers the first. -/
theorem table_uncovers :
    let ops := [.add 50000 0 0x0A0A0A0A 443 1, .add 50000 0 0x0B0B0B0B 8080 2, .remove 50000]
    let s := run TableOp.step ops (.empty, fun _ => none)
    s.1.get 50000 = some (0x0A0A0A0A, 443) ∧ s.1.isTracked 50000 = true ∧ s.2 50000 = none ∧ ¬ Shows s.1 s.2 := by
  refine ⟨by decide, by decide, by decide, fun h => ?_⟩
  exact absurd (h 50000).2.2 (by decide)

end TR.Impl
