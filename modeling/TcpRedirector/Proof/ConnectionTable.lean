import Mathlib.Algebra.BigOperators.Group.Finset.Basic
import Mathlib.Data.Fintype.BigOperators
import Mathlib.Data.List.Find
import TcpRedirector.Impl.ConnectionTable
import TcpRedirector.Proof.Framework.Chain

/-!
# The connection table as a map

While every entry is tracked, lies in its port's chain and is its port's only
one (`OnePerPort`), the table is a map from ports to entries: `entry` after
each operation is that of the map, for the port of the operation and for
every other one. Sums over all entries (`total`) move by what an operation
adds or takes away. `add` keeps the table so only where the port was not in
it, which is how the capture loop calls it.
-/

namespace TR.Impl.ConnectionTable

/-- Every entry is tracked, in its port's chain, and its port's only one. -/
structure OnePerPort (t : ConnectionTable) : Prop where
  tracked : ∀ b, ∀ e ∈ t.table b, e.isTracked = true
  placed : ∀ b, ∀ e ∈ t.table b, hash e.srcPort = b
  nodup : ∀ b, ((t.table b).map (·.srcPort)).Nodup

theorem onePerPort_empty : OnePerPort empty := ⟨by simp [empty], by simp [empty], by simp [empty]⟩

theorem chain_setChain_self (t : ConnectionTable) (p : BitVec 16) (l : List ConnectionEntry) :
    (t.setChain p l).chain p = l := Function.update_self ..

/-- A port's chain after a change of `p`'s: `p`'s new one if they share a
bucket. -/
theorem entry_setChain {t : ConnectionTable} {p q : BitVec 16} {l : List ConnectionEntry}
    (h : l.find? (tracks q) = (t.chain p).find? (tracks q)) : (t.setChain p l).entry q = t.entry q := by
  by_cases hb : hash q = hash p
  · simp only [entry, chain, setChain, hb, Function.update_self] at h ⊢
    exact h
  · simp only [entry, chain, setChain, Function.update_of_ne hb]

/-- What holds of every chain and of `p`'s new one holds of every chain after. -/
theorem forall_setChain {t : ConnectionTable} {p : BitVec 16} {l : List ConnectionEntry}
    {P : Fin CONNECTION_HASH_SIZE → List ConnectionEntry → Prop} (h : ∀ b, P b (t.table b)) (hp : P (hash p) l) :
    ∀ b, P b ((t.setChain p l).table b) :=
  (Function.forall_update_iff t.table P).mpr ⟨hp, fun b _ => h b⟩

theorem setChain_onePerPort {t : ConnectionTable} (h : OnePerPort t) {p : BitVec 16} {l : List ConnectionEntry}
    (ht : ∀ e ∈ l, e.isTracked = true ∧ hash e.srcPort = hash p) (hn : (l.map (·.srcPort)).Nodup) :
    OnePerPort (t.setChain p l) where
  tracked := forall_setChain (P := fun _ c => ∀ e ∈ c, e.isTracked = true) h.tracked fun e he => (ht e he).1
  placed := forall_setChain (P := fun b c => ∀ e ∈ c, hash e.srcPort = b) h.placed fun e he => (ht e he).2
  nodup := forall_setChain (P := fun _ c => (c.map (·.srcPort)).Nodup) h.nodup hn

theorem tracks_of_ne {p q : BitVec 16} (hq : q ≠ p) {e : ConnectionEntry} (h : e.srcPort = p) :
    tracks q e = false := by simp [tracks, h, Ne.symm hq]

theorem srcPort_of_tracks {p : BitVec 16} {e : ConnectionEntry} (h : tracks p e = true) : e.srcPort = p := by
  simp only [tracks, Bool.and_eq_true, beq_iff_eq] at h; exact h.1

/-- Where all entries are tracked, looking for a port is looking for its
tracked entry. -/
theorem find?_srcPort {t : ConnectionTable} (h : OnePerPort t) (p : BitVec 16) :
    (t.chain p).find? (fun e => e.srcPort == p) = t.entry p :=
  List.find?_congr fun e he => by simp [tracks, h.tracked _ e he]

theorem not_mem_of_entry_none {t : ConnectionTable} (h : OnePerPort t) {p : BitVec 16} (hp : t.entry p = none) :
    ∀ e ∈ t.chain p, e.srcPort ≠ p := by
  intro e he hs
  have := List.find?_eq_none.mp ((find?_srcPort h p).trans hp) e he
  simp [hs] at this

/-! ## Changing an entry in place -/

section Modify

variable {t : ConnectionTable} {p q : BitVec 16} {f : ConnectionEntry → ConnectionEntry}
  (hk : ∀ e, (f e).srcPort = e.srcPort) (ht : ∀ e, (f e).isTracked = e.isTracked)

include hk ht

theorem entry_modify_self :
    (t.setChain p (modifyFirst (tracks p) f (t.chain p))).entry p = (t.entry p).map f := by
  rw [entry, chain_setChain_self, find?_modifyFirst_self fun e he => by simpa [tracks, hk, ht] using he]
  rfl

omit ht in
theorem entry_modify_of_ne (hq : q ≠ p) :
    (t.setChain p (modifyFirst (tracks p) f (t.chain p))).entry q = t.entry q :=
  entry_setChain (find?_modifyFirst_of_disjoint (p := tracks p) (f := f) (fun e he =>
    ⟨tracks_of_ne hq (srcPort_of_tracks he), tracks_of_ne hq ((hk e).trans (srcPort_of_tracks he))⟩) _)

theorem modify_onePerPort (h : OnePerPort t) :
    OnePerPort (t.setChain p (modifyFirst (tracks p) f (t.chain p))) :=
  setChain_onePerPort h
    (forall_modifyFirst (fun e he => ⟨(ht e).trans he.1, (hk e).symm ▸ he.2⟩)
      fun e he => ⟨h.tracked _ e he, h.placed _ e he⟩)
    (by rw [map_modifyFirst hk]; exact h.nodup _)

end Modify

variable {t : ConnectionTable} {p q : BitVec 16}

theorem entry_addBytes (up down : BitVec 64) :
    (t.addBytes p up down).entry q =
      if q = p then (t.entry p).map fun e => { e with bytesUp := e.bytesUp + up, bytesDown := e.bytesDown + down }
      else t.entry q := by
  split
  · rename_i h; subst h; exact entry_modify_self (fun _ => rfl) (fun _ => rfl)
  · rename_i h; exact entry_modify_of_ne (fun _ => rfl) h

theorem addBytes_onePerPort (h : OnePerPort t) (up down : BitVec 64) : OnePerPort (t.addBytes p up down) :=
  modify_onePerPort (fun _ => rfl) (fun _ => rfl) h

theorem entry_setProcessInfo (pid : BitVec 32) (procPath : WString) :
    (t.setProcessInfo p pid procPath).entry q =
      if q = p then (t.entry p).map fun e => { e with pid, procPath } else t.entry q := by
  split
  · rename_i h; subst h; exact entry_modify_self (fun _ => rfl) (fun _ => rfl)
  · rename_i h; exact entry_modify_of_ne (fun _ => rfl) h

theorem setProcessInfo_onePerPort (h : OnePerPort t) (pid : BitVec 32) (procPath : WString) :
    OnePerPort (t.setProcessInfo p pid procPath) := modify_onePerPort (fun _ => rfl) (fun _ => rfl) h

/-! ## Adding an untracked port -/

section Add

variable (h : OnePerPort t) (hp : t.entry p = none) (srcIp origDestIp : BitVec 32) (origDestPort : BitVec 16)
  (id : BitVec 32)

include h hp

/-- An untracked port has no entry that `add` could update. -/
theorem add_eq :
    t.add p srcIp origDestIp origDestPort id =
      { t.setChain p (⟨p, srcIp, origDestIp, origDestPort, id, true, 0, [], 0, 0⟩ :: t.chain p) with
        trackedCount := t.trackedCount + 1 } := by
  have hn : ((t.chain p).any fun e => e.srcPort == p && e.origDestIp == origDestIp) = false := by
    rw [List.any_eq_false]
    intro e he
    simp [not_mem_of_entry_none h hp e he]
  simp only [add, hn, Bool.false_eq_true, ite_false]

theorem entry_add :
    (t.add p srcIp origDestIp origDestPort id).entry q =
      if q = p then some ⟨p, srcIp, origDestIp, origDestPort, id, true, 0, [], 0, 0⟩ else t.entry q := by
  rw [add_eq h hp]
  split
  · rename_i hq; subst hq
    show (t.setChain q _).entry q = _
    rw [entry, chain_setChain_self, List.find?_cons_of_pos (by simp [tracks])]
  · rename_i hq
    show (t.setChain p _).entry q = _
    exact entry_setChain (List.find?_cons_of_neg (by simp [tracks, Ne.symm hq]))

theorem add_onePerPort : OnePerPort (t.add p srcIp origDestIp origDestPort id) := by
  have hs : OnePerPort (t.setChain p (⟨p, srcIp, origDestIp, origDestPort, id, true, 0, [], 0, 0⟩ :: t.chain p)) := by
    refine setChain_onePerPort h ?_ ?_
    · rw [List.forall_mem_cons]
      exact ⟨⟨rfl, rfl⟩, fun e he => ⟨h.tracked _ e he, h.placed _ e he⟩⟩
    · rw [List.map_cons, List.nodup_cons]
      refine ⟨fun hm => ?_, h.nodup _⟩
      obtain ⟨e, he, hs⟩ := List.mem_map.mp hm
      exact not_mem_of_entry_none h hp e he hs
  rw [add_eq h hp]
  exact ⟨hs.tracked, hs.placed, hs.nodup⟩

end Add

/-! ## Removing a port -/

section Remove

variable (h : OnePerPort t)

include h

theorem entry_remove : (t.remove p).entry q = if q = p then none else t.entry q := by
  rw [remove]
  split
  · show (t.setChain p _).entry q = _
    split
    · rename_i hq; subst hq
      rw [entry, chain_setChain_self, List.find?_eq_none]
      intro e he ht
      have hn := find?_eraseP_key (k := q) (h.nodup (hash q))
      exact absurd (List.find?_eq_none.mp hn e he) (by simp [srcPort_of_tracks ht])
    · rename_i hq
      exact entry_setChain (find?_eraseP_of_disjoint (fun e he => tracks_of_ne hq (by simpa using he)) _)
  · rename_i hn
    split
    · rename_i hq; subst hq
      rw [entry, List.find?_eq_none]
      intro e he ht
      exact hn (List.any_eq_true.mpr ⟨e, he, by simp [srcPort_of_tracks ht]⟩)
    · rfl

theorem remove_onePerPort : OnePerPort (t.remove p) := by
  rw [remove]
  split
  · have hs : OnePerPort (t.setChain p ((t.chain p).eraseP fun e => e.srcPort == p)) :=
      setChain_onePerPort h (fun e he => ⟨h.tracked _ e (List.mem_of_mem_eraseP he),
        h.placed _ e (List.mem_of_mem_eraseP he)⟩)
        ((h.nodup _).sublist (map_eraseP_sublist _))
    exact ⟨hs.tracked, hs.placed, hs.nodup⟩
  · exact h

end Remove

/-! ## The lookups -/

theorem isTracked_iff : t.isTracked p = true ↔ ∃ e, t.entry p = some e := by
  rw [isTracked, Option.isSome_iff_exists]

theorem isTracked_eq_get : t.isTracked p = (t.get p).isSome := by simp [isTracked, get]

/-! ## Sums over the entries -/

/-- The sum of `g` over all entries. -/
def total {M : Type} [AddCommMonoid M] (t : ConnectionTable) (g : ConnectionEntry → M) : M :=
  ∑ b, ((t.table b).map g).sum

section Total

variable {M : Type} [AddCommMonoid M] (g : ConnectionEntry → M)

theorem total_empty : empty.total g = 0 := by simp [total, empty]

/-- The sum over all entries, that over `p`'s chain apart. -/
theorem total_split (t : ConnectionTable) (p : BitVec 16) :
    t.total g = ((t.chain p).map g).sum + ∑ b ∈ Finset.univ.erase (hash p), ((t.table b).map g).sum :=
  (Finset.add_sum_erase _ (fun b => ((t.table b).map g).sum) (Finset.mem_univ (hash p))).symm

theorem total_setChain (t : ConnectionTable) (p : BitVec 16) (l : List ConnectionEntry) :
    (t.setChain p l).total g = (l.map g).sum + ∑ b ∈ Finset.univ.erase (hash p), ((t.table b).map g).sum := by
  rw [total_split g _ p, chain_setChain_self]
  refine congrArg _ (Finset.sum_congr rfl fun b hb => ?_)
  simp only [setChain, Function.update_of_ne (Finset.ne_of_mem_erase hb)]

/-- A change in place that adds `d` to the port's entry. -/
theorem total_modify {f : ConnectionEntry → ConnectionEntry} {d : M} (hd : ∀ e, g (f e) = g e + d) :
    (t.setChain p (modifyFirst (tracks p) f (t.chain p))).total g =
      t.total g + if t.isTracked p then d else 0 := by
  rw [total_setChain, sum_modifyFirst fun e _ => hd e, total_split g t p, isTracked, entry, add_right_comm]

theorem total_add (h : OnePerPort t) (hp : t.entry p = none) (srcIp origDestIp : BitVec 32)
    (origDestPort : BitVec 16) (id : BitVec 32) :
    (t.add p srcIp origDestIp origDestPort id).total g =
      g ⟨p, srcIp, origDestIp, origDestPort, id, true, 0, [], 0, 0⟩ + t.total g := by
  rw [add_eq h hp]
  show (t.setChain p _).total g = _
  rw [total_setChain, List.map_cons, List.sum_cons, total_split g t p, add_assoc]

/-- Removing a port takes its entry's share away. -/
theorem total_remove (h : OnePerPort t) : t.total g = ((t.entry p).map g).getD 0 + (t.remove p).total g := by
  have hs := sum_eraseP (g := g) (p := fun e => e.srcPort == p) (t.chain p)
  rw [find?_srcPort h] at hs
  rw [remove]
  split
  · show _ = _ + (t.setChain p _).total g
    rw [total_setChain, total_split g t p, hs, add_assoc]
  · rename_i hn
    have hp : t.entry p = none := by
      rw [entry, List.find?_eq_none]
      intro e he ht
      exact hn (List.any_eq_true.mpr ⟨e, he, by simp [srcPort_of_tracks ht]⟩)
    simp [hp]

end Total

end TR.Impl.ConnectionTable
