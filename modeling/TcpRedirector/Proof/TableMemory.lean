import TcpRedirector.Impl.TableMemory
import TcpRedirector.Proof.Framework.Cells
import TcpRedirector.Proof.Framework.Owns
import TcpRedirector.Proof.Framework.SrwLock

/-!
# The connection table in memory is atomic

The chains that start at `m_table` hold the entries of the table, each entry
allocated is in one of them, once, and no other memory is used
(`Represented`). Each operation, alone with the lock, leaves the chains of the
table after it and returns its result (`operations_wait`); what it changes
without unlinking an entry is the chain of one port (`Chained.replace`). So the
threads together do what an atomic table does.
-/

namespace TR.Impl

open TableProg

variable {m m' : TableMemory} {t : ConnectionTable} {i : Fin CONNECTION_HASH_SIZE} {port : BitVec 16}
  {p q : Nat} {e e' : ConnectionEntry} {next a : Option Nat}

namespace TableMemory

theorem put_put (m : TableMemory) (p : Nat) (c c' : Cell Nat ConnectionEntry) : (m.put p c).put p c' = m.put p c' := by
  rw [put, put, put, Function.update_idem]

theorem put_self {c : Cell Nat ConnectionEntry} (h : m.cells p = some c) : m.put p c = m := by
  rw [put, ← h, Function.update_eq_self]

theorem put_cells_self (m : TableMemory) (p : Nat) (c : Cell Nat ConnectionEntry) : (m.put p c).cells p = some c :=
  Function.update_self ..

end TableMemory

/-! ## What the memory stands for -/

/-- The addresses and entries of each chain. -/
abbrev Parts := Fin CONNECTION_HASH_SIZE → List (Nat × ConnectionEntry)

structure Chained (m : TableMemory) (heads : Fin CONNECTION_HASH_SIZE → Option Nat) (parts : Parts) : Prop where
  chain : ∀ i, Segment m.cells (heads i) (parts i) none
  owns : Owns (fun i => (parts i).map (·.1)) (fun p => (m.cells p).isSome = true)
  bound : ∀ p, m.size ≤ p → m.cells p = none

structure Represented (m : TableMemory) (t : ConnectionTable) (parts : Parts) : Prop where
  chained : Chained m m.buckets parts
  entries : ∀ i, (parts i).map (·.2) = t.table i
  count : m.trackedCount = t.trackedCount
  fault : m.fault = false

def Represents (m : TableMemory) (t : ConnectionTable) : Prop := ∃ parts, Represented m t parts

theorem Chained.isSome {heads : Fin CONNECTION_HASH_SIZE → Option Nat} {parts : Parts} (h : Chained m heads parts)
    (hp : p ∈ (parts i).map (·.1)) : (m.cells p).isSome = true :=
  h.owns.isLive hp

/-- One chain is another one, of its own cells and of new ones. -/
theorem Chained.replace {heads heads' : Fin CONNECTION_HASH_SIZE → Option Nat} {parts : Parts} (h : Chained m heads parts)
    {l : List (Nat × ConnectionEntry)} (hheads : ∀ j ≠ i, heads' j = heads j) (hchain : Segment m'.cells (heads' i) l none)
    (hnodup : (l.map (·.1)).Nodup) (hnew : ∀ p ∈ l.map (·.1), p ∈ (parts i).map (·.1) ∨ m.cells p = none)
    (hgone : ∀ p ∈ (parts i).map (·.1), p ∉ l.map (·.1) → m'.cells p = none)
    (hsame : ∀ p, p ∉ (parts i).map (·.1) → p ∉ l.map (·.1) → m'.cells p = m.cells p)
    (hbound : ∀ p, m'.size ≤ p → m'.cells p = none) : Chained m' heads' (Function.update parts i l) := by
  have hother : ∀ j, j ≠ i → ∀ p ∈ (parts j).map (·.1), p ∉ (parts i).map (·.1) ∧ p ∉ l.map (·.1) := by
    intro j hj p hp
    have hi := h.owns.not_mem (i := j) (j := i) hp hj
    refine ⟨hi, fun hl => ?_⟩
    rcases hnew p hl with hmem | hnone
    · exact hi hmem
    · have hlive := h.isSome hp
      rw [hnone] at hlive
      exact absurd hlive Bool.false_ne_true
  have hcell : ∀ j, j ≠ i → ∀ p ∈ (parts j).map (·.1), m'.cells p = m.cells p := fun j hj p hp =>
    hsame p (hother j hj p hp).1 (hother j hj p hp).2
  refine ⟨fun j => ?_, ⟨fun j => ?_, fun j k p hj hk => ?_, fun p => ?_⟩, hbound⟩
  · by_cases hj : j = i
    · subst hj
      rw [Function.update_self]
      exact hchain
    · rw [Function.update_of_ne hj, hheads j hj]
      exact (h.chain j).congr (hcell j hj)
  · by_cases hj : j = i
    · subst hj
      simpa only [Function.update_self] using hnodup
    · simpa only [Function.update_of_ne hj] using h.owns.nodup j
  · by_cases hji : j = i <;> by_cases hki : k = i
    · rw [hji, hki]
    · subst hji
      simp only [Function.update_self, Function.update_of_ne hki] at hj hk
      exact absurd hj (hother k hki p hk).2
    · subst hki
      simp only [Function.update_self, Function.update_of_ne hji] at hj hk
      exact absurd hk (hother j hji p hj).2
    · simp only [Function.update_of_ne hji, Function.update_of_ne hki] at hj hk
      exact h.owns.unique j k p hj hk
  · constructor
    · intro hp
      by_cases hl : p ∈ l.map (·.1)
      · refine ⟨i, ?_⟩
        simpa only [Function.update_self] using hl
      · have hi : p ∉ (parts i).map (·.1) := by
          intro hi
          rw [hgone p hi hl] at hp
          exact absurd hp Bool.false_ne_true
        rw [hsame p hi hl] at hp
        obtain ⟨j, hj⟩ := (h.owns.live_iff p).mp hp
        refine ⟨j, ?_⟩
        have hji : j ≠ i := fun hji => hi (hji ▸ hj)
        simpa only [Function.update_of_ne hji] using hj
    · rintro ⟨j, hj⟩
      by_cases hji : j = i
      · subst hji
        simp only [Function.update_self] at hj
        exact hchain.isSome p hj
      · simp only [Function.update_of_ne hji] at hj
        rw [hcell j hji p hj]
        exact h.isSome hj

theorem entries_update {parts : Parts} {table : Fin CONNECTION_HASH_SIZE → List ConnectionEntry}
    (h : ∀ j, (parts j).map (·.2) = table j) (i : Fin CONNECTION_HASH_SIZE) (l : List (Nat × ConnectionEntry))
    (j : Fin CONNECTION_HASH_SIZE) : (Function.update parts i l j).map (·.2) = Function.update table i (l.map (·.2)) j := by
  by_cases hj : j = i
  · rw [hj, Function.update_self, Function.update_self]
  · rw [Function.update_of_ne hj, Function.update_of_ne hj, h]

/-- The chain of a port is another one. -/
theorem Represented.setChain {parts : Parts} (h : Represented m t parts) {l : List (Nat × ConnectionEntry)}
    (hchained : Chained m' m'.buckets (Function.update parts (ConnectionTable.hash port) l))
    (hcount : m'.trackedCount = m.trackedCount) (hfault : m'.fault = m.fault) :
    Represented m' (t.setChain port (l.map (·.2))) (Function.update parts (ConnectionTable.hash port) l) where
  chained := hchained
  entries := entries_update h.entries _ l
  count := hcount.trans h.count
  fault := hfault.trans h.fault

/-- An entry of a chain is written. -/
theorem Chained.modify {parts : Parts} (h : Chained m m.buckets parts) {l₁ l₂ : List (Nat × ConnectionEntry)}
    (hl : parts i = l₁ ++ (p, e) :: l₂) (hp : m.cells p = some ⟨e, next⟩) :
    Chained (m.put p ⟨e', next⟩) m.buckets (Function.update parts i (l₁ ++ (p, e') :: l₂)) := by
  have hkeys : (l₁ ++ (p, e') :: l₂).map (·.1) = (parts i).map (·.1) := by
    rw [hl, List.map_append, List.map_append]
    rfl
  have hnodup := h.owns.nodup i
  have hout := hnodup
  rw [hl, List.map_append, List.map_cons, List.nodup_middle, List.nodup_cons, List.mem_append, not_or] at hout
  refine h.replace (fun _ _ => rfl) ?_ (by rw [hkeys]; exact hnodup) ?_ ?_ ?_ ?_
  · have hchain := h.chain i
    rw [hl] at hchain
    obtain ⟨c, h₁, rfl, next', hp', h₂⟩ := segment_append.mp hchain
    rw [hp] at hp'
    obtain rfl := congrArg Cell.next (Option.some.inj hp')
    exact segment_append.mpr ⟨some p, h₁.update_of_notMem hout.1.1 _, rfl, next, Function.update_self ..,
      h₂.update_of_notMem hout.1.2 _⟩
  · intro q hq
    rw [hkeys] at hq
    exact .inl hq
  · intro q hq hq'
    rw [hkeys] at hq'
    exact absurd hq hq'
  · intro q _ hq
    refine Function.update_of_ne ?_ ..
    rintro rfl
    exact hq (by simp)
  · intro q hq
    refine (Function.update_of_ne ?_ ..).trans (h.bound q hq)
    rintro rfl
    have hnone := h.bound q hq
    rw [hp] at hnone
    cases hnone

/-! ## Calls of a thread that holds the lock -/

def tableSpec : ObjectSpec TableMemory ConnectionTable TableMethod TableResult (BitVec 32 × Bool) where
  apply := TableMethod.apply
  Rep := Represents
  visible m := (m.trackedCount, m.fault)
  shown t := (t.trackedCount, false)
  visible_of_rep := by
    rintro m t ⟨parts, h⟩
    rw [h.count, h.fault]

abbrev TableHolds (mode : LockMode) (x : TableResult) (t : ConnectionTable) (done : Bool)
    (p : TableProg (TableLoop ⊕ TableResult)) (m : TableMemory) : Prop :=
  Holding tableSpec TableLoop.body TableCall.answer mode x t done p m

section

variable {mode : LockMode} {x : TableResult} {done : Bool}

theorem holds_read_call {c : TableCall} {r : c.Resp} {k : c.Resp → TableProg (TableLoop ⊕ TableResult)}
    (hans : ∀ o, c.answer o m = (r, m)) (h : TableHolds mode x t done (k r) m) :
    TableHolds mode x t done (.call (.other c) k) m := by
  refine .call (fun o => ?_) (fun _ o => ?_) fun o => ?_
  · rw [hans o]
  · rw [hans o]
  · rw [hans o]
    exact h

theorem holds_write_call {c : TableCall} {r : c.Resp} {k : c.Resp → TableProg (TableLoop ⊕ TableResult)}
    (hans : ∀ o, c.answer o m = (r, m')) (hvis : tableSpec.visible m' = tableSpec.visible m)
    (h : TableHolds .exclusive x t done (k r) m') : TableHolds .exclusive x t done (.call (.other c) k) m := by
  refine .call (fun o => ?_) (fun hmode => ?_) fun o => ?_
  · rw [hans o, hvis]
  · cases hmode
  · rw [hans o]
    exact h

theorem holds_commit {c : TableCall} {r : c.Resp} {k : c.Resp → TableProg (TableLoop ⊕ TableResult)}
    (hans : ∀ o, c.answer o m = (r, m')) (hvis : tableSpec.visible m' = tableSpec.shown t)
    (h : TableHolds .exclusive x t true (k r) m') : TableHolds .exclusive x t false (.call (.other c) k) m := by
  refine .commit rfl (fun o => ?_) fun o => ?_
  · rw [hans o, hvis]
  · rw [hans o]
    exact h

theorem holds_bucket {k : Option Nat → TableProg (TableLoop ⊕ TableResult)} (h : TableHolds mode x t done (k (m.buckets i)) m) :
    TableHolds mode x t done (.call (.other (.readSlot (.bucket i))) k) m :=
  holds_read_call (fun _ => rfl) h

theorem holds_next {c : Cell Nat ConnectionEntry} (hp : m.cells p = some c) {k : Option Nat → TableProg (TableLoop ⊕ TableResult)}
    (h : TableHolds mode x t done (k c.next) m) : TableHolds mode x t done (.call (.other (.readSlot (.next (some p)))) k) m := by
  have hcell : m.cell (some p) = some c := hp
  exact holds_read_call (fun o => by rw [TableCall.answer, hcell]) h

theorem holds_read {c : Cell Nat ConnectionEntry} (hp : m.cells p = some c) {f : EntryField}
    {k : f.Val → TableProg (TableLoop ⊕ TableResult)} (h : TableHolds mode x t done (k (f.get c.item)) m) :
    TableHolds mode x t done (.call (.other (.read (some p) f)) k) m := by
  have hcell : m.cell (some p) = some c := hp
  exact holds_read_call (c := .read (some p) f) (fun o => by rw [TableCall.answer, hcell]) h

theorem change_put (c : Cell Nat ConnectionEntry) (f : Cell Nat ConnectionEntry → Cell Nat ConnectionEntry) :
    (m.put p c).change (some p) f = m.put p (f c) := by
  have hcell : (m.put p c).cell (some p) = some c := m.put_cells_self p c
  unfold TableMemory.change
  rw [hcell]
  exact m.put_put p c (f c)

theorem holds_write {f : EntryField} {v : f.Val} {k : Unit → TableProg (TableLoop ⊕ TableResult)}
    (h : TableHolds .exclusive x t done (k ()) (m.put p ⟨f.set v e, next⟩)) :
    TableHolds .exclusive x t done (.call (.other (.write (some p) f v)) k) (m.put p ⟨e, next⟩) :=
  holds_write_call (fun _ => congrArg (Prod.mk ()) (change_put ..)) rfl h

theorem holds_writeNext {k : Unit → TableProg (TableLoop ⊕ TableResult)}
    (h : TableHolds .exclusive x t done (k ()) (m.put p ⟨e, a⟩)) :
    TableHolds .exclusive x t done (.call (.other (.writeSlot (.next (some p)) a)) k) (m.put p ⟨e, next⟩) :=
  holds_write_call (fun _ => congrArg (Prod.mk ()) (change_put ..)) rfl h

theorem holds_writeBucket {k : Unit → TableProg (TableLoop ⊕ TableResult)}
    (h : TableHolds .exclusive x t done (k ()) { m with buckets := Function.update m.buckets i a }) :
    TableHolds .exclusive x t done (.call (.other (.writeSlot (.bucket i) a)) k) m :=
  holds_write_call (fun _ => rfl) rfl h

theorem holds_delete {c : Cell Nat ConnectionEntry} (hp : m.cells p = some c) {k : Unit → TableProg (TableLoop ⊕ TableResult)}
    (h : TableHolds .exclusive x t done (k ()) { m with cells := Function.update m.cells p none }) :
    TableHolds .exclusive x t done (.call (.other (.delete (some p))) k) m := by
  have hcell : m.cell (some p) = some c := hp
  have hfree : m.free (some p) = { m with cells := Function.update m.cells p none } := by
    unfold TableMemory.free
    rw [hcell]
  exact holds_write_call (fun _ => congrArg (Prod.mk ()) hfree) rfl h

theorem holds_leave (h : Represents m t) : TableHolds mode x t done (.call (.release mode) fun _ => .ret (.inr x)) m :=
  .release h rfl

end

/-! ## Walking a chain -/

/-- The condition of the `if` in the loop is `g` of the entry. -/
def TableSearch.Hits (w : TableSearch) (g : ConnectionEntry → Bool) : Prop :=
  ∀ (mode : LockMode) (x : TableResult) (t : ConnectionTable) (done : Bool) (m : TableMemory) (p : Nat)
    (c : Cell Nat ConnectionEntry) (k : Bool → TableProg (TableLoop ⊕ TableResult)),
    m.cells p = some c → TableHolds mode x t done (k (g c.item)) m → TableHolds mode x t done (w.hits (some p) >>= k) m

theorem hits_tracks {w : TableSearch} (hw : w.hits = TableSearch.tracks port) : w.Hits (ConnectionTable.tracks port) := by
  intro mode x t done m p c k hp h
  rw [hw]
  refine holds_read hp ?_
  show TableHolds mode x t done ((if (c.item.srcPort == port) = true then read (some p) .isTracked else pure false) >>= k) m
  rw [ConnectionTable.tracks] at h
  cases hport : c.item.srcPort == port with
  | true =>
    rw [hport, Bool.true_and] at h
    exact holds_read hp h
  | false =>
    rw [hport, Bool.false_and] at h
    exact h

theorem hits_add (srcIp origDestIp : BitVec 32) (origDestPort : BitVec 16) (proxyConfigId : BitVec 32) :
    (TableSearch.add port srcIp origDestIp origDestPort proxyConfigId).Hits
      (fun e => e.srcPort == port && e.origDestIp == origDestIp) := by
  intro mode x t done m p c k hp h
  refine holds_read hp ?_
  show TableHolds mode x t done ((if (c.item.srcPort == port) = true then
    (read (some p) .origDestIp >>= fun ip : BitVec 32 => pure (ip == origDestIp)) else pure false) >>= k) m
  dsimp only at h
  cases hport : c.item.srcPort == port with
  | true =>
    rw [hport, Bool.true_and] at h
    exact holds_read hp h
  | false =>
    rw [hport, Bool.false_and] at h
    exact h

section

variable {mode : LockMode} {x : TableResult} {done : Bool} {w : TableSearch} {g : ConnectionEntry → Bool}

theorem holds_search (hw : w.Hits g) {l : List (Nat × ConnectionEntry)} (hl : Segment m.cells a l none)
    (hfound : ∀ l₁ p e l₂ next, l = l₁ ++ (p, e) :: l₂ → (∀ y ∈ l₁, g y.2 = false) → g e = true → m.cells p = some ⟨e, next⟩ →
      TableHolds mode x t done (w.found (some p) >>= fun x => pure (.inr x)) m)
    (hnot : (∀ y ∈ l, g y.2 = false) → TableHolds mode x t done (w.notFound >>= fun x => pure (.inr x)) m) :
    TableHolds mode x t done (.ret (.inl (.search w a))) m := by
  induction l generalizing a with
  | nil =>
    obtain rfl : a = none := hl
    exact .loop (hnot fun y hy => absurd hy List.not_mem_nil)
  | cons y l ih =>
    obtain ⟨p, e⟩ := y
    obtain ⟨rfl, next, hp, hrest⟩ := hl
    refine .loop (hw _ _ _ _ _ _ _ _ hp ?_)
    cases he : g e with
    | true => exact hfound [] p e l next rfl (fun y hy => absurd hy List.not_mem_nil) he hp
    | false =>
      refine holds_next hp (ih hrest (fun l₁ p' e' l₂ next' hl h₁ => ?_) fun hall => ?_)
      · exact hfound ((p, e) :: l₁) p' e' l₂ next' (congrArg _ hl) (List.forall_mem_cons.mpr ⟨he, h₁⟩)
      · exact hnot (List.forall_mem_cons.mpr ⟨he, hall⟩)

end

/-- An operation that walks the chain of its port. -/
theorem waiting_search {op : TableMethod} {w : TableSearch} {g : ConnectionEntry → Bool} (henter : op.enter = w.begin)
    (hw : w.Hits g) (hread : w.mode = .shared → ∀ t, (op.apply t).2 = t)
    (hfound : ∀ m t parts l₁ p e l₂ next, Represented m t parts → parts (ConnectionTable.hash w.srcPort) = l₁ ++ (p, e) :: l₂ →
      (∀ y ∈ l₁, g y.2 = false) → g e = true → m.cells p = some ⟨e, next⟩ →
      TableHolds w.mode (op.apply t).1 (op.apply t).2 false (w.found (some p) >>= fun x => pure (.inr x)) m)
    (hnot : ∀ m t parts, Represented m t parts → (∀ y ∈ parts (ConnectionTable.hash w.srcPort), g y.2 = false) →
      TableHolds w.mode (op.apply t).1 (op.apply t).2 false (w.notFound >>= fun x => pure (.inr x)) m) :
    Waiting tableSpec TableLoop.body TableCall.answer op (.ret (.inl (.enter op))) := by
  refine .loop ?_
  show Waiting _ _ _ op op.enter
  rw [henter]
  refine .acquire ?_ hread
  rintro m t ⟨parts, h⟩
  refine holds_bucket (holds_search hw (h.chained.chain _) ?_ (hnot m t parts h))
  exact fun l₁ p e l₂ next => hfound m t parts l₁ p e l₂ next h

/-! ## The operations that walk a chain -/

section

variable {parts : Parts} {l₁ l₂ : List (Nat × ConnectionEntry)} {g : ConnectionEntry → Bool}

theorem Represented.chain_eq (h : Represented m t parts) (hl : parts (ConnectionTable.hash port) = l₁ ++ (p, e) :: l₂) :
    t.chain port = l₁.map (·.2) ++ e :: l₂.map (·.2) := by
  rw [ConnectionTable.chain, ← h.entries, hl, List.map_append]
  rfl

theorem forall_map_snd (h : ∀ y ∈ l₁, g y.2 = false) : ∀ z ∈ l₁.map (·.2), g z = false := by
  intro z hz
  obtain ⟨y, hy, rfl⟩ := List.mem_map.mp hz
  exact h y hy

theorem Represented.chain_none (h : Represented m t parts) (hall : ∀ y ∈ parts (ConnectionTable.hash port), g y.2 = false) :
    ∀ z ∈ t.chain port, g z = false := by
  rw [ConnectionTable.chain, ← h.entries]
  exact forall_map_snd hall

theorem Represented.any_found (h : Represented m t parts) (hl : parts (ConnectionTable.hash port) = l₁ ++ (p, e) :: l₂)
    (he : g e = true) : (t.chain port).any g = true := by
  refine List.any_eq_true.mpr ⟨e, ?_, he⟩
  rw [h.chain_eq hl]
  exact List.mem_append_right _ List.mem_cons_self

theorem Represented.any_none (h : Represented m t parts) (hall : ∀ y ∈ parts (ConnectionTable.hash port), g y.2 = false) :
    ¬(t.chain port).any g = true := by
  intro hany
  obtain ⟨e, hmem, he⟩ := List.any_eq_true.mp hany
  exact Bool.false_ne_true ((h.chain_none hall e hmem).symm.trans he)

theorem Represented.entry_found (h : Represented m t parts) (hl : parts (ConnectionTable.hash port) = l₁ ++ (p, e) :: l₂)
    (h₁ : ∀ y ∈ l₁, ConnectionTable.tracks port y.2 = false) (he : ConnectionTable.tracks port e = true) :
    t.entry port = some e := by
  rw [ConnectionTable.entry, h.chain_eq hl]
  exact find?_first (forall_map_snd h₁) he

theorem Represented.entry_none (h : Represented m t parts)
    (hall : ∀ y ∈ parts (ConnectionTable.hash port), ConnectionTable.tracks port y.2 = false) : t.entry port = none := by
  refine List.find?_eq_none.mpr fun z hz => ?_
  rw [h.chain_none hall z hz]
  exact Bool.false_ne_true

/-- The first match is written. -/
theorem Represented.modify (h : Represented m t parts) (hl : parts (ConnectionTable.hash port) = l₁ ++ (p, e) :: l₂)
    (h₁ : ∀ y ∈ l₁, g y.2 = false) (he : g e = true) (hp : m.cells p = some ⟨e, next⟩) (f : ConnectionEntry → ConnectionEntry) :
    Represents (m.put p ⟨f e, next⟩) (t.setChain port (modifyFirst g f (t.chain port))) := by
  have hset : Represented (m.put p ⟨f e, next⟩) (t.setChain port ((l₁ ++ (p, f e) :: l₂).map (·.2))) _ :=
    h.setChain (h.chained.modify hl hp) rfl rfl
  rw [h.chain_eq hl, modifyFirst_first (forall_map_snd h₁) he]
  rw [List.map_append] at hset
  exact ⟨_, hset⟩

theorem Represented.modify_none (h : Represented m t parts) (hall : ∀ y ∈ parts (ConnectionTable.hash port), g y.2 = false)
    (f : ConnectionEntry → ConnectionEntry) : Represents m (t.setChain port (modifyFirst g f (t.chain port))) := by
  rw [modifyFirst_none (h.chain_none hall), ConnectionTable.setChain, ConnectionTable.chain, Function.update_eq_self]
  exact ⟨parts, h⟩

end

/-- An operation that reads the entry of its port. -/
theorem waiting_lookup {op : TableMethod} {w : TableSearch} (out : Option ConnectionEntry → TableResult)
    (henter : op.enter = w.begin) (hmode : w.mode = .shared) (hhits : w.hits = TableSearch.tracks w.srcPort)
    (happly : ∀ t, op.apply t = (out (t.entry w.srcPort), t))
    (hfound : ∀ m t p c, m.cells p = some c → Represents m t →
      TableHolds .shared (out (some c.item)) t false (w.found (some p) >>= fun x => pure (.inr x)) m)
    (hnot : ∀ m t, Represents m t → TableHolds .shared (out none) t false (w.notFound >>= fun x => pure (.inr x)) m) :
    Waiting tableSpec TableLoop.body TableCall.answer op (.ret (.inl (.enter op))) := by
  refine waiting_search henter (hits_tracks hhits) (fun _ t => congrArg Prod.snd (happly t)) ?_ ?_
  · intro m t parts l₁ p e l₂ next h hl h₁ he hp
    rw [hmode, happly, h.entry_found hl h₁ he]
    exact hfound m t p ⟨e, next⟩ hp ⟨parts, h⟩
  · intro m t parts h hall
    rw [hmode, happly, h.entry_none hall]
    exact hnot m t ⟨parts, h⟩

theorem get_waits (port : BitVec 16) :
    Waiting tableSpec TableLoop.body TableCall.answer (.get port) (.ret (.inl (.enter (.get port)))) :=
  waiting_lookup (fun y => .destination (y.map fun e => (e.origDestIp, e.origDestPort))) (w := .get port) rfl rfl rfl
    (fun _ => rfl) (fun _ _ _ _ hp h => holds_read hp (holds_read hp (holds_leave h))) fun _ _ h => holds_leave h

theorem getProxyConfigId_waits (port : BitVec 16) :
    Waiting tableSpec TableLoop.body TableCall.answer (.getProxyConfigId port) (.ret (.inl (.enter (.getProxyConfigId port)))) :=
  waiting_lookup (fun y => .id ((y.map (·.proxyConfigId)).getD 0)) (w := .getProxyConfigId port) rfl rfl rfl (fun _ => rfl)
    (fun _ _ _ _ hp h => holds_read hp (holds_leave h)) fun _ _ h => holds_leave h

theorem isTracked_waits (port : BitVec 16) :
    Waiting tableSpec TableLoop.body TableCall.answer (.isTracked port) (.ret (.inl (.enter (.isTracked port)))) :=
  waiting_lookup (fun y => .flag y.isSome) (w := .isTracked port) rfl rfl rfl (fun _ => rfl)
    (fun _ _ _ _ _ h => holds_leave h) fun _ _ h => holds_leave h

theorem getInfo_waits (port : BitVec 16) :
    Waiting tableSpec TableLoop.body TableCall.answer (.getInfo port) (.ret (.inl (.enter (.getInfo port)))) :=
  waiting_lookup (fun y => .info (y.map fun e => ⟨e.pid, e.procPath, e.bytesUp, e.bytesDown⟩)) (w := .getInfo port) rfl rfl rfl
    (fun _ => rfl) (fun _ _ _ _ hp h => holds_read hp (holds_read hp (holds_read hp (holds_read hp (holds_leave h)))))
    fun _ _ h => holds_leave h

theorem setProcessInfo_waits (port : BitVec 16) (pid : BitVec 32) (procPath : WString) :
    Waiting tableSpec TableLoop.body TableCall.answer (.setProcessInfo port pid procPath)
      (.ret (.inl (.enter (.setProcessInfo port pid procPath)))) := by
  refine waiting_search (w := .setProcessInfo port pid procPath) rfl (hits_tracks rfl) LockMode.noConfusion ?_ ?_
  · intro m t parts l₁ p e l₂ next h hl h₁ he hp
    rw [← TableMemory.put_self hp]
    exact holds_write (holds_write (holds_leave (h.modify hl h₁ he hp fun e => { e with pid, procPath })))
  · intro m t parts h hall
    exact holds_leave (h.modify_none hall fun e => { e with pid, procPath })

theorem addBytes_waits (port : BitVec 16) (up down : BitVec 64) :
    Waiting tableSpec TableLoop.body TableCall.answer (.addBytes port up down)
      (.ret (.inl (.enter (.addBytes port up down)))) := by
  refine waiting_search (w := .addBytes port up down) rfl (hits_tracks rfl) LockMode.noConfusion ?_ ?_
  · intro m t parts l₁ p e l₂ next h hl h₁ he hp
    rw [← TableMemory.put_self hp]
    refine holds_read (TableMemory.put_cells_self ..) (holds_write ?_)
    refine holds_read (TableMemory.put_cells_self ..) (holds_write (holds_leave ?_))
    exact h.modify hl h₁ he hp fun e => { e with bytesUp := e.bytesUp + up, bytesDown := e.bytesDown + down }
  · intro m t parts h hall
    exact holds_leave (h.modify_none hall fun e => { e with bytesUp := e.bytesUp + up, bytesDown := e.bytesDown + down })

/-! ## Adding an entry -/

theorem holds_new {x : TableResult} {done : Bool} {k : Option Nat → TableProg (TableLoop ⊕ TableResult)}
    (hbound : ∀ p, m.size ≤ p → m.cells p = none)
    (h : ∀ p n, m.cells p = none → m.size ≤ n → p < n →
      TableHolds .exclusive x t done (k (some p))
        (TableMemory.put { m with size := n } p ⟨⟨0, 0, 0, 0, 0, false, 0, [], 0, 0⟩, none⟩)) :
    TableHolds .exclusive x t done (.call (.other .new) k) m := by
  refine .call (fun _ => rfl) (fun hmode => by cases hmode) fun o => ?_
  have hfree : m.cells (m.alloc o).1 = none := by
    show m.cells (if o < m.size ∧ (m.cells o).isNone then o else m.size) = none
    split
    next ho => exact Option.isNone_iff_eq_none.mp ho.2
    next => exact hbound _ (Nat.le_refl _)
  exact h _ (max m.size ((m.alloc o).1 + 1)) hfree (Nat.le_max_left ..)
    (Nat.lt_of_lt_of_le (Nat.lt_succ_self _) (Nat.le_max_right ..))

/-- A new entry at the head of a chain. -/
theorem Chained.insert {parts : Parts} (h : Chained m m.buckets parts) {n : Nat} (hp : m.cells p = none)
    (hsize : m.size ≤ n) (hn : p < n)
    (hcells : m'.cells = Function.update m.cells p (some ⟨e, m.buckets i⟩))
    (hbuckets : m'.buckets = Function.update m.buckets i (some p)) (hm : m'.size = n) :
    Chained m' m'.buckets (Function.update parts i ((p, e) :: parts i)) := by
  have hnot : p ∉ (parts i).map (·.1) := by
    intro hmem
    have hlive := h.isSome hmem
    rw [hp] at hlive
    exact Bool.false_ne_true hlive
  refine h.replace ?_ ?_ (List.nodup_cons.mpr ⟨hnot, h.owns.nodup i⟩) ?_ ?_ ?_ ?_
  · intro j hj
    rw [hbuckets, Function.update_of_ne hj]
  · rw [hbuckets, Function.update_self, hcells]
    exact ⟨rfl, _, Function.update_self .., (h.chain i).update_of_notMem hnot _⟩
  · intro q hq
    rcases List.mem_cons.mp hq with rfl | hq
    · exact .inr hp
    · exact .inl hq
  · exact fun q hq hq' => absurd (List.mem_cons_of_mem _ hq) hq'
  · intro q _ hq
    rw [hcells, Function.update_of_ne fun heq => hq (List.mem_cons.mpr (.inl heq))]
  · intro q hq
    rw [hm] at hq
    rw [hcells, Function.update_of_ne (Nat.ne_of_gt (Nat.lt_of_lt_of_le hn hq))]
    exact h.bound q (Nat.le_trans hsize hq)

theorem add_waits (port : BitVec 16) (srcIp origDestIp : BitVec 32) (origDestPort : BitVec 16) (proxyConfigId : BitVec 32) :
    Waiting tableSpec TableLoop.body TableCall.answer (.add port srcIp origDestIp origDestPort proxyConfigId)
      (.ret (.inl (.enter (.add port srcIp origDestIp origDestPort proxyConfigId)))) := by
  refine waiting_search (w := .add port srcIp origDestIp origDestPort proxyConfigId) rfl
    (hits_add srcIp origDestIp origDestPort proxyConfigId) LockMode.noConfusion ?_ ?_
  · intro m t parts l₁ p e l₂ next h hl h₁ he hp
    change parts (ConnectionTable.hash port) = _ at hl
    have hadd : t.add port srcIp origDestIp origDestPort proxyConfigId = _ := if_pos (h.any_found hl he)
    show TableHolds .exclusive .void (t.add port srcIp origDestIp origDestPort proxyConfigId) false _ m
    rw [hadd, ← TableMemory.put_self hp]
    refine holds_write (holds_write (holds_write (holds_write (holds_leave ?_))))
    exact h.modify hl h₁ he hp fun e => { e with srcIp, origDestPort, proxyConfigId, isTracked := true }
  · intro m t parts h hall
    have hadd : t.add port srcIp origDestIp origDestPort proxyConfigId = _ := if_neg (h.any_none hall)
    show TableHolds .exclusive .void (t.add port srcIp origDestIp origDestPort proxyConfigId) false _ m
    rw [hadd]
    refine holds_new h.chained.bound fun p n hp hsize hn => ?_
    refine holds_write (holds_write (holds_write (holds_write (holds_write (holds_write ?_)))))
    refine holds_bucket (holds_writeNext (holds_writeBucket ?_))
    have hentries := entries_update h.entries (ConnectionTable.hash port)
      ((p, ⟨port, srcIp, origDestIp, origDestPort, proxyConfigId, true, 0, [], 0, 0⟩) :: parts (ConnectionTable.hash port))
    rw [List.map_cons, h.entries] at hentries
    -- the counter is what the others may see before the lock is given back
    refine holds_commit (fun _ => rfl) ?_ (holds_leave ?_)
    · show (m.trackedCount + 1, m.fault) = (t.trackedCount + 1, false)
      rw [h.count, h.fault]
    · exact ⟨_, h.chained.insert hp hsize hn rfl rfl rfl, hentries, congrArg (· + 1) h.count, h.fault⟩

/-! ## Removing an entry -/

/-- `s` is the slot behind the entries `l₁` of chain `i`, and `a` the link in it. -/
def AtSlot (m : TableMemory) (i : Fin CONNECTION_HASH_SIZE) (l₁ : List (Nat × ConnectionEntry)) (a : Option Nat) : Slot → Prop
  | .bucket j => l₁ = [] ∧ j = i ∧ m.buckets i = a
  | .next p => ∃ l₀ q e, l₁ = l₀ ++ [(q, e)] ∧ p = some q ∧ m.cells q = some ⟨e, a⟩

section

variable {mode : LockMode} {x : TableResult} {done : Bool} {s : Slot} {l₁ l : List (Nat × ConnectionEntry)} {b : Option Nat}

theorem holds_slot (hs : AtSlot m i l₁ a s) {k : Option Nat → TableProg (TableLoop ⊕ TableResult)}
    (h : TableHolds mode x t done (k a) m) : TableHolds mode x t done (.call (.other (.readSlot s)) k) m := by
  cases s with
  | bucket j =>
    obtain ⟨-, rfl, rfl⟩ := hs
    exact holds_bucket h
  | next p =>
    obtain ⟨l₀, q, e, -, rfl, hq⟩ := hs
    exact holds_next hq h

/-- Another link is written behind the entries `l₁`. -/
theorem holds_link (hs : AtSlot m i l₁ a s) (hseg : Segment m.cells (m.buckets i) l₁ a) (hnodup : (l₁.map (·.1)).Nodup)
    {k : Unit → TableProg (TableLoop ⊕ TableResult)}
    (h : ∀ m', m'.size = m.size → m'.trackedCount = m.trackedCount → m'.fault = m.fault → (∀ j ≠ i, m'.buckets j = m.buckets j) →
      (∀ p ∉ l₁.map (·.1), m'.cells p = m.cells p) → Segment m'.cells (m'.buckets i) l₁ b →
        TableHolds .exclusive x t done (k ()) m') :
    TableHolds .exclusive x t done (.call (.other (.writeSlot s b)) k) m := by
  cases s with
  | bucket j =>
    obtain ⟨rfl, rfl, rfl⟩ := hs
    exact holds_writeBucket (h _ rfl rfl rfl (fun j hj => Function.update_of_ne hj ..) (fun _ _ => rfl) (Function.update_self ..))
  | next p =>
    obtain ⟨l₀, q, e, rfl, rfl, hq⟩ := hs
    rw [List.map_append, List.nodup_append] at hnodup
    have hq₀ : q ∉ l₀.map (·.1) := fun hmem => hnodup.2.2 q hmem q (List.mem_singleton_self q) rfl
    obtain ⟨c, h₀, rfl, next, hq', -⟩ := segment_append.mp hseg
    rw [← TableMemory.put_self hq]
    refine holds_writeNext (h _ rfl rfl rfl (fun _ _ => rfl) (fun p hp => Function.update_of_ne ?_ ..) ?_)
    · rintro rfl
      exact hp (by simp)
    · exact segment_append.mpr ⟨some q, h₀.update_of_notMem hq₀ _, rfl, b, Function.update_self .., rfl⟩

end

/-- An entry is unlinked and freed. -/
theorem Chained.unlink {heads heads' : Fin CONNECTION_HASH_SIZE → Option Nat} {parts : Parts}
    (h : Chained m heads parts) {l₁ l : List (Nat × ConnectionEntry)}
    (hl : parts i = l₁ ++ (p, e) :: l) (hsize : m'.size = m.size) (hheads : ∀ j ≠ i, heads' j = heads j)
    {cells : Nat → Option (Cell Nat ConnectionEntry)} (hcells : ∀ p ∉ l₁.map (·.1), cells p = m.cells p)
    (hm : m'.cells = Function.update cells p none) (h₁ : Segment cells (heads' i) l₁ next) (hrest : Segment m.cells next l none) :
    Chained m' heads' (Function.update parts i (l₁ ++ l)) := by
  have hkeys : (parts i).map (·.1) = l₁.map (·.1) ++ p :: l.map (·.1) := by
    rw [hl, List.map_append]
    rfl
  have hnodup := h.owns.nodup i
  rw [hkeys] at hnodup
  obtain ⟨hp, hnodup'⟩ := List.nodup_cons.mp (List.nodup_middle.mp hnodup)
  rw [List.mem_append, not_or] at hp
  have hdisjoint : ∀ q ∈ l.map (·.1), q ∉ l₁.map (·.1) := by
    intro q hq hq₁
    exact (List.nodup_append.mp hnodup').2.2 q hq₁ q hq rfl
  have hmem : ∀ q, q ∈ (l₁ ++ l).map (·.1) ↔ q ∈ l₁.map (·.1) ∨ q ∈ l.map (·.1) := by
    intro q
    rw [List.map_append, List.mem_append]
  refine h.replace hheads ?_ (by rw [List.map_append]; exact hnodup') ?_ ?_ ?_ ?_
  · rw [hm]
    refine segment_append.mpr ⟨next, h₁.update_of_notMem hp.1 _, Segment.update_of_notMem ?_ hp.2 _⟩
    exact hrest.congr fun q hq => hcells q (hdisjoint q hq)
  · intro q hq
    rw [hkeys]
    rcases (hmem q).mp hq with hq | hq
    · exact .inl (List.mem_append_left _ hq)
    · exact .inl (List.mem_append_right _ (List.mem_cons_of_mem _ hq))
  · intro q hq hq'
    rw [hkeys, List.mem_append, List.mem_cons] at hq
    rw [hmem, not_or] at hq'
    obtain rfl : q = p := by
      rcases hq with hq | rfl | hq
      · exact absurd hq hq'.1
      · rfl
      · exact absurd hq hq'.2
    rw [hm, Function.update_self]
  · intro q hq _
    rw [hkeys, List.mem_append, List.mem_cons, not_or, not_or] at hq
    rw [hm, Function.update_of_ne hq.2.1, hcells q hq.1]
  · intro q hq
    rw [hsize] at hq
    have hnone := h.bound q hq
    by_cases hqp : q = p
    · rw [hm, hqp, Function.update_self]
    · rw [hm, Function.update_of_ne hqp, hcells q ?_, hnone]
      intro hq₁
      have hlive := h.isSome (i := i) (by rw [hkeys]; exact List.mem_append_left _ hq₁)
      rw [hnone] at hlive
      exact Bool.false_ne_true hlive

theorem holds_unlink {parts : Parts} (h : Represented m t parts) {l₁ l : List (Nat × ConnectionEntry)} {s : Slot}
    (hl : parts (ConnectionTable.hash port) = l₁ ++ l) (h₁ : ∀ y ∈ l₁, (y.2.srcPort == port) = false)
    (hs : AtSlot m (ConnectionTable.hash port) l₁ a s) (hseg₁ : Segment m.cells (m.buckets (ConnectionTable.hash port)) l₁ a)
    (hseg : Segment m.cells a l none) :
    TableHolds .exclusive .void (t.remove port) false (.ret (.inl (.unlink port s))) m := by
  induction l generalizing l₁ a s with
  | nil =>
    obtain rfl : a = none := hseg
    rw [List.append_nil] at hl
    rw [← hl] at h₁
    have hremove : t.remove port = t := if_neg (h.any_none h₁)
    rw [hremove]
    exact .loop (holds_slot hs (holds_leave ⟨parts, h⟩))
  | cons y l ih =>
    obtain ⟨p, e⟩ := y
    obtain ⟨rfl, next, hp, hrest⟩ := hseg
    refine .loop (holds_slot hs (holds_slot hs (holds_read hp ?_)))
    cases he : e.srcPort == port with
    | false =>
      show TableHolds _ _ _ _ (if (e.srcPort == port) = true then _ else _) m
      rw [he]
      have hs' : AtSlot m (ConnectionTable.hash port) (l₁ ++ [(p, e)]) next (.next (some p)) := ⟨l₁, p, e, rfl, rfl, hp⟩
      refine holds_slot hs (ih ?_ ?_ hs' (segment_append.mpr ⟨some p, hseg₁, rfl, next, hp, rfl⟩) hrest)
      · rw [hl, List.append_assoc]
        rfl
      · intro y hy
        rcases List.mem_append.mp hy with hy | hy
        · exact h₁ y hy
        · rw [List.mem_singleton.mp hy]
          exact he
    | true =>
      have hnodup := h.chained.owns.nodup (ConnectionTable.hash port)
      rw [hl, List.map_append] at hnodup
      have hp₁ : p ∉ l₁.map (·.1) := fun hmem => (List.nodup_append.mp hnodup).2.2 p hmem p List.mem_cons_self rfl
      have hchain : t.chain port = l₁.map (·.2) ++ e :: l.map (·.2) := h.chain_eq hl
      have hremove : t.remove port = _ := if_pos (h.any_found hl he)
      rw [hremove]
      show TableHolds _ _ _ _ (if (e.srcPort == port) = true then _ else _) m
      rw [he]
      refine holds_slot hs (holds_slot hs (holds_next hp (holds_link hs hseg₁ (List.nodup_append.mp hnodup).1 ?_)))
      intro m' hsize hcount hfault hbuckets hcells hseg'
      refine holds_delete ((hcells p hp₁).trans hp) (holds_read_call (fun _ => rfl) ?_)
      have hentries := entries_update h.entries (ConnectionTable.hash port) (l₁ ++ l)
      rw [List.map_append, ← eraseP_first (forall_map_snd (g := fun e => e.srcPort == port) h₁) he, ← hchain] at hentries
      have hold : m'.trackedCount = t.trackedCount := hcount.trans h.count
      show TableHolds _ _ _ _ (if 0 < m'.trackedCount.toNat then _ else _) _
      by_cases hpos : 0 < t.trackedCount.toNat
      · have hpos' : 0 < m'.trackedCount.toNat := hold ▸ hpos
        rw [if_pos hpos']
        refine holds_commit (fun _ => rfl) ?_ (holds_leave ?_)
        · show (m'.trackedCount - 1, m'.fault) = (if 0 < t.trackedCount.toNat then t.trackedCount - 1 else t.trackedCount, false)
          rw [if_pos hpos, hold, hfault, h.fault]
        · refine ⟨_, h.chained.unlink hl hsize hbuckets hcells rfl hseg' hrest, hentries, ?_, hfault.trans h.fault⟩
          show m'.trackedCount - 1 = if 0 < t.trackedCount.toNat then t.trackedCount - 1 else t.trackedCount
          rw [if_pos hpos, hold]
      · have hpos' : ¬0 < m'.trackedCount.toNat := hold ▸ hpos
        rw [if_neg hpos']
        refine holds_leave ?_
        refine ⟨_, h.chained.unlink hl hsize hbuckets hcells rfl hseg' hrest, hentries, ?_, hfault.trans h.fault⟩
        show m'.trackedCount = if 0 < t.trackedCount.toNat then t.trackedCount - 1 else t.trackedCount
        rw [if_neg hpos, hold]

theorem remove_waits (port : BitVec 16) :
    Waiting tableSpec TableLoop.body TableCall.answer (.remove port) (.ret (.inl (.enter (.remove port)))) := by
  refine .loop (.acquire ?_ LockMode.noConfusion)
  rintro m t ⟨parts, h⟩
  have hs : AtSlot m (ConnectionTable.hash port) [] (m.buckets (ConnectionTable.hash port))
      (.bucket (ConnectionTable.hash port)) :=
    ⟨rfl, rfl, rfl⟩
  exact holds_unlink h rfl (fun y hy => absurd hy List.not_mem_nil) hs rfl (h.chained.chain _)

/-! ## Clearing the table -/

/-- The inner loop of `Clear`. -/
theorem holds_chain {x : TableResult} {parts : Parts} {l : List (Nat × ConnectionEntry)}
    (h : Chained m (Function.update m.buckets i a) (Function.update parts i l))
    (hnext : ∀ m', Chained m' m'.buckets (Function.update parts i []) → m'.fault = m.fault →
      TableHolds .exclusive x t false (.ret (.inl (.buckets (i + 1)))) m') :
    TableHolds .exclusive x t false (.ret (.inl (.chain i a))) m := by
  have hchain := h.chain i
  rw [Function.update_self, Function.update_self] at hchain
  induction l generalizing m a with
  | nil =>
    obtain rfl : a = none := hchain
    exact .loop (holds_writeBucket (hnext _ ⟨h.chain, h.owns, h.bound⟩ rfl))
  | cons y l ih =>
    obtain ⟨p, e⟩ := y
    obtain ⟨rfl, next, hp, hrest⟩ := hchain
    have hheads : ∀ j ≠ i, Function.update m.buckets i next j = Function.update m.buckets i (some p) j := by
      intro j hj
      rw [Function.update_of_ne hj, Function.update_of_ne hj]
    have hunlink : Chained { m with cells := Function.update m.cells p none } (Function.update m.buckets i next)
        (Function.update (Function.update parts i ((p, e) :: l)) i ([] ++ l)) :=
      h.unlink (Function.update_self ..) rfl hheads (fun _ _ => rfl) rfl (Function.update_self ..) hrest
    rw [Function.update_idem, List.nil_append] at hunlink
    refine .loop (holds_next hp (holds_delete hp (ih hunlink hnext ?_)))
    have hchain := hunlink.chain i
    rwa [Function.update_self, Function.update_self] at hchain

/-- The outer loop, with `k` buckets still to come. -/
theorem holds_buckets (k : Nat) {n : Nat} (hn : n + k = CONNECTION_HASH_SIZE) {parts : Parts} (h : Chained m m.buckets parts)
    (hparts : ∀ j : Fin CONNECTION_HASH_SIZE, j.val < n → parts j = []) (hfault : m.fault = false) :
    TableHolds .exclusive .void .empty false (.ret (.inl (.buckets n))) m := by
  induction k generalizing n m parts with
  | zero =>
    have hnot : ¬n < CONNECTION_HASH_SIZE := by omega
    refine .loop ?_
    rw [TableLoop.body, dif_neg hnot]
    refine holds_commit (fun _ => rfl) (congrArg (Prod.mk 0) hfault) (holds_leave ?_)
    refine ⟨parts, ⟨h.chain, h.owns, h.bound⟩, fun j => ?_, rfl, hfault⟩
    rw [hparts j (by omega)]
    rfl
  | succ k ih =>
    have hlt : n < CONNECTION_HASH_SIZE := by omega
    refine .loop ?_
    rw [TableLoop.body, dif_pos hlt]
    have hchained : Chained m (Function.update m.buckets ⟨n, hlt⟩ (m.buckets ⟨n, hlt⟩))
        (Function.update parts ⟨n, hlt⟩ (parts ⟨n, hlt⟩)) := by
      rw [Function.update_eq_self, Function.update_eq_self]
      exact h
    have hk : n + 1 + k = CONNECTION_HASH_SIZE := by omega
    refine holds_bucket (holds_chain hchained fun m' hl hf => ih hk hl (fun j hj => ?_) (hf.trans hfault))
    by_cases hjn : j = ⟨n, hlt⟩
    · rw [hjn, Function.update_self]
    · have hne : j.val ≠ n := fun heq => hjn (Fin.ext heq)
      rw [Function.update_of_ne hjn]
      exact hparts j (Nat.lt_of_le_of_ne (Nat.lt_succ_iff.mp hj) hne)

theorem clear_waits : Waiting tableSpec TableLoop.body TableCall.answer .clear (.ret (.inl (.enter .clear))) := by
  refine .loop (.acquire ?_ LockMode.noConfusion)
  rintro m t ⟨parts, h⟩
  exact holds_buckets CONNECTION_HASH_SIZE (Nat.zero_add _) h.chained (fun j hj => absurd hj (Nat.not_lt_zero _)) h.fault

theorem getTrackedCount_waits :
    Waiting tableSpec TableLoop.body TableCall.answer .getTrackedCount (.ret (.inl (.enter .getTrackedCount))) :=
  .loop (.free (fun _ _ => rfl) (fun _ => rfl) fun _ _ _ hvis => congrArg
    (fun v : BitVec 32 × Bool => (Prog.ret (.inr (.count v.1)) : TableProg (TableLoop ⊕ TableResult))) hvis)

/-! ## Every operation at once -/

theorem operations_wait (op : TableMethod) : Waiting tableSpec TableLoop.body TableCall.answer op (.ret (.inl (.enter op))) := by
  cases op with
  | add srcPort srcIp origDestIp origDestPort proxyConfigId => exact add_waits srcPort srcIp origDestIp origDestPort proxyConfigId
  | get srcPort => exact get_waits srcPort
  | getProxyConfigId srcPort => exact getProxyConfigId_waits srcPort
  | isTracked srcPort => exact isTracked_waits srcPort
  | remove srcPort => exact remove_waits srcPort
  | setProcessInfo srcPort pid procPath => exact setProcessInfo_waits srcPort pid procPath
  | clear => exact clear_waits
  | addBytes srcPort up down => exact addBytes_waits srcPort up down
  | getInfo srcPort => exact getInfo_waits srcPort
  | getTrackedCount => exact getTrackedCount_waits

theorem represents_constructed : Represents .constructed .empty :=
  ⟨fun _ => [], ⟨fun _ => rfl, ⟨fun _ => List.nodup_nil, fun _ _ _ h => absurd h List.not_mem_nil, fun _ => by
    simp [TableMemory.constructed]⟩, fun _ _ => rfl⟩, fun _ => rfl, rfl, rfl⟩

/-- Whatever the threads do in whatever order, they see what an atomic table
would have shown them; no memory is used that is not allocated, and while
nobody writes, the chains of `m_table` hold the entries of that table and
nothing else is allocated. -/
theorem connectionTable_atomic (schedule : List (SrwInput TableMethod Nat)) :
    ∃ js,
      history (trace (AtomicObject.step TableMethod.apply) js (.start .empty)) = history (trace tableStep schedule tableStart) ∧
      let s := run tableStep schedule tableStart
      s.shared.fault = false ∧
        (s.writer = none → Represents s.shared (run (AtomicObject.step TableMethod.apply) js (.start .empty)).object) := by
  obtain ⟨js, hsim, hhistory⟩ := (SrwSim.start (R := tableSpec) represents_constructed TableResult.void).run
    operations_wait schedule
  exact ⟨js, hhistory, congrArg Prod.snd hsim.visible, hsim.rep⟩

/-- A thread that holds the lock of the table returns if it is run on: no
chain is without end, whatever the other threads do meanwhile. -/
theorem connectionTable_returns (f : Nat → SrwInput TableMethod Nat) (i : Nat)
    (hfair : ∀ n, ∃ k ≥ n, ∃ o, f k = .step i o) (n : Nat) (hmode : (states tableStep f tableStart n).mode i ≠ none) :
    ∃ k ≥ n, ∃ x, (states tableStep f tableStart k).threads i = .ret (.inr x) :=
  (SrwSim.start (R := tableSpec) represents_constructed TableResult.void).states_return operations_wait hfair hmode

/-- One thread asks for a port and then runs alone. -/
def oneLookup : Nat → SrwInput TableMethod Nat
  | 0 => .call 0 (.get 1)
  | _ => .step 0 0

theorem connectionTable_returns_lookup : ∃ k ≥ 3, ∃ x, (states tableStep oneLookup tableStart k).threads 0 = .ret (.inr x) := by
  refine connectionTable_returns oneLookup 0 (fun n => ⟨n + 1, Nat.le_succ n, 0, rfl⟩) 3 ?_
  have hmode : (states tableStep oneLookup tableStart 3).mode 0 = some .shared := rfl
  rw [hmode]
  exact Option.some_ne_none _

end TR.Impl
