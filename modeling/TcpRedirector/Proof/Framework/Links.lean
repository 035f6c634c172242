import Mathlib.Data.List.Nodup
import TcpRedirector.TCB.Links

/-!
# What a circular list stands for

`Ring m head l`: from `head` the links run through the elements of `l`, in
this order, and back, and no node occurs twice. An insertion at the tail
appends an element (`insertTailList_ring`), a removal at the head takes the
first (`removeHeadList_ring`); both write links of the list's own nodes only,
so a list without a common node stays as it is (`Ring.congr`).
-/

namespace TR.Nodes

variable {α β : Type} {m m' : Nodes α β} {a b x y head : α} {l l' : List α}

/-- The links from `x` to `y` and back. -/
def Next (m : Nodes α β) (x y : α) : Prop := m.flink x = some y ∧ m.blink y = some x

/-- From `x` through `l` to `y`. -/
def Linked (m : Nodes α β) : α → List α → α → Prop
  | x, [], y => m.Next x y
  | x, a :: l, y => m.Next x a ∧ Linked m a l y

def Ring (m : Nodes α β) (head : α) (l : List α) : Prop := Linked m head l head ∧ (head :: l).Nodup

theorem linked_append : Linked m x (l ++ a :: l') y ↔ Linked m x l a ∧ Linked m a l' y := by
  induction l generalizing x with
  | nil => rfl
  | cons b l ih => rw [List.cons_append, Linked, Linked, ih, and_assoc]

/-- Only links forward of `x` and `l` and back of `l` and `y` matter. -/
theorem Linked.congr (h : Linked m x l y) (hf : ∀ z ∈ x :: l, m'.flink z = m.flink z)
    (hb : ∀ z ∈ y :: l, m'.blink z = m.blink z) : Linked m' x l y := by
  induction l generalizing x with
  | nil => exact ⟨(hf x List.mem_cons_self).trans h.1, (hb y List.mem_cons_self).trans h.2⟩
  | cons a l ih =>
    obtain ⟨⟨hnext, hprev⟩, hrest⟩ := h
    have ha : a ∈ y :: a :: l := List.mem_cons_of_mem _ List.mem_cons_self
    refine ⟨⟨(hf x List.mem_cons_self).trans hnext, (hb a ha).trans hprev⟩, ih hrest ?_ ?_⟩
    · exact fun z hz => hf z (List.mem_cons_of_mem _ hz)
    · intro z hz
      refine hb z ?_
      rcases List.mem_cons.mp hz with rfl | hz
      · exact List.mem_cons_self
      · exact List.mem_cons_of_mem _ (List.mem_cons_of_mem _ hz)

theorem Ring.congr (h : Ring m head l) (hsame : ∀ z ∈ head :: l, m' z = m z) : Ring m' head l :=
  ⟨h.1.congr (fun z hz => by rw [flink, hsame z hz]; rfl) (fun z hz => by rw [blink, hsame z hz]; rfl), h.2⟩

theorem Linked.isSome (h : Linked m x l y) : ∀ z ∈ x :: l, (m z).isSome = true := by
  have hone {z w : α} (hz : m.flink z = some w) : (m z).isSome = true := by
    rw [flink] at hz
    cases hm : m z with
    | none => rw [hm] at hz; cases hz
    | some n => rfl
  induction l generalizing x with
  | nil => exact fun z hz => List.mem_singleton.mp hz ▸ hone h.1
  | cons a l ih =>
    refine List.forall_mem_cons.mpr ⟨hone h.1.1, ih h.2⟩

/-- What keeps the bodies keeps what is allocated. -/
theorem isSome_of_body (h : ∀ z, (m' z).map (·.body) = (m z).map (·.body)) (z : α) : (m' z).isSome = (m z).isSome := by
  have hz := congrArg Option.isSome (h z)
  rwa [Option.isSome_map, Option.isSome_map] at hz

/-- The last element of a list, or its head. -/
theorem Ring.blink_head (h : Ring m head l) : m.blink head = some ((head :: l).getLast (List.cons_ne_nil _ _)) := by
  rcases List.eq_nil_or_concat l with rfl | ⟨l, b, rfl⟩
  · exact h.1.2
  · rw [List.concat_eq_append] at h
    have hlast := (linked_append.mp h.1).2.2
    simp only [List.concat_eq_append, ← List.cons_append, List.getLast_append_singleton]
    exact hlast

theorem Linked.flink (h : Linked m x l y) : m.flink x = some (l.headD y) := by
  cases l with
  | nil => exact h.1
  | cons a l => exact h.1.1

/-! ## One link -/

variable [DecidableEq α]

theorem modify_eq {f : Node α β → Node α β} (ha : (m a).isSome = true) :
    ∃ m', m.modify a f = some m' ∧ m' a = (m a).map f ∧ ∀ z, z ≠ a → m' z = m z := by
  obtain ⟨n, hn⟩ := Option.isSome_iff_exists.mp ha
  refine ⟨Function.update m a (some (f n)), by rw [modify, hn]; rfl, ?_, fun z hz => Function.update_of_ne hz ..⟩
  rw [Function.update_self, hn]
  rfl

/-- What is read at every node after one has been written: `g` at this one. -/
theorem map_modify {γ : Type} {f : Node α β → Node α β} {g : Node α β → γ} (hself : m' a = (m a).map f)
    (hsame : ∀ z, z ≠ a → m' z = m z) (z : α) :
    (m' z).map g = if z = a then (m a).map (g ∘ f) else (m z).map g := by
  by_cases hz : z = a
  · rw [if_pos hz, hz, hself, Option.map_map]
  · rw [if_neg hz, hsame z hz]

theorem map_modify_same {γ : Type} {f : Node α β → Node α β} {g : Node α β → γ} (hself : m' a = (m a).map f)
    (hsame : ∀ z, z ≠ a → m' z = m z) (hg : g ∘ f = g) (z : α) : (m' z).map g = (m z).map g := by
  rw [map_modify hself hsame, hg]
  split
  next hz => rw [hz]
  next => rfl

theorem setFlink_eq (ha : (m a).isSome = true) : ∃ m', m.setFlink a x = some m' ∧
    (∀ z, m'.flink z = if z = a then some x else m.flink z) ∧ (∀ z, m'.blink z = m.blink z) ∧
    (∀ z, (m' z).map (·.body) = (m z).map (·.body)) ∧ ∀ z, z ≠ a → m' z = m z := by
  obtain ⟨m', h, hself, hsame⟩ := modify_eq (f := fun n => { n with flink := x }) ha
  refine ⟨m', h, fun z => ?_, fun z => map_modify_same hself hsame rfl z, fun z => map_modify_same hself hsame rfl z, hsame⟩
  rw [flink, map_modify hself hsame]
  obtain ⟨n, hn⟩ := Option.isSome_iff_exists.mp ha
  rw [hn]
  rfl

theorem setBlink_eq (ha : (m a).isSome = true) : ∃ m', m.setBlink a x = some m' ∧
    (∀ z, m'.blink z = if z = a then some x else m.blink z) ∧ (∀ z, m'.flink z = m.flink z) ∧
    (∀ z, (m' z).map (·.body) = (m z).map (·.body)) ∧ ∀ z, z ≠ a → m' z = m z := by
  obtain ⟨m', h, hself, hsame⟩ := modify_eq (f := fun n => { n with blink := x }) ha
  refine ⟨m', h, fun z => ?_, fun z => map_modify_same hself hsame rfl z, fun z => map_modify_same hself hsame rfl z, hsame⟩
  rw [blink, map_modify hself hsame]
  obtain ⟨n, hn⟩ := Option.isSome_iff_exists.mp ha
  rw [hn]
  rfl

/-! ## The operations -/

theorem isListEmpty_ring (h : Ring m head l) : m.isListEmpty head = some l.isEmpty := by
  cases l with
  | nil => rw [isListEmpty, h.1.1, Option.map_some, decide_eq_true rfl]; rfl
  | cons a l =>
    have hne : a ≠ head := fun heq => (List.nodup_cons.mp h.2).1 (heq ▸ List.mem_cons_self)
    rw [isListEmpty, h.1.1.1, Option.map_some, decide_eq_false hne]
    rfl

theorem initializeListHead_ring (ha : (m head).isSome = true) :
    ∃ m', m.initializeListHead head = some m' ∧ Ring m' head [] ∧ (∀ z, (m' z).map (·.body) = (m z).map (·.body)) ∧
      ∀ z, z ≠ head → m' z = m z := by
  obtain ⟨m₁, h₁, hf₁, -, hbody₁, hsame₁⟩ := setFlink_eq (x := head) ha
  obtain ⟨m₂, h₂, hb₂, hf₂, hbody₂, hsame₂⟩ := setBlink_eq (m := m₁) (x := head) (by rw [isSome_of_body hbody₁, ha])
  refine ⟨m₂, ?_, ⟨⟨?_, ?_⟩, List.nodup_singleton _⟩, fun z => (hbody₂ z).trans (hbody₁ z),
    fun z hz => (hsame₂ z hz).trans (hsame₁ z hz)⟩
  · rw [initializeListHead, h₁]
    exact h₂
  · rw [hf₂, hf₁, if_pos rfl]
  · rw [hb₂, if_pos rfl]

theorem insertTailList_ring {entry : α} (h : Ring m head l) (ha : (m entry).isSome = true) (hnew : entry ∉ head :: l) :
    ∃ m', m.insertTailList head entry = some m' ∧ Ring m' head (l ++ [entry]) ∧
      (∀ z, (m' z).map (·.body) = (m z).map (·.body)) ∧ ∀ z, z ∉ entry :: head :: l → m' z = m z := by
  have hblink := h.blink_head
  have hmem := List.getLast_mem (l := head :: l) (List.cons_ne_nil _ _)
  generalize (head :: l).getLast (List.cons_ne_nil _ _) = last at hblink hmem
  have hsome := h.1.isSome
  obtain ⟨m₁, h₁, hf₁, hb₁, hbody₁, hsame₁⟩ := setFlink_eq (x := head) ha
  obtain ⟨m₂, h₂, hb₂, hf₂, hbody₂, hsame₂⟩ := setBlink_eq (m := m₁) (x := last) (by rw [isSome_of_body hbody₁, ha])
  obtain ⟨m₃, h₃, hf₃, hb₃, hbody₃, hsame₃⟩ := setFlink_eq (m := m₂) (a := last) (x := entry)
    (by rw [isSome_of_body hbody₂, isSome_of_body hbody₁, hsome last hmem])
  obtain ⟨m₄, h₄, hb₄, hf₄, hbody₄, hsame₄⟩ := setBlink_eq (m := m₃) (a := head) (x := entry)
    (by rw [isSome_of_body hbody₃, isSome_of_body hbody₂, isSome_of_body hbody₁, hsome head List.mem_cons_self])
  have hne : head ≠ entry := fun heq => hnew (heq ▸ List.mem_cons_self)
  have hlast : last ≠ entry := fun heq => hnew (heq ▸ hmem)
  refine ⟨m₄, ?_, ⟨linked_append.mpr ⟨?_, ?_, ?_⟩, ?_⟩, fun z => ?_, fun z hz => ?_⟩
  · rw [insertTailList, hblink]
    show (m.setFlink entry head).bind _ = _
    rw [h₁]
    show (m₁.setBlink entry last).bind _ = _
    rw [h₂]
    show (m₂.setFlink last entry).bind _ = _
    rw [h₃]
    exact h₄
  · -- up to the new element, only the last one's link has changed
    rcases List.eq_nil_or_concat l with rfl | ⟨l, b, rfl⟩
    · obtain rfl := List.mem_singleton.mp hmem
      refine ⟨?_, ?_⟩
      · rw [hf₄, hf₃, if_pos rfl]
      · rw [hb₄, if_neg hne.symm, hb₃, hb₂, if_pos rfl]
    · rw [List.concat_eq_append] at h hnew hsome hmem ⊢
      obtain ⟨hup, -, hback⟩ := linked_append.mp h.1
      obtain rfl : b = last := Option.some.inj (hback.symm.trans hblink)
      have hnodup : (head :: l).Nodup ∧ b ∉ head :: l := by
        have hall := h.2
        rw [← List.cons_append, List.nodup_append] at hall
        exact ⟨hall.1, fun hb => hall.2.2 b hb b (List.mem_singleton_self b) rfl⟩
      have hnew' : ∀ z ∈ head :: l, z ≠ entry := by
        rintro z hz rfl
        exact hnew (by rw [← List.cons_append]; exact List.mem_append_left _ hz)
      refine linked_append.mpr ⟨hup.congr ?_ ?_, ?_, ?_⟩
      · intro z hz
        have hzb : z ≠ b := fun heq => hnodup.2 (heq ▸ hz)
        rw [hf₄, hf₃, if_neg hzb, hf₂, hf₁, if_neg (hnew' z hz)]
      · intro z hz
        have hzh : z ≠ head := by
          rintro rfl
          rcases List.mem_cons.mp hz with heq | hz
          · exact hnodup.2 (heq ▸ List.mem_cons_self)
          · exact (List.nodup_cons.mp hnodup.1).1 hz
        have hze : z ≠ entry := by
          rcases List.mem_cons.mp hz with rfl | hz
          · exact hlast
          · exact hnew' z (List.mem_cons_of_mem _ hz)
        rw [hb₄, if_neg hzh, hb₃, hb₂, if_neg hze, hb₁]
      · rw [hf₄, hf₃, if_pos rfl]
      · rw [hb₄, if_neg hne.symm, hb₃, hb₂, if_pos rfl]
  · rw [hf₄, hf₃, if_neg hlast.symm, hf₂, hf₁, if_pos rfl]
  · rw [hb₄, if_pos rfl]
  · rw [← List.cons_append, List.nodup_append]
    refine ⟨h.2, List.nodup_singleton _, fun z hz w hw => ?_⟩
    rintro rfl
    exact hnew (List.mem_singleton.mp hw ▸ hz)
  · rw [hbody₄, hbody₃, hbody₂, hbody₁]
  · obtain ⟨hze, hz⟩ := not_or.mp (mt List.mem_cons.mpr hz)
    have hzl : z ≠ last := fun heq => hz (heq ▸ hmem)
    have hzh : z ≠ head := fun heq => hz (heq ▸ List.mem_cons_self)
    rw [hsame₄ z hzh, hsame₃ z hzl, hsame₂ z hze, hsame₁ z hze]

theorem removeHeadList_ring (h : Ring m head (a :: l)) :
    ∃ m', m.removeHeadList head = some (a, m') ∧ Ring m' head l ∧ (∀ z, (m' z).map (·.body) = (m z).map (·.body)) ∧
      ∀ z, z ∉ head :: l → m' z = m z := by
  obtain ⟨⟨⟨hnext, -⟩, hrest⟩, hnodup⟩ := h
  obtain ⟨hhead, hnodup'⟩ := List.nodup_cons.mp hnodup
  obtain ⟨haway, hl⟩ := List.nodup_cons.mp hnodup'
  have hsome := Linked.isSome (m := m) (x := a) hrest
  have hhead' : (m head).isSome = true := by
    rw [flink] at hnext
    cases hm : m head with
    | none => rw [hm] at hnext; cases hnext
    | some n => rfl
  -- the element after `a`, or the head again
  obtain ⟨next, hflink, hnextMem⟩ : ∃ next, m.flink a = some next ∧ next ∈ head :: l := by
    cases l with
    | nil => exact ⟨head, hrest.1, List.mem_cons_self⟩
    | cons b l => exact ⟨b, hrest.1.1, List.mem_cons_of_mem _ List.mem_cons_self⟩
  have hnextSome : (m next).isSome = true := by
    rcases List.mem_cons.mp hnextMem with rfl | hn
    · exact hhead'
    · exact hsome next (List.mem_cons_of_mem _ hn)
  obtain ⟨m₁, h₁, hf₁, hb₁, hbody₁, hsame₁⟩ := setFlink_eq (x := next) hhead'
  obtain ⟨m₂, h₂, hb₂, hf₂, hbody₂, hsame₂⟩ := setBlink_eq (m := m₁) (a := next) (x := head)
    (by rw [isSome_of_body hbody₁, hnextSome])
  have hhl : head ∉ l := fun hm => hhead (List.mem_cons_of_mem _ hm)
  refine ⟨m₂, ?_, ⟨?_, List.nodup_cons.mpr ⟨hhl, hl⟩⟩, fun z => (hbody₂ z).trans (hbody₁ z), fun z hz => ?_⟩
  · rw [removeHeadList, hnext]
    show (m.flink a).bind _ = _
    rw [hflink]
    show (m.setFlink head next).bind _ = _
    rw [h₁]
    show (m₁.setBlink next head).bind _ = _
    rw [h₂]
    rfl
  · cases l with
    | nil =>
      obtain rfl : next = head := Option.some.inj (hflink.symm.trans hrest.1)
      refine ⟨?_, ?_⟩
      · rw [hf₂, hf₁, if_pos rfl]
      · rw [hb₂, if_pos rfl]
    | cons b l =>
      obtain rfl : next = b := Option.some.inj (hflink.symm.trans hrest.1.1)
      obtain ⟨hbl, -⟩ := List.nodup_cons.mp hl
      refine ⟨⟨?_, ?_⟩, hrest.2.congr ?_ ?_⟩
      · rw [hf₂, hf₁, if_pos rfl]
      · rw [hb₂, if_pos rfl]
      · intro z hz
        rw [hf₂, hf₁, if_neg]
        rintro rfl
        exact hhl hz
      · intro z hz
        rw [hb₂, if_neg, hb₁]
        rintro rfl
        rcases List.mem_cons.mp hz with heq | hz
        · exact hhl (heq ▸ List.mem_cons_self)
        · exact hbl hz
  · have hzh : z ≠ head := fun heq => hz (heq ▸ List.mem_cons_self)
    rw [hsame₂ z fun heq => hz (heq ▸ hnextMem), hsame₁ z hzh]

/-! ## A walk along the list -/

theorem walk_linked {x : α} (h : Linked m x l head) (hhead : head ∉ l) {n : Nat} (hn : l.length < n) :
    m.walk head n (l.headD head) = some l := by
  induction l generalizing x n with
  | nil =>
    obtain ⟨n, rfl⟩ := Nat.exists_eq_succ_of_ne_zero (Nat.ne_of_gt hn)
    rw [List.headD_nil, walk, if_pos rfl]
  | cons a l ih =>
    obtain ⟨n, rfl⟩ := Nat.exists_eq_succ_of_ne_zero (Nat.ne_of_gt (Nat.lt_of_le_of_lt (Nat.zero_le _) hn))
    have hne : a ≠ head := fun heq => hhead (heq ▸ List.mem_cons_self)
    rw [List.headD_cons, walk, if_neg hne, h.2.flink]
    show (m.walk head n (l.headD head)).bind _ = _
    rw [ih h.2 (fun hm => hhead (List.mem_cons_of_mem _ hm)) (Nat.lt_of_succ_lt_succ hn)]
    rfl

theorem elements_ring (h : Ring m head l) {n : Nat} (hn : l.length < n) : m.elements head n = some l := by
  rw [elements, h.1.flink]
  exact walk_linked h.1 (List.nodup_cons.mp h.2).1 hn

end TR.Nodes
