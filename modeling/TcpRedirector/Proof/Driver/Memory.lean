import Mathlib.Data.List.Perm.Subperm
import TcpRedirector.Impl.Driver.Memory
import TcpRedirector.Proof.Framework.Links
import TcpRedirector.Proof.Framework.Owns

/-!
# Who holds the blocks

`MemoryInv s parts`: every block that is allocated is a part of one holder, a
thread or one of the two lists, and has the body that the part says; the
lists' links run through their parts. A thread keeps this with an allocation
and with a write or free of a block of its own. `MemoryInv.insert` and
`MemoryInv.remove` move a block to a list and from a list to a thread; the
loops are runs of the latter.
-/

namespace TR.Impl

open List Nodes

inductive DriverList where
  | queue | rules
  deriving DecidableEq

def DriverList.head : DriverList → Addr
  | .queue => .redirectQueue
  | .rules => .rulesList

/-- What the blocks of a list have in them. -/
def DriverList.Fits : DriverList → Body → Prop
  | .queue, b => ∃ info, b = .redirectInfo .nDrT info
  | .rules, b => ∃ data, b = .ruleEntry .lRrT data

/-- The lists of `g_RedirectService` as lists of what is in their blocks. -/
structure DriverView where
  redirectService : RedirectService
  rulesList : List RuleEntry
  rulesCount : BitVec 32
  deriving Repr, DecidableEq

/-- None if a list does not come back to its head, or has a block of another kind. -/
def DriverMemory.view (s : DriverMemory) : Option DriverView := do
  let queue ← (← s.entries .redirectQueue).mapM s.redirectInfo
  let rules ← (← s.entries .rulesList).mapM s.ruleEntry
  some ⟨⟨queue, s.queueCount, s.queueMaxCount, s.nextRedirectId, s.totalRedirects, s.failedRedirects⟩, rules, s.rulesCount⟩

/-- The entries of `RulesList`. -/
def DriverMemory.rulesData (s : DriverMemory) : Option (List RuleData) := do (← s.entries .rulesList).mapM s.ruleData

inductive Holder where
  | thread (t : Nat)
  | list (d : DriverList)
  deriving DecidableEq

/-- An address and what is there. -/
abbrev Part := Addr × Body

def DriverMemory.IsLive (s : DriverMemory) (a : Addr) : Prop := ∃ n, a = .block n ∧ (s.nodes a).isSome = true

/-- The parts but for the one at `a`. -/
def dropPart (a : Addr) (l : List Part) : List Part := l.filter (·.1 ≠ a)

def Body.info? : Body → Option RedirectInfo
  | .redirectInfo _ info => some info
  | _ => none

def Body.data? : Body → Option RuleData
  | .ruleEntry _ data => some data
  | _ => none

def Body.rule? (b : Body) : Option RuleEntry := b.data?.map (·.rule)

/-- What the queue has where its blocks are these parts. -/
def infosOf (l : List Part) : List RedirectInfo := l.filterMap (·.2.info?)

def dataOf (l : List Part) : List RuleData := l.filterMap (·.2.data?)

def rulesOf (l : List Part) : List RuleEntry := l.filterMap (·.2.rule?)

def viewOf (s : DriverMemory) (parts : Holder → List Part) : DriverView :=
  ⟨⟨infosOf (parts (.list .queue)), s.queueCount, s.queueMaxCount, s.nextRedirectId, s.totalRedirects, s.failedRedirects⟩,
    rulesOf (parts (.list .rules)), s.rulesCount⟩

/-- `RedirectService_MatchRule` on the rules as a list; none where it leaves one of them. -/
def matchData (process : ProcessIdentity) : List RuleData → Option RuleActionType
  | [] => some RuleActionPermit
  | data :: rules =>
    match data.hits process with
    | none => none
    | some true => some data.rule.action
    | some false => matchData process rules

theorem rulesOf_eq (l : List Part) : rulesOf l = (dataOf l).map (·.rule) := (List.map_filterMap ..).symm

theorem RuleData.hits_eq_some {data : RuleData} {process : ProcessIdentity} {hit : Bool} (h : data.hits process = some hit) :
    data.rule.hits process = hit := by
  rw [RuleData.hits] at h
  split at h
  next => exact Option.some.inj h
  next => cases h

theorem RuleData.hits_eq_none_iff {data : RuleData} {process : ProcessIdentity} :
    data.hits process = none ↔ data.rule.isWildcard = false ∧ data.terminated = false := by
  rw [RuleData.hits, ← Bool.or_eq_false_iff]
  cases data.rule.isWildcard || data.terminated <;> simp

/-- Where no rule is left, the first one that hits decides. -/
theorem eq_driverMatchRule {process : ProcessIdentity} {rules : List RuleData} {action : RuleActionType}
    (h : matchData process rules = some action) : action = driverMatchRule (rules.map (·.rule)) process := by
  induction rules with
  | nil => exact (Option.some.inj h).symm
  | cons data rules ih =>
    rw [matchData] at h
    rw [List.map_cons, driverMatchRule, List.find?_cons]
    split at h
    next => cases h
    next hhits =>
      rw [RuleData.hits_eq_some hhits]
      exact (Option.some.inj h).symm
    next hhits =>
      rw [RuleData.hits_eq_some hhits]
      exact ih h

/-- A rule is left where the search comes to one that is no wildcard and has no terminator. -/
theorem matchData_eq_none_iff {process : ProcessIdentity} {rules : List RuleData} :
    matchData process rules = none ↔ ∃ pre data post, rules = pre ++ data :: post ∧
      (∀ x ∈ pre, x.rule.hits process = false) ∧ data.rule.isWildcard = false ∧ data.terminated = false := by
  induction rules with
  | nil => simp [matchData]
  | cons data rules ih =>
    rw [matchData]
    split
    next hnone => exact iff_of_true rfl ⟨[], data, rules, rfl, fun _ hx => absurd hx List.not_mem_nil, RuleData.hits_eq_none_iff.mp hnone⟩
    next htrue =>
      refine iff_of_false (Option.some_ne_none _) ?_
      rintro ⟨_ | ⟨x, pre⟩, data', post, heq, hpre, hdata⟩
      · obtain ⟨rfl, -⟩ := List.cons.inj heq
        rw [RuleData.hits_eq_none_iff.mpr hdata] at htrue
        cases htrue
      · obtain ⟨rfl, -⟩ := List.cons.inj heq
        have hmiss := hpre data List.mem_cons_self
        rw [RuleData.hits_eq_some htrue] at hmiss
        cases hmiss
    next hfalse =>
      rw [ih]
      constructor
      · rintro ⟨pre, data', post, rfl, hpre, hdata⟩
        exact ⟨data :: pre, data', post, rfl, List.forall_mem_cons.mpr ⟨RuleData.hits_eq_some hfalse, hpre⟩, hdata⟩
      · rintro ⟨_ | ⟨x, pre⟩, data', post, heq, hpre, hdata⟩
        · obtain ⟨rfl, -⟩ := List.cons.inj heq
          rw [RuleData.hits_eq_none_iff.mpr hdata] at hfalse
          cases hfalse
        · exact ⟨pre, data', post, (List.cons.inj heq).2, (List.forall_mem_cons.mp hpre).2, hdata⟩

structure MemoryInv (s : DriverMemory) (parts : Holder → List Part) : Prop where
  noFault : s.fault = false
  ring : ∀ d : DriverList, Ring s.nodes d.head ((parts (.list d)).map (·.1))
  owns : Owns (fun i => (parts i).map (·.1)) s.IsLive
  body : ∀ i, ∀ x ∈ parts i, s.body x.1 = some x.2
  fits : ∀ d : DriverList, ∀ x ∈ parts (.list d), d.Fits x.2
  fresh : ∀ n, s.allocated ≤ n → s.nodes (.block n) = none

theorem memoryInv_initialized : MemoryInv .initialized fun _ => [] := by
  refine ⟨rfl, ?_, ⟨fun _ => List.nodup_nil, ?_, ?_⟩, ?_, ?_, fun _ _ => rfl⟩
  · intro d
    cases d <;> exact ⟨⟨rfl, rfl⟩, List.nodup_singleton _⟩
  · intro i j b hb
    cases hb
  · intro a
    refine ⟨?_, ?_⟩
    · rintro ⟨n, rfl, hn⟩
      cases hn
    · rintro ⟨i, hi⟩
      cases hi
  · intro i x hx
    cases hx
  · intro d x hx
    cases hx

section

variable {s s' : DriverMemory} {parts : Holder → List Part} {t n : Nat} {a : Addr} {b b' : Body} {d : DriverList} {l : List Part}

/-! ## Parts -/

theorem mem_addrs {x : Part} (hx : x ∈ l) : x.1 ∈ l.map (·.1) := List.mem_map_of_mem hx

theorem dropPart_of_not_mem (ha : a ∉ l.map (·.1)) : dropPart a l = l := by
  rw [dropPart, List.filter_eq_self]
  intro y hy
  rw [decide_eq_true_eq]
  rintro rfl
  exact ha (mem_addrs hy)

theorem dropPart_concat (ha : a ∉ l.map (·.1)) : dropPart a (l ++ [(a, b)]) = l := by
  rw [dropPart, List.filter_append, List.filter_cons_of_neg (by simp), List.filter_nil, List.append_nil]
  exact dropPart_of_not_mem ha

theorem dropPart_perm (hl : (l.map (·.1)).Nodup) (hx : (a, b) ∈ l) :
    l.Perm ((a, b) :: dropPart a l) := by
  induction l with
  | nil => cases hx
  | cons x l ih =>
    rw [List.map_cons, List.nodup_cons] at hl
    rcases List.mem_cons.mp hx with rfl | hx
    · have hrest : dropPart a ((a, b) :: l) = l := by
        rw [dropPart, List.filter_cons_of_neg (by simp), List.filter_eq_self]
        intro y hy
        rw [decide_eq_true_eq]
        rintro rfl
        exact hl.1 (mem_addrs (x := y) hy)
      rw [hrest]
    · have hne : x.1 ≠ a := by
        rintro rfl
        exact hl.1 (mem_addrs (x := (x.1, b)) hx)
      rw [dropPart, List.filter_cons_of_pos (by simpa using hne)]
      exact ((ih hl.2 hx).cons x).trans (List.Perm.swap ..)

theorem mem_dropPart {x : Part} : x ∈ dropPart a l ↔ x ∈ l ∧ x.1 ≠ a := by
  rw [dropPart, List.mem_filter, decide_eq_true_eq]

/-- A part is known by its address. -/
theorem part_unique (hl : (l.map (·.1)).Nodup) (hb : (a, b) ∈ l) (hb' : (a, b') ∈ l) : b = b' :=
  congrArg Prod.snd (List.inj_on_of_nodup_map hl hb hb' rfl)

/-- Reading at the addresses of the parts, where each has something to read. -/
theorem mapM_addrs {γ : Type} {f : Addr → Option γ} {g : Part → Option γ} (h : ∀ x ∈ l, f x.1 = g x ∧ (g x).isSome = true) :
    (l.map (·.1)).mapM f = some (l.filterMap g) := by
  induction l with
  | nil => rfl
  | cons x l ih =>
    obtain ⟨⟨hf, hg⟩, hl⟩ := List.forall_mem_cons.mp h
    obtain ⟨y, hy⟩ := Option.isSome_iff_exists.mp hg
    rw [List.map_cons, List.mapM_cons, ih hl, hf, hy, List.filterMap_cons_some hy]
    rfl

/-- A block that is not a part of a list is none of its nodes. -/
theorem not_mem_nodes (ha : .block n ∉ l.map (·.1)) : .block n ∉ d.head :: l.map (·.1) := by
  refine mt List.mem_cons.mp (not_or.mpr ⟨?_, ha⟩)
  cases d <;> exact Addr.noConfusion

theorem isLive_congr (h : s'.nodes a = s.nodes a) : s'.IsLive a ↔ s.IsLive a := by
  rw [DriverMemory.IsLive, h]
  rfl

theorem body_congr (h : s'.nodes a = s.nodes a) : s'.body a = s.body a := by
  rw [DriverMemory.body, h]
  rfl

namespace MemoryInv

/-- The counters are free. -/
theorem of_eq (h : MemoryInv s parts) (hnodes : s'.nodes = s.nodes) (hallocated : s'.allocated = s.allocated)
    (hfault : s'.fault = s.fault) : MemoryInv s' parts where
  noFault := hfault.trans h.noFault
  ring d := hnodes ▸ h.ring d
  owns := by
    have hlive : s'.IsLive = s.IsLive := by
      funext a
      rw [DriverMemory.IsLive, hnodes]
      rfl
    exact hlive ▸ h.owns
  body i x hx := by
    rw [DriverMemory.body, hnodes]
    exact h.body i x hx
  fits := h.fits
  fresh n hn := hnodes ▸ h.fresh n (hallocated ▸ hn)

theorem isLive (h : MemoryInv s parts) {i : Holder} {x : Part} (hx : x ∈ parts i) : s.IsLive x.1 :=
  h.owns.isLive (i := i) (mem_addrs hx)

theorem holder_unique (h : MemoryInv s parts) {i j : Holder} {x y : Part} (hx : x ∈ parts i) (hy : y ∈ parts j)
    (hxy : x.1 = y.1) : i = j :=
  h.owns.unique i j x.1 (mem_addrs hx) (hxy ▸ mem_addrs hy)

theorem isSome (h : MemoryInv s parts) {i : Holder} {x : Part} (hx : x ∈ parts i) : (s.nodes x.1).isSome = true := by
  obtain ⟨n, -, hn⟩ := h.isLive hx
  exact hn

theorem not_mem_nodes (h : MemoryInv s parts) {x : Part} (hx : x ∈ parts (.thread t)) :
    x.1 ∉ d.head :: (parts (.list d)).map (·.1) := by
  have hnot := h.owns.not_mem (i := .thread t) (j := .list d) (mem_addrs hx) Holder.noConfusion
  obtain ⟨n, hn, -⟩ := h.isLive hx
  rw [hn] at hnot ⊢
  exact TR.Impl.not_mem_nodes hnot

/-! ## A block of a thread -/

theorem allocate (h : MemoryInv s parts) (t : Nat) (tag : PoolTag) :
    MemoryInv (s.exAllocatePool tag).2
      (Function.update parts (.thread t) (((s.exAllocatePool tag).1, .zeroed tag) :: parts (.thread t))) := by
  have hfresh : ∀ i, .block s.allocated ∉ (parts i).map (·.1) := by
    intro i hi
    obtain ⟨n, hn, hsome⟩ := h.owns.isLive hi
    rw [h.fresh _ (Nat.le_refl _)] at hsome
    cases hsome
  have hsame : ∀ a, a ≠ .block s.allocated → (s.exAllocatePool tag).2.nodes a = s.nodes a :=
    fun a ha => Function.update_of_ne ha ..
  have hself : (s.exAllocatePool tag).2.nodes (.block s.allocated) = some ⟨_, _, .zeroed tag⟩ := Function.update_self ..
  refine ⟨h.noFault, fun d => ?_, ?_, fun i x hx => ?_, fun d x hx => ?_, fun n hn => ?_⟩
  · rw [Function.update_of_ne Holder.noConfusion]
    refine (h.ring d).congr fun z hz => hsame z ?_
    rintro rfl
    exact TR.Impl.not_mem_nodes (hfresh _) hz
  · refine h.owns.acquire (b := .block s.allocated) (i := .thread t) ?_ ?_ ?_ ?_
    · rintro ⟨n, -, hn⟩
      rw [h.fresh _ (Nat.le_refl _)] at hn
      cases hn
    · rw [Function.update_self]
      exact List.Perm.refl _
    · intro k hk
      rw [Function.update_of_ne hk]
    · intro c
      by_cases hc : c = .block s.allocated
      · subst hc
        refine ⟨fun _ => .inl rfl, fun _ => ⟨_, rfl, ?_⟩⟩
        rw [hself]
        rfl
      · rw [DriverMemory.IsLive, hsame c hc]
        exact ⟨.inr, fun hl => hl.resolve_left hc⟩
  · by_cases hi : i = .thread t
    · subst hi
      rw [Function.update_self] at hx
      rcases List.mem_cons.mp hx with rfl | hx
      · exact congrArg (Option.map (·.body)) hself
      · rw [DriverMemory.body, hsame x.1 fun heq => hfresh _ (heq ▸ mem_addrs hx)]
        exact h.body _ x hx
    · rw [Function.update_of_ne hi] at hx
      rw [DriverMemory.body, hsame x.1 fun heq => hfresh _ (heq ▸ mem_addrs hx)]
      exact h.body _ x hx
  · rw [Function.update_of_ne Holder.noConfusion] at hx
    exact h.fits d x hx
  · have hn' : s.allocated + 1 ≤ n := hn
    rw [hsame _ (by rw [ne_eq, Addr.block.injEq]; omega)]
    exact h.fresh n (by omega)

theorem own_nodup (h : MemoryInv s parts) (i : Holder) : ((parts i).map (·.1)).Nodup := h.owns.nodup i

theorem free (h : MemoryInv s parts) (hx : (a, b) ∈ parts (.thread t)) {u : PoolTag} (hu : b.tag = some u) (tag : PoolTag) :
    ∃ n, a = .block n ∧
      s.exFreePool a tag = some { s with nodes := Function.update s.nodes a none, freed := s.freed ++ [(n, u, tag)] } ∧
      MemoryInv { s with nodes := Function.update s.nodes a none, freed := s.freed ++ [(n, u, tag)] }
        (Function.update parts (.thread t) (dropPart a (parts (.thread t)))) := by
  obtain ⟨n, hn, -⟩ := h.isLive hx
  have hbody := h.body _ _ hx
  have hsame : ∀ c, c ≠ a → Function.update s.nodes a none c = s.nodes c := fun c hc => Function.update_of_ne hc ..
  refine ⟨n, hn, ?_, h.noFault, fun d => ?_, ?_, fun i x hx' => ?_, fun d x hx' => ?_, fun m hm => ?_⟩
  · dsimp only at hn hbody
    subst hn
    simp only [DriverMemory.exFreePool, hbody, hu, Option.map_some]
  · rw [Function.update_of_ne Holder.noConfusion]
    refine (h.ring d).congr fun z hz => hsame z ?_
    rintro rfl
    exact h.not_mem_nodes hx hz
  · refine h.owns.release (b := a) (i := .thread t) ?_ ?_ ?_
    · rw [Function.update_self]
      exact (dropPart_perm (h.own_nodup _) hx).map _
    · intro k hk
      rw [Function.update_of_ne hk]
    · intro c
      by_cases hc : c = a
      · subst hc
        refine ⟨?_, fun hl => absurd rfl hl.1⟩
        rintro ⟨m, -, hm⟩
        dsimp only at hm
        rw [Function.update_self] at hm
        cases hm
      · rw [isLive_congr (s := s) (hsame c hc)]
        exact ⟨fun hl => ⟨hc, hl⟩, fun hl => hl.2⟩
  · have hparts : x ∈ parts i ∧ x.1 ≠ a := by
      by_cases hi : i = .thread t
      · subst hi
        rw [Function.update_self] at hx'
        exact mem_dropPart.mp hx'
      · rw [Function.update_of_ne hi] at hx'
        exact ⟨hx', fun hxa => hi (h.holder_unique hx' hx hxa)⟩
    rw [body_congr (s := s) (hsame _ hparts.2)]
    exact h.body i x hparts.1
  · rw [Function.update_of_ne Holder.noConfusion] at hx'
    exact h.fits d x hx'
  · by_cases hm' : .block m = a
    · dsimp only
      rw [hm', Function.update_self]
    · exact (hsame _ hm').trans (h.fresh m hm)

theorem setBody (h : MemoryInv s parts) (hx : (a, b) ∈ parts (.thread t)) (b' : Body) :
    ∃ nodes, s.setBody a b' = some { s with nodes } ∧
      MemoryInv { s with nodes } (Function.update parts (.thread t) ((a, b') :: dropPart a (parts (.thread t)))) := by
  obtain ⟨m, hm, hself, hsame⟩ := modify_eq (f := fun n => { n with body := b' }) (h.isSome hx)
  dsimp only at hm hself hsame
  have hsome : ∀ c, (m c).isSome = (s.nodes c).isSome := by
    intro c
    by_cases hc : c = a
    · rw [hc, hself, Option.isSome_map]
    · rw [hsame c hc]
  refine ⟨m, by rw [DriverMemory.setBody, hm]; rfl, h.noFault, fun d => ?_, ?_, fun i x hx' => ?_, fun d x hx' => ?_,
    fun n hn => ?_⟩
  · rw [Function.update_of_ne Holder.noConfusion]
    refine (h.ring d).congr fun z hz => hsame z ?_
    rintro rfl
    exact h.not_mem_nodes hx hz
  · refine h.owns.congr (fun i => ?_) fun c => ?_
    · by_cases hi : i = .thread t
      · subst hi
        rw [Function.update_self]
        exact ((dropPart_perm (h.own_nodup _) hx).map Prod.fst).symm
      · rw [Function.update_of_ne hi]
    · rw [DriverMemory.IsLive, hsome]
      rfl
  · by_cases hxa : x.1 = a
    · -- the block at this address is the thread's
      have hi : i = .thread t := by
        by_contra hi
        rw [Function.update_of_ne hi] at hx'
        exact hi (h.holder_unique hx' hx hxa)
      subst hi
      rw [Function.update_self] at hx'
      rcases List.mem_cons.mp hx' with rfl | hx'
      · obtain ⟨k, hk⟩ := Option.isSome_iff_exists.mp (h.isSome hx)
        dsimp only at hk
        rw [hk] at hself
        exact congrArg (Option.map (·.body)) hself
      · exact absurd hxa (mem_dropPart.mp hx').2
    · have hparts : x ∈ parts i := by
        by_cases hi : i = .thread t
        · subst hi
          rw [Function.update_self] at hx'
          rcases List.mem_cons.mp hx' with rfl | hx'
          · exact absurd rfl hxa
          · exact (mem_dropPart.mp hx').1
        · rwa [Function.update_of_ne hi] at hx'
      rw [body_congr (s := s) (hsame _ hxa)]
      exact h.body i x hparts
  · rw [Function.update_of_ne Holder.noConfusion] at hx'
    exact h.fits d x hx'
  · have hn' := hsome (.block n)
    rw [h.fresh n hn] at hn'
    exact Option.isSome_eq_false_iff.mp hn' |> Option.isNone_iff_eq_none.mp

/-! ## Between a thread and a list -/

theorem move (h : MemoryInv s parts) {parts' : Holder → List Part} {nodes : Nodes Addr Body}
    (hbody : ∀ z, (nodes z).map (·.body) = (s.nodes z).map (·.body)) {i j : Holder} (hij : i ≠ j)
    (hmove : (parts' i ++ parts' j).Perm (parts i ++ parts j)) (hsame : ∀ k, k ≠ i → k ≠ j → parts' k = parts k)
    (hring : ∀ d : DriverList, Ring nodes d.head ((parts' (.list d)).map (·.1)))
    (hfits : ∀ d : DriverList, ∀ x ∈ parts' (.list d), d.Fits x.2) : MemoryInv { s with nodes } parts' := by
  refine ⟨h.noFault, hring, ?_, fun k x hx => ?_, hfits, fun n hn => ?_⟩
  · have hlive : ∀ c, DriverMemory.IsLive { s with nodes } c ↔ s.IsLive c := by
      intro c
      rw [DriverMemory.IsLive, isSome_of_body hbody]
      rfl
    have howns : Owns (fun i => (parts' i).map (·.1)) s.IsLive := by
      refine h.owns.move hij ?_ fun k hki hkj => by rw [hsame k hki hkj]
      rw [← List.map_append, ← List.map_append]
      exact hmove.map _
    exact howns.congr (fun _ => List.Perm.refl _) hlive
  · have hx' : ∃ k', x ∈ parts k' := by
      by_cases hk : k = i ∨ k = j
      · have hmem : x ∈ parts i ++ parts j := by
          rw [← hmove.mem_iff, List.mem_append]
          rcases hk with rfl | rfl
          · exact .inl hx
          · exact .inr hx
        rcases List.mem_append.mp hmem with hx | hx
        · exact ⟨i, hx⟩
        · exact ⟨j, hx⟩
      · rw [hsame k (fun hi => hk (.inl hi)) fun hj => hk (.inr hj)] at hx
        exact ⟨k, hx⟩
    obtain ⟨k', hx'⟩ := hx'
    exact (hbody x.1).trans (h.body k' x hx')
  · have hn' := isSome_of_body hbody (.block n)
    rw [h.fresh n hn] at hn'
    exact Option.isSome_eq_false_iff.mp hn' |> Option.isNone_iff_eq_none.mp

/-- The other list stays as it is if its nodes do: no other holder has them. -/
theorem ring_other (h : MemoryInv s parts) {d' : DriverList} (hd : d' ≠ d) {nodes : Nodes Addr Body}
    (hsame : ∀ z, z ≠ d.head → (∀ i, z ∈ (parts i).map (·.1) → i = .list d') → nodes z = s.nodes z) :
    Ring nodes d'.head ((parts (.list d')).map (·.1)) := by
  refine (h.ring d').congr fun z hz => ?_
  rcases List.mem_cons.mp hz with rfl | hz
  · refine hsame _ ?_ fun i hi => ?_
    · cases d <;> cases d' <;> first | exact absurd rfl hd | exact Addr.noConfusion
    · obtain ⟨n, hn, -⟩ := h.owns.isLive (i := i) hi
      cases d' <;> cases hn
  · refine hsame z ?_ fun i hi => h.owns.unique _ _ z hi hz
    obtain ⟨n, rfl, -⟩ := h.owns.isLive (i := .list d') hz
    cases d <;> exact Addr.noConfusion

theorem insert (h : MemoryInv s parts) (hx : (a, b) ∈ parts (.thread t)) (hfit : d.Fits b) :
    ∃ nodes, s.nodes.insertTailList d.head a = some nodes ∧
      MemoryInv { s with nodes } (Function.update (Function.update parts (.thread t) (dropPart a (parts (.thread t))))
        (.list d) (parts (.list d) ++ [(a, b)])) := by
  obtain ⟨nodes, hinsert, hring, hbody, hsame⟩ := insertTailList_ring (h.ring d) (h.isSome hx) (h.not_mem_nodes hx)
  have hlist : ∀ d' : DriverList, d' ≠ d → ∀ l l', Function.update (Function.update parts (.thread t) l) (.list d) l'
      (.list d') = parts (.list d') := by
    intro d' hd l l'
    rw [Function.update_of_ne (by rwa [ne_eq, Holder.list.injEq]), Function.update_of_ne Holder.noConfusion]
  refine ⟨nodes, hinsert, h.move hbody (i := .thread t) (j := .list d) Holder.noConfusion ?_ ?_ ?_ ?_⟩
  · rw [Function.update_of_ne Holder.noConfusion, Function.update_self, Function.update_self]
    calc dropPart a (parts (.thread t)) ++ (parts (.list d) ++ [(a, b)])
      _ = dropPart a (parts (.thread t)) ++ parts (.list d) ++ [(a, b)] := (List.append_assoc ..).symm
      _ ~ (a, b) :: dropPart a (parts (.thread t)) ++ parts (.list d) := List.perm_append_singleton ..
      _ ~ parts (.thread t) ++ parts (.list d) := (dropPart_perm (h.own_nodup _) hx).symm.append_right _
  · intro k hki hkj
    rw [Function.update_of_ne hkj, Function.update_of_ne hki]
  · intro d'
    by_cases hd : d' = d
    · subst hd
      rw [Function.update_self, List.map_append]
      exact hring
    · rw [hlist d' hd]
      refine h.ring_other hd fun z hz hholder => hsame z fun hmem => ?_
      rcases List.mem_cons.mp hmem with rfl | hmem
      · cases hholder _ (mem_addrs hx)
      · rcases List.mem_cons.mp hmem with rfl | hmem
        · exact hz rfl
        · cases hholder (.list d) hmem
          exact hd rfl
  · intro d' x hx'
    by_cases hd : d' = d
    · subst hd
      rw [Function.update_self] at hx'
      rcases List.mem_append.mp hx' with hx' | hx'
      · exact h.fits _ x hx'
      · obtain rfl := List.mem_singleton.mp hx'
        exact hfit
    · rw [hlist d' hd] at hx'
      exact h.fits d' x hx'

theorem remove (h : MemoryInv s parts) (hl : parts (.list d) = (a, b) :: l) (t : Nat) :
    ∃ nodes, s.nodes.removeHeadList d.head = some (a, nodes) ∧
      MemoryInv { s with nodes }
        (Function.update (Function.update parts (.list d) l) (.thread t) (parts (.thread t) ++ [(a, b)])) := by
  have hring := h.ring d
  rw [hl, List.map_cons] at hring
  obtain ⟨nodes, hremove, hring', hbody, hsame⟩ := removeHeadList_ring hring
  have hlist : ∀ d' : DriverList, ∀ l', Function.update (Function.update parts (.list d) l) (.thread t) l' (.list d') =
      if d' = d then l else parts (.list d') := by
    intro d' l'
    rw [Function.update_of_ne Holder.noConfusion]
    split
    next hd => rw [hd, Function.update_self]
    next hd => rw [Function.update_of_ne (by rwa [ne_eq, Holder.list.injEq])]
  refine ⟨nodes, hremove, h.move hbody (i := .list d) (j := .thread t) Holder.noConfusion ?_ ?_ ?_ ?_⟩
  · rw [Function.update_of_ne Holder.noConfusion, Function.update_self, Function.update_self, hl, ← List.append_assoc]
    exact List.perm_append_singleton ..
  · intro k hki hkj
    rw [Function.update_of_ne hkj, Function.update_of_ne hki]
  · intro d'
    rw [hlist]
    split
    next hd => exact hd ▸ hring'
    next hd =>
      refine h.ring_other hd fun z hz hholder => hsame z fun hmem => ?_
      rcases List.mem_cons.mp hmem with rfl | hmem
      · exact hz rfl
      · cases hholder (.list d) (by rw [hl]; exact List.mem_cons_of_mem _ hmem)
        exact hd rfl
  · intro d' x hx
    rw [hlist] at hx
    split at hx
    next hd =>
      subst hd
      exact h.fits _ x (by rw [hl]; exact List.mem_cons_of_mem _ hx)
    next => exact h.fits d' x hx

/-! ## The loops -/

theorem length_lt_fuel (h : MemoryInv s parts) (d : DriverList) : (parts (.list d)).length < s.fuel := by
  have hsub : (parts (.list d)).map (·.1) ⊆ (List.range s.allocated).map .block := by
    intro a ha
    obtain ⟨n, rfl, hn⟩ := h.owns.isLive (i := .list d) ha
    refine List.mem_map_of_mem (List.mem_range.mpr (Nat.lt_of_not_le fun hle => ?_))
    rw [h.fresh n hle] at hn
    cases hn
  have hle := ((h.own_nodup (.list d)).subperm hsub).length_le
  rw [List.length_map, List.length_map, List.length_range] at hle
  exact Nat.lt_succ_of_le hle

theorem isListEmpty (h : MemoryInv s parts) (d : DriverList) :
    s.nodes.isListEmpty d.head = some (parts (.list d)).isEmpty := by
  rw [isListEmpty_ring (h.ring d), List.isEmpty_map]

end MemoryInv

/-- What `freeLoop` adds to the blocks freed. -/
def freedBy (tag : PoolTag) (l : List Part) : List (Nat × PoolTag × PoolTag) :=
  l.filterMap fun x =>
    match x.1, x.2.tag with
    | .block n, some u => some (n, u, tag)
    | _, _ => none

/-- The tag that the blocks of a list were allocated with. -/
def DriverList.tag : DriverList → PoolTag
  | .queue => .nDrT
  | .rules => .lRrT

theorem tag_of_fits (h : d.Fits b) : b.tag = some d.tag := by
  cases d <;> obtain ⟨_, rfl⟩ := h <;> rfl

namespace MemoryInv

theorem freedBy_tags (h : MemoryInv s parts) (tag : PoolTag) :
    (∀ x ∈ freedBy tag (parts (.list d)), x.2.1 = x.2.2) ↔ d.tag = tag ∨ parts (.list d) = [] := by
  have hone : ∀ x ∈ parts (.list d), ∃ n, freedBy tag [x] = [(n, d.tag, tag)] := by
    intro x hx
    obtain ⟨n, hn, -⟩ := h.isLive hx
    refine ⟨n, ?_⟩
    simp only [freedBy, List.filterMap_cons, hn, tag_of_fits (h.fits d x hx), List.filterMap_nil]
  have hmem : ∀ x, x ∈ freedBy tag (parts (.list d)) ↔ ∃ y ∈ parts (.list d), x ∈ freedBy tag [y] := by
    intro x
    simp only [freedBy, List.mem_filterMap, List.mem_singleton, exists_eq_left]
  constructor
  · intro hall
    cases hl : parts (.list d) with
    | nil => exact .inr rfl
    | cons y l =>
      have hy : y ∈ parts (.list d) := by rw [hl]; exact List.mem_cons_self
      obtain ⟨n, hn⟩ := hone y hy
      exact .inl (hall (n, d.tag, tag) ((hmem _).mpr ⟨y, hy, by rw [hn]; exact List.mem_cons_self⟩))
  · intro htag x hx
    obtain ⟨y, hy, hxy⟩ := (hmem x).mp hx
    obtain ⟨n, hn⟩ := hone y hy
    rw [hn] at hxy
    obtain rfl := List.mem_singleton.mp hxy
    exact htag.resolve_right (List.ne_nil_of_mem hy)

/-- One round of `freeLoop`: the removed block is a thread's for a moment. -/
theorem removeFree (h : MemoryInv s parts) (hl : parts (.list d) = (a, b) :: l) (tag : PoolTag) :
    ∃ nodes nodes', s.nodes.removeHeadList d.head = some (a, nodes) ∧
      DriverMemory.exFreePool { s with nodes } a tag =
        some { s with nodes := nodes', freed := s.freed ++ freedBy tag [(a, b)] } ∧
      MemoryInv { s with nodes := nodes', freed := s.freed ++ freedBy tag [(a, b)] } (Function.update parts (.list d) l) := by
  obtain ⟨nodes, hremove, hmoved⟩ := h.remove hl 0
  have hx : (a, b) ∈ parts (.list d) := by rw [hl]; exact List.mem_cons_self
  have hu := tag_of_fits (h.fits d _ hx)
  have hown : (a, b) ∈ Function.update (Function.update parts (.list d) l) (.thread 0) (parts (.thread 0) ++ [(a, b)]) (.thread 0) := by
    rw [Function.update_self]
    exact List.mem_append_right _ (List.mem_singleton_self _)
  obtain ⟨n, rfl, hfree, hfreed⟩ := hmoved.free hown hu tag
  have hby : freedBy tag [(Addr.block n, b)] = [(n, d.tag, tag)] := by
    simp only [freedBy, List.filterMap_cons, hu, List.filterMap_nil]
  have hparts : Function.update (Function.update (Function.update parts (.list d) l) (.thread 0)
      (parts (.thread 0) ++ [(.block n, b)])) (.thread 0) (dropPart (.block n) (Function.update (Function.update parts (.list d) l)
        (.thread 0) (parts (.thread 0) ++ [(.block n, b)]) (.thread 0))) = Function.update parts (.list d) l := by
    rw [Function.update_idem, Function.update_self, dropPart_concat fun hmem => ?_]
    · exact Function.update_eq_iff.mpr ⟨(Function.update_of_ne (β := fun _ => List Part) Holder.noConfusion ..).symm, fun _ _ => rfl⟩
    · cases h.owns.unique (.thread 0) (.list d) _ hmem (mem_addrs hx)
  rw [hparts] at hfreed
  refine ⟨nodes, Function.update nodes (.block n) none, hremove, ?_, ?_⟩
  · rw [hfree, hby]
  · rw [hby]
    exact hfreed

theorem freeLoop (h : MemoryInv s parts) (tag : PoolTag) (hn : (parts (.list d)).length < n) :
    ∃ nodes, DriverMemory.freeLoop d.head tag n s =
        some { s with nodes, freed := s.freed ++ freedBy tag (parts (.list d)) } ∧
      MemoryInv { s with nodes, freed := s.freed ++ freedBy tag (parts (.list d)) } (Function.update parts (.list d) []) := by
  induction n generalizing s parts with
  | zero => exact absurd hn (Nat.not_lt_zero _)
  | succ n ih =>
    cases hl : parts (.list d) with
    | nil =>
      refine ⟨s.nodes, ?_, ?_⟩
      · rw [DriverMemory.freeLoop, h.isListEmpty d, hl]
        simp [freedBy]
      · have hsame : Function.update parts (.list d) [] = parts := by rw [← hl, Function.update_eq_self]
        rw [hsame]
        exact h.of_eq rfl rfl rfl
    | cons x l =>
      obtain ⟨a, b⟩ := x
      obtain ⟨nodes, nodes₁, hremove, hfree, hfreed⟩ := h.removeFree hl tag
      have hrest : Function.update parts (.list d) l (.list d) = l := Function.update_self ..
      obtain ⟨nodes₂, hloop, hinv⟩ := ih hfreed (by rw [hrest]; rw [hl] at hn; exact Nat.lt_of_succ_lt_succ hn)
      rw [hrest, Function.update_idem] at hinv
      rw [hrest] at hloop
      have hby : s.freed ++ freedBy tag [(a, b)] ++ freedBy tag l = s.freed ++ freedBy tag ((a, b) :: l) := by
        rw [List.append_assoc, freedBy, freedBy, freedBy, ← List.filterMap_append, List.singleton_append]
      dsimp only at hinv hloop
      rw [hby] at hinv hloop
      refine ⟨nodes₂, ?_, hinv⟩
      rw [DriverMemory.freeLoop, h.isListEmpty d, hl]
      show (s.nodes.removeHeadList d.head).bind _ = _
      rw [hremove]
      show (DriverMemory.exFreePool _ a tag).bind _ = _
      rw [hfree]
      exact hloop

theorem peekLoop (h : MemoryInv s parts) (t n : Nat) :
    ∃ nodes, DriverMemory.peekLoop n s = some (((parts (.list .queue)).take n).map (·.1), { s with
        nodes
        queueCount := s.queueCount - BitVec.ofNat 32 ((parts (.list .queue)).take n).length }) ∧
      MemoryInv { s with nodes, queueCount := s.queueCount - BitVec.ofNat 32 ((parts (.list .queue)).take n).length }
        (Function.update (Function.update parts (.list .queue) ((parts (.list .queue)).drop n)) (.thread t)
          (parts (.thread t) ++ (parts (.list .queue)).take n)) := by
  induction n generalizing s parts with
  | zero =>
    refine ⟨s.nodes, ?_, ?_⟩
    · simp [DriverMemory.peekLoop]
    · rw [List.drop_zero, List.take_zero, List.append_nil, Function.update_eq_self, Function.update_eq_self]
      exact h.of_eq rfl rfl rfl
  | succ n ih =>
    cases hl : parts (.list .queue) with
    | nil =>
      refine ⟨s.nodes, ?_, ?_⟩
      · have hempty := h.isListEmpty .queue
        rw [hl] at hempty
        rw [DriverMemory.peekLoop]
        show (s.nodes.isListEmpty DriverList.queue.head).bind _ = _
        rw [hempty]
        simp
      · rw [List.drop_nil, List.take_nil, List.append_nil, ← hl, Function.update_eq_self, Function.update_eq_self]
        exact h.of_eq rfl rfl rfl
    | cons x l =>
      obtain ⟨a, b⟩ := x
      obtain ⟨nodes, hremove, hmoved⟩ := h.remove hl t
      have hmoved' : MemoryInv { s with nodes, queueCount := s.queueCount - 1 } _ := hmoved.of_eq rfl rfl rfl
      have hqueue : Function.update (Function.update parts (.list .queue) l) (.thread t) (parts (.thread t) ++ [(a, b)])
          (.list .queue) = l := by
        rw [Function.update_of_ne Holder.noConfusion, Function.update_self]
      obtain ⟨nodes', hloop, hinv⟩ := ih hmoved'
      rw [hqueue] at hloop hinv
      have hcount : s.queueCount - 1 - BitVec.ofNat 32 (l.take n).length = s.queueCount - BitVec.ofNat 32 ((l.take n).length + 1) := by
        rw [BitVec.ofNat_add]
        generalize BitVec.ofNat 32 (l.take n).length = k
        generalize s.queueCount = c
        bv_omega
      dsimp only at hloop hinv
      rw [hcount] at hloop hinv
      refine ⟨nodes', ?_, ?_⟩
      · have hempty := h.isListEmpty .queue
        rw [hl] at hempty
        rw [DriverMemory.peekLoop]
        show (s.nodes.isListEmpty DriverList.queue.head).bind _ = _
        rw [hempty]
        show (s.nodes.removeHeadList DriverList.queue.head).bind _ = _
        rw [hremove]
        show (DriverMemory.peekLoop n _).bind _ = _
        rw [hloop]
        rfl
      · rw [Function.update_self, Function.update_comm Holder.noConfusion, Function.update_idem,
          Function.update_comm Holder.noConfusion, Function.update_idem, List.append_assoc, List.singleton_append] at hinv
        rw [List.drop_succ_cons, List.take_succ_cons]
        exact hinv

/-! ## What the lists have in them -/

theorem redirectInfo_eq (h : MemoryInv s parts) {i : Holder} {x : Part} (hx : x ∈ parts i) : s.redirectInfo x.1 = x.2.info? := by
  rw [DriverMemory.redirectInfo, h.body i x hx]
  cases x.2 <;> rfl

theorem ruleData_eq (h : MemoryInv s parts) {i : Holder} {x : Part} (hx : x ∈ parts i) : s.ruleData x.1 = x.2.data? := by
  rw [DriverMemory.ruleData, h.body i x hx]
  cases x.2 <;> rfl

theorem ruleEntry_eq (h : MemoryInv s parts) {i : Holder} {x : Part} (hx : x ∈ parts i) : s.ruleEntry x.1 = x.2.rule? :=
  congrArg (Option.map RuleData.rule) (h.ruleData_eq hx)

theorem entries_eq (h : MemoryInv s parts) (d : DriverList) : s.entries d.head = some ((parts (.list d)).map (·.1)) :=
  elements_ring (h.ring d) (by rw [List.length_map]; exact h.length_lt_fuel d)

theorem view_eq (h : MemoryInv s parts) : s.view = some (viewOf s parts) := by
  have hqueue : ((parts (.list .queue)).map (·.1)).mapM s.redirectInfo = some (infosOf (parts (.list .queue))) := by
    refine mapM_addrs fun x hx => ?_
    obtain ⟨info, hinfo⟩ := h.fits .queue x hx
    exact ⟨h.redirectInfo_eq hx, by rw [hinfo]; rfl⟩
  have hrules : ((parts (.list .rules)).map (·.1)).mapM s.ruleEntry = some (rulesOf (parts (.list .rules))) := by
    refine mapM_addrs fun x hx => ?_
    obtain ⟨rule, hrule⟩ := h.fits .rules x hx
    exact ⟨h.ruleEntry_eq hx, by rw [hrule]; rfl⟩
  rw [DriverMemory.view]
  show (s.entries DriverList.queue.head).bind _ = _
  rw [h.entries_eq]
  show (((parts (.list .queue)).map (·.1)).mapM s.redirectInfo).bind _ = _
  rw [hqueue]
  show (s.entries DriverList.rules.head).bind _ = _
  rw [h.entries_eq]
  show (((parts (.list .rules)).map (·.1)).mapM s.ruleEntry).bind _ = _
  rw [hrules]
  rfl

theorem rulesData_eq (h : MemoryInv s parts) : s.rulesData = some (dataOf (parts (.list .rules))) := by
  rw [DriverMemory.rulesData]
  show (s.entries DriverList.rules.head).bind _ = _
  rw [h.entries_eq]
  refine mapM_addrs (g := (·.2.data?)) fun x hx => ?_
  obtain ⟨data, hdata⟩ := h.fits .rules x hx
  exact ⟨h.ruleData_eq hx, by rw [hdata]; rfl⟩

/-- From the rules `l` on, the loop finds what the search in the list finds. -/
theorem matchLoop_eq (h : MemoryInv s parts) (process : ProcessIdentity) {x : Addr} (hl : l ⊆ parts (.list .rules))
    (hlinked : Linked s.nodes x (l.map (·.1)) .rulesList) (hn : l.length < n) :
    s.matchLoop process n ((l.map (·.1)).headD .rulesList) = some (matchData process (dataOf l)) := by
  induction l generalizing x n with
  | nil =>
    obtain ⟨n, rfl⟩ := Nat.exists_eq_succ_of_ne_zero (Nat.ne_of_gt hn)
    rw [List.map_nil, List.headD_nil, DriverMemory.matchLoop, if_pos rfl]
    rfl
  | cons y l ih =>
    obtain ⟨n, rfl⟩ := Nat.exists_eq_succ_of_ne_zero (Nat.ne_of_gt (Nat.lt_of_le_of_lt (Nat.zero_le _) hn))
    obtain ⟨hy, hl⟩ := List.cons_subset.mp hl
    obtain ⟨data, hdata⟩ := h.fits .rules y hy
    have hne : y.1 ≠ .rulesList := by
      obtain ⟨m, hm, -⟩ := h.isLive hy
      rw [hm]
      exact Addr.noConfusion
    have hcons : dataOf (y :: l) = data :: dataOf l := List.filterMap_cons_some (by rw [hdata]; rfl)
    rw [List.map_cons, List.headD_cons, DriverMemory.matchLoop, if_neg hne, h.ruleData_eq hy, hdata]
    show (s.nodes.flink y.1).bind _ = _
    rw [hlinked.2.flink, hcons, matchData]
    have hrest := ih hl hlinked.2 (Nat.lt_of_succ_lt_succ hn)
    rcases data.hits process with _ | _ | _
    · rfl
    · exact hrest
    · rfl

theorem matchRule_eq (h : MemoryInv s parts) (process : ProcessIdentity) :
    s.matchRule process = some (matchData process (dataOf (parts (.list .rules)))) := by
  have hring : Linked s.nodes .rulesList _ .rulesList := (h.ring .rules).1
  rw [DriverMemory.matchRule, hring.flink]
  exact h.matchLoop_eq process (List.Subset.refl _) hring (h.length_lt_fuel .rules)

end MemoryInv

end

end TR.Impl
