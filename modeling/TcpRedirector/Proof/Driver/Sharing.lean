import TcpRedirector.Proof.Driver.Memory
import TcpRedirector.Proof.Driver.Queue
import TcpRedirector.Proof.Framework.Threads

/-!
# The threads of the driver

What a thread may do with the blocks that it holds (`driverRules`), that every
operation keeps to it (`program_keeps`), and that a call which is allowed
leaves every block with one holder and does to the lists what the model of
`RedirectService` does, unless it leaves a buffer (`answer_spec`).
-/

namespace TR.Impl

open List

/-! ## What a call does to the lists -/

/-- The lists before and after a call with its answer, as `RedirectService` has
it; `s` is the memory before the call. -/
def DriverView.Step (s : DriverMemory) (v v' : DriverView) : (c : MemoryCall) → c.Resp → Prop
  | .enqueue a, status => ∃ info tickCount, s.redirectInfo a = some info ∧
      v' = { v with redirectService := (v.redirectService.enqueue (some info) tickCount).1 } ∧
      status = (v.redirectService.enqueue (some info) tickCount).2.1
  | .peekBatch count, (status, batch) =>
      v' = { v with redirectService := (v.redirectService.peekBatch count).1 } ∧
      status = (v.redirectService.peekBatch count).2.1 ∧
      batch.map s.redirectInfo = (v.redirectService.peekBatch count).2.2.map some
  | .addRule a, _ => ∃ rule, s.ruleEntry a = some rule ∧
      v' = { v with rulesList := v.rulesList ++ [rule], rulesCount := v.rulesCount + 1 }
  | .clearRules, _ => v' = { v with rulesList := [], rulesCount := 0 }
  | .clearQueue, _ => v' = { v with redirectService := { v.redirectService with redirectQueue := [], queueCount := 0 } }
  | .matchRule process, action => v' = v ∧ action = driverMatchRule v.rulesList process
  | .readInfo a, packet => v' = v ∧ (s.redirectInfo a).map (·.packet) = some packet
  | _, _ => v' = v

/-! ## What a thread has of its own -/

/-- The blocks of a thread, and the packets of those that it took from the queue. -/
structure ThreadOwn where
  held : List Part
  taken : List RedirectDataPacket

/-- A part that was in the queue. -/
def queuePart (x : Addr × RedirectInfo) : Part := (x.1, .redirectInfo .nDrT x.2)

def driverRules : ThreadRules MemoryCall MemoryCall.Resp ThreadOwn where
  allowed own
    | .exFreePool a tag => ∃ b, (a, b) ∈ own.held ∧ b.tag = some tag
    | .writeInfo a _ => ∃ b tag, (a, b) ∈ own.held ∧ b.tag = some tag
    | .writeRule a _ => ∃ b tag, (a, b) ∈ own.held ∧ b.tag = some tag
    | .readInfo a => ∃ tag info, (a, .redirectInfo tag info) ∈ own.held
    | .enqueue a => ∃ info, (a, .redirectInfo .nDrT info) ∈ own.held
    | .addRule a => ∃ data, (a, .ruleEntry .lRrT data) ∈ own.held
    | .peekBatch count => own.held = [] ∧ count.toNat ≤ 64
    | _ => True
  next own c r own' :=
    match c, r with
    | .exAllocatePool tag, some a => own' = { own with held := (a, .zeroed tag) :: own.held }
    | .exFreePool a _, _ => own' = { own with held := dropPart a own.held }
    | .writeInfo a info, _ => ∃ b tag, (a, b) ∈ own.held ∧ b.tag = some tag ∧
        own' = { own with held := (a, .redirectInfo tag info) :: dropPart a own.held }
    | .writeRule a data, _ => ∃ b tag, (a, b) ∈ own.held ∧ b.tag = some tag ∧
        own' = { own with held := (a, .ruleEntry tag data) :: dropPart a own.held }
    | .readInfo a, packet => (own.held.map (·.1)).Nodup ∧ own' = own ∧
        ∃ tag info, (a, .redirectInfo tag info) ∈ own.held ∧ packet = info.packet
    | .enqueue a, status => own' = if status.ntSuccess then { own with held := dropPart a own.held } else own
    | .addRule a, _ => own' = { own with held := dropPart a own.held }
    | .peekBatch _, (status, batch) => ∃ xs : List (Addr × RedirectInfo), batch = xs.map (·.1) ∧ batch.Nodup ∧
        status = (if batch.isEmpty then .notFound else .success) ∧ own' = ⟨xs.map queuePart, xs.map (·.2.packet)⟩
    | _, _ => own' = own

/-- What a thread has when its operation returns, and what its caller has. -/
structure Idle (own : ThreadOwn) (r : DriverResult) : Prop where
  held : own.held = []
  written : r.written = own.taken
  received : r.received = []

/-! ## The programs -/

section

variable {own : ThreadOwn} {a : Addr} {tag : PoolTag}

theorem readBatch_keeps {xs : List (Addr × RedirectInfo)} (length i : Nat) (hxs : ∀ x ∈ xs, queuePart x ∈ own.held) :
    Keeps driverRules (fun own' packets => own' = own ∧ packets = xs.map (·.2.packet)) (readBatch length i (xs.map (·.1))) own := by
  induction xs generalizing i with
  | nil => exact ⟨rfl, rfl⟩
  | cons x xs ih =>
    obtain ⟨hx, hxs⟩ := List.forall_mem_cons.mp hxs
    refine ⟨⟨_, _, hx⟩, ?_⟩
    rintro packet _ ⟨hnodup, rfl, tag, info, hinfo, rfl⟩
    obtain ⟨rfl, rfl⟩ := Body.redirectInfo.inj (part_unique hnodup hx hinfo)
    refine ⟨trivial, ?_⟩
    rintro _ _ rfl
    refine (Keeps_bind (p := readBatch _ _ _)).mpr ((ih (i + 1) hxs).mono ?_)
    rintro _ packets ⟨rfl, rfl⟩
    exact ⟨rfl, rfl⟩

theorem dropPart_head {b : Body} {l : List Part} (ha : a ∉ l.map (·.1)) : dropPart a ((a, b) :: l) = l := by
  rw [dropPart, List.filter_cons_of_neg (by simp), ← dropPart, dropPart_of_not_mem ha]

theorem freeBatch_keeps {xs : List (Addr × RedirectInfo)} (hown : own.held = xs.map queuePart) (hnodup : (xs.map (·.1)).Nodup) :
    Keeps driverRules (fun own' _ => own' = { own with held := [] }) (freeBatch (xs.map (·.1))) own := by
  induction xs generalizing own with
  | nil => exact congrArg (ThreadOwn.mk · own.taken) hown
  | cons x xs ih =>
    obtain ⟨hx, hnodup⟩ := List.nodup_cons.mp hnodup
    refine ⟨⟨_, by rw [hown]; exact List.mem_cons_self, rfl⟩, ?_⟩
    rintro _ _ rfl
    have hrest : dropPart x.1 own.held = xs.map queuePart := by
      rw [hown, List.map_cons, queuePart, dropPart_head]
      rwa [List.map_map]
    exact @ih ⟨dropPart x.1 own.held, own.taken⟩ hrest hnodup

theorem classify_keeps (redirectHandle : BitVec 64) (values : ConnectValues) (calls : CalloutCalls) (classifyOut : ClassifyOut) :
    Keeps driverRules Idle (classifyMemory redirectHandle values calls classifyOut) ⟨[], []⟩ := by
  rw [classifyMemory]
  split
  next => exact ⟨rfl, rfl, rfl⟩
  next processId _ =>
    refine ⟨trivial, ?_⟩
    rintro (action : RuleActionType) _ rfl
    show Keeps driverRules Idle (if action ≠ RuleActionRedirect then _ else _) _
    split
    next => exact ⟨rfl, rfl, rfl⟩
    next =>
      split
      next =>
        split
        next =>
          refine ⟨trivial, ?_⟩
          rintro (_ | a) _ rfl
          · exact ⟨rfl, rfl, rfl⟩
          · refine ⟨⟨_, .nDrT, List.mem_cons_self, rfl⟩, ?_⟩
            rintro _ _ ⟨b, tag, hb, htag, rfl⟩
            obtain rfl := (Prod.mk.inj (List.mem_singleton.mp hb)).2
            obtain rfl := Option.some.inj htag
            rw [dropPart_head (List.not_mem_nil)]
            refine ⟨⟨_, List.mem_cons_self⟩, ?_⟩
            rintro (status : NtStatus) _ rfl
            show Keeps driverRules Idle (if status.ntSuccess then _ else _) _
            cases hs : status.ntSuccess with
            | true =>
              rw [if_pos rfl, if_pos rfl, dropPart_head List.not_mem_nil]
              exact ⟨rfl, rfl, rfl⟩
            | false =>
              rw [if_neg Bool.false_ne_true, if_neg Bool.false_ne_true]
              refine ⟨⟨_, List.mem_cons_self, rfl⟩, ?_⟩
              rintro _ _ rfl
              rw [dropPart_head List.not_mem_nil]
              exact ⟨rfl, rfl, rfl⟩
        next => exact ⟨rfl, rfl, rfl⟩
      next => exact ⟨rfl, rfl, rfl⟩

theorem getPending_keeps (inputLength outputLength : BitVec 32) :
    Keeps driverRules Idle (getPendingMemory inputLength outputLength) ⟨[], []⟩ := by
  refine ⟨⟨rfl, batchCount_le outputLength⟩, ?_⟩
  rintro ⟨status, batch⟩ _ ⟨xs, rfl, hnodup, hstatus, rfl⟩
  show Keeps driverRules Idle (if status.ntSuccess then _ else _) _
  cases xs with
  | nil =>
    rw [hstatus]
    exact ⟨rfl, rfl, rfl⟩
  | cons x xs =>
    rw [hstatus, if_pos (show NtStatus.ntSuccess (if List.isEmpty (List.map (·.1) (x :: xs)) then .notFound else .success) = true from rfl)]
    refine (Keeps_bind (p := readBatch _ _ _)).mpr ((readBatch_keeps _ 0 fun y hy => List.mem_map_of_mem hy).mono ?_)
    rintro _ packets ⟨rfl, rfl⟩
    refine (Keeps_bind (p := freeBatch _)).mpr ((freeBatch_keeps rfl hnodup).mono ?_)
    rintro _ _ rfl
    exact ⟨rfl, rfl, rfl⟩

theorem addRules_keeps (rules : List RuleData) :
    Keeps driverRules (fun own' _ => own' = ⟨[], []⟩) (addRules rules) ⟨[], []⟩ := by
  induction rules with
  | nil => rfl
  | cons rule rules ih =>
    refine (Keeps_bind (p := addRuleMemory rule)).mpr ⟨trivial, ?_⟩
    rintro (_ | a) _ rfl
    · rfl
    · refine ⟨⟨_, .lRrT, List.mem_cons_self, rfl⟩, ?_⟩
      rintro _ _ ⟨b, tag, hb, htag, rfl⟩
      obtain rfl := (Prod.mk.inj (List.mem_singleton.mp hb)).2
      obtain rfl := Option.some.inj htag
      rw [dropPart_head List.not_mem_nil]
      refine ⟨⟨_, List.mem_cons_self⟩, ?_⟩
      rintro _ _ rfl
      rw [dropPart_head List.not_mem_nil]
      exact ih

theorem program_keeps (op : DriverOp) : Keeps driverRules Idle op.program ⟨[], []⟩ := by
  cases op with
  | classify redirectHandle values calls classifyOut => exact classify_keeps redirectHandle values calls classifyOut
  | getPending inputLength outputLength => exact getPending_keeps inputLength outputLength
  | setRules rules =>
    show Keeps driverRules Idle (setRulesMemory rules) _
    rw [setRulesMemory]
    split
    next => exact ⟨rfl, rfl, rfl⟩
    next =>
      refine ⟨trivial, ?_⟩
      rintro _ _ rfl
      refine (Keeps_bind (p := addRules rules)).mpr ((addRules_keeps rules).mono ?_)
      rintro _ status rfl
      exact ⟨rfl, rfl, rfl⟩
  | clearRules =>
    refine ⟨trivial, ?_⟩
    rintro _ _ rfl
    exact ⟨rfl, rfl, rfl⟩
  | cleanup =>
    refine ⟨trivial, ?_⟩
    rintro _ _ rfl
    refine ⟨trivial, ?_⟩
    rintro _ _ rfl
    exact ⟨rfl, rfl, rfl⟩

end

/-! ## The calls -/

def packetsAt (s : DriverMemory) (batch : List Addr) : List RedirectDataPacket :=
  batch.filterMap fun a => (s.redirectInfo a).map (·.packet)

/-- Whether a call frees an entry of the queue with a tag that it was not allocated with. -/
def misfrees (s : DriverMemory) (c : MemoryCall) : Bool := c = .clearQueue && s.entries .redirectQueue ≠ some []

/-- What a call takes from the queue for its thread. -/
def takes (s : DriverMemory) : (c : MemoryCall) → c.Resp → Option (List RedirectDataPacket)
  | .peekBatch _, (_, batch) => some (packetsAt s batch)
  | _, _ => none

/-- What a call of thread `t` that its `own` allows does, `s'` being the memory after it. -/
structure AnswerSpec (t : Nat) (c : MemoryCall) (r : c.Resp) (s s' : DriverMemory) (parts parts' : Holder → List Part)
    (own own' : ThreadOwn) : Prop where
  next : driverRules.next own c r own'
  inv : MemoryInv s' parts'
  held : parts' (.thread t) = own'.held
  others : ∀ t', t' ≠ t → parts' (.thread t') = parts (.thread t')
  taken : own'.taken = (takes s c r).getD own.taken
  view : DriverView.Step s (viewOf s parts) (viewOf s' parts') c r
  freed : ∃ news : List (Nat × PoolTag × PoolTag), s'.freed = s.freed ++ news ∧
    ((∀ x ∈ news, x.2.1 = x.2.2) ↔ misfrees s c = false)
  overran : s'.overran = s.overran

section

variable {s : DriverMemory} {parts : Holder → List Part} {own : ThreadOwn} {t : Nat} {o : MemoryChoice}

/-- Only the thread's own blocks are other ones. -/
theorem parts_others {l : List Part} {t' : Nat} (h : t' ≠ t) : Function.update parts (.thread t) l (.thread t') = parts (.thread t') :=
  Function.update_of_ne (by rwa [ne_eq, Holder.thread.injEq]) ..

theorem viewOf_own {s' : DriverMemory} {l : List Part} (hcounters : viewOf s' parts = viewOf s parts) :
    viewOf s' (Function.update parts (.thread t) l) = viewOf s parts := by
  rw [← hcounters, viewOf, Function.update_of_ne Holder.noConfusion, Function.update_of_ne Holder.noConfusion]
  rfl

/-- No tag is wrong where nothing is freed. -/
theorem freed_none {s' : DriverMemory} {c : MemoryCall} (hfreed : s'.freed = s.freed) (hc : c ≠ .clearQueue) :
    ∃ news : List (Nat × PoolTag × PoolTag), s'.freed = s.freed ++ news ∧ ((∀ x ∈ news, x.2.1 = x.2.2) ↔ misfrees s c = false) := by
  refine ⟨[], hfreed.trans (List.append_nil _).symm, ?_⟩
  rw [misfrees, decide_eq_false hc]
  simp

theorem allocate_spec (h : MemoryInv s parts) (hown : parts (.thread t) = own.held) (tag : PoolTag) :
    ∃ own' parts', AnswerSpec t (.exAllocatePool tag) (MemoryCall.answer o (.exAllocatePool tag) s).1 s
      (MemoryCall.answer o (.exAllocatePool tag) s).2 parts parts' own own' := by
  cases ho : o.allocates with
  | true =>
    rw [MemoryCall.answer, if_pos ho]
    exact ⟨⟨(_, .zeroed tag) :: own.held, own.taken⟩, _, rfl, h.allocate t tag, by rw [Function.update_self, hown]; rfl,
      fun _ => parts_others, rfl, viewOf_own rfl, freed_none rfl MemoryCall.noConfusion, rfl⟩
  | false =>
    rw [MemoryCall.answer, if_neg (by rw [ho]; exact Bool.false_ne_true)]
    exact ⟨own, parts, rfl, h, hown, fun _ _ => rfl, rfl, rfl, freed_none rfl MemoryCall.noConfusion, rfl⟩

theorem free_spec (h : MemoryInv s parts) (hown : parts (.thread t) = own.held) {a : Addr} {tag : PoolTag}
    (hallowed : driverRules.allowed own (.exFreePool a tag)) :
    ∃ own' parts', AnswerSpec t (.exFreePool a tag) (MemoryCall.answer o (.exFreePool a tag) s).1 s
      (MemoryCall.answer o (.exFreePool a tag) s).2 parts parts' own own' := by
  obtain ⟨b, hb, htag⟩ := hallowed
  obtain ⟨n, rfl, hfree, hinv⟩ := h.free (hown ▸ hb) htag tag
  rw [MemoryCall.answer, hfree]
  refine ⟨⟨dropPart (.block n) own.held, own.taken⟩, _, rfl, hinv, by rw [Function.update_self, hown], fun _ => parts_others, rfl,
    viewOf_own rfl, ⟨[(n, tag, tag)], rfl, ?_⟩, rfl⟩
  simp [misfrees]

theorem write_spec (h : MemoryInv s parts) (hown : parts (.thread t) = own.held) {a : Addr} {b : Body}
    (hb : (a, b) ∈ own.held) (b' : Body) :
    ∃ nodes, s.setBody a b' = some { s with nodes } ∧ s.body a = some b ∧
      MemoryInv { s with nodes } (Function.update parts (.thread t) ((a, b') :: dropPart a own.held)) := by
  obtain ⟨nodes, hset, hinv⟩ := h.setBody (hown ▸ hb) b'
  exact ⟨nodes, hset, h.body (.thread t) _ (hown ▸ hb), hown ▸ hinv⟩

theorem writeInfo_spec (h : MemoryInv s parts) (hown : parts (.thread t) = own.held) {a : Addr} {info : RedirectInfo}
    (hallowed : driverRules.allowed own (.writeInfo a info)) :
    ∃ own' parts', AnswerSpec t (.writeInfo a info) (MemoryCall.answer o (.writeInfo a info) s).1 s
      (MemoryCall.answer o (.writeInfo a info) s).2 parts parts' own own' := by
  obtain ⟨b, tag, hb, htag⟩ := hallowed
  obtain ⟨nodes, hset, hbody, hinv⟩ := write_spec h hown hb (.redirectInfo tag info)
  have hwrite : s.writeInfo a info = some { s with nodes } := by
    rw [DriverMemory.writeInfo, hbody]
    show b.tag.bind _ = _
    rw [htag]
    exact hset
  rw [MemoryCall.answer, hwrite]
  refine ⟨⟨(a, .redirectInfo tag info) :: dropPart a own.held, own.taken⟩, _, ⟨b, tag, hb, htag, rfl⟩, hinv, Function.update_self ..,
    fun _ => parts_others, rfl, viewOf_own rfl, freed_none rfl MemoryCall.noConfusion, rfl⟩

theorem writeRule_spec (h : MemoryInv s parts) (hown : parts (.thread t) = own.held) {a : Addr} {data : RuleData}
    (hallowed : driverRules.allowed own (.writeRule a data)) :
    ∃ own' parts', AnswerSpec t (.writeRule a data) (MemoryCall.answer o (.writeRule a data) s).1 s
      (MemoryCall.answer o (.writeRule a data) s).2 parts parts' own own' := by
  obtain ⟨b, tag, hb, htag⟩ := hallowed
  obtain ⟨nodes, hset, hbody, hinv⟩ := write_spec h hown hb (.ruleEntry tag data)
  have hwrite : s.writeRule a data = some { s with nodes } := by
    rw [DriverMemory.writeRule, hbody]
    show b.tag.bind _ = _
    rw [htag]
    exact hset
  rw [MemoryCall.answer, hwrite]
  refine ⟨⟨(a, .ruleEntry tag data) :: dropPart a own.held, own.taken⟩, _, ⟨b, tag, hb, htag, rfl⟩, hinv, Function.update_self ..,
    fun _ => parts_others, rfl, viewOf_own rfl, freed_none rfl MemoryCall.noConfusion, rfl⟩

theorem readInfo_spec (h : MemoryInv s parts) (hown : parts (.thread t) = own.held) {a : Addr}
    (hallowed : driverRules.allowed own (.readInfo a)) :
    ∃ own' parts', AnswerSpec t (.readInfo a) (MemoryCall.answer o (.readInfo a) s).1 s
      (MemoryCall.answer o (.readInfo a) s).2 parts parts' own own' := by
  obtain ⟨tag, info, hinfo⟩ := hallowed
  have hread : s.redirectInfo a = some info := h.redirectInfo_eq (i := .thread t) (hown ▸ hinfo)
  rw [MemoryCall.answer, hread]
  exact ⟨own, parts, ⟨hown ▸ h.own_nodup (.thread t), rfl, tag, info, hinfo, rfl⟩, h, hown, fun _ _ => rfl, rfl,
    ⟨rfl, by rw [hread]; rfl⟩, freed_none rfl MemoryCall.noConfusion, rfl⟩

theorem not_mem_dropPart {a : Addr} {l : List Part} : a ∉ (dropPart a l).map (·.1) := by
  intro ha
  obtain ⟨x, hx, rfl⟩ := List.mem_map.mp ha
  exact (mem_dropPart.mp hx).2 rfl

/-- A block of the thread goes to the end of a list. -/
theorem insert_spec (h : MemoryInv s parts) {l : List Part} (hown : parts (.thread t) = l) {a : Addr} {b : Body} {d : DriverList}
    (hb : (a, b) ∈ l) (hfit : d.Fits b) :
    ∃ nodes parts', s.nodes.insertTailList d.head a = some nodes ∧ MemoryInv { s with nodes } parts' ∧
      parts' (.thread t) = dropPart a l ∧ (∀ t', t' ≠ t → parts' (.thread t') = parts (.thread t')) ∧
      parts' (.list d) = parts (.list d) ++ [(a, b)] ∧ ∀ d', d' ≠ d → parts' (.list d') = parts (.list d') := by
  obtain ⟨nodes, hinsert, hinv⟩ := h.insert (hown ▸ hb) hfit
  refine ⟨nodes, _, hinsert, hinv, ?_, fun t' ht' => ?_, Function.update_self .., fun d' hd' => ?_⟩
  · rw [Function.update_of_ne Holder.noConfusion, Function.update_self, hown]
  · rw [Function.update_of_ne Holder.noConfusion, parts_others ht']
  · rw [Function.update_of_ne (by rwa [ne_eq, Holder.list.injEq]), Function.update_of_ne Holder.noConfusion]

theorem enqueue_spec (h : MemoryInv s parts) (hown : parts (.thread t) = own.held) {a : Addr}
    (hallowed : driverRules.allowed own (.enqueue a)) :
    ∃ own' parts', AnswerSpec t (.enqueue a) (MemoryCall.answer o (.enqueue a) s).1 s
      (MemoryCall.answer o (.enqueue a) s).2 parts parts' own own' := by
  obtain ⟨info, hinfo⟩ := hallowed
  have hread : s.redirectInfo a = some info := h.redirectInfo_eq (i := .thread t) (hown ▸ hinfo)
  by_cases hfull : s.queueMaxCount.sle s.queueCount = true
  · rw [MemoryCall.answer, DriverMemory.enqueue, if_pos hfull]
    have hview : (viewOf s parts).redirectService.enqueue (some info) o.keQueryTickCount =
        ({ (viewOf s parts).redirectService with failedRedirects := s.failedRedirects + 1 }, .insufficientResources, some info) :=
      if_pos hfull
    refine ⟨own, parts, rfl, h.of_eq rfl rfl rfl, hown, fun _ _ => rfl, rfl, ⟨info, o.keQueryTickCount, hread, ?_, ?_⟩,
      freed_none rfl MemoryCall.noConfusion, rfl⟩
    · rw [hview]
      rfl
    · rw [hview]
      rfl
  · -- the fields are written first, and then the block goes to the queue
    let info' : RedirectInfo :=
      { info with redirectId := (s.nextRedirectId + 1).signExtend 64, status := .pending, timestamp := o.keQueryTickCount }
    have h₁ : MemoryInv { s with nextRedirectId := s.nextRedirectId + 1 } parts := h.of_eq rfl rfl rfl
    obtain ⟨nodes₁, hset, hbody, h₂⟩ := write_spec h₁ hown hinfo (.redirectInfo .nDrT info')
    obtain ⟨nodes, parts', hinsert, hinv, hheld, hothers, hqueue, hrules⟩ := insert_spec (t := t) (d := .queue)
      h₂ (Function.update_self ..) List.mem_cons_self ⟨_, rfl⟩
    have henqueue : s.enqueue a o.keQueryTickCount = some (.success, { s with
        nodes
        nextRedirectId := s.nextRedirectId + 1
        queueCount := s.queueCount + 1
        totalRedirects := s.totalRedirects + 1 }) := by
      rw [DriverMemory.enqueue, if_neg hfull, hread]
      show (DriverMemory.writeInfo _ a info').bind _ = _
      rw [DriverMemory.writeInfo, hbody]
      show (DriverMemory.setBody _ a (.redirectInfo .nDrT info')).bind _ = _
      rw [hset]
      show (nodes₁.insertTailList DriverList.queue.head a).bind _ = _
      dsimp only at hinsert
      rw [hinsert]
      rfl
    have hview : (viewOf s parts).redirectService.enqueue (some info) o.keQueryTickCount =
        ({ (viewOf s parts).redirectService with
          nextRedirectId := s.nextRedirectId + 1
          redirectQueue := infosOf (parts (.list .queue)) ++ [info']
          queueCount := s.queueCount + 1
          totalRedirects := s.totalRedirects + 1 }, .success, some info') :=
      if_neg hfull
    have hdrop : dropPart a ((a, .redirectInfo .nDrT info') :: dropPart a own.held) = dropPart a own.held :=
      dropPart_head not_mem_dropPart
    rw [MemoryCall.answer, henqueue]
    refine ⟨⟨dropPart a own.held, own.taken⟩, parts', rfl, hinv.of_eq rfl rfl rfl, hheld.trans hdrop, fun t' ht' => ?_, rfl,
      ⟨info, o.keQueryTickCount, hread, ?_, ?_⟩, freed_none rfl MemoryCall.noConfusion, rfl⟩
    · rw [hothers t' ht', parts_others ht']
    · rw [hview, viewOf, hqueue, hrules .rules DriverList.noConfusion, Function.update_of_ne Holder.noConfusion,
        Function.update_of_ne Holder.noConfusion, infosOf, List.filterMap_append]
      rfl
    · rw [hview]
      rfl

theorem exists_queueParts {l : List Part} (hl : ∀ x ∈ l, DriverList.queue.Fits x.2) :
    ∃ xs : List (Addr × RedirectInfo), l = xs.map queuePart := by
  induction l with
  | nil => exact ⟨[], rfl⟩
  | cons x l ih =>
    obtain ⟨⟨info, hinfo⟩, hl⟩ := List.forall_mem_cons.mp hl
    obtain ⟨xs, rfl⟩ := ih hl
    exact ⟨(x.1, info) :: xs, congrArg (· :: xs.map queuePart) (Prod.ext rfl hinfo)⟩

theorem infosOf_queueParts (xs : List (Addr × RedirectInfo)) : infosOf (xs.map queuePart) = xs.map (·.2) := by
  rw [infosOf, List.filterMap_map]
  exact congrFun List.filterMap_eq_map' xs

theorem packetsAt_eq {batch : List Addr} {infos : List RedirectInfo} (h : batch.map s.redirectInfo = infos.map some) :
    packetsAt s batch = infos.map (·.packet) := by
  calc packetsAt s batch
    _ = (batch.map s.redirectInfo).filterMap (·.map (·.packet)) := by rw [packetsAt, List.filterMap_map]; rfl
    _ = (infos.map some).filterMap (·.map (·.packet)) := by rw [h]
    _ = infos.filterMap fun info => some info.packet := List.filterMap_map ..
    _ = infos.map (·.packet) := congrFun List.filterMap_eq_map' infos

theorem peekBatch_spec (h : MemoryInv s parts) (hown : parts (.thread t) = own.held) {count : BitVec 32}
    (hallowed : driverRules.allowed own (.peekBatch count)) :
    ∃ own' parts', AnswerSpec t (.peekBatch count) (MemoryCall.answer o (.peekBatch count) s).1 s
      (MemoryCall.answer o (.peekBatch count) s).2 parts parts' own own' := by
  obtain ⟨nodes, hloop, hinv⟩ := h.peekLoop t count.toNat
  obtain ⟨xs, hxs⟩ := exists_queueParts (h.fits .queue)
  obtain ⟨hnone, hcount⟩ : own.held = [] ∧ count.toNat ≤ 64 := hallowed
  have hheld : parts (.thread t) = [] := hown.trans hnone
  rw [hxs, ← List.map_take] at hloop hinv
  rw [hheld, List.nil_append, ← List.map_drop] at hinv
  rw [List.map_map] at hloop
  have hpeek : s.peekBatch count = some ((if (xs.take count.toNat).isEmpty then .notFound else .success,
      (xs.take count.toNat).map (·.1)), { s with nodes, queueCount := s.queueCount - BitVec.ofNat 32 (xs.take count.toNat).length }) := by
    rw [List.length_map] at hloop
    rw [DriverMemory.peekBatch, hloop]
    show some ((if (List.map _ _).isEmpty then _ else _, _), _) = _
    rw [List.isEmpty_map]
    rfl
  have hread : ((xs.take count.toNat).map (·.1)).map s.redirectInfo = ((xs.take count.toNat).map (·.2)).map some := by
    rw [List.map_map, List.map_map]
    refine List.map_congr_left fun x hx => h.redirectInfo_eq (i := .list .queue) (x := queuePart x) ?_
    rw [hxs]
    exact List.mem_map_of_mem (List.mem_of_mem_take hx)
  have hview : (viewOf s parts).redirectService.peekBatch count =
      ({ (viewOf s parts).redirectService with
        redirectQueue := (xs.map (·.2)).drop count.toNat
        queueCount := s.queueCount - BitVec.ofNat 32 (xs.take count.toNat).length },
      if (xs.take count.toNat).isEmpty then .notFound else .success, (xs.take count.toNat).map (·.2)) := by
    have hqueue : (viewOf s parts).redirectService.redirectQueue = xs.map (·.2) := by
      rw [viewOf, hxs, infosOf_queueParts]
    rw [RedirectService.peekBatch, RedirectService.peekLoop_eq, hqueue, ← List.map_take]
    dsimp only
    rw [List.isEmpty_map, List.length_map]
    rfl
  have hfill : s.fillRedirects count = s.peekBatch count := if_pos hcount
  rw [MemoryCall.answer, hfill, hpeek]
  refine ⟨⟨(xs.take count.toNat).map queuePart, (xs.take count.toNat).map (·.2.packet)⟩, _,
    ⟨xs.take count.toNat, rfl, ?_, ?_, rfl⟩, hinv.of_eq rfl rfl ?_, Function.update_self .., fun t' ht' => ?_, ?_, ?_,
    freed_none rfl MemoryCall.noConfusion, rfl⟩
  · have hnodup := h.own_nodup (.list .queue)
    rw [hxs, List.map_map] at hnodup
    exact hnodup.sublist ((List.take_sublist _ _).map _)
  · rw [List.isEmpty_map]
  · rfl
  · rw [parts_others ht', Function.update_of_ne Holder.noConfusion]
  · exact ((packetsAt_eq hread).trans (List.map_map ..)).symm
  · refine ⟨?_, ?_, ?_⟩
    · rw [hview, viewOf, Function.update_of_ne Holder.noConfusion, Function.update_self,
        Function.update_of_ne Holder.noConfusion, Function.update_of_ne (by decide), infosOf_queueParts, List.map_drop]
      rfl
    · rw [hview]
      rfl
    · rw [hview]
      exact hread

theorem addRule_spec (h : MemoryInv s parts) (hown : parts (.thread t) = own.held) {a : Addr}
    (hallowed : driverRules.allowed own (.addRule a)) :
    ∃ own' parts', AnswerSpec t (.addRule a) (MemoryCall.answer o (.addRule a) s).1 s
      (MemoryCall.answer o (.addRule a) s).2 parts parts' own own' := by
  obtain ⟨data, hdata⟩ := hallowed
  have hread : s.ruleEntry a = some data.rule := h.ruleEntry_eq (i := .thread t) (hown ▸ hdata)
  obtain ⟨nodes, parts', hinsert, hinv, hheld, hothers, hrules, hqueue⟩ := insert_spec (d := .rules) h hown hdata ⟨_, rfl⟩
  have hadd : s.addRule a = some { s with nodes, rulesCount := s.rulesCount + 1 } := by
    rw [DriverMemory.addRule]
    show (s.nodes.insertTailList DriverList.rules.head a).bind _ = _
    rw [hinsert]
    rfl
  rw [MemoryCall.answer, hadd]
  refine ⟨⟨dropPart a own.held, own.taken⟩, parts', rfl, hinv.of_eq rfl rfl rfl, hheld, hothers, rfl, ⟨data.rule, hread, ?_⟩,
    freed_none rfl MemoryCall.noConfusion, rfl⟩
  rw [viewOf, hrules, hqueue .queue DriverList.noConfusion, rulesOf, List.filterMap_append]
  rfl

/-- The blocks of the list `d` go, those of the threads stay. -/
theorem clear_others {d : DriverList} {t' : Nat} : Function.update parts (.list d) [] (.thread t') = parts (.thread t') :=
  Function.update_of_ne Holder.noConfusion ..

theorem clearRules_spec (h : MemoryInv s parts) (hown : parts (.thread t) = own.held) :
    ∃ own' parts', AnswerSpec t .clearRules (MemoryCall.answer o .clearRules s).1 s
      (MemoryCall.answer o .clearRules s).2 parts parts' own own' := by
  obtain ⟨nodes, hloop, hinv⟩ := h.freeLoop .lRrT (h.length_lt_fuel .rules)
  have hclear : s.clearRules = some { s with
      nodes, freed := s.freed ++ freedBy .lRrT (parts (.list .rules)), rulesCount := 0 } := by
    rw [DriverMemory.clearRules]
    show (DriverMemory.freeLoop DriverList.rules.head .lRrT s.fuel s).bind _ = _
    rw [hloop]
    rfl
  rw [MemoryCall.answer, hclear]
  refine ⟨own, _, rfl, hinv.of_eq rfl rfl rfl, clear_others.trans hown, fun _ _ => clear_others, rfl, ?_, ⟨_, rfl, ?_⟩, rfl⟩
  · show viewOf _ (Function.update parts (.list .rules) []) = _
    rw [viewOf, Function.update_self, Function.update_of_ne (by decide)]
    rfl
  · refine iff_of_true ((h.freedBy_tags _).mpr (.inl rfl)) rfl

theorem clearQueue_spec (h : MemoryInv s parts) (hown : parts (.thread t) = own.held) :
    ∃ own' parts', AnswerSpec t .clearQueue (MemoryCall.answer o .clearQueue s).1 s
      (MemoryCall.answer o .clearQueue s).2 parts parts' own own' := by
  obtain ⟨nodes, hloop, hinv⟩ := h.freeLoop .rDrT (h.length_lt_fuel .queue)
  have hclear : s.clearQueue = some { s with
      nodes, freed := s.freed ++ freedBy .rDrT (parts (.list .queue)), queueCount := 0 } := by
    rw [DriverMemory.clearQueue]
    show (DriverMemory.freeLoop DriverList.queue.head .rDrT s.fuel s).bind _ = _
    rw [hloop]
    rfl
  rw [MemoryCall.answer, hclear]
  refine ⟨own, _, rfl, hinv.of_eq rfl rfl rfl, clear_others.trans hown, fun _ _ => clear_others, rfl, ?_, ⟨_, rfl, ?_⟩, rfl⟩
  · show viewOf _ (Function.update parts (.list .queue) []) = _
    rw [viewOf, Function.update_self, Function.update_of_ne (by decide)]
    rfl
  · have hentries : s.entries .redirectQueue = some ((parts (.list .queue)).map (·.1)) := h.entries_eq .queue
    rw [h.freedBy_tags, misfrees, hentries]
    simp [DriverList.tag]

theorem matchRule_spec (h : MemoryInv s parts) (hown : parts (.thread t) = own.held) {process : ProcessIdentity}
    (hbounds : MemoryCall.overruns s (.matchRule process) = false) :
    ∃ own' parts', AnswerSpec t (.matchRule process) (MemoryCall.answer o (.matchRule process) s).1 s
      (MemoryCall.answer o (.matchRule process) s).2 parts parts' own own' := by
  rw [MemoryCall.overruns, h.matchRule_eq, decide_eq_false_iff_not, Option.some_inj] at hbounds
  obtain ⟨action, haction⟩ := Option.ne_none_iff_exists'.mp hbounds
  rw [MemoryCall.answer, h.matchRule_eq, haction]
  refine ⟨own, parts, rfl, h, hown, fun _ _ => rfl, rfl, ⟨rfl, ?_⟩, freed_none rfl MemoryCall.noConfusion, rfl⟩
  rw [viewOf, rulesOf_eq]
  exact eq_driverMatchRule haction

/-- Where the call leaves no buffer. -/
theorem answer_spec (o : MemoryChoice) (c : MemoryCall) (h : MemoryInv s parts) (hown : parts (.thread t) = own.held)
    (hallowed : driverRules.allowed own c) (hbounds : c.overruns s = false) :
    ∃ own' parts', AnswerSpec t c (c.answer o s).1 s (c.answer o s).2 parts parts' own own' := by
  cases c with
  | exAllocatePool tag => exact allocate_spec h hown tag
  | exFreePool a tag => exact free_spec h hown hallowed
  | writeInfo a info => exact writeInfo_spec h hown hallowed
  | readInfo a => exact readInfo_spec h hown hallowed
  | writePacket length i packet =>
    exact ⟨own, parts, rfl, h, hown, fun _ _ => rfl, rfl, rfl, freed_none rfl MemoryCall.noConfusion, rfl⟩
  | writeRule a data => exact writeRule_spec h hown hallowed
  | enqueue a => exact enqueue_spec h hown hallowed
  | peekBatch count => exact peekBatch_spec h hown hallowed
  | addRule a => exact addRule_spec h hown hallowed
  | clearRules => exact clearRules_spec h hown
  | clearQueue => exact clearQueue_spec h hown
  | matchRule process => exact matchRule_spec h hown hbounds

end

end TR.Impl
