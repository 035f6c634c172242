import TcpRedirector.Proof.Driver.Sharing

/-!
# What the driver delivers

In every run of the driver's threads no block is used after it was freed, none
is freed twice and none is lost, and a buffer is left where a packet or a
pattern does not fit (`driver_memory_safe`, `cleanup_frees_all`); a block is
freed with the tag of its allocation unless `Cleanup` finds entries in the queue
(`freed_tags_iff`). The linked lists are those of the model of `RedirectService`
(`driver_refines`). What was queued left the queue in its order, and a request
for the pending redirects writes what it took, none of which comes to its
caller (`getPending_delivers`).
-/

namespace TR.Impl

open List

/-! ## Runs -/

abbrev DriverEvent := DriverMemory × ThreadsEvent MemoryCall MemoryCall.Resp

/-- The redirects that thread `t` took from the queue in its last operation. -/
def taken (log : List DriverEvent) (t : Nat) : List RedirectDataPacket :=
  log.foldl (fun packets e =>
    match e.2 with
    | .started t' => if t' = t then [] else packets
    | .called t' ⟨c, r⟩ => if t' = t then (takes e.1 c r).getD packets else packets) []

/-- What a call puts on the queue. -/
def puts (s : DriverMemory) : (c : MemoryCall) → c.Resp → List RedirectDataPacket
  | .enqueue a, .success =>
    ((s.redirectInfo a).map fun info => { info.packet with redirectId := (s.nextRedirectId + 1).signExtend 64 }).toList
  | _, _ => []

/-- What a call drops from the queue: what `Cleanup` finds there. -/
def drops (s : DriverMemory) : (c : MemoryCall) → c.Resp → List RedirectDataPacket
  | .clearQueue, _ => packetsAt s ((s.entries .redirectQueue).getD [])
  | _, _ => []

def ofEvents (f : DriverMemory → (c : MemoryCall) → c.Resp → List RedirectDataPacket) (log : List DriverEvent) :
    List RedirectDataPacket :=
  log.flatMap fun e =>
    match e.2 with
    | .started _ => []
    | .called _ ⟨c, r⟩ => f e.1 c r

/-- What was put on the queue, in this order. -/
def redirectsQueued (log : List DriverEvent) : List RedirectDataPacket := ofEvents puts log

/-- What left the queue, in this order: taken by a thread or dropped. -/
def redirectsLeft (log : List DriverEvent) : List RedirectDataPacket :=
  ofEvents (fun s c r => (takes s c r).getD [] ++ drops s c r) log

/-- Whether an event frees entries of the queue with another tag. -/
def DriverEvent.misfrees (e : DriverEvent) : Bool :=
  match e.2 with
  | .started _ => false
  | .called _ x => TR.Impl.misfrees e.1 x.1

structure DriverInv (log : List DriverEvent) (s : DriverMemory) (owns : Nat → ThreadOwn) (parts : Holder → List Part) : Prop where
  memory : MemoryInv s parts
  held : ∀ t, parts (.thread t) = (owns t).held
  taken : ∀ t, (owns t).taken = taken log t
  conserved : redirectsQueued log = redirectsLeft log ++ (infosOf (parts (.list .queue))).map (·.packet)
  tags : (∀ x ∈ s.freed, x.2.1 = x.2.2) ↔ ∀ e ∈ log, e.misfrees = false

theorem ofEvents_concat (f : DriverMemory → (c : MemoryCall) → c.Resp → List RedirectDataPacket) (log : List DriverEvent)
    (e : DriverEvent) : ofEvents f (log ++ [e]) = ofEvents f log ++ ofEvents f [e] :=
  List.flatMap_append

section

variable {log : List DriverEvent} {s : DriverMemory} {owns : Nat → ThreadOwn} {parts : Holder → List Part} {t : Nat}

theorem taken_started (log : List DriverEvent) (s : DriverMemory) (t t' : Nat) :
    taken (log ++ [(s, .started t)]) t' = if t = t' then [] else taken log t' := by
  rw [taken, List.foldl_concat]
  rfl

theorem taken_called (log : List DriverEvent) (s : DriverMemory) (t t' : Nat) (c : MemoryCall) (r : c.Resp) :
    taken (log ++ [(s, .called t ⟨c, r⟩)]) t' = if t = t' then (takes s c r).getD (taken log t') else taken log t' := by
  rw [taken, List.foldl_concat]
  rfl

theorem driverInv_start : DriverInv [] .initialized (fun _ => ⟨[], []⟩) fun _ => [] :=
  ⟨memoryInv_initialized, fun _ => rfl, fun _ => rfl, rfl, by simp [DriverMemory.initialized]⟩

theorem DriverInv.started (h : DriverInv log s owns parts) {r : DriverResult} (hidle : Idle (owns t) r) :
    DriverInv (log ++ [(s, .started t)]) s (Function.update owns t ⟨[], []⟩) parts := by
  refine ⟨h.memory, fun t' => ?_, fun t' => ?_, ?_, ?_⟩
  · by_cases ht : t' = t
    · rw [ht, Function.update_self, h.held, hidle.held]
    · rw [Function.update_of_ne ht, h.held]
  · rw [taken_started]
    by_cases ht : t' = t
    · rw [ht, Function.update_self, if_pos rfl]
    · rw [Function.update_of_ne ht, if_neg (Ne.symm ht), h.taken]
  · rw [redirectsQueued, redirectsLeft, ofEvents_concat, ofEvents_concat]
    simpa [ofEvents, redirectsQueued, redirectsLeft] using h.conserved
  · rw [List.forall_mem_append, h.tags]
    simp [DriverEvent.misfrees]

/-- Where the queue stays as it is and nothing is put, taken or dropped. -/
theorem queue_same {s' : DriverMemory} {parts' : Holder → List Part} {c : MemoryCall} {r : c.Resp}
    (hview : viewOf s' parts' = viewOf s parts) (hputs : puts s c r = []) (htakes : takes s c r = none) (hdrops : drops s c r = []) :
    (infosOf (parts (.list .queue))).map (·.packet) ++ puts s c r =
      (takes s c r).getD [] ++ drops s c r ++ (infosOf (parts' (.list .queue))).map (·.packet) := by
  have hqueue : infosOf (parts' (.list .queue)) = infosOf (parts (.list .queue)) :=
    congrArg (fun v => v.redirectService.redirectQueue) hview
  rw [hputs, htakes, hdrops, hqueue, List.append_nil]
  rfl

/-- What the queue has and what is put there is what is taken or dropped and what it has then. -/
theorem queue_step {s' : DriverMemory} {parts' : Holder → List Part} (hinv : MemoryInv s parts) {c : MemoryCall} {r : c.Resp}
    (h : DriverView.Step s (viewOf s parts) (viewOf s' parts') c r) :
    (infosOf (parts (.list .queue))).map (·.packet) ++ puts s c r =
      (takes s c r).getD [] ++ drops s c r ++ (infosOf (parts' (.list .queue))).map (·.packet) := by
  cases c with
  | exAllocatePool tag => exact queue_same h rfl rfl rfl
  | exFreePool a tag => exact queue_same h rfl rfl rfl
  | writeInfo a info => exact queue_same h rfl rfl rfl
  | readInfo a => exact queue_same h.1 rfl rfl rfl
  | writePacket length i packet => exact queue_same h rfl rfl rfl
  | writeRule a rule => exact queue_same h rfl rfl rfl
  | matchRule process => exact queue_same h.1 rfl rfl rfl
  | addRule a =>
    obtain ⟨rule, -, hview⟩ := h
    have hqueue : infosOf (parts' (.list .queue)) = infosOf (parts (.list .queue)) :=
      congrArg (fun v => v.redirectService.redirectQueue) hview
    rw [hqueue]
    exact List.append_nil _
  | clearRules =>
    have hqueue : infosOf (parts' (.list .queue)) = infosOf (parts (.list .queue)) :=
      congrArg (fun v => v.redirectService.redirectQueue) (show viewOf s' parts' = _ from h)
    rw [hqueue]
    exact List.append_nil _
  | enqueue a =>
    obtain ⟨info, tickCount, hinfo, hview, hstatus⟩ := h
    have hqueue : infosOf (parts' (.list .queue)) = ((viewOf s parts).redirectService.enqueue (some info) tickCount).1.redirectQueue :=
      congrArg (fun v => v.redirectService.redirectQueue) hview
    by_cases hfull : s.queueMaxCount.sle s.queueCount = true
    · have henqueue : (viewOf s parts).redirectService.enqueue (some info) tickCount =
          ({ (viewOf s parts).redirectService with failedRedirects := s.failedRedirects + 1 }, .insufficientResources, some info) :=
        if_pos hfull
      rw [henqueue] at hstatus hqueue
      rw [hqueue, hstatus]
      exact List.append_nil _
    · have henqueue : (viewOf s parts).redirectService.enqueue (some info) tickCount = (_, .success, _) := if_neg hfull
      rw [henqueue] at hstatus hqueue
      rw [hqueue, hstatus, puts, hinfo]
      show _ = (infosOf (parts (.list .queue)) ++ [_]).map RedirectInfo.packet
      rw [List.map_append]
      rfl
  | peekBatch count =>
    obtain ⟨status, batch⟩ := r
    obtain ⟨hview, -, hbatch⟩ := h
    have hqueue : infosOf (parts' (.list .queue)) = ((viewOf s parts).redirectService.peekBatch count).1.redirectQueue :=
      congrArg (fun v => v.redirectService.redirectQueue) hview
    rw [RedirectService.peekBatch, RedirectService.peekLoop_eq] at hbatch hqueue
    rw [hqueue, takes, packetsAt_eq hbatch]
    show _ = (((infosOf (parts (.list .queue))).take count.toNat).map (·.packet) ++ []) ++
      ((infosOf (parts (.list .queue))).drop count.toNat).map (·.packet)
    rw [List.append_nil, ← List.map_append, List.take_append_drop]
    exact List.append_nil _
  | clearQueue =>
    have hqueue : infosOf (parts' (.list .queue)) = [] :=
      congrArg (fun v => v.redirectService.redirectQueue) (show viewOf s' parts' = _ from h)
    have hentries : s.entries .redirectQueue = some ((parts (.list .queue)).map (·.1)) := hinv.entries_eq .queue
    have hread : ((parts (.list .queue)).map (·.1)).map s.redirectInfo = (infosOf (parts (.list .queue))).map some := by
      obtain ⟨xs, hxs⟩ := exists_queueParts (hinv.fits .queue)
      rw [hxs, infosOf_queueParts, List.map_map, List.map_map, List.map_map]
      refine List.map_congr_left fun x hx => hinv.redirectInfo_eq (i := .list .queue) (x := queuePart x) ?_
      rw [hxs]
      exact List.mem_map_of_mem hx
    have hdrops : drops s .clearQueue r = (infosOf (parts (.list .queue))).map (·.packet) := by
      rw [drops, hentries]
      exact packetsAt_eq hread
    rw [hqueue, hdrops, List.map_nil, List.append_nil]
    exact List.append_nil _

theorem DriverInv.called (h : DriverInv log s owns parts) {s' : DriverMemory} {parts' : Holder → List Part} {c : MemoryCall} {r : c.Resp}
    {own : ThreadOwn} (hspec : AnswerSpec t c r s s' parts parts' (owns t) own) :
    DriverInv (log ++ [(s, .called t ⟨c, r⟩)]) s' (Function.update owns t own) parts' := by
  refine ⟨hspec.inv, fun t' => ?_, fun t' => ?_, ?_, ?_⟩
  · by_cases ht : t' = t
    · rw [ht, Function.update_self, hspec.held]
    · rw [Function.update_of_ne ht, hspec.others t' ht, h.held]
  · rw [taken_called]
    by_cases ht : t' = t
    · rw [ht, Function.update_self, if_pos rfl, hspec.taken, h.taken]
    · rw [Function.update_of_ne ht, if_neg (Ne.symm ht), h.taken]
  · have hstep := queue_step h.memory hspec.view
    have hput : ofEvents puts [(s, .called t ⟨c, r⟩)] = puts s c r := List.flatMap_singleton ..
    have hleft : ofEvents (fun s c r => (takes s c r).getD [] ++ drops s c r) [(s, .called t ⟨c, r⟩)] =
        (takes s c r).getD [] ++ drops s c r := List.flatMap_singleton ..
    rw [redirectsQueued, redirectsLeft, ofEvents_concat, ofEvents_concat, hput, hleft, ← redirectsQueued, ← redirectsLeft,
      h.conserved, List.append_assoc, hstep, List.append_assoc, List.append_assoc, List.append_assoc]
  · obtain ⟨news, hnews, htags⟩ := hspec.freed
    rw [hnews, List.forall_mem_append, List.forall_mem_append, h.tags, htags]
    simp [DriverEvent.misfrees]

end

/-! ## The bounds of the buffers -/

/-- The packet fits, or each rule that the process is compared with is a wildcard
or has its terminator. -/
def MemoryCall.InBounds (s : DriverMemory) : MemoryCall → Prop
  | .writePacket length i _ => sizeofPacket * i + packetEnd ≤ length
  | .matchRule process => ∀ pre data post, s.rulesData = some (pre ++ data :: post) →
      (∀ x ∈ pre, x.rule.hits process = false) → data.rule.isWildcard = true ∨ data.terminated = true
  | _ => True

abbrev DriverStep := StepOf DriverState (ThreadsInput DriverOp MemoryChoice) (Option (ThreadsEvent MemoryCall MemoryCall.Resp))

def InBounds (st : DriverStep) : Prop :=
  ∀ t o c k, st.input = .step t o → st.pre.threads t = .call c k → c.InBounds st.pre.shared

theorem MemoryInv.inBounds_iff {s : DriverMemory} {parts : Holder → List Part} (h : MemoryInv s parts) (c : MemoryCall) :
    c.InBounds s ↔ c.overruns s = false := by
  cases c with
  | writePacket length i packet => simp only [MemoryCall.InBounds, MemoryCall.overruns, decide_eq_false_iff_not, Nat.not_lt]
  | matchRule process =>
    rw [MemoryCall.overruns, h.matchRule_eq, decide_eq_false_iff_not, Option.some_inj, matchData_eq_none_iff,
      MemoryCall.InBounds, h.rulesData_eq]
    constructor
    · rintro hall ⟨pre, data, post, hrules, hpre, hwild, hterm⟩
      rcases hall pre data post (congrArg some hrules) hpre with h | h
      · exact absurd h (by simp [hwild])
      · exact absurd h (by simp [hterm])
    · intro hnone pre data post hrules hpre
      by_contra hdata
      rw [not_or, Bool.not_eq_true, Bool.not_eq_true] at hdata
      exact hnone ⟨pre, data, post, Option.some.inj hrules, hpre, hdata⟩
  | _ => exact iff_of_true trivial rfl

theorem MemoryInv.step_inBounds_iff {s : DriverState} {parts : Holder → List Part} (h : MemoryInv s.shared parts)
    (i : ThreadsInput DriverOp MemoryChoice) : InBounds (stepOf driverStep i s) ↔ s.overruns i = false := by
  cases i with
  | start t op => exact iff_of_true (fun _ _ _ _ hi => nomatch hi) rfl
  | step t o =>
    rw [DriverState.overruns]
    split
    next c k ht =>
      rw [← h.inBounds_iff]
      constructor
      · exact fun hall => hall t o c k rfl ht
      · rintro hc _ _ c' k' ⟨rfl, rfl⟩ ht'
        obtain ⟨rfl, -⟩ := Prog.call.inj (ht.symm.trans ht')
        exact hc
    next hnot =>
      refine iff_of_true ?_ rfl
      rintro _ _ c k ⟨rfl, rfl⟩ ht
      exact absurd ht (hnot c k)

/-! ## The results -/

/-- Every thread goes on as the blocks that it holds allow. -/
abbrev DriverThreads : DriverState → List DriverEvent → Prop :=
  ThreadsInv driverRules Idle fun log s owns => ∃ parts, DriverInv log s owns parts

/-- What holds after every run, `tr` being its steps. -/
structure DriverRun (s : DriverState) (tr : List DriverStep) : Prop where
  threads : DriverThreads s (Threads.events tr)
  /-- The thread that left a buffer is still there. -/
  stopped : s.shared.overran = true → ∃ t c k, s.threads t = .call c k
  bounds : s.shared.overran = false ↔ ∀ st ∈ tr, InBounds st

theorem driverRun_start : DriverRun driverStart [] where
  threads := ThreadsInv.start ⟨_, driverInv_start⟩ ⟨rfl, rfl, rfl⟩
  stopped h := nomatch h
  bounds := iff_of_true rfl fun _ hst => absurd hst List.not_mem_nil

/-- What a step is: nothing after a buffer was left, the access that leaves one, or one of a thread. -/
theorem driverStep_cases (i : ThreadsInput DriverOp MemoryChoice) (s : DriverState) :
    s.shared.overran = true ∧ driverStep i s = (s, none) ∨
    s.shared.overran = false ∧ s.overruns i = true ∧
      driverStep i s = ({ s with shared := { s.shared with overran := true } }, none) ∨
    s.shared.overran = false ∧ s.overruns i = false ∧
      driverStep i s = Threads.step DriverOp.program MemoryCall.answer i s := by
  rw [driverStep]
  cases s.shared.overran with
  | true => exact .inl ⟨rfl, rfl⟩
  | false =>
    cases s.overruns i with
    | true => exact .inr (.inl ⟨rfl, rfl, rfl⟩)
    | false => exact .inr (.inr ⟨rfl, rfl, rfl⟩)

theorem overruns_call {s : DriverState} {t : Nat} {o : MemoryChoice} {c : MemoryCall} {k : c.Resp → MemoryProg DriverResult}
    (ht : s.threads t = .call c k) : s.overruns (.step t o) = c.overruns s.shared := by
  rw [DriverState.overruns, ht]

theorem DriverInv.overran {log : List DriverEvent} {s : DriverMemory} {owns : Nat → ThreadOwn} {parts : Holder → List Part}
    (h : DriverInv log s owns parts) : DriverInv log { s with overran := true } owns parts :=
  ⟨h.memory.of_eq rfl rfl rfl, h.held, h.taken, h.conserved, h.tags⟩

/-- A step of a thread that leaves no buffer. -/
theorem threadsStep_keeps {s : DriverState} {log : List DriverEvent} {i : ThreadsInput DriverOp MemoryChoice}
    (h : DriverThreads s log) (hbounds : s.overruns i = false) :
    DriverThreads (Threads.step DriverOp.program MemoryCall.answer i s).1
      (log ++ ((Threads.step DriverOp.program MemoryCall.answer i s).2.map (s.shared, ·)).toList) ∧
    (Threads.step DriverOp.program MemoryCall.answer i s).1.shared.overran = s.shared.overran := by
  have hspec : ∀ t o c k owns parts, i = .step t o → s.threads t = .call c k → DriverInv log s.shared owns parts →
      driverRules.allowed (owns t) c → ∃ own parts', AnswerSpec t c (c.answer o s.shared).1 s.shared (c.answer o s.shared).2
        parts parts' (owns t) own := by
    rintro t o c k owns parts rfl ht hinv hallowed
    rw [overruns_call ht] at hbounds
    exact answer_spec o c hinv.memory (hinv.held t) hallowed hbounds
  refine ⟨h.step program_keeps ?_ i ?_, ?_⟩
  · rintro g owns t r ⟨parts, hinv⟩ hidle
    exact ⟨parts, hinv.started hidle⟩
  · rintro t o c k owns hi ht ⟨parts, hinv⟩ hallowed
    obtain ⟨own, parts', hspec⟩ := hspec t o c k owns parts hi ht hinv hallowed
    exact ⟨own, hspec.next, parts', hinv.called hspec⟩
  · rcases Threads.step_cases DriverOp.program MemoryCall.answer i s with ⟨t, o, c, k, hi, ht, heq⟩ | ⟨hshared, -⟩
    · obtain ⟨owns, ⟨parts, hinv⟩, hallowed⟩ := h.allowed ht
      obtain ⟨own, parts', hspec⟩ := hspec t o c k owns parts hi ht hinv hallowed
      rw [heq]
      exact hspec.overran
    · rw [hshared]

theorem driverRun_step (i : ThreadsInput DriverOp MemoryChoice) (s : DriverState) (tr : List DriverStep) (h : DriverRun s tr) :
    DriverRun (driverStep i s).1 (tr ++ [stepOf driverStep i s]) := by
  obtain ⟨owns, ⟨parts, hinv⟩, hkeeps⟩ := h.threads
  have hstep := hinv.memory.step_inBounds_iff i
  have hbounds : (∀ st ∈ tr ++ [stepOf driverStep i s], InBounds st) ↔ (∀ st ∈ tr, InBounds st) ∧ s.overruns i = false := by
    rw [List.forall_mem_append, List.forall_mem_singleton, hstep]
  have hevents := Threads.events_concat tr (stepOf driverStep i s)
  dsimp only [stepOf] at hevents hbounds ⊢
  rcases driverStep_cases i s with ⟨hover, heq⟩ | ⟨hno, hover, heq⟩ | ⟨hno, hin, heq⟩
  · rw [heq] at hevents hbounds ⊢
    refine ⟨?_, h.stopped, ?_⟩
    · rw [hevents]
      simpa using h.threads
    · rw [hbounds, ← h.bounds, hover]
      simp
  · rw [heq] at hevents hbounds ⊢
    refine ⟨?_, fun _ => ?_, ?_⟩
    · rw [hevents, Option.map_none, Option.toList_none, List.append_nil]
      exact ⟨owns, ⟨parts, hinv.overran⟩, hkeeps⟩
    · cases i with
      | start t op => cases hover
      | step t o =>
        rw [DriverState.overruns] at hover
        split at hover
        next c k ht => exact ⟨t, c, k, ht⟩
        next => cases hover
    · rw [hbounds, hover]
      simp
  · obtain ⟨hthreads, hsame⟩ := threadsStep_keeps h.threads hin
    rw [heq] at hevents hbounds ⊢
    refine ⟨hevents ▸ hthreads, fun hover => ?_, ?_⟩
    · rw [hsame, hno] at hover
      cases hover
    · rw [hbounds, hsame, ← h.bounds]
      simp [hno, hin]

theorem driverRun (is : List (ThreadsInput DriverOp MemoryChoice)) :
    DriverRun (run driverStep is driverStart) (trace driverStep is driverStart) :=
  history_induct driverRun_step is driverRun_start

/-- A request without input has no system buffer. -/
example (s : DriverMemory) (outputLength : BitVec 32) (packet : RedirectDataPacket) :
    MemoryCall.overruns s (.writePacket (systemBufferLength IOCTL_REDIRECTOR_GET_PENDING 0 outputLength) 0 packet) = true := rfl

theorem freed_tags_iff (is : List (ThreadsInput DriverOp MemoryChoice)) :
    (∀ x ∈ (run driverStep is driverStart).shared.freed, x.2.1 = x.2.2) ↔
      ∀ st ∈ trace driverStep is driverStart, ∀ t, st.out = some (.called t ⟨.clearQueue, ()⟩) →
        st.pre.shared.entries .redirectQueue = some [] := by
  obtain ⟨owns, ⟨parts, h⟩, -⟩ := (driverRun is).threads
  rw [h.tags]
  have hmisfrees : ∀ e : DriverEvent, e.misfrees = false ↔ ∀ t, e.2 = .called t ⟨.clearQueue, ()⟩ →
      e.1.entries .redirectQueue = some [] := by
    rintro ⟨s, t | ⟨t, c, r⟩⟩
    · simp [DriverEvent.misfrees]
    · by_cases hc : c = .clearQueue
      · subst hc
        obtain rfl : r = () := rfl
        simp [DriverEvent.misfrees, misfrees]
      · have hother : ∀ t', (ThreadsEvent.called t ⟨c, r⟩ : ThreadsEvent MemoryCall MemoryCall.Resp) ≠ .called t' ⟨.clearQueue, ()⟩ := by
          rintro t' heq
          exact hc (congrArg Sigma.fst (ThreadsEvent.called.inj heq).2)
        simp [DriverEvent.misfrees, misfrees, hc, hother]
  constructor
  · intro hall st hst t hout
    exact (hmisfrees _).mp (hall (st.pre.shared, _) (Threads.mem_events.mpr ⟨st, hst, rfl, hout⟩)) t rfl
  · intro hall e he
    obtain ⟨st, hst, hpre, hout⟩ := Threads.mem_events.mp he
    refine (hmisfrees e).mpr fun t het => ?_
    rw [← hpre]
    exact hall st hst t (by rw [hout, het])

/-- The lists before and after a step of a thread. -/
def StepRefines (s : DriverMemory) (v v' : DriverView) : Option (ThreadsEvent MemoryCall MemoryCall.Resp) → Prop
  | some (.called _ ⟨c, r⟩) => DriverView.Step s v v' c r
  | _ => v' = v

/-- Where nothing is called. -/
theorem stepRefines_none {s s' : DriverMemory} {parts : Holder → List Part} (h : MemoryInv s parts) (h' : MemoryInv s' parts)
    (hview : viewOf s' parts = viewOf s parts) {out : Option (ThreadsEvent MemoryCall MemoryCall.Resp)}
    (hout : ∀ t x, out ≠ some (.called t x)) :
    ∃ v v', s.view = some v ∧ s'.view = some v' ∧ StepRefines s v v' out := by
  refine ⟨_, _, h.view_eq, h'.view_eq, ?_⟩
  rcases out with _ | ⟨t⟩ | ⟨t, x⟩
  · exact hview
  · exact hview
  · exact absurd rfl (hout t x)

theorem driver_refines (is : List (ThreadsInput DriverOp MemoryChoice))
    {st : StepOf DriverState (ThreadsInput DriverOp MemoryChoice) (Option (ThreadsEvent MemoryCall MemoryCall.Resp))}
    (hst : st ∈ trace driverStep is driverStart) :
    ∃ v v', st.pre.shared.view = some v ∧ st.post.shared.view = some v' ∧ StepRefines st.pre.shared v v' st.out := by
  obtain ⟨is₁, i, is₂, -, rfl⟩ := mem_trace_iff.mp hst
  obtain ⟨owns, ⟨parts, h⟩, hkeeps⟩ := (driverRun is₁).threads
  rw [stepOf]
  generalize run driverStep is₁ driverStart = s at h hkeeps
  rcases driverStep_cases i s with ⟨-, heq⟩ | ⟨-, -, heq⟩ | ⟨-, hin, heq⟩
  · rw [heq]
    exact stepRefines_none h.memory h.memory rfl fun _ _ => (Option.some_ne_none _).symm
  · rw [heq]
    exact stepRefines_none h.memory h.overran.memory rfl fun _ _ => (Option.some_ne_none _).symm
  · rw [heq]
    rcases Threads.step_cases DriverOp.program MemoryCall.answer i s with ⟨t, o, c, k, rfl, ht, hstep⟩ | ⟨hshared, hout⟩
    · have hown := hkeeps t
      rw [ht] at hown
      rw [overruns_call ht] at hin
      obtain ⟨own, parts', hspec⟩ := answer_spec o c h.memory (h.held t) hown.1 hin
      rw [hstep]
      exact ⟨_, _, h.memory.view_eq, hspec.inv.view_eq, hspec.view⟩
    · dsimp only
      rw [hshared]
      exact stepRefines_none h.memory h.memory rfl hout

/-- A request with one rule, up to its last call. -/
def setRulesStart : List (ThreadsInput DriverOp MemoryChoice) :=
  .start 0 (.setRules [⟨⟨1, RuleActionPermit, true, false, [], 0⟩, true⟩]) :: List.replicate 3 (.step 0 ⟨true, 0⟩)

def setRulesOnce : List (ThreadsInput DriverOp MemoryChoice) := setRulesStart ++ [.step 0 ⟨true, 0⟩]

theorem driver_refines_addRule : ∃ v v', (run driverStep setRulesStart driverStart).shared.view = some v ∧
    (run driverStep setRulesOnce driverStart).shared.view = some v' ∧
    StepRefines (run driverStep setRulesStart driverStart).shared v v' (some (.called 0 ⟨.addRule (.block 0), ()⟩)) :=
  driver_refines setRulesOnce (mem_trace_iff.mpr ⟨setRulesStart, .step 0 ⟨true, 0⟩, [], rfl, rfl⟩)

theorem getPending_delivers (is : List (ThreadsInput DriverOp MemoryChoice)) :
    (∃ v, (run driverStep is driverStart).shared.view = some v ∧
      redirectsQueued (Threads.events (trace driverStep is driverStart)) =
        redirectsLeft (Threads.events (trace driverStep is driverStart)) ++ v.redirectService.redirectQueue.map (·.packet)) ∧
    ∀ t r, (run driverStep is driverStart).threads t = .ret r →
      r.written = taken (Threads.events (trace driverStep is driverStart)) t ∧ r.received = [] := by
  obtain ⟨owns, ⟨parts, h⟩, hkeeps⟩ := (driverRun is).threads
  refine ⟨⟨_, h.memory.view_eq, h.conserved⟩, fun t r hr => ?_⟩
  have hown := hkeeps t
  rw [hr] at hown
  exact ⟨hown.written.trans (h.taken t), hown.received⟩

end TR.Impl
