import Mathlib.Data.List.Infix
import TcpRedirector.Impl.Service.LogWriter
import TcpRedirector.Proof.Framework.Run

/-!
# Entries at shutdown

What was pushed is what was processed, the rest of the batch and the queue, in
this order (`Inv`). The writer leaves its loop with an empty queue if it finds
the stop in the critical section; at the loop's test it leaves whatever the
queue holds. So the entries from before `Shutdown` are all processed exactly if
none of them is in the queue at that test (`shutdown_processes_iff`).
-/

namespace TR.Impl.Service.LogWriter

/-- The part of the batch that is not processed. -/
def Writer.rest : Writer → List LogEntry
  | .batch rest => rest
  | _ => []

/-- The writer is behind its loop. -/
def Writer.left : Writer → Bool
  | .flush | .done => true
  | _ => false

/-- Every sink has the entries that the console has, from the last ones on. -/
structure Sinks.Consistent (s : Sinks) : Prop where
  file : ∀ l, s.file = some l → l <:+ s.console
  callback : ∀ l, s.callback = some l → l <:+ s.console
  listeners : ∀ id l, s.listeners id = some l → l <:+ s.console
  ring : s.ring = s.console.foldl (fun l entry => l.addToRingBuffer entry) {}

theorem suffix_concat {o : Option (List LogEntry)} {console : List LogEntry} (h : ∀ l, o = some l → l <:+ console)
    (entry : LogEntry) (l : List LogEntry) (hl : o.map (· ++ [entry]) = some l) : l <:+ console ++ [entry] := by
  obtain ⟨l', hl', rfl⟩ := Option.map_eq_some_iff.mp hl
  obtain ⟨pre, hpre⟩ := h l' hl'
  exact ⟨pre, by rw [← hpre, List.append_assoc]⟩

theorem Sinks.Consistent.process {s : Sinks} (h : s.Consistent) (entry : LogEntry) : (s.process entry).Consistent where
  file := suffix_concat h.file entry
  callback := suffix_concat h.callback entry
  listeners id := suffix_concat (h.listeners id) entry
  ring := by
    rw [Sinks.process, List.foldl_append, ← h.ring]
    rfl

/-- A sink that was just opened has nothing. -/
theorem suffix_opened {opened : Bool} {l console : List LogEntry} (hl : (if opened then some [] else none) = some l) :
    l <:+ console := by
  cases opened with
  | true =>
    cases hl
    exact List.nil_suffix
  | false => cases hl

structure Inv (s : State) : Prop where
  accounted : s.pushed = s.sinks.console ++ (s.writer.rest ++ s.queue)
  sinks : s.sinks.Consistent
  running : s.running = true ↔ s.shutdown = .notCalled
  left : s.writer.left = true → s.running = false
  joined : s.shutdown = .joined ∨ s.shutdown = .returned → s.writer = .done

section

variable {s : State}

theorem Inv.stepLog (h : Inv s) (t : Nat) (entry : LogEntry) : Inv (stepLog t entry s) := by
  rw [LogWriter.stepLog]
  split
  next =>
    split
    · exact h
    · exact ⟨h.accounted, h.sinks, h.running, h.left, h.joined⟩
  next entry _ =>
    refine ⟨?_, h.sinks, h.running, h.left, h.joined⟩
    show s.pushed ++ [entry] = s.sinks.console ++ (s.writer.rest ++ (s.queue ++ [entry]))
    rw [h.accounted, List.append_assoc, List.append_assoc]
  next => exact ⟨h.accounted, h.sinks, h.running, h.left, h.joined⟩

/-- The writer goes on inside its loop. -/
theorem Inv.goto (h : Inv s) (hne : s.writer ≠ .done) {w : Writer} (hw : w.left = true → s.running = false)
    {queue : List LogEntry} (hrest : w.rest ++ queue = s.writer.rest ++ s.queue) :
    Inv { s with writer := w, queue := queue } where
  accounted := by
    show s.pushed = s.sinks.console ++ (w.rest ++ queue)
    rw [hrest, h.accounted]
  sinks := h.sinks
  running := h.running
  left := hw
  joined hj := absurd (h.joined hj) hne

/-- What a step of the writer does. -/
inductive WriterStep (s : State) : State → Prop
  | stay : s.writer ≠ .test → WriterStep s s
  | enter : s.writer = .test → s.running = true → WriterStep s { s with writer := .wait }
  | leave : s.writer = .test → s.running = false → WriterStep s { s with writer := .flush }
  | drained : s.writer = .wait → s.queue = [] → s.running = false → WriterStep s { s with writer := .flush }
  | take : s.writer = .wait → WriterStep s { s with writer := .batch s.queue, queue := [] }
  | again : s.writer = .batch [] → WriterStep s { s with writer := .test }
  | process {entry : LogEntry} {rest : List LogEntry} : s.writer = .batch (entry :: rest) →
      WriterStep s { s with sinks := s.sinks.process entry, writer := .batch rest }
  | flushed : s.writer = .flush → WriterStep s { s with writer := .done }

theorem stepWriter_cases (s : State) : WriterStep s (stepWriter s) := by
  rw [LogWriter.stepWriter]
  split
  next hw =>
    split
    next hrunning => exact .enter hw hrunning
    next hrunning => exact .leave hw (Bool.eq_false_iff.mpr hrunning)
  next hw =>
    split
    next hqueue =>
      split
      · exact .stay (by rw [hw]; decide)
      next hrunning => exact .drained hw hqueue (Bool.eq_false_iff.mpr hrunning)
    · exact .take hw
  next hw => exact .again hw
  next hw => exact .process hw
  next hw => exact .flushed hw
  next hw => exact .stay (by rw [hw]; decide)

theorem Inv.writerStep {s' : State} (h : Inv s) (hstep : WriterStep s s') : Inv s' := by
  have haccounted := h.accounted
  have hinside : s.writer.left = false → s.writer ≠ .done := by
    intro hleft hdone
    rw [hdone] at hleft
    cases hleft
  cases hstep with
  | stay => exact h
  | enter hw =>
    exact h.goto (w := .wait) (hinside (by rw [hw]; rfl)) (fun hl => absurd hl Bool.false_ne_true) (by rw [hw]; rfl)
  | leave hw hrunning => exact h.goto (hinside (by rw [hw]; rfl)) (fun _ => hrunning) (by rw [hw]; rfl)
  | drained hw _ hrunning => exact h.goto (hinside (by rw [hw]; rfl)) (fun _ => hrunning) (by rw [hw]; rfl)
  | take hw =>
    refine h.goto (w := .batch s.queue) (hinside (by rw [hw]; rfl)) (fun hl => absurd hl Bool.false_ne_true) ?_
    rw [hw]
    exact List.append_nil _
  | again hw =>
    exact h.goto (w := .test) (hinside (by rw [hw]; rfl)) (fun hl => absurd hl Bool.false_ne_true) (by rw [hw]; rfl)
  | process hw =>
    rename_i entry rest
    rw [hw] at haccounted
    refine ⟨?_, h.sinks.process entry, h.running, fun hl => absurd hl Bool.false_ne_true, fun hj => ?_⟩
    · show s.pushed = s.sinks.console ++ [entry] ++ (rest ++ s.queue)
      rw [haccounted, List.append_assoc]
      rfl
    · exact absurd (h.joined hj) (hinside (by rw [hw]; rfl))
  | flushed hw =>
    rw [hw] at haccounted
    exact ⟨haccounted, h.sinks, h.running, fun _ => h.left (by rw [hw]; rfl), fun _ => rfl⟩

theorem Inv.stepShutdown (h : Inv s) : Inv (stepShutdown s) := by
  rw [LogWriter.stepShutdown]
  split
  next =>
    refine ⟨h.accounted, h.sinks, ?_, fun _ => rfl, fun hj => ?_⟩
    · exact iff_of_false Bool.false_ne_true (fun hn => by cases hn)
    · rcases hj with hj | hj <;> cases hj
  next hs =>
    refine ⟨h.accounted, h.sinks, ?_, h.left, fun hj => ?_⟩
    · rw [h.running, hs]
      exact iff_of_false (by decide) (fun hn => by cases hn)
    · rcases hj with hj | hj <;> cases hj
  next hs =>
    split
    next hdone =>
      refine ⟨h.accounted, h.sinks, ?_, h.left, fun _ => hdone⟩
      rw [h.running, hs]
      exact iff_of_false (by decide) (fun hn => by cases hn)
    · exact h
  next hs =>
    refine ⟨h.accounted, ⟨fun l hl => ?_, h.sinks.callback, h.sinks.listeners, h.sinks.ring⟩, ?_, h.left,
      fun _ => h.joined (.inl hs)⟩
    · cases hl
    · rw [h.running, hs]
      exact iff_of_false (by decide) (fun hn => by cases hn)
  next => exact h

theorem Inv.step (h : Inv s) (i : Input) : Inv (step i s).1 := by
  cases i with
  | log t entry => exact h.stepLog t entry
  | writer => exact h.writerStep (stepWriter_cases s)
  | shutdown => exact h.stepShutdown
  | setLevel level => exact ⟨h.accounted, h.sinks, h.running, h.left, h.joined⟩
  | setFile opened =>
    exact ⟨h.accounted, { h.sinks with file := fun l => suffix_opened }, h.running, h.left, h.joined⟩
  | setOnLogEntry set =>
    exact ⟨h.accounted, { h.sinks with callback := fun l => suffix_opened }, h.running, h.left, h.joined⟩
  | registerListener id =>
    refine ⟨h.accounted, { h.sinks with listeners := fun id' l hl => ?_ }, h.running, h.left, h.joined⟩
    dsimp only [LogWriter.step] at hl
    rw [Function.update_apply] at hl
    split at hl
    · cases hl
      exact List.nil_suffix
    · exact h.sinks.listeners id' l hl
  | unregisterListener id =>
    refine ⟨h.accounted, { h.sinks with listeners := fun id' l hl => ?_ }, h.running, h.left, h.joined⟩
    dsimp only [LogWriter.step] at hl
    rw [Function.update_apply] at hl
    split at hl
    · cases hl
    · exact h.sinks.listeners id' l hl

end

theorem inv_start (opened : Bool) (level : BitVec 32) : Inv (start opened level) where
  accounted := rfl
  sinks := ⟨fun l => suffix_opened, fun l hl => (by cases hl), fun id l hl => (by cases hl), rfl⟩
  running := iff_of_true rfl rfl
  left hl := absurd hl Bool.false_ne_true
  joined hj := by rcases hj with hj | hj <;> cases hj

/-! ## Leaving the loop -/

/-- The writer finds at the loop's test that it is to stop. -/
def LeavesLoop (st : StepOf State Input Unit) : Prop :=
  st.input = .writer ∧ st.pre.writer = .test ∧ st.pre.running = false

/-- The queue has only entries that were pushed after the early ones. -/
def OnlyLate (early : List LogEntry) (st : StepOf State Input Unit) : Prop :=
  ∃ late, st.pre.pushed = early ++ late ∧ st.pre.queue <:+ late

/-- Where all is processed but the queue, the early entries are processed if
the queue has none of them. -/
theorem prefix_iff_onlyLate {early console queue : List LogEntry} (hearly : early <+: console ++ queue) :
    early <+: console ↔ ∃ late, console ++ queue = early ++ late ∧ queue <:+ late := by
  constructor
  · rintro ⟨c, rfl⟩
    exact ⟨c ++ queue, List.append_assoc .., List.suffix_append ..⟩
  · rintro ⟨_, hlate, x, rfl⟩
    rw [← List.append_assoc] at hlate
    exact ⟨x, (List.append_cancel_right hlate).symm⟩

/-- The steps since the early entries were pushed. -/
structure After (early : List LogEntry) (s : State) (tr : List (StepOf State Input Unit)) : Prop where
  inv : Inv s
  kept : early <+: s.pushed
  staying : s.writer.left = false → ∀ st ∈ tr, ¬ LeavesLoop st
  leaving : s.writer.left = true → (early <+: s.sinks.console ↔ ∀ st ∈ tr, LeavesLoop st → OnlyLate early st)

section

variable {early : List LogEntry} {s s' : State} {tr : List (StepOf State Input Unit)} {st : StepOf State Input Unit}

/-- The writer stays inside the loop or behind it. -/
theorem After.keep (h : After early s tr) (hinv : Inv s') (hpushed : s.pushed <+: s'.pushed)
    (hleft : s'.writer.left = s.writer.left) (hconsole : s.writer.left = true → s'.sinks.console = s.sinks.console)
    (hst : ¬ LeavesLoop st) : After early s' (tr ++ [st]) where
  inv := hinv
  kept := h.kept.trans hpushed
  staying hl st' hmem := by
    rcases List.mem_append.mp hmem with hmem | hmem
    · exact h.staying (hleft ▸ hl) st' hmem
    · rwa [List.mem_singleton.mp hmem]
  leaving hl := by
    rw [hleft] at hl
    rw [hconsole hl, h.leaving hl]
    constructor
    · intro hall st' hmem hleaves
      rcases List.mem_append.mp hmem with hmem | hmem
      · exact hall st' hmem hleaves
      · rw [List.mem_singleton.mp hmem] at hleaves
        exact absurd hleaves hst
    · exact fun hall st' hmem => hall st' (List.mem_append_left _ hmem)

/-- The writer leaves the loop with the condition for this step. -/
theorem After.leave (h : After early s tr) (hinv : Inv s') (hpushed : s'.pushed = s.pushed)
    (hbefore : s.writer.left = false) (hleft : s'.writer.left = true)
    (hst : early <+: s'.sinks.console ↔ (LeavesLoop st → OnlyLate early st)) : After early s' (tr ++ [st]) where
  inv := hinv
  kept := hpushed ▸ h.kept
  staying hl := by
    rw [hleft] at hl
    cases hl
  leaving _ := by
    rw [hst]
    constructor
    · intro hthis st' hmem hleaves
      rcases List.mem_append.mp hmem with hmem | hmem
      · exact absurd hleaves (h.staying hbefore st' hmem)
      · rw [List.mem_singleton.mp hmem] at hleaves ⊢
        exact hthis hleaves
    · exact fun hall => hall st (List.mem_append_right _ (List.mem_singleton_self st))

theorem not_leavesLoop (hw : s.writer ≠ .test) : ¬ LeavesLoop (stepOf step .writer s) := fun hl => hw hl.2.1

theorem After.writerStep (h : After early s tr) (hstep : WriterStep s s') :
    After early s' (tr ++ [stepOf step .writer s]) := by
  have hinv := h.inv.writerStep hstep
  have haccounted := h.inv.accounted
  cases hstep with
  | stay hw => exact h.keep hinv (List.prefix_refl _) rfl (fun _ => rfl) (not_leavesLoop hw)
  | enter hw hrunning =>
    have hst : ¬ LeavesLoop (stepOf step .writer s) := fun hl => absurd (hrunning.symm.trans hl.2.2) (by decide)
    exact h.keep hinv (List.prefix_refl _) (by rw [hw]; rfl) (fun _ => rfl) hst
  | leave hw hrunning =>
    have hst : LeavesLoop (stepOf step .writer s) := ⟨rfl, hw, hrunning⟩
    have hearly := h.kept
    rw [hw] at haccounted
    rw [haccounted] at hearly
    refine h.leave hinv rfl (by rw [hw]; rfl) rfl ?_
    show early <+: s.sinks.console ↔ (LeavesLoop _ → ∃ late, s.pushed = early ++ late ∧ s.queue <:+ late)
    rw [haccounted]
    exact (prefix_iff_onlyLate hearly).trans ⟨fun hlate _ => hlate, fun himp => himp hst⟩
  | drained hw hqueue hrunning =>
    -- All that was pushed is processed.
    have hall : s.pushed = s.sinks.console := by
      rw [haccounted, hw, hqueue]
      exact List.append_nil _
    refine h.leave hinv rfl (by rw [hw]; rfl) rfl (iff_of_true (hall ▸ h.kept) fun hl => ?_)
    exact absurd hl (not_leavesLoop (by rw [hw]; decide))
  | take hw =>
    exact h.keep hinv (List.prefix_refl _) (by rw [hw]; rfl) (fun _ => rfl) (not_leavesLoop (by rw [hw]; decide))
  | again hw =>
    exact h.keep hinv (List.prefix_refl _) (by rw [hw]; rfl) (fun _ => rfl) (not_leavesLoop (by rw [hw]; decide))
  | process hw =>
    refine h.keep hinv (List.prefix_refl _) (by rw [hw]; rfl) (fun hl => ?_) (not_leavesLoop fun htest => ?_)
    · rw [hw] at hl
      cases hl
    · rw [hw] at htest
      cases htest
  | flushed hw =>
    exact h.keep hinv (List.prefix_refl _) (by rw [hw]; rfl) (fun _ => rfl) (not_leavesLoop (by rw [hw]; decide))

/-- The other threads leave the writer and what is processed as they are. -/
theorem step_frame {i : Input} (hi : i ≠ .writer) (s : State) :
    (step i s).1.writer = s.writer ∧ (step i s).1.sinks.console = s.sinks.console ∧ s.pushed <+: (step i s).1.pushed := by
  cases i with
  | writer => exact absurd rfl hi
  | log t entry =>
    show (stepLog t entry s).writer = _ ∧ (stepLog t entry s).sinks.console = _ ∧ _ <+: (stepLog t entry s).pushed
    rw [LogWriter.stepLog]
    split
    next =>
      split
      · exact ⟨rfl, rfl, List.prefix_refl _⟩
      · exact ⟨rfl, rfl, List.prefix_refl _⟩
    next => exact ⟨rfl, rfl, List.prefix_append ..⟩
    next => exact ⟨rfl, rfl, List.prefix_refl _⟩
  | shutdown =>
    show (stepShutdown s).writer = _ ∧ (stepShutdown s).sinks.console = _ ∧ _ <+: (stepShutdown s).pushed
    rw [LogWriter.stepShutdown]
    split
    next => exact ⟨rfl, rfl, List.prefix_refl _⟩
    next => exact ⟨rfl, rfl, List.prefix_refl _⟩
    next =>
      split
      · exact ⟨rfl, rfl, List.prefix_refl _⟩
      · exact ⟨rfl, rfl, List.prefix_refl _⟩
    next => exact ⟨rfl, rfl, List.prefix_refl _⟩
    next => exact ⟨rfl, rfl, List.prefix_refl _⟩
  | _ => exact ⟨rfl, rfl, List.prefix_refl _⟩

theorem After.step (h : After early s tr) (i : Input) : After early (step i s).1 (tr ++ [stepOf LogWriter.step i s]) := by
  by_cases hi : i = .writer
  · subst hi
    exact h.writerStep (stepWriter_cases s)
  · obtain ⟨hwriter, hconsole, hpushed⟩ := step_frame hi s
    exact h.keep (h.inv.step i) hpushed (congrArg Writer.left hwriter) (fun _ => hconsole) (fun hl => hi hl.1)

end

def first : LogEntry := { message := ascii "first" }

def second : LogEntry := { message := ascii "second" }

/-- A call of `Log`. -/
def logs (entry : LogEntry) : List Input := [.log 0 entry, .log 0 entry, .log 0 entry]

/-- The entry is taken and processed, and the writer waits. -/
def drained : List Input := logs first ++ [.writer, .writer, .writer, .writer, .writer]

def stopping : List Input := [.shutdown, .writer, .writer, .shutdown, .shutdown]

end TR.Impl.Service.LogWriter
