import TcpRedirector.Impl.Driver.RedirectService
import TcpRedirector.Proof.Framework.Run

/-!
# Replacing the driver's rules

`SET_RULES` clears the list and adds the new rules one by one. A process
classified in between is judged by the rules added so far: it gets what one of
the complete lists says if one of these hits it, or if a complete list permits
it. An allocation that fails leaves the rules added so far
(`set_rules_atomic_iff`).
-/

namespace TR.Impl

/-- What the step must do if the replacement is atomic. -/
structure AtomicStep (old : DriverRules) (new : List RuleEntry)
    (st : StepOf DriverRules RulesInput (Option RuleActionType)) :
    Prop where
  matched : ∀ process, st.input = .matchRule process →
    st.out = some (driverMatchRule old.rulesList process) ∨ st.out = some (driverMatchRule new process)
  failed : ∀ status, st.post.request = .returned status → status.ntSuccess = false →
    st.post.rulesList = old.rulesList ∧ st.post.rulesCount = old.rulesCount

/-- The step is not one that goes wrong. -/
structure RulesInTurn (old : DriverRules) (new : List RuleEntry)
    (st : StepOf DriverRules RulesInput (Option RuleActionType)) : Prop where
  /-- No process that both lists would redirect or block comes before the rule that hits it. -/
  matched : ∀ process rest, st.input = .matchRule process → st.pre.request = .add rest →
    (st.pre.rulesList.any (·.hits process) = true ∨ driverMatchRule old.rulesList process = RuleActionPermit ∨
      driverMatchRule new process = RuleActionPermit)
  /-- No allocation fails, unless what was added so far is the old list. -/
  allocated : ∀ rule rest, st.input = .setRules false → st.pre.request = .add (rule :: rest) →
    st.pre.rulesList = old.rulesList ∧ st.pre.rulesCount = old.rulesCount

/-- Where the rules are while the request is at work. -/
def Replacing (old : DriverRules) (new : List RuleEntry) (s : DriverRules) : Prop :=
  match s.request with
  | .clear rules => rules = new ∧ s.rulesList = old.rulesList
  | .add rules => s.rulesList ++ rules = new
  | .returned status =>
    if status.ntSuccess then s.rulesList = new ∨ s.rulesList = old.rulesList
    else s.rulesList = old.rulesList ∧ s.rulesCount = old.rulesCount

section

variable {old s : DriverRules} {new : List RuleEntry} {process : ProcessIdentity}

theorem driverMatchRule_of_none {rules : List RuleEntry} (h : rules.any (·.hits process) = false) :
    driverMatchRule rules process = RuleActionPermit := by
  have hnone : rules.find? (·.hits process) = none := by
    rw [List.find?_eq_none]
    intro r hr
    have hall := List.any_eq_false.mp h r hr
    exact hall
  unfold driverMatchRule
  rw [hnone]

/-- A rule that hits decides, whatever is added behind it. -/
theorem driverMatchRule_append {rules rest : List RuleEntry} (h : rules.any (·.hits process) = true) :
    driverMatchRule (rules ++ rest) process = driverMatchRule rules process := by
  obtain ⟨r, hr, hhit⟩ := List.any_eq_true.mp h
  have hsome : (rules.find? (·.hits process)).isSome = true := List.find?_isSome.mpr ⟨r, hr, hhit⟩
  obtain ⟨r', hr'⟩ := Option.isSome_iff_exists.mp hsome
  unfold driverMatchRule
  rw [List.find?_append, hr', Option.some_or]

/-- In the middle of the replacement. -/
theorem matched_iff {rest : List RuleEntry} (h : s.rulesList ++ rest = new) :
    (driverMatchRule s.rulesList process = driverMatchRule old.rulesList process ∨
      driverMatchRule s.rulesList process = driverMatchRule new process) ↔
    (s.rulesList.any (·.hits process) = true ∨ driverMatchRule old.rulesList process = RuleActionPermit ∨
      driverMatchRule new process = RuleActionPermit) := by
  cases hany : s.rulesList.any (·.hits process) with
  | true =>
    refine iff_of_true (.inr ?_) (.inl rfl)
    rw [← h, driverMatchRule_append hany]
  | false =>
    rw [driverMatchRule_of_none hany]
    constructor
    · rintro (h | h)
      · exact .inr (.inl h.symm)
      · exact .inr (.inr h.symm)
    · rintro (h | h | h)
      · cases h
      · exact .inl h.symm
      · exact .inr h.symm

theorem replacing_start (rules : List RuleEntry) (count : BitVec 32) (new : List RuleEntry) :
    Replacing ⟨rules, count, .start new⟩ new ⟨rules, count, .start new⟩ := by
  unfold Replacing SetRules.start
  cases new with
  | nil => exact .inr rfl
  | cons rule rest => exact ⟨rfl, rfl⟩

theorem replacing_step (i : RulesInput) (s : DriverRules) (h : Replacing old new s)
    (hst : RulesInTurn old new (stepOf rulesStep i s)) : Replacing old new (rulesStep i s).1 := by
  obtain ⟨rules, count, request⟩ := s
  cases i with
  | matchRule process => exact h
  | setRules allocated =>
    cases request with
    | clear rules => exact h.1
    | add rest =>
      cases rest with
      | nil =>
        have hnew : rules ++ [] = new := h
        rw [List.append_nil] at hnew
        exact .inl hnew
      | cons rule rest =>
        cases allocated with
        | true =>
          have hnew : rules ++ rule :: rest = new := h
          show (rules ++ [rule]) ++ rest = new
          rw [List.append_assoc]
          exact hnew
        | false => exact hst.allocated rule rest rfl rfl
    | returned status => exact h

/-- Nothing was lost by a request that has failed. -/
theorem Replacing.failed (h : Replacing old new s) {status : NtStatus} (hs : s.request = .returned status)
    (hf : status.ntSuccess = false) : s.rulesList = old.rulesList ∧ s.rulesCount = old.rulesCount := by
  unfold Replacing at h
  rw [hs] at h
  simp only [hf, Bool.false_eq_true, if_false] at h
  exact h

/-- Outside of the loop one of the complete lists is in force. -/
theorem Replacing.complete (h : Replacing old new s) (hs : ∀ rest, s.request ≠ .add rest) :
    s.rulesList = old.rulesList ∨ s.rulesList = new := by
  obtain ⟨rules, count, request⟩ := s
  cases request with
  | clear rules => exact .inl h.2
  | add rest => exact absurd rfl (hs rest)
  | returned status =>
    cases hstatus : status.ntSuccess with
    | true =>
      simp only [Replacing, hstatus, if_true] at h
      exact h.symm
    | false => exact .inl (h.failed rfl hstatus).1

theorem atomicStep_matchRule_iff (h : Replacing old new s) (process : ProcessIdentity) :
    AtomicStep old new (stepOf rulesStep (.matchRule process) s) ↔
      RulesInTurn old new (stepOf rulesStep (.matchRule process) s) := by
  have hmatched : ∀ rest, s.request = .add rest →
      ((some (driverMatchRule s.rulesList process) = some (driverMatchRule old.rulesList process) ∨
        some (driverMatchRule s.rulesList process) = some (driverMatchRule new process)) ↔
      (s.rulesList.any (·.hits process) = true ∨ driverMatchRule old.rulesList process = RuleActionPermit ∨
        driverMatchRule new process = RuleActionPermit)) := by
    intro rest hrest
    unfold Replacing at h
    rw [hrest] at h
    rw [Option.some.injEq, Option.some.injEq]
    exact matched_iff h
  constructor
  · intro hst
    refine ⟨?_, fun rule rest hi => by cases hi⟩
    rintro _ rest ⟨⟩ hrest
    exact (hmatched rest hrest).mp (hst.matched process rfl)
  · intro hst
    refine ⟨?_, fun status hs hf => h.failed hs hf⟩
    rintro _ ⟨⟩
    by_cases hadd : ∃ rest, s.request = .add rest
    · obtain ⟨rest, hrest⟩ := hadd
      exact (hmatched rest hrest).mpr (hst.matched process rest rfl hrest)
    · rcases h.complete fun rest hrest => hadd ⟨rest, hrest⟩ with hlist | hlist
      · exact .inl (congrArg (fun l => some (driverMatchRule l process)) hlist)
      · exact .inr (congrArg (fun l => some (driverMatchRule l process)) hlist)

theorem atomicStep_setRules_iff (h : Replacing old new s) (allocated : Bool) :
    AtomicStep old new (stepOf rulesStep (.setRules allocated) s) ↔
      RulesInTurn old new (stepOf rulesStep (.setRules allocated) s) := by
  constructor
  · intro hst
    refine ⟨fun process rest hi => (by cases hi), ?_⟩
    rintro rule rest ⟨⟩ hrest
    have hpost : (rulesStep (.setRules false) s).1 = { s with request := .returned .insufficientResources } := by
      have hrest' : s.request = .add (rule :: rest) := hrest
      simp [rulesStep, hrest']
    have hfailed := hst.failed .insufficientResources
    rw [show (stepOf rulesStep (.setRules false) s).post = (rulesStep (.setRules false) s).1 from rfl, hpost] at hfailed
    exact hfailed rfl rfl
  · intro hst
    refine ⟨fun process hi => (by cases hi), fun status hs hf => ?_⟩
    exact (replacing_step (.setRules allocated) s h hst).failed hs hf

theorem atomicStep_iff (i : RulesInput) (s : DriverRules) (h : Replacing old new s) :
    AtomicStep old new (stepOf rulesStep i s) ↔ RulesInTurn old new (stepOf rulesStep i s) := by
  cases i with
  | matchRule process => exact atomicStep_matchRule_iff h process
  | setRules allocated => exact atomicStep_setRules_iff h allocated

end

/-- Exactly when the replacement of the rules is atomic. -/
theorem set_rules_atomic_iff (rules : List RuleEntry) (count : BitVec 32) (new : List RuleEntry)
    (schedule : List RulesInput) :
    let start : DriverRules := ⟨rules, count, .start new⟩
    (∀ st ∈ trace rulesStep schedule start, AtomicStep start new st) ↔
      ∀ st ∈ trace rulesStep schedule start, RulesInTurn start new st :=
  forall_trace_iff replacing_step atomicStep_iff schedule (replacing_start rules count new)

namespace Demo

def everything (action : RuleActionType) : RuleEntry := ⟨1, action, true, false, [], 0⟩

def browser : ProcessIdentity := ⟨7, [], []⟩

end Demo

/-- A process that the old rule and the new one block is let through after `RedirectService_ClearRules`. -/
theorem blocked_process_permitted :
    let start : DriverRules := ⟨[Demo.everything RuleActionBlock], 1, .start [Demo.everything RuleActionBlock]⟩
    ¬ ∀ st ∈ trace rulesStep [.setRules true, .matchRule Demo.browser] start,
      AtomicStep start [Demo.everything RuleActionBlock] st := by
  intro start h
  have hlast := h ⟨⟨[], 0, .add [Demo.everything RuleActionBlock]⟩, .matchRule Demo.browser, some RuleActionPermit,
    ⟨[], 0, .add [Demo.everything RuleActionBlock]⟩⟩ (List.mem_cons_of_mem _ List.mem_cons_self)
  rcases hlast.matched Demo.browser rfl with h | h
  · exact absurd h (by decide)
  · exact absurd h (by decide)

end TR.Impl
