import TcpRedirector.Proof.Capture.LoopFreedom

/-!
# Direct rules

A Direct rule keeps a process from the rules behind it, but not from the
built-in target: `CheckProcessRule` goes on to compare the path and to walk up
the process tree, as it does for a process that no rule matches
(`direct_rule_verdict`). So the rule is final exactly if neither of them
redirects the process (`direct_rule_final_iff`).
-/

namespace TR.Impl

/-- The process has the path of the built-in target, or the remembered one is
among the first ten processes from it upwards. -/
def Capture.builtIn (c : Capture) (os : Os) (pid : BitVec 32) (path : WString) : Bool :=
  wcsicmpEq path c.targetProcessPath || c.targetPid != 0 && reachesTarget (os.snapshot.getD []) c.targetPid 10 pid

/-- Redirected, if there is a proxy to redirect to. -/
def Capture.proxied (c : Capture) : Action := if c.proxyConfigured then .proxy else .direct

/-- The first enabled rule that matches the process. -/
def firstRule (rules : List Rule) (path : WString) : Option Rule :=
  rules.find? fun r => r.enabled && RuleEngine.applies r (shortName path) path

theorem matchRule_of_firstRule {rules : List Rule} {path : WString} {r : Rule} (h : firstRule rules path = some r) :
    RuleEngine.matchRule rules (shortName path) path = r.action := by
  rw [RuleEngine.matchRule, ← firstRule, h]

theorem matchRule_of_unmatched {rules : List Rule} {path : WString} (h : firstRule rules path = none) :
    RuleEngine.matchRule rules (shortName path) path = .direct := by
  rw [RuleEngine.matchRule, ← firstRule, h]

namespace Capture

variable {c : Capture} {cfg : Config} {os : Os} {rules : List Rule} {pid : BitVec 32} {path : WString} {p : BitVec 16}

/-- The lookup of the owner changes nothing the decision reads. -/
theorem findPidBySourcePort_frame (c : Capture) (os : Os) (p : BitVec 16) :
    (c.findPidBySourcePort os p).2.proxied = c.proxied ∧ (c.findPidBySourcePort os p).2.builtIn os = c.builtIn os := by
  rw [findPidBySourcePort]
  cases c.cachedPid os p with
  | some pid => exact ⟨rfl, rfl⟩
  | none => cases scanTcpTable os p <;> exact ⟨rfl, rfl⟩

/-- With a foreign owner whose path is known, the rules and the built-in target decide. -/
theorem judgePid_of_path (hown : pid ≠ cfg.currentProcessId) (hpath : os.imageName pid = some path)
    (hengine : cfg.ruleEngine = true) {a : RuleAction} (ha : RuleEngine.matchRule rules (shortName path) path = a) :
    (a = .block → (c.judgePid cfg os rules pid).1.action = .block) ∧
    (a = .proxy → (c.judgePid cfg os rules pid).1.action = c.proxied) ∧
    (a ≠ .block → a ≠ .proxy →
      (c.judgePid cfg os rules pid).1.action = if c.builtIn os pid path then c.proxied else .direct) := by
  refine ⟨?_, ?_, fun hblock hproxy => ?_⟩
  · rintro rfl
    simp only [judgePid, if_neg hown, hpath, hengine, if_true, ha]
  · rintro rfl
    simp only [judgePid, if_neg hown, hpath, hengine, if_true, ha]
    rfl
  · simp only [judgePid, if_neg hown, hpath, hengine, if_true, ha]
    rw [builtIn]
    cases hp : wcsicmpEq path c.targetProcessPath with
    | true => simp [proxied]
    | false =>
      simp only [Bool.false_eq_true, if_false, Bool.false_or, Bool.and_eq_true, bne_iff_ne, ne_eq]
      split <;> rfl

/-- A known owner is judged with everything but the cache as it was. -/
theorem checkProcessRule_known (hpid : (c.findPidBySourcePort os p).1 = pid) (h0 : pid ≠ 0) :
    c.checkProcessRule cfg os rules p = (c.findPidBySourcePort os p).2.judgePid cfg os rules pid := by
  rw [checkProcessRule]
  simp only [hpid, if_neg h0]

end Capture

/-- What `CheckProcessRule` answers for a process with a readable path: the
action of its first enabled rule if that is Block or Proxy. After any other
rule, as without one, the process is still redirected if it is the built-in
target or descends from it. -/
theorem direct_rule_verdict (c : Capture) (cfg : Config) (os : Os) (rules : List Rule) (srcPort : BitVec 16)
    (pid : BitVec 32) (path : WString) (hengine : cfg.ruleEngine = true)
    (hpid : (c.findPidBySourcePort os srcPort).1 = pid) (h0 : pid ≠ 0) (hown : pid ≠ cfg.currentProcessId)
    (hpath : os.imageName pid = some path) :
    let verdict := (c.checkProcessRule cfg os rules srcPort).1.action
    (∀ r, firstRule rules path = some r → r.action = .block → verdict = .block) ∧
    (∀ r, firstRule rules path = some r → r.action = .proxy → verdict = c.proxied) ∧
    (∀ r, firstRule rules path = some r → r.action ≠ .block → r.action ≠ .proxy →
      verdict = if c.builtIn os pid path then c.proxied else .direct) ∧
    (firstRule rules path = none → verdict = if c.builtIn os pid path then c.proxied else .direct) := by
  intro verdict
  have hv : verdict = ((c.findPidBySourcePort os srcPort).2.judgePid cfg os rules pid).1.action :=
    congrArg (·.1.action) (Capture.checkProcessRule_known hpid h0)
  obtain ⟨hproxied, hbuiltIn⟩ := Capture.findPidBySourcePort_frame c os srcPort
  have judged {a : RuleAction} (ha : RuleEngine.matchRule rules (shortName path) path = a) :=
    Capture.judgePid_of_path (c := (c.findPidBySourcePort os srcPort).2) hown hpath hengine ha
  rw [hproxied, hbuiltIn, ← hv] at judged
  refine ⟨fun r hr ha => ?_, fun r hr ha => ?_, fun r hr hblock hproxy => ?_, fun hn => ?_⟩
  · exact (judged (matchRule_of_firstRule hr)).1 ha
  · exact (judged (matchRule_of_firstRule hr)).2.1 ha
  · exact (judged (matchRule_of_firstRule hr)).2.2 hblock hproxy
  · exact (judged (matchRule_of_unmatched hn)).2.2 (by decide) (by decide)

/-- The first enabled rule that matches a process is final: a Direct rule keeps
it direct, and but for a Proxy rule only a process without a rule is redirected. -/
structure RuleFinal (rules : List Rule) (path : WString) (verdict : Action) : Prop where
  direct : ∀ r, firstRule rules path = some r → r.action = .direct → verdict = .direct
  unmatched : verdict = .proxy → ∀ r, firstRule rules path = some r → r.action = .proxy

/-- A process other than the service that the built-in criteria redirect, if
they are asked. -/
def Capture.redirectsBuiltIn (c : Capture) (cfg : Config) (os : Os) (pid : BitVec 32) (path : WString) : Bool :=
  pid != 0 && pid != cfg.currentProcessId && c.proxyConfigured && c.builtIn os pid path

theorem Capture.redirectsBuiltIn_iff {c : Capture} {cfg : Config} {os : Os} {pid : BitVec 32} {path : WString} (h0 : pid ≠ 0)
    (hown : pid ≠ cfg.currentProcessId) :
    c.redirectsBuiltIn cfg os pid path = true ↔ (if c.builtIn os pid path then c.proxied else .direct) = .proxy := by
  rw [redirectsBuiltIn, proxied, bne_iff_ne.mpr h0, bne_iff_ne.mpr hown]
  cases c.proxyConfigured <;> cases c.builtIn os pid path <;> decide

/-- The first rule that matches a process is final exactly if it says Block or
Proxy or the built-in criteria do not redirect the process. -/
theorem direct_rule_final_iff (c : Capture) (cfg : Config) (os : Os) (rules : List Rule) (srcPort : BitVec 16)
    (path : WString) (hengine : cfg.ruleEngine = true)
    (hpath : os.imageName (c.findPidBySourcePort os srcPort).1 = some path) :
    RuleFinal rules path (c.checkProcessRule cfg os rules srcPort).1.action ↔
      ∀ r, firstRule rules path = some r → r.action ≠ .block → r.action ≠ .proxy →
        c.redirectsBuiltIn cfg os (c.findPidBySourcePort os srcPort).1 path = false := by
  generalize hpid : (c.findPidBySourcePort os srcPort).1 = pid at hpath ⊢
  by_cases hexempt : pid = 0 ∨ pid = cfg.currentProcessId
  · -- the rules are not asked
    have hdirect : (c.checkProcessRule cfg os rules srcPort).1.action = .direct :=
      hexempt.elim (fun h => checkProcessRule_of_unknown (hpid.trans h)) fun h => Capture.checkProcessRule_own (hpid.trans h)
    rw [hdirect]
    refine iff_of_true ⟨fun _ _ _ => rfl, fun h => absurd h (by decide)⟩ fun r _ _ _ => ?_
    rcases hexempt with h | h <;> simp [Capture.redirectsBuiltIn, h]
  · obtain ⟨h0, hown⟩ := not_or.mp hexempt
    obtain ⟨hblocked, -, hother, -⟩ := direct_rule_verdict c cfg os rules srcPort pid path hengine hpid h0 hown hpath
    have hredirects : c.redirectsBuiltIn cfg os pid path = true ↔ _ := Capture.redirectsBuiltIn_iff h0 hown
    generalize (c.checkProcessRule cfg os rules srcPort).1.action = verdict at hblocked hother ⊢
    constructor
    · intro hfinal r hr hblock hproxy
      have hne : verdict ≠ .proxy := fun hv => hproxy (hfinal.unmatched hv r hr)
      rwa [hother r hr hblock hproxy, Ne, ← hredirects, Bool.not_eq_true] at hne
    · intro h
      have hkept : ∀ r, firstRule rules path = some r → r.action ≠ .block → r.action ≠ .proxy → verdict ≠ .proxy := by
        intro r hr hblock hproxy
        rw [hother r hr hblock hproxy, Ne, ← hredirects, h r hr hblock hproxy]
        decide
      refine ⟨fun r hr ha => ?_, fun hv r hr => ?_⟩
      · have hne := hkept r hr (by simp [ha]) (by simp [ha])
        rw [hother r hr (by simp [ha]) (by simp [ha]), Capture.proxied] at hne ⊢
        split at hne
        · split at hne
          · exact absurd rfl hne
          · simp [*]
        · simp [*]
      · by_contra hproxy
        by_cases hblock : r.action = .block
        · rw [hblocked r hr hblock] at hv
          cases hv
        · exact hkept r hr hblock hproxy hv

namespace Demo

/-- A rule for every process: Direct. -/
def directRule : Rule := { id := [], type := .global, action := .direct, pattern := [] }

def directRules : List Rule := [directRule]

/-- A capture whose built-in target is the program at `path`. -/
def targeting (path : WString) : Capture := (System.init path (ascii "proxy") 3128 directRules).capture

end Demo

/-- A process that is not the built-in target stays direct under a Direct rule. -/
theorem direct_rule_final_elsewhere :
    RuleFinal Demo.directRules [97]
        ((Demo.targeting [98]).checkProcessRule Demo.cfg (Demo.owned 1000 8) Demo.directRules 1000).1.action ↔
      ∀ r, firstRule Demo.directRules [97] = some r → r.action ≠ .block → r.action ≠ .proxy →
        (Demo.targeting [98]).redirectsBuiltIn Demo.cfg (Demo.owned 1000 8)
          ((Demo.targeting [98]).findPidBySourcePort (Demo.owned 1000 8) 1000).1 [97] = false :=
  direct_rule_final_iff (Demo.targeting [98]) Demo.cfg (Demo.owned 1000 8) Demo.directRules 1000 [97] rfl (by decide)

/-- The built-in target is redirected, although its first rule says Direct. -/
theorem direct_rule_overridden :
    firstRule Demo.directRules [97] = some Demo.directRule ∧ Demo.directRule.action = .direct ∧
      (Demo.owned 1000 8).imageName 8 = some [97] ∧
      ((Demo.targeting [97]).checkProcessRule Demo.cfg (Demo.owned 1000 8) Demo.directRules 1000).1.action = .proxy ∧
      ((Demo.targeting [97]).checkProcessRule Demo.cfg (Demo.owned 1000 8) Demo.directRules 1000).1.pid = 8 := by
  decide

end TR.Impl
