import TcpRedirector.Impl.Driver.WfpCallout
import TcpRedirector.Proof.Driver.Rules

/-!
# What the callout decides

The callout permits a connection or redirects it; it never blocks. The request
gets the redirect handle once the memory for the entry is there
(`carriesHandle_queueRedirect`), and the entry comes into the queue if there is
also a place for it (`queued_queueRedirect`). So the two agree unless the queue
is full, or the request came with the handle and there is no memory
(`classifies_right_iff`).
-/

namespace TR.Impl

/-- The rule that `RedirectService_MatchRule` stops at. -/
def Callout.firstMatch (g : Callout) (process : ProcessIdentity) : Option RuleEntry :=
  g.rulesList.find? (·.hits process)

/-- The redirect of the connection came into the queue. -/
def Queued (g : Callout) (values : ConnectValues) (r : Classified) : Prop :=
  ∃ info, r.redirectService.redirectQueue = g.redirectService.redirectQueue ++ [info] ∧
    info.originalAddressV4 = values.remoteAddr ∧ info.originalPort = values.remotePort

/-- The request given back carries the redirect handle. -/
def CarriesHandle (g : Callout) (r : Classified) : Prop :=
  ∃ request, r.applied = some request ∧ request.redirectHandle = g.redirectHandle

/-- What a classification should come to. -/
structure ClassifiesRight (g : Callout) (values : ConnectValues) (process : ProcessIdentity) (r : Classified) :
    Prop where
  permitted : (∀ rule, g.firstMatch process = some rule → rule.action = RuleActionPermit) →
    r.classifyOut.actionType = FWP_ACTION_PERMIT ∧ r.applied = none
  blocked : ∀ rule, g.firstMatch process = some rule → rule.action = RuleActionBlock →
    r.classifyOut.actionType = FWP_ACTION_BLOCK
  redirected : ∀ rule, g.firstMatch process = some rule → rule.action = RuleActionRedirect →
    (CarriesHandle g r ↔ Queued g values r)

/-- The request that the calls of WFP give to a redirect, if they succeed. -/
def CalloutCalls.request (calls : CalloutCalls) (g : Callout) (values : ConnectValues) (classifyOut : ClassifyOut) :
    Option ConnectRequest :=
  if g.redirectHandle ≠ 0 ∧ values.classifyContext = true ∧ calls.fwpsAcquireClassifyHandle = true then
    match calls.fwpsAcquireWritableLayerDataPointer { classifyOut with actionType := FWP_ACTION_PERMIT } with
    | (true, some connectRequest, _) => some connectRequest
    | _ => none
  else none

/-- When a classification comes to what it should. -/
structure CanClassify (g : Callout) (values : ConnectValues) (calls : CalloutCalls) (classifyOut : ClassifyOut)
    (process : ProcessIdentity) : Prop where
  notBlock : ∀ rule, g.firstMatch process = some rule → rule.action ≠ RuleActionBlock
  /-- With memory there is a place in the queue, and without the request has not got the handle already. -/
  place : ∀ rule request, g.firstMatch process = some rule → rule.action = RuleActionRedirect →
    calls.request g values classifyOut = some request →
    if calls.exAllocatePool = true then g.redirectService.queueMaxCount.sle g.redirectService.queueCount = false
    else request.redirectHandle ≠ g.redirectHandle

/-! ## The redirect -/

section

variable {g : Callout} {values : ConnectValues} {calls : CalloutCalls} {process : ProcessIdentity}
  {request : ConnectRequest} {classifyOut : ClassifyOut}

/-- A full queue turns the entry away; else it comes in as it is but for what `Enqueue` sets. -/
theorem enqueue_redirectQueue (s : RedirectService) (info : RedirectInfo) (tickCount : BitVec 64) :
    (s.enqueue (some info) tickCount).1.redirectQueue =
      if s.queueMaxCount.sle s.queueCount then s.redirectQueue
      else s.redirectQueue ++ [{ info with
        redirectId := (s.nextRedirectId + 1).signExtend 64, status := .pending, timestamp := tickCount }] := by
  rw [RedirectService.enqueue]
  split <;> rfl

theorem redirectService_queueRedirect :
    (queueRedirect g values calls process request classifyOut).redirectService =
      if calls.exAllocatePool then
        (g.redirectService.enqueue (some (newRedirectInfo values process)) calls.keQueryTickCount).1
      else g.redirectService := by
  simp only [queueRedirect]
  split
  · split <;> rfl
  · rfl

/-- With memory the request gets the handle, before the queue is asked. -/
theorem applied_queueRedirect :
    (queueRedirect g values calls process request classifyOut).applied =
      some (if calls.exAllocatePool then { request with redirectHandle := g.redirectHandle } else request) := by
  simp only [queueRedirect]
  split
  · split <;> rfl
  · rfl

theorem carriesHandle_queueRedirect :
    CarriesHandle g (queueRedirect g values calls process request classifyOut) ↔
      calls.exAllocatePool = true ∨ request.redirectHandle = g.redirectHandle := by
  rw [CarriesHandle, applied_queueRedirect]
  cases calls.exAllocatePool with
  | true => exact iff_of_true ⟨_, rfl, rfl⟩ (.inl rfl)
  | false =>
    constructor
    · rintro ⟨_, ⟨⟩, h⟩
      exact .inr h
    · rintro (h | h)
      · cases h
      · exact ⟨_, rfl, h⟩

theorem not_queued_of_eq {r : Classified} (h : r.redirectService.redirectQueue = g.redirectService.redirectQueue) :
    ¬ Queued g values r := by
  rintro ⟨info, hqueue, -⟩
  have hlen := congrArg List.length (h.symm.trans hqueue)
  rw [List.length_append, List.length_singleton] at hlen
  omega

theorem queued_queueRedirect :
    Queued g values (queueRedirect g values calls process request classifyOut) ↔
      calls.exAllocatePool = true ∧ g.redirectService.queueMaxCount.sle g.redirectService.queueCount = false := by
  cases hpool : calls.exAllocatePool with
  | false =>
    refine iff_of_false (not_queued_of_eq ?_) fun h => absurd h.1 Bool.false_ne_true
    rw [redirectService_queueRedirect, hpool]
    rfl
  | true =>
    have hservice : (queueRedirect g values calls process request classifyOut).redirectService =
        (g.redirectService.enqueue (some (newRedirectInfo values process)) calls.keQueryTickCount).1 := by
      rw [redirectService_queueRedirect, if_pos hpool]
    cases hfull : g.redirectService.queueMaxCount.sle g.redirectService.queueCount with
    | true =>
      refine iff_of_false (not_queued_of_eq ?_) fun h => absurd h.2.symm Bool.false_ne_true
      rw [hservice, enqueue_redirectQueue, hfull, if_pos rfl]
    | false =>
      have hqueue := enqueue_redirectQueue g.redirectService (newRedirectInfo values process) calls.keQueryTickCount
      rw [hfull, if_neg Bool.false_ne_true, ← hservice] at hqueue
      exact iff_of_true ⟨_, hqueue, rfl, rfl⟩ ⟨rfl, rfl⟩

/-- When handle and entry agree. -/
theorem redirected_iff :
    (CarriesHandle g (queueRedirect g values calls process request classifyOut) ↔
        Queued g values (queueRedirect g values calls process request classifyOut)) ↔
      if calls.exAllocatePool = true then g.redirectService.queueMaxCount.sle g.redirectService.queueCount = false
      else request.redirectHandle ≠ g.redirectHandle := by
  rw [carriesHandle_queueRedirect, queued_queueRedirect]
  cases calls.exAllocatePool with
  | true => simp only [true_or, true_and, true_iff, if_true]
  | false => simp only [Bool.false_eq_true, false_or, false_and, iff_false, if_false, ne_eq]

/-! ## The classification -/

theorem driverMatchRule_eq (g : Callout) (process : ProcessIdentity) :
    driverMatchRule g.rulesList process =
      match g.firstMatch process with
      | some rule => rule.action
      | none => RuleActionPermit := rfl

/-- Nothing is redirected that no rule wants redirected; it is permitted, also if a rule wants it blocked. -/
theorem classify_of_ne (classifyOut : ClassifyOut)
    (h : identifyProcess values.metaValues calls.psLookupProcessByProcessId = some process)
    (hne : driverMatchRule g.rulesList process ≠ RuleActionRedirect) :
    tcpRedirectClassify g values calls classifyOut =
      ⟨g.redirectService, { classifyOut with actionType := FWP_ACTION_PERMIT }, none⟩ := by
  simp only [tcpRedirectClassify, h]
  rw [if_pos hne]

/-- A redirect for which a call of WFP fails changes nothing. -/
theorem classify_of_request_none
    (h : identifyProcess values.metaValues calls.psLookupProcessByProcessId = some process)
    (hrequest : calls.request g values classifyOut = none) :
    (tcpRedirectClassify g values calls classifyOut).redirectService = g.redirectService ∧
      (tcpRedirectClassify g values calls classifyOut).applied = none := by
  simp only [tcpRedirectClassify, h]
  split
  · exact ⟨rfl, rfl⟩
  · split
    next hredirect =>
      split
      next hacquire =>
        rw [CalloutCalls.request, if_pos ⟨hredirect.1, hredirect.2, hacquire⟩] at hrequest
        split
        next hwritable => rw [hwritable] at hrequest; cases hrequest
        next => exact ⟨rfl, rfl⟩
      next => exact ⟨rfl, rfl⟩
    next => exact ⟨rfl, rfl⟩

theorem classify_of_request (h : identifyProcess values.metaValues calls.psLookupProcessByProcessId = some process)
    (haction : driverMatchRule g.rulesList process = RuleActionRedirect)
    (hrequest : calls.request g values classifyOut = some request) :
    ∃ classifyOut', tcpRedirectClassify g values calls classifyOut =
      queueRedirect g values calls process request classifyOut' := by
  rw [CalloutCalls.request] at hrequest
  split at hrequest
  next hcalls =>
    obtain ⟨hhandle, hcontext, hacquire⟩ := hcalls
    split at hrequest
    next connectRequest classifyOut' hwritable =>
      cases hrequest
      refine ⟨classifyOut', ?_⟩
      simp only [tcpRedirectClassify, h]
      rw [if_neg (not_not_intro haction), if_pos ⟨hhandle, hcontext⟩, if_pos hacquire, hwritable]
    next => cases hrequest
  next => cases hrequest

/-- Handle and entry agree iff what is needed of memory and queue is there. -/
theorem classify_redirected_iff (classifyOut : ClassifyOut)
    (h : identifyProcess values.metaValues calls.psLookupProcessByProcessId = some process)
    (haction : driverMatchRule g.rulesList process = RuleActionRedirect) :
    (CarriesHandle g (tcpRedirectClassify g values calls classifyOut) ↔
        Queued g values (tcpRedirectClassify g values calls classifyOut)) ↔
      ∀ request, calls.request g values classifyOut = some request →
        if calls.exAllocatePool = true then g.redirectService.queueMaxCount.sle g.redirectService.queueCount = false
        else request.redirectHandle ≠ g.redirectHandle := by
  cases hrequest : calls.request g values classifyOut with
  | none =>
    obtain ⟨hservice, happlied⟩ := classify_of_request_none h hrequest
    refine iff_of_true (iff_of_false ?_ (not_queued_of_eq (by rw [hservice]))) fun _ hsome => by cases hsome
    rintro ⟨request, hsome, -⟩
    rw [happlied] at hsome
    cases hsome
  | some request =>
    obtain ⟨classifyOut', heq⟩ := classify_of_request h haction hrequest
    rw [heq, redirected_iff]
    constructor
    · rintro hplace _ ⟨⟩
      exact hplace
    · intro hplace
      exact hplace request rfl

/-- A classification does to the queue what a call of `Enqueue` does, or nothing. -/
theorem redirectService_classify (g : Callout) (values : ConnectValues) (calls : CalloutCalls)
    (classifyOut : ClassifyOut) :
    (tcpRedirectClassify g values calls classifyOut).redirectService = g.redirectService ∨
      ∃ info tickCount, (tcpRedirectClassify g values calls classifyOut).redirectService =
        (queueStep (.enqueue (some info) tickCount) g.redirectService).1 := by
  cases h : identifyProcess values.metaValues calls.psLookupProcessByProcessId with
  | none =>
    left
    simp only [tcpRedirectClassify, h]
  | some process =>
    by_cases haction : driverMatchRule g.rulesList process = RuleActionRedirect
    · cases hrequest : calls.request g values classifyOut with
      | none => exact .inl (classify_of_request_none h hrequest).1
      | some request =>
        obtain ⟨classifyOut', heq⟩ := classify_of_request h haction hrequest
        rw [heq, redirectService_queueRedirect]
        split
        · exact .inr ⟨_, calls.keQueryTickCount, rfl⟩
        · exact .inl rfl
    · rw [classify_of_ne classifyOut h haction]
      exact .inl rfl

/-- With a first match the quantifiers are about this rule. -/
theorem firstMatch_iff {rule : RuleEntry} (hmatch : g.firstMatch process = some rule) (P : RuleEntry → Prop) :
    (∀ rule', g.firstMatch process = some rule' → P rule') ↔ P rule := by
  constructor
  · intro h
    exact h rule hmatch
  · intro h rule' h'
    rw [hmatch] at h'
    cases h'
    exact h

/-- Without a match the connection is permitted. -/
theorem classifiesRight_of_none
    (h : identifyProcess values.metaValues calls.psLookupProcessByProcessId = some process)
    (hmatch : g.firstMatch process = none) :
    ClassifiesRight g values process (tcpRedirectClassify g values calls classifyOut) := by
  have haction : driverMatchRule g.rulesList process ≠ RuleActionRedirect := by
    rw [driverMatchRule_eq, hmatch]
    decide
  rw [classify_of_ne classifyOut h haction]
  refine ⟨fun _ => ⟨rfl, rfl⟩, fun rule hrule => ?_, fun rule hrule => ?_⟩
  · rw [hmatch] at hrule
    cases hrule
  · rw [hmatch] at hrule
    cases hrule

/-- A rule with another action than Redirect permits, which is right unless it is Block. -/
theorem classifiesRight_iff_of_ne {rule : RuleEntry}
    (h : identifyProcess values.metaValues calls.psLookupProcessByProcessId = some process)
    (hmatch : g.firstMatch process = some rule) (hne : rule.action ≠ RuleActionRedirect) :
    ClassifiesRight g values process (tcpRedirectClassify g values calls classifyOut) ↔ rule.action ≠ RuleActionBlock := by
  have haction : driverMatchRule g.rulesList process ≠ RuleActionRedirect := by
    rw [driverMatchRule_eq, hmatch]
    exact hne
  rw [classify_of_ne classifyOut h haction]
  constructor
  · intro hright hblock
    have hpermit : FWP_ACTION_PERMIT = FWP_ACTION_BLOCK := hright.blocked rule hmatch hblock
    exact absurd hpermit (by decide)
  · intro hblock
    refine ⟨fun _ => ⟨rfl, rfl⟩, ?_, ?_⟩
    · exact (firstMatch_iff hmatch _).mpr fun hb => absurd hb hblock
    · exact (firstMatch_iff hmatch _).mpr fun hr => absurd hr hne

/-- Exactly when a classification comes to what it should. -/
theorem classifies_right_iff (g : Callout) (values : ConnectValues) (calls : CalloutCalls) (classifyOut : ClassifyOut)
    (process : ProcessIdentity)
    (h : identifyProcess values.metaValues calls.psLookupProcessByProcessId = some process) :
    ClassifiesRight g values process (tcpRedirectClassify g values calls classifyOut) ↔
      CanClassify g values calls classifyOut process := by
  cases hmatch : g.firstMatch process with
  | none =>
    refine iff_of_true (classifiesRight_of_none h hmatch) ⟨fun rule hrule => ?_, fun rule request hrule => ?_⟩
    · rw [hmatch] at hrule
      cases hrule
    · rw [hmatch] at hrule
      cases hrule
  | some rule =>
    by_cases hredirect : rule.action = RuleActionRedirect
    · have haction : driverMatchRule g.rulesList process = RuleActionRedirect := by
        rw [driverMatchRule_eq, hmatch]
        exact hredirect
      have hiff := classify_redirected_iff classifyOut h haction
      have hpermit : rule.action ≠ RuleActionPermit := hredirect ▸ by decide
      have hblock : rule.action ≠ RuleActionBlock := hredirect ▸ by decide
      constructor
      · intro hright
        refine ⟨(firstMatch_iff hmatch _).mpr hblock, fun rule' request _ _ hrequest => ?_⟩
        exact hiff.mp (hright.redirected rule hmatch hredirect) request hrequest
      · intro hcan
        refine ⟨fun hall => absurd (hall rule hmatch) hpermit, ?_, fun rule' _ _ => ?_⟩
        · exact (firstMatch_iff hmatch _).mpr fun hb => absurd hb hblock
        · exact hiff.mpr fun request hrequest => hcan.place rule request hmatch hredirect hrequest
    · rw [classifiesRight_iff_of_ne h hmatch hredirect]
      constructor
      · intro hblock
        refine ⟨(firstMatch_iff hmatch _).mpr hblock, fun rule' request h' haction => ?_⟩
        have hother := (firstMatch_iff hmatch fun rule => rule.action ≠ RuleActionRedirect).mpr hredirect
        exact absurd haction (hother rule' h')
      · intro hcan
        exact hcan.notBlock rule hmatch

end

namespace Demo

/-- Process 7 connects to port 443. -/
def connect : ConnectValues := ⟨0x0A000001, 443, some 7, true⟩

/-- A callout with one rule and `n` redirects in the queue. -/
def callout (action : RuleActionType) (n : Nat) : Callout :=
  ⟨[everything action], { RedirectService.initialized with
    redirectQueue := List.replicate n (newRedirectInfo connect browser)
    queueCount := BitVec.ofNat 32 n }, 9⟩

def connectRequest : ConnectRequest := ⟨0, 50000, 443, [], [], 4, 2, 0, 0⟩

/-- All calls succeed. -/
def calls : CalloutCalls where
  psLookupProcessByProcessId _ := some ⟨none, none⟩
  fwpsAcquireClassifyHandle := true
  fwpsAcquireWritableLayerDataPointer out := (true, some connectRequest, out)
  exAllocatePool := true
  keQueryTickCount := 0

end Demo

/-- With a place in the queue the redirect is what it should be. -/
theorem classifies_right_redirect :
    ClassifiesRight (Demo.callout RuleActionRedirect 0) Demo.connect Demo.browser
      (tcpRedirectClassify (Demo.callout RuleActionRedirect 0) Demo.connect Demo.calls ⟨0, 0, 0, 0⟩) := by
  refine (classifies_right_iff _ _ _ _ _ rfl).mpr ⟨?_, ?_⟩
  · rintro rule ⟨⟩
    decide
  · rintro rule request ⟨⟩ - -
    rw [if_pos (show Demo.calls.exAllocatePool = true from rfl)]
    decide

/-- What a rule wants blocked is permitted, and a request whose redirect the
full queue has turned away keeps the handle. -/
theorem classifies_wrong :
    ¬ ClassifiesRight (Demo.callout RuleActionBlock 0) Demo.connect Demo.browser
        (tcpRedirectClassify (Demo.callout RuleActionBlock 0) Demo.connect Demo.calls ⟨0, 0, 0, 0⟩) ∧
      ¬ ClassifiesRight (Demo.callout RuleActionRedirect 4096) Demo.connect Demo.browser
        (tcpRedirectClassify (Demo.callout RuleActionRedirect 4096) Demo.connect Demo.calls ⟨0, 0, 0, 0⟩) := by
  constructor
  · intro h
    exact absurd (h.blocked _ rfl rfl) (by decide)
  · intro h
    exact not_queued_of_eq rfl ((h.redirected _ rfl rfl).mp ⟨_, rfl, rfl⟩)

end TR.Impl
