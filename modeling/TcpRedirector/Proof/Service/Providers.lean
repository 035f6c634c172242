import TcpRedirector.Impl.Service.Providers
import TcpRedirector.Proof.Framework.Run

/-!
# No provider is used after it was deleted

A provider for Kerberos is never replaced, so at most one is deleted in any
run (`providers_deleted`). It is the one of a service that was started with
Basic, if a reload finds Kerberos in the configuration; then, and only then,
a handler can be left with a deleted provider or take its context to another
(`providers_safe_iff`).
-/

namespace TR.Impl.Service

/-- The configuration asks for a provider for Kerberos. -/
def WantsKerberos (auth : AuthSettings) : Prop :=
  auth.enabled = true ∧ (auth.authMode = .kerberosOnly ∨ auth.authMode = .kerberosPreferred)

theorem replaces_iff {s : Providers} {auth : AuthSettings} :
    s.replaces auth = true ↔ WantsKerberos auth ∧ s.serviceType ≠ some .kerberosAgent := by
  simp only [Providers.replaces, WantsKerberos, decide_eq_true_eq, and_assoc]

/-! ## What is deleted -/

/-- The providers of the service and of the reload callback are there. -/
structure OwnsProviders (s : Providers) : Prop where
  service : ∀ p, s.service = some p → s.objects p ≠ none
  made : ∀ p, s.reload = .made p → s.objects p = some .kerberosAgent ∧ s.service ≠ some p
  replacing : ∀ p, s.reload = .made p → s.serviceType ≠ some .kerberosAgent
  deleted : s.deleted = 0 ∨ s.deleted = 1 ∧ s.serviceType = some .kerberosAgent
  assigned : ∀ p, s.reload = .assigned p → s.service = some p ∧ s.serviceType = some .kerberosAgent

theorem ownsProviders_started (provider : Option AuthProviderType) : OwnsProviders (.started provider) where
  service := fun p hp => by
    cases provider with
    | none => cases hp
    | some type =>
      cases hp
      simp [Providers.started]
  made := fun p hp => by cases hp
  replacing := fun p hp => by cases hp
  deleted := .inl rfl
  assigned := fun p hp => by cases hp

section

variable {s : Providers}

/-- A handler changes nothing of what is owned. -/
theorem handlerStep_owned (s : Providers) (t : Nat) (call : AuthCall) (succeeded : Bool) :
    let s' := s.handlerStep t call succeeded
    s'.objects = s.objects ∧ s'.service = s.service ∧ s'.relay = s.relay ∧ s'.reload = s.reload ∧
      s'.deleted = s.deleted := by
  intro s'
  simp only [s', Providers.handlerStep]
  split
  · split
    · exact ⟨rfl, rfl, rfl, rfl, rfl⟩
    · split <;> exact ⟨rfl, rfl, rfl, rfl, rfl⟩
  · exact ⟨rfl, rfl, rfl, rfl, rfl⟩
  · exact ⟨rfl, rfl, rfl, rfl, rfl⟩

/-- What the new provider's address held does not matter: it is free. -/
theorem serviceType_update (hservice : ∀ p, s.service = some p → s.objects p ≠ none) {new : Nat}
    (hnew : s.objects new = none) (type : Option AuthProviderType) :
    (s.service.bind (Function.update s.objects new type)) = s.serviceType := by
  rw [Providers.serviceType]
  cases hp : s.service with
  | none => rfl
  | some p =>
    have hne : p ≠ new := fun h => hservice p hp (h ▸ hnew)
    simp [hne]

/-- The new provider is made. -/
def Providers.make (s : Providers) (new : Nat) : Providers :=
  { s with objects := Function.update s.objects new (some .kerberosAgent), reload := .made new }

/-- What the reload callback can do. -/
inductive ReloadStep (auth : AuthSettings) (new : Nat) (s : Providers) : Providers → Prop
  | keeps : ReloadStep auth new s s
  | makes (hr : s.reload = .idle) (hwants : WantsKerberos auth) (htype : s.serviceType ≠ some .kerberosAgent)
      (hnew : s.objects new = none) : ReloadStep auth new s (s.make new)
  | assigns (p : Nat) (hr : s.reload = .made p) : ReloadStep auth new s { s.assign p with reload := .assigned p }
  | tells (p : Nat) (hr : s.reload = .assigned p) : ReloadStep auth new s { s with relay := some p, reload := .idle }

theorem reloadStep_cases (auth : AuthSettings) (new : Nat) (s : Providers) :
    ReloadStep auth new s (s.reloadStep auth new) := by
  rw [Providers.reloadStep]
  split
  · rename_i hr
    split
    · rename_i hif
      obtain ⟨hwants, htype⟩ := replaces_iff.mp hif.1
      exact .makes hr hwants htype hif.2
    · exact .keeps
  · exact .assigns _ ‹_›
  · exact .tells _ ‹_›

theorem OwnsProviders.make (h : OwnsProviders s) {new : Nat} (hnew : s.objects new = none)
    (htype : s.serviceType ≠ some .kerberosAgent) : OwnsProviders (s.make new) where
  service p hp := by
    have hne : p ≠ new := fun he => h.service p hp (he ▸ hnew)
    show Function.update s.objects new _ p ≠ none
    rw [Function.update_of_ne hne]
    exact h.service p hp
  made p hp := by
    cases hp
    exact ⟨Function.update_self .., fun hs => h.service new hs hnew⟩
  replacing _ _ := fun ht => htype ((serviceType_update h.service hnew _).symm.trans ht)
  deleted := h.deleted.imp id fun hd => absurd hd.2 htype
  assigned p hp := by cases hp

theorem OwnsProviders.assign (h : OwnsProviders s) {p : Nat} (hr : s.reload = .made p) :
    OwnsProviders { s.assign p with reload := .assigned p } := by
  obtain ⟨hp, hne⟩ := h.made p hr
  have hzero : s.deleted = 0 := h.deleted.resolve_right fun hd => h.replacing p hr hd.2
  have hservice : (s.assign p).service = some p := by rw [Providers.assign]; split <;> rfl
  have hobject : (s.assign p).objects p = some .kerberosAgent := by
    rw [Providers.assign]
    split
    · exact hp
    · rename_i old hs
      exact (Function.update_of_ne (fun he : p = old => hne (he ▸ hs)) ..).trans hp
  have htype : (s.assign p).serviceType = some .kerberosAgent := by
    rw [Providers.serviceType, hservice, Option.bind_some, hobject]
  have hdeleted : (s.assign p).deleted = 0 ∨ (s.assign p).deleted = 1 := by
    rw [Providers.assign]
    split
    · exact .inl hzero
    · exact .inr (congrArg (· + 1) hzero)
  constructor
  case service =>
    intro q hq
    obtain rfl := Option.some.inj (hservice.symm.trans hq)
    exact fun hn => by cases hobject.symm.trans hn
  case made => exact fun q hq => by cases hq
  case replacing => exact fun q hq => by cases hq
  case deleted => exact hdeleted.imp id fun hd => ⟨hd, htype⟩
  case assigned =>
    intro q hq
    cases hq
    exact ⟨hservice, htype⟩

theorem OwnsProviders.reloadStep (h : OwnsProviders s) (auth : AuthSettings) (new : Nat) :
    OwnsProviders (s.reloadStep auth new) := by
  have hcases := reloadStep_cases auth new s
  generalize s.reloadStep auth new = s' at hcases
  cases hcases with
  | keeps => exact h
  | makes hr hwants htype hnew => exact h.make hnew htype
  | assigns p hr => exact h.assign hr
  | tells p hr =>
    exact ⟨h.service, fun q hq => (by cases hq), fun q hq => (by cases hq), h.deleted, fun q hq => by cases hq⟩

theorem OwnsProviders.step (i : ProvidersInput) (s : Providers) (h : OwnsProviders s) :
    OwnsProviders (providersStep i s).1 := by
  cases i with
  | reload auth new => exact h.reloadStep auth new
  | handler t call succeeded =>
    obtain ⟨ho, hs, -, hr, hd⟩ := handlerStep_owned s t call succeeded
    simp only [providersStep]
    have htype : (s.handlerStep t call succeeded).serviceType = s.serviceType := by
      rw [Providers.serviceType, Providers.serviceType, ho, hs]
    exact ⟨fun p hp => ho ▸ h.service p (hs ▸ hp), fun p hp => by rw [ho, hs]; exact h.made p (hr ▸ hp),
      fun p hp => htype ▸ h.replacing p (hr ▸ hp), by rw [hd, htype]; exact h.deleted,
      fun p hp => by rw [hs, htype]; exact h.assigned p (hr ▸ hp)⟩

/-- At most one provider is deleted in any run. -/
theorem ownsProviders_run (provider : Option AuthProviderType) (is : List ProvidersInput) :
    OwnsProviders (run providersStep is (.started provider)) :=
  run_induct OwnsProviders.step is (ownsProviders_started provider)

/-- Three steps of the reload callback, with no handler between them, do what
`applyConfig` does. -/
theorem reload_refines (x : Platform) (svc : TcpRedirectorService) (hreload : s.reload = .idle)
    (hservice : s.serviceType = svc.authProvider.map (·.type)) (hrelay : s.relay = s.service)
    (hpointer : svc.relay.authProvider = svc.authProvider.map (·.type)) (howned : OwnsProviders s) {new : Nat}
    (hnew : s.objects new = none) :
    let s' := run providersStep (List.replicate 3 (.reload svc.manager.config.auth new)) s
    let svc' := applyConfig x svc
    s'.serviceType = svc'.authProvider.map (·.type) ∧ s'.relay.bind s'.objects = svc'.relay.authProvider := by
  intro s' svc'
  by_cases hrep : s.replaces svc.manager.config.auth = true
  · obtain ⟨⟨henabled, hmode⟩, htype⟩ := replaces_iff.mp hrep
    have hne : svc.authProvider.map (·.type) ≠ some .kerberosAgent := hservice ▸ htype
    have hmade : s.reloadStep svc.manager.config.auth new = s.make new := by
      rw [Providers.reloadStep, hreload]
      exact if_pos ⟨hrep, hnew⟩
    have hobject : ((s.make new).assign new).objects new = some .kerberosAgent := by
      rw [Providers.assign]
      split
      · exact Function.update_self ..
      · rename_i old hs
        have hold : new ≠ old := fun he => howned.service old hs (he ▸ hnew)
        exact (Function.update_of_ne hold ..).trans (Function.update_self ..)
    have hassigned : ((s.make new).assign new).service = some new := by rw [Providers.assign]; split <;> rfl
    have hs' : s' = { (s.make new).assign new with reload := .idle, relay := some new } := by
      simp only [s', List.replicate, run, providersStep, hmade]
      rfl
    have hsvc : svc'.authProvider = some .kerberosAgent ∧ svc'.relay.authProvider = some .kerberosAgent := by
      simp only [svc', applyConfig, henabled, hmode, if_true]
      exact ⟨by rw [if_pos hne], by rw [if_pos hne]⟩
    have htype : ((s.make new).assign new).serviceType = some .kerberosAgent := by
      rw [Providers.serviceType, hassigned, Option.bind_some, hobject]
    rw [hsvc.1, hsvc.2, hs']
    exact ⟨htype, hobject⟩
  · have hkeeps : s.reloadStep svc.manager.config.auth new = s := by
      rw [Providers.reloadStep, hreload]
      exact if_neg fun h => hrep h.1
    have hs' : s' = s := by simp only [s', List.replicate, run, providersStep, hkeeps]
    have hsvc : svc'.authProvider = svc.authProvider ∧ svc'.relay.authProvider = svc.relay.authProvider := by
      have hnot : ¬ (WantsKerberos svc.manager.config.auth ∧ svc.authProvider.map (·.type) ≠ some .kerberosAgent) :=
        fun h => hrep (replaces_iff.mpr (hservice ▸ h))
      simp only [svc', applyConfig]
      split
      · rename_i henabled
        split
        · rename_i hmode
          rw [if_neg fun hne => hnot ⟨⟨henabled, hmode⟩, hne⟩]
          exact ⟨rfl, rfl⟩
        · exact ⟨rfl, rfl⟩
      · exact ⟨rfl, rfl⟩
    rw [hsvc.1, hsvc.2, hs', hrelay, hpointer]
    exact ⟨hservice, hservice⟩

/-! ## What is used -/

def HandlerUse.Holds (h : HandlerUse) (p : Nat) : Prop :=
  (∃ call, h.use = .loaded p call ∨ h.use = .inside p call) ∨ h.context = some p

/-- What holds as long as no provider is replaced. -/
structure SafeProviders (provider : Option AuthProviderType) (s : Providers) : Prop where
  owns : OwnsProviders s
  noFault : s.fault = false
  directed : s.misdirected = false
  relay : ∀ p, s.relay = some p → s.service = some p
  handlers : ∀ t p, (s.handlers t).Holds p → s.relay = some p
  made : ∀ p, s.reload = .made p → s.service = none
  assigned : ∀ p, s.reload = .assigned p → s.relay = none
  basic : s.serviceType = some .basic → provider = some .basic
  kept : s.deleted = 0

variable {provider : Option AuthProviderType}

theorem safeProviders_started (provider : Option AuthProviderType) : SafeProviders provider (.started provider) where
  owns := ownsProviders_started provider
  noFault := rfl
  directed := rfl
  relay _ hp := hp
  handlers t p hp := by
    rcases hp with ⟨call, hp | hp⟩ | hp <;> cases hp
  made p hp := by cases hp
  assigned p hp := by cases hp
  basic ht := by
    cases provider with
    | none => cases ht
    | some type => exact ht
  kept := rfl

/-- No handler holds a provider as long as the relay has none. -/
theorem SafeProviders.idle (h : SafeProviders provider s) (hr : s.relay = none) (t p : Nat) : ¬ (s.handlers t).Holds p :=
  fun hp => by cases hr.symm.trans (h.handlers t p hp)

theorem SafeProviders.reloadStep (h : SafeProviders provider s) {auth : AuthSettings}
    (hauth : provider = some .basic → ¬ WantsKerberos auth) (new : Nat) :
    SafeProviders provider (s.reloadStep auth new) := by
  have howns := h.owns.reloadStep auth new
  have hcases := reloadStep_cases auth new s
  generalize s.reloadStep auth new = s' at hcases howns
  cases hcases with
  | keeps => exact h
  | makes hr hwants htype hnew =>
    have htype' : (s.make new).serviceType = s.serviceType := serviceType_update h.owns.service hnew _
    refine ⟨howns, h.noFault, h.directed, h.relay, h.handlers, fun p hp => ?_, fun p hp => (by cases hp),
      fun hb => h.basic (htype' ▸ hb), h.kept⟩
    -- What is there and not for Kerberos is Basic, which this reload does not replace.
    cases hs : s.service with
    | none => exact hs
    | some q =>
      have hbasic : s.serviceType = some .basic := by
        rw [Providers.serviceType, hs] at htype ⊢
        cases hq : s.objects q with
        | none => exact absurd hq (h.owns.service q hs)
        | some type => cases type <;> simp_all
      exact absurd hwants (hauth (h.basic hbasic))
  | assigns p hr =>
    have hnone := h.made p hr
    have hrelay : s.relay = none := by
      cases hs : s.relay with
      | none => rfl
      | some q => cases hnone.symm.trans (h.relay q hs)
    rw [Providers.assign, hnone] at howns ⊢
    refine ⟨howns, h.noFault, h.directed, fun q hq => ?_, h.handlers, fun q hq => (by cases hq), fun _ _ => hrelay,
      fun hb => ?_, h.kept⟩
    · cases hrelay.symm.trans hq
    · cases (howns.assigned p rfl).2.symm.trans hb
  | tells p hr =>
    obtain ⟨hservice, htype⟩ := h.owns.assigned p hr
    refine ⟨howns, h.noFault, h.directed, fun q hq => ?_, fun t q hq => ?_, fun q hq => (by cases hq),
      fun q hq => (by cases hq), h.basic, h.kept⟩
    · cases hq
      exact hservice
    · exact absurd hq (h.idle (h.assigned p hr) t q)

/-- What a handler can do. -/
inductive HandlerStep (t : Nat) (s : Providers) : Providers → Prop
  | keeps : HandlerStep t s s
  | loads (p : Nat) (call : AuthCall) (hr : s.relay = some p) :
      HandlerStep t s { s with handlers := Function.update s.handlers t ⟨.loaded p call, (s.handlers t).context⟩ }
  | enters (p : Nat) (call : AuthCall) (hp : (s.handlers t).use = .loaded p call) :
      HandlerStep t s
        { s.touch p with
          handlers := Function.update s.handlers t ⟨.inside p call, (s.handlers t).context⟩
          misdirected := s.misdirected || (call ≠ .getType ∧ (s.handlers t).context.any (· ≠ p)) }
  | leaves (p : Nat) (call : AuthCall) (succeeded : Bool) (hp : (s.handlers t).use = .inside p call) :
      HandlerStep t s
        { s.touch p with
          handlers := Function.update s.handlers t
            ⟨.outside, Providers.contextAfter p succeeded (s.handlers t).context call⟩ }

theorem handlerStep_cases (t : Nat) (call : AuthCall) (succeeded : Bool) (s : Providers) :
    HandlerStep t s (s.handlerStep t call succeeded) := by
  simp only [Providers.handlerStep]
  split
  · split
    · exact .keeps
    · rename_i p hr
      split
      · exact .loads p call hr
      · exact .keeps
  · exact .enters _ _ ‹_›
  · exact .leaves _ _ _ ‹_›

/-- What the handler holds afterwards it has loaded or held before. -/
theorem holds_contextAfter {p q : Nat} {call : AuthCall} {succeeded : Bool} {context : Option Nat}
    (h : HandlerUse.Holds ⟨.outside, Providers.contextAfter p succeeded context call⟩ q) : q = p ∨ context = some q := by
  rcases h with ⟨_, h | h⟩ | h
  · cases h
  · cases h
  · cases call with
    | createContext =>
      cases succeeded with
      | true => exact .inl (Option.some.inj h).symm
      | false => cases h
    | closeContext => cases h
    | getType | continueContext => exact .inr h

theorem SafeProviders.handlerStep (h : SafeProviders provider s) (t : Nat) (call : AuthCall) (succeeded : Bool) :
    SafeProviders provider (s.handlerStep t call succeeded) := by
  have howns := OwnsProviders.step (.handler t call succeeded) s h.owns
  have hcases := handlerStep_cases t call succeeded s
  simp only [providersStep] at howns
  generalize s.handlerStep t call succeeded = s' at hcases howns
  -- A provider that a handler holds is the relay's, so it is there.
  have hlive (p : Nat) (hp : s.relay = some p) : (s.fault || (s.objects p).isNone) = false := by
    have hne := h.owns.service p (h.relay p hp)
    rw [h.noFault, Bool.false_or, Option.isNone_eq_false_iff]
    exact Option.isSome_iff_ne_none.mpr hne
  have hheld (u : HandlerUse) (hu : ∀ q, u.Holds q → s.relay = some q) (t' q : Nat)
      (hq : (Function.update s.handlers t u t').Holds q) : s.relay = some q := by
    by_cases ht : t' = t
    · subst ht
      rw [Function.update_self] at hq
      exact hu q hq
    · rw [Function.update_of_ne ht] at hq
      exact h.handlers t' q hq
  have hcontext (q : Nat) (hq : (s.handlers t).context = some q) : s.relay = some q := h.handlers t q (.inr hq)
  cases hcases with
  | keeps => exact h
  | loads p call hr =>
    refine ⟨howns, h.noFault, h.directed, h.relay, hheld _ fun q hq => ?_, h.made, h.assigned, h.basic, h.kept⟩
    rcases hq with ⟨_, hq | hq⟩ | hq
    · cases hq
      exact hr
    · cases hq
    · exact hcontext q hq
  | enters p call hp =>
    have hr : s.relay = some p := h.handlers t p (.inl ⟨call, .inl hp⟩)
    refine ⟨howns, hlive p hr, ?_, h.relay, hheld _ fun q hq => ?_, h.made, h.assigned, h.basic, h.kept⟩
    · have hsame : ¬ (s.handlers t).context.any (· ≠ p) = true := by
        intro hany
        obtain ⟨q, hc, hne⟩ := (Option.any_eq_true ..).mp hany
        exact of_decide_eq_true hne (Option.some.inj ((hcontext q hc).symm.trans hr))
      show (s.misdirected || _) = false
      rw [h.directed, Bool.false_or, decide_eq_false_iff_not]
      exact fun hm => hsame hm.2
    · rcases hq with ⟨_, hq | hq⟩ | hq
      · cases hq
      · cases hq
        exact hr
      · exact hcontext q hq
  | leaves p call succeeded hp =>
    have hr : s.relay = some p := h.handlers t p (.inl ⟨call, .inr hp⟩)
    refine ⟨howns, hlive p hr, h.directed, h.relay, hheld _ fun q hq => ?_, h.made, h.assigned, h.basic, h.kept⟩
    rcases holds_contextAfter hq with rfl | hq
    · exact hr
    · exact hcontext q hq

/-- The input is a step of a handler, or of a reload that finds one of these
configurations. -/
def ProvidersInput.Finds (configs : Set AuthSettings) : ProvidersInput → Prop
  | .reload auth _ => auth ∈ configs
  | .handler _ _ _ => True

theorem SafeProviders.run {configs : Set AuthSettings} (hconfigs : provider = some .basic → ∀ auth ∈ configs, ¬ WantsKerberos auth)
    (is : List ProvidersInput) (his : ∀ i ∈ is, i.Finds configs) (h : SafeProviders provider s) :
    SafeProviders provider (run providersStep is s) := by
  induction is generalizing s with
  | nil => exact h
  | cons i is ih =>
    obtain ⟨hi, his⟩ := List.forall_mem_cons.mp his
    refine ih his ?_
    cases i with
    | reload auth new => exact h.reloadStep (fun hb => hconfigs hb auth hi) new
    | handler t call succeeded => exact h.handlerStep t call succeeded

/-- In any run at most one provider is deleted, and none unless the service
was started with Basic. -/
theorem providers_deleted (provider : Option AuthProviderType) (is : List ProvidersInput) :
    (run providersStep is (.started provider)).deleted ≤ 1 ∧
      (provider ≠ some .basic → (run providersStep is (.started provider)).deleted = 0) := by
  constructor
  · rcases (ownsProviders_run provider is).deleted with h | ⟨h, -⟩ <;> omega
  · intro hp
    have hall : ∀ i ∈ is, i.Finds Set.univ := fun i _ => by cases i <;> trivial
    exact ((safeProviders_started provider).run (fun hb => absurd hb hp) is hall).kept

/-! ## A service that was started with Basic -/

/-- A handler has loaded the pointer, and the reload replaces the provider. -/
def replacedUnderway (auth : AuthSettings) : List ProvidersInput :=
  [.handler 0 .createContext true, .reload auth 1, .reload auth 1, .handler 0 .createContext true]

theorem replacedUnderway_fault {auth : AuthSettings} (h : WantsKerberos auth) :
    (run providersStep (replacedUnderway auth) (.started (some .basic))).fault = true := by
  have hrep (s : Providers) (hs : s.serviceType = some .basic) : s.replaces auth = true :=
    replaces_iff.mpr ⟨h, by rw [hs]; simp⟩
  simp [replacedUnderway, run, providersStep, Providers.handlerStep, Providers.reloadStep, Providers.started,
    Providers.mayCall, Providers.assign, Providers.touch, hrep, Providers.serviceType]

end

/-- In every run from `Initialize` with this provider, whatever the reloads
find of these configurations and however many handlers there are, no deleted
provider is used and no context taken to another provider, exactly if a
service with Basic never finds Kerberos in the configuration. -/
theorem providers_safe_iff (provider : Option AuthProviderType) (configs : Set AuthSettings) :
    (∀ is : List ProvidersInput, (∀ i ∈ is, i.Finds configs) →
      (run providersStep is (.started provider)).fault = false ∧
        (run providersStep is (.started provider)).misdirected = false) ↔
      (provider = some .basic → ∀ auth ∈ configs, ¬ WantsKerberos auth) := by
  constructor
  · rintro hsafe rfl auth hauth hwants
    have hfault := (hsafe (replacedUnderway auth) (by simp [replacedUnderway, ProvidersInput.Finds, hauth])).1
    rw [replacedUnderway_fault hwants] at hfault
    cases hfault
  · intro hconfigs is his
    have h := (safeProviders_started provider).run hconfigs is his
    exact ⟨h.noFault, h.directed⟩

end TR.Impl.Service
