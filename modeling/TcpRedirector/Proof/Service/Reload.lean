import TcpRedirector.Impl.Relay.ConnectionHandler
import TcpRedirector.Impl.Service.IpcHandler
import TcpRedirector.Proof.Service.Assign
import TcpRedirector.Proof.Service.Load

/-!
# Reloading and restarting

A reload assigns the fields of the sections that the file has and keeps the
others from before; a restart gives those their defaults. The two services
behave alike exactly if for every section that is missing the running service
already had the defaults (`reload_eq_restart_iff`).
-/

namespace TR.Impl.Service

open ConfigManager

/-- What is used of `std::sort`. -/
structure Platform.Sorts (x : Platform) : Prop where
  sort_perm : ∀ l, (x.sort l).Perm l

/-- The file is a JSON object with this section. -/
def Platform.hasSection (x : Platform) (text : Bytes) (key : String) : Bool :=
  match x.read text with
  | .ok j => j.contains key
  | .error _ => false

/-- Both have the same rules and the same proxy, and authenticate in the same way. -/
structure SameBehaviour (s s' : TcpRedirectorService) : Prop where
  engine : s.engine = s'.engine
  captureHost : s.capture.proxyHost = s'.capture.proxyHost
  capturePort : s.capture.proxyPort = s'.capture.proxyPort
  relayHost : s.relay.proxyHost = s'.relay.proxyHost
  relayPort : s.relay.proxyPort = s'.relay.proxyPort
  authenticate : ∀ ctx, authenticate s.relay ctx = authenticate s'.relay ctx

/-! ## Loading an existing file -/

/-- A load that succeeds has read the file as JSON. -/
theorem loadImpl_true {x : Platform} {write : Write} {m m' : ConfigManager} {text : Bytes} {disk : Disk}
    (h : loadImpl x write m (some text) = ⟨some true, m', disk⟩) :
    ∃ j, x.read text = .ok j ∧ loadJson x j m = .ok () m' ∧ disk = some text := by
  rw [loadImpl] at h
  cases hread : x.read text with
  | error e => simp [hread] at h
  | ok j =>
    refine ⟨j, rfl, ?_⟩
    simp only [hread] at h
    generalize loadJson x j m = res at h
    cases res with
    | ok u m'' =>
      simp only [Loaded.mk.injEq, true_and] at h
      obtain ⟨rfl, rfl⟩ := h
      exact ⟨rfl, rfl⟩
    | error e m'' => cases e <;> simp at h

theorem loadImpl_of_loadJson {x : Platform} (write : Write) {m m' : ConfigManager} {text : Bytes} {j : Json}
    (hread : x.read text = .ok j) (h : loadJson x j m = .ok () m') :
    loadImpl x write m (some text) = ⟨some true, m', some text⟩ := by
  simp only [loadImpl, hread, h]

namespace ConfigManager

/-- A load that succeeds from one state succeeds from all. -/
theorem loadJson_succeeds {x : Platform} {j : Json} {m₁ m₁' : ConfigManager} (h : loadJson x j m₁ = .ok () m₁')
    (m : ConfigManager) : ∃ m', loadJson x j m = .ok () m' := by
  obtain ⟨r, o, hacts, -⟩ := touches_rules x j
  have hr : r = .ok () := by rw [← hacts.outcome m₁, h]; rfl
  have hm := hacts.outcome m
  rw [hr] at hm
  generalize loadJson x j m = res at hm
  cases res with
  | ok u m' => exact ⟨m', rfl⟩
  | error e m' => cases hm

/-- What two successful loads of one file do to a field. -/
theorem Touches.eq_or {β : Type} {x : Platform} {j : Json} {f : ConfigManager → β} {b : Bool}
    (h : Touches f (loadJson x j) b)
    {m₁ m₁' m₂ m₂' : ConfigManager} (h₁ : loadJson x j m₁ = .ok () m₁') (h₂ : loadJson x j m₂ = .ok () m₂') :
    b = true ∧ f m₁' = f m₂' ∨ b = false ∧ f m₁' = f m₁ ∧ f m₂' = f m₂ := by
  obtain ⟨r, o, hacts, ho⟩ := h
  have hr : r = .ok () := by rw [← hacts.outcome m₁, h₁]; rfl
  have hf₁ := hacts.final m₁
  have hf₂ := hacts.final m₂
  rw [h₁] at hf₁
  rw [h₂] at hf₂
  rw [← ho () hr]
  cases o with
  | some v => exact .inl ⟨rfl, hf₁.trans hf₂.symm⟩
  | none => exact .inr ⟨rfl, hf₁, hf₂⟩

/-- No file sets the mode of authentication. -/
theorem authMode_of_loadJson {x : Platform} {j : Json} {m m' : ConfigManager} (h : loadJson x j m = .ok () m') :
    m'.config.auth.authMode = m.config.auth.authMode := by
  rcases (keeps_authMode x j).eq_or h h with ⟨hb, -⟩ | ⟨-, hmode, -⟩
  · cases hb
  · exact hmode

end ConfigManager

/-! ## What the configuration is passed on to -/

section

variable (x : Platform)

/-- The host that capture and relay are given. -/
def passedHost (m : ConfigManager) : Bytes := wideToUtf8 (widen x m.config.proxy.host)

theorem initialProxyConfig_eq (m : ConfigManager) : initialProxyConfig x m = getProxyConfig x m := by
  rw [initialProxyConfig]
  split <;> rfl

/-- What the reload callback and `Initialize` both make of a configuration. -/
structure Reflects (m : ConfigManager) (s : TcpRedirectorService) : Prop where
  engine : s.engine = x.sort m.rules
  captureHost : s.capture.proxyHost = passedHost x m
  capturePort : s.capture.proxyPort = m.config.proxy.port
  relayHost : s.relay.proxyHost = passedHost x m
  relayPort : s.relay.proxyPort = m.config.proxy.port
  authRequired : s.relay.proxyAuthRequired = m.config.auth.enabled
  authProvider : m.config.auth.enabled = true → s.relay.authProvider = some .kerberosAgent
  sameProvider : s.relay.authProvider = s.authProvider.map (·.type)

variable {x} {m : ConfigManager}

theorem reflects_assemble (hmode : m.config.auth.authMode = .kerberosPreferred) : Reflects x m (assemble x m) := by
  have hproviders : makeProviders x m = (if m.config.auth.enabled then some .kerberosAgent else none, none) := by
    simp only [makeProviders, hmode]
    cases m.config.auth.enabled <;> rfl
  constructor <;> simp only [assemble, initialProxyConfig_eq, hproviders] <;> try rfl
  · intro h
    rw [h]
    rfl

theorem reflects_applyConfig {s : TcpRedirectorService} (hmode : m.config.auth.authMode = .kerberosPreferred)
    (hprovider : s.relay.authProvider = s.authProvider.map (·.type)) (hm : s.manager = m) :
    Reflects x m (applyConfig x s) := by
  subst hm
  rw [applyConfig]
  split
  next henabled =>
    rw [if_pos (.inr hmode)]
    split
    next => exact ⟨rfl, rfl, rfl, rfl, rfl, rfl, fun _ => rfl, rfl⟩
    next htype => exact ⟨rfl, rfl, rfl, rfl, rfl, rfl, fun _ => hprovider.trans (not_not.mp htype), hprovider⟩
  next henabled => exact ⟨rfl, rfl, rfl, rfl, rfl, rfl, fun h => absurd h henabled, hprovider⟩

end

/-- The header of a CONNECT depends on the host, on whether authentication is
required and, if it is, on the provider. -/
theorem authenticate_congr {r r' : Relay} (hhost : r.proxyHost = r'.proxyHost)
    (hrequired : r.proxyAuthRequired = r'.proxyAuthRequired)
    (hprovider : r.proxyAuthRequired = true → r.authProvider = r'.authProvider) (ctx : AuthContext) :
    authenticate r ctx = authenticate r' ctx := by
  cases hr : r.proxyAuthRequired with
  | false =>
    have hr' : r'.proxyAuthRequired = false := hrequired ▸ hr
    simp [authenticate, authConfigured, hr, hr']
  | true =>
    have hr' : r'.proxyAuthRequired = true := hrequired ▸ hr
    have hconfigured : authConfigured r = authConfigured r' := by rw [authConfigured, authConfigured, hprovider hr, hr, hr']
    have hspn : spn r = spn r' := by rw [spn, spn, hhost]
    have hheader : proxyAuthorization r = proxyAuthorization r' := by
      funext token
      rw [proxyAuthorization, proxyAuthorization, hprovider hr]
    rw [authenticate.eq_def, authenticate.eq_def, hconfigured, hspn, hheader]

/-- A relay that authenticates first asks its provider. -/
theorem authenticate_ne {r r' : Relay} (hr : r.proxyAuthRequired = true) (hprovider : r.authProvider = some .kerberosAgent)
    (hr' : r'.proxyAuthRequired = false) : authenticate r none ≠ authenticate r' none := by
  have hcall : authenticate r none = RelayProg.createContext (spn r) >>= fun ctxResult =>
      if ctxResult.success then pure (proxyAuthorization r ctxResult.token, some ctxResult.contextId)
      else pure ([], none) := by
    simp [authenticate, authConfigured, hr, hprovider]
  have hret : authenticate r' none = pure ([], none) := by simp [authenticate, authConfigured, hr']
  rw [hcall, hret]
  intro h
  cases h

/-- Two services that reflect their configurations behave alike exactly if
these agree in what is passed on. -/
theorem sameBehaviour_iff {x : Platform} {m m' : ConfigManager} {s s' : TcpRedirectorService} (h : Reflects x m s)
    (h' : Reflects x m' s') :
    SameBehaviour s s' ↔ x.sort m.rules = x.sort m'.rules ∧
      (passedHost x m = passedHost x m' ∧ m.config.proxy.port = m'.config.proxy.port) ∧
      m.config.auth.enabled = m'.config.auth.enabled := by
  constructor
  · intro hs
    refine ⟨?_, ⟨?_, ?_⟩, ?_⟩
    · rw [← h.engine, ← h'.engine, hs.engine]
    · rw [← h.relayHost, ← h'.relayHost, hs.relayHost]
    · rw [← h.relayPort, ← h'.relayPort, hs.relayPort]
    · have hr := h.authRequired
      have hr' := h'.authRequired
      cases hm : m.config.auth.enabled with
      | false =>
        cases hm' : m'.config.auth.enabled with
        | false => rfl
        | true => exact absurd (hs.authenticate none).symm (authenticate_ne (hr'.trans hm') (h'.authProvider hm')
          (hr.trans hm))
      | true =>
        cases hm' : m'.config.auth.enabled with
        | false => exact absurd (hs.authenticate none) (authenticate_ne (hr.trans hm) (h.authProvider hm) (hr'.trans hm'))
        | true => rfl
  · rintro ⟨hengine, ⟨hhost, hport⟩, henabled⟩
    have hrequired : s.relay.proxyAuthRequired = s'.relay.proxyAuthRequired := by
      rw [h.authRequired, h'.authRequired, henabled]
    have hrelayHost : s.relay.proxyHost = s'.relay.proxyHost := by rw [h.relayHost, h'.relayHost, hhost]
    refine ⟨?_, ?_, ?_, hrelayHost, ?_, authenticate_congr hrelayHost hrequired fun hr => ?_⟩
    · rw [h.engine, h'.engine, hengine]
    · rw [h.captureHost, h'.captureHost, hhost]
    · rw [h.capturePort, h'.capturePort, hport]
    · rw [h.relayPort, h'.relayPort, hport]
    · have hm := h.authRequired ▸ hr
      rw [h.authProvider hm, h'.authProvider (henabled ▸ hm)]

section

variable {x : Platform} {j : Json} {m m' fresh : ConfigManager}

theorem rules_agree_iff (hx : x.Sorts) (h : loadJson x j m = .ok () m') (hfresh : loadJson x j {} = .ok () fresh) :
    x.sort m'.rules = x.sort fresh.rules ↔ j.contains "rules" = true ∨ x.sort m.rules = [] := by
  have hnil : x.sort [] = [] := (hx.sort_perm []).eq_nil
  rcases (touches_rules x j).eq_or h hfresh with ⟨hb, heq⟩ | ⟨hb, heq, heq'⟩
  · simp [hb, heq]
  · have hnone : fresh.rules = [] := heq'
    simp [hb, heq, hnone, hnil]

theorem proxy_agree_iff (h : loadJson x j m = .ok () m') (hfresh : loadJson x j {} = .ok () fresh) :
    passedHost x m' = passedHost x fresh ∧ m'.config.proxy.port = fresh.config.proxy.port ↔
      j.contains "proxy" = true ∨ passedHost x m = ascii "127.0.0.1" ∧ m.config.proxy.port = 3128 := by
  have hdefault : wideToUtf8 (widen x (ascii "127.0.0.1")) = ascii "127.0.0.1" :=
    wideToUtf8_utf8ToWide (utf8_ascii (by decide))
  rcases (touches_host x j).eq_or h hfresh with ⟨hb, hhost⟩ | ⟨hb, hhost, hhost'⟩
  · rcases (touches_port x j).eq_or h hfresh with ⟨-, hport⟩ | ⟨hb', -⟩
    · have heq : passedHost x m' = passedHost x fresh := congrArg (fun host => wideToUtf8 (widen x host)) hhost
      simp [hb, heq, show m'.config.proxy.port = fresh.config.proxy.port from hport]
    · rw [hb] at hb'
      cases hb'
  · rcases (touches_port x j).eq_or h hfresh with ⟨hb', -⟩ | ⟨-, hport, hport'⟩
    · rw [hb] at hb'
      cases hb'
    · have heq : passedHost x m' = passedHost x m := congrArg (fun host => wideToUtf8 (widen x host)) hhost
      have heq' : passedHost x fresh = ascii "127.0.0.1" :=
        (congrArg (fun host => wideToUtf8 (widen x host)) hhost').trans hdefault
      have hp : m'.config.proxy.port = m.config.proxy.port := hport
      have hp' : fresh.config.proxy.port = 3128 := hport'
      simp [hb, heq, heq', hp, hp']

theorem auth_agree_iff (h : loadJson x j m = .ok () m') (hfresh : loadJson x j {} = .ok () fresh) :
    m'.config.auth.enabled = fresh.config.auth.enabled ↔ j.contains "auth" = true ∨ m.config.auth.enabled = false := by
  rcases (touches_authEnabled x j).eq_or h hfresh with ⟨hb, heq⟩ | ⟨hb, heq, heq'⟩
  · have he : m'.config.auth.enabled = fresh.config.auth.enabled := heq
    simp [hb, he]
  · have he : m'.config.auth.enabled = m.config.auth.enabled := heq
    have he' : fresh.config.auth.enabled = false := heq'
    simp [hb, he, he']

end

/-- A reload is answered with success, and then the service behaves as one
started on the new file exactly if for each section that the file lacks it had
what a fresh start gives: no rules, the proxy 127.0.0.1:3128 or no
authentication. -/
theorem reload_eq_restart_iff (x : Platform) (hx : x.Sorts) (f₁ f₂ : Bytes) (m₁ m₂ : ConfigManager) (write : Write)
    (h₁ : loadImpl x write {} (some f₁) = ⟨some true, m₁, some f₁⟩)
    (h₂ : loadImpl x write {} (some f₂) = ⟨some true, m₂, some f₂⟩) (env₁ env₂ env : Env) :
    ∃ s₁ s₂ a, start x env₁ (some f₁) = some (s₁, some f₁) ∧ start x env₂ (some f₂) = some (s₂, some f₂) ∧
      reloadConfig x env s₁ (some f₂) = some a ∧ a.response = success ∧
      (SameBehaviour a.service s₂ ↔
        (x.hasSection f₂ "rules" = true ∨ s₁.engine = []) ∧
        (x.hasSection f₂ "proxy" = true ∨ s₁.relay.proxyHost = ascii "127.0.0.1" ∧ s₁.relay.proxyPort = 3128) ∧
        (x.hasSection f₂ "auth" = true ∨ s₁.relay.proxyAuthRequired = false)) := by
  obtain ⟨j₁, hread₁, hload₁, -⟩ := loadImpl_true h₁
  obtain ⟨j₂, hread₂, hload₂, -⟩ := loadImpl_true h₂
  obtain ⟨m', hload'⟩ := loadJson_succeeds hload₂ m₁
  have hsection (k : String) : x.hasSection f₂ k = j₂.contains k := by rw [Platform.hasSection, hread₂]
  have hstart {f : Bytes} {j : Json} {m : ConfigManager} {env : Env} (hread : x.read f = .ok j)
      (h : loadJson x j {} = .ok () m) : start x env (some f) = some (assemble x m, some f) := by
    simp only [start, loadImpl_of_loadJson _ hread h]
  have hr₁ : Reflects x m₁ (assemble x m₁) := reflects_assemble (authMode_of_loadJson hload₁)
  have hr₂ : Reflects x m₂ (assemble x m₂) := reflects_assemble (authMode_of_loadJson hload₂)
  have hr' : Reflects x m' (applyConfig x { assemble x m₁ with manager := m' }) :=
    reflects_applyConfig ((authMode_of_loadJson hload').trans (authMode_of_loadJson hload₁)) hr₁.sameProvider rfl
  refine ⟨assemble x m₁, assemble x m₂, ⟨success, applyConfig x { assemble x m₁ with manager := m' }, some f₂⟩,
    hstart hread₁ hload₁, hstart hread₂ hload₂, ?_, rfl, ?_⟩
  · have hload := loadImpl_of_loadJson env.first hread₂ hload'
    simp only [reloadConfig]
    rw [show (assemble x m₁).manager = m₁ from rfl, hload]
  · rw [sameBehaviour_iff hr' hr₂, hr₁.engine, hr₁.relayHost, hr₁.relayPort, hr₁.authRequired, hsection, hsection, hsection]
    refine and_congr ?_ (and_congr ?_ ?_)
    · exact rules_agree_iff hx hload' hload₂
    · exact proxy_agree_iff hload' hload₂
    · exact auth_agree_iff hload' hload₂

namespace Demo

/-- `{"auth": {"enabled": true}, "proxy": {}, "rules": []}`. -/
def fullFile : Json :=
  .object [(ascii "auth", .object [(ascii "enabled", .boolean true)]), (ascii "proxy", .object []),
    (ascii "rules", .array [])]

/-- `{"auth": {"enabled": true}}`. -/
def authFile : Json := .object [(ascii "auth", .object [(ascii "enabled", .boolean true)])]

/-- The configuration of both. -/
def authEnabled : ConfigManager where
  config := { auth.enabled := true }

/-- `{}`. -/
def emptyFile : Json := .object []

theorem platform_sorts (files requests : List Json) : (platform files requests).Sorts where
  sort_perm l := List.mergeSort_perm l _

theorem read_fullFile : (platform [fullFile] []).read (fullFile.indented 0) = .ok fullFile.reread := by simp [platform]

theorem read_authFile : (platform [authFile, emptyFile] []).read (authFile.indented 0) = .ok authFile.reread := by
  simp [platform]

theorem read_emptyFile : (platform [authFile, emptyFile] []).read (emptyFile.indented 0) = .ok emptyFile.reread := by
  have hne : authFile.indented 0 ≠ emptyFile.indented 0 := by decide
  simp [platform, hne]

end Demo

/-- With all three sections in the file, a reload is a restart. -/
theorem reload_fullFile :
    let x := Demo.platform [Demo.fullFile] []
    let f := Demo.fullFile.indented 0
    ∃ s₁ s₂ a, start x {} (some f) = some (s₁, some f) ∧ start x {} (some f) = some (s₂, some f) ∧
      reloadConfig x {} s₁ (some f) = some a ∧ SameBehaviour a.service s₂ := by
  intro x f
  have hload : loadImpl x .complete {} (some f) = ⟨some true, Demo.authEnabled, some f⟩ :=
    loadImpl_of_loadJson _ Demo.read_fullFile rfl
  have hsection (k : String) : x.hasSection f k = Demo.fullFile.reread.contains k := by
    rw [Platform.hasSection, Demo.read_fullFile]
  obtain ⟨s₁, s₂, a, hs₁, hs₂, ha, -, hsame⟩ := reload_eq_restart_iff x (Demo.platform_sorts _ _) f f Demo.authEnabled
    Demo.authEnabled .complete hload hload {} {} {}
  refine ⟨s₁, s₂, a, hs₁, hs₂, ha, hsame.mpr ⟨.inl ?_, .inl ?_, .inl ?_⟩⟩ <;> rw [hsection] <;> rfl

/-- A file without the auth section leaves authentication on after a reload,
but not after a restart. -/
theorem reload_keeps_authentication :
    let x := Demo.platform [Demo.authFile, Demo.emptyFile] []
    let f₁ := Demo.authFile.indented 0
    let f₂ := Demo.emptyFile.indented 0
    ∃ s₁ s₂ a, (loadImpl x .complete {} (some f₁)).result = some true ∧
      (loadImpl x .complete {} (some f₂)).result = some true ∧
      start x {} (some f₁) = some (s₁, some f₁) ∧ start x {} (some f₂) = some (s₂, some f₂) ∧
      reloadConfig x {} s₁ (some f₂) = some a ∧ a.response = success ∧
      authenticate a.service.relay none ≠ authenticate s₂.relay none ∧ ¬ SameBehaviour a.service s₂ := by
  intro x f₁ f₂
  have hload₁ : loadImpl x .complete {} (some f₁) = ⟨some true, Demo.authEnabled, some f₁⟩ :=
    loadImpl_of_loadJson _ Demo.read_authFile rfl
  have hload₂ (m : ConfigManager) : loadImpl x .complete m (some f₂) = ⟨some true, m, some f₂⟩ :=
    loadImpl_of_loadJson _ Demo.read_emptyFile rfl
  have hreload : reloadConfig x {} (assemble x Demo.authEnabled) (some f₂) =
      some ⟨success, applyConfig x (assemble x Demo.authEnabled), some f₂⟩ := by
    simp only [reloadConfig, hload₂]
  have hr : Reflects x Demo.authEnabled (applyConfig x (assemble x Demo.authEnabled)) :=
    reflects_applyConfig rfl (reflects_assemble rfl).sameProvider rfl
  have hr₂ : Reflects x {} (assemble x {}) := reflects_assemble rfl
  have hne := authenticate_ne (hr.authRequired.trans rfl) (hr.authProvider rfl) (hr₂.authRequired.trans rfl)
  refine ⟨assemble x Demo.authEnabled, assemble x {}, _, by rw [hload₁], by rw [hload₂], ?_, ?_, hreload, rfl, hne,
    fun h => hne (h.authenticate none)⟩
  · simp only [start, hload₁]
  · simp only [start, hload₂]

end TR.Impl.Service
