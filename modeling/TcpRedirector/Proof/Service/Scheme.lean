import TcpRedirector.Impl.Service.Authentication
import TcpRedirector.Proof.Relay.FirstConnect
import TcpRedirector.Proof.Service.Fields
import TcpRedirector.Proof.Service.Reload

/-!
# How the relay authenticates

`Initialize` chooses the provider by `authMode`, which no file sets, so the
relay always has the Kerberos agent if authentication is enabled
(`reflects_assemble`). Its first CONNECT on a connection to the proxy has the
agent's token then, and no header otherwise (`handler_follows`): what the file
says of `kerberos` makes no difference (`scheme_follows_iff`).
-/

namespace TR.Impl.Service

open ConfigManager

/-! ## What the file says -/

/-- The settings of the `auth` section of a file. -/
def fileAuth (j : Json) : AuthSettings :=
  match j.entry "auth" with
  | none => {}
  | some a => {
      enabled := (a.value Json.getBool "enabled" false).toOption.getD false
      username := (a.value Json.getString "username" []).toOption.getD []
      encryptedPassword := (a.value Json.getString "encryptedPassword" []).toOption.getD []
      kerberos := (a.value Json.getBool "kerberos" false).toOption.getD false }

section

variable {x : Platform} {write : Write} {text : Bytes} {j : Json} {m : ConfigManager} {disk : Disk}

theorem authMode_of_load (h : loadImpl x write {} (some text) = ⟨some true, m, disk⟩) :
    m.config.auth.authMode = .kerberosPreferred := by
  obtain ⟨j, -, hload, -⟩ := loadImpl_true h
  exact authMode_of_loadJson hload

/-- The fields that come from the section. -/
def ofAuth : List Field := [.authEnabled, .username, .encryptedPassword, .kerberos]

theorem notMem_of_no_auth (h : j.entry "auth" = none) {f : Field} (hf : f ∈ ofAuth) : f ∉ (loadSteps x j).map (·.1) := by
  have hcontains : j.contains "auth" = false := by rw [Json.contains_eq_isSome, h]; rfl
  have hkey : f.sectionKey = "auth" := by revert f; decide
  rw [mem_loadSteps_iff, hkey, hcontains]
  exact Bool.false_ne_true

theorem authSettings_eq {a b : AuthSettings} (henabled : a.enabled = b.enabled) (husername : a.username = b.username)
    (hpassword : a.encryptedPassword = b.encryptedPassword) (hkerberos : a.kerberos = b.kerberos)
    (hmode : a.authMode = b.authMode) : a = b := by
  cases a
  cases b
  subst henabled husername hpassword hkerberos hmode
  rfl

/-- What a load makes of the section. -/
theorem auth_of_load (hread : x.read text = .ok j) (h : loadImpl x write {} (some text) = ⟨some true, m, disk⟩) :
    m.config.auth = fileAuth j := by
  have hmode : m.config.auth.authMode = .kerberosPreferred := authMode_of_load h
  cases hauth : j.entry "auth" with
  | none =>
    have hkeeps {f : Field} (hf : f ∈ ofAuth) : f.get m = f.get {} := get_of_notMem hread h (notMem_of_no_auth hauth hf)
    simp only [fileAuth, hauth]
    exact authSettings_eq (hkeeps (f := .authEnabled) (by decide)) (hkeeps (f := .username) (by decide))
      (hkeeps (f := .encryptedPassword) (by decide)) (hkeeps (f := .kerberos) (by decide)) hmode
  | some a =>
    have hmem {step : Step} (hstep : step ∈ authSteps a) : step ∈ loadSteps x j := by
      have hsection : step ∈ sectionSteps j "auth" authSteps := by rwa [sectionSteps, hauth]
      simp only [loadSteps, List.mem_append, hsection, or_true, true_or]
    have henabled : a.value Json.getBool "enabled" false = .ok m.config.auth.enabled :=
      get_of_loadImpl hread h (hmem (.head _))
    have husername : a.value Json.getString "username" [] = .ok m.config.auth.username :=
      get_of_loadImpl hread h (hmem (.tail _ (.head _)))
    have hpassword : a.value Json.getString "encryptedPassword" [] = .ok m.config.auth.encryptedPassword :=
      get_of_loadImpl hread h (hmem (.tail _ (.tail _ (.head _))))
    have hkerberos : a.value Json.getBool "kerberos" false = .ok m.config.auth.kerberos :=
      get_of_loadImpl hread h (hmem (.tail _ (.tail _ (.tail _ (.head _)))))
    simp only [fileAuth, hauth, henabled, husername, hpassword, hkerberos]
    exact authSettings_eq rfl rfl rfl rfl hmode

end

/-! ## What the relay sends -/

/-- The CONNECTs of a handler authenticate as these settings say. -/
structure FollowsScheme (auth : AuthSettings) (password : Bytes) (destIp : BitVec 32) (destPort : BitVec 16)
    (tr : CallTrace) :
    Prop where
  disabled : auth.enabled = false → ∀ proxy data n, ⟨.send proxy data, n⟩ ∈ tr → data = connectWith destIp destPort []
  basic : auth.enabled = true → auth.kerberos = false → ∀ part data, FirstConnect tr part data →
    data = connectWith destIp destPort
      (authorization "Basic " (BasicAuthenticationProvider.base64Encode (auth.username ++ ascii ":" ++ password)))
  /-- The agent is asked, and what it gives is sent. -/
  negotiate : auth.enabled = true → auth.kerberos = true → ∀ part data, FirstConnect tr part data →
    ∃ (name : Bytes) (r : CreateContextResult), ⟨.createContext name, r⟩ ∈ part ∧
      (r.success = true → data = connectWith destIp destPort (authorization "Negotiate " r.token))

section

variable {m : Relay}

/-- In the small environment, the agent's context has an empty token. -/
theorem negotiate_sent (hrequired : m.proxyAuthRequired = true) (hprovider : m.authProvider = some .kerberosAgent)
    (ctx : RelayContext) : ∃ part,
      FirstConnect ((connectionHandler m ctx).exec (fun c w => (Demo.reply c, w)) ()).trace part
        (connectWith ctx.origDestIp ctx.origDestPort (authorization "Negotiate " [])) := by
  obtain ⟨host, port, required, provider, monitor⟩ := m
  cases hrequired
  cases hprovider
  refine ⟨[⟨.createContext (ascii "HTTP/" ++ host), (⟨true, 7, []⟩ : CreateContextResult)⟩],
    [⟨.getaddrinfo host, some 0x0100007f⟩, ⟨.socket, some 2⟩, ⟨.setsockopt 2 .rcvBuf 4194304, ()⟩,
      ⟨.setsockopt 2 .sndBuf 4194304, ()⟩, ⟨.setsockopt 2 .rcvTimeo 30000, ()⟩, ⟨.setsockopt 2 .sndTimeo 30000, ()⟩,
      ⟨.setsockopt ctx.clientSock .rcvBuf 4194304, ()⟩, ⟨.setsockopt ctx.clientSock .sndBuf 4194304, ()⟩,
      ⟨.setsockopt 2 .noDelay 1, ()⟩, ⟨.setsockopt ctx.clientSock .noDelay 1, ()⟩],
    2, 0x0100007f, htons port, 2, _, [⟨.recv 2 4095, none⟩], rfl, ?_⟩
  rintro e he
  rw [List.mem_singleton.mp he]
  trivial

theorem basic_ne_negotiate (destIp : BitVec 32) (destPort : BitVec 16) (token token' : Bytes) :
    connectWith destIp destPort (authorization "Negotiate " token) ≠
      connectWith destIp destPort (authorization "Basic " token') := by
  intro h
  simp only [connectWith, authorization, List.append_assoc] at h
  have h := List.append_cancel_left (List.append_cancel_left h)
  have hhead := congrArg List.head? h
  rw [List.head?_append_of_ne_nil _ (by decide), List.head?_append_of_ne_nil _ (by decide)] at hhead
  exact absurd hhead (by decide)

end

section

variable {x : Platform} {m : ConfigManager} {password : Bytes} {s : TcpRedirectorService}

/-- Basic is never sent: the agent is asked in its place. -/
theorem not_follows_basic (h : Reflects x m s) (henabled : m.config.auth.enabled = true)
    (hkerberos : m.config.auth.kerberos = false) (ctx : RelayContext) :
    ¬ FollowsScheme m.config.auth password ctx.origDestIp ctx.origDestPort
      ((connectionHandler s.relay ctx).exec (answerWith s.authProvider fun c w => (Demo.reply c, w)) ()).trace := by
  intro hfollows
  have hprovider : s.authProvider = some .kerberosAgent := by
    have hsame := h.sameProvider
    rw [h.authProvider henabled] at hsame
    cases hp : s.authProvider with
    | none => rw [hp] at hsame; cases hsame
    | some p =>
      cases p with
      | kerberosAgent => rfl
      | basic => rw [hp] at hsame; cases hsame
  rw [hprovider] at hfollows
  obtain ⟨part, hfirst⟩ := negotiate_sent (h.authRequired.trans henabled) (h.authProvider henabled) ctx
  exact basic_ne_negotiate _ _ _ _ (hfollows.basic henabled hkerberos part _ hfirst)

variable {σ : Type} (world : (c : Call) → σ → c.Resp × σ) (w : σ) (ctx : RelayContext)

theorem follows_negotiate (h : Reflects x m s) (henabled : m.config.auth.enabled = true)
    (hkerberos : m.config.auth.kerberos = true) :
    FollowsScheme m.config.auth password ctx.origDestIp ctx.origDestPort
      ((connectionHandler s.relay ctx).exec (answerWith s.authProvider world) w).trace := by
  have hrequired := h.authRequired.trans henabled
  have hagent := h.authProvider henabled
  have hlater : ∀ id, GivesHeader (negotiates ctx.origDestIp ctx.origDestPort) s.relay ctx.origDestIp ctx.origDestPort
      (some id) none := givesHeader_later (by rw [hagent]; nofun) hrequired
  have hfollows := handler_follows hlater (givesHeader_first hrequired hagent) ctx.clientSock ctx.proxyConfigId
  obtain ⟨s', hobserve, -⟩ := hfollows.sound (answerWith s.authProvider world) w
  refine ⟨fun hoff => absurd henabled (by rw [hoff]; nofun), fun _ hoff => absurd hkerberos (by rw [hoff]; nofun),
    fun _ _ part data hfirst => ?_⟩
  obtain ⟨e, he, hsends⟩ := List.any_eq_true.mp (first_of_observe hobserve hfirst)
  exact created_of_sends he hsends

theorem follows_plain (h : Reflects x m s) (hdisabled : m.config.auth.enabled = false) :
    FollowsScheme m.config.auth password ctx.origDestIp ctx.origDestPort
      ((connectionHandler s.relay ctx).exec (answerWith s.authProvider world) w).trace := by
  have hplain : ∀ c s', GivesHeader (plain ctx.origDestIp ctx.origDestPort) s.relay ctx.origDestIp ctx.origDestPort c s' :=
    givesHeader_plain (h.authRequired.trans hdisabled)
  have hfollows := handler_follows (fun id => hplain (some id) none) (hplain none (some [])) ctx.clientSock ctx.proxyConfigId
  obtain ⟨s', hobserve, -⟩ := hfollows.sound (answerWith s.authProvider world) w
  have hoff : m.config.auth.enabled ≠ true := by rw [hdisabled]; nofun
  refine ⟨fun _ proxy data n hmem => ?_, fun hon => absurd hon hoff, fun hon => absurd hon hoff⟩
  obtain ⟨_, haccepted⟩ := accepted_of_observe hobserve hmem
  exact eq_of_beq haccepted

end

/-- After a start with a file, the handlers authenticate as it says exactly if
authentication is off in it or `kerberos` on. -/
theorem scheme_follows_iff (x : Platform) (env : Env) (text : Bytes) (j : Json) (hread : x.read text = .ok j)
    (hload : (loadImpl x env.first {} (some text)).result = some true) (s : TcpRedirectorService) (disk : Disk)
    (hstart : start x env (some text) = some (s, disk)) :
    (∀ (σ : Type) (world : (c : Call) → σ → c.Resp × σ) (w : σ) (ctx : RelayContext),
      FollowsScheme (fileAuth j) (wideToUtf8 (decryptPassword x (fileAuth j).encryptedPassword)) ctx.origDestIp ctx.origDestPort
        ((connectionHandler s.relay ctx).exec (answerWith s.authProvider world) w).trace) ↔
      (fileAuth j).enabled = false ∨ (fileAuth j).kerberos = true := by
  obtain ⟨m, hm, rfl⟩ : ∃ m, loadImpl x env.first {} (some text) = ⟨some true, m, disk⟩ ∧ assemble x m = s := by
    unfold start at hstart
    split at hstart
    next => cases hstart
    next result m disk' heq =>
      rw [heq] at hload
      cases hload
      cases hstart
      exact ⟨m, heq, rfl⟩
  have hreflects : Reflects x m (assemble x m) := reflects_assemble (authMode_of_load hm)
  rw [← auth_of_load hread hm]
  constructor
  · intro h
    by_contra hnot
    obtain ⟨henabled, hkerberos⟩ := not_or.mp hnot
    rw [Bool.not_eq_false] at henabled
    rw [Bool.not_eq_true] at hkerberos
    exact not_follows_basic hreflects henabled hkerberos Demo.accepted (h Unit _ () Demo.accepted)
  · intro h σ world w ctx
    by_cases henabled : m.config.auth.enabled = true
    · have hkerberos : m.config.auth.kerberos = true := h.resolve_left (by rw [henabled]; nofun)
      exact follows_negotiate world w ctx hreflects henabled hkerberos
    · exact follows_plain world w ctx hreflects (Bool.not_eq_true _ ▸ henabled)

namespace Demo

/-- `{"auth": {"enabled": true, "kerberos": true}}`. -/
def kerberosFile : Json :=
  .object [(ascii "auth", .object [(ascii "enabled", .boolean true), (ascii "kerberos", .boolean true)])]

/-- Its configuration. -/
def kerberosConfig : ConfigManager where
  config := { auth.enabled := true, auth.kerberos := true }

theorem read_kerberosFile : (platform [kerberosFile] []).read (kerberosFile.indented 0) = .ok kerberosFile.reread := by
  simp [platform]

theorem load_kerberosFile :
    loadImpl (platform [kerberosFile] []) .complete {} (some (kerberosFile.indented 0)) =
      ⟨some true, kerberosConfig, some (kerberosFile.indented 0)⟩ := loadImpl_of_loadJson _ read_kerberosFile rfl

theorem load_authFile :
    loadImpl (platform [authFile, emptyFile] []) .complete {} (some (authFile.indented 0)) =
      ⟨some true, authEnabled, some (authFile.indented 0)⟩ := loadImpl_of_loadJson _ read_authFile rfl

end Demo

/-- With Kerberos in the file the agent's token is sent. -/
theorem scheme_follows_kerberos :
    (fileAuth Demo.kerberosFile.reread).kerberos = true ∧
    ∀ (σ : Type) (world : (c : Call) → σ → c.Resp × σ) (w : σ) (ctx : RelayContext),
      FollowsScheme (fileAuth Demo.kerberosFile.reread)
        (wideToUtf8 (decryptPassword (Demo.platform [Demo.kerberosFile] [])
          (fileAuth Demo.kerberosFile.reread).encryptedPassword))
        ctx.origDestIp ctx.origDestPort
        ((connectionHandler (assemble (Demo.platform [Demo.kerberosFile] []) Demo.kerberosConfig).relay ctx).exec
          (answerWith (assemble (Demo.platform [Demo.kerberosFile] []) Demo.kerberosConfig).authProvider world) w).trace := by
  have hload : (loadImpl (Demo.platform [Demo.kerberosFile] []) .complete {} (some (Demo.kerberosFile.indented 0))).result =
      some true := by
    rw [Demo.load_kerberosFile]
  have hstart : start (Demo.platform [Demo.kerberosFile] []) {} (some (Demo.kerberosFile.indented 0)) =
      some (assemble (Demo.platform [Demo.kerberosFile] []) Demo.kerberosConfig, some (Demo.kerberosFile.indented 0)) := by
    simp only [start, Demo.load_kerberosFile]
  exact ⟨rfl, (scheme_follows_iff _ {} _ _ Demo.read_kerberosFile hload _ _ hstart).mpr (.inr rfl)⟩

/-- `{"auth": {"enabled": true}}` asks for Basic; the first CONNECT has the agent's token. -/
theorem basic_never_sent :
    let x := Demo.platform [Demo.authFile, Demo.emptyFile] []
    let text := Demo.authFile.indented 0
    ∃ s, (loadImpl x .complete {} (some text)).result = some true ∧ start x {} (some text) = some (s, some text) ∧
      fileAuth Demo.authFile.reread = { enabled := true, kerberos := false } ∧
      ∀ password, ¬FollowsScheme (fileAuth Demo.authFile.reread) password 0x04030201 443
        ((connectionHandler s.relay Demo.accepted).exec (answerWith s.authProvider fun c w => (Demo.reply c, w)) ()).trace := by
  intro x text
  have hreflects : Reflects x Demo.authEnabled (assemble x Demo.authEnabled) := reflects_assemble rfl
  refine ⟨assemble x Demo.authEnabled, by rw [Demo.load_authFile], by simp only [start, Demo.load_authFile, x, text], rfl,
    fun password => not_follows_basic hreflects rfl rfl Demo.accepted⟩

end TR.Impl.Service
