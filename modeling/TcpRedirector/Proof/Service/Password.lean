import TcpRedirector.Proof.Service.Base64
import TcpRedirector.Proof.Service.Durable

/-!
# The stored password

A request keeps the encrypted password or stores a new one, and every save puts
it into the file, from where a load brings it back as it was (`Stored`). So the
password is that of the last `set_config` that had one, also after a restart
(`password_preserved`).
-/

namespace TR.Impl.Service

open ConfigManager

/-- What is used of DPAPI. -/
structure Platform.Dpapi (x : Platform) : Prop where
  protect_unprotect : ∀ salt plain, ∃ c, x.protect salt plain = some c ∧ c ≠ [] ∧ x.unprotect c = some plain

/-- `encryptedPassword`. -/
abbrev encryptedOf (s : TcpRedirectorService) : Bytes := s.manager.config.auth.encryptedPassword

section

variable {x : Platform}

theorem base64Encode_ne_nil {data : Bytes} (h : data ≠ []) : base64Encode data ≠ [] := by
  intro hnil
  have hdecode := base64Decode_encode data
  rw [hnil] at hdecode
  exact h hdecode.symm

/-- What was encrypted is decrypted. -/
theorem getPlainPassword_encrypt (hx : x.Dpapi) (salt : Bytes) (w : WString) {m : ConfigManager}
    (h : m.config.auth.encryptedPassword = encryptPassword x salt w) : getPlainPassword x m = w := by
  obtain ⟨c, hc, hne, hplain⟩ := hx.protect_unprotect salt (wideBytes w)
  have hencrypted : encryptPassword x salt w = base64Encode c := by simp only [encryptPassword, hc]
  have hnonempty : (base64Encode c).isEmpty = false := by simpa using base64Encode_ne_nil hne
  have hraw : c.isEmpty = false := by simpa using hne
  rw [getPlainPassword, h, hencrypted, hnonempty, decryptPassword, base64Decode_encode]
  simp [hraw, hplain, ofWideBytes_wideBytes]

theorem getPlainPassword_congr {m m' : ConfigManager}
    (h : m.config.auth.encryptedPassword = m'.config.auth.encryptedPassword) :
    getPlainPassword x m = getPlainPassword x m' := by
  rw [getPlainPassword, getPlainPassword, h]

/-- A load of an existing file ends in the same way from every state, and
keeps the encrypted password or sets it to that of the file. -/
theorem loadImpl_encrypted (x : Platform) (text : Bytes) : ∃ (res : Option Bool) (o : Option Bytes), ∀ write m,
    (loadImpl x write m (some text)).result = res ∧
    (loadImpl x write m (some text)).manager.config.auth.encryptedPassword = o.getD m.config.auth.encryptedPassword ∧
    (loadImpl x write m (some text)).disk = some text := by
  cases hread : x.read text with
  | error e => exact ⟨some false, none, fun write m => by simp [loadImpl, hread]⟩
  | ok j =>
    obtain ⟨r, o, hacts, -⟩ := touches_encryptedPassword x j
    have hrun (m : ConfigManager) := And.intro (hacts.outcome m) (hacts.final m)
    simp only [loadImpl, hread]
    cases r with
    | ok u =>
      refine ⟨some true, o, fun write m => ?_⟩
      obtain ⟨hout, hfinal⟩ := hrun m
      generalize loadJson x j m = res at hout hfinal
      cases res with
      | ok u m' => exact ⟨rfl, hfinal, rfl⟩
      | error e m' => cases hout
    | error e =>
      refine ⟨if e = .undefined then none else some false, o, fun write m => ?_⟩
      obtain ⟨hout, hfinal⟩ := hrun m
      generalize loadJson x j m = res at hout hfinal
      cases res with
      | ok u m' => cases hout
      | error e' m' =>
        cases hout
        cases e <;> exact ⟨rfl, hfinal, rfl⟩

end

/-! ## Runs -/

/-- The saves that a request makes, each of its configuration. -/
def saves (x : Platform) (env : Env) (r : Request) (s : TcpRedirectorService) (disk : Disk) :
    List (Write × ConfigManager) :=
  match r with
  | .setConfig params =>
    if MAX_IPC_MESSAGE_SIZE < params.length then []
    else
      match configOfParams x params with
      | .error _ => []
      | .ok config =>
        let m := withProxyConfig x env.salt config s.manager
        [(env.first, m), (env.second, m)]
  | .setRules params =>
    if MAX_IPC_MESSAGE_SIZE < params.length then []
    else
      match rulesOfParams x params with
      | .error _ => []
      | .ok rules => [(env.first, { s.manager with rules := rules })]
  | .setLogLevel params =>
    if MAX_IPC_MESSAGE_SIZE < params.length then []
    else
      match levelOfParams x params with
      | .error _ => []
      | .ok level => 
        let m := withLogLevel level s.manager
        [(env.first, m), (env.second, m)]
  | .reloadConfig =>
    match disk with
    | none => [(env.first, s.manager.defaultConfig)]
    | some _ => []

/-- A run of requests whose saves all get into the file. -/
inductive SavedRun (x : Platform) : List (Env × Request) → TcpRedirectorService × Disk → TcpRedirectorService × Disk → Prop
  | nil {w : TcpRedirectorService × Disk} : SavedRun x [] w w
  | cons {env : Env} {r : Request} {run : List (Env × Request)} {s : TcpRedirectorService} {disk : Disk} {a : Answered}
    {w : TcpRedirectorService × Disk}
      (answered : handle x env r s disk = some a) (saved : ∀ b ∈ saves x env r s disk, Persists x b.1 b.2)
      (rest : SavedRun x run (a.service, a.disk) w) : SavedRun x ((env, r) :: run) (s, disk) w

/-- The password that a request sets: that of an accepted `set_config` with `set_password`. -/
def newPassword (x : Platform) : Request → Option WString
  | .setConfig params =>
    if MAX_IPC_MESSAGE_SIZE < params.length then none
    else
      match configOfParams x params with
      | .error _ => none
      | .ok config => if config.has_password then some config.plain_password else none
  | _ => none

/-- The password after some requests. -/
def lastPassword (x : Platform) : List (Env × Request) → WString → WString
  | [], p => p
  | (_, r) :: run, p => lastPassword x run ((newPassword x r).getD p)

/-- The file can be loaded, and holds the encrypted password. -/
structure Stored (x : Platform) (s : TcpRedirectorService) (disk : Disk) : Prop where
  isSome : disk.isSome = true
  defined : ∀ write, (loadImpl x write {} disk).result ≠ none
  encrypted : ∀ write, (loadImpl x write {} disk).manager.config.auth.encryptedPassword = encryptedOf s

section

variable {x : Platform}

theorem stored_of_dump4 (hx : x.Rereads) {s : TcpRedirectorService} {text : Bytes}
    (h : x.dump4 s.manager.toJson = .ok text) : Stored x s (some text) := by
  refine ⟨rfl, fun write => ?_, fun write => ?_⟩
  · rw [loadImpl_dump4 hx h]
    simp
  · rw [loadImpl_dump4 hx h]
    rfl

/-- A request that is rejected changes nothing. -/
theorem of_caught {s : TcpRedirectorService} {disk : Disk} {e : JsonFault} {a : Answered} (h : caught s disk e = some a) :
    a.service = s ∧ a.disk = disk := by
  cases e with
  | exception what =>
    cases h
    exact ⟨rfl, rfl⟩
  | undefined => cases h

/-- What a request leaves if its saves get into the file. -/
def KeepsPassword (x : Platform) (r : Request) (s : TcpRedirectorService) (a : Answered) : Prop :=
  Stored x a.service a.disk ∧ getPlainPassword x a.service.manager = (newPassword x r).getD (getPlainPassword x s.manager)

theorem setConfig_keeps (hx : x.Rereads) (hdpapi : x.Dpapi) {env : Env} {params : Bytes} {s : TcpRedirectorService}
    {disk : Disk}
    {a : Answered} (hsize : ¬ MAX_IPC_MESSAGE_SIZE < params.length) (hanswer : setConfig x env params s disk = some a)
    (hsaves : ∀ b ∈ saves x env (.setConfig params) s disk, Persists x b.1 b.2) (h : Stored x s disk) :
    KeepsPassword x (.setConfig params) s a := by
  simp only [saves, if_neg hsize] at hsaves
  rw [KeepsPassword, newPassword, if_neg hsize]
  rw [setConfig] at hanswer
  cases hc : configOfParams x params with
  | error e =>
    rw [hc] at hanswer
    obtain ⟨hs, hd⟩ := of_caught hanswer
    rw [hs, hd]
    exact ⟨h, rfl⟩
  | ok config =>
    simp only [hc] at hanswer hsaves ⊢
    obtain ⟨text₁, -, h₁⟩ := saveImpl_of_persists (hsaves _ List.mem_cons_self)
    obtain ⟨text₂, htext₂, h₂⟩ := saveImpl_of_persists (hsaves _ (List.mem_cons_of_mem _ List.mem_cons_self))
    simp only [h₁, h₂, Bool.not_true, Bool.false_eq_true, if_false] at hanswer
    cases hanswer
    refine ⟨stored_of_dump4 hx htext₂, ?_⟩
    cases hp : config.has_password with
    | true => exact getPlainPassword_encrypt hdpapi env.salt config.plain_password (by simp [withProxyConfig, hp])
    | false => exact getPlainPassword_congr (by simp [withProxyConfig, hp])

theorem setRules_keeps (hx : x.Rereads) {env : Env} {params : Bytes} {s : TcpRedirectorService} {disk : Disk}
    {a : Answered} (hsize : ¬ MAX_IPC_MESSAGE_SIZE < params.length) (hanswer : setRules x env params s disk = some a)
    (hsaves : ∀ b ∈ saves x env (.setRules params) s disk, Persists x b.1 b.2) (h : Stored x s disk) :
    KeepsPassword x (.setRules params) s a := by
  simp only [saves, if_neg hsize] at hsaves
  rw [setRules] at hanswer
  cases hr : rulesOfParams x params with
  | error e =>
    rw [hr] at hanswer
    obtain ⟨hs, hd⟩ := of_caught hanswer
    rw [KeepsPassword, hs, hd]
    exact ⟨h, rfl⟩
  | ok rules =>
    simp only [hr] at hanswer hsaves
    obtain ⟨text₁, htext₁, h₁⟩ := saveImpl_of_persists (hsaves _ List.mem_cons_self)
    simp only [h₁] at hanswer
    cases hanswer
    exact ⟨stored_of_dump4 hx htext₁, getPlainPassword_congr rfl⟩

theorem setLogLevel_keeps (hx : x.Rereads) {env : Env} {params : Bytes} {s : TcpRedirectorService} {disk : Disk}
    {a : Answered} (hsize : ¬ MAX_IPC_MESSAGE_SIZE < params.length) (hanswer : setLogLevel x env params s disk = some a)
    (hsaves : ∀ b ∈ saves x env (.setLogLevel params) s disk, Persists x b.1 b.2) (h : Stored x s disk) :
    KeepsPassword x (.setLogLevel params) s a := by
  simp only [saves, if_neg hsize] at hsaves
  rw [setLogLevel] at hanswer
  cases hl : levelOfParams x params with
  | error e =>
    rw [hl] at hanswer
    obtain ⟨hs, hd⟩ := of_caught hanswer
    rw [KeepsPassword, hs, hd]
    exact ⟨h, rfl⟩
  | ok level =>
    simp only [hl] at hanswer hsaves
    obtain ⟨text₁, -, h₁⟩ := saveImpl_of_persists (hsaves _ List.mem_cons_self)
    obtain ⟨text₂, htext₂, h₂⟩ := saveImpl_of_persists (hsaves _ (List.mem_cons_of_mem _ List.mem_cons_self))
    simp only [h₁, h₂] at hanswer
    cases hanswer
    exact ⟨stored_of_dump4 hx htext₂, getPlainPassword_congr rfl⟩

theorem applyConfig_manager (x : Platform) (s : TcpRedirectorService) : (applyConfig x s).manager = s.manager := by
  rw [applyConfig]
  split
  · split
    · split <;> rfl
    · rfl
  · rfl

/-- The file holds the password that the service has, so that a load on top of it changes nothing. -/
theorem reloadConfig_keeps {env : Env} {s : TcpRedirectorService} {disk : Disk} {a : Answered}
    (hanswer : reloadConfig x env s disk = some a) (h : Stored x s disk) : KeepsPassword x .reloadConfig s a := by
  obtain ⟨text, rfl⟩ := Option.isSome_iff_exists.mp h.isSome
  obtain ⟨res, o, hload⟩ := loadImpl_encrypted x text
  have hsame : (loadImpl x env.first s.manager (some text)).manager.config.auth.encryptedPassword = encryptedOf s := by
    have hfresh := h.encrypted env.first
    rw [(hload env.first _).2.1] at hfresh ⊢
    cases o with
    | some p => exact hfresh
    | none => rfl
  have hdisk := (hload env.first s.manager).2.2
  have hkeeps {s' : TcpRedirectorService} (hs' : s'.manager = (loadImpl x env.first s.manager (some text)).manager) :
      Stored x s' (some text) ∧ getPlainPassword x s'.manager = getPlainPassword x s.manager := by
    refine ⟨⟨rfl, h.defined, fun write => ?_⟩, getPlainPassword_congr (hs' ▸ hsame)⟩
    rw [h.encrypted write, ← hsame, encryptedOf, hs']
  rw [reloadConfig] at hanswer
  generalize loadImpl x env.first s.manager (some text) = loaded at hanswer hdisk hkeeps
  obtain ⟨result, m, disk⟩ := loaded
  cases hdisk
  rcases result with _ | _ | _ <;> cases hanswer
  · exact hkeeps rfl
  · exact hkeeps (applyConfig_manager x _)

/-- A request whose saves get into the file keeps it up to date, and changes the
password as `newPassword` says. -/
theorem handle_keeps (hx : x.Rereads) (hdpapi : x.Dpapi) {env : Env} {r : Request} {s : TcpRedirectorService}
    {disk : Disk} {a : Answered}
    (hanswer : handle x env r s disk = some a) (hsaves : ∀ b ∈ saves x env r s disk, Persists x b.1 b.2) (h : Stored x s disk) :
    KeepsPassword x r s a := by
  have hlarge {r : Request} (hnew : newPassword x r = none) {what : Bytes} (ha : some ⟨failure what, s, disk⟩ = some a) :
      KeepsPassword x r s a := by
    cases ha
    exact ⟨h, by rw [hnew]; rfl⟩
  cases r with
  | setConfig params =>
    simp only [handle, handle.guarded] at hanswer
    split at hanswer
    next hsize => exact hlarge (by simp [newPassword, hsize]) hanswer
    next hsize => exact setConfig_keeps hx hdpapi hsize hanswer hsaves h
  | setRules params =>
    simp only [handle, handle.guarded] at hanswer
    split at hanswer
    next => exact hlarge rfl hanswer
    next hsize => exact setRules_keeps hx hsize hanswer hsaves h
  | setLogLevel params =>
    simp only [handle, handle.guarded] at hanswer
    split at hanswer
    next => exact hlarge rfl hanswer
    next hsize => exact setLogLevel_keeps hx hsize hanswer hsaves h
  | reloadConfig => exact reloadConfig_keeps hanswer h

/-- By induction on the run. -/
theorem savedRun_stored (hx : x.Rereads) (hdpapi : x.Dpapi) {run : List (Env × Request)} {w w' : TcpRedirectorService × Disk}
    (hrun : SavedRun x run w w') (h : Stored x w.1 w.2) :
    Stored x w'.1 w'.2 ∧ getPlainPassword x w'.1.manager = lastPassword x run (getPlainPassword x w.1.manager) := by
  induction hrun with
  | nil => exact ⟨h, rfl⟩
  | cons answered saved rest ih =>
    obtain ⟨hstored, hpassword⟩ := handle_keeps hx hdpapi answered saved h
    rw [lastPassword, ← hpassword]
    exact ih hstored

/-- A new service has the password of its file. -/
theorem start_stored (hx : x.Rereads) {env : Env} {disk disk' : Disk} {s : TcpRedirectorService}
    (hstart : start x env disk = some (s, disk'))
    (hsaved : disk = none → Persists x env.first (defaultConfig {})) : Stored x s disk' := by
  rw [start] at hstart
  cases disk with
  | none =>
    obtain ⟨text₁, htext₁, h₁⟩ := saveImpl_of_persists (hsaved rfl)
    simp only [loadImpl, h₁] at hstart
    cases hstart
    exact stored_of_dump4 hx htext₁
  | some text =>
    obtain ⟨res, o, hload⟩ := loadImpl_encrypted x text
    have hfirst := hload env.first {}
    generalize loadImpl x env.first {} (some text) = loaded at hstart hfirst
    obtain ⟨result, m, disk⟩ := loaded
    obtain ⟨hres, hm, hdisk⟩ := hfirst
    cases hdisk
    cases result with
    | none => cases hstart
    | some b =>
      cases hstart
      refine ⟨rfl, fun write => ?_, fun write => ?_⟩
      · rw [(hload write {}).1, ← hres]
        simp
      · rw [(hload write {}).2.1, ← hm]
        rfl

/-- A restarted service has the same password. -/
theorem start_of_stored {s : TcpRedirectorService} {disk : Disk} (h : Stored x s disk) (env : Env) :
    ∃ s', start x env disk = some (s', disk) ∧ getPlainPassword x s'.manager = getPlainPassword x s.manager := by
  obtain ⟨text, rfl⟩ := Option.isSome_iff_exists.mp h.isSome
  obtain ⟨res, o, hload⟩ := loadImpl_encrypted x text
  have hdefined := h.defined env.first
  have hencrypted := h.encrypted env.first
  have hdisk := (hload env.first {}).2.2
  rw [start]
  generalize loadImpl x env.first {} (some text) = loaded at hdefined hencrypted hdisk
  obtain ⟨result, m, disk⟩ := loaded
  cases hdisk
  cases result with
  | none => exact absurd rfl hdefined
  | some b => exact ⟨assemble x m, rfl, getPlainPassword_congr hencrypted⟩

end

/-- Whatever the requests and their order, the password is that of the last
`set_config` that had one, or else the one at the start, and a restarted
service has it too. -/
theorem password_preserved (x : Platform) (hx : x.Rereads) (hdpapi : x.Dpapi) (env env' : Env) (disk₀ disk₁ disk : Disk)
    (s₀ s : TcpRedirectorService) (hstart : start x env disk₀ = some (s₀, disk₁))
    (hsaved : disk₀ = none → Persists x env.first (defaultConfig {})) (run : List (Env × Request))
    (hrun : SavedRun x run (s₀, disk₁) (s, disk)) :
    getPlainPassword x s.manager = lastPassword x run (getPlainPassword x s₀.manager) ∧
    ∃ s', start x env' disk = some (s', disk) ∧
      getPlainPassword x s'.manager = lastPassword x run (getPlainPassword x s₀.manager) := by
  obtain ⟨hstored, hpassword⟩ := savedRun_stored hx hdpapi hrun (start_stored hx hstart hsaved)
  obtain ⟨s', hs', hsame⟩ := start_of_stored hstored env'
  exact ⟨hpassword, s', hs', hsame.trans hpassword⟩

namespace Demo

/-- `{"host":"","password":"p","port":3128,"set_password":true}`. -/
def configRequest : Json :=
  (((Json.null.set "host" (.string [])).set "password" (.string (ascii "p"))).set "port" (.unsigned 3128)).set "set_password"
    (.boolean true)

/-- What it asks for. -/
def requestedConfig : ProxyConfig := { port := 3128, has_password := true, plain_password := [112] }

/-- The configuration that it leaves, from defaults. -/
def passwordConfig : ConfigManager where
  config := { proxy.host := [], auth.encryptedPassword := base64Encode (1 :: wideBytes [112]) }

noncomputable def passwordPlatform : Platform := platform [emptyFile, passwordConfig.toJson] [configRequest]

theorem platform_dpapi (files requests : List Json) : (platform files requests).Dpapi where
  protect_unprotect _ plain := ⟨1 :: plain, rfl, by simp, rfl⟩

theorem passwordPlatform_rereads : passwordPlatform.Rereads := by
  have hne : emptyFile.indented 0 ≠ passwordConfig.toJson.indented 0 := by decide +kernel
  refine platform_rereads_of fun j hj j' hj' htext => ?_
  simp only [List.mem_cons, List.not_mem_nil, or_false] at hj hj'
  rcases hj with rfl | rfl <;> rcases hj' with rfl | rfl
  · rfl
  · exact absurd htext hne
  · exact absurd htext.symm hne
  · rfl

theorem widen_p (x : Platform) : widen x (ascii "p") = [112] := by
  have hp : ascii "p" = encodeUtf8 ['p'] := by decide
  rw [widen, hp, utf8ToWide, decodeUtf8_encodeUtf8]
  rfl

theorem configOfParams_configRequest : configOfParams passwordPlatform configRequest.compact = .ok requestedConfig := by
  have hparse : parseParams passwordPlatform configRequest.compact = .ok configRequest := by
    simp [parseParams, passwordPlatform, platform, JsonText.reading]
  have hread : configOfParams passwordPlatform configRequest.compact = .ok {
      host := widen passwordPlatform []
      port := 3128
      login := widen passwordPlatform []
      has_password := true
      plain_password := widen passwordPlatform (ascii "p") } := by
    rw [configOfParams, hparse]
    rfl
  have hempty : widen passwordPlatform [] = [] := utf8ToWide_nil
  rw [hread, hempty, widen_p]
  rfl

theorem dump4_passwordConfig :
    passwordPlatform.dump4 passwordConfig.toJson = .ok (passwordConfig.toJson.indented 0) :=
  platform_dump4_of_mem (by simp)

theorem saved_passwordConfig (disk : Disk) :
    saveImpl passwordPlatform .complete passwordConfig disk = (true, some (passwordConfig.toJson.indented 0)) := by
  simp only [saveImpl, dump4_passwordConfig, Write.written]

/-- The request stores the password. -/
theorem withProxyConfig_requestedConfig : withProxyConfig passwordPlatform [] requestedConfig {} = passwordConfig := by
  have hempty : wideToUtf8 [] = [] := rfl
  rw [withProxyConfig, requestedConfig, hempty]
  rfl

theorem start_emptyFile :
    start passwordPlatform {} (some (emptyFile.indented 0)) =
      some (assemble passwordPlatform {}, some (emptyFile.indented 0)) := by
  have hread : passwordPlatform.read (emptyFile.indented 0) = .ok emptyFile.reread := by simp [passwordPlatform, platform]
  simp only [start, loadImpl_of_loadJson (m := {}) .complete hread rfl]

/-- What it leaves of a service with defaults. -/
theorem handle_configRequest (disk : Disk) :
    handle passwordPlatform {} (.setConfig configRequest.compact) (assemble passwordPlatform {}) disk =
      some ⟨success, { assemble passwordPlatform {} with manager := passwordConfig },
        some (passwordConfig.toJson.indented 0)⟩ := by
  have hsize : ¬ MAX_IPC_MESSAGE_SIZE < configRequest.compact.length := by decide
  have hmanager : withProxyConfig passwordPlatform [] requestedConfig (assemble passwordPlatform {}).manager =
      passwordConfig :=
    withProxyConfig_requestedConfig
  simp only [handle, handle.guarded, if_neg hsize, setConfig, configOfParams_configRequest, hmanager, saved_passwordConfig]
  rfl

theorem saves_configRequest (disk : Disk) :
    saves passwordPlatform {} (.setConfig configRequest.compact) (assemble passwordPlatform {}) disk =
      [(.complete, passwordConfig), (.complete, passwordConfig)] := by
  have hsize : ¬ MAX_IPC_MESSAGE_SIZE < configRequest.compact.length := by decide
  have hmanager : withProxyConfig passwordPlatform [] requestedConfig (assemble passwordPlatform {}).manager =
      passwordConfig :=
    withProxyConfig_requestedConfig
  simp only [saves, if_neg hsize, configOfParams_configRequest, hmanager]

end Demo

/-- The password "p" is set, and read again by a reload and by a restart. -/
theorem password_preserved_set :
    let x := Demo.passwordPlatform
    ∃ s disk, SavedRun x [({}, .setConfig Demo.configRequest.compact), ({}, .reloadConfig)]
        (assemble x {}, some (Demo.emptyFile.indented 0)) (s, disk) ∧
      getPlainPassword x s.manager = [112] ∧
      ∃ s', start x {} disk = some (s', disk) ∧ getPlainPassword x s'.manager = [112] := by
  intro x
  have hload := loadImpl_dump4 Demo.passwordPlatform_rereads Demo.dump4_passwordConfig .complete Demo.passwordConfig
  have hreload : reloadConfig x {} { assemble x {} with manager := Demo.passwordConfig }
      (some (Demo.passwordConfig.toJson.indented 0)) =
      some ⟨success, applyConfig x { assemble x {} with manager := Demo.passwordConfig.afterLoad x Demo.passwordConfig },
        some (Demo.passwordConfig.toJson.indented 0)⟩ := by
    simp only [reloadConfig, x, hload]
  have hrun : SavedRun x [({}, .setConfig Demo.configRequest.compact), ({}, .reloadConfig)]
      (assemble x {}, some (Demo.emptyFile.indented 0)) (_, some (Demo.passwordConfig.toJson.indented 0)) :=
    .cons (Demo.handle_configRequest _) (by
      rw [Demo.saves_configRequest]
      intro b hb
      rw [List.mem_cons, List.mem_singleton, or_self] at hb
      rw [hb]
      exact ⟨_, Demo.dump4_passwordConfig, rfl⟩)
      (.cons hreload (by simp [saves]) .nil)
  have hlast : lastPassword x [({}, .setConfig Demo.configRequest.compact), ({}, .reloadConfig)]
      (getPlainPassword x (assemble x {}).manager) = [112] := by
    have hsize : ¬ MAX_IPC_MESSAGE_SIZE < Demo.configRequest.compact.length := by decide
    simp [lastPassword, newPassword, hsize, x, Demo.configOfParams_configRequest, Demo.requestedConfig]
  obtain ⟨hp, s', hs', hp'⟩ := password_preserved x Demo.passwordPlatform_rereads (Demo.platform_dpapi _ _) {} {}
    (some (Demo.emptyFile.indented 0)) _ _ _ _ Demo.start_emptyFile (by simp) _ hrun
  exact ⟨_, _, hrun, hp.trans hlast, s', hs', hp'.trans hlast⟩

end TR.Impl.Service
