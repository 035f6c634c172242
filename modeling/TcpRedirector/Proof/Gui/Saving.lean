import TcpRedirector.Proof.Framework.Text
import TcpRedirector.Proof.Gui.Calls

/-!
# Saving the page as it was opened

The page is sent back in up to four calls. The rules come back as the file
names them, and the configuration with the port 3128 and with authentication
if Kerberos is on (`openAndSave_saved`). So the settings are as before if and
only if they are such (`settings_unchanged_iff`).
-/

namespace TR.Impl.Gui

open Service (TcpRedirectorService Env Disk Platform ConfigManager Platform.Rereads)
open Service.ConfigManager

/-! ## Settings -/

/-- What the page shows of a configuration. -/
structure Settings where
  host : Bytes
  port : BitVec 16
  authEnabled : Bool
  kerberos : Bool
  username : Bytes
  encryptedPassword : Bytes
  level : BitVec 32
  rules : List TR.Impl.Rule

def settings (m : ConfigManager) : Settings where
  host := m.config.proxy.host
  port := m.config.proxy.port
  authEnabled := m.config.auth.enabled
  kerberos := m.config.auth.kerberos
  username := m.config.auth.username
  encryptedPassword := m.config.auth.encryptedPassword
  level := m.config.log.level
  rules := m.rules

/-- The settings of a service that starts with the file. -/
def onDisk (x : Platform) (disk : Disk) : Settings := settings (loadImpl x .complete {} disk).manager

/-- The service and the file have the settings that they had. -/
structure Unchanged (x : Platform) (w w' : Session) : Prop where
  service : settings w'.service.manager = settings w.service.manager
  engine : w'.service.engine = w.service.engine
  logLevel : w'.service.logLevel = w.service.logLevel
  disk : onDisk x w'.disk = onDisk x w.disk

/-! ## Which calls are made -/

section

variable (x : Platform) (g : Runtime) (e : PageEnv) (m : ConfigManager)

/-- The page of a configuration, but for the index of its mode. -/
def pageOf : ViewModel where
  host := widen x m.config.proxy.host
  port := 3128
  authRequired := m.config.auth.enabled || m.config.auth.kerberos
  login := widen x m.config.auth.username
  kerberosEnabled := m.config.auth.kerberos
  logLevelFilter := m.config.log.level
  rules := m.rules.map (shown x e.now)

def rulesMessage : Bytes := message g (e.ids 1) "set_rules" (setRulesParams (pageOf x e m).rules)

def configMessage : Bytes := message g (e.ids 2) "set_config" (setConfigParams (pageOf x e m))

/-- The service takes the rules. -/
def TakesRules : Prop := (rulesMessage x g e m).length < pipeBuffer

/-- It takes the configuration, over a connection that the rules have left open. -/
def TakesConfig : Prop := (rulesMessage x g e m).length ≤ pipeBuffer ∧ (configMessage x g e m).length < pipeBuffer

/-- It takes the log level, when the page is opened with another one or after the configuration. -/
def TakesLogLevel (vm : ViewModel) : Prop := m.config.log.level ≠ vm.logLevelFilter ∨ TakesConfig x g e m

end

/-- What the service takes is what it has: rules that the file names, the
default port, Kerberos with authentication, and the level of its logger. -/
structure SameAsTaken (x : Platform) (g : Runtime) (e : PageEnv) (m : ConfigManager) (vm : ViewModel)
    (logLevel : BitVec 32) :
    Prop where
  rules : TakesRules x g e m → ∀ r ∈ m.rules, asRead x r = r
  config : TakesConfig x g e m → m.config.proxy.port = 3128 ∧ (m.config.auth.kerberos = true → m.config.auth.enabled = true)
  logLevel : TakesLogLevel x g e m vm → m.config.log.level.toNat ≤ 4 ∧ logLevel = m.config.log.level

section

variable {x : Platform} {g : Runtime} {e : PageEnv} {m : ConfigManager} {w : Session} {text : Bytes}

/-! ## Rules and back -/

theorem ofInt_toInt_type (type : RuleType) : RuleType.ofInt type.toInt = type := by
  cases type with
  | unnamed v => exact dif_pos v.2
  | _ => decide

theorem ofInt_toInt_action (action : RuleAction) : RuleAction.ofInt action.toInt = action := by
  cases action with
  | unnamed v => exact dif_pos v.2
  | _ => decide

/-- A well-formed string is read back as it is. -/
theorem widen_widen (s : WString) : widen x (wideToUtf8 (widen x (wideToUtf8 s))) = widen x (wideToUtf8 s) := by
  rw [show widen x (wideToUtf8 s) = utf8ToWide x.illFormed (wideToUtf8 s) from rfl,
    wideToUtf8_utf8ToWide (utf8_wideToUtf8 s)]
  rfl

/-- The service receives the rules of its file. -/
theorem receivedRule_shown (now : WString) {r : TR.Impl.Rule} (hid : Utf8 r.id) :
    receivedRule x (shown x now r) = asRead x r := by
  have hback : wideToUtf8 (widen x r.id) = r.id := wideToUtf8_utf8ToWide hid
  rw [receivedRule, shown]
  simp only [ofInt_toInt_type, ofInt_toInt_action, widen_widen, hback]
  rfl

theorem received_shown (now : WString) (h : Written m) :
    (m.rules.map (shown x now)).map (receivedRule x) = m.rules.map (asRead x) := by
  rw [List.map_map]
  exact List.map_congr_left fun r hr => receivedRule_shown now (h.ids r hr)

/-! ## The calls in turn -/

/-- The configuration after the log level was taken, or not. -/
structure Saved (x : Platform) (w₀ w : Session) (m₀ m : ConfigManager) (rules config level : Prop) : Prop where
  holds : Holds x w m
  host : m.config.proxy.host = m₀.config.proxy.host
  username : m.config.auth.username = m₀.config.auth.username
  encryptedPassword : m.config.auth.encryptedPassword = m₀.config.auth.encryptedPassword
  kerberos : m.config.auth.kerberos = m₀.config.auth.kerberos
  rules_taken : rules → m.rules = m₀.rules.map (asRead x)
  rules_kept : ¬rules → m.rules = m₀.rules
  config_taken : config → m.config.proxy.port = 3128 ∧
    m.config.auth.enabled = (m₀.config.auth.enabled || m₀.config.auth.kerberos)
  config_kept : ¬config → m.config.proxy.port = m₀.config.proxy.port ∧ m.config.auth.enabled = m₀.config.auth.enabled
  level_taken : level → m.config.log.level = (if m₀.config.log.level.toNat ≤ 4 then m₀.config.log.level else 2) ∧
    w.service.logLevel = m₀.config.log.level
  level_kept : ¬level → m.config.log.level = m₀.config.log.level ∧ w.service.logLevel = w₀.service.logLevel

theorem Holds.saved (h : Holds x w m) : Saved x w w m m False False False where
  holds := h
  host := rfl
  username := rfl
  encryptedPassword := rfl
  kerberos := rfl
  rules_taken := False.elim
  rules_kept _ := rfl
  config_taken := False.elim
  config_kept _ := ⟨rfl, rfl⟩
  level_taken := False.elim
  level_kept _ := ⟨rfl, rfl⟩

section

variable {w₀ : Session} {m₀ : ConfigManager} {r c l : Prop} {env : Env} {id : WString}

theorem Saved.level (hg : g.Writes x) (hd : Dumps x) (henv : Writable env) (h : Saved x w₀ w m₀ m r c l)
    (hw : w.connected = true)
    (hfits : (message g id "set_log_level" (setLogLevelParams m₀.config.log.level)).length < pipeBuffer) :
    ∃ w' m', call x g env id "set_log_level" (setLogLevelParams m₀.config.log.level) w = some (true, w') ∧
      Saved x w₀ w' m₀ m' r c True ∧ w'.connected = true := by
  obtain ⟨w', hcall, hholds, hlevel, hw'⟩ := call_setLogLevel hg hd henv h.holds hw hfits
  refine ⟨w', withLogLevel m₀.config.log.level m, hcall, ?_, hw'⟩
  exact { h with
    holds := hholds
    level_taken := fun _ => ⟨rfl, hlevel⟩
    level_kept := fun hl => absurd trivial hl }

theorem Saved.takeRules (hg : g.Writes x) (hd : Dumps x) (henv : Writable env) (h : Saved x w₀ w m₀ m False c l)
    (hwritten : Written m₀) (hw : w.connected = true)
    (hfits : (message g id "set_rules" (setRulesParams (pageOf x e m₀).rules)).length < pipeBuffer) :
    ∃ w' m', call x g env id "set_rules" (setRulesParams (pageOf x e m₀).rules) w = some (true, w') ∧
      Saved x w₀ w' m₀ m' True c l ∧ w'.connected = true := by
  obtain ⟨w', hcall, hholds, hlevel, hw'⟩ := call_setRules hg hd henv h.holds hw hfits
  refine ⟨w', { m with rules := (pageOf x e m₀).rules.map (receivedRule x) }, hcall, ?_, hw'⟩
  exact { h with
    holds := hholds
    rules_taken := fun _ => received_shown e.now hwritten
    rules_kept := fun hr => absurd trivial hr
    level_taken := fun hl => ⟨(h.level_taken hl).1, hlevel.trans (h.level_taken hl).2⟩
    level_kept := fun hl => ⟨(h.level_kept hl).1, hlevel.trans (h.level_kept hl).2⟩ }

theorem Saved.takeConfig (hg : g.Writes x) (hd : Dumps x) (henv : Writable env) (h : Saved x w₀ w m₀ m r False l)
    (hwritten : Written m₀) (hw : w.connected = true)
    (hfits : (message g id "set_config" (setConfigParams (pageOf x e m₀))).length < pipeBuffer) :
    ∃ w' m', call x g env id "set_config" (setConfigParams (pageOf x e m₀)) w = some (true, w') ∧
      Saved x w₀ w' m₀ m' r True l ∧ w'.connected = true := by
  obtain ⟨w', hcall, hholds, hlevel, hw'⟩ := call_setConfig hg hd henv h.holds hw rfl hfits
  have hback {s : Bytes} (hs : Utf8 s) : wideToUtf8 (widen x (wideToUtf8 (widen x s))) = s := by
    have hinner : wideToUtf8 (widen x s) = s := wideToUtf8_utf8ToWide hs
    rw [hinner, hinner]
  have hrules : (withProxyConfig x env.salt (receivedConfig x (pageOf x e m₀)) m).rules = m.rules := by
    rw [withProxyConfig]
  refine ⟨w', withProxyConfig x env.salt (receivedConfig x (pageOf x e m₀)) m, hcall, ?_, hw'⟩
  exact {
    holds := hholds
    host := by
      simp only [withProxyConfig, receivedConfig, pageOf]
      exact hback hwritten.host
    username := by
      simp only [withProxyConfig, receivedConfig, pageOf]
      exact hback hwritten.username
    encryptedPassword := h.encryptedPassword
    kerberos := rfl
    rules_taken := fun hr => hrules.trans (h.rules_taken hr)
    rules_kept := fun hr => hrules.trans (h.rules_kept hr)
    config_taken := fun _ => ⟨rfl, by
      show ((m₀.config.auth.enabled || m₀.config.auth.kerberos) || m₀.config.auth.kerberos) = _
      rw [Bool.or_assoc, Bool.or_self]⟩
    config_kept := fun hc => absurd trivial hc
    level_taken := fun hl => ⟨(h.level_taken hl).1, hlevel.trans (h.level_taken hl).2⟩
    level_kept := fun hl => ⟨(h.level_kept hl).1, hlevel.trans (h.level_kept hl).2⟩ }

/-- Whether the pipe is connected makes no difference to what is saved. -/
theorem Saved.of_connected (h : Saved x w₀ w m₀ m r c l) (connected : Bool) :
    Saved x w₀ { w with connected := connected } m₀ m r c l :=
  { h with holds := ⟨h.holds.manager, h.holds.engine, h.holds.disk⟩ }

end

section

variable {vm : ViewModel}

/-- The first call: the page shows another log level than before. -/
theorem openPage_saved (hf : g.Faithful x) (hg : g.Writes x) (hd : Dumps x) (henv : ∀ i, Writable (e.envs i))
    (hholds : Holds x w m) (hdisk : w.disk = some text) (hw : w.connected = true) (hvm : vm.Consistent)
    (hlevel : ∀ i, (message g (e.ids i) "set_log_level" (setLogLevelParams m.config.log.level)).length < pipeBuffer) :
    ∃ i w' m', openPage x g e text vm w = some ({ pageOf x e m with authModeIndex := i }, w') ∧
      Saved x w w' m m' False False (m.config.log.level ≠ vm.logLevelFilter) ∧ w'.connected = true := by
  have htext : x.dump4 m.toJson = .ok text := by
    obtain ⟨text', htext', hdisk'⟩ := hholds.disk
    rw [htext', Option.some.inj (hdisk.symm.trans hdisk')]
  obtain ⟨i, hpage⟩ := loadFromConfig_eq hf hd e.guid e.now htext hvm
  have hpage' : vm.loadFromConfig g e.guid e.now text = { pageOf x e m with authModeIndex := i } := hpage
  have hfilter : ({ pageOf x e m with authModeIndex := i } : ViewModel).logLevelFilter = m.config.log.level := rfl
  refine ⟨i, ?_⟩
  simp only [openPage, hpage', hfilter]
  by_cases hsame : m.config.log.level = vm.logLevelFilter
  · have hkept : (m.config.log.level ≠ vm.logLevelFilter) = False := eq_false (not_not_intro hsame)
    rw [if_pos hsame, hkept]
    exact ⟨w, m, rfl, hholds.saved, hw⟩
  · obtain ⟨w', m', hcall, hsaved, hw'⟩ := hholds.saved.level hg hd (henv 0) hw (hlevel 0)
    have htaken : (m.config.log.level ≠ vm.logLevelFilter) = True := eq_true hsame
    rw [if_neg hsame, htaken, hcall]
    exact ⟨w', m', rfl, hsaved, hw'⟩

/-- The rules, if the service takes them. -/
theorem Saved.callRules {w₀ : Session} {m₀ : ConfigManager} {l : Prop} (hg : g.Writes x) (hd : Dumps x)
    (henv : ∀ i, Writable (e.envs i)) (h : Saved x w₀ w m₀ m False False l) (hwritten : Written m₀)
    (hw : w.connected = true) :
    ∃ b w' m', call x g (e.envs 1) (e.ids 1) "set_rules" (setRulesParams (pageOf x e m₀).rules) w = some (b, w') ∧
      Saved x w₀ w' m₀ m' (TakesRules x g e m₀) False l ∧
      (w'.connected = true ↔ (rulesMessage x g e m₀).length ≤ pipeBuffer) := by
  by_cases hfits : TakesRules x g e m₀
  · obtain ⟨w', m', hcall, hsaved, hw'⟩ := h.takeRules hg hd (henv 1) hwritten hw hfits
    rw [eq_true hfits]
    refine ⟨true, w', m', hcall, hsaved, iff_of_true hw' ?_⟩
    exact Nat.le_of_lt hfits
  · obtain ⟨connected, hcall, hconnected⟩ := call_of_le x (e.envs 1) w (Nat.not_lt.mp hfits)
    rw [eq_false hfits]
    refine ⟨false, _, m, hcall, h.of_connected connected, ?_⟩
    rw [hconnected]
    exact and_iff_right hw

/-- Then the configuration, and the log level after it. -/
theorem Saved.callConfig {w₀ : Session} {m₀ : ConfigManager} {r l : Prop} (hg : g.Writes x) (hd : Dumps x)
    (henv : ∀ i, Writable (e.envs i)) (h : Saved x w₀ w m₀ m r False l) (hwritten : Written m₀)
    (hw : w.connected = true ↔ (rulesMessage x g e m₀).length ≤ pipeBuffer)
    (hlevel : ∀ i, (message g (e.ids i) "set_log_level" (setLogLevelParams m₀.config.log.level)).length < pipeBuffer) :
    ∃ b w₂ w' m', call x g (e.envs 2) (e.ids 2) "set_config" (setConfigParams (pageOf x e m₀)) w = some (b, w₂) ∧
      (b = true → ∃ b', call x g (e.envs 3) (e.ids 3) "set_log_level" (setLogLevelParams m₀.config.log.level) w₂ =
        some (b', w')) ∧
      (b = false → w' = w₂) ∧ Saved x w₀ w' m₀ m' r (TakesConfig x g e m₀) (l ∨ TakesConfig x g e m₀) := by
  by_cases htakes : TakesConfig x g e m₀
  · obtain ⟨w₂, m₂, hcall, hsaved, hw₂⟩ := h.takeConfig hg hd (henv 2) hwritten (hw.mpr htakes.1) htakes.2
    obtain ⟨w', m', hcall', hsaved', -⟩ := hsaved.level hg hd (henv 3) hw₂ (hlevel 3)
    rw [eq_true htakes, eq_true (Or.inr trivial : l ∨ True)]
    exact ⟨true, w₂, w', m', hcall, fun _ => ⟨true, hcall'⟩, fun hb => (by cases hb), hsaved'⟩
  · rw [eq_false htakes, or_false]
    have hrejected : ∃ connected, call x g (e.envs 2) (e.ids 2) "set_config" (setConfigParams (pageOf x e m₀)) w =
        some (false, { w with connected := connected }) := by
      cases hconnected : w.connected with
      | false =>
        refine ⟨w.connected, ?_⟩
        rw [call, if_neg (by simp [hconnected])]
      | true =>
        have hlong : pipeBuffer ≤ (configMessage x g e m₀).length :=
          Nat.not_lt.mp fun hlt => htakes ⟨hw.mp hconnected, hlt⟩
        obtain ⟨connected, hcall, -⟩ := call_of_le x (e.envs 2) w hlong
        exact ⟨connected, hcall⟩
    obtain ⟨connected, hcall⟩ := hrejected
    exact ⟨false, { w with connected := connected }, { w with connected := connected }, m, hcall,
      fun hb => (by cases hb), fun _ => rfl, h.of_connected connected⟩

/-- What opening and saving leaves. -/
theorem openAndSave_saved (hf : g.Faithful x) (hg : g.Writes x) (hd : Dumps x) (henv : ∀ i, Writable (e.envs i))
    (hholds : Holds x w m) (hdisk : w.disk = some text) (hw : w.connected = true) (hvm : vm.Consistent)
    (hlevel : ∀ i, (message g (e.ids i) "set_log_level" (setLogLevelParams m.config.log.level)).length < pipeBuffer) :
    ∃ w' m', openAndSave x g e text vm w = some w' ∧
      Saved x w w' m m' (TakesRules x g e m) (TakesConfig x g e m) (TakesLogLevel x g e m vm) := by
  have hwritten := hholds.written hd
  obtain ⟨i, w₁, m₁, hopen, hsaved₁, hw₁⟩ := openPage_saved hf hg hd henv hholds hdisk hw hvm hlevel
  obtain ⟨b₂, w₂, m₂, hrules, hsaved₂, hw₂⟩ := hsaved₁.callRules hg hd henv hwritten hw₁
  obtain ⟨b₃, w₃, w', m', hconfig, htrue, hfalse, hsaved⟩ := hsaved₂.callConfig hg hd henv hwritten hw₂ hlevel
  refine ⟨w', m', ?_, hsaved⟩
  have hrules' : call x g (e.envs 1) (e.ids 1) "set_rules"
      (setRulesParams ({ pageOf x e m with authModeIndex := i } : ViewModel).rules) w₁ = some (b₂, w₂) := hrules
  have hconfig' : call x g (e.envs 2) (e.ids 2) "set_config" (setConfigParams { pageOf x e m with authModeIndex := i }) w₂ =
      some (b₃, w₃) := hconfig
  simp only [openAndSave, hopen, saveAsync, hw₁, if_true, hrules', hconfig']
  cases b₃ with
  | false => rw [hfalse rfl]
  | true =>
    obtain ⟨b', hcall⟩ := htrue rfl
    have hcall' : call x g (e.envs 3) (e.ids 3) "set_log_level"
        (setLogLevelParams ({ pageOf x e m with authModeIndex := i } : ViewModel).logLevelFilter) w₃ = some (b', w') := hcall
    simp only [hcall']

/-! ## The settings afterwards -/

/-- A file that the service has written is loaded with its settings, up to the names of the rules. -/
theorem onDisk_of_dump4 (hx : x.Rereads) (h : x.dump4 m.toJson = .ok text) :
    onDisk x (some text) = { settings m with rules := m.rules.map (asRead x) } := by
  rw [onDisk, loadImpl_dump4 hx h]
  rfl

/-- The service keeps its settings if they are what it takes. -/
theorem Saved.settings_iff {w' : Session} {m' : ConfigManager} {r c l : Prop} (h : Saved x w w' m m' r c l) :
    (settings m' = settings m ∧ w'.service.logLevel = w.service.logLevel) ↔
      (r → ∀ rule ∈ m.rules, asRead x rule = rule) ∧
      (c → m.config.proxy.port = 3128 ∧ (m.config.auth.kerberos = true → m.config.auth.enabled = true)) ∧
      (l → m.config.log.level.toNat ≤ 4 ∧ w.service.logLevel = m.config.log.level) := by
  have hrules : m'.rules = m.rules ↔ (r → ∀ rule ∈ m.rules, asRead x rule = rule) := by
    by_cases hr : r
    · rw [h.rules_taken hr]
      simp only [hr, forall_const]
      exact map_asRead_eq_self_iff
    · rw [h.rules_kept hr]
      simp [hr]
  have hconfig : (m'.config.proxy.port = m.config.proxy.port ∧ m'.config.auth.enabled = m.config.auth.enabled) ↔
      (c → m.config.proxy.port = 3128 ∧ (m.config.auth.kerberos = true → m.config.auth.enabled = true)) := by
    by_cases hc : c
    · rw [(h.config_taken hc).1, (h.config_taken hc).2]
      simp only [hc, forall_const]
      refine and_congr eq_comm ?_
      cases m.config.auth.enabled <;> cases m.config.auth.kerberos <;> decide
    · rw [(h.config_kept hc).1, (h.config_kept hc).2]
      simp [hc]
  have hlevel : (m'.config.log.level = m.config.log.level ∧ w'.service.logLevel = w.service.logLevel) ↔
      (l → m.config.log.level.toNat ≤ 4 ∧ w.service.logLevel = m.config.log.level) := by
    by_cases hl : l
    · rw [(h.level_taken hl).1, (h.level_taken hl).2]
      simp only [hl, forall_const]
      refine and_congr ?_ eq_comm
      split
      next hle => exact iff_of_true rfl hle
      next hle =>
        refine iff_of_false (fun htwo => hle ?_) hle
        rw [← htwo]
        decide
    · rw [(h.level_kept hl).1, (h.level_kept hl).2]
      simp [hl]
  rw [← hrules, ← hconfig, ← hlevel]
  simp only [settings, Settings.mk.injEq, h.host, h.username, h.encryptedPassword, h.kerberos, true_and]
  constructor
  · rintro ⟨⟨hport, henabled, hlev, hrul⟩, hlogger⟩
    exact ⟨hrul, ⟨hport, henabled⟩, hlev, hlogger⟩
  · rintro ⟨hrul, ⟨hport, henabled⟩, hlev, hlogger⟩
    exact ⟨⟨hport, henabled, hlev, hrul⟩, hlogger⟩

end

end

/-- Opening the page and saving it leaves the settings as they are exactly if
what the service takes of it is what it has. -/
theorem settings_unchanged_iff (x : Platform) (g : Runtime) (hx : x.Rereads) (hd : Dumps x) (hf : g.Faithful x)
    (hg : g.Writes x)
    (e : PageEnv) (henv : ∀ i, Writable (e.envs i)) (edits : List ViewModel.Edit) (m : ConfigManager) (text : Bytes)
    (w : Session)
    (hholds : Holds x w m) (hdisk : w.disk = some text) (hw : w.connected = true)
    (hlevel : ∀ i, (message g (e.ids i) "set_log_level" (setLogLevelParams m.config.log.level)).length < pipeBuffer) :
    ∃ w', openAndSave x g e text (edits.foldl ViewModel.edit {}) w = some w' ∧
      (Unchanged x w w' ↔ SameAsTaken x g e m (edits.foldl ViewModel.edit {}) w.service.logLevel) := by
  obtain ⟨w', m', hrun, hsaved⟩ := openAndSave_saved hf hg hd henv hholds hdisk hw (ViewModel.consistent_edits edits) hlevel
  have hiff := hsaved.settings_iff
  refine ⟨w', hrun, fun h => ?_, fun h => ?_⟩
  · have hsame : settings m' = settings m := by
      rw [← hsaved.holds.manager, h.service, hholds.manager]
    obtain ⟨hrules, hconfig, hlevel⟩ := hiff.mp ⟨hsame, h.logLevel⟩
    exact ⟨hrules, hconfig, hlevel⟩
  · obtain ⟨hsame, hlogger⟩ := hiff.mpr ⟨h.rules, h.config, h.logLevel⟩
    have hrules : m'.rules = m.rules := congrArg Settings.rules hsame
    obtain ⟨text', htext', hdisk'⟩ := hsaved.holds.disk
    obtain ⟨text₀, htext₀, hdisk₀⟩ := hholds.disk
    refine ⟨?_, ?_, hlogger, ?_⟩
    · rw [hsaved.holds.manager, hsame, hholds.manager]
    · rw [hsaved.holds.engine, hrules, hholds.engine]
    · rw [hdisk', hdisk₀, onDisk_of_dump4 hx htext', onDisk_of_dump4 hx htext₀, hsame, hrules]

/-! ## Examples -/

namespace Demo

/-- What `JsonSerializer` writes. -/
def serialized (j : Json) : Bytes := j.escaped.compact

open Classical in
/-- Windows and the libraries of the service: the texts of `files` and `sent`
are theirs. -/
noncomputable def pagePlatform (files sent : List Json) : Platform where
  parse b := ((Json.ofText sent serialized b).map Except.ok).getD
    (.error (ascii "[json.exception.parse_error.101] parse error"))
  dump j := .ok j.compact
  toInt bits := bits.setWidth 32
  toUInt64 bits := bits
  read b := ((Json.ofText files (·.indented 0) b).map Except.ok).getD
    (.error (ascii "[json.exception.parse_error.101] parse error"))
  dump4 j :=
    if j.Utf8 then .ok (Json.text files (·.indented 0) j)
    else .error (ascii "[json.exception.type_error.316] invalid UTF-8 byte")
  toUInt16 bits := bits.setWidth 16
  illFormed b := b.map fun _ => 0xFFFD
  protect _ b := some (1 :: b)
  unprotect b := b.tail?
  sort l := l.mergeSort fun r s => r.priority.toInt ≤ s.priority.toInt

/-- .NET, with the same texts. -/
noncomputable def pageRuntime (files sent : List Json) : Runtime where
  parse b := Json.ofText files (·.indented 0) b
  serialize := Json.text sent serialized
  decode := utf8ToWide fun b => b.map fun _ => 0xFFFD
  toLowerInvariant s := s.map fun u => if 65 ≤ u.toNat ∧ u.toNat ≤ 90 then u + 32 else u

section

variable {files sent : List Json}

theorem pagePlatform_rereads (h : Json.Printed files (·.indented 0)) : (pagePlatform files sent).Rereads where
  read_dump4 j b hb := by
    simp only [pagePlatform] at hb ⊢
    split at hb
    next =>
      cases hb
      rw [Json.ofText_text h]
      rfl
    next => cases hb

theorem pagePlatform_dump4 {j : Json} (hj : j.Utf8) :
    (pagePlatform files sent).dump4 j = .ok (Json.text files (·.indented 0) j) := if_pos hj

theorem pagePlatform_dumps : Dumps (pagePlatform files sent) where
  utf8_of_dump4 j b hb := by
    simp only [pagePlatform] at hb
    split at hb
    next hj => exact hj
    next => cases hb
  dump4_of_utf8 j hj := ⟨_, pagePlatform_dump4 hj⟩

theorem pageRuntime_faithful (h : Json.Printed files (·.indented 0)) :
    (pageRuntime files sent).Faithful (pagePlatform files sent) where
  parse_dump4 m b hb := by
    simp only [pagePlatform] at hb
    split at hb
    next =>
      cases hb
      exact Json.ofText_text h _
    next => cases hb
  decode_utf8 cs := by simp only [pageRuntime, utf8ToWide, decodeUtf8_encodeUtf8]
  toLowerInvariant_lower s hs := by
    refine List.map_congr_left (fun u hu => ?_) |>.trans (List.map_id s)
    have hlower : u.toNat < 128 ∧ ¬(65 ≤ u.toNat ∧ u.toNat ≤ 90) := of_decide_eq_true (List.all_eq_true.mp hs u hu)
    exact if_neg hlower.2

/-- A runtime that only writes. -/
def library : Runtime := ⟨fun _ => none, serialized, fun _ => [], fun s => s⟩

/-- A message that is at least as long as its parameters. -/
def longer (j : Json) : Bool :=
  match j.entry "params" with
  | some (.string s) => decide (s.length ≤ (serialized j).length)
  | _ => true

theorem pageRuntime_writes (h : Json.Printed sent serialized) (hlonger : sent.all longer = true) :
    (pageRuntime files sent).Writes (pagePlatform files sent) where
  parse_serialize j _ := by
    show ((Json.ofText sent serialized (Json.text sent serialized j)).map Except.ok).getD _ = _
    rw [Json.ofText_text h]
    rfl
  length_params id method params := by
    show (Json.text sent serialized params).length ≤
      (Json.text sent serialized (envelope (pageRuntime files sent) id method params)).length
    have hentry : (envelope (pageRuntime files sent) id method params).entry "params" =
        some (.string (Json.text sent serialized params)) := by
      simp [envelope, pageRuntime]
    by_cases hsent : envelope (pageRuntime files sent) id method params ∈ sent
    · have hlength := List.all_eq_true.mp hlonger _ hsent
      rw [longer, hentry] at hlength
      rw [Json.text_of_mem hsent]
      exact of_decide_eq_true hlength
    · have hobject : envelope (pageRuntime files sent) id method params = .object [
          (ascii "id", jsonString id), (ascii "method", .string (ascii method)),
          (ascii "params", .string (Json.text sent serialized params)), (ascii "type", .string (ascii "request"))] := rfl
      rw [Json.text_of_not_mem hsent, hobject]
      simp only [Json.code, Json.codeEntries, Json.length_codeBytes, List.length_cons, jsonString]
      omega

/-- A message of the runtime is that of the library. -/
theorem message_sent {id : WString} {method : String} {params : Json} (hparams : params ∈ sent)
    (hsent : envelope library id method params ∈ sent) :
    message (pageRuntime files sent) id method params = serialized (envelope library id method params) := by
  have hserialize : (pageRuntime files sent).serialize params = serialized params := Json.text_of_mem hparams
  have henvelope : envelope (pageRuntime files sent) id method params = envelope library id method params := by
    rw [envelope, hserialize]
    rfl
  rw [message, henvelope]
  exact Json.text_of_mem hsent

end

/-- A configuration without a host, with a rule that blocks everything. -/
def portConfig (port : BitVec 16) : ConfigManager where
  config := { proxy := { host := [], port := port } }
  rules := [{ id := ascii "r", type := .global, action := .block, pattern := [] }]

def pageFiles : List Json := [(portConfig 3128).toJson, (portConfig 8888).toJson]

def pageEnv : PageEnv where
  now := literal "2026-01-01T00:00:00"
  ids := fun _ => literal "3f2504e0-4f89-41d3-9a0c-0305e82c3301"

/-- The page of these configurations. -/
def shownPage : ViewModel where
  rules := [{
    id := literal "r"
    type := 2
    action := 2
    pattern := []
    description := []
    priority := 0
    enabled := true
    created := pageEnv.now
    modified := pageEnv.now }]

/-- What it sends. -/
def pageSent : List Json :=
  let calls := [("set_log_level", setLogLevelParams 2), ("set_rules", setRulesParams shownPage.rules),
    ("set_config", setConfigParams shownPage)]
  calls.map (·.2) ++ calls.map fun call => envelope library (pageEnv.ids 0) call.1 call.2

theorem printed_pageFiles : Json.Printed pageFiles (·.indented 0) := .of_nodup (by decide +kernel) (by decide +kernel)

theorem printed_pageSent : Json.Printed pageSent serialized := .of_nodup (by decide +kernel) (by decide +kernel)

theorem longer_pageSent : pageSent.all longer = true := by decide +kernel

noncomputable def settingsPlatform : Platform := pagePlatform pageFiles pageSent

noncomputable def settingsRuntime : Runtime := pageRuntime pageFiles pageSent

theorem settings_rereads : settingsPlatform.Rereads := pagePlatform_rereads printed_pageFiles

theorem settings_dumps : Dumps settingsPlatform := pagePlatform_dumps

theorem settings_faithful : settingsRuntime.Faithful settingsPlatform := pageRuntime_faithful printed_pageFiles

theorem settings_writes : settingsRuntime.Writes settingsPlatform := pageRuntime_writes printed_pageSent longer_pageSent

/-- A service that was started with the configuration. -/
noncomputable def pageSession (port : BitVec 16) : Session where
  service := Service.assemble settingsPlatform (portConfig port)
  disk := some ((portConfig port).toJson.indented 0)

theorem written_portConfig (port : BitVec 16) : Written (portConfig port) where
  host := utf8_ascii (s := "") (by decide)
  username := utf8_ascii (s := "") (by decide)
  encryptedPassword := utf8_ascii (s := "") (by decide)
  schedule := utf8_ascii (by decide)
  archive_dir := utf8_ascii (s := "") (by decide)
  ids r hr := by
    rw [List.mem_singleton.mp hr]
    exact utf8_ascii (by decide)

theorem holds_pageSession (port : BitVec 16) (h : (portConfig port).toJson ∈ pageFiles) :
    Holds settingsPlatform (pageSession port) (portConfig port) where
  manager := rfl
  engine := rfl
  disk := by
    refine ⟨_, ?_, rfl⟩
    rw [settingsPlatform, pagePlatform_dump4 ((utf8_toJson_iff _).mpr (written_portConfig port)), Json.text_of_mem h]

theorem length_setLogLevel (i : Nat) :
    (message settingsRuntime (pageEnv.ids i) "set_log_level" (setLogLevelParams 2)).length < pipeBuffer := by
  have hids : pageEnv.ids i = pageEnv.ids 0 := rfl
  rw [hids, settingsRuntime, message_sent (by simp [pageSent]) (by simp [pageSent])]
  decide +kernel

theorem pageOf_portConfig (port : BitVec 16) : pageOf settingsPlatform pageEnv (portConfig port) = shownPage := by
  have hempty : widen settingsPlatform [] = [] := utf8ToWide_nil
  have hid : widen settingsPlatform (ascii "r") = literal "r" := by
    obtain ⟨h8, h16⟩ := encode_ascii (s := "r") (by decide)
    rw [widen, ← h8, utf8ToWide, decodeUtf8_encodeUtf8]
    exact h16
  have hnil : wideToUtf8 [] = [] := rfl
  simp only [pageOf, portConfig, shown, List.map_cons, List.map_nil, hempty, hid, hnil]
  rfl

end Demo

/-- With the default port, opening the page and saving it changes nothing. -/
theorem settings_unchanged_default :
    ∃ w', openAndSave Demo.settingsPlatform Demo.settingsRuntime Demo.pageEnv ((Demo.portConfig 3128).toJson.indented 0) {}
        (Demo.pageSession 3128) = some w' ∧
      Unchanged Demo.settingsPlatform (Demo.pageSession 3128) w' := by
  obtain ⟨w', hrun, hiff⟩ := settings_unchanged_iff Demo.settingsPlatform Demo.settingsRuntime Demo.settings_rereads
    Demo.settings_dumps Demo.settings_faithful Demo.settings_writes Demo.pageEnv (fun _ => ⟨rfl, rfl⟩) []
    (Demo.portConfig 3128) _ (Demo.pageSession 3128) (Demo.holds_pageSession 3128 List.mem_cons_self) rfl
    rfl Demo.length_setLogLevel
  refine ⟨w', hrun, hiff.mpr ⟨fun _ r hr => ?_, fun _ => ⟨rfl, fun h => by cases h⟩, fun _ => ⟨by decide, rfl⟩⟩⟩
  rw [List.mem_singleton.mp hr]
  have hempty : widen Demo.settingsPlatform (wideToUtf8 []) = [] := utf8ToWide_wideToUtf8 ⟨[], rfl⟩
  rw [asRead]
  simp only [hempty]
  rfl

/-- Another port becomes the default one, in the service and on disk. -/
theorem settings_port_changed :
    ∃ w', openAndSave Demo.settingsPlatform Demo.settingsRuntime Demo.pageEnv ((Demo.portConfig 8888).toJson.indented 0) {}
        (Demo.pageSession 8888) = some w' ∧
      (onDisk Demo.settingsPlatform (Demo.pageSession 8888).disk).port = 8888 ∧
      w'.service.manager.config.proxy.port = 3128 ∧ (onDisk Demo.settingsPlatform w'.disk).port = 3128 := by
  have hholds := Demo.holds_pageSession 8888 (List.mem_cons_of_mem _ List.mem_cons_self)
  have hx := Demo.settings_rereads
  obtain ⟨w', m', hrun, hsaved⟩ := openAndSave_saved Demo.settings_faithful Demo.settings_writes Demo.settings_dumps
    (e := Demo.pageEnv) (fun _ => ⟨rfl, rfl⟩) hholds rfl rfl (ViewModel.consistent_edits []) Demo.length_setLogLevel
  have htakes : TakesConfig Demo.settingsPlatform Demo.settingsRuntime Demo.pageEnv (Demo.portConfig 8888) := by
    have hids (i : Nat) : Demo.pageEnv.ids i = Demo.pageEnv.ids 0 := rfl
    rw [TakesConfig, rulesMessage, configMessage, Demo.pageOf_portConfig, hids 1, hids 2, Demo.settingsRuntime,
      Demo.message_sent (by simp [Demo.pageSent]) (by simp [Demo.pageSent]),
      Demo.message_sent (by simp [Demo.pageSent]) (by simp [Demo.pageSent])]
    decide +kernel
  have hport := (hsaved.config_taken htakes).1
  obtain ⟨text, htext, hdisk⟩ := hsaved.holds.disk
  obtain ⟨text₀, htext₀, hdisk₀⟩ := hholds.disk
  refine ⟨w', hrun, ?_, ?_, ?_⟩
  · rw [hdisk₀, onDisk_of_dump4 hx htext₀]
    rfl
  · rw [hsaved.holds.manager, hport]
  · rw [hdisk, onDisk_of_dump4 hx htext]
    exact hport

end TR.Impl.Gui
