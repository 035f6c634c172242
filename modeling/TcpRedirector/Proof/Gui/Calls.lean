import TcpRedirector.Proof.Gui.Page

/-!
# The calls of the page

What each of the three calls leaves, in a service whose file is that of its
configuration (`Holds`). A call whose message fits into the buffer is answered
with success, and the file is that of the new configuration again.
-/

namespace TR.Impl.Gui

open Service (TcpRedirectorService Env Disk Platform ConfigManager handle)
open Service.ConfigManager

/-! ## Strings of a configuration -/

/-- The strings that are written as they are. -/
structure Written (m : ConfigManager) : Prop where
  host : Utf8 m.config.proxy.host
  username : Utf8 m.config.auth.username
  encryptedPassword : Utf8 m.config.auth.encryptedPassword
  schedule : Utf8 m.config.log_rotation.schedule
  archive_dir : Utf8 m.config.log_rotation.archive_dir
  ids : ∀ r ∈ m.rules, Utf8 r.id

theorem utf8_toJson_iff (m : ConfigManager) : m.toJson.Utf8 ↔ Written m := by
  obtain ⟨-, hproxy, hauth, -, -, hrotation, hrules⟩ := toJson_sections m
  constructor
  · intro h
    have hstring {o k : String} {v : Json} {s : Bytes} (ho : m.toJson.entry o = some v) (hk : v.entry k = some (.string s)) :
        Utf8 s := by
      cases (h.of_entry ho).of_entry hk with
      | string hs => exact hs
    refine ⟨hstring hproxy (k := "host") ?_, hstring hauth (k := "username") ?_, hstring hauth (k := "encryptedPassword") ?_,
      hstring hrotation (k := "schedule") ?_, hstring hrotation (k := "archive_dir") ?_, fun r hr => ?_⟩
    · simp (disch := decide) [proxyJson, Json.entry_set_of_ne]
    · simp (disch := decide) [authJson, Json.entry_set_of_ne]
    · simp (disch := decide) [authJson, Json.entry_set_of_ne]
    · simp (disch := decide) [logRotationJson, Json.entry_set_of_ne]
    · simp (disch := decide) [logRotationJson, Json.entry_set_of_ne]
    · obtain ⟨hid, -⟩ := ruleToJson_entries r
      cases ((h.of_entry hrules).elements _ (List.mem_map_of_mem hr)).of_entry hid with
      | string hs => exact hs
  · intro h
    have hint (n : BitVec 32) : (Service.ConfigManager.jsonInt n).Utf8 := .integer
    have happ : (appJson m.config).Utf8 := Json.Utf8.null.set (by decide) (.string (utf8_wideToUtf8 _))
    have hproxy : (proxyJson m.config).Utf8 :=
      ((Json.Utf8.null.set (by decide) (.string h.host)).set (by decide) .unsigned).set (by decide) .boolean
    have hauth : (authJson m.config).Utf8 :=
      (((Json.Utf8.null.set (by decide) .boolean).set (by decide) (.string h.username)).set (by decide)
        (.string h.encryptedPassword)).set (by decide) .boolean
    have hlog : (logJson m.config).Utf8 :=
      ((Json.Utf8.null.set (by decide) (hint _)).set (by decide) .boolean).set (by decide) (hint _)
    have hrotation : (logRotationJson m.config).Utf8 :=
      ((((((Json.Utf8.null.set (by decide) .boolean).set (by decide) (.string h.schedule)).set (by decide) (hint _)).set
        (by decide) (hint _)).set (by decide) (hint _)).set (by decide) (.string h.archive_dir)).set (by decide) .boolean
    have hstats : (statsJson m.config).Utf8 := Json.Utf8.null.set (by decide) (hint _)
    have hname (r : TR.Impl.Rule) : Utf8 (ruleTypeName r.type) ∧ Utf8 (ruleActionName r.action) := by
      constructor
      · cases r.type <;> exact utf8_ascii (by decide)
      · cases r.action <;> exact utf8_ascii (by decide)
    have hrule (r : TR.Impl.Rule) (hr : r ∈ m.rules) : (ruleToJson r).Utf8 :=
      ((((((Json.Utf8.null.set (by decide) (.string (h.ids r hr))).set (by decide) (.string (utf8_wideToUtf8 _))).set
        (by decide) (.string (utf8_wideToUtf8 _))).set (by decide) (hint _)).set (by decide) .boolean).set (by decide)
        (.string (hname r).1)).set (by decide) (.string (hname r).2)
    have hrules : (rulesToJson m.rules).Utf8 := by
      refine .array fun j hj => ?_
      obtain ⟨r, hr, rfl⟩ := List.mem_map.mp hj
      exact hrule r hr
    rw [toJson_eq]
    exact ((((((Json.Utf8.null.set (by decide) happ).set (by decide) hproxy).set (by decide) hauth).set (by decide) hlog).set
      (by decide) hrotation).set (by decide) hstats).set (by decide) hrules

/-! ## Messages -/

/-- What the page sends. -/
inductive Sent (g : Runtime) : Json → Prop
  | config (vm : ViewModel) : Sent g (setConfigParams vm)
  | rules (rules : List Rule) : Sent g (setRulesParams rules)
  | logLevel (level : BitVec 32) : Sent g (setLogLevelParams level)
  | setConfig (id : WString) (vm : ViewModel) : Sent g (envelope g id "set_config" (setConfigParams vm))
  | setRules (id : WString) (rules : List Rule) : Sent g (envelope g id "set_rules" (setRulesParams rules))
  | setLogLevel (id : WString) (level : BitVec 32) : Sent g (envelope g id "set_log_level" (setLogLevelParams level))

/-- The service reads what the page writes. The parameters are a part of the message. -/
structure Runtime.Writes (g : Runtime) (x : Platform) : Prop where
  parse_serialize : ∀ j, Sent g j → x.parse (g.serialize j) = .ok j.reread
  length_params : ∀ id method params, (g.serialize params).length ≤ (g.serialize (envelope g id method params)).length

/-- The message of a call. -/
def message (g : Runtime) (id : WString) (method : String) (params : Json) : Bytes :=
  g.serialize (envelope g id method params)

section

variable {g : Runtime} {x : Platform} {env : Env} {id : WString} {w : Session} {m : ConfigManager}

/-- A message that fits into the buffer reaches its handler. -/
theorem call_eq (hg : g.Writes x) (env : Env) {method : String} {params : Json} {r : Service.Request}
    (hsent : Sent g (envelope g id method params)) (hr : requestOf (ascii method) (g.serialize params) = some r)
    (hw : w.connected = true) (hfits : (message g id method params).length < pipeBuffer) :
    call x g env id method params w = (handle x env r w.service w.disk).map fun a =>
      (isSuccess a.response, { w with service := a.service, disk := a.disk }) := by
  have hmethod : (envelope g id method params).reread.value Json.getString "method" [] = .ok (ascii method) :=
    value_reread (v := .string (ascii method)) (by simp (disch := decide) [envelope, Json.entry_set_of_ne]) rfl
  have hparams : (envelope g id method params).reread.value Json.getString "params" [] = .ok (g.serialize params) :=
    value_reread (v := .string (g.serialize params)) (by simp [envelope]) rfl
  rw [message] at hfits
  rw [call, if_pos hw, serveRequest, if_neg (by omega), if_neg (by omega), hg.parse_serialize _ hsent]
  simp only [hmethod, hparams, hr, bind, Except.bind, pure, Except.pure]
  cases handle x env r w.service w.disk <;> rfl

/-- One that does not fit is rejected. -/
theorem call_of_le (x : Platform) (env : Env) (w : Session) {method : String} {params : Json}
    (hlong : pipeBuffer ≤ (message g id method params).length) :
    ∃ connected, call x g env id method params w = some (false, { w with connected := connected }) ∧
      (connected = true ↔ w.connected = true ∧ (message g id method params).length ≤ pipeBuffer) := by
  rw [message] at hlong ⊢
  rw [call]
  split
  next hw =>
    rw [serveRequest]
    split
    next hlt => exact ⟨false, rfl, by simp; omega⟩
    next hlt =>
      rw [if_pos (by omega)]
      exact ⟨w.connected, rfl, by simp [hw]; omega⟩
  next hw => exact ⟨w.connected, rfl, by simp [hw]⟩

/-! ## Reading the parameters -/

theorem parseParams_serialize (hg : g.Writes x) {j : Json} (h : Sent g j) :
    Service.parseParams x (g.serialize j) = .ok j.reread := by
  rw [Service.parseParams, hg.parse_serialize j h]

/-- The configuration that the service receives. -/
def receivedConfig (x : Platform) (vm : ViewModel) : Service.ProxyConfig where
  host := widen x (wideToUtf8 vm.host)
  port := vm.port.setWidth 16
  auth_required := vm.authRequired || vm.kerberosEnabled
  kerberos_auth := vm.kerberosEnabled
  login := widen x (wideToUtf8 vm.login)
  has_password := !vm.password.isEmpty
  plain_password := if !vm.password.isEmpty then widen x (wideToUtf8 vm.password) else []

theorem configOfParams_serialize (hg : g.Writes x) (vm : ViewModel) :
    Service.configOfParams x (g.serialize (setConfigParams vm)) = .ok (receivedConfig x vm) := by
  obtain ⟨hhost, hport, hauth, hkerberos, hlogin, hset, hpassword⟩ :
      (setConfigParams vm).entry "host" = some (jsonString vm.host) ∧
      (setConfigParams vm).entry "port" = some (jsonInt vm.port) ∧
      (setConfigParams vm).entry "auth_required" = some (.boolean vm.authRequired) ∧
      (setConfigParams vm).entry "kerberos" = some (.boolean vm.kerberosEnabled) ∧
      (setConfigParams vm).entry "login" = some (jsonString vm.login) ∧
      (setConfigParams vm).entry "set_password" = some (.boolean !vm.password.isEmpty) ∧
      (setConfigParams vm).entry "password" = some (jsonString vm.password) := by
    simp (disch := decide) [setConfigParams, Json.entry_set_of_ne]
  rw [Service.configOfParams, parseParams_serialize hg (.config vm)]
  simp only [bind, Except.bind, Json.index_of_entry (Json.entry_reread_of_entry hhost),
    Json.index_of_entry (Json.entry_reread_of_entry hport), value_reread hauth (Json.getBool_reread _),
    value_reread hkerberos (Json.getBool_reread _), value_reread hlogin (Json.getString_reread _),
    value_reread hset (Json.getBool_reread _), value_reread hpassword (Json.getString_reread _), jsonInt,
    Json.getUInt16_reread_integer, jsonString, Json.getString_reread]
  rw [receivedConfig]
  split <;> rfl

/-- The rule that it receives. -/
def receivedRule (x : Platform) (r : Rule) : TR.Impl.Rule where
  id := wideToUtf8 r.id
  type := .ofInt r.type
  action := .ofInt r.action
  pattern := widen x (wideToUtf8 r.pattern)
  description := widen x (wideToUtf8 r.description)
  priority := r.priority
  enabled := r.enabled

theorem ruleOfParams_reread (r : Rule) : Service.ruleOfParams x (ruleParams r).reread = .ok (receivedRule x r) := by
  obtain ⟨hid, htype, haction, hpattern, hdescription, hpriority, henabled⟩ :
      (ruleParams r).entry "id" = some (jsonString r.id) ∧ (ruleParams r).entry "type" = some (jsonInt r.type) ∧
      (ruleParams r).entry "action" = some (jsonInt r.action) ∧ (ruleParams r).entry "pattern" =
        some (jsonString r.pattern) ∧
      (ruleParams r).entry "description" = some (jsonString r.description) ∧
      (ruleParams r).entry "priority" = some (jsonInt r.priority) ∧
      (ruleParams r).entry "enabled" = some (.boolean r.enabled) := by
    simp (disch := decide) [ruleParams, Json.entry_set_of_ne]
  rw [Service.ruleOfParams, value_reread hid (Json.getString_reread _),
    Json.constIndex_of_entry (Json.entry_reread_of_entry hpattern), value_reread hdescription (Json.getString_reread _),
    value_reread hpriority (Json.getInt_reread_integer _ _), value_reread henabled (Json.getBool_reread _),
    value_reread htype (Json.getInt_reread_integer _ _), value_reread haction (Json.getInt_reread_integer _ _)]
  rfl

theorem rulesOfParams_serialize (hg : g.Writes x) (rules : List Rule) :
    Service.rulesOfParams x (g.serialize (setRulesParams rules)) = .ok (rules.map (receivedRule x)) := by
  have hrules : (setRulesParams rules).entry "rules" = some (.array (rules.map ruleParams)) := Json.entry_set_self ..
  rw [Service.rulesOfParams, parseParams_serialize hg (.rules rules)]
  simp only [bind, Except.bind, Json.index_of_entry (Json.entry_reread_of_entry hrules)]
  rw [Json.reread, Json.elements, Json.rereadElements_eq_map, List.map_map, List.mapM_map]
  exact mapM_eq_map fun r _ => ruleOfParams_reread r

theorem levelOfParams_serialize (hg : g.Writes x) (level : BitVec 32) :
    Service.levelOfParams x (g.serialize (setLogLevelParams level)) = .ok level := by
  have hlevel : (setLogLevelParams level).entry "level" = some (jsonInt level) := Json.entry_set_self ..
  rw [Service.levelOfParams, parseParams_serialize hg (.logLevel level)]
  simp only [bind, Except.bind, Json.index_of_entry (Json.entry_reread_of_entry hlevel), jsonInt, Json.getInt_reread_integer]

/-! ## What the calls leave -/

/-- The service has this configuration, and so has its file. -/
structure Holds (x : Platform) (w : Session) (m : ConfigManager) : Prop where
  manager : w.service.manager = m
  engine : w.service.engine = x.sort m.rules
  disk : ∃ text, x.dump4 m.toJson = .ok text ∧ w.disk = some text

/-- The file can be written during a call. -/
def Writable (env : Env) : Prop := env.first = .complete ∧ env.second = .complete

theorem Holds.written (hd : Dumps x) (h : Holds x w m) : Written m := by
  obtain ⟨text, htext, -⟩ := h.disk
  exact (utf8_toJson_iff m).mp (hd.utf8_of_dump4 _ _ htext)

theorem saveImpl_of_written (hd : Dumps x) (h : Written m) :
    ∃ text, x.dump4 m.toJson = .ok text ∧ ∀ disk, saveImpl x .complete m disk = (true, some text) := by
  obtain ⟨text, htext⟩ := hd.dump4_of_utf8 _ ((utf8_toJson_iff m).mpr h)
  exact saveImpl_of_persists ⟨text, htext, rfl⟩

theorem isSuccess_success : isSuccess Service.success = true := by decide

theorem params_le (hg : g.Writes x) {method : String} {params : Json}
    (hfits : (message g id method params).length < pipeBuffer) :
    ¬ Service.MAX_IPC_MESSAGE_SIZE < (g.serialize params).length := by
  have hle := hg.length_params id method params
  rw [message, pipeBuffer] at hfits
  rw [Service.MAX_IPC_MESSAGE_SIZE]
  omega

theorem call_setLogLevel (hg : g.Writes x) (hd : Dumps x) (henv : Writable env) (h : Holds x w m) {level : BitVec 32}
    (hw : w.connected = true) (hfits : (message g id "set_log_level" (setLogLevelParams level)).length < pipeBuffer) :
    ∃ w', call x g env id "set_log_level" (setLogLevelParams level) w = some (true, w') ∧ Holds x w' (withLogLevel level m) ∧
      w'.service.logLevel = level ∧ w'.connected = true := by
  have hwritten := h.written hd
  obtain ⟨text, htext, hsave⟩ := saveImpl_of_written (m := withLogLevel level m) hd
    ⟨hwritten.host, hwritten.username, hwritten.encryptedPassword, hwritten.schedule, hwritten.archive_dir, hwritten.ids⟩
  have hhandle : handle x env (.setLogLevel (g.serialize (setLogLevelParams level))) w.service w.disk =
      some ⟨Service.success, { w.service with logLevel := level, manager := withLogLevel level m }, some text⟩ := by
    simp only [handle, handle.guarded, if_neg (params_le hg hfits), Service.setLogLevel, levelOfParams_serialize hg,
      h.manager,
      henv.1, henv.2, hsave]
  have hcall := call_eq (r := .setLogLevel _) hg env (.setLogLevel id level) rfl hw hfits
  rw [hhandle, Option.map_some, isSuccess_success] at hcall
  exact ⟨_, hcall, ⟨rfl, h.engine, text, htext, rfl⟩, rfl, hw⟩

theorem call_setRules (hg : g.Writes x) (hd : Dumps x) (henv : Writable env) (h : Holds x w m) {rules : List Rule}
    (hw : w.connected = true) (hfits : (message g id "set_rules" (setRulesParams rules)).length < pipeBuffer) :
    ∃ w', call x g env id "set_rules" (setRulesParams rules) w = some (true, w') ∧
      Holds x w' { m with rules := rules.map (receivedRule x) } ∧ w'.service.logLevel = w.service.logLevel ∧
      w'.connected = true := by
  have hwritten := h.written hd
  have hids : ∀ r ∈ rules.map (receivedRule x), Utf8 r.id := by
    intro r hr
    obtain ⟨r, -, rfl⟩ := List.mem_map.mp hr
    exact utf8_wideToUtf8 _
  obtain ⟨text, htext, hsave⟩ := saveImpl_of_written (m := { m with rules := rules.map (receivedRule x) }) hd
    ⟨hwritten.host, hwritten.username, hwritten.encryptedPassword, hwritten.schedule, hwritten.archive_dir, hids⟩
  have hhandle : handle x env (.setRules (g.serialize (setRulesParams rules))) w.service w.disk =
      some ⟨Service.success, { w.service with
        engine := x.sort (rules.map (receivedRule x)), manager := { m with rules := rules.map (receivedRule x) } },
        some text⟩ := by
    simp only [handle, handle.guarded, if_neg (params_le hg hfits), Service.setRules, rulesOfParams_serialize hg, h.manager,
      henv.1, hsave]
  have hcall := call_eq (r := .setRules _) hg env (.setRules id rules) rfl hw hfits
  rw [hhandle, Option.map_some, isSuccess_success] at hcall
  exact ⟨_, hcall, ⟨rfl, rfl, text, htext, rfl⟩, rfl, hw⟩

theorem call_setConfig (hg : g.Writes x) (hd : Dumps x) (henv : Writable env) (h : Holds x w m) {vm : ViewModel}
    (hw : w.connected = true) (hpassword : vm.password = [])
    (hfits : (message g id "set_config" (setConfigParams vm)).length < pipeBuffer) :
    ∃ w', call x g env id "set_config" (setConfigParams vm) w = some (true, w') ∧
      Holds x w' (withProxyConfig x env.salt (receivedConfig x vm) m) ∧ w'.service.logLevel = w.service.logLevel ∧
      w'.connected = true := by
  have hwritten := h.written hd
  have hkept : (withProxyConfig x env.salt (receivedConfig x vm) m).config.auth.encryptedPassword =
      m.config.auth.encryptedPassword := by simp [withProxyConfig, receivedConfig, hpassword]
  obtain ⟨text, htext, hsave⟩ := saveImpl_of_written (m := withProxyConfig x env.salt (receivedConfig x vm) m) hd
    ⟨utf8_wideToUtf8 _, utf8_wideToUtf8 _, hkept ▸ hwritten.encryptedPassword, hwritten.schedule, hwritten.archive_dir,
      hwritten.ids⟩
  have hhandle : handle x env (.setConfig (g.serialize (setConfigParams vm))) w.service w.disk =
      some ⟨Service.success, { w.service with manager := withProxyConfig x env.salt (receivedConfig x vm) m },
        some text⟩ := by
    simp [handle, handle.guarded, if_neg (params_le hg hfits), Service.setConfig, configOfParams_serialize hg, h.manager,
      henv.1, henv.2, hsave]
  have hcall := call_eq (r := .setConfig _) hg env (.setConfig id vm) rfl hw hfits
  rw [hhandle, Option.map_some, isSuccess_success] at hcall
  exact ⟨_, hcall, ⟨rfl, h.engine, text, htext, rfl⟩, rfl, hw⟩

end

end TR.Impl.Gui
