import TcpRedirector.Proof.Service.Durable
import TcpRedirector.Proof.Service.Fields

/-!
# The port of the proxy

A `set_config` reads the port as a `uint16_t`, a load as an `int` that it
assigns to one. Both reduce the number that is given, so the port is that
number exactly if it is in range (`port_exact_iff`).
-/

namespace TR.Impl.Service

open ConfigManager

/-- What nlohmann reads an integer literal as: one that fits no 64-bit type
becomes a floating-point number. -/
def ReadsInteger (n : Int) : Json → Prop
  | .unsigned u => (u.toNat : Int) = n
  | .integer i => i.toInt = n
  | .float _ => n < -9223372036854775808 ∨ 18446744073709551616 ≤ n
  | _ => False

section

variable {x : Platform} {v : Json} {n : Int}

/-- The conversion of a `set_config`. -/
theorem getUInt16_exact_iff (hv : ReadsInteger n v) {port : BitVec 16} (h : v.getUInt16 x.toUInt16 = .ok port) :
    (port.toNat : Int) = n ↔ 0 ≤ n ∧ n ≤ 65535 := by
  have hlt := port.isLt
  cases v with
  | unsigned u =>
    cases h
    simp only [ReadsInteger] at hv
    rw [BitVec.toNat_setWidth]
    omega
  | integer i =>
    cases h
    simp only [ReadsInteger, BitVec.toInt_eq_toNat_cond] at hv
    have := i.isLt
    rw [BitVec.toNat_setWidth]
    omega
  | float bits =>
    simp only [ReadsInteger] at hv
    omega
  | _ => exact hv.elim

/-- The conversions of a load. -/
theorem getInt_exact_iff (hv : ReadsInteger n v) {port : BitVec 32} (h : v.getInt x.toInt = .ok port) :
    ((port.setWidth 16).toNat : Int) = n ↔ 0 ≤ n ∧ n ≤ 65535 := by
  have hlt := (port.setWidth 16).isLt
  cases v with
  | unsigned u =>
    cases h
    simp only [ReadsInteger] at hv
    rw [BitVec.toNat_setWidth, BitVec.toNat_setWidth]
    omega
  | integer i =>
    cases h
    simp only [ReadsInteger, BitVec.toInt_eq_toNat_cond] at hv
    have := i.isLt
    rw [BitVec.toNat_setWidth, BitVec.toNat_setWidth]
    omega
  | float bits =>
    simp only [ReadsInteger] at hv
    omega
  | _ => exact hv.elim

end

/-- A way in which the value `v` becomes the port of the proxy, and the proxy
settings after it. -/
inductive Accepted (x : Platform) (v : Json) : ProxyConfig → Prop where
  /-- A `set_config` that is answered with success. -/
  | setConfig {env : Env} {params : Bytes} {s : TcpRedirectorService} {disk : Disk} {j : Json} {a : Answered} :
      x.parse params = .ok j → j.entry "port" = some v → handle x env (.setConfig params) s disk = some a →
      a.response = success → Accepted x v (getProxyConfig x a.service.manager)
  /-- A file that is loaded. -/
  | load {write : Write} {text : Bytes} {m m' : ConfigManager} {disk : Disk} {j p : Json} :
      x.read text = .ok j → j.entry "proxy" = some p → p.entry "port" = some v →
      loadImpl x write m (some text) = ⟨some true, m', disk⟩ → Accepted x v (getProxyConfig x m')

section

variable {x : Platform}

/-- What a `set_config` that succeeds has stored. -/
theorem setConfig_succeeds {env : Env} {params : Bytes} {s : TcpRedirectorService} {disk : Disk} {a : Answered}
    (h : handle x env (.setConfig params) s disk = some a) (hsuccess : a.response = success) :
    ∃ config, configOfParams x params = .ok config ∧ a.service.manager = withProxyConfig x env.salt config s.manager := by
  simp only [handle, handle.guarded] at h
  split at h
  · cases h
    exact absurd hsuccess (failure_ne_success _)
  · rw [setConfig] at h
    cases hconfig : configOfParams x params with
    | error e =>
      rw [hconfig] at h
      cases e with
      | exception what =>
        cases h
        exact absurd hsuccess (failure_ne_success _)
      | undefined => cases h
    | ok config =>
      refine ⟨config, rfl, ?_⟩
      simp only [hconfig] at h
      split at h
      · cases h
        exact absurd hsuccess (failure_ne_success _)
      · split at h
        · cases h
          exact absurd hsuccess (failure_ne_success _)
        · cases h
          rfl

theorem port_of_configOfParams {params : Bytes} {config : ProxyConfig} {j v : Json} (hparse : x.parse params = .ok j)
    (hport : j.entry "port" = some v) (h : configOfParams x params = .ok config) :
    v.getUInt16 x.toUInt16 = .ok config.port := by
  obtain ⟨j', hj, h⟩ := Json.bind_eq_ok h
  simp only [parseParams, hparse] at hj
  cases hj
  obtain ⟨host, -, h⟩ := Json.bind_eq_ok h
  obtain ⟨port, hread, h⟩ := Json.bind_eq_ok h
  obtain ⟨auth_required, -, h⟩ := Json.bind_eq_ok h
  obtain ⟨kerberos, -, h⟩ := Json.bind_eq_ok h
  obtain ⟨login, -, h⟩ := Json.bind_eq_ok h
  obtain ⟨set_password, -, h⟩ := Json.bind_eq_ok h
  rw [Json.index_of_entry hport] at hread
  -- The password is read only if it is to be set.
  dsimp only at h
  split at h <;>
    · obtain ⟨password, -, h⟩ := Json.bind_eq_ok h
      cases h
      exact hread

/-- The value that a load assigns. -/
theorem port_of_load {write : Write} {text : Bytes} {m m' : ConfigManager} {disk : Disk} {j p v : Json}
    (hread : x.read text = .ok j) (hproxy : j.entry "proxy" = some p) (hport : p.entry "port" = some v)
    (h : loadImpl x write m (some text) = ⟨some true, m', disk⟩) :
    ∃ port, v.getInt x.toInt = .ok port ∧ m'.config.proxy.port = port.setWidth 16 := by
  have hstep : ⟨.port, (p.value (Json.getInt x.toInt) "port" (3128 : BitVec 32)).map (·.setWidth 16)⟩ ∈ loadSteps x j := by
    have hmem : ⟨.port, (p.value (Json.getInt x.toInt) "port" (3128 : BitVec 32)).map (·.setWidth 16)⟩ ∈
        sectionSteps j "proxy" (proxySteps x) := by
      rw [sectionSteps, hproxy]
      exact List.mem_cons_of_mem _ List.mem_cons_self
    simp only [loadSteps, List.mem_append, hmem, or_true, true_or]
  have hget : (p.value (Json.getInt x.toInt) "port" (3128 : BitVec 32)).map (·.setWidth 16) = .ok m'.config.proxy.port :=
    get_of_loadImpl hread h hstep
  rw [Json.value_of_entry hport] at hget
  cases hint : v.getInt x.toInt with
  | error e =>
    rw [hint] at hget
    cases hget
  | ok port =>
    rw [hint] at hget
    exact ⟨port, rfl, (Except.ok.inj hget).symm⟩

end

/-- When an integer was accepted as the port, the port is this integer exactly
if it is between 0 and 65535. -/
theorem port_exact_iff (x : Platform) (v : Json) (n : Int) (hv : ReadsInteger n v) (config : ProxyConfig)
    (h : Accepted x v config) : (config.port.toNat : Int) = n ↔ 0 ≤ n ∧ n ≤ 65535 := by
  cases h with
  | setConfig hparse hport hanswer hsuccess =>
    obtain ⟨config, hconfig, hm⟩ := setConfig_succeeds hanswer hsuccess
    have hexact := getUInt16_exact_iff hv (port_of_configOfParams hparse hport hconfig)
    rw [hm]
    exact hexact
  | load hread hproxy hport hload =>
    obtain ⟨port, hint, hm⟩ := port_of_load hread hproxy hport hload
    have hexact := getInt_exact_iff hv hint
    rw [← hm] at hexact
    exact hexact

namespace Demo

/-- `{"proxy": {"port": 65616}}`, or with another number. -/
def portFile (port : BitVec 64) : Json := .object [(ascii "proxy", .object [(ascii "port", .unsigned port)])]

theorem load_portFile (port : BitVec 64) :
    loadImpl (platform [portFile port] []) .complete {} (some ((portFile port).indented 0)) =
      ⟨some true, { config.proxy.port := (port.setWidth 32).setWidth 16 }, some ((portFile port).indented 0)⟩ := by
  have hread : (platform [portFile port] []).read ((portFile port).indented 0) = .ok (portFile port).reread := by
    simp [platform]
  exact loadImpl_of_loadJson _ hread rfl

theorem accepted_portFile (port : BitVec 64) : Accepted (platform [portFile port] []) (.unsigned port)
    (getProxyConfig (platform [portFile port] []) { config.proxy.port := (port.setWidth 32).setWidth 16 }) := by
  have hread : (platform [portFile port] []).read ((portFile port).indented 0) = .ok (portFile port).reread := by
    simp [platform]
  exact .load hread rfl rfl (load_portFile port)

/-- `{"host": "", "port": -1}`. -/
def portRequest : Json := (Json.null.set "host" (.string [])).set "port" (.integer (-1))

/-- What it leaves, from defaults. -/
def portConfig : ConfigManager where
  config := { proxy.host := [], proxy.port := 65535 }

noncomputable def portPlatform : Platform := platform [portConfig.toJson] [portRequest]

theorem parse_portRequest : portPlatform.parse portRequest.compact = .ok portRequest := by
  simp [portPlatform, platform, JsonText.reading]

theorem handle_portRequest :
    handle portPlatform {} (.setConfig portRequest.compact) (assemble portPlatform {}) none =
      some ⟨success, { assemble portPlatform {} with manager := portConfig }, some (portConfig.toJson.indented 0)⟩ := by
  have hsize : ¬ MAX_IPC_MESSAGE_SIZE < portRequest.compact.length := by decide
  have hconfig : configOfParams portPlatform portRequest.compact = .ok { port := 65535 } := by
    have hempty : widen portPlatform [] = [] := utf8ToWide_nil
    rw [configOfParams, parseParams, parse_portRequest]
    show Except.ok _ = _
    rw [hempty]
    rfl
  have hmanager : withProxyConfig portPlatform [] { port := 65535 } (assemble portPlatform {}).manager = portConfig := by
    have hempty : wideToUtf8 [] = [] := rfl
    rw [withProxyConfig, hempty]
    rfl
  have hsave (disk : Disk) : saveImpl portPlatform .complete portConfig disk = (true, some (portConfig.toJson.indented 0)) := by
    have hdump : portPlatform.dump4 portConfig.toJson = .ok (portConfig.toJson.indented 0) := platform_dump4
    simp only [saveImpl, hdump, Write.written]
  simp only [handle, handle.guarded, if_neg hsize, setConfig, hconfig, hmanager, hsave]
  rfl

end Demo

/-- The usual port is taken as it is. -/
theorem port_exact_3128 :
    ∃ config, Accepted (Demo.platform [Demo.portFile 3128] []) (.unsigned 3128) config ∧ (config.port.toNat : Int) = 3128 :=
  ⟨_, Demo.accepted_portFile 3128, (port_exact_iff _ (.unsigned 3128) 3128 rfl _ (Demo.accepted_portFile 3128)).mpr
    (by decide)⟩

/-- A request for -1 gives the port 65535, a file with 65616 the port 80. -/
theorem port_reduced :
    (∃ config, Accepted Demo.portPlatform (.integer (-1)) config ∧ ReadsInteger (-1) (.integer (-1)) ∧
      (config.port.toNat : Int) ≠ -1 ∧ config.port = 65535) ∧
    ∃ config, Accepted (Demo.platform [Demo.portFile 65616] []) (.unsigned 65616) config ∧
      ReadsInteger 65616 (.unsigned 65616) ∧ (config.port.toNat : Int) ≠ 65616 ∧ config.port = 80 := by
  refine ⟨⟨_, .setConfig Demo.parse_portRequest rfl Demo.handle_portRequest rfl, rfl, ?_, rfl⟩,
    _, Demo.accepted_portFile 65616, rfl, ?_, rfl⟩
  · decide
  · decide

end TR.Impl.Service
