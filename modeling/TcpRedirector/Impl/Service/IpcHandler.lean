import TcpRedirector.Impl.Capture.State
import TcpRedirector.Impl.Relay.Calls
import TcpRedirector.Impl.Service.ConfigManager

/-!
# The service and its requests

`Initialize` and the reload callback of `ServiceMain.h`, as far as they pass
the configuration on, and the requests of `IpcHandler.h` that change it. The
capture starts and the pipe is there.
-/

namespace TR.Impl.Service

open ConfigManager

/-- A provider that `Initialize` makes. -/
inductive AuthProvider where
  | kerberosAgent
  | basic (username password : Bytes)
  deriving Repr, DecidableEq

/-- `GetType`. -/
def AuthProvider.type : AuthProvider → AuthProviderType
  | .kerberosAgent => .kerberosAgent
  | .basic _ _ => .basic

/-- The objects that the configuration reaches. -/
structure TcpRedirectorService where
  manager : ConfigManager
  /-- `m_rules` of the rule engine. -/
  engine : List Rule
  relay : Relay
  capture : Capture
  authProvider : Option AuthProvider := none
  fallbackAuthProvider : Option AuthProvider := none
  /-- The logger's level. -/
  logLevel : BitVec 32 := 2

/-- What happens outside during a request. -/
structure Env where
  /-- What becomes of the request's first save. -/
  first : Write := .complete
  /-- What becomes of its second. -/
  second : Write := .complete
  /-- The random numbers that `CryptProtectData` takes. -/
  salt : Bytes := []

/-- `SetProxyConfig` of the relay. -/
def setRelayProxyConfig (config : ProxyConfig) (r : Relay) : Relay :=
  { r with proxyHost := wideToUtf8 config.host, proxyPort := config.port, proxyAuthRequired := config.auth_required }

/-- `SetProxyConfig` of the capture. -/
def setCaptureProxyConfig (config : ProxyConfig) (c : Capture) : Capture :=
  { c with proxyHost := wideToUtf8 config.host, proxyPort := config.port }

section

variable (x : Platform)

/-! ## Starting -/

/-- The provider of a new service, and the one it falls back on. -/
def makeProviders (m : ConfigManager) : Option AuthProvider × Option AuthProvider :=
  let cfg := m.config
  if cfg.auth.enabled then
    let authMode := cfg.auth.authMode
    let provider : Option AuthProvider :=
      if authMode = .kerberosOnly ∨ authMode = .kerberosPreferred then some .kerberosAgent else none
    if authMode = .basicOnly ∨ authMode = .kerberosPreferred ∧ provider.isNone then
      let basic := AuthProvider.basic cfg.auth.username (wideToUtf8 (getProxyConfig x m).plain_password)
      if provider.isNone then (some basic, none) else (provider, some basic)
    else (provider, none)
  else (none, none)

/-- The proxy that `Initialize` passes on. -/
def initialProxyConfig (m : ConfigManager) : ProxyConfig :=
  let proxyCfg := getProxyConfig x m
  let cfg := m.config
  if proxyCfg.host.isEmpty then
    { proxyCfg with
      host := widen x cfg.proxy.host
      port := cfg.proxy.port
      auth_required := cfg.auth.enabled
      kerberos_auth := cfg.auth.kerberos
      login := widen x cfg.auth.username }
  else proxyCfg

/-- The service around a configuration that was loaded. -/
def assemble (m : ConfigManager) : TcpRedirectorService :=
  let proxyCfg := initialProxyConfig x m
  let (provider, fallback) := makeProviders x m
  { manager := m
    engine := x.sort m.rules
    relay := setRelayProxyConfig proxyCfg ⟨[], 0, false, provider.map (·.type), true⟩
    capture := setCaptureProxyConfig proxyCfg {}
    authProvider := provider
    fallbackAuthProvider := fallback }

/-- `Initialize`. A configuration that cannot be loaded is only warned about. -/
def start (env : Env) (disk : Disk) : Option (TcpRedirectorService × Disk) :=
  match loadImpl x env.first {} disk with
  | ⟨none, _, _⟩ => none
  | ⟨some _, m, disk⟩ => some (assemble x m, disk)

/-! ## Reloading -/

/-- The part of the reload callback after a successful load. -/
def applyConfig (s : TcpRedirectorService) : TcpRedirectorService :=
  let proxyCfg := getProxyConfig x s.manager
  let s := { s with
    engine := x.sort s.manager.rules
    capture := setCaptureProxyConfig proxyCfg s.capture
    relay := setRelayProxyConfig proxyCfg s.relay }
  let cfg := s.manager.config
  if cfg.auth.enabled then
    if cfg.auth.authMode = .kerberosOnly ∨ cfg.auth.authMode = .kerberosPreferred then
      if s.authProvider.map (·.type) ≠ some .kerberosAgent then
        { s with authProvider := some .kerberosAgent, relay.authProvider := some .kerberosAgent }
      else s
    else s
  else s

/-! ## Requests -/

/-- What a request leaves: its response, the service and the file. -/
structure Answered where
  response : Json
  service : TcpRedirectorService
  disk : Disk

def success : Json := Json.null.set "status" (.string (ascii "success"))

def failure (error : Bytes) : Json := (Json.null.set "status" (.string (ascii "error"))).set "error" (.string error)

/-- An exception that `Handle` catches; undefined behaviour has no answer. -/
def caught (s : TcpRedirectorService) (disk : Disk) : JsonFault → Option Answered
  | .exception what => some ⟨failure what, s, disk⟩
  | .undefined => none

/-- `nlohmann::json::parse`. -/
def parseParams (params : Bytes) : Except JsonFault Json :=
  match x.parse params with
  | .ok j => .ok j
  | .error what => .error (.exception what)

/-- What `SetConfig` reads. -/
def configOfParams (params : Bytes) : Except JsonFault ProxyConfig := do
  let j ← parseParams x params
  let host ← j.index "host" >>= Json.getString
  let port ← j.index "port" >>= Json.getUInt16 x.toUInt16
  let auth_required ← j.value Json.getBool "auth_required" false
  let kerberos ← j.value Json.getBool "kerberos" false
  let login ← j.value Json.getString "login" []
  let set_password ← j.value Json.getBool "set_password" false
  let password ← if set_password then j.value Json.getString "password" [] else pure []
  pure {
    host := widen x host
    port := port
    auth_required := auth_required || kerberos
    kerberos_auth := kerberos
    login := widen x login
    has_password := set_password
    plain_password := if set_password then widen x password else [] }

/-- `SetConfig`. -/
def setConfig (env : Env) (params : Bytes) (s : TcpRedirectorService) (disk : Disk) : Option Answered :=
  match configOfParams x params with
  | .error e => caught s disk e
  | .ok config =>
    let s := { s with manager := withProxyConfig x env.salt config s.manager }
    let (saved, disk) := saveImpl x env.first s.manager disk
    if !saved then some ⟨failure (ascii "failed to save proxy config"), s, disk⟩
    else
      let (saved, disk) := saveImpl x env.second s.manager disk
      if !saved then some ⟨failure (ascii "failed to persist config"), s, disk⟩ else some ⟨success, s, disk⟩

/-- The body of the loop in `SetRules`. -/
def ruleOfParams (r : Json) : Except JsonFault Rule := do
  let id ← r.value Json.getString "id" []
  let pattern ← r.constIndex "pattern" >>= Json.getString
  let description ← r.value Json.getString "description" []
  let priority ← r.value (Json.getInt x.toInt) "priority" 0
  let enabled ← r.value Json.getBool "enabled" true
  let type ← r.value (Json.getInt x.toInt) "type" 0
  let action ← r.value (Json.getInt x.toInt) "action" 0
  pure {
    id := id
    pattern := widen x pattern
    description := widen x description
    priority := priority
    enabled := enabled
    type := .ofInt type
    action := .ofInt action }

/-- What `SetRules` reads. -/
def rulesOfParams (params : Bytes) : Except JsonFault (List Rule) := do
  let j ← parseParams x params
  let rules ← j.index "rules"
  rules.elements.mapM (ruleOfParams x)

/-- `SetRules`, which does not look at the result of the save. -/
def setRules (env : Env) (params : Bytes) (s : TcpRedirectorService) (disk : Disk) : Option Answered :=
  match rulesOfParams x params with
  | .error e => caught s disk e
  | .ok rules =>
    let s := { s with engine := x.sort rules, manager.rules := rules }
    some ⟨success, s, (saveImpl x env.first s.manager disk).2⟩

/-- What `SetLogLevel` reads. -/
def levelOfParams (params : Bytes) : Except JsonFault (BitVec 32) := do
  let j ← parseParams x params
  j.index "level" >>= Json.getInt x.toInt

/-- `SetLogLevel`, which does not look at the results of its saves. -/
def setLogLevel (env : Env) (params : Bytes) (s : TcpRedirectorService) (disk : Disk) : Option Answered :=
  match levelOfParams x params with
  | .error e => caught s disk e
  | .ok level =>
    let s := { s with logLevel := level, manager := withLogLevel level s.manager }
    let disk := (saveImpl x env.first s.manager disk).2
    some ⟨success, s, (saveImpl x env.second s.manager disk).2⟩

/-- `ReloadConfig`. A load that fails keeps what it has assigned. -/
def reloadConfig (env : Env) (s : TcpRedirectorService) (disk : Disk) : Option Answered :=
  match loadImpl x env.first s.manager disk with
  | ⟨none, _, _⟩ => none
  | ⟨some false, m, disk⟩ => some ⟨failure (ascii "reload_failed"), { s with manager := m }, disk⟩
  | ⟨some true, m, disk⟩ => some ⟨success, applyConfig x { s with manager := m }, disk⟩

/-- The methods that change the configuration, with their parameters. -/
inductive Request where
  | setConfig (params : Bytes)
  | setRules (params : Bytes)
  | setLogLevel (params : Bytes)
  | reloadConfig
  deriving Repr, DecidableEq

def MAX_IPC_MESSAGE_SIZE : Nat := 1048576

/-- `Handle`, for these methods. -/
def handle (env : Env) (r : Request) (s : TcpRedirectorService) (disk : Disk) : Option Answered :=
  match r with
  | .setConfig params => guarded params (setConfig x env params s disk)
  | .setRules params => guarded params (setRules x env params s disk)
  | .setLogLevel params => guarded params (setLogLevel x env params s disk)
  | .reloadConfig => reloadConfig x env s disk
where
  -- Oversized parameters are rejected before they are parsed.
  guarded (params : Bytes) (answered : Option Answered) : Option Answered :=
    if MAX_IPC_MESSAGE_SIZE < params.length then some ⟨failure (ascii "message_too_large"), s, disk⟩ else answered

end

end TR.Impl.Service
