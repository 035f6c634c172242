import TcpRedirector.Impl.Gui.Config

/-!
# The queries of the GUI

What the queries of `IpcClient.cs` make of a reply. None stands for an
exception that leaves the method, so that a result that may be null is an
option of an option.
-/

namespace TR.Impl.Gui

/-- `ProxyConfig`, up to the password and the path, which no query sets. -/
structure ProxyConfig where
  host : WString := literal "proxy.example.com"
  port : BitVec 32 := 3128
  authRequired : Bool := false
  login : WString := []
  hasPassword : Bool := false
  kerberosEnabled : Bool := false
  deriving Repr, DecidableEq

/-- `Rule`, up to its two dates, which no query sets. -/
structure RuleRecord where
  id : WString
  pattern : WString
  description : WString
  priority : BitVec 32
  enabled : Bool
  type : BitVec 32
  action : BitVec 32
  deriving Repr, DecidableEq

structure ConnectionRecord where
  id : BitVec 64
  pid : BitVec 32
  processName : WString
  destinationHost : WString
  destinationIp : WString
  destinationPort : BitVec 16
  rxBytes : BitVec 64
  txBytes : BitVec 64
  durationMs : BitVec 64
  state : BitVec 32
  proxyEnabled : Bool
  deriving Repr, DecidableEq

structure LogEntry where
  /-- In units of 100 ns since 1970. -/
  timestamp : Int
  level : BitVec 32
  logger : WString
  message : WString
  deriving Repr, DecidableEq

structure ServiceStats where
  activeConnections : BitVec 32
  totalRxBytes : BitVec 64
  totalTxBytes : BitVec 64
  proxyErrors : BitVec 64
  /-- By its bits. -/
  avgLatencyMs : BitVec 64
  uptimeSeconds : BitVec 64
  deriving Repr, DecidableEq

structure ServiceStatus where
  running : Bool := false
  initialized : Bool := false
  driverLoaded : Bool := false
  captureEnabled : Bool := false
  activeConnections : BitVec 32 := 0
  relayConnections : BitVec 32 := 0
  version : WString := []
  deriving Repr, DecidableEq

/-! ## `JsonElement` -/

/-- `TryGetProperty`, which throws on what is no object. -/
def tryGetProperty (e : Json) (name : String) : Option (Option Json) :=
  match e with
  | .object l => some (Json.lookup (ascii name) l)
  | _ => none

/-- `GetProperty`, which throws if there is no such property. -/
def getProperty (e : Json) (name : String) : Option Json := (tryGetProperty e name).bind id

/-- An unsigned number of `w` bits. -/
def getUnsigned (w : Nat) : Json → Option (BitVec w)
  | .unsigned n => if n.toNat < 2 ^ w then some (n.setWidth w) else none
  | .integer n => if n.msb = false ∧ n.toNat < 2 ^ w then some (n.setWidth w) else none
  | _ => none

def getUInt16 : Json → Option (BitVec 16) := getUnsigned 16

def getUInt32 : Json → Option (BitVec 32) := getUnsigned 32

def getUInt64 : Json → Option (BitVec 64) := getUnsigned 64

section

variable (g : Runtime)

/-- `GetString() ?? ""`. -/
def getStringOrEmpty : Json → Option WString
  | .string s => some (g.decode s)
  | .null => some []
  | _ => none

/-- `GetString() == s`. -/
def isString (s : String) : Json → Option Bool
  | .string t => some (g.decode t == literal s)
  | .null => some false
  | _ => none

/-- `GetDouble`; `double` rounds an integer. -/
def getDouble (double : Int → BitVec 64) : Json → Option (BitVec 64)
  | .float bits => some bits
  | .unsigned n => some (double n.toNat)
  | .integer n => some (double n.toInt)
  | _ => none

/-! ## The queries -/

/-- `r?.TryGetProperty("data", out var d) != true` returns `absent`. -/
def withData {α : Type} (r : Option Json) (absent : α) (f : Json → Option α) : Option α :=
  match r with
  | none => some absent
  | some r =>
    match tryGetProperty r "data" with
    | none => none
    | some none => some absent
    | some (some d) => f d

/-- The list `d.key`, where every element is read. -/
def listOf {α : Type} (r : Option Json) (key : String) (item : Json → Option α) : Option (List α) :=
  withData r [] fun d =>
    match tryGetProperty d key with
    | none => none
    | some none => some []
    | some (some (.array l)) => l.mapM item
    | some (some _) => none

/-- `file` is the text of the GUI's `config.json`. -/
def getConfigAsync (file : Bytes) (r : Option Json) : Option (Option ProxyConfig) :=
  withData r none fun d => do
    let cfg : ProxyConfig := {}
    let cfg ← match ← tryGetProperty d "proxy" with
      | none => some cfg
      | some p => do
        let host ← getProperty p "host" >>= getStringOrEmpty g
        let port ← getProperty p "port" >>= getUInt16
        let authRequired ← getProperty p "auth_required" >>= getBool
        let hasPassword ← getProperty p "has_password" >>= getBool
        some { cfg with host := host, port := port.setWidth 32, authRequired := authRequired, hasPassword := hasPassword }
    some (some { cfg with
      login := readString g file "auth" "username" []
      kerberosEnabled := readBool g file "auth" "kerberos" })

def ruleOfItem (item : Json) : Option RuleRecord := do
  let id ← getProperty item "id" >>= getStringOrEmpty g
  let pattern ← getProperty item "pattern" >>= getStringOrEmpty g
  let description ← getProperty item "description" >>= getStringOrEmpty g
  let priority ← getProperty item "priority" >>= getInt
  let enabled ← getProperty item "enabled" >>= getBool
  let type ← getProperty item "type" >>= getInt
  let action ← getProperty item "action" >>= getInt
  some ⟨id, pattern, description, priority, enabled, type, action⟩

def getRulesAsync (r : Option Json) : Option (List RuleRecord) := listOf r "rules" (ruleOfItem g)

/-- `ulong.TryParse(s, out var parsedId) ? parsedId : 0`. -/
def tryParseId (s : WString) : BitVec 64 :=
  let isSpace := fun c : BitVec 16 => decide (c.toNat = 32 ∨ 9 ≤ c.toNat ∧ c.toNat ≤ 13)
  let digits := fun t : WString =>
    if t ≠ [] ∧ t.all (fun c => decide (48 ≤ c.toNat ∧ c.toNat ≤ 57)) = true then
      t.foldl (fun n c => 10 * n + (c.toNat - 48)) 0
    else 0
  let inRange := fun n : Nat => if n < 2 ^ 64 then BitVec.ofNat 64 n else 0
  match ((s.dropWhile isSpace).reverse.dropWhile isSpace).reverse with
  | 43 :: t => inRange (digits t)
  | 45 :: _ => 0
  | t => inRange (digits t)

def connectionOfItem (item : Json) : Option ConnectionRecord := do
  let id ← getProperty item "id" >>= getStringOrEmpty g
  let pid ← getProperty item "pid" >>= getUInt32
  let processName ← getProperty item "process_name" >>= getStringOrEmpty g
  let destinationHost ← getProperty item "destination_host" >>= getStringOrEmpty g
  let destinationIp ← getProperty item "destination_ip" >>= getStringOrEmpty g
  let destinationPort ← getProperty item "destination_port" >>= getUInt16
  let rxBytes ← getProperty item "rx_bytes" >>= getUInt64
  let txBytes ← getProperty item "tx_bytes" >>= getUInt64
  let durationMs ← getProperty item "duration_ms" >>= getUInt64
  let state ← getProperty item "state" >>= getInt
  let proxyEnabled ← getProperty item "proxy_enabled" >>= getBool
  some ⟨tryParseId id, pid, processName, destinationHost, destinationIp, destinationPort, rxBytes, txBytes, durationMs, state,
    proxyEnabled⟩

def getConnectionsAsync (r : Option Json) : Option (List ConnectionRecord) := listOf r "connections" (connectionOfItem g)

/-- `FromUnixTimeMilliseconds`, which throws outside of the years 1 to 9999. -/
def fromUnixTimeMilliseconds (milliseconds : Int) : Option Int :=
  if -62135596800000 ≤ milliseconds ∧ milliseconds ≤ 253402300799999 then some (10000 * milliseconds) else none

def logOfItem (item : Json) : Option LogEntry := do
  let milliseconds ← getProperty item "timestamp" >>= getUInt64
  let timestamp ← fromUnixTimeMilliseconds milliseconds.toInt
  let level ← getProperty item "level" >>= getInt
  let logger ← getProperty item "logger" >>= getStringOrEmpty g
  let message ← getProperty item "message" >>= getStringOrEmpty g
  some ⟨timestamp, level, logger, message⟩

def getLogsAsync (r : Option Json) : Option (List LogEntry) := listOf r "logs" (logOfItem g)

/-- `d.TryGetProperty(name, out var v) ? get(v) : 0`. -/
def valueOr {α : Type} (get : Json → Option α) (d : Json) (name : String) (absent : α) : Option α :=
  match tryGetProperty d name with
  | none => none
  | some none => some absent
  | some (some v) => get v

/-- Every exception gives null. -/
def getStatsAsync (double : Int → BitVec 64) (r : Option Json) : Option (Option ServiceStats) :=
  withData r none fun d => some do
    let activeConnections ← getProperty d "active_connections" >>= getUInt32
    let totalRxBytes ← getProperty d "total_rx_bytes" >>= getUInt64
    let totalTxBytes ← getProperty d "total_tx_bytes" >>= getUInt64
    let proxyErrors ← valueOr getUInt64 d "proxy_errors" 0
    let avgLatencyMs ← valueOr (getDouble double) d "avg_latency_ms" 0
    let uptimeSeconds ← valueOr getUInt64 d "uptime_seconds" 0
    some ⟨activeConnections, totalRxBytes, totalTxBytes, proxyErrors, avgLatencyMs, uptimeSeconds⟩

/-- Every exception gives null. -/
def getServiceStatusAsync (r : Option Json) : Option (Option ServiceStatus) :=
  withData r none fun d => some do
    let running ← valueOr getBool d "running" false
    let initialized ← valueOr getBool d "initialized" false
    some { running := running, initialized := initialized }

def pingAsync (r : Option Json) : Option Bool :=
  match r with
  | none => some false
  | some r => (tryGetProperty r "pong").map (·.isSome)

def getStatusAsync (r : Option Json) : Option (Option ServiceStatus) :=
  withData r none fun d => do
    let running ← getProperty d "service_state" >>= isString g "running"
    let driverLoaded ← getProperty d "driver_loaded" >>= getBool
    let captureEnabled ← getProperty d "capture_enabled" >>= getBool
    let activeConnections ← getProperty d "active_connections" >>= getInt
    let relayConnections ← getProperty d "relay_connections" >>= getInt
    let version ← getProperty d "version" >>= getStringOrEmpty g
    some (some {
      running := running
      driverLoaded := driverLoaded
      captureEnabled := captureEnabled
      activeConnections := activeConnections
      relayConnections := relayConnections
      version := version })

def getVersionAsync (r : Option Json) : Option (Option WString) :=
  withData r none fun d => (getProperty d "version").bind fun v =>
    match v with
    | .null => some none
    | v => (getString g v).map some

end

end TR.Impl.Gui
