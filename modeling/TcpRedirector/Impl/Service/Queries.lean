import TcpRedirector.Impl.Service.IpcHandler
import TcpRedirector.Impl.Service.Logger

/-!
# The queries of the service

`SetupIpcHandlers` and the requests of `IpcHandler.h` that read the state of
the service, with the reply that `PipeServer.h` writes. All callbacks are set.
-/

namespace TR.Impl.Service

open ConfigManager

/-- The objects that the queries read. -/
structure ServiceMain where
  service : TcpRedirectorService
  table : ConnectionTable
  tracker : ConnectionTracker
  /-- `m_stats.avg_latency_ms`, by its bits. -/
  avg_latency_ms : BitVec 64 := 0
  /-- `m_stats.uptime_seconds`. -/
  uptime_seconds : BitVec 64 := 0
  logger : Logger := {}
  /-- `IsOpen` of the capture. -/
  captureOpen : Bool := true
  running : Bool := true
  initialized : Bool := true
  startTime : BitVec 64 := 0
  /-- `steady_clock::now()`, in nanoseconds. -/
  now : BitVec 64 := 0

/-- `m_getUptime`. -/
def ServiceMain.getUptime (s : ServiceMain) : BitVec 64 := (s.now - s.startTime).sdiv 1000000000

/-- `duration` of a record, in milliseconds. -/
def ServiceMain.duration (s : ServiceMain) (c : ConnectionRecord) : BitVec 64 := (s.now - c.startTime).sdiv 1000000

/-- `static_cast<int>`. -/
def stateToInt : ConnectionState → BitVec 32
  | .redirecting => 0
  | .connectingToProxy => 1
  | .tunnelEstablished => 2
  | .closing => 3
  | .closed => 4
  | .error => 5

/-- An unsigned number of at most 64 bits as a JSON number. -/
def jsonUnsigned {w : Nat} (n : BitVec w) : Json := .unsigned (n.setWidth 64)

section

variable (x : Platform) (s : ServiceMain)

def getConfig (result : Json) : Json :=
  let config := getProxyConfig x s.service.manager
  let proxy := Json.null
  let proxy := proxy.set "host" (.string (wideToUtf8 config.host))
  let proxy := proxy.set "port" (jsonUnsigned config.port)
  let proxy := proxy.set "auth_required" (.boolean config.auth_required)
  let proxy := proxy.set "has_password" (.boolean config.has_password)
  (result.set "status" (.string (ascii "success"))).set "data" (Json.null.set "proxy" proxy)

/-- An element of `get_rules`. -/
def ruleJson (r : Rule) : Json :=
  let j := Json.null
  let j := j.set "id" (.string r.id)
  let j := j.set "pattern" (.string (wideToUtf8 r.pattern))
  let j := j.set "description" (.string (wideToUtf8 r.description))
  let j := j.set "priority" (jsonInt r.priority)
  let j := j.set "enabled" (.boolean r.enabled)
  let j := j.set "type" (jsonInt r.type.toInt)
  j.set "action" (jsonInt r.action.toInt)

def getRules (result : Json) : Json :=
  let arr := Json.array (s.service.engine.map ruleJson)
  (result.set "status" (.string (ascii "success"))).put "data" "rules" arr

/-- An element of `get_connections`. -/
def connectionJson (c : ConnectionRecord) : Json :=
  let j := Json.null
  let j := j.set "id" (jsonUnsigned c.id)
  let j := j.set "pid" (jsonUnsigned c.pid)
  let j := j.set "process_name" (.string (wideToUtf8 c.processName))
  let j := j.set "destination_host" (.string (wideToUtf8 c.destinationHost))
  let j := j.set "destination_ip" (.string c.destinationIp)
  let j := j.set "destination_port" (jsonUnsigned c.destinationPort)
  let j := j.set "rx_bytes" (jsonUnsigned c.rxBytes)
  let j := j.set "tx_bytes" (jsonUnsigned c.txBytes)
  let j := j.set "duration_ms" (.integer (s.duration c))
  let j := j.set "state" (jsonInt (stateToInt c.state))
  j.set "proxy_enabled" (.boolean c.proxyEnabled)

def getConnections (result : Json) : Json :=
  let arr := Json.array (s.tracker.getActiveConnections.map (connectionJson s))
  (result.set "status" (.string (ascii "success"))).put "data" "connections" arr

/-- An element of `get_logs`. -/
def logEntryJson (e : LogEntry) : Json :=
  let j := Json.null
  let j := j.set "timestamp" (.integer (e.timestamp.sdiv 10000))
  let j := j.set "level" (jsonInt e.level)
  let j := j.set "logger" (.string e.logger)
  j.set "message" (.string e.message)

def getLogs (result : Json) : Json :=
  let arr := Json.array ((s.logger.getRecentEntries 500).map logEntryJson)
  (result.set "status" (.string (ascii "success"))).put "data" "logs" arr

/-- The statistics are read before the uptime is brought up to date. -/
def getStats (result : Json) : Json × ServiceMain :=
  let stats := s.tracker.stats
  let uptime := s.uptime_seconds
  let rx := if stats.totalRxBytes.toNat < s.service.capture.totalRxBytes.toNat then s.service.capture.totalRxBytes
    else stats.totalRxBytes
  let tx := if stats.totalTxBytes.toNat < s.service.capture.totalTxBytes.toNat then s.service.capture.totalTxBytes
    else stats.totalTxBytes
  let active := s.table.getTrackedCount
  let s := { s with uptime_seconds := s.getUptime }
  let result := result.set "status" (.string (ascii "success"))
  let result := result.put "data" "active_connections" (jsonUnsigned active)
  let result := result.put "data" "total_rx_bytes" (jsonUnsigned rx)
  let result := result.put "data" "total_tx_bytes" (jsonUnsigned tx)
  let result := result.put "data" "proxy_errors" (jsonUnsigned stats.proxyErrors)
  let result := result.put "data" "avg_latency_ms" (.float s.avg_latency_ms)
  let result := result.put "data" "uptime_seconds" (jsonUnsigned uptime)
  (result, s)

def getStatus (result : Json) : Json :=
  let result := result.set "status" (.string (ascii "success"))
  let result := result.put "data" "running" (.boolean s.running)
  result.put "data" "initialized" (.boolean s.initialized)

/-- `Handle`, for these methods: the value that is dumped. They throw nothing. -/
def handleQuery (method : Bytes) : Option (Json × ServiceMain) :=
  if method = ascii "get_config" then some (getConfig x s .null, s)
  else if method = ascii "get_rules" then some (getRules s .null, s)
  else if method = ascii "get_connections" then some (getConnections s .null, s)
  else if method = ascii "get_logs" then some (getLogs s .null, s)
  else if method = ascii "get_stats" then some (getStats s .null)
  else if method = ascii "service_status" then some (getStatus s .null, s)
  else none

/-- The value of `get_status`. -/
def statusJson : Json :=
  let j := Json.null
  let j := j.set "jsonrpc" (.string (ascii "2.0"))
  let j := j.put "result" "service_state" (.string (ascii (if s.running then "running" else "stopped")))
  let j := j.put "result" "driver_loaded" (.boolean s.captureOpen)
  let j := j.put "result" "capture_enabled" (.boolean s.captureOpen)
  let j := j.put "result" "active_connections" (jsonUnsigned s.table.getTrackedCount)
  let j := j.put "result" "relay_connections" (jsonInt 0)
  let j := j.put "result" "version" (.string (ascii "1.1.0"))
  j.set "id" .null

def pingText : Bytes := ascii "\x7b\"jsonrpc\":\"2.0\",\"result\":\x7b\"pong\":true\x7d,\"id\":null\x7d"

def versionText : Bytes := ascii "\x7b\"jsonrpc\":\"2.0\",\"result\":\x7b\"version\":\"1.1.0\"\x7d,\"id\":null\x7d"

/-- The callback of `SetOnRequest`; an exception is that of `dump`. -/
def onRequest (method : Bytes) : Except Bytes (Option Bytes × ServiceMain) :=
  if method = ascii "ping" then .ok (some pingText, s)
  else if method = ascii "get_version" then .ok (some versionText, s)
  else if method = ascii "get_status" then (x.dump (statusJson s)).map fun b => (some b, s)
  else
    match handleQuery x s method with
    | none => .ok (none, s)
    | some (result, s) => (x.dump result).map fun b => (some b, s)

def parseErrorText : Bytes := ascii "\x7b\"status\":\"error\",\"error\":\"parse_error\"\x7d"

/-- The reply that is written; none for a method that is no query. -/
def reply (method : Bytes) : Option Bytes :=
  match onRequest x s method with
  | .ok (response, _) => response
  | .error _ => some parseErrorText

end

end TR.Impl.Service
