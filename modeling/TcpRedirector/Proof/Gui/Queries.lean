import TcpRedirector.Impl.Gui.Queries
import TcpRedirector.Impl.Service.Queries
import TcpRedirector.Proof.Framework.Text
import TcpRedirector.Proof.Gui.Page
import TcpRedirector.Proof.Service.Logger

/-!
# The queries and their replies

For every state of the service, what each query of the GUI makes of the reply
to its method, and in which states this is what the service has
(`query_agrees_iff`).
-/

namespace TR.Impl.Gui

open Service (Platform ServiceMain Logger reply handleQuery)
open Service.ConfigManager (widen getProxyConfig)

inductive Query where
  | getConfig | getRules | getConnections | getLogs | getStats | getServiceStatus | ping | getStatus | getVersion
  deriving Repr, DecidableEq

/-- The method that the query calls. -/
def Query.method : Query → String
  | .getConfig => "get_config"
  | .getRules => "get_rules"
  | .getConnections => "get_connections"
  | .getLogs => "get_logs"
  | .getStats => "get_stats"
  | .getServiceStatus => "service_status"
  | .ping => "ping"
  | .getStatus => "get_status"
  | .getVersion => "get_version"

/-! ## What the service has -/

section

variable (x : Platform) (s : ServiceMain)

def configOf : ProxyConfig where
  host := (getProxyConfig x s.service.manager).host
  port := (getProxyConfig x s.service.manager).port.setWidth 32
  authRequired := (getProxyConfig x s.service.manager).auth_required
  login := (getProxyConfig x s.service.manager).login
  hasPassword := (getProxyConfig x s.service.manager).has_password
  kerberosEnabled := (getProxyConfig x s.service.manager).kerberos_auth

def ruleOf (r : TR.Impl.Rule) : RuleRecord where
  id := widen x r.id
  pattern := r.pattern
  description := r.description
  priority := r.priority
  enabled := r.enabled
  type := r.type.toInt
  action := r.action.toInt

def connectionOf (c : TR.Impl.ConnectionRecord) : ConnectionRecord where
  id := c.id
  pid := c.pid
  processName := c.processName
  destinationHost := c.destinationHost
  destinationIp := widen x c.destinationIp
  destinationPort := c.destinationPort
  rxBytes := c.rxBytes
  txBytes := c.txBytes
  durationMs := s.duration c
  state := Service.stateToInt c.state
  proxyEnabled := c.proxyEnabled

def logOf (e : Service.LogEntry) : LogEntry where
  timestamp := e.timestamp.toInt
  level := e.level
  logger := widen x e.logger
  message := widen x e.message

/-- The larger of two counters. -/
def larger (a b : BitVec 64) : BitVec 64 := if a.toNat < b.toNat then b else a

def statsOf : ServiceStats where
  activeConnections := s.table.getTrackedCount
  totalRxBytes := larger s.tracker.stats.totalRxBytes s.service.capture.totalRxBytes
  totalTxBytes := larger s.tracker.stats.totalTxBytes s.service.capture.totalTxBytes
  proxyErrors := s.tracker.stats.proxyErrors
  avgLatencyMs := s.avg_latency_ms
  uptimeSeconds := s.getUptime

def statusOf : ServiceStatus where
  running := s.running
  driverLoaded := s.captureOpen
  captureEnabled := s.captureOpen
  activeConnections := s.table.getTrackedCount
  relayConnections := 0
  version := literal "1.1.0"

end

/-! ## Agreement -/

section

variable (x : Platform) (g : Runtime) (double : Int → BitVec 64) (file : Bytes) (s : ServiceMain)

/-- The reply to the query's method as a value. -/
def response (q : Query) : Option Json := (reply x s (ascii q.method)).bind g.parse

/-- The query returns what the service has. -/
def Agrees : Query → Prop
  | .getConfig => getConfigAsync g file (response x g s .getConfig) = some (some (configOf x s))
  | .getRules => getRulesAsync g (response x g s .getRules) = some (s.service.engine.map (ruleOf x))
  | .getConnections =>
    getConnectionsAsync g (response x g s .getConnections) = some (s.tracker.getActiveConnections.map (connectionOf x s))
  | .getLogs => getLogsAsync g (response x g s .getLogs) = some (s.logger.contents.map (logOf x))
  | .getStats => getStatsAsync double (response x g s .getStats) = some (some (statsOf s))
  | .getServiceStatus => getServiceStatusAsync (response x g s .getServiceStatus) =
      some (some { running := s.running, initialized := s.initialized })
  | .ping => pingAsync (response x g s .ping) = some true
  | .getStatus => getStatusAsync g (response x g s .getStatus) = some (some (statusOf s))
  | .getVersion => getVersionAsync g (response x g s .getVersion) = some (some (literal "1.1.0"))

/-- An entry that passes: in UTF-8, at a whole millisecond from 1970 to 9999. -/
structure LogFits (e : Service.LogEntry) : Prop where
  logger : Utf8 e.logger
  message : Utf8 e.message
  nonneg : 0 ≤ e.timestamp.toInt
  whole : 10000 ∣ e.timestamp.toInt
  upper : e.timestamp.toInt ≤ 2534023007999990000

/-- The states in which the query agrees. -/
def Fits : Query → Prop
  | .getConfig =>
    Utf16 (getProxyConfig x s.service.manager).host ∧
    readString g file "auth" "username" [] = (getProxyConfig x s.service.manager).login ∧
    readBool g file "auth" "kerberos" = (getProxyConfig x s.service.manager).kerberos_auth
  | .getRules => ∀ r ∈ s.service.engine, Utf8 r.id ∧ Utf16 r.pattern ∧ Utf16 r.description
  | .getConnections => s.tracker.getActiveConnections = []
  | .getLogs => s.logger.contents.length ≤ 500 ∧ ∀ e ∈ s.logger.contents, LogFits e
  | .getStats => Json.isFinite s.avg_latency_ms = true ∧ s.uptime_seconds = s.getUptime
  | .getServiceStatus => True
  | .ping | .getStatus | .getVersion => False

end

/-! ## Reading a reply -/

def pingJson : Json := ((Json.null.set "jsonrpc" (.string (ascii "2.0"))).put "result" "pong" (.boolean true)).set "id" .null

def versionJson : Json :=
  ((Json.null.set "jsonrpc" (.string (ascii "2.0"))).put "result" "version" (.string (ascii "1.1.0"))).set "id" .null

def parseErrorJson : Json := (Json.null.set "status" (.string (ascii "error"))).set "error" (.string (ascii "parse_error"))

/-- A value that the service dumps. -/
inductive Dumped (x : Platform) : Json → Prop
  | query {s s' : ServiceMain} {method : Bytes} {j : Json} (h : handleQuery x s method = some (j, s')) : Dumped x j
  | status (s : ServiceMain) : Dumped x (Service.statusJson s)

/-- What is used of the library of the service and of .NET. -/
structure Runtime.Reads (g : Runtime) (x : Platform) : Prop where
  dump_iff : ∀ j, (∃ b, x.dump j = .ok b) ↔ j.Utf8
  parse_dump : ∀ j b, Dumped x j → x.dump j = .ok b → g.parse b = some j.reread
  parse_ping : g.parse Service.pingText = some pingJson
  parse_version : g.parse Service.versionText = some versionJson
  parse_parseError : g.parse Service.parseErrorText = some parseErrorJson
  decode_utf8 : ∀ cs, g.decode (encodeUtf8 cs) = encodeUtf16 cs

section

variable {j d v : Json} {k : String}

theorem tryGetProperty_of_entry (h : j.entry k = some v) : tryGetProperty j k = some (some v) := by
  cases j with
  | object l => exact congrArg some h
  | _ => cases h

theorem tryGetProperty_reread (h : j.entry k = some v) : tryGetProperty j.reread k = some (some v.reread) :=
  tryGetProperty_of_entry (Json.entry_reread_of_entry h)

theorem getProperty_reread (h : j.entry k = some v) : getProperty j.reread k = some v.reread := by
  rw [getProperty, tryGetProperty_reread h]
  rfl

theorem withData_reread {α : Type} {absent : α} {f : Json → Option α} (h : j.entry "data" = some d) :
    withData (some j.reread) absent f = f d.reread := by
  simp only [withData, tryGetProperty_reread h]

theorem listOf_reread {α : Type} {item : Json → Option α} {l : List Json} (hd : j.entry "data" = some d)
    (hk : d.entry k = some (.array l)) : listOf (some j.reread) k item = l.mapM fun v => item v.reread := by
  have harray : (Json.array l).reread = .array (l.map Json.reread) := by rw [Json.reread, Json.rereadElements_eq_map]
  rw [listOf, withData_reread hd, tryGetProperty_reread hk, harray]
  dsimp only
  rw [List.mapM_map]
  rfl

/-- The reply to a failed dump has no data. -/
theorem withData_parseError {α : Type} (absent : α) (f : Json → Option α) :
    withData (some parseErrorJson) absent f = some absent := rfl

theorem getUnsigned_reread {w : Nat} (hw : w ≤ 64) (n : BitVec w) :
    getUnsigned w (Service.jsonUnsigned n).reread = some n := by
  have hn := n.isLt
  have hpow : 2 ^ w ≤ 2 ^ 64 := Nat.pow_le_pow_right (by omega) hw
  have hnat : (n.setWidth 64).toNat = n.toNat := by
    rw [BitVec.toNat_setWidth, Nat.mod_eq_of_lt (by omega)]
  have hback : (n.setWidth 64).setWidth w = n := by
    apply BitVec.eq_of_toNat_eq
    rw [BitVec.toNat_setWidth, hnat, Nat.mod_eq_of_lt hn]
  show (if (n.setWidth 64).toNat < 2 ^ w then some ((n.setWidth 64).setWidth w) else none) = some n
  rw [if_pos (by omega), hback]

end

section

variable {x : Platform} {g : Runtime} {s : ServiceMain} {q : Query}

/-- The reply to a method whose value is `j`. -/
theorem response_of_query (hg : g.Reads x) {j : Json} {s' : ServiceMain}
    (hq : handleQuery x s (ascii q.method) = some (j, s'))
    (hother : ascii q.method ≠ ascii "ping" ∧ ascii q.method ≠ ascii "get_version" ∧ ascii q.method ≠ ascii "get_status") :
    (j.Utf8 → response x g s q = some j.reread) ∧ (¬j.Utf8 → response x g s q = some parseErrorJson) := by
  obtain ⟨hping, hversion, hstatus⟩ := hother
  have hreply : Service.onRequest x s (ascii q.method) = (x.dump j).map fun b => (some b, s') := by
    simp only [Service.onRequest, if_neg hping, if_neg hversion, if_neg hstatus, hq]
  constructor
  · intro hj
    obtain ⟨b, hb⟩ := (hg.dump_iff j).mpr hj
    have htext : reply x s (ascii q.method) = some b := by
      rw [reply, hreply, hb]
      rfl
    rw [response, htext]
    exact hg.parse_dump j b (.query hq) hb
  · intro hj
    have htext : reply x s (ascii q.method) = some Service.parseErrorText := by
      rw [reply, hreply]
      cases hdump : x.dump j with
      | ok b => exact absurd ((hg.dump_iff j).mp ⟨b, hdump⟩) hj
      | error e => rfl
    rw [response, htext]
    exact hg.parse_parseError

/-- The reply with some data. -/
def dataReply (d : Json) : Json := (Json.null.set "status" (.string (ascii "success"))).set "data" d

theorem entry_dataReply (d : Json) : (dataReply d).entry "data" = some d := Json.entry_set_self ..

theorem utf8_dataReply {d : Json} (h : d.Utf8) : (dataReply d).Utf8 :=
  (Json.Utf8.null.set (by decide) (.string (utf8_ascii (by decide)))).set (by decide) h

theorem response_of_data (hg : g.Reads x) {d : Json} {s' : ServiceMain}
    (hq : handleQuery x s (ascii q.method) = some (dataReply d, s'))
    (hother : ascii q.method ≠ ascii "ping" ∧ ascii q.method ≠ ascii "get_version" ∧ ascii q.method ≠ ascii "get_status")
    (hd : d.Utf8) : response x g s q = some (dataReply d).reread :=
  (response_of_query hg hq hother).1 (utf8_dataReply hd)

theorem decode_wideToUtf8_iff (hg : g.Reads x) (w : WString) : g.decode (wideToUtf8 w) = w ↔ Utf16 w := by
  rw [wideToUtf8, hg.decode_utf8]
  constructor
  · exact fun h => ⟨_, h.symm⟩
  · rintro ⟨cs, rfl⟩
    rw [decodeUtf16_encodeUtf16]

/-! ## The configuration -/

/-- The object `proxy` of the reply. -/
def proxyOf (c : Service.ProxyConfig) : Json :=
  (((Json.null.set "host" (.string (wideToUtf8 c.host))).set "port" (Service.jsonUnsigned c.port)).set "auth_required"
    (.boolean c.auth_required)).set "has_password" (.boolean c.has_password)

/-- What the query makes of such a reply. -/
theorem getConfigAsync_reread (g : Runtime) (file : Bytes) (c : Service.ProxyConfig) :
    getConfigAsync g file (some (dataReply (Json.null.set "proxy" (proxyOf c))).reread) = some (some {
      host := g.decode (wideToUtf8 c.host)
      port := c.port.setWidth 32
      authRequired := c.auth_required
      login := readString g file "auth" "username" []
      hasPassword := c.has_password
      kerberosEnabled := readBool g file "auth" "kerberos" }) := by
  obtain ⟨hhost, hport, hauth, hpassword⟩ : (proxyOf c).entry "host" = some (.string (wideToUtf8 c.host)) ∧
      (proxyOf c).entry "port" = some (Service.jsonUnsigned c.port) ∧
      (proxyOf c).entry "auth_required" = some (.boolean c.auth_required) ∧
      (proxyOf c).entry "has_password" = some (.boolean c.has_password) := by
    simp (disch := decide) [proxyOf, Json.entry_set_of_ne]
  have hstring : getStringOrEmpty g (Json.string (wideToUtf8 c.host)).reread = some (g.decode (wideToUtf8 c.host)) := rfl
  have hbool {b : Bool} : getBool (Json.boolean b).reread = some b := rfl
  have hport16 : getUInt16 (Service.jsonUnsigned c.port).reread = some c.port := getUnsigned_reread (by decide) c.port
  rw [getConfigAsync, withData_reread (entry_dataReply _)]
  simp only [tryGetProperty_reread (Json.entry_set_self Json.null "proxy" (proxyOf c)), getProperty_reread hhost,
    getProperty_reread hport, getProperty_reread hauth, getProperty_reread hpassword, bind, Option.bind_some, hstring, hbool,
    hport16]

theorem getConfig_agrees_iff (hg : g.Reads x) (double : Int → BitVec 64) (file : Bytes) :
    Agrees x g double file s .getConfig ↔ Fits x g file s .getConfig := by
  have hutf8 : (Json.null.set "proxy" (proxyOf (getProxyConfig x s.service.manager))).Utf8 :=
    Json.Utf8.null.set (by decide) ((((Json.Utf8.null.set (by decide) (.string (utf8_wideToUtf8 _))).set (by decide)
      .unsigned).set (by decide) .boolean).set (by decide) .boolean)
  have hq : handleQuery x s (ascii Query.getConfig.method) =
      some (dataReply (Json.null.set "proxy" (proxyOf (getProxyConfig x s.service.manager))), s) := rfl
  rw [Agrees, Fits, response_of_data hg hq (by decide) hutf8, getConfigAsync_reread, ← decode_wideToUtf8_iff hg]
  simp [configOf]

/-! ## Lists -/

/-- The reply with a list. -/
def listReply (key : String) (l : List Json) : Json := dataReply (Json.null.set key (.array l))

theorem listReply_eq (key : String) (l : List Json) :
    (Json.null.set "status" (.string (ascii "success"))).put "data" key (.array l) = listReply key l :=
  Json.put_of_entry_none (Json.entry_set_of_ne (by decide))

theorem utf8_listReply_iff {key : String} (hkey : key.toList.all (·.toNat < 128) = true) (l : List Json) :
    (listReply key l).Utf8 ↔ ∀ j ∈ l, j.Utf8 := by
  constructor
  · exact fun h => ((h.of_entry (entry_dataReply _)).of_entry (Json.entry_set_self ..)).elements
  · exact fun h => utf8_dataReply (Json.Utf8.null.set hkey (.array h))

/-- A list arrives as it should if its texts are UTF-8 and each element is
read; else the query returns the empty list. -/
theorem listOf_response_iff {α β : Type} (hg : g.Reads x) (item : Json → Option β) (expected : List β) {s' : ServiceMain}
    {key : String} {l : List α} {enc : α → Json}
    (hq : handleQuery x s (ascii q.method) = some (listReply key (l.map enc), s'))
    (hother : ascii q.method ≠ ascii "ping" ∧ ascii q.method ≠ ascii "get_version" ∧ ascii q.method ≠ ascii "get_status")
    (hkey : key.toList.all (·.toNat < 128) = true) :
    listOf (response x g s q) key item = some expected ↔
      ((∀ a ∈ l, (enc a).Utf8) ∧ l.mapM (fun a => item (enc a).reread) = some expected) ∨
      (¬(∀ a ∈ l, (enc a).Utf8) ∧ expected = []) := by
  have hutf8 : (listReply key (l.map enc)).Utf8 ↔ ∀ a ∈ l, (enc a).Utf8 := by
    rw [utf8_listReply_iff hkey, List.forall_mem_map]
  obtain ⟨hok, herror⟩ := response_of_query hg hq hother
  by_cases h : ∀ a ∈ l, (enc a).Utf8
  · rw [hok (hutf8.mpr h), listReply, listOf_reread (entry_dataReply _) (Json.entry_set_self ..), List.mapM_map]
    show l.mapM (fun a => item (enc a).reread) = some expected ↔ _
    rw [or_iff_left fun hnot => hnot.1 h, and_iff_right h]
  · rw [herror (mt hutf8.mp h), listOf, withData_parseError]
    simp [h, eq_comm]

/-! ## Rules -/

theorem utf8_ruleJson_iff (r : TR.Impl.Rule) : (Service.ruleJson r).Utf8 ↔ Utf8 r.id := by
  constructor
  · intro h
    have hid : (Service.ruleJson r).entry "id" = some (.string r.id) := by
      simp (disch := decide) [Service.ruleJson, Json.entry_set_of_ne]
    cases h.of_entry hid with
    | string hs => exact hs
  · intro h
    exact ((((((Json.Utf8.null.set (by decide) (.string h)).set (by decide) (.string (utf8_wideToUtf8 _))).set (by decide)
      (.string (utf8_wideToUtf8 _))).set (by decide) .integer).set (by decide) .boolean).set (by decide) .integer).set
      (by decide) .integer

theorem ruleOfItem_reread (g : Runtime) (r : TR.Impl.Rule) :
    ruleOfItem g (Service.ruleJson r).reread = some ⟨g.decode r.id, g.decode (wideToUtf8 r.pattern),
      g.decode (wideToUtf8 r.description), r.priority, r.enabled, r.type.toInt, r.action.toInt⟩ := by
  obtain ⟨hid, hpattern, hdescription, hpriority, henabled, htype, haction⟩ :
      (Service.ruleJson r).entry "id" = some (.string r.id) ∧
      (Service.ruleJson r).entry "pattern" = some (.string (wideToUtf8 r.pattern)) ∧
      (Service.ruleJson r).entry "description" = some (.string (wideToUtf8 r.description)) ∧
      (Service.ruleJson r).entry "priority" = some (Service.ConfigManager.jsonInt r.priority) ∧
      (Service.ruleJson r).entry "enabled" = some (.boolean r.enabled) ∧
      (Service.ruleJson r).entry "type" = some (Service.ConfigManager.jsonInt r.type.toInt) ∧
      (Service.ruleJson r).entry "action" = some (Service.ConfigManager.jsonInt r.action.toInt) := by
    simp (disch := decide) [Service.ruleJson, Json.entry_set_of_ne]
  have hstring {b : Bytes} : getStringOrEmpty g (Json.string b).reread = some (g.decode b) := rfl
  have hbool {b : Bool} : getBool (Json.boolean b).reread = some b := rfl
  simp only [ruleOfItem, getProperty_reread hid, getProperty_reread hpattern, getProperty_reread hdescription,
    getProperty_reread hpriority, getProperty_reread henabled, getProperty_reread htype, getProperty_reread haction, bind,
    Option.bind_some, hstring, hbool, getInt_reread]

theorem getRules_agrees_iff (hg : g.Reads x) (double : Int → BitVec 64) (file : Bytes) :
    Agrees x g double file s .getRules ↔ Fits x g file s .getRules := by
  have hq : handleQuery x s (ascii Query.getRules.method) =
      some (listReply "rules" (s.service.engine.map Service.ruleJson), s) := by
    rw [← listReply_eq]
    rfl
  have hiff := listOf_response_iff hg (ruleOfItem g) (s.service.engine.map (ruleOf x)) hq (by decide) (by decide)
  have hrule (r : TR.Impl.Rule) (hid : Utf8 r.id) :
      ruleOfItem g (Service.ruleJson r).reread = some (ruleOf x r) ↔ Utf16 r.pattern ∧ Utf16 r.description := by
    rw [ruleOfItem_reread, ruleOf, decode_eq_widen x hg.decode_utf8 hid, ← decode_wideToUtf8_iff hg,
      ← decode_wideToUtf8_iff hg]
    simp
  rw [Agrees, Fits, getRulesAsync, hiff, Json.mapM_eq_some_map_iff]
  simp only [utf8_ruleJson_iff, List.map_eq_nil_iff]
  constructor
  · rintro (⟨hid, hread⟩ | ⟨hnot, hnil⟩)
    · exact fun r hr => ⟨hid r hr, (hrule r (hid r hr)).mp (hread r hr)⟩
    · rw [hnil] at hnot
      exact absurd (by simp) hnot
  · intro h
    exact .inl ⟨fun r hr => (h r hr).1, fun r hr => (hrule r (h r hr).1).mpr (h r hr).2⟩

/-! ## Connections -/

/-- The id is a number, and the query expects a string. -/
theorem connectionOfItem_reread (g : Runtime) (s : ServiceMain) (c : TR.Impl.ConnectionRecord) :
    connectionOfItem g (Service.connectionJson s c).reread = none := by
  have hid : (Service.connectionJson s c).entry "id" = some (Service.jsonUnsigned c.id) := by
    simp (disch := decide) [Service.connectionJson, Json.entry_set_of_ne]
  have hnumber : getStringOrEmpty g (Service.jsonUnsigned c.id).reread = none := rfl
  simp only [connectionOfItem, getProperty_reread hid, bind, Option.bind_some, hnumber, Option.bind_none]

theorem handleQuery_getConnections (x : Platform) (s : ServiceMain) :
    handleQuery x s (ascii Query.getConnections.method) =
      some (listReply "connections" (s.tracker.getActiveConnections.map (Service.connectionJson s)), s) := by
  rw [← listReply_eq]
  rfl

theorem utf8_connectionJson {c : TR.Impl.ConnectionRecord} (h : Utf8 c.destinationIp) : (Service.connectionJson s c).Utf8 :=
  ((((((((((Json.Utf8.null.set (by decide) .unsigned).set (by decide) .unsigned).set (by decide)
    (.string (utf8_wideToUtf8 _))).set (by decide) (.string (utf8_wideToUtf8 _))).set (by decide)
    (.string h)).set (by decide)
    .unsigned).set (by decide) .unsigned).set (by decide) .unsigned).set (by decide) .integer).set (by decide)
    .integer).set (by decide) .boolean

/-- With a connection, the query throws. -/
theorem getConnectionsAsync_throws (hg : g.Reads x) (h : ∀ c ∈ s.tracker.getActiveConnections, Utf8 c.destinationIp)
    (hne : s.tracker.getActiveConnections ≠ []) : getConnectionsAsync g (response x g s .getConnections) = none := by
  have hutf8 : (listReply "connections" (s.tracker.getActiveConnections.map (Service.connectionJson s))).Utf8 := by
    rw [utf8_listReply_iff (by decide), List.forall_mem_map]
    exact fun c hc => utf8_connectionJson (h c hc)
  rw [(response_of_query hg (handleQuery_getConnections x s) (by decide)).1 hutf8, listReply, getConnectionsAsync,
    listOf_reread (entry_dataReply _) (Json.entry_set_self ..), List.mapM_map]
  obtain ⟨c, l, hl⟩ := List.exists_cons_of_ne_nil hne
  rw [hl, List.mapM_cons, Function.comp_apply, connectionOfItem_reread]
  rfl

theorem getConnections_agrees_iff (hg : g.Reads x) (double : Int → BitVec 64) (file : Bytes) :
    Agrees x g double file s .getConnections ↔ Fits x g file s .getConnections := by
  rw [Agrees, Fits, getConnectionsAsync,
    listOf_response_iff hg _ _ (handleQuery_getConnections x s) (by decide) (by decide), Json.mapM_eq_some_map_iff]
  simp only [connectionOfItem_reread, List.map_eq_nil_iff]
  constructor
  · rintro (⟨-, hread⟩ | ⟨-, hnil⟩)
    · exact List.eq_nil_iff_forall_not_mem.mpr fun c hc => by cases hread c hc
    · exact hnil
  · intro hnil
    rw [hnil]
    exact .inl ⟨by simp, by simp⟩

/-! ## Log entries -/

theorem utf8_logEntryJson_iff (e : Service.LogEntry) :
    (Service.logEntryJson e).Utf8 ↔ Utf8 e.logger ∧ Utf8 e.message := by
  constructor
  · intro h
    have hlogger : (Service.logEntryJson e).entry "logger" = some (.string e.logger) := by
      simp (disch := decide) [Service.logEntryJson, Json.entry_set_of_ne]
    have hmessage : (Service.logEntryJson e).entry "message" = some (.string e.message) := by
      simp [Service.logEntryJson]
    constructor
    · cases h.of_entry hlogger with
      | string hs => exact hs
    · cases h.of_entry hmessage with
      | string hs => exact hs
  · intro h
    exact (((Json.Utf8.null.set (by decide) .integer).set (by decide) .integer).set (by decide) (.string h.1)).set
      (by decide)
      (.string h.2)

/-- The milliseconds of an entry. -/
theorem toInt_milliseconds (t : BitVec 64) : (t.sdiv 10000).toInt = t.toInt.tdiv 10000 :=
  BitVec.toInt_sdiv_of_ne_or_ne _ _ (.inr (by decide))

/-- A negative number of milliseconds is read as no unsigned number. -/
theorem getUInt64_reread_integer (n : BitVec 64) : getUInt64 (Json.integer n).reread =
    if 0 ≤ n.toInt then some n else none := by
  rw [Json.reread]
  split
  next hmsb =>
    have hneg : n.toInt < 0 := by simpa [BitVec.msb_eq_toInt] using hmsb
    rw [if_neg (by omega), getUInt64, getUnsigned, if_neg (by simp [hmsb])]
  next hmsb =>
    have hnonneg : 0 ≤ n.toInt := by simpa [BitVec.msb_eq_toInt] using hmsb
    rw [if_pos hnonneg, getUInt64, getUnsigned, if_pos n.isLt, BitVec.setWidth_eq]

theorem logOfItem_reread (g : Runtime) (e : Service.LogEntry) :
    logOfItem g (Service.logEntryJson e).reread =
      if 0 ≤ (e.timestamp.sdiv 10000).toInt ∧ (e.timestamp.sdiv 10000).toInt ≤ 253402300799999 then
        some ⟨10000 * (e.timestamp.sdiv 10000).toInt, e.level, g.decode e.logger, g.decode e.message⟩
      else none := by
  obtain ⟨htimestamp, hlevel, hlogger, hmessage⟩ :
      (Service.logEntryJson e).entry "timestamp" = some (.integer (e.timestamp.sdiv 10000)) ∧
      (Service.logEntryJson e).entry "level" = some (Service.ConfigManager.jsonInt e.level) ∧
      (Service.logEntryJson e).entry "logger" = some (.string e.logger) ∧
      (Service.logEntryJson e).entry "message" = some (.string e.message) := by
    simp (disch := decide) [Service.logEntryJson, Json.entry_set_of_ne]
  have hstring {b : Bytes} : getStringOrEmpty g (Json.string b).reread = some (g.decode b) := rfl
  simp only [logOfItem, getProperty_reread htimestamp, getProperty_reread hlevel, getProperty_reread hlogger,
    getProperty_reread hmessage, bind, Option.bind_some, hstring, getInt_reread, getUInt64_reread_integer]
  generalize e.timestamp.sdiv 10000 = n
  by_cases hn : 0 ≤ n.toInt
  · by_cases hmax : n.toInt ≤ 253402300799999
    · rw [if_pos hn, if_pos ⟨hn, hmax⟩, Option.bind_some, fromUnixTimeMilliseconds, if_pos (by omega)]
      rfl
    · rw [if_pos hn, if_neg (by omega), Option.bind_some, fromUnixTimeMilliseconds, if_neg (by omega)]
      rfl
  · rw [if_neg hn, if_neg (by omega)]
    rfl

theorem logOfItem_eq_iff (hg : g.Reads x) {e : Service.LogEntry} (hlogger : Utf8 e.logger) (hmessage : Utf8 e.message) :
    logOfItem g (Service.logEntryJson e).reread = some (logOf x e) ↔ LogFits e := by
  have hms := toInt_milliseconds e.timestamp
  rw [logOfItem_reread, logOf, decode_eq_widen x hg.decode_utf8 hlogger, decode_eq_widen x hg.decode_utf8 hmessage, hms]
  constructor
  · intro h
    split at h
    next hrange =>
      have hwhole : 10000 * e.timestamp.toInt.tdiv 10000 = e.timestamp.toInt :=
        congrArg LogEntry.timestamp (Option.some.inj h)
      exact ⟨hlogger, hmessage, by omega, ⟨_, hwhole.symm⟩, by omega⟩
    next => cases h
  · intro h
    obtain ⟨k, hk⟩ := h.whole
    have hnonneg := h.nonneg
    have hupper := h.upper
    have hdiv : e.timestamp.toInt.tdiv 10000 = k := by
      rw [Int.tdiv_eq_ediv_of_nonneg hnonneg, hk]
      omega
    rw [hdiv, if_pos (by omega), hk]

theorem length_of_mapM {α β : Type} {f : α → Option β} {l : List α} {l' : List β} (h : l.mapM f = some l') :
    l'.length = l.length := by
  induction l generalizing l' with
  | nil =>
    cases h
    rfl
  | cons a l ih =>
    rw [List.mapM_cons] at h
    obtain ⟨b, -, h⟩ := Option.bind_eq_some_iff.mp h
    obtain ⟨l₀, hl₀, h⟩ := Option.bind_eq_some_iff.mp h
    cases h
    rw [List.length_cons, List.length_cons, ih hl₀]

theorem getLogs_agrees_iff (hg : g.Reads x) (double : Int → BitVec 64) (file : Bytes) :
    Agrees x g double file s .getLogs ↔ Fits x g file s .getLogs := by
  have hq : handleQuery x s (ascii Query.getLogs.method) =
      some (listReply "logs" ((s.logger.getRecentEntries 500).map Service.logEntryJson), s) := by
    rw [← listReply_eq]
    rfl
  have hrecent (h : s.logger.contents.length ≤ 500) : s.logger.getRecentEntries 500 = s.logger.contents :=
    Logger.getRecentEntries_eq_contents h
  rw [Agrees, Fits, getLogsAsync, listOf_response_iff hg _ _ hq (by decide) (by decide)]
  simp only [utf8_logEntryJson_iff, List.map_eq_nil_iff]
  constructor
  · rintro (⟨hutf8, hread⟩ | ⟨hnot, hnil⟩)
    · have hlength := length_of_mapM hread
      rw [List.length_map] at hlength
      have hle : s.logger.contents.length ≤ 500 := hlength ▸ Logger.length_getRecentEntries_le 500 s.logger
      rw [hrecent hle] at hutf8 hread
      refine ⟨hle, fun e he => ?_⟩
      exact (logOfItem_eq_iff hg (hutf8 e he).1 (hutf8 e he).2).mp (Json.mapM_eq_some_map_iff.mp hread e he)
    · rw [hrecent (by simp [hnil]), hnil] at hnot
      exact absurd (by simp) hnot
  · rintro ⟨hle, hfits⟩
    rw [hrecent hle]
    refine .inl ⟨fun e he => ⟨(hfits e he).logger, (hfits e he).message⟩, Json.mapM_eq_some_map_iff.mpr fun e he => ?_⟩
    exact (logOfItem_eq_iff hg (hfits e he).logger (hfits e he).message).mpr (hfits e he)

/-! ## Statistics and status -/

/-- The object `data` of the statistics. -/
def statsData (s : ServiceMain) : Json :=
  (((((Json.null.set "active_connections" (Service.jsonUnsigned s.table.getTrackedCount)).set "total_rx_bytes"
    (Service.jsonUnsigned (larger s.tracker.stats.totalRxBytes s.service.capture.totalRxBytes))).set "total_tx_bytes"
    (Service.jsonUnsigned (larger s.tracker.stats.totalTxBytes s.service.capture.totalTxBytes))).set "proxy_errors"
    (Service.jsonUnsigned s.tracker.stats.proxyErrors)).set "avg_latency_ms" (.float s.avg_latency_ms)).set "uptime_seconds"
    (Service.jsonUnsigned s.uptime_seconds)

theorem valueOr_reread {α : Type} {get : Json → Option α} {d v : Json} {k : String} {absent : α} (h : d.entry k = some v) :
    valueOr get d.reread k absent = get v.reread := by
  simp only [valueOr, tryGetProperty_reread h]

theorem getStats_agrees_iff (hg : g.Reads x) (double : Int → BitVec 64) (file : Bytes) :
    Agrees x g double file s .getStats ↔ Fits x g file s .getStats := by
  have hdataUtf8 : (statsData s).Utf8 :=
    (((((Json.Utf8.null.set (by decide) .unsigned).set (by decide) .unsigned).set (by decide) .unsigned).set (by decide)
      .unsigned).set (by decide) .float).set (by decide) .unsigned
  have hq : handleQuery x s (ascii Query.getStats.method) =
      some (dataReply (statsData s), (Service.getStats s .null).2) := rfl
  obtain ⟨hactive, hrx, htx, herrors, hlatency, huptime⟩ :
      (statsData s).entry "active_connections" = some (Service.jsonUnsigned s.table.getTrackedCount) ∧
      (statsData s).entry "total_rx_bytes" =
        some (Service.jsonUnsigned (larger s.tracker.stats.totalRxBytes s.service.capture.totalRxBytes)) ∧
      (statsData s).entry "total_tx_bytes" =
        some (Service.jsonUnsigned (larger s.tracker.stats.totalTxBytes s.service.capture.totalTxBytes)) ∧
      (statsData s).entry "proxy_errors" = some (Service.jsonUnsigned s.tracker.stats.proxyErrors) ∧
      (statsData s).entry "avg_latency_ms" = some (.float s.avg_latency_ms) ∧
      (statsData s).entry "uptime_seconds" = some (Service.jsonUnsigned s.uptime_seconds) := by
    simp (disch := decide) [statsData, Json.entry_set_of_ne]
  have h32 (n : BitVec 32) : getUInt32 (Service.jsonUnsigned n).reread = some n := getUnsigned_reread (by decide) n
  have h64 (n : BitVec 64) : getUInt64 (Service.jsonUnsigned n).reread = some n := getUnsigned_reread (by decide) n
  have hfloat : getDouble double (Json.float s.avg_latency_ms).reread =
      if Json.isFinite s.avg_latency_ms then some s.avg_latency_ms else none := by
    rw [Json.reread]
    split <;> rfl
  rw [Agrees, Fits, response_of_data hg hq (by decide) hdataUtf8, getStatsAsync, withData_reread (entry_dataReply _)]
  simp only [getProperty_reread hactive, getProperty_reread hrx, getProperty_reread htx, valueOr_reread herrors,
    valueOr_reread hlatency, valueOr_reread huptime, bind, Option.bind_some, h32, h64, hfloat]
  by_cases hfinite : Json.isFinite s.avg_latency_ms = true
  · simp [hfinite, statsOf]
  · simp [hfinite]

theorem getServiceStatus_agrees_iff (hg : g.Reads x) (double : Int → BitVec 64) (file : Bytes) :
    Agrees x g double file s .getServiceStatus ↔ Fits x g file s .getServiceStatus := by
  have hq : handleQuery x s (ascii Query.getServiceStatus.method) = some (dataReply
      ((Json.null.set "running" (.boolean s.running)).set "initialized" (.boolean s.initialized)), s) := rfl
  have hutf8 : ((Json.null.set "running" (.boolean s.running)).set "initialized" (.boolean s.initialized)).Utf8 :=
    (Json.Utf8.null.set (by decide) .boolean).set (by decide) .boolean
  obtain ⟨hrunning, hinitialized⟩ :
      ((Json.null.set "running" (.boolean s.running)).set "initialized" (.boolean s.initialized)).entry "running" =
        some (.boolean s.running) ∧
      ((Json.null.set "running" (.boolean s.running)).set "initialized" (.boolean s.initialized)).entry "initialized" =
        some (.boolean s.initialized) := by
    simp (disch := decide) [Json.entry_set_of_ne]
  have hbool {b : Bool} : getBool (Json.boolean b).reread = some b := rfl
  rw [Agrees, Fits, response_of_data hg hq (by decide) hutf8, getServiceStatusAsync, withData_reread (entry_dataReply _)]
  simp only [valueOr_reread hrunning, valueOr_reread hinitialized, bind, Option.bind_some, hbool]

/-! ## Replies in another form -/

theorem response_ping (hg : g.Reads x) (s : ServiceMain) : response x g s .ping = some pingJson := hg.parse_ping

theorem response_getVersion (hg : g.Reads x) (s : ServiceMain) : response x g s .getVersion = some versionJson :=
  hg.parse_version

/-- The object `result` of `get_status`. -/
def statusResult (s : ServiceMain) : Json :=
  (((((Json.null.set "service_state" (.string (ascii (if s.running then "running" else "stopped")))).set "driver_loaded"
    (.boolean s.captureOpen)).set "capture_enabled" (.boolean s.captureOpen)).set "active_connections"
    (Service.jsonUnsigned s.table.getTrackedCount)).set "relay_connections" (Service.ConfigManager.jsonInt 0)).set "version"
    (.string (ascii "1.1.0"))

theorem statusJson_eq (s : ServiceMain) :
    Service.statusJson s =
      ((Json.null.set "jsonrpc" (.string (ascii "2.0"))).set "result" (statusResult s)).set "id" .null := rfl

theorem utf8_statusJson (s : ServiceMain) : (Service.statusJson s).Utf8 := by
  have hstate : Utf8 (ascii (if s.running then "running" else "stopped")) := by
    cases s.running <;> exact utf8_ascii (by decide)
  have hresult : (statusResult s).Utf8 :=
    (((((Json.Utf8.null.set (by decide) (.string hstate)).set (by decide) .boolean).set (by decide) .boolean).set (by decide)
      .unsigned).set (by decide) .integer).set (by decide) (.string (utf8_ascii (by decide)))
  rw [statusJson_eq]
  exact ((Json.Utf8.null.set (by decide) (.string (utf8_ascii (by decide)))).set (by decide) hresult).set (by decide) .null

theorem response_getStatus (hg : g.Reads x) (s : ServiceMain) :
    response x g s .getStatus = some (Service.statusJson s).reread := by
  obtain ⟨b, hb⟩ := (hg.dump_iff _).mpr (utf8_statusJson s)
  have hrequest : Service.onRequest x s (ascii Query.getStatus.method) =
      (x.dump (Service.statusJson s)).map fun b => (some b, s) := rfl
  have htext : reply x s (ascii Query.getStatus.method) = some b := by
    rw [reply, hrequest, hb]
    rfl
  rw [response, htext]
  exact hg.parse_dump _ b (.status s) hb

/-- The result is not where the query looks for it. -/
theorem withData_statusJson {α : Type} (s : ServiceMain) (absent : α) (f : Json → Option α) :
    withData (some (Service.statusJson s).reread) absent f = some absent := rfl

end

/-- A query returns what the service has in exactly these states. -/
theorem query_agrees_iff (x : Platform) (g : Runtime) (hg : g.Reads x) (double : Int → BitVec 64) (file : Bytes)
    (s : ServiceMain) (q : Query) : Agrees x g double file s q ↔ Fits x g file s q := by
  cases q with
  | getConfig => exact getConfig_agrees_iff hg double file
  | getRules => exact getRules_agrees_iff hg double file
  | getConnections => exact getConnections_agrees_iff hg double file
  | getLogs => exact getLogs_agrees_iff hg double file
  | getStats => exact getStats_agrees_iff hg double file
  | getServiceStatus => exact getServiceStatus_agrees_iff hg double file
  | ping =>
    rw [Agrees, Fits, response_ping hg]
    decide
  | getStatus =>
    rw [Agrees, Fits, response_getStatus hg, getStatusAsync, withData_statusJson]
    simp
  | getVersion =>
    have hnull : getVersionAsync g (some versionJson) = some none := rfl
    rw [Agrees, Fits, response_getVersion hg, hnull]
    simp

namespace Demo

/-- The replies that are no dump. -/
def literals : List (Bytes × Json) :=
  [(Service.pingText, pingJson), (Service.versionText, versionJson), (Service.parseErrorText, parseErrorJson)]

open Classical in
/-- The library of the service: the texts of `known` are its own. -/
noncomputable def queryPlatform (known : List Json) : Platform where
  parse b := ((Json.ofText known Json.compact b).map Except.ok).getD
    (.error (ascii "[json.exception.parse_error.101] parse error"))
  dump j :=
    if j.Utf8 then .ok (Json.text known Json.compact j)
    else .error (ascii "[json.exception.type_error.316] invalid UTF-8 byte")
  toInt bits := bits.setWidth 32
  toUInt64 bits := bits
  read _ := .error (ascii "[json.exception.parse_error.101] parse error")
  dump4 j := .ok (j.indented 0)
  toUInt16 bits := bits.setWidth 16
  illFormed b := b.map fun _ => 0xFFFD
  protect _ b := some (1 :: b)
  unprotect b := b.tail?
  sort l := l.mergeSort fun r s => r.priority.toInt ≤ s.priority.toInt

/-- .NET, with the same texts. -/
noncomputable def queryRuntime (known : List Json) : Runtime where
  parse b := (literals.lookup b).or (Json.ofText known Json.compact b)
  serialize := Json.compact
  decode := utf8ToWide fun b => b.map fun _ => 0xFFFD
  toLowerInvariant s := s.map fun u => if 65 ≤ u.toNat ∧ u.toNat ≤ 90 then u + 32 else u

theorem queryRuntime_reads {known : List Json} (h : Json.Printed known Json.compact)
    (hliterals : known.all (fun j => (literals.lookup j.compact).isNone) = true) :
    (queryRuntime known).Reads (queryPlatform known) where
  dump_iff j := by
    simp only [queryPlatform]
    constructor
    · rintro ⟨b, hb⟩
      split at hb
      next hj => exact hj
      next => cases hb
    · exact fun hj => ⟨_, if_pos hj⟩
  parse_dump j b _ hb := by
    simp only [queryPlatform] at hb
    split at hb
    next =>
      cases hb
      have hnone : literals.lookup (Json.text known Json.compact j) = none := by
        by_cases hj : j ∈ known
        · rw [Json.text_of_mem hj]
          simpa using List.all_eq_true.mp hliterals j hj
        · rw [Json.text_of_not_mem hj]
          rfl
      simp only [queryRuntime, hnone, Option.none_or, Json.ofText_text h]
    next => cases hb
  parse_ping := rfl
  parse_version := rfl
  parse_parseError := rfl
  decode_utf8 cs := by simp only [queryRuntime, utf8ToWide, decodeUtf8_encodeUtf8]

/-- A service with a rule and a log entry, at its start. -/
def querying (tracker : ConnectionTracker) : ServiceMain where
  service := {
    manager := { config := { proxy.host := [] } }
    engine := [{ id := ascii "r", type := .global, pattern := [] }]
    relay := ⟨[], 3128, false, none, true⟩
    capture := {} }
  table := .empty
  tracker := tracker
  logger := Service.Logger.addToRingBuffer { timestamp := 17670000000000000, logger := ascii "service" } {}

/-- A connection of process 4. -/
def oneConnection : ConnectionTracker := ConnectionTracker.empty.addConnection { id := 1, pid := 4 }

/-- What is dumped in these states, and the empty file. -/
def queryReplies : List Json :=
  let idle := querying .empty
  let busy := querying oneConnection
  [.object [], dataReply (Json.null.set "proxy" (proxyOf { port := 3128 })),
    listReply "rules" (idle.service.engine.map Service.ruleJson), listReply "connections" [],
    listReply "connections" (busy.tracker.getActiveConnections.map (Service.connectionJson busy)),
    listReply "logs" (idle.logger.contents.map Service.logEntryJson), dataReply (statsData idle),
    dataReply ((Json.null.set "running" (.boolean true)).set "initialized" (.boolean true)), Service.statusJson idle]

theorem printed_queryReplies : Json.Printed queryReplies Json.compact := .of_nodup (by decide +kernel) (by decide +kernel)

theorem queries_reads : (queryRuntime queryReplies).Reads (queryPlatform queryReplies) :=
  queryRuntime_reads printed_queryReplies (by decide +kernel)

theorem contents_querying (tracker : ConnectionTracker) :
    (querying tracker).logger.contents = [{ timestamp := 17670000000000000, logger := ascii "service" }] := by
  have hring : (querying tracker).logger = Service.Logger.addToRingBuffer
      { timestamp := 17670000000000000, logger := ascii "service" } {} := rfl
  rw [hring]
  decide +kernel

theorem load_emptyFile : load (queryRuntime queryReplies) (Json.object []).compact = some (.object []) := by
  have hmem : Json.object [] ∈ queryReplies := List.mem_cons_self
  have hlookup : literals.lookup (Json.object []).compact = none := by decide
  have hparse : (queryRuntime queryReplies).parse (Json.object []).compact = some (.object []) := by
    have htext := Json.ofText_text printed_queryReplies (Json.object [])
    rw [Json.text_of_mem hmem] at htext
    simp only [queryRuntime, hlookup, Option.none_or, htext]
    rfl
  rw [load, hparse]

theorem fits_querying : ∀ q ∈ [Query.getConfig, .getRules, .getConnections, .getLogs, .getStats, .getServiceStatus],
    Fits (queryPlatform queryReplies) (queryRuntime queryReplies) (Json.object []).compact (querying .empty) q := by
  intro q hq
  cases q with
  | getConfig =>
    have hconfig : getProxyConfig (queryPlatform queryReplies) (querying .empty).service.manager = { port := 3128 } := by
      have hempty : widen (queryPlatform queryReplies) [] = [] := utf8ToWide_nil
      have hmanager : (querying .empty).service.manager = { config := { proxy.host := [] } } := rfl
      simp only [getProxyConfig, hmanager, hempty]
      rfl
    rw [Fits, hconfig, readString, readBool, readValue, readValue, load_emptyFile]
    exact ⟨⟨[], rfl⟩, rfl, rfl⟩
  | getRules =>
    intro r hr
    rw [List.mem_singleton.mp hr]
    exact ⟨utf8_ascii (by decide), ⟨[], rfl⟩, ⟨[], rfl⟩⟩
  | getConnections => rfl
  | getLogs =>
    rw [Fits, contents_querying]
    refine ⟨by decide, fun e he => ?_⟩
    rw [List.mem_singleton.mp he]
    exact ⟨utf8_ascii (by decide), utf8_ascii (s := "") (by decide), by decide, by decide, by decide⟩
  | getStats => exact ⟨by decide, by decide⟩
  | getServiceStatus => trivial
  | ping | getStatus | getVersion => simp at hq

/-- The query agrees with the service of `querying`. -/
def AgreesHere (q : Query) : Prop :=
  Agrees (queryPlatform queryReplies) (queryRuntime queryReplies) (fun _ => 0) (Json.object []).compact (querying .empty) q

end Demo

/-- With one rule and one log entry and without connections, six of the queries
agree. -/
theorem query_agrees_idle : Demo.AgreesHere .getConfig ∧ Demo.AgreesHere .getRules ∧ Demo.AgreesHere .getConnections ∧
    Demo.AgreesHere .getLogs ∧ Demo.AgreesHere .getStats ∧ Demo.AgreesHere .getServiceStatus := by
  have hagrees (q : Query) (hq : q ∈ [Query.getConfig, .getRules, .getConnections, .getLogs, .getStats, .getServiceStatus]) :
      Demo.AgreesHere q :=
    (query_agrees_iff _ _ Demo.queries_reads _ _ _ q).mpr (Demo.fits_querying q hq)
  exact ⟨hagrees _ (by decide), hagrees _ (by decide), hagrees _ (by decide), hagrees _ (by decide), hagrees _ (by decide),
    hagrees _ (by decide)⟩

/-- One active connection makes the query of the connections throw. -/
theorem get_connections_throws :
    (Demo.querying Demo.oneConnection).tracker.getActiveConnections.map (·.id) = [1] ∧
      getConnectionsAsync (Demo.queryRuntime Demo.queryReplies)
        (response (Demo.queryPlatform Demo.queryReplies) (Demo.queryRuntime Demo.queryReplies)
          (Demo.querying Demo.oneConnection) .getConnections) = none := by
  have hactive : (Demo.querying Demo.oneConnection).tracker.getActiveConnections = [{ id := 1, pid := 4 }] := by decide
  refine ⟨by rw [hactive]; rfl, getConnectionsAsync_throws Demo.queries_reads (fun c hc => ?_) (by rw [hactive]; simp)⟩
  rw [hactive] at hc
  rw [List.mem_singleton.mp hc]
  exact utf8_ascii (s := "") (by decide)

end TR.Impl.Gui
