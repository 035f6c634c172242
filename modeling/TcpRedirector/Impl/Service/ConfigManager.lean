import TcpRedirector.Impl.Auth.AuthAgent
import TcpRedirector.Impl.Service.Config
import TcpRedirector.TCB.Unicode

/-!
# The configuration manager

`ConfigManager.cpp`. `LoadImpl` assigns the fields one by one: an exception
keeps what was assigned before it. A save fails if the value has no text, or if
the file cannot be written, and then leaves the file as it was; a file that is
cut off when the stream is closed takes its place all the same. No listeners
are registered.
-/

namespace TR.Impl.Service

/-- `domain::ProxyConfig`. -/
structure ProxyConfig where
  host : WString := []
  port : BitVec 16 := 3128
  auth_required : Bool := false
  kerberos_auth : Bool := false
  login : WString := []
  has_password : Bool := false
  plain_password : WString := []
  deriving Repr, DecidableEq

/-- `m_config` and `m_rules`. -/
structure ConfigManager where
  config : Config := {}
  rules : List Rule := []
  deriving Repr, DecidableEq

/-- What becomes of the text that a save writes. -/
inductive Write where
  | complete
  /-- `good()` is asked before the stream is flushed; what it still holds then
  does not get onto the disk. -/
  | cut (n : Nat)
  /-- The file cannot be opened, written or renamed. -/
  | refused
  deriving Repr, DecidableEq

/-- What is in the file that replaces the old one, if it does. -/
def Write.written (text : Bytes) : Write → Option Bytes
  | complete => some text
  | cut n => some (text.take n)
  | refused => none

namespace ConfigManager

/-! ## Passwords -/

/-- The bytes of a wide string in memory. -/
def wideBytes (w : WString) : Bytes := w.flatMap fun u : BitVec 16 => [u.setWidth 8, (u >>> 8).setWidth 8]

/-- The wide string in so many bytes; an odd one is left over. -/
def ofWideBytes : Bytes → WString
  | low :: high :: b => (high ++ low) :: ofWideBytes b
  | _ => []

/-- `Base64Encode`, which is that of `SspiEngine`. -/
def base64Encode (data : Bytes) : Bytes := SspiEngine.base64Encode data

/-- The table of `Base64Decode`. -/
def D (c : Byte) : Byte :=
  if 65 ≤ c.toNat ∧ c.toNat ≤ 90 then c - 65
  else if 97 ≤ c.toNat ∧ c.toNat ≤ 122 then c - 97 + 26
  else if 48 ≤ c.toNat ∧ c.toNat ≤ 57 then c - 48 + 52
  else if c = 43 then 62
  else if c = 47 then 63
  else 0xFF

/-- The loop of `Base64Decode`; `val` is an `int` that wraps. -/
def decodeFrom (val : BitVec 32) (valb : Int) : Bytes → Bytes
  | [] => []
  | c :: data =>
    if D c = 0xFF then decodeFrom val valb data
    else
      let val := (val <<< 6) + (D c).setWidth 32
      let valb := valb + 6
      if 0 ≤ valb then (val.sshiftRight valb.toNat).setWidth 8 :: decodeFrom val (valb - 8) data
      else decodeFrom val valb data

def base64Decode (data : Bytes) : Bytes := decodeFrom 0 (-8) data

section

variable (x : Platform)

/-- `Utf8ToWide`. -/
def widen (s : Bytes) : WString := utf8ToWide x.illFormed s

def encryptPassword (salt : Bytes) (plaintext : WString) : Bytes :=
  match x.protect salt (wideBytes plaintext) with
  | some encrypted => base64Encode encrypted
  | none => []

def decryptPassword (ciphertext : Bytes) : WString :=
  let raw := base64Decode ciphertext
  if raw.isEmpty then []
  else
    match x.unprotect raw with
    | some plain => ofWideBytes plain
    | none => []

def getPlainPassword (m : ConfigManager) : WString :=
  if m.config.auth.encryptedPassword.isEmpty then [] else decryptPassword x m.config.auth.encryptedPassword

/-! ## Rules -/

/-- The body of the loop in `JsonToRules`. -/
def jsonToRule (r : Json) : Except JsonFault Rule := do
  let id ← r.value Json.getString "id" []
  let pattern ← r.constIndex "pattern" >>= Json.getString
  let description ← r.value Json.getString "description" []
  let priority ← r.value (Json.getInt x.toInt) "priority" 0
  let enabled ← r.value Json.getBool "enabled" true
  let type ← r.value Json.getString "type" (ascii "process_name")
  let action ← r.value Json.getString "action" (ascii "proxy")
  pure {
    id := id
    pattern := widen x pattern
    description := widen x description
    priority := priority
    enabled := enabled
    type := if type = ascii "process_path" then .processPath else if type = ascii "global" then .global else .processName
    action := if action = ascii "direct" then .direct else if action = ascii "block" then .block else .proxy }

def jsonToRules (j : Json) : Except JsonFault (List Rule) :=
  if j.contains "rules" then do
    let rules ← j.constIndex "rules"
    rules.elements.mapM (jsonToRule x)
  else pure []

end

/-- An `int` as a JSON number. -/
def jsonInt (n : BitVec 32) : Json := .integer (n.signExtend 64)

def ruleTypeName : RuleType → Bytes
  | .processPath => ascii "process_path"
  | .global => ascii "global"
  | _ => ascii "process_name"

def ruleActionName : RuleAction → Bytes
  | .direct => ascii "direct"
  | .block => ascii "block"
  | _ => ascii "proxy"

/-- The body of the loop in `RulesToJson`. -/
def ruleToJson (rule : Rule) : Json :=
  let r := Json.null
  let r := r.set "id" (.string rule.id)
  let r := r.set "pattern" (.string (wideToUtf8 rule.pattern))
  let r := r.set "description" (.string (wideToUtf8 rule.description))
  let r := r.set "priority" (jsonInt rule.priority)
  let r := r.set "enabled" (.boolean rule.enabled)
  let r := r.set "type" (.string (ruleTypeName rule.type))
  r.set "action" (.string (ruleActionName rule.action))

def rulesToJson (rules : List Rule) : Json := .array (rules.map ruleToJson)

/-! ## Saving -/

/-- The value that `SaveImpl` writes. -/
def toJson (m : ConfigManager) : Json :=
  let c := m.config
  let j := Json.null
  let j := j.put "app" "exePath" (.string (wideToUtf8 c.app.exePath))
  let j := j.put "proxy" "host" (.string c.proxy.host)
  let j := j.put "proxy" "port" (.unsigned (c.proxy.port.setWidth 64))
  let j := j.put "proxy" "enabled" (.boolean c.proxy.enabled)
  let j := j.put "auth" "enabled" (.boolean c.auth.enabled)
  let j := j.put "auth" "username" (.string c.auth.username)
  let j := j.put "auth" "encryptedPassword" (.string c.auth.encryptedPassword)
  let j := j.put "auth" "kerberos" (.boolean c.auth.kerberos)
  let j := j.put "log" "level" (jsonInt c.log.level)
  let j := j.put "log" "fileEnabled" (.boolean c.log.fileEnabled)
  let j := j.put "log" "maxSizeMB" (jsonInt c.log.maxSizeMB)
  let j := j.put "log_rotation" "enabled" (.boolean c.log_rotation.enabled)
  let j := j.put "log_rotation" "schedule" (.string c.log_rotation.schedule)
  let j := j.put "log_rotation" "hour" (jsonInt c.log_rotation.hour)
  let j := j.put "log_rotation" "minute" (jsonInt c.log_rotation.minute)
  let j := j.put "log_rotation" "max_age_days" (jsonInt c.log_rotation.max_age_days)
  let j := j.put "log_rotation" "archive_dir" (.string c.log_rotation.archive_dir)
  let j := j.put "log_rotation" "compress" (.boolean c.log_rotation.compress)
  let j := j.put "stats" "updateIntervalMs" (jsonInt c.stats.updateIntervalMs)
  j.set "rules" (rulesToJson m.rules)

section

variable (x : Platform)

/-- `SaveImpl`. -/
def saveImpl (write : Write) (m : ConfigManager) (disk : Disk) : Bool × Disk :=
  match x.dump4 m.toJson with
  | .error _ => (false, disk)
  | .ok text =>
    match write.written text with
    | some file => (true, some file)
    | none => (false, disk)

/-! ## Loading -/

/-- The assignments of `LoadImpl`. -/
abbrev LoadProg := EStateM JsonFault ConfigManager

/-- A read that may throw. -/
def access {α : Type} (r : Except JsonFault α) : LoadProg α := fun m =>
  match r with
  | .ok a => .ok a m
  | .error e => .error e m

/-- An assignment of what is read. -/
def assign {α : Type} (r : Except JsonFault α) (set : α → ConfigManager → ConfigManager) : LoadProg Unit := do
  let a ← access r
  modify (set a)

def loadApp (j : Json) : LoadProg Unit :=
  if j.contains "app" then do
    let a ← access (j.index "app")
    assign (a.index "exePath" >>= Json.getString) fun v m => { m with config.app.exePath := widen x v }
  else pure ()

def loadProxy (j : Json) : LoadProg Unit :=
  if j.contains "proxy" then do
    let p ← access (j.index "proxy")
    assign (p.value Json.getString "host" (ascii "127.0.0.1")) fun v m => { m with config.proxy.host := v }
    assign (p.value (Json.getInt x.toInt) "port" 3128) fun v m => { m with config.proxy.port := v.setWidth 16 }
    assign (p.value Json.getBool "enabled" true) fun v m => { m with config.proxy.enabled := v }
  else pure ()

def loadAuth (j : Json) : LoadProg Unit :=
  if j.contains "auth" then do
    let a ← access (j.index "auth")
    assign (a.value Json.getBool "enabled" false) fun v m => { m with config.auth.enabled := v }
    assign (a.value Json.getString "username" []) fun v m => { m with config.auth.username := v }
    assign (a.value Json.getString "encryptedPassword" []) fun v m => { m with config.auth.encryptedPassword := v }
    assign (a.value Json.getBool "kerberos" false) fun v m => { m with config.auth.kerberos := v }
  else pure ()

def loadLog (j : Json) : LoadProg Unit :=
  if j.contains "log" then do
    let l ← access (j.index "log")
    assign (l.value (Json.getInt x.toInt) "level" 2) fun v m => { m with config.log.level := v }
    assign (l.value Json.getBool "fileEnabled" true) fun v m => { m with config.log.fileEnabled := v }
    assign (l.value (Json.getInt x.toInt) "maxSizeMB" 10) fun v m => { m with config.log.maxSizeMB := v }
  else pure ()

def loadStats (j : Json) : LoadProg Unit :=
  if j.contains "stats" then do
    let s ← access (j.index "stats")
    assign (s.value (Json.getInt x.toInt) "updateIntervalMs" 2000) fun v m => { m with config.stats.updateIntervalMs := v }
  else pure ()

def loadLogRotation (j : Json) : LoadProg Unit :=
  if j.contains "log_rotation" then do
    let lr ← access (j.index "log_rotation")
    assign (lr.value Json.getBool "enabled" true) fun v m => { m with config.log_rotation.enabled := v }
    assign (lr.value Json.getString "schedule" (ascii "daily")) fun v m => { m with config.log_rotation.schedule := v }
    assign (lr.value (Json.getInt x.toInt) "hour" 3) fun v m => { m with config.log_rotation.hour := v }
    assign (lr.value (Json.getInt x.toInt) "minute" 0) fun v m => { m with config.log_rotation.minute := v }
    assign (lr.value (Json.getInt x.toInt) "max_age_days" 30) fun v m => { m with config.log_rotation.max_age_days := v }
    assign (lr.value Json.getString "archive_dir" []) fun v m => { m with config.log_rotation.archive_dir := v }
    assign (lr.value Json.getBool "compress" true) fun v m => { m with config.log_rotation.compress := v }
  else pure ()

def loadRules (j : Json) : LoadProg Unit :=
  if j.contains "rules" then assign (jsonToRules x j) fun v m => { m with rules := v } else pure ()

/-- What `LoadImpl` does with the value it has read. -/
def loadJson (j : Json) : LoadProg Unit := do
  loadApp x j
  loadProxy x j
  loadAuth j
  loadLog x j
  loadStats x j
  loadLogRotation x j
  loadRules x j

/-- `CreateDefaultConfig`, up to its save. -/
def defaultConfig (m : ConfigManager) : ConfigManager where
  config := {
    app.exePath := (ascii "C:\\Projects\\china\\police_sec\\TransfersClient.exe").map (·.setWidth 16)
    proxy.host := ascii "127.0.0.1"
    proxy.port := 8888
    proxy.enabled := true }
  rules := m.rules ++ [{
    id := ascii "default"
    type := .processName
    action := .proxy
    pattern := (ascii "TransfersClient.exe").map (·.setWidth 16)
    description := (ascii "Redirect TcpRedirector traffic").map (·.setWidth 16)
    priority := 1
    enabled := true }]

/-- What a load returns: its result with the state it leaves. Without a result
its behaviour is undefined. -/
structure Loaded where
  result : Option Bool
  manager : ConfigManager
  disk : Disk
  deriving Repr, DecidableEq

/-- `LoadImpl`; a file that exists can be opened. -/
def loadImpl (write : Write) (m : ConfigManager) (disk : Disk) : Loaded :=
  match disk with
  | none =>
    let m := m.defaultConfig
    let (saved, disk) := saveImpl x write m disk
    ⟨some saved, m, disk⟩
  | some text =>
    match x.read text with
    | .error _ => ⟨some false, m, disk⟩
    | .ok j =>
      match loadJson x j m with
      | .ok _ m => ⟨some true, m, disk⟩
      | .error (.exception _) m => ⟨some false, m, disk⟩
      | .error .undefined m => ⟨none, m, disk⟩

/-! ## Settings -/

def getProxyConfig (m : ConfigManager) : ProxyConfig where
  host := widen x m.config.proxy.host
  port := m.config.proxy.port
  auth_required := m.config.auth.enabled
  kerberos_auth := m.config.auth.kerberos
  login := widen x m.config.auth.username
  has_password := !m.config.auth.encryptedPassword.isEmpty
  plain_password := if m.config.auth.encryptedPassword.isEmpty then [] else decryptPassword x m.config.auth.encryptedPassword

/-- The assignments of `SetProxyConfig`. -/
def withProxyConfig (salt : Bytes) (config : ProxyConfig) (m : ConfigManager) : ConfigManager :=
  { m with
    config.proxy := { host := wideToUtf8 config.host, port := config.port, enabled := true }
    config.auth.enabled := config.auth_required
    config.auth.kerberos := config.kerberos_auth
    config.auth.username := wideToUtf8 config.login
    config.auth.encryptedPassword :=
      if config.has_password then encryptPassword x salt config.plain_password else m.config.auth.encryptedPassword }

end

/-- The assignment of `SetLogLevel`. -/
def withLogLevel (level : BitVec 32) (m : ConfigManager) : ConfigManager :=
  { m with config.log.level := if level.toNat ≤ 4 then level else 2 }

end ConfigManager

end TR.Impl.Service
