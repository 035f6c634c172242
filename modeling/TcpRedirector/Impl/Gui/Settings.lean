import TcpRedirector.Impl.Gui.Config
import TcpRedirector.Impl.Service.IpcHandler

/-!
# The settings page

`SettingsViewModel.cs` with the hooks of its properties, and the calls of
`IpcClient.cs` that it makes, up to the answer of the service. The answers
arrive in time.
-/

namespace TR.Impl.Gui

open Service (TcpRedirectorService Env Disk Platform handle)

structure ViewModel where
  host : WString := []
  port : BitVec 32 := 3128
  authRequired : Bool := false
  login : WString := []
  password : WString := []
  kerberosEnabled : Bool := false
  authModeIndex : BitVec 32 := 0
  logLevelFilter : BitVec 32 := 2
  rules : List Rule := []
  deriving Repr, DecidableEq

namespace ViewModel

/-! ## Properties with hooks

An assignment that changes a property runs its hook, and the hooks assign each
other's properties: `n` bounds how deep. -/

mutual

def setAuthModeIndex : Nat → BitVec 32 → ViewModel → ViewModel
  | 0, _, vm => vm
  | n + 1, value, vm =>
    if value = vm.authModeIndex then vm
    else setKerberosEnabled n (value == 1) { vm with authModeIndex := value }

def setKerberosEnabled : Nat → Bool → ViewModel → ViewModel
  | 0, _, vm => vm
  | n + 1, value, vm =>
    if value = vm.kerberosEnabled then vm
    else
      let vm := { vm with kerberosEnabled := value }
      let vm := if value && !vm.authRequired then setAuthRequired n true vm else vm
      setAuthModeIndex n (if value then 1 else 0) vm

def setAuthRequired : Nat → Bool → ViewModel → ViewModel
  | 0, _, vm => vm
  | n + 1, value, vm =>
    if value = vm.authRequired then vm
    else
      let vm := { vm with authRequired := value }
      if !value && vm.kerberosEnabled then setKerberosEnabled n false vm else vm

end

/-- How deep the hooks go. -/
def hookDepth : Nat := 5

/-- What the page can change. -/
inductive Edit where
  | host (value : WString)
  | port (value : BitVec 32)
  | authRequired (value : Bool)
  | authModeIndex (value : BitVec 32)
  | login (value : WString)
  | password (value : WString)
  | logLevelFilter (value : BitVec 32)
  | rules (value : List Rule)
  deriving Repr, DecidableEq

def edit (vm : ViewModel) : Edit → ViewModel
  | .host value => { vm with host := value }
  | .port value => { vm with port := value }
  | .authRequired value => setAuthRequired hookDepth value vm
  | .authModeIndex value => setAuthModeIndex hookDepth value vm
  | .login value => { vm with login := value }
  | .password value => { vm with password := value }
  | .logLevelFilter value => { vm with logLevelFilter := value }
  | .rules value => { vm with rules := value }

/-- `LoadFromConfig`, without the request of `OnLogLevelFilterChanged`. -/
def loadFromConfig (g : Runtime) (guid now : WString) (text : Bytes) (vm : ViewModel) : ViewModel :=
  let vm := { vm with host := readString g text "proxy" "host" (literal "127.0.0.1") }
  let portStr := readString g text "proxy" "port" (literal "3128")
  let vm := { vm with port := (intTryParse portStr).getD 3128 }
  let vm := setAuthRequired hookDepth (readBool g text "auth" "enabled") vm
  let vm := setKerberosEnabled hookDepth (readBool g text "auth" "kerberos") vm
  let vm := setAuthModeIndex hookDepth (if vm.kerberosEnabled then 1 else 0) vm
  { vm with
    login := readString g text "auth" "username" []
    password := []
    logLevelFilter := readInt g text "log" "level" 2
    rules := readRules g guid now text }

end ViewModel

/-! ## Requests -/

/-- A string of .NET as a JSON value. -/
def jsonString (s : WString) : Json := .string (wideToUtf8 s)

/-- An `int` as a JSON value. -/
def jsonInt (n : BitVec 32) : Json := .integer (n.signExtend 64)

/-- The parameters of `SetConfigAsync`. -/
def setConfigParams (vm : ViewModel) : Json :=
  let p := Json.null
  let p := p.set "host" (jsonString vm.host)
  let p := p.set "port" (jsonInt vm.port)
  let p := p.set "auth_required" (.boolean vm.authRequired)
  let p := p.set "kerberos" (.boolean vm.kerberosEnabled)
  let p := p.set "login" (jsonString vm.login)
  let p := p.set "set_password" (.boolean !vm.password.isEmpty)
  p.set "password" (jsonString vm.password)

/-- A rule with the names of `SnakeCaseLower`. -/
def ruleParams (r : Rule) : Json :=
  let p := Json.null
  let p := p.set "id" (jsonString r.id)
  let p := p.set "type" (jsonInt r.type)
  let p := p.set "action" (jsonInt r.action)
  let p := p.set "pattern" (jsonString r.pattern)
  let p := p.set "description" (jsonString r.description)
  let p := p.set "priority" (jsonInt r.priority)
  let p := p.set "enabled" (.boolean r.enabled)
  let p := p.set "created" (jsonString r.created)
  p.set "modified" (jsonString r.modified)

/-- The parameters of `SetRulesAsync`. -/
def setRulesParams (rules : List Rule) : Json := Json.null.set "rules" (.array (rules.map ruleParams))

/-- The parameters of `SetLogLevelAsync`. -/
def setLogLevelParams (level : BitVec 32) : Json := Json.null.set "level" (jsonInt level)

/-- The request of `Call`; its parameters are a string. -/
def envelope (g : Runtime) (id : WString) (method : String) (params : Json) : Json :=
  let req := Json.null
  let req := req.set "type" (.string (ascii "request"))
  let req := req.set "id" (jsonString id)
  let req := req.set "method" (.string (ascii method))
  req.set "params" (.string (g.serialize params))

/-! ## The service's end of the pipe -/

/-- The service, its file and whether the pipe is connected. -/
structure Session where
  service : TcpRedirectorService
  disk : Disk
  connected : Bool := true

/-- Whether a response has `"status": "success"`. -/
def isSuccess (response : Json) : Bool :=
  match response.entry "status" with
  | some (.string s) => s == ascii "success"
  | _ => false

/-- `sizeof(buffer) - 1`. -/
def pipeBuffer : Nat := 65535

/-- The request that a method and its parameters stand for, of those that the page makes. -/
def requestOf (method params : Bytes) : Option Service.Request :=
  if method = ascii "set_config" then some (.setConfig params)
  else if method = ascii "set_rules" then some (.setRules params)
  else if method = ascii "set_log_level" then some (.setLogLevel params)
  else none

/-- One round of the client I/O loop. A message that fills the buffer is
rejected; a longer one makes `ReadFile` fail, and the client is disconnected.
Without a result the behaviour of the service is undefined. -/
def serveRequest (x : Platform) (env : Env) (message : Bytes) (w : Session) : Option (Bool × Session) :=
  if pipeBuffer < message.length then some (false, { w with connected := false })
  else if message.length = pipeBuffer then some (false, w)
  else
    match x.parse message with
    | .error _ => some (false, w)
    | .ok j =>
      match (do
          let method ← j.value Json.getString "method" []
          let params ← j.value Json.getString "params" []
          pure (requestOf method params)) with
      | .ok (some r) =>
        match handle x env r w.service w.disk with
        | some a => some (isSuccess a.response, { w with service := a.service, disk := a.disk })
        | none => none
      | _ => some (false, w)

/-- `Call`, and whether its answer is a success. -/
def call (x : Platform) (g : Runtime) (env : Env) (id : WString) (method : String) (params : Json) (w : Session) :
    Option (Bool × Session) :=
  if w.connected then serveRequest x env (g.serialize (envelope g id method params)) w else some (false, w)

/-! ## Saving -/

/-- What happens outside while the page is opened and saved. -/
structure PageEnv where
  guid : WString := []
  now : WString := []
  /-- The ids of the calls. -/
  ids : Nat → WString := fun _ => []
  /-- What happens in the service during them. -/
  envs : Nat → Env := fun _ => {}

section

variable (x : Platform) (g : Runtime) (e : PageEnv)

/-- `LoadFromConfig` with its request: a changed log level is sent to the service. -/
def openPage (text : Bytes) (vm : ViewModel) (w : Session) : Option (ViewModel × Session) :=
  let vm' := vm.loadFromConfig g e.guid e.now text
  if vm'.logLevelFilter = vm.logLevelFilter then some (vm', w)
  else
    match call x g (e.envs 0) (e.ids 0) "set_log_level" (setLogLevelParams vm'.logLevelFilter) w with
    | none => none
    | some (_, w) => some (vm', w)

/-- `SaveAsync`: the rules, whose answer is ignored, the configuration and, if
that was a success, the log level. -/
def saveAsync (vm : ViewModel) (w : Session) : Option Session :=
  if w.connected then
    match call x g (e.envs 1) (e.ids 1) "set_rules" (setRulesParams vm.rules) w with
    | none => none
    | some (_, w) =>
      match call x g (e.envs 2) (e.ids 2) "set_config" (setConfigParams vm) w with
      | none => none
      | some (false, w) => some w
      | some (true, w) =>
        match call x g (e.envs 3) (e.ids 3) "set_log_level" (setLogLevelParams vm.logLevelFilter) w with
        | none => none
        | some (_, w) => some w
  else some w

/-- The page is opened and saved without an edit. -/
def openAndSave (text : Bytes) (vm : ViewModel) (w : Session) : Option Session :=
  match openPage x g e text vm w with
  | none => none
  | some (vm, w) => saveAsync x g e vm w

end

end TR.Impl.Gui
