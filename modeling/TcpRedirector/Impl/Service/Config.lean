import TcpRedirector.Impl.RuleEngine
import TcpRedirector.TCB.Json

/-!
# The configuration

`Config.h`, and the parts of Windows and of the libraries that the service
uses on it.
-/

namespace TR.Impl.Service

structure AppSettings where
  exePath : WString := []
  deriving Repr, DecidableEq

structure ProxySettings where
  host : Bytes := ascii "127.0.0.1"
  port : BitVec 16 := 3128
  enabled : Bool := true
  deriving Repr, DecidableEq

inductive AuthenticationMode where
  | kerberosOnly | kerberosPreferred | basicOnly
  deriving Repr, DecidableEq

structure AuthSettings where
  enabled : Bool := false
  username : Bytes := []
  encryptedPassword : Bytes := []
  kerberos : Bool := false
  authMode : AuthenticationMode := .kerberosPreferred
  deriving Repr, DecidableEq

structure LogSettings where
  level : BitVec 32 := 2
  fileEnabled : Bool := true
  maxSizeMB : BitVec 32 := 10
  deriving Repr, DecidableEq

structure LogRotationSettings where
  enabled : Bool := true
  schedule : Bytes := ascii "daily"
  hour : BitVec 32 := 3
  minute : BitVec 32 := 0
  max_age_days : BitVec 32 := 30
  archive_dir : Bytes := []
  compress : Bool := true
  deriving Repr, DecidableEq

structure StatsSettings where
  updateIntervalMs : BitVec 32 := 2000
  deriving Repr, DecidableEq

structure Config where
  app : AppSettings := {}
  proxy : ProxySettings := {}
  auth : AuthSettings := {}
  log : LogSettings := {}
  log_rotation : LogRotationSettings := {}
  stats : StatsSettings := {}
  deriving Repr, DecidableEq

/-- What the service calls of Windows and of the libraries. -/
structure Platform extends JsonText where
  /-- `file >> j`, which ignores what follows the value. -/
  read : Bytes → Except Bytes Json
  /-- `dump(4)`. -/
  dump4 : Json → Except Bytes Bytes
  /-- `static_cast<uint16_t>` of a `double`. -/
  toUInt16 : BitVec 64 → BitVec 16
  /-- `MultiByteToWideChar` of bytes that are not UTF-8. -/
  illFormed : Bytes → WString
  /-- `CryptProtectData`, with the random numbers it takes. -/
  protect : Bytes → Bytes → Option Bytes
  /-- `CryptUnprotectData`. -/
  unprotect : Bytes → Option Bytes
  /-- `std::sort` by priority. -/
  sort : List Rule → List Rule

/-- The file `config.json`, if it exists. -/
abbrev Disk := Option Bytes

end TR.Impl.Service

namespace TR.Impl

/-- `static_cast<RuleType>`. -/
def RuleType.ofInt (v : BitVec 32) : RuleType :=
  if h : 3 ≤ v.toNat then .unnamed ⟨v, h⟩
  else if v = 0 then .processName
  else if v = 1 then .processPath
  else .global

/-- `static_cast<int>`. -/
def RuleType.toInt : RuleType → BitVec 32
  | .processName => 0
  | .processPath => 1
  | .global => 2
  | .unnamed v => v.1

/-- `static_cast<RuleAction>`. -/
def RuleAction.ofInt (v : BitVec 32) : RuleAction :=
  if h : 3 ≤ v.toNat then .unnamed ⟨v, h⟩
  else if v = 0 then .proxy
  else if v = 1 then .direct
  else .block

/-- `static_cast<int>`. -/
def RuleAction.toInt : RuleAction → BitVec 32
  | .proxy => 0
  | .direct => 1
  | .block => 2
  | .unnamed v => v.1

end TR.Impl
