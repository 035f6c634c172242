import TcpRedirector.Impl.Service.ConfigManager

/-!
# Updates of the configuration

The functions of `ConfigManager.cpp` that change the configuration and save
it. They assign first; a save that fails leaves the assignments as they are.
-/

namespace TR.Impl.Service

/-- What an update returns and leaves, and the calls of `NotifyListeners`. -/
structure Updated where
  /-- None for a `void` function. -/
  result : Option Bool
  manager : ConfigManager
  disk : Disk
  /-- What each listener is called with. -/
  notified : List (Config × Config) := []
  deriving Repr, DecidableEq

namespace ConfigManager

variable (x : Platform) (write : Write)

/-- `SetProxyConfig`, which notifies before it saves. -/
def setProxyConfig (salt : Bytes) (config : ProxyConfig) (m : ConfigManager) (disk : Disk) : Updated :=
  let oldCfg := m.config
  let m := withProxyConfig x salt config m
  let (saved, disk) := saveImpl x write m disk
  ⟨some saved, m, disk, [(oldCfg, m.config)]⟩

/-- The end of `SetLogLevel` and `UpdateConfig`. -/
def saveAndNotify (oldCfg : Config) (m : ConfigManager) (disk : Disk) : Updated :=
  match saveImpl x write m disk with
  | (true, disk) => ⟨some true, m, disk, [(oldCfg, m.config)]⟩
  | (false, disk) => ⟨some false, m, disk, []⟩

def setLogLevel (level : BitVec 32) (m : ConfigManager) (disk : Disk) : Updated :=
  saveAndNotify x write m.config (withLogLevel level m) disk

/-- The assignment of `UpdateConfig`, which keeps the password if there is none in the new configuration. -/
def withConfig (newConfig : Config) (m : ConfigManager) : ConfigManager :=
  if newConfig.auth.encryptedPassword.isEmpty && !m.config.auth.encryptedPassword.isEmpty then
    let tmp := { newConfig with auth.encryptedPassword := m.config.auth.encryptedPassword }
    { m with config := tmp }
  else { m with config := newConfig }

def updateConfig (newConfig : Config) (m : ConfigManager) (disk : Disk) : Updated :=
  saveAndNotify x write m.config (withConfig newConfig m) disk

/-- The assignment of `SetPassword`. -/
def withPassword (salt : Bytes) (plainPassword : WString) (m : ConfigManager) : ConfigManager :=
  { m with config.auth.encryptedPassword := encryptPassword x salt plainPassword }

/-- `SetPassword`, which does not look at the result of the save. -/
def setPassword (salt : Bytes) (plainPassword : WString) (m : ConfigManager) (disk : Disk) : Updated :=
  let m := withPassword x salt plainPassword m
  ⟨none, m, (saveImpl x write m disk).2, []⟩

end ConfigManager

/-- The updates. -/
inductive Update where
  | setProxyConfig (config : ProxyConfig)
  | setLogLevel (level : BitVec 32)
  | updateConfig (newConfig : Config)
  | setPassword (plainPassword : WString)
  deriving Repr, DecidableEq

/-- An update of `m`; `salt` are the random numbers that `CryptProtectData` takes. -/
def Update.run (x : Platform) (write : Write) (salt : Bytes) (m : ConfigManager) (disk : Disk) : Update → Updated
  | .setProxyConfig config => m.setProxyConfig x write salt config disk
  | .setLogLevel level => m.setLogLevel x write level disk
  | .updateConfig newConfig => m.updateConfig x write newConfig disk
  | .setPassword plainPassword => m.setPassword x write salt plainPassword disk

end TR.Impl.Service
