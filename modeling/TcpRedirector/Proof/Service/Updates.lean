import TcpRedirector.Impl.Service.IpcHandler
import TcpRedirector.Impl.Service.Updates
import TcpRedirector.Proof.Service.FailedLoad

/-!
# Updates that fail

Every update assigns and then saves (`Update.run_eq`); none takes back what it
has assigned. So one that fails leaves no trace only if it has assigned what
was there, and has told nobody (`leavesNoTrace_iff`).
-/

namespace TR.Impl.Service

open ConfigManager

section

variable (x : Platform) (write : Write) (salt : Bytes)

/-- The password that an update is given. -/
def Update.password : Update → Option WString
  | .setProxyConfig config => if config.has_password then some config.plain_password else none
  | .setPassword plainPassword => some plainPassword
  | _ => none

/-- What an update assigns. -/
def Update.assigned (m : ConfigManager) : Update → ConfigManager
  | .setProxyConfig config => withProxyConfig x salt config m
  | .setLogLevel level => withLogLevel level m
  | .updateConfig newConfig => withConfig newConfig m
  | .setPassword plainPassword => withPassword x salt plainPassword m

/-- `CryptProtectData` takes the password, if there is one. -/
def Update.Encrypts (u : Update) : Prop :=
  ∀ password, u.password = some password → (x.protect salt (wideBytes password)).isSome = true

/-- The save of `m` reports success and, if the update has a password, gets it into the file. -/
def Update.Stores (m : ConfigManager) (u : Update) : Prop :=
  if u.password.isSome then Persists x write m else Saves x write m

variable (u : Update) (m : ConfigManager) (disk : Disk)

/-- The update returns false, or its password could not be encrypted or persisted. -/
def Failed : Prop :=
  (u.run x write salt m disk).result = some false ∨
  ∃ password, u.password = some password ∧
    (x.protect salt (wideBytes password) = none ∨ ¬Persists x write (u.assigned x salt m))

/-- An update that fails changes nothing and tells nobody. -/
def LeavesNoTrace : Prop :=
  Failed x write salt u m disk →
    (u.run x write salt m disk).manager = m ∧ (u.run x write salt m disk).notified = [] ∧
    (u.run x write salt m disk).disk = disk

/-- What an update returns after its save. -/
def Update.returns (saved : Bool) : Update → Option Bool
  | .setPassword _ => none
  | _ => some saved

/-- Whether an update notifies; only one does so before its save. -/
def Update.notifies (saved : Bool) : Update → Bool
  | .setProxyConfig _ => true
  | .setPassword _ => false
  | _ => saved

/-- A save would not change the file. -/
def UpToDate : Prop :=
  ∀ text file, x.dump4 m.toJson = .ok text → write.written text = some file → disk = some file

end

/-! ## What an update does -/

section

variable {x : Platform} {write : Write} {salt : Bytes} {u : Update} {m : ConfigManager} {disk : Disk}

theorem saveImpl_disk_iff : (saveImpl x write m disk).2 = disk ↔ UpToDate x write m disk := by
  rw [saveImpl, UpToDate]
  cases x.dump4 m.toJson with
  | error what => simp
  | ok text =>
    cases hfile : write.written text with
    | none =>
      refine iff_of_true (by simp only [hfile]) fun text' file htext hfile' => ?_
      cases htext
      cases hfile.symm.trans hfile'
    | some file =>
      simp only [hfile]
      refine ⟨fun h text' file' htext hfile' => ?_, fun h => (h text file rfl hfile).symm⟩
      cases htext
      rw [← h, ← hfile, hfile']

theorem saveAndNotify_eq (oldCfg : Config) :
    saveAndNotify x write oldCfg m disk =
      ⟨some (saveImpl x write m disk).1, m, (saveImpl x write m disk).2,
        if (saveImpl x write m disk).1 then [(oldCfg, m.config)] else []⟩ := by
  rw [saveAndNotify]
  cases saveImpl x write m disk with
  | mk saved disk' => cases saved <;> rfl

/-- Every update assigns, saves and returns; they differ in when they notify. -/
theorem Update.run_eq (u : Update) :
    u.run x write salt m disk =
      let saved := saveImpl x write (u.assigned x salt m) disk
      ⟨u.returns saved.1, u.assigned x salt m, saved.2,
        if u.notifies saved.1 then [(m.config, (u.assigned x salt m).config)] else []⟩ := by
  cases u with
  | setProxyConfig config => rfl
  | setLogLevel level => exact saveAndNotify_eq m.config
  | updateConfig newConfig => exact saveAndNotify_eq m.config
  | setPassword plainPassword => rfl

theorem not_saves_iff : (saveImpl x write m disk).1 = false ↔ ¬Saves x write m := by
  have hsaved : (saveImpl x write m disk).1 = true ↔ Saves x write m := saveImpl_fst_iff
  rw [← hsaved, Bool.not_eq_true]

theorem Persists.saves (h : Persists x write m) : Saves x write m := by
  obtain ⟨text, htext, hfile⟩ := h
  exact ⟨text, htext, by rw [hfile]; rfl⟩

theorem Update.Stores.saves (h : u.Stores x write m) : Saves x write m := by
  rw [Update.Stores] at h
  split at h
  · exact Persists.saves h
  · exact h

theorem failed_iff :
    Failed x write salt u m disk ↔ ¬(u.Encrypts x salt ∧ u.Stores x write (u.assigned x salt m)) := by
  rw [Failed, Update.run_eq]
  constructor
  · rintro (hresult | ⟨password, hpassword, hnone | hp⟩) ⟨hencrypts, hstores⟩
    · have hsaved : (saveImpl x write (u.assigned x salt m) disk).1 = false := by
        cases u with
        | setPassword => cases hresult
        | _ => exact Option.some.inj hresult
      exact not_saves_iff.mp hsaved hstores.saves
    · have hsome := hencrypts password hpassword
      rw [hnone] at hsome
      cases hsome
    · rw [Update.Stores, hpassword] at hstores
      exact hp hstores
  · intro h
    by_cases hstores : u.Stores x write (u.assigned x salt m)
    · have hencrypts : ¬u.Encrypts x salt := fun he => h ⟨he, hstores⟩
      simp only [Update.Encrypts, not_forall, Option.isSome_iff_ne_none, not_not] at hencrypts
      obtain ⟨password, hpassword, hnone⟩ := hencrypts
      exact .inr ⟨password, hpassword, .inl hnone⟩
    · rw [Update.Stores] at hstores
      cases hpassword : u.password with
      | some password =>
        rw [hpassword] at hstores
        exact .inr ⟨password, rfl, .inr hstores⟩
      | none =>
        rw [hpassword] at hstores
        cases u with
        | setPassword password => cases hpassword
        | _ => exact .inl (congrArg some (not_saves_iff.mpr hstores))

/-- Of an update that fails, only `SetProxyConfig` tells anybody. -/
theorem notified_of_failed (h : Failed x write salt u m disk) :
    (u.run x write salt m disk).notified = [] ↔ u.notifies false = false := by
  -- Without a password it is the save that has failed.
  have hsaved (hpassword : u.password = none) : (saveImpl x write (u.assigned x salt m) disk).1 = false := by
    refine not_saves_iff.mpr fun hsaves => failed_iff.mp h ⟨fun password hp => ?_, ?_⟩
    · rw [hpassword] at hp
      cases hp
    · rw [Update.Stores, hpassword]
      exact hsaves
  rw [Update.run_eq]
  cases u with
  | setProxyConfig config => simp [Update.notifies]
  | setPassword plainPassword => simp [Update.notifies]
  | setLogLevel level => simp [Update.notifies, hsaved rfl]
  | updateConfig newConfig => simp [Update.notifies, hsaved rfl]

end

/-- An update leaves no trace of a failure exactly if it does not fail or, when
it does not notify first, assigns what was there and has no other file to write. -/
theorem leavesNoTrace_iff (x : Platform) (write : Write) (salt : Bytes) (u : Update) (m : ConfigManager) (disk : Disk) :
    LeavesNoTrace x write salt u m disk ↔
      u.Encrypts x salt ∧ u.Stores x write (u.assigned x salt m) ∨
      u.notifies false = false ∧ u.assigned x salt m = m ∧ UpToDate x write m disk := by
  have hmanager : (u.run x write salt m disk).manager = u.assigned x salt m := by rw [Update.run_eq]
  have hdisk : (u.run x write salt m disk).disk = (saveImpl x write (u.assigned x salt m) disk).2 := by
    rw [Update.run_eq]
  rw [LeavesNoTrace, hmanager, hdisk]
  by_cases hfailed : Failed x write salt u m disk
  · have hfails := failed_iff.mp hfailed
    rw [notified_of_failed hfailed]
    constructor
    · intro h
      obtain ⟨hmanager, hfirst, hdisk⟩ := h hfailed
      rw [hmanager, saveImpl_disk_iff] at hdisk
      exact .inr ⟨hfirst, hmanager, hdisk⟩
    · rintro (h | ⟨hfirst, hmanager, hdisk⟩) -
      · exact absurd h hfails
      · rw [hmanager, saveImpl_disk_iff]
        exact ⟨rfl, hfirst, hdisk⟩
  · have hsucceeds := not_not.mp fun h => hfailed (failed_iff.mpr h)
    exact ⟨fun _ => .inl hsucceeds, fun _ h => absurd h hfailed⟩

/-- `set_config` is `SetProxyConfig` and another save; an error in either keeps what was assigned. -/
theorem setConfig_eq (x : Platform) (env : Env) {params : Bytes} {config : ProxyConfig}
    (hconfig : configOfParams x params = .ok config) (s : TcpRedirectorService) (disk : Disk) :
    let updated := (Update.setProxyConfig config).run x env.first env.salt s.manager disk
    let saved := saveImpl x env.second updated.manager updated.disk
    setConfig x env params s disk =
      if updated.result = some false then
        some ⟨failure (ascii "failed to save proxy config"), { s with manager := updated.manager }, updated.disk⟩
      else
        some ⟨if saved.1 then success else failure (ascii "failed to persist config"),
          { s with manager := updated.manager }, saved.2⟩ := by
  simp only [setConfig, hconfig, Update.run_eq, Update.assigned, Update.returns]
  cases saveImpl x env.first (withProxyConfig x env.salt config s.manager) disk with
  | mk saved disk' =>
    cases saved with
    | false => rfl
    | true =>
      dsimp only
      cases saveImpl x env.second (withProxyConfig x env.salt config s.manager) disk' with
      | mk saved disk'' => cases saved <;> rfl

/-- A `SetProxyConfig` whose file cannot be written. -/
theorem failed_update_keeps_host :
    let u := Update.setProxyConfig { host := [112], port := 8080 }
    let m : ConfigManager := {}
    let after := u.run (Demo.platform [] []) .refused [] m none
    after.result = some false ∧ after.manager ≠ m ∧ after.notified ≠ [] ∧
    ¬LeavesNoTrace (Demo.platform [] []) .refused [] u m none := by
  intro u m after
  have hresult : after.result = some false := rfl
  have hmanager : after.manager ≠ m := by
    intro h
    have hport := congrArg (·.config.proxy.port) h
    exact absurd hport (by decide)
  exact ⟨hresult, hmanager, nofun, fun h => hmanager (h (.inl hresult)).1⟩

end TR.Impl.Service
