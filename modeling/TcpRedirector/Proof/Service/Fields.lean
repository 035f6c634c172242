import TcpRedirector.Impl.Service.ConfigManager
import TcpRedirector.Proof.Framework.Entries
import TcpRedirector.Proof.Framework.Fields

/-!
# The assignments of a load

`LoadImpl` as a list: the fields it assigns, in their order, with the values
that the file has for them (`loadSteps`). It assigns them until one has none
(`loadJson_eq`), and no field twice (`nodup_loadSteps`).
-/

namespace TR.Impl.Service

/-- The fields that a load assigns. -/
inductive Field where
  | exePath
  | host | port | proxyEnabled
  | authEnabled | username | encryptedPassword | kerberos
  | level | fileEnabled | maxSizeMB
  | updateIntervalMs
  | rotationEnabled | schedule | hour | minute | maxAgeDays | archiveDir | compress
  | rules
  deriving Repr, DecidableEq

namespace Field

def Value : Field → Type
  | exePath => WString
  | host | username | encryptedPassword | schedule | archiveDir => Bytes
  | port => BitVec 16
  | proxyEnabled | authEnabled | kerberos | fileEnabled | rotationEnabled | compress => Bool
  | level | maxSizeMB | updateIntervalMs | hour | minute | maxAgeDays => BitVec 32
  | rules => List Rule

def get : (f : Field) → ConfigManager → f.Value
  | exePath, m => m.config.app.exePath
  | host, m => m.config.proxy.host
  | port, m => m.config.proxy.port
  | proxyEnabled, m => m.config.proxy.enabled
  | authEnabled, m => m.config.auth.enabled
  | username, m => m.config.auth.username
  | encryptedPassword, m => m.config.auth.encryptedPassword
  | kerberos, m => m.config.auth.kerberos
  | level, m => m.config.log.level
  | fileEnabled, m => m.config.log.fileEnabled
  | maxSizeMB, m => m.config.log.maxSizeMB
  | updateIntervalMs, m => m.config.stats.updateIntervalMs
  | rotationEnabled, m => m.config.log_rotation.enabled
  | schedule, m => m.config.log_rotation.schedule
  | hour, m => m.config.log_rotation.hour
  | minute, m => m.config.log_rotation.minute
  | maxAgeDays, m => m.config.log_rotation.max_age_days
  | archiveDir, m => m.config.log_rotation.archive_dir
  | compress, m => m.config.log_rotation.compress
  | rules, m => m.rules

def set : (f : Field) → f.Value → ConfigManager → ConfigManager
  | exePath, v, m => { m with config.app.exePath := v }
  | host, v, m => { m with config.proxy.host := v }
  | port, v, m => { m with config.proxy.port := v }
  | proxyEnabled, v, m => { m with config.proxy.enabled := v }
  | authEnabled, v, m => { m with config.auth.enabled := v }
  | username, v, m => { m with config.auth.username := v }
  | encryptedPassword, v, m => { m with config.auth.encryptedPassword := v }
  | kerberos, v, m => { m with config.auth.kerberos := v }
  | level, v, m => { m with config.log.level := v }
  | fileEnabled, v, m => { m with config.log.fileEnabled := v }
  | maxSizeMB, v, m => { m with config.log.maxSizeMB := v }
  | updateIntervalMs, v, m => { m with config.stats.updateIntervalMs := v }
  | rotationEnabled, v, m => { m with config.log_rotation.enabled := v }
  | schedule, v, m => { m with config.log_rotation.schedule := v }
  | hour, v, m => { m with config.log_rotation.hour := v }
  | minute, v, m => { m with config.log_rotation.minute := v }
  | maxAgeDays, v, m => { m with config.log_rotation.max_age_days := v }
  | archiveDir, v, m => { m with config.log_rotation.archive_dir := v }
  | compress, v, m => { m with config.log_rotation.compress := v }
  | rules, v, m => { m with rules := v }

/-- The section of the file that the field is in. -/
def sectionKey : Field → String
  | exePath => "app"
  | host | port | proxyEnabled => "proxy"
  | authEnabled | username | encryptedPassword | kerberos => "auth"
  | level | fileEnabled | maxSizeMB => "log"
  | updateIntervalMs => "stats"
  | rotationEnabled | schedule | hour | minute | maxAgeDays | archiveDir | compress => "log_rotation"
  | rules => "rules"

end Field

/-- The configuration manager by its fields. -/
def configFields : Fields ConfigManager Field where
  Value := Field.Value
  get := Field.get
  set := Field.set
  get_set f v m := by cases f <;> rfl
  get_set_of_ne f g v m h := by cases f <;> cases g <;> first | rfl | exact absurd rfl h
  set_get f m := by cases f <;> rfl

namespace ConfigManager

/-- A field with what the file has for it. -/
abbrev Step : Type := configFields.Attempt JsonFault

/-- The steps of a section, if the file has it. -/
def sectionSteps (j : Json) (key : String) (steps : Json → List Step) : List Step :=
  match j.entry key with
  | some a => steps a
  | none => []

section

variable (x : Platform)

def appSteps (a : Json) : List Step := [⟨.exePath, (a.index "exePath" >>= Json.getString).map (widen x)⟩]

def proxySteps (p : Json) : List Step := [
  ⟨.host, p.value Json.getString "host" (ascii "127.0.0.1")⟩,
  ⟨.port, (p.value (Json.getInt x.toInt) "port" 3128).map (·.setWidth 16)⟩,
  ⟨.proxyEnabled, p.value Json.getBool "enabled" true⟩]

def authSteps (a : Json) : List Step := [
  ⟨.authEnabled, a.value Json.getBool "enabled" false⟩,
  ⟨.username, a.value Json.getString "username" []⟩,
  ⟨.encryptedPassword, a.value Json.getString "encryptedPassword" []⟩,
  ⟨.kerberos, a.value Json.getBool "kerberos" false⟩]

def logSteps (l : Json) : List Step := [
  ⟨.level, l.value (Json.getInt x.toInt) "level" (2 : BitVec 32)⟩,
  ⟨.fileEnabled, l.value Json.getBool "fileEnabled" true⟩,
  ⟨.maxSizeMB, l.value (Json.getInt x.toInt) "maxSizeMB" (10 : BitVec 32)⟩]

def statsSteps (s : Json) : List Step := [
  ⟨.updateIntervalMs, s.value (Json.getInt x.toInt) "updateIntervalMs" (2000 : BitVec 32)⟩]

def logRotationSteps (lr : Json) : List Step := [
  ⟨.rotationEnabled, lr.value Json.getBool "enabled" true⟩,
  ⟨.schedule, lr.value Json.getString "schedule" (ascii "daily")⟩,
  ⟨.hour, lr.value (Json.getInt x.toInt) "hour" (3 : BitVec 32)⟩,
  ⟨.minute, lr.value (Json.getInt x.toInt) "minute" (0 : BitVec 32)⟩,
  ⟨.maxAgeDays, lr.value (Json.getInt x.toInt) "max_age_days" (30 : BitVec 32)⟩,
  ⟨.archiveDir, lr.value Json.getString "archive_dir" []⟩,
  ⟨.compress, lr.value Json.getBool "compress" true⟩]

def loadSteps (j : Json) : List Step :=
  sectionSteps j "app" (appSteps x) ++ sectionSteps j "proxy" (proxySteps x) ++ sectionSteps j "auth" authSteps ++
    sectionSteps j "log" (logSteps x) ++ sectionSteps j "stats" (statsSteps x) ++
    sectionSteps j "log_rotation" (logRotationSteps x) ++ sectionSteps j "rules" fun _ => [⟨.rules, jsonToRules x j⟩]

end

/-- The steps one by one. -/
def runSteps : List Step → LoadProg Unit
  | [] => pure ()
  | s :: l => do
    assign s.2 (configFields.set s.1)
    runSteps l

section

variable {x : Platform} {j : Json} {m : ConfigManager}

theorem assign_map {α β : Type} (r : Except JsonFault α) (g : α → β) (set : β → ConfigManager → ConfigManager) :
    assign (r.map g) set = assign r fun v => set (g v) := by
  cases r <;> rfl

theorem runSteps_append (l l' : List Step) : runSteps (l ++ l') = runSteps l >>= fun _ => runSteps l' := by
  induction l with
  | nil => rfl
  | cons s l ih => rw [List.cons_append, runSteps, runSteps, ih, bind_assoc]

/-- A section is read from its value. -/
theorem runSteps_section {key : String} {steps : Json → List Step} {p : Json → LoadProg Unit}
    (h : ∀ a, p a = runSteps (steps a)) :
    (if j.contains key then do
      let a ← access (j.index key)
      p a
    else pure ()) = runSteps (sectionSteps j key steps) := by
  rw [sectionSteps, Json.contains_eq_isSome]
  cases hj : j.entry key with
  | none => rfl
  | some a =>
    rw [Json.index_of_entry hj]
    exact h a

theorem loadJson_eq (x : Platform) (j : Json) : loadJson x j = runSteps (loadSteps x j) := by
  have happ : loadApp x j = runSteps (sectionSteps j "app" (appSteps x)) := runSteps_section fun a => by
    simp only [appSteps, runSteps, bind_pure_unit]
    exact (assign_map (a.index "exePath" >>= Json.getString) (widen x) (Field.set .exePath)).symm
  have hproxy : loadProxy x j = runSteps (sectionSteps j "proxy" (proxySteps x)) := runSteps_section fun p => by
    have hport := assign_map (p.value (Json.getInt x.toInt) "port" 3128) (·.setWidth 16) (Field.set .port)
    simp only [proxySteps, runSteps, bind_pure_unit]
    exact congrArg (fun q => assign (p.value Json.getString "host" (ascii "127.0.0.1")) (Field.set .host) >>= fun _ =>
      q >>= fun _ => assign (p.value Json.getBool "enabled" true) (Field.set .proxyEnabled)) hport.symm
  have hauth : loadAuth j = runSteps (sectionSteps j "auth" authSteps) := runSteps_section fun a => by
    simp only [authSteps, runSteps, bind_pure_unit]
    rfl
  have hlog : loadLog x j = runSteps (sectionSteps j "log" (logSteps x)) := runSteps_section fun l => by
    simp only [logSteps, runSteps, bind_pure_unit]
    rfl
  have hstats : loadStats x j = runSteps (sectionSteps j "stats" (statsSteps x)) := runSteps_section fun s => by
    simp only [statsSteps, runSteps, bind_pure_unit]
    rfl
  have hrotation : loadLogRotation x j = runSteps (sectionSteps j "log_rotation" (logRotationSteps x)) :=
    runSteps_section fun lr => by
      simp only [logRotationSteps, runSteps, bind_pure_unit]
      rfl
  have hrules : loadRules x j = runSteps (sectionSteps j "rules" fun _ => [⟨.rules, jsonToRules x j⟩]) := by
    rw [loadRules, sectionSteps, Json.contains_eq_isSome]
    cases j.entry "rules" with
    | none => rfl
    | some _ =>
      simp only [runSteps, bind_pure_unit]
      rfl
  simp only [loadSteps, runSteps_append, loadJson, happ, hproxy, hauth, hlog, hstats, hrotation, hrules, bind_assoc]

/-- What the steps make of a state. -/
theorem runSteps_run (l : List Step) (m : ConfigManager) :
    runSteps l m =
      match configFields.fault l with
      | none => .ok () (configFields.applyAll (configFields.applied l) m)
      | some e => .error e (configFields.applyAll (configFields.applied l) m) := by
  induction l generalizing m with
  | nil => rfl
  | cons s l ih =>
    obtain ⟨f, _ | v⟩ := s
    · rfl
    · exact ih _

theorem mem_sectionSteps_iff (j : Json) (key : String) (steps : Json → List Step) (fs : List Field) (f : Field)
    (h : ∀ a, (steps a).map (·.1) = fs) : f ∈ (sectionSteps j key steps).map (·.1) ↔ j.contains key = true ∧ f ∈ fs := by
  rw [sectionSteps, Json.contains_eq_isSome]
  cases j.entry key with
  | none => simp
  | some a => simp only [h, Option.isSome_some, true_and]

/-- A load assigns the fields of the sections that the file has. -/
theorem mem_loadSteps_iff {f : Field} : f ∈ (loadSteps x j).map (·.1) ↔ j.contains f.sectionKey = true := by
  have happ := mem_sectionSteps_iff j "app" (appSteps x) [.exePath] f fun _ => rfl
  have hproxy := mem_sectionSteps_iff j "proxy" (proxySteps x) [.host, .port, .proxyEnabled] f fun _ => rfl
  have hauth := mem_sectionSteps_iff j "auth" authSteps
    [.authEnabled, .username, .encryptedPassword, .kerberos] f fun _ => rfl
  have hlog := mem_sectionSteps_iff j "log" (logSteps x) [.level, .fileEnabled, .maxSizeMB] f fun _ => rfl
  have hstats := mem_sectionSteps_iff j "stats" (statsSteps x) [.updateIntervalMs] f fun _ => rfl
  have hrotation := mem_sectionSteps_iff j "log_rotation" (logRotationSteps x)
    [.rotationEnabled, .schedule, .hour, .minute, .maxAgeDays, .archiveDir, .compress] f fun _ => rfl
  have hrules := mem_sectionSteps_iff j "rules" (fun _ => [⟨.rules, jsonToRules x j⟩]) [.rules] f fun _ => rfl
  simp only [loadSteps, List.map_append, List.mem_append, happ, hproxy, hauth, hlog, hstats, hrotation, hrules]
  cases f <;> simp [Field.sectionKey]

theorem fields_section (j : Json) (key : String) (steps : Json → List Step) (fs : List Field)
    (h : ∀ a, (steps a).map (·.1) = fs) : ((sectionSteps j key steps).map (·.1)).Sublist fs := by
  rw [sectionSteps]
  split
  · rw [h]
  · exact List.nil_sublist _

/-- No field is assigned twice. -/
theorem nodup_loadSteps (x : Platform) (j : Json) : ((loadSteps x j).map (·.1)).Nodup := by
  have happ := fields_section j "app" (appSteps x) [.exePath] fun _ => rfl
  have hproxy := fields_section j "proxy" (proxySteps x) [.host, .port, .proxyEnabled] fun _ => rfl
  have hauth := fields_section j "auth" authSteps [.authEnabled, .username, .encryptedPassword, .kerberos] fun _ => rfl
  have hlog := fields_section j "log" (logSteps x) [.level, .fileEnabled, .maxSizeMB] fun _ => rfl
  have hstats := fields_section j "stats" (statsSteps x) [.updateIntervalMs] fun _ => rfl
  have hrotation := fields_section j "log_rotation" (logRotationSteps x)
    [.rotationEnabled, .schedule, .hour, .minute, .maxAgeDays, .archiveDir, .compress] fun _ => rfl
  have hrules := fields_section j "rules" (fun _ => [⟨.rules, jsonToRules x j⟩]) [.rules] fun _ => rfl
  have hall := (((((happ.append hproxy).append hauth).append hlog).append hstats).append hrotation).append hrules
  simp only [loadSteps, List.map_append]
  exact List.Nodup.sublist hall (by decide)

/-! ## Whole loads -/

/-- A load of an existing file. -/
theorem loadImpl_some {write : Write} {text : Bytes} (hread : x.read text = .ok j) :
    loadImpl x write m (some text) =
      ⟨match configFields.fault (loadSteps x j) with
        | none => some true
        | some (.exception _) => some false
        | some .undefined => none,
        configFields.applyAll (configFields.applied (loadSteps x j)) m, some text⟩ := by
  simp only [loadImpl, hread, loadJson_eq, runSteps_run]
  rcases configFields.fault (loadSteps x j) with _ | (_ | _) <;> rfl

/-- After a load that succeeds a field has the value that the file has for it. -/
theorem get_of_loadImpl {write : Write} {text : Bytes} {m' : ConfigManager} {disk : Disk} (hread : x.read text = .ok j)
    (h : loadImpl x write m (some text) = ⟨some true, m', disk⟩) {f : Field} {r : Except JsonFault f.Value}
    (hmem : ⟨f, r⟩ ∈ loadSteps x j) : r = .ok (f.get m') := by
  rw [loadImpl_some hread, Loaded.mk.injEq] at h
  obtain ⟨hresult, rfl, -⟩ := h
  have hfault : configFields.fault (loadSteps x j) = none := by
    rcases hf : configFields.fault (loadSteps x j) with _ | (_ | _)
    · rfl
    all_goals rw [hf] at hresult; cases hresult
  obtain ⟨v, rfl⟩ := Fields.exists_ok_of_mem hfault hmem
  exact congrArg _ (Fields.holds_applyAll (Fields.nodup_applied (nodup_loadSteps x j)) (Fields.mem_applied hfault hmem)).symm

/-- The other fields keep theirs. -/
theorem get_of_notMem {write : Write} {text : Bytes} {m' : ConfigManager} {disk : Disk} (hread : x.read text = .ok j)
    (h : loadImpl x write m (some text) = ⟨some true, m', disk⟩) {f : Field} (hf : f ∉ (loadSteps x j).map (·.1)) :
    f.get m' = f.get m := by
  rw [loadImpl_some hread, Loaded.mk.injEq] at h
  obtain ⟨-, rfl, -⟩ := h
  exact Fields.get_applyAll_of_notMem fun hmem => hf (Fields.map_applied_prefix.subset hmem)

end

end ConfigManager

end TR.Impl.Service
