import TcpRedirector.Impl.Service.ConfigManager
import TcpRedirector.Proof.Framework.Entries
import TcpRedirector.Proof.Framework.Unicode

/-!
# What is saved is loaded

`SaveImpl` writes every section that `LoadImpl` reads, and the sections are
read back one by one: all but `authMode`, which neither mentions, and the rule
types and actions without a name, if they have all got into the file
(`save_load_iff`).
-/

namespace TR.Impl.Service

/-- What is used of the library that writes and reads the file. -/
structure Platform.Rereads (x : Platform) : Prop where
  read_dump4 : ∀ j b, x.dump4 j = .ok b → x.read b = .ok j.reread

/-- An object whose text is cut off has not ended. -/
structure Platform.RejectsCut (x : Platform) : Prop where
  read_take : ∀ l b n, x.dump4 (.object l) = .ok b → n < b.length → ∃ what, x.read (b.take n) = .error what

namespace ConfigManager

/-! ## The sections of the file -/

def appJson (c : Config) : Json := Json.null.set "exePath" (.string (wideToUtf8 c.app.exePath))

def proxyJson (c : Config) : Json :=
  ((Json.null.set "host" (.string c.proxy.host)).set "port" (.unsigned (c.proxy.port.setWidth 64))).set "enabled"
    (.boolean c.proxy.enabled)

def authJson (c : Config) : Json :=
  (((Json.null.set "enabled" (.boolean c.auth.enabled)).set "username" (.string c.auth.username)).set "encryptedPassword"
    (.string c.auth.encryptedPassword)).set "kerberos" (.boolean c.auth.kerberos)

def logJson (c : Config) : Json :=
  ((Json.null.set "level" (jsonInt c.log.level)).set "fileEnabled" (.boolean c.log.fileEnabled)).set "maxSizeMB"
    (jsonInt c.log.maxSizeMB)

def logRotationJson (c : Config) : Json :=
  ((((((Json.null.set "enabled" (.boolean c.log_rotation.enabled)).set "schedule" (.string c.log_rotation.schedule)).set
    "hour" (jsonInt c.log_rotation.hour)).set "minute" (jsonInt c.log_rotation.minute)).set "max_age_days"
    (jsonInt c.log_rotation.max_age_days)).set "archive_dir" (.string c.log_rotation.archive_dir)).set "compress"
    (.boolean c.log_rotation.compress)

def statsJson (c : Config) : Json := Json.null.set "updateIntervalMs" (jsonInt c.stats.updateIntervalMs)

/-- The file has one object for each section. -/
theorem toJson_eq (m : ConfigManager) :
    m.toJson = ((((((Json.null.set "app" (appJson m.config)).set "proxy" (proxyJson m.config)).set "auth"
      (authJson m.config)).set "log" (logJson m.config)).set "log_rotation" (logRotationJson m.config)).set "stats"
      (statsJson m.config)).set "rules" (rulesToJson m.rules) := by
  have hfirst : Json.null.put "app" "exePath" (.string (wideToUtf8 m.config.app.exePath)) =
      Json.null.set "app" (appJson m.config) := rfl
  have hnew {j v w : Json} {k' o k : String} (h : (j.set k' v).entry o = none) := Json.put_of_entry_none (k := k) (w := w) h
  simp only [toJson, hfirst]
  rw [hnew (by simp (disch := decide) [Json.entry_set_of_ne]), Json.put_set_self, Json.put_set_self]
  rw [hnew (by simp (disch := decide) [Json.entry_set_of_ne]), Json.put_set_self, Json.put_set_self, Json.put_set_self]
  rw [hnew (by simp (disch := decide) [Json.entry_set_of_ne]), Json.put_set_self, Json.put_set_self]
  rw [hnew (by simp (disch := decide) [Json.entry_set_of_ne])]
  simp only [Json.put_set_self]
  rw [hnew (by simp (disch := decide) [Json.entry_set_of_ne])]
  rfl

theorem toJson_sections (m : ConfigManager) :
    m.toJson.entry "app" = some (appJson m.config) ∧ m.toJson.entry "proxy" = some (proxyJson m.config) ∧
    m.toJson.entry "auth" = some (authJson m.config) ∧ m.toJson.entry "log" = some (logJson m.config) ∧
    m.toJson.entry "stats" = some (statsJson m.config) ∧
    m.toJson.entry "log_rotation" = some (logRotationJson m.config) ∧
    m.toJson.entry "rules" = some (rulesToJson m.rules) := by
  rw [toJson_eq]
  simp (disch := decide) [Json.entry_set_of_ne]

/-! ## Reading them -/

section

variable {x : Platform} {j : Json} {c : Config} {m : ConfigManager}

theorem bind_of_ok {α β : Type} {p : LoadProg α} {q : α → LoadProg β} {a : α} {m' : ConfigManager} (h : p m = .ok a m') :
    (p >>= q) m = q a m' := by
  show EStateM.bind p q m = _
  rw [EStateM.bind, h]

theorem assign_of_ok {α : Type} {r : Except JsonFault α} {set : α → ConfigManager → ConfigManager} {v : α} (h : r = .ok v) :
    assign r set m = .ok () (set v m) := by
  subst h
  rfl

/-- A section that is there is read from its object. -/
theorem access_section {o : String} {v : Json} (h : j.entry o = some v) : access (j.reread.index o) m = .ok v.reread m := by
  rw [Json.index_of_entry (Json.entry_reread_of_entry h)]
  rfl

/-- An entry of an object that was read back. -/
theorem value_reread {α : Type} {get : Json → Except JsonFault α} {k : String} {d a : α} {v : Json} (h : j.entry k = some v)
    (hget : get v.reread = .ok a) : j.reread.value get k d = .ok a := by
  rw [Json.value_of_entry (Json.entry_reread_of_entry h), hget]

theorem loadApp_reread (h : j.entry "app" = some (appJson c)) :
    loadApp x j.reread m = .ok () { m with config.app.exePath := widen x (wideToUtf8 c.app.exePath) } := by
  rw [loadApp, if_pos (Json.contains_of_entry (Json.entry_reread_of_entry h)), bind_of_ok (access_section h)]
  have hentry : (appJson c).entry "exePath" = some (.string (wideToUtf8 c.app.exePath)) := Json.entry_set_self ..
  have hpath : ((appJson c).reread.index "exePath" >>= Json.getString) = .ok (wideToUtf8 c.app.exePath) := by
    rw [Json.index_of_entry (Json.entry_reread_of_entry hentry)]
    rfl
  rw [assign_of_ok hpath]

theorem loadProxy_reread (h : j.entry "proxy" = some (proxyJson c)) :
    loadProxy x j.reread m = .ok () { m with config.proxy := c.proxy } := by
  obtain ⟨hhost, hport, henabled⟩ : (proxyJson c).entry "host" = some (.string c.proxy.host) ∧
      (proxyJson c).entry "port" = some (.unsigned (c.proxy.port.setWidth 64)) ∧
      (proxyJson c).entry "enabled" = some (.boolean c.proxy.enabled) := by
    simp (disch := decide) [proxyJson, Json.entry_set_of_ne]
  have hport16 : ((c.proxy.port.setWidth 64).setWidth 32).setWidth 16 = c.proxy.port := by
    apply BitVec.eq_of_toNat_eq
    simp only [BitVec.toNat_setWidth]
    omega
  rw [loadProxy, if_pos (Json.contains_of_entry (Json.entry_reread_of_entry h)), bind_of_ok (access_section h)]
  rw [bind_of_ok (assign_of_ok (value_reread hhost (Json.getString_reread _))),
    bind_of_ok (assign_of_ok (value_reread hport (Json.getInt_reread_unsigned _ _))),
    assign_of_ok (value_reread henabled (Json.getBool_reread _)), hport16]

theorem loadAuth_reread (h : j.entry "auth" = some (authJson c)) :
    loadAuth j.reread m = .ok () { m with config.auth := { c.auth with authMode := m.config.auth.authMode } } := by
  obtain ⟨henabled, huser, hpassword, hkerberos⟩ : (authJson c).entry "enabled" = some (.boolean c.auth.enabled) ∧
      (authJson c).entry "username" = some (.string c.auth.username) ∧
      (authJson c).entry "encryptedPassword" = some (.string c.auth.encryptedPassword) ∧
      (authJson c).entry "kerberos" = some (.boolean c.auth.kerberos) := by
    simp (disch := decide) [authJson, Json.entry_set_of_ne]
  rw [loadAuth, if_pos (Json.contains_of_entry (Json.entry_reread_of_entry h)), bind_of_ok (access_section h)]
  rw [bind_of_ok (assign_of_ok (value_reread henabled (Json.getBool_reread _))),
    bind_of_ok (assign_of_ok (value_reread huser (Json.getString_reread _))),
    bind_of_ok (assign_of_ok (value_reread hpassword (Json.getString_reread _))),
    assign_of_ok (value_reread hkerberos (Json.getBool_reread _))]

theorem loadLog_reread (h : j.entry "log" = some (logJson c)) :
    loadLog x j.reread m = .ok () { m with config.log := c.log } := by
  obtain ⟨hlevel, hfile, hsize⟩ : (logJson c).entry "level" = some (jsonInt c.log.level) ∧
      (logJson c).entry "fileEnabled" = some (.boolean c.log.fileEnabled) ∧
      (logJson c).entry "maxSizeMB" = some (jsonInt c.log.maxSizeMB) := by
    simp (disch := decide) [logJson, Json.entry_set_of_ne]
  rw [loadLog, if_pos (Json.contains_of_entry (Json.entry_reread_of_entry h)), bind_of_ok (access_section h)]
  rw [bind_of_ok (assign_of_ok (value_reread hlevel (Json.getInt_reread_integer _ _))),
    bind_of_ok (assign_of_ok (value_reread hfile (Json.getBool_reread _))),
    assign_of_ok (value_reread hsize (Json.getInt_reread_integer _ _))]

theorem loadStats_reread (h : j.entry "stats" = some (statsJson c)) :
    loadStats x j.reread m = .ok () { m with config.stats := c.stats } := by
  have hinterval : (statsJson c).entry "updateIntervalMs" = some (jsonInt c.stats.updateIntervalMs) := by simp [statsJson]
  rw [loadStats, if_pos (Json.contains_of_entry (Json.entry_reread_of_entry h)), bind_of_ok (access_section h)]
  rw [assign_of_ok (value_reread hinterval (Json.getInt_reread_integer _ _))]

theorem loadLogRotation_reread (h : j.entry "log_rotation" = some (logRotationJson c)) :
    loadLogRotation x j.reread m = .ok () { m with config.log_rotation := c.log_rotation } := by
  obtain ⟨henabled, hschedule, hhour, hminute, hage, hdir, hcompress⟩ :
      (logRotationJson c).entry "enabled" = some (.boolean c.log_rotation.enabled) ∧
      (logRotationJson c).entry "schedule" = some (.string c.log_rotation.schedule) ∧
      (logRotationJson c).entry "hour" = some (jsonInt c.log_rotation.hour) ∧
      (logRotationJson c).entry "minute" = some (jsonInt c.log_rotation.minute) ∧
      (logRotationJson c).entry "max_age_days" = some (jsonInt c.log_rotation.max_age_days) ∧
      (logRotationJson c).entry "archive_dir" = some (.string c.log_rotation.archive_dir) ∧
      (logRotationJson c).entry "compress" = some (.boolean c.log_rotation.compress) := by
    simp (disch := decide) [logRotationJson, Json.entry_set_of_ne]
  rw [loadLogRotation, if_pos (Json.contains_of_entry (Json.entry_reread_of_entry h)), bind_of_ok (access_section h)]
  rw [bind_of_ok (assign_of_ok (value_reread henabled (Json.getBool_reread _))),
    bind_of_ok (assign_of_ok (value_reread hschedule (Json.getString_reread _))),
    bind_of_ok (assign_of_ok (value_reread hhour (Json.getInt_reread_integer _ _))),
    bind_of_ok (assign_of_ok (value_reread hminute (Json.getInt_reread_integer _ _))),
    bind_of_ok (assign_of_ok (value_reread hage (Json.getInt_reread_integer _ _))),
    bind_of_ok (assign_of_ok (value_reread hdir (Json.getString_reread _))),
    assign_of_ok (value_reread hcompress (Json.getBool_reread _))]

def isNamedType : RuleType → Bool
  | .unnamed _ => false
  | _ => true

def isNamedAction : RuleAction → Bool
  | .unnamed _ => false
  | _ => true

/-- The rule's type and action have names. -/
def Named (r : Rule) : Prop := isNamedType r.type = true ∧ isNamedAction r.action = true

/-- A rule as it is read back: a type or an action without a name becomes the default. -/
def asRead (x : Platform) (r : Rule) : Rule where
  id := r.id
  type := if isNamedType r.type then r.type else .processName
  action := if isNamedAction r.action then r.action else .proxy
  pattern := widen x (wideToUtf8 r.pattern)
  description := widen x (wideToUtf8 r.description)
  priority := r.priority
  enabled := r.enabled

theorem ruleToJson_entries (r : Rule) :
    (ruleToJson r).entry "id" = some (.string r.id) ∧
    (ruleToJson r).entry "pattern" = some (.string (wideToUtf8 r.pattern)) ∧
    (ruleToJson r).entry "description" = some (.string (wideToUtf8 r.description)) ∧
    (ruleToJson r).entry "priority" = some (jsonInt r.priority) ∧
    (ruleToJson r).entry "enabled" = some (.boolean r.enabled) ∧
    (ruleToJson r).entry "type" = some (.string (ruleTypeName r.type)) ∧
    (ruleToJson r).entry "action" = some (.string (ruleActionName r.action)) := by
  simp (disch := decide) [ruleToJson, Json.entry_set_of_ne]

theorem jsonToRule_reread (r : Rule) : jsonToRule x (ruleToJson r).reread = .ok (asRead x r) := by
  obtain ⟨hid, hpattern, hdescription, hpriority, henabled, htype, haction⟩ := ruleToJson_entries r
  rw [jsonToRule, value_reread hid (Json.getString_reread _),
    Json.constIndex_of_entry (Json.entry_reread_of_entry hpattern), value_reread hdescription (Json.getString_reread _),
    value_reread hpriority (Json.getInt_reread_integer _ _), value_reread henabled (Json.getBool_reread _),
    value_reread htype (Json.getString_reread _), value_reread haction (Json.getString_reread _)]
  simp only [bind, Except.bind, Json.getString_reread, pure, Except.pure, asRead]
  congr 2
  · cases r.type <;> rfl
  · cases r.action <;> rfl

theorem asRead_eq_iff {r : Rule} (hp : Utf16 r.pattern) (hd : Utf16 r.description) : asRead x r = r ↔ Named r := by
  have hpattern : widen x (wideToUtf8 r.pattern) = r.pattern := utf8ToWide_wideToUtf8 hp
  have hdescription : widen x (wideToUtf8 r.description) = r.description := utf8ToWide_wideToUtf8 hd
  rw [asRead, hpattern, hdescription]
  obtain ⟨id, type, action, pattern, description, priority, enabled⟩ := r
  simp only [Named, Rule.mk.injEq, true_and, and_true]
  refine and_congr ?_ ?_
  · cases type <;> simp [isNamedType]
  · cases action <;> simp [isNamedAction]

theorem mapM_eq_map {α β : Type} {f : α → Except JsonFault β} {g : α → β} {l : List α} (h : ∀ a ∈ l, f a = .ok (g a)) :
    l.mapM f = .ok (l.map g) := by
  induction l with
  | nil => rfl
  | cons a l ih =>
    rw [List.mapM_cons, h a List.mem_cons_self, ih fun b hb => h b (List.mem_cons_of_mem _ hb)]
    rfl

theorem loadRules_reread {rules : List Rule} (h : j.entry "rules" = some (rulesToJson rules)) :
    loadRules x j.reread m = .ok () { m with rules := rules.map (asRead x) } := by
  have hcontains := Json.contains_of_entry (Json.entry_reread_of_entry h)
  have hrules : jsonToRules x j.reread = .ok (rules.map (asRead x)) := by
    rw [jsonToRules, if_pos hcontains, Json.constIndex_of_entry (Json.entry_reread_of_entry h)]
    show ((rulesToJson rules).reread.elements.mapM (jsonToRule x)) = _
    rw [rulesToJson, Json.reread, Json.elements, Json.rereadElements_eq_map, List.map_map, List.mapM_map]
    exact mapM_eq_map fun r _ => jsonToRule_reread r
  rw [loadRules, if_pos hcontains, assign_of_ok hrules]

end

/-- What `LoadImpl` reads of a saved configuration. -/
def afterLoad (x : Platform) (m fresh : ConfigManager) : ConfigManager where
  config := { m.config with
    app.exePath := widen x (wideToUtf8 m.config.app.exePath)
    auth.authMode := fresh.config.auth.authMode }
  rules := m.rules.map (asRead x)

theorem loadJson_reread (x : Platform) (m fresh : ConfigManager) :
    loadJson x m.toJson.reread fresh = .ok () (m.afterLoad x fresh) := by
  obtain ⟨happ, hproxy, hauth, hlog, hstats, hrotation, hrules⟩ := toJson_sections m
  rw [loadJson, bind_of_ok (loadApp_reread happ), bind_of_ok (loadProxy_reread hproxy),
    bind_of_ok (loadAuth_reread hauth), bind_of_ok (loadLog_reread hlog), bind_of_ok (loadStats_reread hstats),
    bind_of_ok (loadLogRotation_reread hrotation), loadRules_reread hrules]
  rfl

/-- The configuration gets into the file as a whole. -/
def Persists (x : Platform) (write : Write) (m : ConfigManager) : Prop :=
  ∃ text, x.dump4 m.toJson = .ok text ∧ write.written text = some text

/-- What was written is the text or the beginning of it. -/
theorem eq_or_take_of_written {write : Write} {text file : Bytes} (h : write.written text = some file) :
    file = text ∨ ∃ n, n < text.length ∧ file = text.take n := by
  cases write with
  | complete => exact .inl (Option.some.inj h).symm
  | cut n =>
    rcases Nat.lt_or_ge n text.length with hn | hn
    · exact .inr ⟨n, hn, (Option.some.inj h).symm⟩
    · exact .inl ((Option.some.inj h).symm.trans (List.take_of_length_le hn))
  | refused => cases h

/-- A save that succeeded has written what there is of the text. -/
theorem saveImpl_true {x : Platform} {write : Write} {m : ConfigManager} {disk disk' : Disk}
    (h : saveImpl x write m disk = (true, disk')) :
    ∃ text file, x.dump4 m.toJson = .ok text ∧ write.written text = some file ∧ disk' = some file := by
  rw [saveImpl] at h
  cases hdump : x.dump4 m.toJson with
  | error what =>
    rw [hdump] at h
    cases h
  | ok text =>
    cases hfile : write.written text with
    | none =>
      simp only [hdump, hfile] at h
      cases h
    | some file =>
      simp only [hdump, hfile] at h
      exact ⟨text, file, rfl, hfile, (Prod.mk.inj h).2.symm⟩

/-- A save of the whole configuration succeeds, whatever the file was. -/
theorem saveImpl_of_persists {x : Platform} {write : Write} {m : ConfigManager} (h : Persists x write m) :
    ∃ text, x.dump4 m.toJson = .ok text ∧ ∀ disk, saveImpl x write m disk = (true, some text) := by
  obtain ⟨text, htext, hfile⟩ := h
  exact ⟨text, htext, fun disk => by simp only [saveImpl, htext, hfile]⟩

/-- A load of its text succeeds. -/
theorem loadImpl_dump4 {x : Platform} (hx : x.Rereads) {m : ConfigManager} {text : Bytes}
    (htext : x.dump4 m.toJson = .ok text) (write : Write) (fresh : ConfigManager) :
    loadImpl x write fresh (some text) = ⟨some true, m.afterLoad x fresh, some text⟩ := by
  simp only [loadImpl, hx.read_dump4 _ _ htext, loadJson_reread]

/-- The file holds an object. -/
theorem toJson_object (m : ConfigManager) : ∃ l, m.toJson = .object l := by
  rw [toJson_eq]
  generalize ((((((Json.null.set "app" (appJson m.config)).set "proxy" (proxyJson m.config)).set "auth"
    (authJson m.config)).set "log" (logJson m.config)).set "log_rotation" (logRotationJson m.config)).set "stats"
    (statsJson m.config)) = j
  cases j <;> exact ⟨_, rfl⟩

/-- A load of a part of it does not. -/
theorem loadImpl_cut {x : Platform} (hx : x.RejectsCut) {m : ConfigManager} {text : Bytes}
    (htext : x.dump4 m.toJson = .ok text) {n : Nat} (hn : n < text.length) (write : Write) (fresh : ConfigManager) :
    loadImpl x write fresh (some (text.take n)) = ⟨some false, fresh, some (text.take n)⟩ := by
  obtain ⟨l, hl⟩ := toJson_object m
  obtain ⟨what, hwhat⟩ := hx.read_take l text n (hl ▸ htext) hn
  simp only [loadImpl, hwhat]

/-- All wide strings are well-formed. -/
structure Unicode (m : ConfigManager) : Prop where
  exePath : Utf16 m.config.app.exePath
  rules : ∀ r ∈ m.rules, Utf16 r.pattern ∧ Utf16 r.description

theorem map_asRead_eq_self_iff {x : Platform} {rules : List Rule} :
    rules.map (asRead x) = rules ↔ ∀ r ∈ rules, asRead x r = r := by
  have hinj := List.map_inj_left (l := rules) (f := asRead x) (g := id)
  rwa [List.map_id] at hinj

theorem map_asRead_eq_iff {x : Platform} {rules : List Rule} (hu : ∀ r ∈ rules, Utf16 r.pattern ∧ Utf16 r.description) :
    rules.map (asRead x) = rules ↔ ∀ r ∈ rules, Named r :=
  map_asRead_eq_self_iff.trans (forall₂_congr fun r hr => asRead_eq_iff (hu r hr).1 (hu r hr).2)

theorem afterLoad_eq_iff {x : Platform} {m : ConfigManager} (hu : m.Unicode) (fresh : ConfigManager) :
    m.afterLoad x fresh = m ↔ m.config.auth.authMode = fresh.config.auth.authMode ∧ ∀ r ∈ m.rules, Named r := by
  have hpath : widen x (wideToUtf8 m.config.app.exePath) = m.config.app.exePath := utf8ToWide_wideToUtf8 hu.exePath
  rw [← map_asRead_eq_iff hu.rules, afterLoad, hpath]
  constructor
  · intro h
    exact ⟨(congrArg (·.config.auth.authMode) h).symm, congrArg ConfigManager.rules h⟩
  · rintro ⟨hmode, hrules⟩
    rw [hrules, ← hmode]

end ConfigManager

open ConfigManager

/-- A saved configuration is read back as it was exactly if it got into the
file as a whole, its mode of authentication is the default, which the file does
not hold, and all rules have a type and an action with a name. -/
theorem save_load_iff (x : Platform) (hx : x.Rereads) (hcut : x.RejectsCut) (m : ConfigManager) (hu : m.Unicode)
    (write write' : Write) (disk disk' : Disk) (hsave : saveImpl x write m disk = (true, disk')) :
    loadImpl x write' {} disk' = ⟨some true, m, disk'⟩ ↔
      Persists x write m ∧ m.config.auth.authMode = .kerberosPreferred ∧ ∀ r ∈ m.rules, Named r := by
  obtain ⟨text, file, htext, hfile, rfl⟩ := saveImpl_true hsave
  rcases eq_or_take_of_written hfile with rfl | ⟨n, hn, rfl⟩
  · rw [loadImpl_dump4 hx htext]
    simp only [Loaded.mk.injEq, true_and, and_true]
    exact (afterLoad_eq_iff hu {}).trans (and_iff_right ⟨_, htext, hfile⟩).symm
  · refine iff_of_false (fun h => ?_) fun ⟨⟨text', htext', hwhole⟩, _⟩ => ?_
    · rw [loadImpl_cut hcut htext hn] at h
      cases (Loaded.mk.inj h).1
    · cases htext.symm.trans htext'
      have hlen := congrArg List.length (Option.some.inj (hfile.symm.trans hwhole))
      rw [List.length_take] at hlen
      omega

/-! ## A platform for examples -/

namespace Demo

open Classical in
/-- Windows and the libraries, as far as the examples use them: `files` can be
written and read, `requests` can be received. -/
noncomputable def platform (files requests : List Json) : Platform where
  toJsonText := .reading requests
  dump4 j := if j ∈ files then .ok (j.indented 0) else .error (ascii "[json.exception.type_error.316] invalid UTF-8 byte")
  read b :=
    match files.find? (·.indented 0 = b) with
    | some j => .ok j.reread
    | none => .error (ascii "[json.exception.parse_error.101] parse error")
  toUInt16 bits := bits.setWidth 16
  illFormed b := b.map fun _ => 0xFFFD
  protect _ b := some (1 :: b)
  unprotect b := b.tail?
  sort l := l.mergeSort fun r s => r.priority.toInt ≤ s.priority.toInt

section

variable {files requests : List Json} {file : Json}

theorem platform_dump4_of_mem (h : file ∈ files) : (platform files requests).dump4 file = .ok (file.indented 0) := by
  simp [platform, h]

theorem platform_dump4 : (platform [file] requests).dump4 file = .ok (file.indented 0) :=
  platform_dump4_of_mem List.mem_cons_self

/-- What is written is read again if no two files have the same text. -/
theorem platform_rereads_of (h : ∀ j ∈ files, ∀ j' ∈ files, j.indented 0 = j'.indented 0 → j = j') :
    (platform files requests).Rereads where
  read_dump4 j b hdump := by
    simp only [platform] at hdump ⊢
    split at hdump
    next hj =>
      cases hdump
      cases hfind : files.find? (·.indented 0 = j.indented 0) with
      | none => simpa using List.find?_eq_none.mp hfind j hj
      | some j' =>
        have htext : j'.indented 0 = j.indented 0 := by simpa using List.find?_some hfind
        rw [h j' (List.mem_of_find?_eq_some hfind) j hj htext]
    next => cases hdump

theorem platform_rereads : (platform [file] requests).Rereads :=
  platform_rereads_of fun _ hj _ hj' _ => (List.mem_singleton.mp hj).trans (List.mem_singleton.mp hj').symm

/-- A part of the only file is no file. -/
theorem platform_rejectsCut : (platform [file] requests).RejectsCut where
  read_take l b n hdump hn := by
    simp only [platform] at hdump ⊢
    split at hdump
    next hl =>
      cases hdump
      rw [List.mem_singleton.mp hl] at hn ⊢
      have hne : file.indented 0 ≠ (file.indented 0).take n := fun h => by
        have hlen := congrArg List.length h
        rw [List.length_take] at hlen
        omega
      simp only [List.find?_cons, hne, decide_false, List.find?_nil]
      exact ⟨_, rfl⟩
    next => cases hdump

end

/-- A configuration with a Basic mode and a rule whose type has no name. -/
def unnamedType : ConfigManager where
  config := { auth.authMode := .basicOnly }
  rules := [{ id := ascii "r", type := .unnamed ⟨7, by decide⟩, pattern := [] }]

/-- The same with the default mode and a named type. -/
def globalRule : ConfigManager where
  rules := [{ id := ascii "r", type := .global, pattern := [] }]

end Demo

/-- The default configuration with one rule comes back. -/
theorem save_load_globalRule :
    let x := Demo.platform [Demo.globalRule.toJson] []
    loadImpl x .complete {} (some (Demo.globalRule.toJson.indented 0)) =
      ⟨some true, Demo.globalRule, some (Demo.globalRule.toJson.indented 0)⟩ := by
  refine (save_load_iff _ Demo.platform_rereads Demo.platform_rejectsCut Demo.globalRule ⟨⟨[], rfl⟩, ?_⟩ .complete
    .complete none _ ?_).mpr ⟨⟨_, Demo.platform_dump4, rfl⟩, rfl, ?_⟩
  · intro r hr
    rw [List.mem_singleton.mp hr]
    exact ⟨⟨[], rfl⟩, ⟨[], rfl⟩⟩
  · simp [saveImpl, Demo.platform_dump4, Write.written]
  · intro r hr
    rw [List.mem_singleton.mp hr]
    exact ⟨rfl, rfl⟩

/-- On a full disk the save reports success, and the file is empty. -/
example : saveImpl (Demo.platform [Demo.globalRule.toJson] []) (.cut 0) Demo.globalRule none = (true, some []) := by
  simp [saveImpl, Demo.platform_dump4, Write.written]

/-- The mode comes back as Kerberos, and the rule as one for a process name. -/
theorem save_load_unnamedType :
    let x := Demo.platform [Demo.unnamedType.toJson] []
    let loaded := loadImpl x .complete {} (saveImpl x .complete Demo.unnamedType none).2
    x.Rereads ∧ Demo.unnamedType.Unicode ∧ (saveImpl x .complete Demo.unnamedType none).1 = true ∧ loaded.result = some true ∧
      Demo.unnamedType.config.auth.authMode = .basicOnly ∧ loaded.manager.config.auth.authMode = .kerberosPreferred ∧
      loaded.manager.rules.map (·.type) = [.processName] := by
  intro x loaded
  have hu : Demo.unnamedType.Unicode := by
    refine ⟨⟨[], rfl⟩, fun r hr => ?_⟩
    rw [List.mem_singleton.mp hr]
    exact ⟨⟨[], rfl⟩, ⟨[], rfl⟩⟩
  have hsave : saveImpl x .complete Demo.unnamedType none = (true, some (Demo.unnamedType.toJson.indented 0)) := by
    simp [saveImpl, x, Demo.platform_dump4, Write.written]
  have hload : loaded = ⟨some true, Demo.unnamedType.afterLoad x {}, some (Demo.unnamedType.toJson.indented 0)⟩ := by
    show loadImpl x .complete {} (saveImpl x .complete Demo.unnamedType none).2 = _
    rw [hsave]
    exact loadImpl_dump4 Demo.platform_rereads Demo.platform_dump4 .complete {}
  rw [hload, hsave]
  exact ⟨Demo.platform_rereads, hu, rfl, rfl, rfl, rfl, rfl⟩

end TR.Impl.Service
