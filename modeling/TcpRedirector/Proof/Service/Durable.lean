import TcpRedirector.Proof.Service.Reload

/-!
# Rules after a restart

`SetRules` gives the rules to the engine and writes them to the file. A
restarted service decides as the running one if they were written, and if none
of them has a type or an action without a name (`set_rules_durable`). Neither
is checked: the answer is success in any case.
-/

namespace TR.Impl.Service

open ConfigManager

section

variable {x : Platform}

/-- The strings of a rule from a request are well-formed. -/
theorem utf16_ruleOfParams {j : Json} (hj : j.Utf8) {r : Rule} (h : ruleOfParams x j = .ok r) :
    Utf16 r.pattern ∧ Utf16 r.description := by
  obtain ⟨id, -, h⟩ := Json.bind_eq_ok h
  obtain ⟨pattern, hpattern, h⟩ := Json.bind_eq_ok h
  obtain ⟨description, hdescription, h⟩ := Json.bind_eq_ok h
  obtain ⟨priority, -, h⟩ := Json.bind_eq_ok h
  obtain ⟨enabled, -, h⟩ := Json.bind_eq_ok h
  obtain ⟨type, -, h⟩ := Json.bind_eq_ok h
  obtain ⟨action, -, h⟩ := Json.bind_eq_ok h
  obtain ⟨v, hv, hs⟩ := Json.bind_eq_ok hpattern
  cases h
  exact ⟨utf16_utf8ToWide ((hj.constIndex hv).getString hs), utf16_utf8ToWide (hj.value_getString ⟨[], rfl⟩ hdescription)⟩

theorem mem_of_mapM {α β : Type} {f : α → Except JsonFault β} {l : List α} {l' : List β} (h : l.mapM f = .ok l') {b : β}
    (hb : b ∈ l') : ∃ a ∈ l, f a = .ok b := by
  induction l generalizing l' with
  | nil =>
    cases h
    cases hb
  | cons a l ih =>
    rw [List.mapM_cons] at h
    obtain ⟨b₀, hb₀, h⟩ := Json.bind_eq_ok h
    obtain ⟨l₀, hl₀, h⟩ := Json.bind_eq_ok h
    cases h
    rcases List.mem_cons.mp hb with rfl | hb
    · exact ⟨a, List.mem_cons_self, hb₀⟩
    · obtain ⟨a', ha', hf⟩ := ih hl₀ hb
      exact ⟨a', List.mem_cons_of_mem _ ha', hf⟩

theorem utf16_rulesOfParams (hx : x.toJsonText.Lawful) {params : Bytes} {rules : List Rule}
    (h : rulesOfParams x params = .ok rules) : ∀ r ∈ rules, Utf16 r.pattern ∧ Utf16 r.description := by
  intro r hr
  obtain ⟨j, hj, h⟩ := Json.bind_eq_ok h
  obtain ⟨arr, harr, h⟩ := Json.bind_eq_ok h
  obtain ⟨v, hv, hrule⟩ := mem_of_mapM h hr
  have hparse : x.parse params = .ok j := by
    rw [parseParams] at hj
    split at hj
    next j' hp =>
      cases hj
      exact hp
    next => cases hj
  exact utf16_ruleOfParams (((hx.parse_utf8 _ _ hparse).index harr).elements v hv) hrule

end

/-- The rules of the request are named, and get into the file. -/
def Durable (x : Platform) (env : Env) (params : Bytes) (s : TcpRedirectorService) : Prop :=
  ∃ rules, rulesOfParams x params = .ok rules ∧ (∀ r ∈ rules, Named r) ∧
    Persists x env.first { s.manager with rules := rules }

theorem failure_ne_success (error : Bytes) : failure error ≠ success := by
  intro h
  have hentry : (failure error).entry "error" = success.entry "error" := by rw [h]
  have hne : ascii "error" ≠ ascii "status" := by decide
  simp [failure, success, Json.entry_set_of_ne hne] at hentry

/-- After a request that was answered with success, whose rules are named and
could be written, the service that is started from the file decides every
process as the running one. -/
theorem set_rules_durable (x : Platform) (hx : x.Rereads) (hparse : x.toJsonText.Lawful) (env env' : Env) (params : Bytes)
    (s : TcpRedirectorService) (disk : Disk) (a : Answered) (hanswer : handle x env (.setRules params) s disk = some a)
    (hsuccess : a.response = success) (hdurable : Durable x env params s) :
    ∃ s', start x env' a.disk = some (s', a.disk) ∧
      ∀ processName processPath, RuleEngine.matchRule s'.engine processName processPath =
        RuleEngine.matchRule a.service.engine processName processPath := by
  obtain ⟨rules, hrules, hnamed, hpersists⟩ := hdurable
  obtain ⟨text, htext, hsave⟩ := saveImpl_of_persists hpersists
  have ha : a = ⟨success, { s with engine := x.sort rules, manager.rules := rules }, some text⟩ := by
    simp only [handle, handle.guarded, setRules, hrules, hsave] at hanswer
    split at hanswer
    · rw [← Option.some.inj hanswer] at hsuccess
      exact absurd hsuccess (failure_ne_success _)
    · exact (Option.some.inj hanswer).symm
  have hload := loadImpl_dump4 hx htext env'.first {}
  have hmanager : (afterLoad x { s.manager with rules := rules } {}).rules = rules :=
    (map_asRead_eq_iff (utf16_rulesOfParams hparse hrules)).mpr hnamed
  refine ⟨assemble x (afterLoad x { s.manager with rules := rules } {}), ?_, fun processName processPath => ?_⟩
  · rw [ha]
    simp only [start, hload]
  · have hengine : (assemble x (afterLoad x { s.manager with rules := rules } {})).engine = a.service.engine := by
      rw [ha]
      exact congrArg x.sort hmanager
    rw [hengine]

namespace Demo

/-- `{"action":2,"pattern":"","type":..}`. -/
def ruleRequest (type : BitVec 64) : Json :=
  ((Json.null.set "action" (.unsigned 2)).set "pattern" (.string [])).set "type" (.unsigned type)

/-- `{"rules":[..]}`. -/
def rulesRequest (type : BitVec 64) : Json := Json.null.set "rules" (.array [ruleRequest type])

/-- The rule that is read from it. -/
def blockRule (type : RuleType) : Rule := { id := [], type := type, action := .block, pattern := [] }

theorem platform_lawful {files requests : List Json} (h : ∀ j ∈ requests, j.Utf8) :
    (platform files requests).toJsonText.Lawful := JsonText.reading_lawful h

theorem utf8_rulesRequest (type : BitVec 64) : (rulesRequest type).Utf8 := by
  have hrule : (ruleRequest type).Utf8 :=
    ((Json.Utf8.null.set (by decide) .unsigned).set (by decide) (.string ⟨[], rfl⟩)).set (by decide) .unsigned
  refine Json.Utf8.null.set (by decide) (.array fun j hj => ?_)
  rw [List.mem_singleton.mp hj]
  exact hrule

theorem ruleOfParams_ruleRequest (x : Platform) (type : BitVec 64) :
    ruleOfParams x (ruleRequest type) = .ok (blockRule (.ofInt (type.setWidth 32))) := by
  have hread : ruleOfParams x (ruleRequest type) = .ok
      { id := [], type := .ofInt (type.setWidth 32), action := .ofInt 2, pattern := widen x [],
        description := widen x [] } := by
    rfl
  have hempty : widen x [] = [] := utf8ToWide_nil
  have haction : RuleAction.ofInt 2 = .block := by decide
  rw [hread, hempty, haction]
  rfl

theorem rulesOfParams_rulesRequest (files : List Json) (type : BitVec 64) :
    rulesOfParams (platform files [rulesRequest type]) (rulesRequest type).compact =
      .ok [blockRule (.ofInt (type.setWidth 32))] := by
  have hparse : parseParams (platform files [rulesRequest type]) (rulesRequest type).compact = .ok (rulesRequest type) := by
    simp [parseParams, platform, JsonText.reading]
  have hindex : (rulesRequest type).index "rules" = .ok (.array [ruleRequest type]) :=
    Json.index_of_entry (Json.entry_set_self ..)
  simp only [rulesOfParams, hparse, hindex, bind, Except.bind]
  exact mapM_eq_map (g := fun _ => blockRule (.ofInt (type.setWidth 32))) fun j hj => by
    rw [List.mem_singleton.mp hj, ruleOfParams_ruleRequest]

/-- The file after such a request to a service with defaults. -/
def rulesFile (type : RuleType) : Json := ConfigManager.toJson { rules := [blockRule type] }

/-- A system that can write it. -/
noncomputable def rulesPlatform (type : BitVec 64) : Platform :=
  platform [rulesFile (.ofInt (type.setWidth 32))] [rulesRequest type]

theorem rulesPlatform_rereads (type : BitVec 64) : (rulesPlatform type).Rereads := platform_rereads

theorem sort_singleton (type : BitVec 64) (r : Rule) : (rulesPlatform type).sort [r] = [r] :=
  List.perm_singleton.mp ((platform_sorts _ _).sort_perm [r])

theorem dump4_rulesFile (type : BitVec 64) :
    (rulesPlatform type).dump4 (rulesFile (.ofInt (type.setWidth 32))) =
      .ok ((rulesFile (.ofInt (type.setWidth 32))).indented 0) := platform_dump4

theorem saved_rulesFile (type : BitVec 64) (disk : Disk) :
    saveImpl (rulesPlatform type) .complete { rules := [blockRule (.ofInt (type.setWidth 32))] } disk =
      (true, some ((rulesFile (.ofInt (type.setWidth 32))).indented 0)) := by
  have hdump := dump4_rulesFile type
  rw [rulesFile] at hdump ⊢
  simp only [saveImpl, hdump, Write.written]

/-- What the request leaves. -/
theorem handle_rulesRequest (type : BitVec 64) (hsize : (rulesRequest type).compact.length ≤ MAX_IPC_MESSAGE_SIZE) :
    handle (rulesPlatform type) {} (.setRules (rulesRequest type).compact) (assemble (rulesPlatform type) {}) none =
      some ⟨success, { assemble (rulesPlatform type) {} with
        engine := (rulesPlatform type).sort [blockRule (.ofInt (type.setWidth 32))]
        manager := { rules := [blockRule (.ofInt (type.setWidth 32))] } },
        some ((rulesFile (.ofInt (type.setWidth 32))).indented 0)⟩ := by
  have hrules := rulesOfParams_rulesRequest [rulesFile (.ofInt (type.setWidth 32))] type
  rw [← rulesPlatform] at hrules
  simp only [handle, handle.guarded, if_neg (Nat.not_lt.mpr hsize), setRules, hrules]
  rw [show (assemble (rulesPlatform type) {}).manager = {} from rfl, saved_rulesFile]

end Demo

/-- A Block rule for every process holds after a restart. -/
theorem set_rules_durable_global :
    let x := Demo.rulesPlatform 2
    ∃ a s', handle x {} (.setRules (Demo.rulesRequest 2).compact) (assemble x {}) none = some a ∧
      start x {} a.disk = some (s', a.disk) ∧ ∀ processName processPath,
        RuleEngine.matchRule s'.engine processName processPath =
          RuleEngine.matchRule a.service.engine processName processPath := by
  intro x
  have hanswer := Demo.handle_rulesRequest 2 (by decide)
  have hdurable : Durable x {} (Demo.rulesRequest 2).compact (assemble x {}) := by
    refine ⟨[Demo.blockRule .global], Demo.rulesOfParams_rulesRequest _ 2, ?_, ?_⟩
    · intro r hr
      rw [List.mem_singleton.mp hr]
      exact ⟨rfl, rfl⟩
    · exact ⟨_, Demo.dump4_rulesFile 2, rfl⟩
  obtain ⟨s', hs', hmatch⟩ := set_rules_durable x (Demo.rulesPlatform_rereads 2)
    (Demo.platform_lawful fun j hj => List.mem_singleton.mp hj ▸ Demo.utf8_rulesRequest 2) {} {} _ (assemble x {}) none _
    hanswer rfl hdurable
  exact ⟨_, s', hanswer, hs', hmatch⟩

/-- A rule of type 7 matches nothing until the service is restarted, and then
blocks every process. -/
theorem set_rules_not_durable :
    let x := Demo.rulesPlatform 7
    ∃ a s', handle x {} (.setRules (Demo.rulesRequest 7).compact) (assemble x {}) none = some a ∧ a.response = success ∧
      start x {} a.disk = some (s', a.disk) ∧
      RuleEngine.matchRule a.service.engine [97] [97] = .direct ∧ RuleEngine.matchRule s'.engine [97] [97] = .block := by
  intro x
  have hload := loadImpl_dump4 (Demo.rulesPlatform_rereads 7) (Demo.dump4_rulesFile 7) .complete {}
  have hpattern : widen x (wideToUtf8 []) = [] := utf8ToWide_wideToUtf8 ⟨[], rfl⟩
  refine ⟨_, assemble x (afterLoad x { rules := [Demo.blockRule (.ofInt 7)] } {}),
    Demo.handle_rulesRequest 7 (by decide), rfl, ?_, ?_, ?_⟩
  · simp only [start, x]
    rw [hload]
    rfl
  · rw [Demo.sort_singleton]
    decide
  · show RuleEngine.matchRule (x.sort [asRead x (Demo.blockRule (.ofInt 7))]) [97] [97] = .block
    rw [Demo.sort_singleton, asRead, Demo.blockRule, hpattern]
    decide

end TR.Impl.Service
