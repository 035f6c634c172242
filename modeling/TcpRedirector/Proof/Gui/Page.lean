import TcpRedirector.Impl.Gui.Settings
import TcpRedirector.Proof.Service.Durable

/-!
# The page that is read from the file

The hooks of the settings page settle in a state in which Kerberos implies
authentication (`ViewModel.Consistent`). So the page shows the file as it is
with two exceptions: the port, a number that is read as a string, is always
3128, and authentication is shown as required if Kerberos is on
(`loadFromConfig_eq`).
-/

namespace TR.Impl.Gui

open Service (Platform ConfigManager)
open Service.ConfigManager

namespace ViewModel

/-! ## Hooks -/

/-- What the hooks keep. -/
structure Consistent (vm : ViewModel) : Prop where
  index : (vm.authModeIndex == 1) = vm.kerberosEnabled
  required : vm.kerberosEnabled = true → vm.authRequired = true

section

variable {vm : ViewModel}

theorem setAuthRequired_true (n : Nat) (vm : ViewModel) :
    setAuthRequired (n + 1) true vm = { vm with authRequired := true } := by
  rw [setAuthRequired]
  split
  next h => rw [h]
  next => simp

/-- With Kerberos as it is, the index changes by itself. -/
theorem setAuthModeIndex_same (n : Nat) {value : BitVec 32} (h : (value == 1) = vm.kerberosEnabled) :
    setAuthModeIndex (n + 2) value vm = { vm with authModeIndex := value } := by
  rw [setAuthModeIndex]
  split
  next hv => rw [hv]
  next => rw [setKerberosEnabled, if_pos h]

theorem setKerberosEnabled_eq (n : Nat) (value : Bool) (h : vm.kerberosEnabled = true → vm.authRequired = true) :
    ∃ i, setKerberosEnabled (n + 3) value vm =
      { vm with authRequired := vm.authRequired || value, kerberosEnabled := value, authModeIndex := i } ∧
      (vm.kerberosEnabled = value → i = vm.authModeIndex) ∧ (vm.kerberosEnabled ≠ value → (i == 1) = value) := by
  rw [setKerberosEnabled]
  split
  next hv =>
    subst hv
    refine ⟨vm.authModeIndex, ?_, fun _ => rfl, fun hne => absurd rfl hne⟩
    have hor : (vm.authRequired || vm.kerberosEnabled) = vm.authRequired := by
      cases hk : vm.kerberosEnabled with
      | true => rw [h hk]; rfl
      | false => simp
    rw [hor]
  next hv =>
    refine ⟨if value then 1 else 0, ?_, fun he => absurd he.symm hv, fun _ => by cases value <;> rfl⟩
    dsimp only
    rw [setAuthModeIndex_same]
    · cases value with
      | false => simp
      | true =>
        cases vm.authRequired with
        | true => simp
        | false => simp [setAuthRequired_true]
    · cases value with
      | false => simp
      | true =>
        cases vm.authRequired with
        | true => simp
        | false => simp [setAuthRequired_true]

theorem setAuthModeIndex_eq (n : Nat) (value : BitVec 32) (h : vm.Consistent) :
    ∃ i, setAuthModeIndex (n + 4) value vm =
      { vm with authRequired := vm.authRequired || (value == 1), kerberosEnabled := value == 1, authModeIndex := i } ∧
      (i == 1) = (value == 1) := by
  rw [setAuthModeIndex]
  split
  next hv =>
    refine ⟨value, ?_, rfl⟩
    have hk : (value == 1) = vm.kerberosEnabled := by rw [hv, h.index]
    have hor : (vm.authRequired || vm.kerberosEnabled) = vm.authRequired := by
      cases hk : vm.kerberosEnabled with
      | true => rw [h.required hk]; rfl
      | false => simp
    rw [hk, hor, hv]
  next hv =>
    have hrequired : ({ vm with authModeIndex := value } : ViewModel).kerberosEnabled = true →
        ({ vm with authModeIndex := value } : ViewModel).authRequired = true := h.required
    obtain ⟨i, hi, hsame, hne⟩ := setKerberosEnabled_eq n (value == 1) hrequired
    refine ⟨i, hi, ?_⟩
    by_cases hk : vm.kerberosEnabled = (value == 1)
    · rw [hsame hk]
    · exact hne hk

/-- Kerberos is switched off with the index. -/
theorem setKerberosEnabled_false (n : Nat) (h : vm.kerberosEnabled = true) :
    setKerberosEnabled (n + 3) false vm = { vm with kerberosEnabled := false, authModeIndex := 0 } := by
  rw [setKerberosEnabled, if_neg (by simp [h])]
  dsimp only
  rw [Bool.false_and, if_neg Bool.false_ne_true, if_neg Bool.false_ne_true, setAuthModeIndex_same]
  rfl

theorem setAuthRequired_eq (n : Nat) (value : Bool) (h : vm.Consistent) :
    ∃ i, setAuthRequired (n + 4) value vm =
      { vm with authRequired := value, kerberosEnabled := value && vm.kerberosEnabled, authModeIndex := i } ∧
      (i == 1) = (value && vm.kerberosEnabled) := by
  cases value with
  | true => exact ⟨vm.authModeIndex, setAuthRequired_true _ vm, h.index⟩
  | false =>
    rw [setAuthRequired]
    split
    next hv =>
      have hk : vm.kerberosEnabled = false := by
        cases hk : vm.kerberosEnabled with
        | false => rfl
        | true => rw [h.required hk] at hv; cases hv
      refine ⟨vm.authModeIndex, ?_, h.index.trans hk⟩
      cases vm
      simp_all
    next hv =>
      cases hk : vm.kerberosEnabled with
      | false =>
        refine ⟨vm.authModeIndex, ?_, h.index.trans hk⟩
        simp
      | true =>
        refine ⟨0, ?_, rfl⟩
        dsimp only
        rw [if_pos (by simp), setKerberosEnabled_false _ rfl]
        rfl

/-! The setters at the depth of the page keep what the hooks keep. -/

theorem Consistent.setAuthRequired (h : vm.Consistent) (value : Bool) :
    ∃ i, setAuthRequired hookDepth value vm =
      { vm with authRequired := value, kerberosEnabled := value && vm.kerberosEnabled, authModeIndex := i } ∧
      (setAuthRequired hookDepth value vm).Consistent := by
  obtain ⟨i, hi, hindex⟩ := setAuthRequired_eq 1 value h
  have heq : ViewModel.setAuthRequired hookDepth value vm = _ := hi
  refine ⟨i, heq, ?_⟩
  rw [heq]
  exact ⟨hindex, fun hk => (Bool.and_eq_true_iff.mp hk).1⟩

theorem Consistent.setKerberosEnabled (h : vm.Consistent) (value : Bool) :
    ∃ i, setKerberosEnabled hookDepth value vm =
      { vm with authRequired := vm.authRequired || value, kerberosEnabled := value, authModeIndex := i } ∧
      (setKerberosEnabled hookDepth value vm).Consistent := by
  obtain ⟨i, hi, hsame, hne⟩ := setKerberosEnabled_eq 2 value h.required
  have heq : ViewModel.setKerberosEnabled hookDepth value vm = _ := hi
  refine ⟨i, heq, ?_⟩
  rw [heq]
  refine ⟨?_, fun hk => Bool.or_eq_true_iff.mpr (.inr hk)⟩
  by_cases hk : vm.kerberosEnabled = value
  · rw [hsame hk, h.index, hk]
  · exact hne hk

theorem Consistent.setAuthModeIndex (h : vm.Consistent) (value : BitVec 32) :
    ∃ i, setAuthModeIndex hookDepth value vm =
      { vm with authRequired := vm.authRequired || (value == 1), kerberosEnabled := value == 1, authModeIndex := i } ∧
      (setAuthModeIndex hookDepth value vm).Consistent := by
  obtain ⟨i, hi, hindex⟩ := setAuthModeIndex_eq 1 value h
  have heq : ViewModel.setAuthModeIndex hookDepth value vm = _ := hi
  refine ⟨i, heq, ?_⟩
  rw [heq]
  exact ⟨hindex, fun hk => Bool.or_eq_true_iff.mpr (.inr hk)⟩

/-- So does every edit, and with it every page. -/
theorem Consistent.edit (h : vm.Consistent) (e : Edit) : (vm.edit e).Consistent := by
  cases e with
  | authRequired value =>
    obtain ⟨i, -, hc⟩ := h.setAuthRequired value
    exact hc
  | authModeIndex value =>
    obtain ⟨i, -, hc⟩ := h.setAuthModeIndex value
    exact hc
  | _ => exact ⟨h.index, h.required⟩

theorem consistent_edits (edits : List Edit) : (edits.foldl ViewModel.edit {}).Consistent := by
  have hrun {vm : ViewModel} (h : vm.Consistent) : (edits.foldl ViewModel.edit vm).Consistent := by
    induction edits generalizing vm with
    | nil => exact h
    | cons e edits ih => exact ih (h.edit e)
  exact hrun ⟨by decide, by decide⟩

end

end ViewModel

/-! ## The libraries -/

/-- An ASCII character that is no capital letter. -/
def isLower (u : BitVec 16) : Bool := decide (u.toNat < 128 ∧ ¬(65 ≤ u.toNat ∧ u.toNat ≤ 90))

/-- What is used of .NET, next to the library of the service. -/
structure Runtime.Faithful (g : Runtime) (x : Platform) : Prop where
  parse_dump4 : ∀ (m : ConfigManager) b, x.dump4 m.toJson = .ok b → g.parse b = some m.toJson.reread
  decode_utf8 : ∀ cs, g.decode (encodeUtf8 cs) = encodeUtf16 cs
  toLowerInvariant_lower : ∀ s : WString, s.all isLower = true → g.toLowerInvariant s = s

/-- A value has a text if its strings are UTF-8. -/
structure Dumps (x : Platform) : Prop where
  utf8_of_dump4 : ∀ j b, x.dump4 j = .ok b → j.Utf8
  dump4_of_utf8 : ∀ j, j.Utf8 → ∃ b, x.dump4 j = .ok b

section

variable {g : Runtime} {x : Platform} {m : ConfigManager} {text : Bytes}

/-! ## Reading the file -/

/-- A runtime that decodes UTF-8 widens as the service does. -/
theorem decode_eq_widen (x : Platform) (hdecode : ∀ cs, g.decode (encodeUtf8 cs) = encodeUtf16 cs) {s : Bytes} (h : Utf8 s) :
    g.decode s = widen x s := by
  obtain ⟨cs, rfl⟩ := h
  rw [← encodeUtf8, hdecode, widen, utf8ToWide, decodeUtf8_encodeUtf8]

theorem getInt_reread (n : BitVec 32) : getInt (Service.ConfigManager.jsonInt n).reread = some n := by
  have hn : (n.signExtend 64).setWidth 32 = n := by
    ext i hi
    have hlt : i < 64 := by omega
    simp [BitVec.getElem_signExtend, hi, hlt]
  have hint : (n.signExtend 64).toInt = n.toInt := BitVec.toInt_signExtend_of_le (by decide)
  have hlow := n.le_toInt
  have hhigh := n.toInt_lt
  rw [Service.ConfigManager.jsonInt, Json.reread]
  split
  next => rw [getInt, hint, hn, if_pos (by omega)]
  next hmsb =>
    have hnat : (n.signExtend 64).toInt = (n.signExtend 64).toNat := BitVec.toInt_eq_toNat_of_msb (by simpa using hmsb)
    rw [getInt, hn, if_pos (by omega)]

theorem jsonInt_reread_ne_null (n : BitVec 32) : (Service.ConfigManager.jsonInt n).reread ≠ .null := by
  intro h
  have hint := getInt_reread n
  rw [h] at hint
  cases hint

/-- What a reader finds. -/
theorem readValue_of_entry {α : Type} {get : Json → Option α} {j v w : Json} {o k : String} {d : α} {a : Option α}
    (hload : load g text = some j.reread) (ho : j.entry o = some v) (hk : v.entry k = some w) (hget : get w.reread = a) :
    readValue g get text o k d = a.getD d := by
  rw [readValue, hload, Option.bind_some, Json.entry_reread_of_entry ho, Option.bind_some, Json.entry_reread_of_entry hk,
    Option.bind_some, hget]

theorem load_dump4 (hg : g.Faithful x) (h : x.dump4 m.toJson = .ok text) : load g text = some m.toJson.reread := by
  obtain ⟨l, hl⟩ : ∃ l, m.toJson.reread = .object l := by
    rw [toJson_eq]
    exact ⟨_, rfl⟩
  rw [load, hg.parse_dump4 m text h, hl]

theorem decode_ascii (hg : g.Faithful x) {s : String} (h : s.toList.all (·.toNat < 128) = true) :
    g.decode (ascii s) = literal s := by
  obtain ⟨h8, h16⟩ := encode_ascii h
  rw [← h8, hg.decode_utf8, h16, literal]

/-- A name in lower case is found. -/
theorem mapFromJson_string (hg : g.Faithful x) (one two : String) {s : String} (h : s.toList.all (·.toNat < 128) = true)
    (hlower : (literal s).all isLower = true) :
    mapFromJson g one two (some (.string (ascii s))) =
      if literal s = literal one then 1 else if literal s = literal two then 2 else 0 := by
  rw [mapFromJson, decode_ascii hg h, hg.toLowerInvariant_lower _ hlower]

theorem mapTypeFromJson_name (hg : g.Faithful x) (type : RuleType) :
    mapTypeFromJson g (some (.string (ruleTypeName type))) = (if isNamedType type then type else .processName).toInt := by
  cases type with
  | processPath =>
    rw [mapTypeFromJson, ruleTypeName, mapFromJson_string hg _ _ (by decide) (by decide)]
    decide
  | global =>
    rw [mapTypeFromJson, ruleTypeName, mapFromJson_string hg _ _ (by decide) (by decide)]
    decide
  | processName | unnamed =>
    show mapFromJson g "process_path" "global" (some (.string (ascii "process_name"))) = RuleType.processName.toInt
    rw [mapFromJson_string hg _ _ (by decide) (by decide)]
    decide

theorem mapActionFromJson_name (hg : g.Faithful x) (action : RuleAction) :
    mapActionFromJson g (some (.string (ruleActionName action))) =
    (if isNamedAction action then action else .proxy).toInt := by
  cases action with
  | direct =>
    rw [mapActionFromJson, ruleActionName, mapFromJson_string hg _ _ (by decide) (by decide)]
    decide
  | block =>
    rw [mapActionFromJson, ruleActionName, mapFromJson_string hg _ _ (by decide) (by decide)]
    decide
  | proxy | unnamed =>
    show mapFromJson g "direct" "block" (some (.string (ascii "proxy"))) = RuleAction.proxy.toInt
    rw [mapFromJson_string hg _ _ (by decide) (by decide)]
    decide

/-! ## Rules -/

/-- A rule of the file as the page shows it. -/
def shown (x : Platform) (now : WString) (r : TR.Impl.Rule) : Rule where
  id := widen x r.id
  type := (asRead x r).type.toInt
  action := (asRead x r).action.toInt
  pattern := widen x (wideToUtf8 r.pattern)
  description := widen x (wideToUtf8 r.description)
  priority := r.priority
  enabled := r.enabled
  created := now
  modified := now

theorem nodeValue_reread {α : Type} {get : Json → Option α} {j v : Json} {k : String} {d a : α} (hk : j.entry k = some v)
    (hget : get v.reread = some a) (hnull : v.reread ≠ .null) : nodeValue get j.reread k d = some a := by
  rw [nodeValue, Json.entry_reread_of_entry hk]
  split
  next h => cases h
  next h => exact absurd (Option.some.inj h) hnull
  next h =>
    cases h
    exact hget

theorem ruleOfNode_reread (hg : g.Faithful x) (guid now : WString) {r : TR.Impl.Rule} (hid : Utf8 r.id) :
    ruleOfNode g guid now (ruleToJson r).reread = some (some (shown x now r)) := by
  obtain ⟨hentryId, hpattern, hdescription, hpriority, henabled, htype, haction⟩ := ruleToJson_entries r
  have hstring {s : Bytes} : getString g (Json.string s).reread = some (g.decode s) := rfl
  have hbool {b : Bool} : getBool (Json.boolean b).reread = some b := rfl
  obtain ⟨l, hl⟩ : ∃ l, (ruleToJson r).reread = .object l := ⟨_, rfl⟩
  rw [hl, ruleOfNode, ← hl]
  rw [nodeValue_reread hentryId hstring (by simp [Json.reread]), nodeValue_reread hpattern hstring (by simp [Json.reread]),
    nodeValue_reread hdescription hstring (by simp [Json.reread]),
    nodeValue_reread hpriority (getInt_reread _) (jsonInt_reread_ne_null _),
    nodeValue_reread henabled hbool (by simp [Json.reread])]
  rw [Json.entry_reread_of_entry htype, Json.entry_reread_of_entry haction]
  simp only [Json.reread, mapTypeFromJson_name hg, mapActionFromJson_name hg, decode_eq_widen x hg.decode_utf8 hid,
    decode_eq_widen x hg.decode_utf8 (utf8_wideToUtf8 _)]
  rfl

theorem readRules_dump4 (hg : g.Faithful x) (hd : Dumps x) (guid now : WString) (h : x.dump4 m.toJson = .ok text) :
    readRules g guid now text = m.rules.map (shown x now) := by
  obtain ⟨-, -, -, -, -, -, hrules⟩ := toJson_sections m
  have hutf8 := (hd.utf8_of_dump4 _ _ h).of_entry hrules
  have hmapM : ((rulesToJson m.rules).reread.elements).mapM (ruleOfNode g guid now) =
      some (m.rules.map fun r => some (shown x now r)) := by
    rw [rulesToJson, Json.reread, Json.elements, Json.rereadElements_eq_map, List.map_map, List.mapM_map]
    refine Json.mapM_eq_some_map_iff.mpr fun r hr => ruleOfNode_reread hg guid now ?_
    obtain ⟨hid, -⟩ := ruleToJson_entries r
    cases (hutf8.elements _ (List.mem_map_of_mem hr)).of_entry hid with
    | string hs => exact hs
  rw [readRules, load_dump4 hg h, Option.bind_some, Json.entry_reread_of_entry hrules]
  have harray : (rulesToJson m.rules).reread = .array (rulesToJson m.rules).reread.elements := rfl
  rw [harray]
  dsimp only
  rw [hmapM]
  simp

/-- The page as it is read from the file of a configuration. -/
theorem loadFromConfig_eq (hg : g.Faithful x) (hd : Dumps x) (guid now : WString) (h : x.dump4 m.toJson = .ok text)
    {vm : ViewModel} (hvm : vm.Consistent) :
    ∃ i, vm.loadFromConfig g guid now text = {
      host := widen x m.config.proxy.host
      port := 3128
      authRequired := m.config.auth.enabled || m.config.auth.kerberos
      login := widen x m.config.auth.username
      password := []
      kerberosEnabled := m.config.auth.kerberos
      authModeIndex := i
      logLevelFilter := m.config.log.level
      rules := m.rules.map (shown x now) } := by
  obtain ⟨-, hproxy, hauth, hlog, -, -, -⟩ := toJson_sections m
  have hutf8 := hd.utf8_of_dump4 _ _ h
  have hload := load_dump4 hg h
  have hstring {o k : String} {d : WString} {v : Json} {s : Bytes} (ho : m.toJson.entry o = some v)
      (hk : v.entry k = some (.string s)) : readString g text o k d = widen x s := by
    rw [readString, readValue_of_entry (a := some (g.decode s)) hload ho hk rfl]
    cases (hutf8.of_entry ho).of_entry hk with
    | string hs => exact decode_eq_widen x hg.decode_utf8 hs
  have hbool {o k : String} {v : Json} {b : Bool} (ho : m.toJson.entry o = some v) (hk : v.entry k = some (.boolean b)) :
      readBool g text o k = b := readValue_of_entry (a := some b) hload ho hk rfl
  have hhost : readString g text "proxy" "host" (literal "127.0.0.1") = widen x m.config.proxy.host :=
    hstring hproxy (by simp (disch := decide) [proxyJson, Json.entry_set_of_ne])
  have hport : intTryParse (readString g text "proxy" "port" (literal "3128")) = some 3128 := by
    have hk : (proxyJson m.config).entry "port" = some (.unsigned (m.config.proxy.port.setWidth 64)) := by
      simp (disch := decide) [proxyJson, Json.entry_set_of_ne]
    rw [readString, readValue_of_entry (a := none) hload hproxy hk rfl]
    decide
  have henabled : readBool g text "auth" "enabled" = m.config.auth.enabled :=
    hbool hauth (by simp (disch := decide) [authJson, Json.entry_set_of_ne])
  have hkerberos : readBool g text "auth" "kerberos" = m.config.auth.kerberos :=
    hbool hauth (by simp [authJson])
  have hlogin : readString g text "auth" "username" [] = widen x m.config.auth.username :=
    hstring hauth (by simp (disch := decide) [authJson, Json.entry_set_of_ne])
  have hlevel : readInt g text "log" "level" 2 = m.config.log.level := by
    have hk : (logJson m.config).entry "level" = some (Service.ConfigManager.jsonInt m.config.log.level) := by
      simp (disch := decide) [logJson, Json.entry_set_of_ne]
    exact readValue_of_entry hload hlog hk (getInt_reread _)
  -- The hooks run with these values.
  have hvm₁ : ViewModel.Consistent { vm with host := widen x m.config.proxy.host, port := 3128 } := ⟨hvm.index, hvm.required⟩
  obtain ⟨i₁, h₁, hvm₂⟩ := hvm₁.setAuthRequired m.config.auth.enabled
  obtain ⟨i₂, h₂, hvm₃⟩ := hvm₂.setKerberosEnabled m.config.auth.kerberos
  obtain ⟨i₃, h₃, -⟩ := hvm₃.setAuthModeIndex (if m.config.auth.kerberos then 1 else 0)
  have hone : ((if m.config.auth.kerberos then 1 else 0 : BitVec 32) == 1) = m.config.auth.kerberos := by
    cases m.config.auth.kerberos <;> rfl
  refine ⟨i₃, ?_⟩
  simp only [ViewModel.loadFromConfig, hhost, hport, henabled, hkerberos, hlogin, hlevel, readRules_dump4 hg hd guid now h,
    Option.getD_some]
  rw [h₁] at h₂ h₃ ⊢
  rw [h₂] at h₃ ⊢
  dsimp only at h₃ ⊢
  rw [h₃, hone]
  simp

end

end TR.Impl.Gui
